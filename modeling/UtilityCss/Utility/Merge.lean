import UtilityCss.Text.Sorted
import UtilityCss.Utility.Basic

/-! Merging utilities that differ by their selectors only. -/
namespace UtilityCss.Utility

open Text (sortedDistinct)

/-- Whether two utilities share breakpoint, specificity and declarations. -/
def sameGroup (u v : Utility) : Bool :=
  u.breakpoint == v.breakpoint && u.specificity == v.specificity && u.css == v.css

/-- Adds a utility to its group; a new group comes last. -/
def addToGroups (u : Utility) : List (Utility × List Utility) → List (Utility × List Utility)
  | [] => [(u, [])]
  | (head, more) :: groups =>
    if head.sameGroup u then (head, more ++ [u]) :: groups else (head, more) :: addToGroups u groups

/-- The groups in the order of their first members, each as its first member and the others. -/
def groups (utilities : List Utility) : List (Utility × List Utility) :=
  utilities.foldl (fun acc u => addToGroups u acc) []

/-- A sibling that says something. -/
def realSibling? (u : Utility) : Option String := u.sibling.filter (!·.isEmpty)

/-- One utility for a group: the distinct selectors in order, the distinct siblings in order one
behind the other, and the lowest position. -/
def mergeGroup (g : Utility × List Utility) : Utility :=
  let members := g.1 :: g.2
  let siblings := String.join (sortedDistinct (members.filterMap realSibling?))
  { g.1 with
    selector := String.intercalate "," (sortedDistinct (members.map (·.selector)))
    sibling := if siblings.isEmpty then none else some siblings
    position := g.2.foldl (fun low u => min low u.position) g.1.position }

/-- The utilities with each group merged into one. -/
def merge (utilities : List Utility) : List Utility := (groups utilities).map mergeGroup

private theorem mem_addToGroups {u : Utility} {groups : List (Utility × List Utility)}
    {g : Utility × List Utility} (h : g ∈ addToGroups u groups) :
    g.1 = u ∨ ∃ g' ∈ groups, g'.1 = g.1 := by
  induction groups with
  | nil => exact .inl (by simp_all [addToGroups])
  | cons first rest ih =>
    rw [addToGroups] at h
    split at h
    · rcases List.mem_cons.1 h with rfl | h
      · exact .inr ⟨first, by simp, rfl⟩
      · exact .inr ⟨g, by simp [h], rfl⟩
    · rcases List.mem_cons.1 h with rfl | h
      · exact .inr ⟨first, by simp, rfl⟩
      · rcases ih h with h | ⟨g', hg', same⟩
        · exact .inl h
        · exact .inr ⟨g', by simp [hg'], same⟩

private theorem fst_mem_of_mem_foldl {utilities : List Utility}
    {groups : List (Utility × List Utility)} {g : Utility × List Utility}
    (h : g ∈ utilities.foldl (fun acc u => addToGroups u acc) groups) :
    g.1 ∈ utilities ∨ ∃ g' ∈ groups, g'.1 = g.1 := by
  induction utilities generalizing groups with
  | nil => exact .inr ⟨g, h, rfl⟩
  | cons u rest ih =>
    rcases ih h with h | ⟨g', hg', same⟩
    · exact .inl (by simp [h])
    · rcases mem_addToGroups hg' with hu | ⟨g'', hg'', same'⟩
      · exact .inl (by simp [← same, hu])
      · exact .inr ⟨g'', hg'', same'.trans same⟩

/-- A merged utility has the breakpoint of one of the utilities. -/
theorem exists_mem_of_mem_merge {utilities : List Utility} {m : Utility}
    (h : m ∈ merge utilities) : ∃ u ∈ utilities, u.breakpoint = m.breakpoint := by
  obtain ⟨g, hg, rfl⟩ := List.mem_map.1 h
  rcases fst_mem_of_mem_foldl hg with h | ⟨g', hg', -⟩
  · exact ⟨g.1, h, rfl⟩
  · cases hg'

end UtilityCss.Utility
