import UtilityCss.Proofs.Files.Path
import UtilityCss.Files.Tree

/-! Zero characters in paths: a path is refused for one only if its text holds it, and the text of a
normal path holds none but those of the texts that it was made of. -/
namespace UtilityCss

namespace Text

theorem mem_of_mem_splitAt {mark c : Char} {s field : List Char} (h : field ∈ splitAt mark s)
    (hc : c ∈ field) : c ∈ s := by
  induction s generalizing field with
  | nil =>
    obtain rfl : field = [] := by simpa [splitAt] using h
    exact hc
  | cons d rest ih =>
    rw [splitAt] at h
    split at h
    · rcases List.mem_cons.1 h with rfl | more
      · cases hc
      · exact List.mem_cons_of_mem _ (ih more hc)
    · obtain ⟨first, fields, split⟩ := List.exists_cons_of_ne_nil (splitAt_ne_nil mark rest)
      rw [split] at h ih
      rcases List.mem_cons.1 h with rfl | more
      · rcases List.mem_cons.1 hc with rfl | inside
        · exact List.mem_cons_self
        · exact List.mem_cons_of_mem _ (ih List.mem_cons_self inside)
      · exact List.mem_cons_of_mem _ (ih (List.mem_cons_of_mem _ more) hc)

theorem mem_of_mem_fields {mark c : Char} {s field : String} (h : field ∈ fields mark s)
    (hc : c ∈ field.toList) : c ∈ s.toList := by
  obtain ⟨piece, inside, rfl⟩ := List.mem_map.1 h
  rw [String.toList_ofList] at hc
  exact mem_of_mem_splitAt inside hc

theorem mem_intercalate {c : Char} {mark : String} {pieces : List String}
    (h : c ∈ (mark.intercalate pieces).toList) :
    c ∈ mark.toList ∨ ∃ piece ∈ pieces, c ∈ piece.toList := by
  induction pieces with
  | nil => simp at h
  | cons piece rest ih =>
    cases rest with
    | nil => exact .inr ⟨piece, List.mem_cons_self, by simpa using h⟩
    | cons next more =>
      rw [String.intercalate_cons_cons, String.toList_append, String.toList_append,
        List.mem_append, List.mem_append] at h
      rcases h with (first | between) | behind
      · exact .inr ⟨piece, List.mem_cons_self, first⟩
      · exact .inl between
      · rcases ih behind with between | ⟨other, inside, hc⟩
        · exact .inl between
        · exact .inr ⟨other, List.mem_cons_of_mem _ inside, hc⟩

theorem mem_intercalate_of_mem {c : Char} {mark piece : String} {pieces : List String}
    (h : piece ∈ pieces) (hc : c ∈ piece.toList) : c ∈ (mark.intercalate pieces).toList := by
  induction pieces with
  | nil => cases h
  | cons first rest ih =>
    cases rest with
    | nil =>
      obtain rfl := List.mem_singleton.1 h
      simpa using hc
    | cons next more =>
      rw [String.intercalate_cons_cons, String.toList_append, String.toList_append,
        List.mem_append, List.mem_append]
      rcases List.mem_cons.1 h with rfl | inside
      · exact .inl (.inl hc)
      · exact .inr (ih inside)

end Text

namespace Path

/-- A name of the path holds a zero character. -/
def HasZero (p : Path) : Prop := ∃ name ∈ p.names, '\x00' ∈ name.toList

variable {p : Path}

theorem hasZero_iff_text : p.HasZero ↔ '\x00' ∈ p.text.toList := by
  rw [text]
  constructor
  · rintro ⟨name, inside, zero⟩
    have some : (List.replicate p.ups ".." ++ p.names).isEmpty = false := by
      simp [List.ne_nil_of_mem inside]
    rw [some, Bool.and_false, if_neg Bool.false_ne_true, String.toList_append]
    exact List.mem_append_right _
      (Text.mem_intercalate_of_mem (List.mem_append_right _ inside) zero)
  · intro zero
    split at zero
    · exact absurd zero (by decide)
    · rw [String.toList_append, List.mem_append] at zero
      rcases zero with start | steps
      · have none : '\x00' ∉ (Anchor.text p.anchor).toList := by cases p.anchor <;> decide
        exact absurd start none
      · rcases Text.mem_intercalate steps with mark | ⟨piece, inside, zero⟩
        · exact absurd mark (by decide)
        · rcases List.mem_append.1 inside with up | name
          · rw [List.eq_of_mem_replicate up] at zero
            exact absurd zero (by decide)
          · exact ⟨piece, name, zero⟩

theorem names_push_subset (component : String) :
    ∀ name ∈ (p.push component).names, name ∈ p.names ∨ name = component := by
  intro name h
  rw [push] at h
  split at h
  · exact .inl h
  · split at h
    · split at h
      · split at h <;> exact .inl h
      · exact .inl (List.dropLast_subset _ h)
    · simpa using h

theorem names_foldl_push_subset (components : List String) :
    ∀ name ∈ (components.foldl push p).names, name ∈ p.names ∨ name ∈ components := by
  induction components generalizing p with
  | nil => exact fun name h => .inl h
  | cons component rest ih =>
    intro name h
    rcases ih name h with pushed | later
    · rcases names_push_subset component name pushed with old | rfl
      · exact .inl old
      · exact .inr List.mem_cons_self
    · exact .inr (List.mem_cons_of_mem _ later)

theorem HasZero.of_pushAll {s : String} (h : (p.pushAll s).HasZero) :
    p.HasZero ∨ '\x00' ∈ s.toList := by
  obtain ⟨name, inside, zero⟩ := h
  rcases names_foldl_push_subset _ name inside with old | field
  · exact .inl ⟨name, old, zero⟩
  · exact .inr (Text.mem_of_mem_fields field zero)

theorem HasZero.of_ofText {s : String} (h : (ofText s).HasZero) : '\x00' ∈ s.toList := by
  rcases h.of_pushAll with ⟨name, inside, -⟩ | zero
  · cases inside
  · exact zero

theorem HasZero.of_beside {s : String} (h : (p.beside s).HasZero) :
    p.HasZero ∨ '\x00' ∈ s.toList := by
  rw [beside] at h
  split at h
  · exact .inr h.of_ofText
  · rcases h.of_pushAll with ⟨name, inside, zero⟩ | zero
    · refine .inl ⟨name, ?_, zero⟩
      rw [parent] at inside
      split at inside
      · exact inside
      · exact List.dropLast_subset _ inside
    · exact .inr zero

end Path

theorem Node.descend_ne_zeroInPath (n : Node) (place : List String) :
    n.descend place ≠ .error .zeroInPath := by
  induction place generalizing n with
  | nil => simp [descend]
  | cons name rest ih =>
    cases n with
    | file => simp [descend]
    | dir entries stamp =>
      rw [descend]
      split
      · simp
      · cases entries.lookup name with
        | none => simp
        | some child => exact ih child

namespace FileTree

variable {t : FileTree} {path : String}

theorem textProblem?_zero (h : textProblem? path = some .zeroInPath) : '\x00' ∈ path.toList := by
  unfold textProblem? at h
  split at h
  · next zero => simpa using zero
  · split at h
    · cases h
    · split at h <;> cases h

private theorem stepTo_ne_zeroInPath (place : List String) (c : String) :
    t.stepTo place c ≠ .error .zeroInPath := by
  intro h
  rw [stepTo] at h
  cases here : t.root.descend place with
  | error problem =>
    rw [here] at h
    cases h
    exact Node.descend_ne_zeroInPath _ _ here
  | ok n =>
    rw [here] at h
    cases n with
    | file content stamp => cases h
    | dir entries stamp =>
      simp only [bind, Except.bind] at h
      split at h
      · cases h
      · split at h
        · cases h
        · cases next : t.root.descend (place ++ [c]) with
          | error problem =>
            rw [next] at h
            cases h
            exact Node.descend_ne_zeroInPath _ _ next
          | ok m =>
            rw [next] at h
            cases h

private theorem foldlM_stepTo_ne_zeroInPath (components place : List String) :
    components.foldlM t.stepTo place ≠ .error .zeroInPath := by
  induction components generalizing place with
  | nil => exact fun h => by cases h
  | cons c rest ih =>
    intro h
    rw [List.foldlM_cons] at h
    cases first : t.stepTo place c with
    | error problem =>
      rw [first] at h
      cases h
      exact stepTo_ne_zeroInPath place c first
    | ok next =>
      rw [first] at h
      exact ih next h

/-- A path is refused for a zero character only if it holds one. -/
theorem node?_zeroInPath (h : t.node? path = .error .zeroInPath) : '\x00' ∈ path.toList := by
  rw [node?, resolve] at h
  cases problem : textProblem? path with
  | some other =>
    rw [problem] at h
    cases h
    exact textProblem?_zero problem
  | none =>
    rw [problem] at h
    dsimp only at h
    cases resolved : (Text.fields '/' path).foldlM t.stepTo
        (if path.toList.head? = some '/' then [] else t.home) with
    | error other =>
      rw [resolved] at h
      cases h
      exact absurd resolved (foldlM_stepTo_ne_zeroInPath _ _)
    | ok place =>
      rw [resolved] at h
      exact absurd h (Node.descend_ne_zeroInPath _ _)

theorem node?_of_zero (h : '\x00' ∈ path.toList) : t.node? path = .error .zeroInPath := by
  rw [node?, resolve, textProblem?, if_pos (by simpa using h)]
  rfl

end FileTree

end UtilityCss
