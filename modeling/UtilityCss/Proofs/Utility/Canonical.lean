import Mathlib.Data.List.Induction
import UtilityCss.Proofs.Utility.Blocks

/-! What merging gives is settled by the utilities alone: one utility for every breakpoint,
specificity and list of declarations, which says what all utilities that share them say. From this
it follows that their order does not matter and that merging twice is merging once. -/
namespace UtilityCss.Utility

open Text (pairwise_sortedDistinct)

variable {utilities merged : List Utility} {u m m' : Utility}

/-- A utility says what the utilities of its group say together. -/
structure StandsFor (utilities : List Utility) (m : Utility) : Prop where
  selectors : ∃ selectors : List String, m.selector = ",".intercalate selectors ∧
    selectors.Pairwise (· < ·) ∧
    ∀ s, s ∈ selectors ↔ ∃ u ∈ utilities, u.groupKey = m.groupKey ∧ u.selector = s
  siblings : ∃ siblings : List String,
    m.sibling = (if siblings = [] then none else some (String.join siblings)) ∧
    siblings.Pairwise (· < ·) ∧
    ∀ s, s ∈ siblings ↔ s ≠ "" ∧ ∃ u ∈ utilities, u.groupKey = m.groupKey ∧ u.sibling = some s
  lowest : ∃ u ∈ utilities, u.groupKey = m.groupKey ∧ u.position = m.position
  low : ∀ u ∈ utilities, u.groupKey = m.groupKey → m.position ≤ u.position

/-- Nothing else says it. -/
theorem StandsFor.unique (h : StandsFor utilities m) (h' : StandsFor utilities m')
    (key : m.groupKey = m'.groupKey) : m = m' := by
  obtain ⟨selectors, written, ascending, inside⟩ := h.selectors
  obtain ⟨selectors', written', ascending', inside'⟩ := h'.selectors
  obtain ⟨siblings, carried, sorted, own⟩ := h.siblings
  obtain ⟨siblings', carried', sorted', own'⟩ := h'.siblings
  obtain ⟨u, hu, hk, place⟩ := h.lowest
  obtain ⟨u', hu', hk', place'⟩ := h'.lowest
  have selector : m.selector = m'.selector := by
    rw [written, written', ascending.eq_of_mem_iff ascending' fun s => by
      rw [inside, inside', key]]
  have sibling : m.sibling = m'.sibling := by
    rw [carried, carried', sorted.eq_of_mem_iff sorted' fun s => by rw [own, own', key]]
  have position : m.position = m'.position := by
    have := h.low u' hu' (hk'.trans key.symm)
    have := h'.low u hu (hk.trans key)
    omega
  cases m
  cases m'
  simp_all [groupKey]

theorem realSibling?_eq_some_iff {s : String} :
    u.realSibling? = some s ↔ s ≠ "" ∧ u.sibling = some s := by
  rw [realSibling?, Option.filter_eq_some_iff, and_comm]
  simp

/-- What is merged has no empty sibling. -/
theorem realSibling?_mergeGroup (g : Utility × List Utility) :
    (mergeGroup g).realSibling? = (mergeGroup g).sibling := by
  rw [realSibling?, mergeGroup]
  dsimp only
  split
  · rfl
  · next filled => simp [filled]

theorem sibling_ne_empty_of_mem_merge (h : m ∈ merge utilities) : m.sibling ≠ some "" := by
  obtain ⟨g, -, rfl⟩ := List.mem_map.1 h
  rw [← realSibling?_mergeGroup]
  exact fun carried => realSibling?_ne_empty carried rfl

theorem standsFor_blockOf (hu : u ∈ utilities) : StandsFor utilities (blockOf utilities u) where
  selectors := ⟨selectorsOf utilities u, selector_blockOf hu, pairwise_sortedDistinct _,
    fun _ => mem_selectorsOf⟩
  siblings := by
    refine ⟨siblingsOf utilities u.groupKey, ?_, pairwise_sortedDistinct _, fun s => ?_⟩
    · exact (realSibling?_mergeGroup _).symm.trans (realSibling?_blockOf hu)
    · rw [mem_siblingsOf]
      simp only [realSibling?_eq_some_iff, groupKey_blockOf]
      constructor
      · rintro ⟨v, hv, key, some, own⟩
        exact ⟨some, v, hv, key, own⟩
      · rintro ⟨some, v, hv, key, own⟩
        exact ⟨v, hv, key, some, own⟩
  lowest := exists_position_blockOf hu
  low _ hv key := position_blockOf_le hu hv key

theorem standsFor_of_mem_merge (h : m ∈ merge utilities) : StandsFor utilities m := by
  obtain ⟨u, hu, rfl⟩ := mem_merge_iff.1 h
  exact standsFor_blockOf hu

private theorem map_groupKey_addToGroups (u : Utility) (groups : List (Utility × List Utility)) :
    (addToGroups u groups).map (·.1.groupKey) =
      if u.groupKey ∈ groups.map (·.1.groupKey) then groups.map (·.1.groupKey)
      else groups.map (·.1.groupKey) ++ [u.groupKey] := by
  induction groups with
  | nil => rfl
  | cons g rest ih =>
    rw [addToGroups]
    split
    · next same => simp [sameGroup_iff.1 same]
    · next other =>
      have apart : u.groupKey ≠ g.1.groupKey := fun same => other (sameGroup_iff.2 same.symm)
      rw [List.map_cons, ih, List.map_cons]
      simp only [List.mem_cons, apart, false_or]
      split <;> rfl

private theorem eraseDups_concat {α : Type} [BEq α] [LawfulBEq α] (l : List α) (a : α) :
    (l ++ [a]).eraseDups = if a ∈ l then l.eraseDups else l.eraseDups ++ [a] := by
  rw [List.eraseDups_append]
  split
  · next known => simp [known, List.removeAll]
  · next fresh => simp [fresh, List.removeAll, List.eraseDups_cons]

private theorem eraseDups_of_nodup {α : Type} [BEq α] [LawfulBEq α] {l : List α} (nodup : l.Nodup) :
    l.eraseDups = l := by
  induction l using List.reverseRecOn with
  | nil => rfl
  | append_singleton before a ih =>
    obtain ⟨nodup, -, apart⟩ := List.nodup_append.1 nodup
    have fresh : a ∉ before := fun known => apart a known a List.mem_cons_self rfl
    rw [eraseDups_concat, if_neg fresh, ih nodup]

private theorem map_groupKey_groups (utilities : List Utility) :
    (groups utilities).map (·.1.groupKey) = (utilities.map groupKey).eraseDups := by
  induction utilities using List.reverseRecOn with
  | nil => rfl
  | append_singleton before u ih =>
    have last : groups (before ++ [u]) = addToGroups u (groups before) := by simp [groups]
    rw [last, map_groupKey_addToGroups, ih, List.map_append, List.map_singleton, eraseDups_concat]
    simp only [List.mem_eraseDups]

/-- Each key is merged once, in the order in which the keys first came. -/
theorem map_groupKey_merge (utilities : List Utility) :
    (merge utilities).map groupKey = (utilities.map groupKey).eraseDups := by
  rw [← map_groupKey_groups, merge, List.map_map]
  rfl

/-- The keys, and what is said of each of them, settle what is merged. -/
theorem merge_eq_iff : merge utilities = merged ↔
    merged.map groupKey = (utilities.map groupKey).eraseDups ∧
      ∀ m ∈ merged, StandsFor utilities m := by
  constructor
  · rintro rfl
    exact ⟨map_groupKey_merge utilities, fun _ => standsFor_of_mem_merge⟩
  · rintro ⟨keys, stands⟩
    have same : (merge utilities).map groupKey = merged.map groupKey :=
      (map_groupKey_merge utilities).trans keys.symm
    have length : (merge utilities).length = merged.length := by
      simpa using congrArg List.length same
    refine List.ext_getElem length fun i here there => ?_
    have key : (merge utilities)[i].groupKey = merged[i].groupKey := by
      have at' := congrArg (·[i]?) same
      simpa [here, there] using at'
    exact (standsFor_of_mem_merge (List.getElem_mem here)).unique
      (stands _ (List.getElem_mem there)) key

/-- A utility that is alone in its group stands for itself. -/
theorem StandsFor.of_alone (hu : u ∈ utilities)
    (alone : ∀ v ∈ utilities, v.groupKey = u.groupKey → v = u) (filled : u.sibling ≠ some "") :
    StandsFor utilities u where
  selectors := by
    refine ⟨[u.selector], by simp, List.pairwise_singleton _ _, fun s => ?_⟩
    rw [List.mem_singleton]
    constructor
    · rintro rfl
      exact ⟨u, hu, rfl, rfl⟩
    · rintro ⟨v, hv, key, rfl⟩
      rw [alone v hv key]
  siblings := by
    refine ⟨u.sibling.toList, ?_, ?_, fun s => ?_⟩
    · cases u.sibling <;> simp
    · cases u.sibling <;> simp
    · rw [Option.mem_toList]
      constructor
      · rintro own
        exact ⟨fun none => filled (none ▸ own), u, hu, rfl, own⟩
      · rintro ⟨-, v, hv, key, own⟩
        rwa [alone v hv key] at own
  lowest := ⟨u, hu, rfl, rfl⟩
  low v hv key := by rw [alone v hv key]

/-- Merging changes nothing exactly if no two utilities share a group and no sibling is empty. -/
theorem merge_eq_self_iff : merge utilities = utilities ↔
    (utilities.map groupKey).Nodup ∧ ∀ u ∈ utilities, u.sibling ≠ some "" := by
  constructor
  · intro same
    rw [← same]
    exact ⟨nodup_keys_merge utilities, fun _ => sibling_ne_empty_of_mem_merge⟩
  · rintro ⟨nodup, filled⟩
    refine merge_eq_iff.2 ⟨(eraseDups_of_nodup nodup).symm, fun u hu => ?_⟩
    refine .of_alone hu (fun v hv key => ?_) (filled u hu)
    exact List.inj_on_of_nodup_map nodup hv hu key

/-- Merging gives one utility for every key, in the order in which the keys first came, each of
which stands for its group, and no other list is so. The order of the utilities decides nothing but
the order of what is merged, and what is merged is merged into itself. -/
theorem merge_canonical (utilities : List Utility) :
    (∀ merged, merge utilities = merged ↔
      merged.map groupKey = (utilities.map groupKey).eraseDups ∧
        ∀ m ∈ merged, StandsFor utilities m) ∧
    (∀ others, utilities.Perm others → (merge utilities).Perm (merge others)) ∧
    merge (merge utilities) = merge utilities := by
  refine ⟨fun _ => merge_eq_iff, fun _ perm => merge_perm fun _ => perm.mem_iff, ?_⟩
  refine merge_eq_self_iff.2 ⟨nodup_keys_merge utilities, fun m hm => ?_⟩
  exact sibling_ne_empty_of_mem_merge hm

private def mixed : List Utility := [
  ⟨".b", "", 0, "x", some "S", 7⟩,
  ⟨".c", "md", 0, "x", none, 1⟩,
  ⟨".a", "", 0, "x", some "", 3⟩,
  ⟨".b", "", 0, "x", some "R", 5⟩]

/-- Three utilities with one list of declarations, and one of a breakpoint between them. -/
theorem merge_canonical_mixed :
    mixed.Perm mixed.reverse ∧ (merge mixed).Perm (merge mixed.reverse) ∧
    merge mixed = [⟨".a,.b", "", 0, "x", some "RS", 3⟩, ⟨".c", "md", 0, "x", none, 1⟩] := by
  have perm : mixed.Perm mixed.reverse := mixed.reverse_perm.symm
  obtain ⟨settled, orders, -⟩ := merge_canonical mixed
  refine ⟨perm, orders _ perm, (settled _).2 ⟨by decide, ?_⟩⟩
  rw [List.forall_mem_cons, List.forall_mem_singleton]
  constructor
  · refine ⟨⟨[".a", ".b"], by decide, by decide, fun s => ⟨fun inside => ?_, ?_⟩⟩,
      ⟨["R", "S"], by decide, by decide, fun s => ⟨fun inside => ?_, ?_⟩⟩, by decide, by decide⟩
    · revert s
      decide
    · rintro ⟨u, hu, key, rfl⟩
      revert u
      decide
    · revert s
      decide
    · rintro ⟨filled, u, hu, key, own⟩
      have few : ∀ u ∈ mixed, ∀ t ∈ u.sibling, t = "" ∨ t ∈ ["R", "S"] := by decide
      exact (few u hu s own).resolve_left filled
  · exact .of_alone (by decide) (by decide) (by decide)

end UtilityCss.Utility
