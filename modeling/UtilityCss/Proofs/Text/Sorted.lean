import Mathlib.Data.List.Sort
import UtilityCss.Text.Sorted

/-! Sorting texts forgets in which order, and how often, they came. -/
namespace UtilityCss.Text

private theorem eraseReps_loop (a : String) (l acc : List String) :
    List.eraseRepsBy.loop (· == ·) a l acc = acc.reverse ++ (a :: l).eraseReps := by
  induction l generalizing a acc with
  | nil => simp [List.eraseReps, List.eraseRepsBy, List.eraseRepsBy.loop]
  | cons b rest ih =>
    have one := ih a acc
    have other := ih b (a :: acc)
    have base := ih b [a]
    simp only [List.eraseReps, List.eraseRepsBy] at one other base ⊢
    unfold List.eraseRepsBy.loop
    split
    · exact one
    · rw [other, base]
      simp

private theorem eraseReps_cons_cons (a b : String) (l : List String) :
    (a :: b :: l).eraseReps = if a = b then (a :: l).eraseReps else a :: (b :: l).eraseReps := by
  have h : (a :: b :: l).eraseReps = List.eraseRepsBy.loop (· == ·) a (b :: l) [] := rfl
  rw [h]
  rw [List.eraseRepsBy.loop]
  split
  · next same =>
    rw [if_pos (by simpa using same), eraseReps_loop]
    simp
  · next other =>
    rw [if_neg (by simpa using other), eraseReps_loop]
    simp

private theorem mem_eraseReps {s : String} (l : List String) : s ∈ l.eraseReps ↔ s ∈ l := by
  induction l with
  | nil => rfl
  | cons a rest ih =>
    cases rest with
    | nil => rfl
    | cons b more =>
      rw [eraseReps_cons_cons]
      split
      · next same =>
        subst same
        rw [ih]
        simp
      · rw [List.mem_cons, ih, List.mem_cons (a := s) (b := a)]

private theorem pairwise_eraseReps {l : List String} (h : l.Pairwise (· ≤ ·)) :
    l.eraseReps.Pairwise (· < ·) := by
  induction l with
  | nil => exact .nil
  | cons a rest ih =>
    cases rest with
    | nil => exact List.pairwise_singleton _ _
    | cons b more =>
      obtain ⟨low, hrest⟩ := List.pairwise_cons.1 h
      rw [eraseReps_cons_cons]
      split
      · next same => exact same ▸ ih hrest
      · next other =>
        refine List.pairwise_cons.2 ⟨fun s hs => ?_, ih hrest⟩
        have hs' := (mem_eraseReps _).1 hs
        have below : a < b := String.not_le.1 fun hba =>
          other (String.le_antisymm (low b (by simp)) hba)
        apply String.not_le.1
        intro hsa
        rcases List.mem_cons.1 hs' with rfl | hm
        · exact String.not_le.2 below hsa
        · exact String.not_le.2 below (String.le_trans ((List.pairwise_cons.1 hrest).1 s hm) hsa)

theorem mem_sortedDistinct {s : String} {texts : List String} :
    s ∈ sortedDistinct texts ↔ s ∈ texts := by
  rw [sortedDistinct, mem_eraseReps, List.mem_mergeSort]

/-- The texts stand in strictly ascending order, so none stands twice. -/
theorem pairwise_sortedDistinct (texts : List String) :
    (sortedDistinct texts).Pairwise (· < ·) :=
  pairwise_eraseReps (List.pairwise_mergeSort' (· ≤ ·) texts)

theorem nodup_sortedDistinct (texts : List String) : (sortedDistinct texts).Nodup :=
  (pairwise_sortedDistinct texts).nodup

/-- Only which texts there are counts. -/
theorem sortedDistinct_congr {texts others : List String} (h : ∀ s, s ∈ texts ↔ s ∈ others) :
    sortedDistinct texts = sortedDistinct others := by
  refine (pairwise_sortedDistinct texts).eq_of_mem_iff (pairwise_sortedDistinct others) fun s => ?_
  rw [mem_sortedDistinct, mem_sortedDistinct, h]

section ByName

variable {α β : Type} {named : List (String × α)}

/-- Names that are all different stand in strictly ascending order. -/
theorem pairwise_sortedByName (nodup : (named.map (·.1)).Nodup) :
    (sortedByName named).Pairwise (·.1 < ·.1) := by
  have sorted : (sortedByName named).Pairwise (·.1 ≤ ·.1) :=
    List.pairwise_mergeSort' (Order.Preimage Prod.fst (· ≤ ·)) named
  have perm : (sortedByName named).Perm named := List.mergeSort_perm _ _
  have different : (sortedByName named).Pairwise (·.1 ≠ ·.1) :=
    List.pairwise_map.1 ((perm.map Prod.fst).nodup_iff.2 nodup)
  exact (sorted.and different).imp fun h => String.not_le.1 fun above =>
    h.2 (String.le_antisymm h.1 above)

/-- The values do not count. -/
theorem sortedByName_map (f : String × α → β) : sortedByName (named.map fun e => (e.1, f e)) =
    (sortedByName named).map fun e => (e.1, f e) := by
  refine (List.map_mergeSort (f := fun e => (e.1, f e)) fun a _ b _ => ?_).symm
  rfl

end ByName

/-- Sorted by insertion, which can be evaluated. -/
theorem sortedDistinct_eq_insertionSort (texts : List String) :
    sortedDistinct texts = (texts.insertionSort (· ≤ ·)).eraseReps := by
  rw [sortedDistinct, List.mergeSort_eq_insertionSort]

end UtilityCss.Text
