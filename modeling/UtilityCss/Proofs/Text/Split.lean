import UtilityCss.Text.Split

/-! The fields of texts that are put together at the mark. -/
namespace UtilityCss.Text

variable {mark : Char}

theorem splitAt_of_not_mem {s : List Char} (h : mark ∉ s) : splitAt mark s = [s] := by
  induction s with
  | nil => rfl
  | cons c rest ih =>
    have other : c ≠ mark := fun same => h (same ▸ List.mem_cons_self)
    rw [splitAt, if_neg other, ih fun more => h (List.mem_cons_of_mem _ more)]

theorem splitAt_append (a b : List Char) :
    splitAt mark (a ++ mark :: b) = splitAt mark a ++ splitAt mark b := by
  induction a with
  | nil => simp [splitAt]
  | cons c rest ih =>
    rw [List.cons_append, splitAt, splitAt]
    split
    · rw [ih, List.cons_append]
    · rw [ih]
      obtain ⟨field, fields, split⟩ := List.exists_cons_of_ne_nil (splitAt_ne_nil mark rest)
      rw [split]
      rfl

theorem not_mem_of_mem_splitAt {s field : List Char} (h : field ∈ splitAt mark s) :
    mark ∉ field := by
  induction s generalizing field with
  | nil =>
    obtain rfl : field = [] := by simpa [splitAt] using h
    exact List.not_mem_nil
  | cons c rest ih =>
    rw [splitAt] at h
    split at h
    · rcases List.mem_cons.1 h with rfl | more
      · exact List.not_mem_nil
      · exact ih more
    · next other =>
      obtain ⟨first, fields, split⟩ := List.exists_cons_of_ne_nil (splitAt_ne_nil mark rest)
      rw [split] at h ih
      rcases List.mem_cons.1 h with rfl | more
      · intro inside
        rcases List.mem_cons.1 inside with same | later
        · exact other same.symm
        · exact ih List.mem_cons_self later
      · exact ih (List.mem_cons_of_mem _ more)

theorem not_mem_of_mem_fields {s field : String} (h : field ∈ fields mark s) :
    mark ∉ field.toList := by
  obtain ⟨piece, inside, rfl⟩ := List.mem_map.1 h
  rw [String.toList_ofList]
  exact not_mem_of_mem_splitAt inside

theorem intercalate_fields (s : String) :
    (String.singleton mark).intercalate (fields mark s) = s := by
  apply String.toList_injective
  rw [String.toList_intercalate, fields, List.map_map]
  simpa [Function.comp_def] using intercalate_splitAt mark s.toList

theorem fields_ne_nil (s : String) : fields mark s ≠ [] := by
  simpa [fields] using splitAt_ne_nil mark s.toList

theorem fields_of_not_mem {s : String} (h : mark ∉ s.toList) : fields mark s = [s] := by
  rw [fields, splitAt_of_not_mem h]
  simp

/-- A mark between two texts keeps their fields apart. -/
theorem fields_append (a b : String) :
    fields mark (a ++ String.singleton mark ++ b) = fields mark a ++ fields mark b := by
  have characters : (a ++ String.singleton mark ++ b).toList = a.toList ++ mark :: b.toList := by
    simp
  rw [fields, characters, splitAt_append, List.map_append]
  rfl

/-- Fields with the mark between them are found again. -/
theorem fields_intercalate {names : List String} (h : ∀ name ∈ names, mark ∉ name.toList)
    (some : names ≠ []) : fields mark ((String.singleton mark).intercalate names) = names := by
  induction names with
  | nil => exact absurd rfl some
  | cons name rest ih =>
    have first : fields mark name = [name] := fields_of_not_mem (h name List.mem_cons_self)
    cases rest with
    | nil => simpa using first
    | cons next more =>
      rw [String.intercalate_cons_cons, fields_append, first,
        ih (fun n hn => h n (List.mem_cons_of_mem _ hn)) (List.cons_ne_nil _ _)]
      rfl

end UtilityCss.Text
