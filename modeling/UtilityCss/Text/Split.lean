/-! Cutting a text at every occurrence of one character, and the reverse. -/
namespace UtilityCss.Text

/-- The fields between the occurrences of `mark`; a text without it is one field. -/
def splitAt (mark : Char) : List Char → List (List Char)
  | [] => [[]]
  | c :: rest =>
    if c = mark then [] :: splitAt mark rest
    else match splitAt mark rest with
      | [] => [[c]]
      | field :: fields => (c :: field) :: fields

theorem splitAt_ne_nil (mark : Char) (s : List Char) : splitAt mark s ≠ [] := by
  cases s with
  | nil => simp [splitAt]
  | cons c rest =>
    rw [splitAt]
    split
    · simp
    · split <;> simp

/-- Writing the fields with the mark between them gives the text back. -/
theorem intercalate_splitAt (mark : Char) (s : List Char) :
    List.intercalate [mark] (splitAt mark s) = s := by
  induction s with
  | nil => rfl
  | cons c rest ih =>
    have hne := splitAt_ne_nil mark rest
    rw [splitAt]
    split
    · next h =>
      subst h
      cases hs : splitAt c rest with
      | nil => exact absurd hs hne
      | cons field fields =>
        rw [hs] at ih
        rw [List.intercalate_cons_cons, ih]
        rfl
    · cases hs : splitAt mark rest with
      | nil => exact absurd hs hne
      | cons field fields =>
        rw [hs] at ih
        cases fields with
        | nil => simpa using ih
        | cons next more =>
          simp only [List.intercalate_cons_cons] at ih ⊢
          simp [← ih]

/-- The fields of a string. -/
def fields (mark : Char) (s : String) : List String :=
  (splitAt mark s.toList).map String.ofList

end UtilityCss.Text
