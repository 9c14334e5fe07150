/-! Colors of themes, and how hexadecimal ones are read. -/
namespace UtilityCss.Theme

/-- A color as it stands in declarations. A triplet of numbers can be given an opacity; any other
color stands for itself. -/
structure Color where
  text : String
  isTriplet : Bool
  deriving DecidableEq, Repr, Inhabited

/-- The color of a text: one with spaces counts as a triplet. -/
def Color.ofText (s : String) : Color := ⟨s, s.toList.contains ' '⟩

/-- The value of a hexadecimal digit. -/
def hexDigit? (c : Char) : Option Nat :=
  if '0' ≤ c ∧ c ≤ '9' then some (c.toNat - '0'.toNat)
  else if 'a' ≤ c ∧ c ≤ 'f' then some (c.toNat - 'a'.toNat + 10)
  else if 'A' ≤ c ∧ c ≤ 'F' then some (c.toNat - 'A'.toNat + 10)
  else none

/-- A short color with a line break behind its digits cannot be read. -/
inductive ColorFault
  | brokenShortForm
  deriving DecidableEq, Repr

/-- Three numbers with single spaces between them. -/
def triplet (r g b : Nat) : String :=
  toString r ++ " " ++ toString g ++ " " ++ toString b

/-- The numbers of the digits, if all are hexadecimal. -/
def hexDigits? (s : List Char) : Option (List Nat) := s.mapM hexDigit?

/-- Turns a color of three or six hexadecimal digits into its red, green and blue numbers and keeps
every other text. A line break may stand behind six digits, but not behind three. -/
def hexToRgb (color : String) : Except ColorFault String :=
  match color.toList with
  | '#' :: digits =>
    let broken := digits.getLast? == some '\n'
    match hexDigits? (if broken then digits.dropLast else digits) with
    | some [r, g, b] =>
      if broken then .error .brokenShortForm else .ok (triplet (r * 17) (g * 17) (b * 17))
    | some [a, b, c, d, e, f] => .ok (triplet (a * 16 + b) (c * 16 + d) (e * 16 + f))
    | _ => .ok color
  | _ => .ok color

private theorem space_mem_triplet (r g b : Nat) : ' ' ∈ (triplet r g b).toList := by
  simp [triplet]

private theorem hexDigits?_of_space {s : List Char} (h : ' ' ∈ s) : hexDigits? s = none := by
  induction s with
  | nil => cases h
  | cons c rest ih =>
    rw [hexDigits?, List.mapM_cons]
    rcases List.mem_cons.1 h with rfl | later
    · rfl
    · cases hexDigit? c with
      | none => rfl
      | some n =>
        rw [hexDigits?] at ih
        rw [ih later]
        rfl

/-- A text with a space is kept. -/
theorem hexToRgb_of_space {color : String} (h : ' ' ∈ color.toList) :
    hexToRgb color = .ok color := by
  unfold hexToRgb
  split
  · next digits whole =>
    have inside : ' ' ∈ digits := by
      rw [whole] at h
      exact (List.mem_cons.1 h).resolve_left (by decide)
    have kept : ' ' ∈ if digits.getLast? == some '\n' then digits.dropLast else digits := by
      split
      · next broken =>
        obtain ⟨front, rfl⟩ := List.getLast?_eq_some_iff.1 (beq_iff_eq.1 broken)
        rw [List.dropLast_concat]
        exact (List.mem_append.1 inside).resolve_right (by decide)
      · exact inside
    dsimp only
    rw [hexDigits?_of_space kept]
  · rfl

/-- What a color was turned into stays as it is. -/
theorem hexToRgb_hexToRgb {color rgb : String} (h : hexToRgb color = .ok rgb) :
    hexToRgb rgb = .ok rgb := by
  have whole := h
  unfold hexToRgb at h
  split at h
  · dsimp only at h
    split at h
    · split at h
      · cases h
      · cases h
        exact hexToRgb_of_space (space_mem_triplet _ _ _)
    · cases h
      exact hexToRgb_of_space (space_mem_triplet _ _ _)
    · cases h
      exact whole
  · cases h
    exact whole

end UtilityCss.Theme
