import Mathlib.Data.List.Forall2
import Mathlib.Tactic.IntervalCases
import UtilityCss.Theme.Color

/-! Hexadecimal colors and the triplets of decimal numbers that they are turned into. What such a
color is and how a number is written are said without the reading of colors, which is then shown to
know exactly these colors, up to a line break behind them: six digits are read as if it were not
there, and three digits cannot be read. -/
namespace UtilityCss

namespace Text

/-- A number written with decimal digits and without needless zeros. -/
structure IsDecimal (s : String) (n : Nat) : Prop where
  filled : s ≠ ""
  digits : ∀ c ∈ s.toList, c.isDigit = true
  value : Nat.ofDigitChars 10 s.toList 0 = n
  bare : s.toList.head? = some '0' → s = "0"

private theorem head?_toDigits {n : Nat} (pos : 0 < n) : (Nat.toDigits 10 n).head? ≠ some '0' := by
  induction n using Nat.strongRecOn with
  | ind n ih =>
    by_cases small : n < 10
    · rw [Nat.toDigits_of_lt_base small, List.head?_cons]
      intro zero
      have none := Nat.digitChar_eq_zero.1 (Option.some.inj zero)
      omega
    · rw [Nat.toDigits_of_base_le (by decide) (Nat.le_of_not_lt small), List.head?_append]
      have front := ih (n / 10) (by omega) (by omega)
      obtain ⟨c, rest, split⟩ := List.exists_cons_of_ne_nil (@Nat.toDigits_ne_nil (n / 10) 10)
      rw [split] at front ⊢
      exact front

theorem isDecimal_toString (n : Nat) : IsDecimal (toString n) n := by
  have text : (toString n).toList = Nat.toDigits 10 n := Nat.toList_repr
  refine ⟨fun empty => ?_, fun c inside => ?_, ?_, fun zero => ?_⟩
  · rw [empty] at text
    exact Nat.toDigits_ne_nil text.symm
  · rw [text] at inside
    exact Nat.isDigit_of_mem_toDigits (by decide) (by decide) inside
  · rw [text]
    exact Nat.ofDigitChars_ten_toDigits
  · rw [text] at zero
    have none : n = 0 := Nat.eq_zero_of_not_pos fun pos => head?_toDigits pos zero
    rw [none]
    rfl

end Text

namespace Theme

open Text (IsDecimal isDecimal_toString)

/-- Three numbers, written with single spaces between them. -/
def IsTriplet (text : String) (rgb : Nat × Nat × Nat) : Prop :=
  ∃ red green blue, IsDecimal red rgb.1 ∧ IsDecimal green rgb.2.1 ∧ IsDecimal blue rgb.2.2 ∧
    text = red ++ " " ++ green ++ " " ++ blue

theorem isTriplet_triplet (r g b : Nat) : IsTriplet (triplet r g b) (r, g, b) :=
  ⟨_, _, _, isDecimal_toString r, isDecimal_toString g, isDecimal_toString b, rfl⟩

theorem IsTriplet.space_mem {text : String} {rgb : Nat × Nat × Nat} (h : IsTriplet text rgb) :
    ' ' ∈ text.toList := by
  obtain ⟨red, green, blue, -, -, -, rfl⟩ := h
  simp

/-- A hexadecimal digit, small or capital, with its value. -/
def IsHexDigit (c : Char) (n : Nat) : Prop :=
  "0123456789abcdef".toList[n]? = some c ∨ "0123456789ABCDEF".toList[n]? = some c

/-- The two forms of hexadecimal colors: one digit for each byte, or two. -/
inductive HexForm
  | short
  | long

/-- The bytes that the values of some digits make. In the short form every digit counts twice. -/
inductive Bytes : HexForm → List Nat → Nat × Nat × Nat → Prop
  | short (r g b : Nat) : Bytes .short [r, g, b] (16 * r + r, 16 * g + g, 16 * b + b)
  | long (r r' g g' b b' : Nat) :
      Bytes .long [r, r', g, g', b, b'] (16 * r + r', 16 * g + g', 16 * b + b')

/-- A hexadecimal color: a number sign and digits that make three bytes, and nothing else. -/
def IsHex (form : HexForm) (color : String) (rgb : Nat × Nat × Nat) : Prop :=
  ∃ digits values, color.toList = '#' :: digits ∧ List.Forall₂ IsHexDigit digits values ∧
    Bytes form values rgb

private theorem exists_code {c low high : Char} (range : low ≤ c ∧ c ≤ high) :
    ∃ k, c = Char.ofNat k ∧ c.toNat = k ∧ low.toNat ≤ k ∧ k ≤ high.toNat :=
  ⟨c.toNat, (Char.ofNat_toNat c).symm, rfl, range⟩

/-- The digits that are read are the hexadecimal ones. -/
theorem hexDigit?_eq_some_iff {c : Char} {n : Nat} : hexDigit? c = some n ↔ IsHexDigit c n := by
  constructor
  · intro h
    unfold hexDigit? at h
    split at h
    · next range =>
      obtain ⟨k, rfl, code, low, high⟩ := exists_code range
      rw [code] at h
      cases h
      change 48 ≤ k at low
      change k ≤ 57 at high
      interval_cases k <;> exact .inl rfl
    · split at h
      · next range =>
        obtain ⟨k, rfl, code, low, high⟩ := exists_code range
        rw [code] at h
        cases h
        change 97 ≤ k at low
        change k ≤ 102 at high
        interval_cases k <;> exact .inl rfl
      · split at h
        · next range =>
          obtain ⟨k, rfl, code, low, high⟩ := exists_code range
          rw [code] at h
          cases h
          change 65 ≤ k at low
          change k ≤ 70 at high
          interval_cases k <;> exact .inr rfl
        · cases h
  · rintro (h | h)
    all_goals
      have below : n < 16 := (List.getElem?_eq_some_iff.1 h).1
      interval_cases n
      all_goals
        cases h
        decide

theorem hexDigits?_eq_some_iff {digits : List Char} {values : List Nat} :
    hexDigits? digits = some values ↔ List.Forall₂ IsHexDigit digits values := by
  induction digits generalizing values with
  | nil =>
    rw [hexDigits?, List.mapM_nil, List.forall₂_nil_left_iff]
    exact ⟨fun h => (Option.some.inj h).symm, fun h => h ▸ rfl⟩
  | cons c rest ih =>
    rw [hexDigits?, List.mapM_cons]
    constructor
    · intro h
      obtain ⟨n, first, h⟩ := Option.bind_eq_some_iff.1 h
      obtain ⟨more, others, h⟩ := Option.bind_eq_some_iff.1 h
      cases h
      exact .cons (hexDigit?_eq_some_iff.1 first) (ih.1 others)
    · intro h
      obtain ⟨n, more, first, others, rfl⟩ := List.forall₂_cons_left_iff.1 h
      have others : List.mapM hexDigit? rest = some more := ih.2 others
      rw [hexDigit?_eq_some_iff.2 first, others]
      rfl

section Reading

variable {color front : String} {digits : List Char} {form : HexForm} {rgb : Nat × Nat × Nat}

private theorem hexToRgb_unbroken (text : color.toList = '#' :: digits)
    (last : digits.getLast? ≠ some '\n') :
    hexToRgb color = match hexDigits? digits with
      | some [r, g, b] => .ok (triplet (r * 17) (g * 17) (b * 17))
      | some [a, b, c, d, e, f] => .ok (triplet (a * 16 + b) (c * 16 + d) (e * 16 + f))
      | _ => .ok color := by
  have whole : (digits.getLast? == some '\n') = false := beq_eq_false_iff_ne.2 last
  simp only [hexToRgb, text, whole]
  rfl

private theorem hexToRgb_broken (text : color.toList = '#' :: (digits ++ ['\n'])) :
    hexToRgb color = match hexDigits? digits with
      | some [_, _, _] => .error .brokenShortForm
      | some [a, b, c, d, e, f] => .ok (triplet (a * 16 + b) (c * 16 + d) (e * 16 + f))
      | _ => .ok color := by
  have broken : ((digits ++ ['\n']).getLast? == some '\n') = true := by simp
  simp only [hexToRgb, text, broken, List.dropLast_concat]
  rfl

/-- No line break stands among hexadecimal digits. -/
private theorem lineBreak_not_mem {values : List Nat}
    (read : List.Forall₂ IsHexDigit digits values) : '\n' ∉ digits := by
  induction read with
  | nil => exact List.not_mem_nil
  | cons digit _ ih =>
    rw [List.mem_cons, not_or]
    refine ⟨?_, ih⟩
    rintro rfl
    have none : hexDigit? '\n' = none := by decide
    rw [hexDigit?_eq_some_iff.2 digit] at none
    cases none

private theorem isTriplet_bytes {r r' g g' b b' : Nat} :
    IsTriplet (triplet (r * 16 + r') (g * 16 + g') (b * 16 + b'))
      (16 * r + r', 16 * g + g', 16 * b + b') := by
  rw [Nat.mul_comm 16 r, Nat.mul_comm 16 g, Nat.mul_comm 16 b]
  exact isTriplet_triplet _ _ _

/-- A hexadecimal color is turned into its bytes. -/
theorem hexToRgb_of_isHex (h : IsHex form color rgb) :
    ∃ text, hexToRgb color = .ok text ∧ IsTriplet text rgb := by
  obtain ⟨digits, values, text, read, bytes⟩ := h
  have last := mt List.mem_of_getLast? (lineBreak_not_mem read)
  rw [hexToRgb_unbroken text last, hexDigits?_eq_some_iff.2 read]
  cases bytes with
  | short => exact ⟨_, rfl, isTriplet_bytes⟩
  | long => exact ⟨_, rfl, isTriplet_bytes⟩

private theorem toList_of_lineBreak (split : color = front ++ "\n")
    (text : front.toList = '#' :: digits) : color.toList = '#' :: (digits ++ ['\n']) := by
  rw [split, String.toList_append, text]
  rfl

/-- A line break behind the long form is overlooked. -/
theorem hexToRgb_of_long (split : color = front ++ "\n") (h : IsHex .long front rgb) :
    ∃ text, hexToRgb color = .ok text ∧ IsTriplet text rgb := by
  obtain ⟨digits, values, text, read, bytes⟩ := h
  rw [hexToRgb_broken (toList_of_lineBreak split text), hexDigits?_eq_some_iff.2 read]
  cases bytes
  exact ⟨_, rfl, isTriplet_bytes⟩

/-- A line break behind the short form cannot be read. -/
theorem hexToRgb_of_short (split : color = front ++ "\n") (h : IsHex .short front rgb) :
    hexToRgb color = .error .brokenShortForm := by
  obtain ⟨digits, values, text, read, bytes⟩ := h
  rw [hexToRgb_broken (toList_of_lineBreak split text), hexDigits?_eq_some_iff.2 read]
  cases bytes
  rfl

/-- Whatever is no hexadecimal color, with or without a line break behind it, is kept. -/
theorem hexToRgb_of_other (plain : ∀ form rgb, ¬ IsHex form color rgb)
    (unbroken : ∀ front form rgb, color = front ++ "\n" → ¬ IsHex form front rgb) :
    hexToRgb color = .ok color := by
  by_cases sign : ∃ digits, color.toList = '#' :: digits
  · obtain ⟨digits, text⟩ := sign
    by_cases last : digits.getLast? = some '\n'
    · obtain ⟨digits, rfl⟩ := List.getLast?_eq_some_iff.1 last
      have split : color = String.ofList ('#' :: digits) ++ "\n" := by
        rw [← String.toList_inj, String.toList_append, String.toList_ofList, text]
        rfl
      have none (form rgb values) (read : hexDigits? digits = some values) :
          ¬ Bytes form values rgb := fun bytes => unbroken _ form rgb split
        ⟨digits, values, String.toList_ofList, hexDigits?_eq_some_iff.1 read, bytes⟩
      rw [hexToRgb_broken text]
      split
      · next r g b read => exact absurd (.short r g b) (none _ _ _ read)
      · next a b c d e f read => exact absurd (.long a b c d e f) (none _ _ _ read)
      · rfl
    · have none (form rgb values) (read : hexDigits? digits = some values) :
          ¬ Bytes form values rgb := fun bytes => plain form rgb
        ⟨digits, values, text, hexDigits?_eq_some_iff.1 read, bytes⟩
      rw [hexToRgb_unbroken text last]
      split
      · next r g b read => exact absurd (.short r g b) (none _ _ _ read)
      · next a b c d e f read => exact absurd (.long a b c d e f) (none _ _ _ read)
      · rfl
  · unfold hexToRgb
    split
    · next digits text => exact absurd ⟨digits, text⟩ sign
    · rfl

/-- What is made of a text is the text itself or a triplet. -/
theorem eq_or_isTriplet {text : String} (h : hexToRgb color = .ok text) :
    text = color ∨ ∃ rgb, IsTriplet text rgb := by
  by_cases hex : ∃ form rgb, IsHex form color rgb
  · obtain ⟨form, rgb, hex⟩ := hex
    obtain ⟨_, made, triplet⟩ := hexToRgb_of_isHex hex
    obtain rfl := Except.ok.inj (made.symm.trans h)
    exact .inr ⟨rgb, triplet⟩
  · by_cases broken : ∃ front form rgb, color = front ++ "\n" ∧ IsHex form front rgb
    · obtain ⟨front, form, rgb, split, hex⟩ := broken
      cases form with
      | short => cases (hexToRgb_of_short split hex).symm.trans h
      | long =>
        obtain ⟨_, made, triplet⟩ := hexToRgb_of_long split hex
        obtain rfl := Except.ok.inj (made.symm.trans h)
        exact .inr ⟨rgb, triplet⟩
    · have kept := hexToRgb_of_other (fun form rgb is => hex ⟨form, rgb, is⟩)
        fun front form rgb split is => broken ⟨front, form, rgb, split, is⟩
      exact .inl (Except.ok.inj (h.symm.trans kept))

end Reading

/-- What is made of a text: the bytes of a hexadecimal color, written as three decimal numbers, and
any other text as it is. Only a line break behind the digits is not seen: the long form is read all
the same, and the short form is the one text that cannot be read. What was made of a text stays as
it is. -/
theorem hexToRgb_cases (color : String) :
    (∀ form rgb, IsHex form color rgb → ∃ text, hexToRgb color = .ok text ∧ IsTriplet text rgb) ∧
    (∀ front rgb, color = front ++ "\n" →
      (IsHex .long front rgb → ∃ text, hexToRgb color = .ok text ∧ IsTriplet text rgb) ∧
      (IsHex .short front rgb → hexToRgb color = .error .brokenShortForm)) ∧
    ((∀ form rgb, ¬ IsHex form color rgb) →
      (∀ front form rgb, color = front ++ "\n" → ¬ IsHex form front rgb) →
        hexToRgb color = .ok color) ∧
    ∀ text, hexToRgb color = .ok text → hexToRgb text = .ok text :=
  ⟨fun _ _ => hexToRgb_of_isHex, fun _ _ split => ⟨hexToRgb_of_long split, hexToRgb_of_short split⟩,
    hexToRgb_of_other, fun _ => hexToRgb_hexToRgb⟩

example : hexToRgb "#f21" = .ok "255 34 17" := rfl

private theorem not_isHex_of_lineBreak {color : String} (front : List Char)
    (text : color.toList = '#' :: (front ++ ['\n'])) (form : HexForm) (rgb : Nat × Nat × Nat) :
    ¬ IsHex form color rgb := by
  rintro ⟨digits, values, split, read, -⟩
  rw [text] at split
  obtain ⟨-, rfl⟩ := List.cons.inj split
  exact lineBreak_not_mem read (List.mem_append_right _ List.mem_cons_self)

/-- Two texts that are no colors, since a line break stands behind the digits: the first one cannot
be read, and the second one is not kept. -/
theorem hexToRgb_lineBreaks :
    (∀ form rgb, ¬ IsHex form "#fff\n" rgb) ∧ hexToRgb "#fff\n" = .error .brokenShortForm ∧
    (∀ form rgb, ¬ IsHex form "#00ff00\n" rgb) ∧ hexToRgb "#00ff00\n" = .ok "0 255 0" :=
  ⟨not_isHex_of_lineBreak "fff".toList rfl, rfl,
    not_isHex_of_lineBreak "00ff00".toList rfl, rfl⟩

end Theme

end UtilityCss
