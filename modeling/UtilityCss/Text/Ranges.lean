/-! Sets of code points given by ascending, disjoint ranges. -/
namespace UtilityCss.Text

/-- Search stops at the first range that starts above the code point. -/
def within : List (Nat × Nat) → Nat → Bool
  | [], _ => false
  | (low, high) :: rest, n =>
    if n < low then false
    else if n ≤ high then true
    else within rest n

theorem within_of_lt {low high n : Nat} {rest : List (Nat × Nat)} (h : n < low) :
    within ((low, high) :: rest) n = false := by
  simp [within, h]

end UtilityCss.Text
