/-! Texts in ascending order. -/
namespace UtilityCss.Text

/-- The texts in ascending order without repetitions. -/
def sortedDistinct (texts : List String) : List String :=
  (texts.mergeSort fun a b => decide (a ≤ b)).eraseReps

/-- Named values in ascending order of their names; those of one name keep their order. -/
def sortedByName {α : Type} (named : List (String × α)) : List (String × α) :=
  named.mergeSort fun a b => decide (a.1 ≤ b.1)

end UtilityCss.Text
