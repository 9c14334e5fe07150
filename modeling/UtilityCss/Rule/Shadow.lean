import UtilityCss.Rule.Catalogue

/-! Box shadows, each with a form whose colors can be set by another utility. -/
namespace UtilityCss.Rule

open Catalogue

/-- What stands for the color of a shadow. -/
def shadowColor : String := "var(--tw-shadow-color)"

/-- The text behind a color term at the head of `s`: the term opens with `rgb(` and runs to the next
closing parenthesis, with something between them. -/
def behindColor? (s : List Char) : Option (List Char) :=
  match s with
  | 'r' :: 'g' :: 'b' :: '(' :: inside =>
    match inside.dropWhile (· != ')') with
    | [] => none
    | _ :: rest => if inside.head? = some ')' then none else some rest
  | _ => none

theorem behindColor?_length {s rest : List Char} (h : behindColor? s = some rest) :
    rest.length < s.length := by
  unfold behindColor? at h
  split at h
  · next inside =>
    split at h
    · cases h
    · next d more hd =>
      split at h
      · cases h
      · obtain rfl := Option.some.inj h
        have hlen := (List.dropWhile_suffix (l := inside) (p := (· != ')'))).length_le
        rw [hd] at hlen
        simp only [List.length_cons] at hlen ⊢
        omega
  · cases h

/-- Replaces every color term. -/
def recolor : List Char → List Char
  | [] => []
  | c :: rest =>
    match _h : behindColor? (c :: rest) with
    | some behind => shadowColor.toList ++ recolor behind
    | none => c :: recolor rest
termination_by s => s.length
decreasing_by
  · exact behindColor?_length _h
  · exact Nat.lt_succ_self _

private def shadowRule (key value : String) : String × Rule :=
  named (if key.isEmpty then "shadow" else "shadow-" ++ key)
    ("--tw-shadow-y: 1;--tw-shadow-x: -1;--tw-shadow: " ++ value ++ ";--tw-shadow-colored: " ++
      String.ofList (recolor value.toList) ++
      ";box-shadow:var(--tw-ring-offset-shadow, 0 0 #0000)," ++
      "var(--tw-ring-shadow, 0 0 #0000), var(--tw-shadow);")
    (if key = "none" then 1 else 0)

/-- All shadows. -/
def shadowEntries (shadows : List (String × String)) : List (String × Rule) :=
  shadows.map fun e => shadowRule e.1 e.2

end UtilityCss.Rule
