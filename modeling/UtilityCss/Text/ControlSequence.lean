/-! Control sequences, with which a terminal is told of colors and cursor moves. Output that does
not go to a terminal is written without them. -/
namespace UtilityCss.Text

/-- Whether a character may stand between the opening of a control sequence and its last letter. -/
def isParameter (c : Char) : Bool := c.isDigit || c == ';' || c == '?'

/-- The text behind a control sequence at the head of `s`: it opens with the escape character and a
bracket, and a letter closes it. -/
def behindControl? (s : List Char) : Option (List Char) :=
  match s with
  | '\x1b' :: '[' :: inside =>
    match inside.dropWhile isParameter with
    | [] => none
    | c :: rest => if c.isAlpha then some rest else none
  | _ => none

theorem behindControl?_length {s rest : List Char} (h : behindControl? s = some rest) :
    rest.length < s.length := by
  unfold behindControl? at h
  split at h
  · next inside =>
    split at h
    · cases h
    · next c more hd =>
      split at h
      · obtain rfl := Option.some.inj h
        have hlen := (List.dropWhile_suffix (l := inside) (p := isParameter)).length_le
        rw [hd] at hlen
        simp only [List.length_cons] at hlen ⊢
        omega
      · cases h
  · cases h

/-- Drops every control sequence. -/
def dropControls : List Char → List Char
  | [] => []
  | c :: rest =>
    match _h : behindControl? (c :: rest) with
    | some behind => dropControls behind
    | none => c :: dropControls rest
termination_by s => s.length
decreasing_by
  · exact behindControl?_length _h
  · exact Nat.lt_succ_self _

/-- A text without the escape character has no control sequences. -/
theorem dropControls_of_not_mem {s : List Char} (h : '\x1b' ∉ s) : dropControls s = s := by
  induction s with
  | nil => rw [dropControls]
  | cons c rest ih =>
    have hc : behindControl? (c :: rest) = none := by
      unfold behindControl?
      split
      · next heq =>
        rw [heq] at h
        exact absurd List.mem_cons_self h
      · rfl
    rw [dropControls]
    split
    · next heq => rw [hc] at heq; cases heq
    · rw [ih fun hm => h (List.mem_cons_of_mem c hm)]

/-- A text as it is written where there is no terminal. -/
def plainOutput (s : String) : String := String.ofList (dropControls s.toList)

end UtilityCss.Text
