import UtilityCss.Text.Blank

/-! The smallest pieces of a style sheet. Cutting a text into lexemes loses nothing: their texts
written one after the other are the text again. -/
namespace UtilityCss.Css
open Text

/-- A piece of a style sheet. A comment or a string runs to the end of the text if it is never
closed; what it holds is kept without the mark that opens it. -/
inductive Lexeme
  | blank (c : Char)
  | escape (guarded : Option Char)
  | comment (body : List Char)
  | quoted (mark : Char) (body : List Char)
  | semicolon
  | brace (opening : Bool)
  | plain (c : Char)
  deriving DecidableEq, Repr

/-- The text of a brace. -/
def braceChar (opening : Bool) : Char := if opening then '\x7b' else '\x7d'

/-- The characters a lexeme was cut from. -/
def Lexeme.text : Lexeme → List Char
  | .blank c => [c]
  | .escape none => ['\\']
  | .escape (some c) => ['\\', c]
  | .comment body => '/' :: '*' :: body
  | .quoted mark body => mark :: body
  | .semicolon => [';']
  | .brace opening => [braceChar opening]
  | .plain c => [c]

/-- Cuts behind the mark that closes a comment. -/
def splitComment : List Char → List Char × List Char
  | '*' :: '/' :: rest => (['*', '/'], rest)
  | c :: rest => let p := splitComment rest; (c :: p.1, p.2)
  | [] => ([], [])

/-- Cuts behind the mark that closes a string; a backslash guards the character after it. -/
def splitQuoted (mark : Char) : List Char → List Char × List Char
  | [] => ([], [])
  | [c] => ([c], [])
  | c :: d :: rest =>
    if c = mark then ([c], d :: rest)
    else if c = '\\' then let p := splitQuoted mark rest; (c :: d :: p.1, p.2)
    else let p := splitQuoted mark (d :: rest); (c :: p.1, p.2)

/-- The lexeme that starts with `c`, and the text behind it. -/
def firstLexeme (c : Char) (rest : List Char) : Lexeme × List Char :=
  if c = '\\' then
    match rest with
    | [] => (.escape none, [])
    | d :: more => (.escape (some d), more)
  else if c = '/' then
    match rest with
    | '*' :: more => let p := splitComment more; (.comment p.1, p.2)
    | _ => (.plain c, rest)
  else if c = '"' || c = '\'' then let p := splitQuoted c rest; (.quoted c p.1, p.2)
  else if c = ';' then (.semicolon, rest)
  else if c = '\x7b' then (.brace true, rest)
  else if c = '\x7d' then (.brace false, rest)
  else if isBlank c then (.blank c, rest)
  else (.plain c, rest)

theorem splitComment_append (s : List Char) : (splitComment s).1 ++ (splitComment s).2 = s := by
  fun_induction splitComment s <;> simp_all +zetaDelta

theorem splitQuoted_append (mark : Char) (s : List Char) :
    (splitQuoted mark s).1 ++ (splitQuoted mark s).2 = s := by
  fun_induction splitQuoted mark s <;> simp_all +zetaDelta

theorem firstLexeme_append (c : Char) (rest : List Char) :
    (firstLexeme c rest).1.text ++ (firstLexeme c rest).2 = c :: rest := by
  unfold firstLexeme
  split
  · split <;> simp_all [Lexeme.text]
  split
  · split
    · simp_all [Lexeme.text, splitComment_append]
    · simp [Lexeme.text]
  split
  · simp [Lexeme.text, splitQuoted_append]
  split
  · simp_all [Lexeme.text]
  split
  · simp_all [Lexeme.text, braceChar]
  split
  · simp_all [Lexeme.text, braceChar]
  split <;> simp [Lexeme.text]

theorem Lexeme.text_ne_nil (l : Lexeme) : l.text ≠ [] := by
  unfold Lexeme.text
  split <;> simp

theorem firstLexeme_length (c : Char) (rest : List Char) :
    (firstLexeme c rest).2.length ≤ rest.length := by
  have h := congrArg List.length (firstLexeme_append c rest)
  have := List.length_pos_iff.2 (firstLexeme c rest).1.text_ne_nil
  simp only [List.length_append, List.length_cons] at h
  omega

/-- All lexemes of a text. -/
def lexemes : List Char → List Lexeme
  | [] => []
  | c :: rest => (firstLexeme c rest).1 :: lexemes (firstLexeme c rest).2
termination_by s => s.length
decreasing_by exact Nat.lt_succ_of_le (firstLexeme_length c rest)

/-- Nothing is lost. -/
theorem flatMap_text_lexemes (s : List Char) : (lexemes s).flatMap Lexeme.text = s := by
  fun_induction lexemes s with
  | case1 => rfl
  | case2 c rest ih => rw [List.flatMap_cons, ih, firstLexeme_append]

end UtilityCss.Css
