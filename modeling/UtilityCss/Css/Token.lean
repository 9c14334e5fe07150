import UtilityCss.Css.Lexeme

/-! The tokens of a style sheet: a statement with its semicolon, a fragment in front of a brace, or
a brace. A run of blanks and comments counts as one space, and strings and escapes are kept. -/
namespace UtilityCss.Css
open Text

/-- Adds a space to a reversed text, unless a blank stands there already. -/
def foldBlank : List Char → List Char
  | [] => [' ']
  | c :: rest => if isBlank c then c :: rest else ' ' :: c :: rest

/-- Reads up to the end of one token. `pending` is the reversed text read so far; a brace behind
such a text is left for the next token. -/
def gather (pending : List Char) : List Lexeme → List Char × List Lexeme
  | [] => (pending, [])
  | .semicolon :: rest => (';' :: pending, rest)
  | .brace opening :: rest =>
    if pending.all isBlank then ([braceChar opening], rest) else (pending, .brace opening :: rest)
  | .blank _ :: rest => gather (foldBlank pending) rest
  | .comment _ :: rest => gather (foldBlank pending) rest
  | l :: rest => gather (l.text.reverse ++ pending) rest

/-- A position between two tokens, and the token read last. -/
structure Reader where
  rest : List Lexeme
  value : String := ""

/-- The position in front of a text. -/
def Reader.ofString (css : String) : Reader := ⟨lexemes css.toList, ""⟩

/-- Whether no character is left. -/
def Reader.atEnd (r : Reader) : Bool := r.rest.isEmpty

/-- Reads the next token; it is empty when only blanks and comments were left. -/
def Reader.read (r : Reader) : Reader :=
  let p := gather [] r.rest
  ⟨p.2, String.ofList (trim p.1.reverse)⟩

/-- The tokens that start with a reversed pending text. -/
def group (pending : List Char) : List Lexeme → List (List Char)
  | [] => if pending.all isBlank then [] else [trim pending.reverse]
  | .semicolon :: rest => trim (';' :: pending).reverse :: group [] rest
  | .brace opening :: rest =>
    if pending.all isBlank then [braceChar opening] :: group [] rest
    else trim pending.reverse :: [braceChar opening] :: group [] rest
  | .blank _ :: rest => group (foldBlank pending) rest
  | .comment _ :: rest => group (foldBlank pending) rest
  | l :: rest => group (l.text.reverse ++ pending) rest

/-- The tokens of a style sheet. -/
def tokens (css : String) : List String :=
  (group [] (lexemes css.toList)).map String.ofList

/-- The style sheet without comments and needless blanks. -/
def compact (css : String) : String := String.join (tokens css)

private theorem dropWhile_eq_nil_of_all {s : List Char} (h : s.all isBlank = true) :
    s.dropWhile isBlank = [] := by
  induction s with
  | nil => rfl
  | cons c rest ih =>
    simp only [List.all_cons, Bool.and_eq_true] at h
    simp [h.1, ih h.2]

private theorem dropWhile_ne_nil {s : List Char} {c : Char} (hc : c ∈ s) (h : isBlank c = false) :
    ∃ d rest, s.dropWhile isBlank = d :: rest ∧ isBlank d = false := by
  induction s with
  | nil => cases hc
  | cons e rest ih =>
    by_cases he : isBlank e = true
    · rcases List.mem_cons.1 hc with rfl | hm
      · simp [h] at he
      · simpa [he] using ih hm
    · exact ⟨e, rest, by simp [he], by simpa using he⟩

/-- Trimming leaves nothing exactly of blanks. -/
theorem trim_eq_nil_iff {s : List Char} : trim s = [] ↔ s.all isBlank = true := by
  constructor
  · intro h
    rw [List.all_eq_true]
    intro c hc
    cases hb : isBlank c with
    | true => rfl
    | false =>
      obtain ⟨d, rest, hd, hdb⟩ := dropWhile_ne_nil hc hb
      have hm : d ∈ (s.dropWhile isBlank).reverse := by simp [hd]
      obtain ⟨e, more, he, -⟩ := dropWhile_ne_nil hm hdb
      simp [trim, trimWhere, he] at h
  · intro h
    simp [trim, trimWhere, dropWhile_eq_nil_of_all h]

/-- The tokens are what reading yields until it yields nothing. -/
theorem group_eq_gather (pending : List Char) (ls : List Lexeme) :
    group pending ls =
      if trim (gather pending ls).1.reverse = [] then []
      else trim (gather pending ls).1.reverse :: group [] (gather pending ls).2 := by
  fun_induction group pending ls with
  | case1 pending h => simp [gather, trim_eq_nil_iff, h]
  | case2 pending h => simp [gather, trim_eq_nil_iff, h, group]
  | case3 pending rest _ =>
    have : ¬ (trim (';' :: pending).reverse = []) := by
      rw [trim_eq_nil_iff]
      simp [show isBlank ';' = false from rfl]
    rw [gather, if_neg this]
  | case4 pending opening rest h _ =>
    have one : trim [braceChar opening] = [braceChar opening] := by cases opening <;> rfl
    simp [gather, h, one]
  | case5 pending opening rest h _ =>
    have : ¬ (trim pending.reverse = []) := by
      rw [trim_eq_nil_iff]
      simpa using h
    have left : gather pending (.brace opening :: rest) = (pending, .brace opening :: rest) := by
      simp [gather, h]
    rw [left, if_neg this]
    simp [group]
  | case6 pending c rest ih => rw [gather]; exact ih
  | case7 pending body rest ih => rw [gather]; exact ih
  | case8 pending l rest _ _ _ _ ih =>
    rw [gather]
    · exact ih
    all_goals assumption

end UtilityCss.Css
