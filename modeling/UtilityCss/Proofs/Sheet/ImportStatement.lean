import UtilityCss.Proofs.Css.Declaration
import UtilityCss.Proofs.Css.Pending
import UtilityCss.Sheet.Import

/-! Statements that import a path. A path whose marks and backslashes are guarded is read back from
its statement, which is one token whatever the path holds; and nothing is inlined but a statement
with one string. -/
namespace UtilityCss.Sheet
open Css

/-- A text as it stands between two marks: a backslash guards every backslash and every mark. -/
def guardMarks (mark : Char) (s : List Char) : List Char :=
  s.flatMap fun c => if c = '\\' ∨ c = mark then ['\\', c] else [c]

/-- The statement that imports a path. -/
def importStatement (mark : Char) (path : String) : String :=
  String.ofList ("@import ".toList ++ mark :: (guardMarks mark path.toList ++ [mark, ';']))

variable {mark : Char}

private theorem guardMarks_cons (mark c : Char) (s : List Char) :
    guardMarks mark (c :: s) =
      (if c = '\\' ∨ c = mark then ['\\', c] else [c]) ++ guardMarks mark s := rfl

/-- A guarded text is read back. It may hold line breaks, since none of them is guarded. -/
theorem unquote?_guardMarks (quote : mark = '"' ∨ mark = '\'') (s rest : List Char) :
    unquote? mark (guardMarks mark s ++ mark :: rest) = some (s, rest) := by
  have backslash : '\\' ≠ mark := by rcases quote with rfl | rfl <;> decide
  have lineBreak : mark ≠ '\n' := by rcases quote with rfl | rfl <;> decide
  induction s with
  | nil => cases rest <;> simp [guardMarks, unquote?]
  | cons c more ih =>
    rw [guardMarks_cons]
    split
    · next guarded =>
      have visible : c ≠ '\n' := by
        rcases guarded with rfl | rfl
        · decide
        · exact lineBreak
      simp [unquote?, backslash, visible, ih]
    · next plain =>
      obtain ⟨notBackslash, notMark⟩ := not_or.1 plain
      obtain ⟨d, behind, text⟩ : ∃ d behind, guardMarks mark more ++ mark :: rest = d :: behind :=
        List.exists_cons_of_ne_nil (by simp)
      rw [List.singleton_append, List.cons_append, text, unquote?, if_neg notMark,
        if_neg notBackslash, ← text, ih]
      rfl

/-- What is read between marks is a string of the style sheet. -/
theorem splitQuoted_of_unquote? {s value rest : List Char}
    (h : unquote? mark s = some (value, rest)) :
    ∃ body, s = body ++ mark :: rest ∧ splitQuoted mark s = (body ++ [mark], rest) := by
  fun_induction unquote? mark s generalizing value with
  | case1 => cases h
  | case2 =>
    cases h
    exact ⟨[], rfl, rfl⟩
  | case3 => cases h
  | case4 d behind =>
    cases h
    exact ⟨[], rfl, by simp [splitQuoted]⟩
  | case5 => cases h
  | case6 d behind visible notMark ih =>
    obtain ⟨⟨inner, _⟩, read, same⟩ := Option.map_eq_some_iff.1 h
    cases same
    obtain ⟨body, rfl, split⟩ := ih read
    exact ⟨'\\' :: d :: body, rfl, by simp [splitQuoted, notMark, split]⟩
  | case7 c d behind notMark plain ih =>
    obtain ⟨⟨inner, _⟩, read, same⟩ := Option.map_eq_some_iff.1 h
    cases same
    obtain ⟨body, text, split⟩ := ih read
    rw [splitQuoted, if_neg notMark, if_neg plain, split]
    exact ⟨c :: body, by rw [text, List.cons_append], rfl⟩

/-- An import that is inlined, cut into its parts: the word, a space, one string, a semicolon. -/
theorem lexemes_of_importPath? {token path : String} (h : importPath? token = some path) :
    ∃ mark body, (mark = '"' ∨ mark = '\'') ∧
      token.toList = "@import ".toList ++ mark :: (body ++ [mark, ';']) ∧
      lexemes token.toList = "@import".toList.map .plain ++
        [.blank ' ', .quoted mark (body ++ [mark]), .semicolon] := by
  obtain ⟨mark, rest, c, more, quote, text, read, -, -⟩ := importPath?_eq_some_iff.1 h
  obtain ⟨body, rfl, split⟩ := splitQuoted_of_unquote? read
  have dot : splitQuoted mark ('.' :: (body ++ [mark, ';'])) = ('.' :: body ++ [mark], [';']) := by
    obtain ⟨d, behind, cons⟩ : ∃ d behind, body ++ [mark, ';'] = d :: behind :=
      List.exists_cons_of_ne_nil (by simp)
    rw [cons] at split ⊢
    have notMark : '.' ≠ mark := by rcases quote with rfl | rfl <;> decide
    rw [splitQuoted, if_neg notMark, if_neg (by decide), split]
    rfl
  have word : lexemes ("@import ".toList ++ [mark]) = lexemes "@import ".toList ++ lexemes [mark] ∧
      lexemes "@import ".toList = "@import".toList.map .plain ++ [.blank ' '] := by
    rcases quote with rfl | rfl <;> decide +kernel
  have string : (Lexeme.quoted mark ('.' :: body ++ [mark])).Heads [';'] :=
    heads_quoted_iff.2 ⟨quote, by simpa using dot⟩
  have behind : lexemes (mark :: '.' :: (body ++ [mark, ';'])) =
      [.quoted mark ('.' :: body ++ [mark]), .semicolon] := by
    have nothing : lexemes [] = [] := by rw [lexemes]
    have cut := string.lexemes_eq
    rw [lexemes_semicolon, nothing] at cut
    simpa [Lexeme.text] using cut
  refine ⟨mark, '.' :: body, quote, text, ?_⟩
  rw [text, lexemes_append word.1, behind, word.2, List.append_assoc]
  rfl

/-- An import that is inlined is one token. -/
theorem tokens_of_importPath? {token path : String} (h : importPath? token = some path) :
    tokens token = [token] := by
  obtain ⟨mark, body, -, text, cut⟩ := lexemes_of_importPath? h
  have solid : Text.trim token.toList = token.toList := by
    have trimmed : Text.trim ([] ++ token.toList.reverse ++ []).reverse =
        token.toList.reverse.reverse := trim_reverse_append [] [] (by simp) (by simp)
      (by simp [text, List.getLast?_cons, Text.isBlank]) (by simp [text, Text.isBlank])
    simpa using trimmed
  have read : group [] (lexemes token.toList) = [Text.trim token.toList] := by
    have letter : Text.isBlank 't' = false := rfl
    rw [cut, text]
    simp [group, foldBlank, letter, Lexeme.text]
  rw [tokens, read, solid, List.map_singleton, String.ofList_toList]

theorem importPath?_importStatement (quote : mark = '"' ∨ mark = '\'') {path : String}
    (relative : path.toList.head? = some '.') (ending : ".css".toList <:+ path.toList) :
    importPath? (importStatement mark path) = some path := by
  obtain ⟨tail, text⟩ := List.head?_eq_some_iff.1 relative
  have filled : tail ≠ [] := by
    rintro rfl
    rw [text] at ending
    exact absurd ending.length_le (by decide)
  obtain ⟨c, more, rfl⟩ := List.exists_cons_of_ne_nil filled
  have dot : ¬ ('.' = '\\' ∨ '.' = mark) := by rcases quote with rfl | rfl <;> decide
  have statement : (importStatement mark path).toList =
      "@import ".toList ++ mark :: (guardMarks mark path.toList ++ [mark, ';']) :=
    String.toList_ofList
  rw [text, guardMarks_cons, if_neg dot] at statement
  exact importPath?_eq_some_iff.2 ⟨mark, guardMarks mark (c :: more) ++ [mark, ';'], c, more,
    quote, statement, unquote?_guardMarks quote _ _, text ▸ ending,
    by rw [← text, String.ofList_toList]⟩

/-- The statement for a relative path of a style sheet, with either mark, is read as one token, and
the path is found in it. Every token in which a path is found has such a path, and it consists of
the word, one space, one string and a semicolon. -/
theorem importPath?_roundTrip :
    (∀ mark path, (mark = '"' ∨ mark = '\'') → path.toList.head? = some '.' →
      ".css".toList <:+ path.toList →
        tokens (importStatement mark path) = [importStatement mark path] ∧
          importPath? (importStatement mark path) = some path) ∧
    ∀ token path, importPath? token = some path →
      path.toList.head? = some '.' ∧ ".css".toList <:+ path.toList ∧
        ∃ mark body, (mark = '"' ∨ mark = '\'') ∧
          token.toList = "@import ".toList ++ mark :: (body ++ [mark, ';']) ∧
          lexemes token.toList = "@import".toList.map .plain ++
            [.blank ' ', .quoted mark (body ++ [mark]), .semicolon] := by
  constructor
  · intro mark path quote relative ending
    have found := importPath?_importStatement quote relative ending
    exact ⟨tokens_of_importPath? found, found⟩
  · intro token path found
    obtain ⟨_, _, c, more, -, -, -, ending, named⟩ := importPath?_eq_some_iff.1 found
    have text : path.toList = '.' :: c :: more := by rw [named, String.toList_ofList]
    exact ⟨by rw [text, List.head?_cons], text.symm ▸ ending, lexemes_of_importPath? found⟩

/-- A path with marks, braces, a comment, blanks and a backslash. -/
theorem importPath?_roundTrip_marked :
    tokens (importStatement '"' "./a\"'; \x7b/*  \n\\\x7d.css") =
        [importStatement '"' "./a\"'; \x7b/*  \n\\\x7d.css"] ∧
      importPath? (importStatement '"' "./a\"'; \x7b/*  \n\\\x7d.css") =
        some "./a\"'; \x7b/*  \n\\\x7d.css" :=
  importPath?_roundTrip.1 '"' "./a\"'; \x7b/*  \n\\\x7d.css" (.inl rfl) (by decide) (by decide)

end UtilityCss.Sheet
