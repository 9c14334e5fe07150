import UtilityCss.Proofs.Css.Settle

/-! Declarations and the text that is made of them. The text is cut into its declarations at the
semicolons that stand outside strings and escapes. -/
namespace UtilityCss.Css

/-- Cuts behind every semicolon; `begun` is the text in front that is not cut yet. -/
def statementsFrom (begun : List Char) : List Lexeme → List (List Char)
  | [] => if begun = [] then [] else [begun]
  | .semicolon :: rest => begun :: statementsFrom [] rest
  | l :: rest => statementsFrom (begun ++ l.text) rest

/-- The statements of a text without their semicolons. Nothing follows the last semicolon. -/
def statements (css : String) : List String :=
  (statementsFrom [] (lexemes css.toList)).map String.ofList

/-- One declaration and nothing else: no semicolon and no brace stands in it, and a semicolon behind
it is none of a string or of an escape that it leaves open. -/
structure IsDeclaration (css : String) : Prop where
  ne_empty : css ≠ ""
  noRule : css.toList.head? ≠ some '@'
  noSemicolon : Lexeme.semicolon ∉ lexemes css.toList
  noBrace : ∀ opening, Lexeme.brace opening ∉ lexemes css.toList
  closed : lexemes (css.toList ++ [';']) = lexemes css.toList ++ [.semicolon]

instance decidableIsDeclaration (css : String) : Decidable (IsDeclaration css) :=
  decidable_of_iff
    (css ≠ "" ∧ css.toList.head? ≠ some '@' ∧ Lexeme.semicolon ∉ lexemes css.toList ∧
      (∀ opening, Lexeme.brace opening ∉ lexemes css.toList) ∧
      lexemes (css.toList ++ [';']) = lexemes css.toList ++ [.semicolon])
    ⟨fun ⟨a, b, c, d, e⟩ => ⟨a, b, c, d, e⟩, fun ⟨a, b, c, d, e⟩ => ⟨a, b, c, d, e⟩⟩

/-- A declaration as it is written, with the semicolon at its end or without. -/
structure Declaration where
  text : String
  ended : Bool
  isDeclaration : IsDeclaration text

/-- The text of the declaration with its semicolon. -/
def Declaration.token (d : Declaration) : String := if d.ended then d.text ++ ";" else d.text

/-- The text of some declarations, one behind the other. -/
def written (ds : List Declaration) : String := String.join (ds.map Declaration.token)

/-- A comment with something behind it is closed, and it is read first whatever follows. -/
theorem splitComment_closed (s : List Char) (h : (splitComment s).2 ≠ []) (rest : List Char) :
    splitComment ((splitComment s).1 ++ rest) = ((splitComment s).1, rest) := by
  fun_induction splitComment s with
  | case1 more => simp [splitComment]
  | case2 c more going p ih =>
    have again : splitComment (p.1 ++ rest) = (p.1, rest) := ih h
    have whole : p.1 ++ p.2 = more := splitComment_append more
    rw [List.cons_append, splitComment, again]
    -- The rest of the comment is not empty: it holds the mark that closes it.
    rintro rest' rfl closes
    have filled : p.1 ≠ [] := by
      intro none
      cases more with
      | nil => exact h rfl
      | cons d tail =>
        have : (splitComment (d :: tail)).1 = [] := none
        unfold splitComment at this
        split at this <;> simp_all
    obtain ⟨d, body, hp⟩ := List.exists_cons_of_ne_nil filled
    rw [hp, List.cons_append, List.cons.injEq] at closes
    exact going (body ++ p.2) rfl (by rw [← whole, hp, closes.1, List.cons_append])
  | case3 => exact absurd rfl h

theorem firstLexeme_blank {c : Char} (h : Text.isBlank c = true) (rest : List Char) :
    firstLexeme c rest = (.blank c, rest) := by
  have other : ∀ m, Text.isBlank m = false → c ≠ m := by
    rintro m hm rfl
    simp [h] at hm
  simp [firstLexeme, h, other '\\' rfl, other '/' rfl, other '"' rfl, other '\'' rfl,
    other ';' rfl, other '\x7b' rfl, other '\x7d' rfl]

theorem isBlank_of_firstLexeme {c d : Char} {rest : List Char}
    (h : (firstLexeme c rest).1 = .blank d) : Text.isBlank c = true := by
  unfold firstLexeme at h
  split at h
  · split at h <;> cases h
  split at h
  · split at h <;> cases h
  split at h
  · cases h
  split at h
  · cases h
  split at h
  · cases h
  split at h
  · cases h
  split at h
  · assumption
  · cases h

/-- A lexeme that something follows is read first whatever else follows, if no star comes to stand
behind it. -/
theorem Lexeme.Heads.of_star {l : Lexeme} {rest rest' : List Char} (h : l.Heads rest)
    (more : rest ≠ []) (star : rest'.head? = some '*' → rest.head? = some '*') :
    l.Heads rest' := by
  cases l with
  | blank c =>
    obtain ⟨d, body, text, first⟩ := h
    obtain ⟨rfl, rfl⟩ : c = d ∧ [] = body := by simpa [Lexeme.text] using text
    have blank := isBlank_of_firstLexeme (congrArg Prod.fst first)
    exact ⟨c, [], rfl, firstLexeme_blank blank rest'⟩
  | escape guarded =>
    cases guarded with
    | some c => exact heads_escape c rest'
    | none => exact absurd (heads_escape_none_iff.1 h) more
  | comment body =>
    obtain ⟨d, front, text, first⟩ := h
    obtain ⟨rfl, rfl⟩ : '/' = d ∧ '*' :: body = front := by simpa [Lexeme.text] using text
    have split : splitComment (body ++ rest) = (body, rest) := by
      simpa [firstLexeme, Prod.ext_iff] using first
    have closed := splitComment_closed (body ++ rest) (by rwa [split]) rest'
    rw [split] at closed
    exact ⟨'/', '*' :: body, rfl, by simp [firstLexeme, closed]⟩
  | quoted mark body => exact (heads_quoted_closed h more).2 rest'
  | semicolon => exact heads_semicolon rest'
  | brace opening => exact heads_brace opening rest'
  | plain c => exact heads_plain_notStar h star

/-- A text that leaves nothing open in front of a character is cut alike whatever follows that
character. -/
theorem lexemes_append {s : List Char} {c : Char}
    (closed : lexemes (s ++ [c]) = lexemes s ++ lexemes [c]) (rest : List Char) :
    lexemes (s ++ c :: rest) = lexemes s ++ lexemes (c :: rest) := by
  have readable (ls : List Lexeme) (h : Readable (ls ++ lexemes [c])) :
      Readable (ls ++ lexemes (c :: rest)) := by
    induction ls with
    | nil => exact readable_lexemes _
    | cons l more ih =>
      refine ⟨h.1.of_star ?_ ?_, ih h.2⟩
      · simp [textOf_lexemes]
      · cases here : textOf more <;> simp [here, textOf_lexemes]
  have whole := (readable (lexemes s) (closed ▸ readable_lexemes _)).lexemes_textOf
  rwa [textOf_append, textOf_lexemes, textOf_lexemes] at whole

theorem lexemes_semicolon (rest : List Char) : lexemes (';' :: rest) = .semicolon :: lexemes rest :=
  (heads_semicolon rest).lexemes_eq

/-- A declaration that is closed is cut off at its semicolon whatever follows. -/
theorem IsDeclaration.lexemes_append {d : String} (h : IsDeclaration d) (rest : List Char) :
    lexemes (d.toList ++ ';' :: rest) = lexemes d.toList ++ .semicolon :: lexemes rest := by
  have none : lexemes [] = [] := by rw [lexemes]
  rw [Css.lexemes_append (by rw [h.closed, lexemes_semicolon, none]), lexemes_semicolon]

theorem statementsFrom_append {ls : List Lexeme} (h : .semicolon ∉ ls) (begun : List Char)
    (rest : List Lexeme) :
    statementsFrom begun (ls ++ rest) = statementsFrom (begun ++ textOf ls) rest := by
  induction ls generalizing begun with
  | nil => simp
  | cons l more ih =>
    obtain ⟨here, later⟩ : .semicolon ≠ l ∧ .semicolon ∉ more := by simpa using h
    rw [List.cons_append, textOf_cons, ← List.append_assoc, ← ih later]
    cases l with
    | semicolon => exact absurd rfl here
    | _ => rfl

/-- The first statement is all the text, or a semicolon ends it. -/
theorem first_of_statementsFrom {begun first : List Char} {ls : List Lexeme}
    {others : List (List Char)} (h : statementsFrom begun ls = first :: others) :
    begun ++ textOf ls = first ∨ ∃ rest, begun ++ textOf ls = first ++ ';' :: rest := by
  fun_induction statementsFrom begun ls with
  | case1 => cases h
  | case2 begun filled =>
    cases h
    exact .inl (by simp)
  | case3 begun rest ih =>
    cases h
    exact .inr ⟨textOf rest, by simp [Lexeme.text]⟩
  | case4 begun l rest other ih => simpa using ih h

namespace IsDeclaration

variable {d : String}

theorem head_ne_semicolon (h : IsDeclaration d) : d.toList.head? ≠ some ';' := by
  intro head
  obtain ⟨rest, text⟩ := List.head?_eq_some_iff.1 head
  refine h.noSemicolon ?_
  rw [text, lexemes]
  simp [firstLexeme]

theorem statements_eq (h : IsDeclaration d) : statements d = [d] := by
  have whole := statementsFrom_append h.noSemicolon [] []
  have filled : d.toList ≠ [] := mt String.toList_eq_nil_iff.1 h.ne_empty
  rw [List.append_nil, List.nil_append, textOf_lexemes, statementsFrom, if_neg filled] at whole
  rw [statements, whole, List.map_singleton, String.ofList_toList]

theorem statements_append (h : IsDeclaration d) (rest : String) :
    statements (d ++ ";" ++ rest) = d :: statements rest := by
  have text : (d ++ ";" ++ rest).toList = d.toList ++ ';' :: rest.toList := by simp
  rw [statements, text, h.lexemes_append, statementsFrom_append h.noSemicolon, List.nil_append,
    textOf_lexemes, statementsFrom, List.map_cons, String.ofList_toList]
  rfl

/-- A text that a declaration follows at once is no statement of its own. -/
theorem statements_ne (h : IsDeclaration d) (before rest : String) (others : List String) :
    statements (before ++ (d ++ rest)) ≠ before :: others := by
  intro cut
  obtain ⟨c, tail, hd⟩ := List.exists_cons_of_ne_nil (mt String.toList_eq_nil_iff.1 h.ne_empty)
  obtain ⟨first, more, parts, same, -⟩ := List.map_eq_cons_iff.1 cut
  obtain rfl : first = before.toList := by rw [← same, String.toList_ofList]
  have start := first_of_statementsFrom parts
  rw [List.nil_append, textOf_lexemes, String.toList_append, String.toList_append, hd] at start
  rcases start with all | ⟨behind, begins⟩
  · simp at all
  · have head : c = ';' := by simpa using congrArg List.head? (List.append_cancel_left begins)
    exact h.head_ne_semicolon (by rw [hd, head]; rfl)

end IsDeclaration

theorem Declaration.exists_token_eq (d : Declaration) : ∃ behind, d.token = d.text ++ behind := by
  rw [token]
  split
  · exact ⟨";", rfl⟩
  · exact ⟨"", by simp⟩

@[simp] theorem written_append (ds more : List Declaration) :
    written (ds ++ more) = written ds ++ written more := by
  rw [written, List.map_append, String.join_append]
  rfl

/-- The text of some declarations is cut into just these declarations exactly if every one of them
but the last is written with its semicolon. -/
theorem statements_written_iff (ds : List Declaration) :
    statements (written ds) = ds.map Declaration.text ↔ ∀ d ∈ ds.dropLast, d.ended = true := by
  induction ds with
  | nil => simp [statements, written, lexemes, statementsFrom]
  | cons d rest ih =>
    rw [written, List.map_cons, List.map_cons, String.join_cons, Declaration.token]
    cases ended : d.ended with
    | true =>
      rw [if_pos rfl, d.isDeclaration.statements_append, List.cons.injEq]
      refine (and_iff_right rfl).trans (ih.trans ?_)
      cases rest with
      | nil => simp
      | cons e more => simp [ended]
    | false =>
      rw [if_neg (by simp)]
      cases rest with
      | nil => simpa using d.isDeclaration.statements_eq
      | cons e more =>
        obtain ⟨behind, text⟩ := e.exists_token_eq
        rw [List.map_cons, String.join_cons, text, String.append_assoc]
        refine iff_of_false (e.isDeclaration.statements_ne _ _ _) ?_
        simp [ended]

end UtilityCss.Css
