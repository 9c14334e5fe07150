import UtilityCss.Css.Lexeme

/-! Which lists of lexemes are read back from their texts: each lexeme must be the first one of its
own text with what follows. -/
namespace UtilityCss.Css
open Text

/-- The text of some lexemes. -/
def textOf (ls : List Lexeme) : List Char := ls.flatMap Lexeme.text

@[simp] theorem textOf_nil : textOf [] = [] := rfl

@[simp] theorem textOf_cons (l : Lexeme) (ls : List Lexeme) :
    textOf (l :: ls) = l.text ++ textOf ls := rfl

@[simp] theorem textOf_append (ls more : List Lexeme) :
    textOf (ls ++ more) = textOf ls ++ textOf more := List.flatMap_append

/-- A lexeme that is read first when `rest` follows its text. -/
def Lexeme.Heads (l : Lexeme) (rest : List Char) : Prop :=
  ∃ c more, l.text = c :: more ∧ firstLexeme c (more ++ rest) = (l, rest)

theorem Lexeme.Heads.lexemes_eq {l : Lexeme} {rest : List Char} (h : l.Heads rest) :
    lexemes (l.text ++ rest) = l :: lexemes rest := by
  obtain ⟨c, more, text, first⟩ := h
  rw [text, List.cons_append, lexemes, first]

/-- Lexemes that are read back from their text. -/
def Readable : List Lexeme → Prop
  | [] => True
  | l :: rest => l.Heads (textOf rest) ∧ Readable rest

theorem Readable.lexemes_textOf {ls : List Lexeme} (h : Readable ls) :
    lexemes (textOf ls) = ls := by
  induction ls with
  | nil => rw [textOf_nil, lexemes]
  | cons l rest ih => rw [textOf_cons, h.1.lexemes_eq, ih h.2]

theorem textOf_lexemes (s : List Char) : textOf (lexemes s) = s := flatMap_text_lexemes s

theorem heads_firstLexeme (c : Char) (rest : List Char) :
    (firstLexeme c rest).1.Heads (firstLexeme c rest).2 := by
  have whole := firstLexeme_append c rest
  obtain ⟨d, more, text⟩ := List.exists_cons_of_ne_nil (firstLexeme c rest).1.text_ne_nil
  rw [text, List.cons_append, List.cons.injEq] at whole
  exact ⟨d, more, text, by rw [whole.1, whole.2]⟩

theorem readable_lexemes (s : List Char) : Readable (lexemes s) := by
  fun_induction lexemes s with
  | case1 => trivial
  | case2 c rest ih => exact ⟨(textOf_lexemes _).symm ▸ heads_firstLexeme c rest, ih⟩

/-! Each kind of lexeme is read first under a condition of its own. -/

theorem heads_escape (c : Char) (rest : List Char) : (Lexeme.escape (some c)).Heads rest :=
  ⟨'\\', [c], rfl, by simp [firstLexeme]⟩

theorem heads_escape_none : (Lexeme.escape none).Heads [] := ⟨'\\', [], rfl, by simp [firstLexeme]⟩

theorem heads_semicolon (rest : List Char) : Lexeme.semicolon.Heads rest :=
  ⟨';', [], rfl, by simp [firstLexeme]⟩

theorem heads_brace (opening : Bool) (rest : List Char) : (Lexeme.brace opening).Heads rest := by
  cases opening
  · exact ⟨'\x7d', [], rfl, by simp [firstLexeme]⟩
  · exact ⟨'\x7b', [], rfl, by simp [firstLexeme]⟩

theorem heads_space (rest : List Char) : (Lexeme.blank ' ').Heads rest :=
  ⟨' ', [], rfl, by simp [firstLexeme, isBlank]⟩

/-- A character that stands for itself outside strings, escapes and comments. -/
def isOrdinary (c : Char) : Bool :=
  !isBlank c && c != '\\' && c != '"' && c != '\'' && c != ';' && c != '\x7b' && c != '\x7d'

/-- Characters of a class without blanks and marks stand for themselves. -/
theorem isOrdinary_of_mem {p : Char → Bool} {c : Char} (h : p c = true) (ink : isBlank c = false)
    (marks : ['\\', '"', '\'', ';', '\x7b', '\x7d'].all (!p ·) = true) : isOrdinary c = true := by
  have other {mark : Char} (no : p mark = false) : (c != mark) = true := by
    rw [bne_iff_ne]
    rintro rfl
    rw [no] at h
    cases h
  simp only [List.all_cons, Bool.and_eq_true, Bool.not_eq_true', List.all_nil] at marks
  obtain ⟨escape, double, single, semicolon, opening, closing, -⟩ := marks
  simp [isOrdinary, ink, other escape, other double, other single, other semicolon, other opening,
    other closing]

theorem heads_plain_iff {c : Char} {rest : List Char} :
    (Lexeme.plain c).Heads rest ↔
      isOrdinary c ∧ ¬ (c = '/' ∧ rest.head? = some '*') := by
  have reads : (Lexeme.plain c).Heads rest ↔ firstLexeme c rest = (.plain c, rest) := by
    constructor
    · rintro ⟨d, more, text, first⟩
      obtain ⟨rfl, rfl⟩ : c = d ∧ [] = more := by simpa [Lexeme.text] using text
      exact first
    · exact fun first => ⟨c, [], rfl, first⟩
  rw [reads]
  unfold firstLexeme isOrdinary
  by_cases slash : c = '/'
  · subst slash
    cases rest with
    | nil => simp [isBlank]
    | cons d more =>
      by_cases star : d = '*'
      · subst star
        simp
      · simp [isBlank, star]
  · grind

theorem heads_plain_notStar {c : Char} {rest rest' : List Char} (h : (Lexeme.plain c).Heads rest)
    (star : rest'.head? = some '*' → rest.head? = some '*') : (Lexeme.plain c).Heads rest' := by
  rw [heads_plain_iff] at h ⊢
  exact ⟨h.1, fun bad => h.2 ⟨bad.1, star bad.2⟩⟩

theorem heads_quoted_iff {mark : Char} {body rest : List Char} :
    (Lexeme.quoted mark body).Heads rest ↔
      (mark = '"' ∨ mark = '\'') ∧ splitQuoted mark (body ++ rest) = (body, rest) := by
  have reads : (Lexeme.quoted mark body).Heads rest ↔
      firstLexeme mark (body ++ rest) = (.quoted mark body, rest) := by
    constructor
    · rintro ⟨d, more, text, first⟩
      obtain ⟨rfl, rfl⟩ : mark = d ∧ body = more := by simpa [Lexeme.text] using text
      exact first
    · exact fun first => ⟨mark, body, rfl, first⟩
  rw [reads]
  unfold firstLexeme
  by_cases double : mark = '"'
  · subst double
    simp [Prod.ext_iff]
  by_cases single : mark = '\''
  · subst single
    simp [Prod.ext_iff]
  · grind

/-- A string with something behind it is closed, and it is read first whatever follows. -/
theorem splitQuoted_closed (mark : Char) (s : List Char) (h : (splitQuoted mark s).2 ≠ []) :
    (splitQuoted mark s).1.getLast? = some mark ∧
      ∀ rest, splitQuoted mark ((splitQuoted mark s).1 ++ rest) =
        ((splitQuoted mark s).1, rest) := by
  fun_induction splitQuoted mark s with
  | case1 => exact absurd rfl h
  | case2 c => exact absurd rfl h
  | case3 d more =>
    refine ⟨rfl, fun rest => ?_⟩
    cases rest <;> simp [splitQuoted]
  | case4 d more p other ih =>
    obtain ⟨last, again⟩ := ih h
    refine ⟨?_, fun rest => ?_⟩
    · simp [List.getLast?_cons, p, last]
    · simp [splitQuoted, p, other, again rest]
  | case5 c d more other plain p ih =>
    obtain ⟨last, again⟩ := ih h
    refine ⟨?_, fun rest => ?_⟩
    · simp [List.getLast?_cons, p, last]
    · have filled : (splitQuoted mark (d :: more)).1 ≠ [] := fun none => by simp [none] at last
      obtain ⟨e, body, hp⟩ := List.exists_cons_of_ne_nil filled
      have here := again rest
      rw [hp] at here
      simp only [p, hp, List.cons_append] at here ⊢
      rw [splitQuoted, if_neg other, if_neg plain, here]

/-- What a string that is read up to the end begins with is read up to the end too. -/
theorem splitQuoted_of_isPrefix {mark : Char} {body start : List Char}
    (h : splitQuoted mark body = (body, [])) (hs : start <+: body) :
    splitQuoted mark start = (start, []) := by
  induction body using splitQuoted.induct mark generalizing start with
  | case1 =>
    obtain rfl := List.prefix_nil.1 hs
    rfl
  | case2 c =>
    rcases List.prefix_cons_iff.1 hs with rfl | ⟨t, rfl, ht⟩
    · rfl
    · obtain rfl := List.prefix_nil.1 ht
      rfl
  | case3 d more => simp [splitQuoted] at h
  | case4 d more other ih =>
    simp only [splitQuoted, if_neg other, if_true, Prod.mk.injEq, List.cons.injEq, true_and] at h
    rcases List.prefix_cons_iff.1 hs with rfl | ⟨t, rfl, ht⟩
    · rfl
    rcases List.prefix_cons_iff.1 ht with rfl | ⟨u, rfl, hu⟩
    · rfl
    · simp [splitQuoted, other, ih (Prod.ext h.1 h.2) hu]
  | case5 c d more other plain ih =>
    rw [splitQuoted, if_neg other, if_neg plain] at h
    simp only [Prod.mk.injEq, List.cons.injEq, true_and] at h
    rcases List.prefix_cons_iff.1 hs with rfl | ⟨t, rfl, ht⟩
    · rfl
    have tail := ih (Prod.ext h.1 h.2) ht
    cases t with
    | nil => rfl
    | cons e u => rw [splitQuoted, if_neg other, if_neg plain, tail]

theorem heads_quoted_closed {mark : Char} {body rest : List Char}
    (h : (Lexeme.quoted mark body).Heads rest) (more : rest ≠ []) :
    body.getLast? = some mark ∧ ∀ rest', (Lexeme.quoted mark body).Heads rest' := by
  obtain ⟨hmark, first⟩ := heads_quoted_iff.1 h
  have closed := splitQuoted_closed mark (body ++ rest) (by simpa [first] using more)
  rw [first] at closed
  exact ⟨closed.1, fun rest' => heads_quoted_iff.2 ⟨hmark, closed.2 rest'⟩⟩

theorem heads_quoted_prefix {mark : Char} {body start : List Char}
    (h : (Lexeme.quoted mark body).Heads []) (hs : start <+: body) :
    (Lexeme.quoted mark start).Heads [] := by
  obtain ⟨hmark, first⟩ := heads_quoted_iff.1 h
  rw [List.append_nil] at first
  refine heads_quoted_iff.2 ⟨hmark, ?_⟩
  rw [List.append_nil]
  exact splitQuoted_of_isPrefix first hs

end UtilityCss.Css
