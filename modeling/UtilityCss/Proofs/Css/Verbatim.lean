import Mathlib.Data.List.Forall2
import Mathlib.Data.List.TakeWhile
import UtilityCss.Css.Token

/-! What the tokens of a style sheet keep of it: every character that is neither blank nor part of a
comment, and every string as it stands. Comments and strings are found here by walking over the
characters, without the lexemes that the tokens are made of. -/
namespace UtilityCss.Css
open Text

/-- What a character of a style sheet stands in. Of a string that is open, `begun` is what was read
of it, the last character first. -/
inductive Region
  | code
  | comment
  | quoted (mark : Char) (begun : List Char)

/-- The region behind a character of the code that is neither a backslash nor opens a comment. -/
def Region.behind (c : Char) : Region := if c = '"' ∨ c = '\'' then .quoted c [c] else .code

/-- The text without its comments. A comment begins outside strings and escapes, and it runs to the
end of the text if it is never closed. -/
def uncommented : Region → List Char → List Char
  | _, [] => []
  | .code, '\\' :: c :: rest => '\\' :: c :: uncommented .code rest
  | .code, '/' :: '*' :: rest => uncommented .comment rest
  | .code, c :: rest => c :: uncommented (.behind c) rest
  | .comment, '*' :: '/' :: rest => uncommented .code rest
  | .comment, _ :: rest => uncommented .comment rest
  | .quoted mark begun, '\\' :: c :: rest =>
    '\\' :: c :: uncommented (.quoted mark (c :: '\\' :: begun)) rest
  | .quoted mark begun, c :: rest =>
    c :: uncommented (if c = mark then .code else .quoted mark (c :: begun)) rest

/-- The strings of the text that are closed, with their marks. They begin outside comments and
escapes. -/
def literals : Region → List Char → List (List Char)
  | _, [] => []
  | .code, '\\' :: _ :: rest => literals .code rest
  | .code, '/' :: '*' :: rest => literals .comment rest
  | .code, c :: rest => literals (.behind c) rest
  | .comment, '*' :: '/' :: rest => literals .code rest
  | .comment, _ :: rest => literals .comment rest
  | .quoted mark begun, '\\' :: c :: rest => literals (.quoted mark (c :: '\\' :: begun)) rest
  | .quoted mark begun, c :: rest =>
    if c = mark then (c :: begun).reverse :: literals .code rest
    else literals (.quoted mark (c :: begun)) rest

example : uncommented .code "a/*'*/\\'b 'c /*d'/**".toList = "a\\'b 'c /*d'".toList ∧
    literals .code "a/*'*/\\'b 'c /*d'/**".toList = ["'c /*d'".toList] := by decide

/-- Pieces stand in a text one behind the other, with anything in the gaps between them. -/
inductive Holds : List (List Char) → List Char → Prop
  | nil : Holds [] []
  | gap (c : Char) {pieces s} (behind : Holds pieces s) : Holds pieces (c :: s)
  | piece (p : List Char) {pieces s} (behind : Holds pieces s) : Holds (p :: pieces) (p ++ s)

theorem holds_gaps (s : List Char) : Holds [] s := by
  induction s with
  | nil => exact .nil
  | cons c rest ih => exact .gap c ih

theorem holds_self (p : List Char) : Holds [p] p := by
  simpa using Holds.piece p .nil

theorem Holds.append {pieces more : List (List Char)} {s t : List Char} (h : Holds pieces s)
    (h' : Holds more t) : Holds (pieces ++ more) (s ++ t) := by
  induction h with
  | nil => exact h'
  | gap c _ ih => exact .gap c ih
  | piece p _ ih =>
    rw [List.cons_append, List.append_assoc]
    exact .piece p ih

/-- A piece that neither begins nor ends in a blank. -/
structure IsSolid (p : List Char) : Prop where
  filled : p ≠ []
  first : ∀ c ∈ p.head?, isBlank c = false
  last : ∀ c ∈ p.getLast?, isBlank c = false

variable {pieces : List (List Char)} {s : List Char}

/-- Solid pieces do not stand in the blanks in front. -/
theorem Holds.of_blanks_append {before : List Char} (blank : ∀ c ∈ before, isBlank c = true)
    (solid : ∀ p ∈ pieces, IsSolid p) (h : Holds pieces (before ++ s)) : Holds pieces s := by
  induction before with
  | nil => exact h
  | cons c rest ih =>
    obtain ⟨here, later⟩ := List.forall_mem_cons.1 blank
    refine ih later ?_
    generalize text : c :: rest ++ s = whole at h
    cases h with
    | nil => cases text
    | gap d behind =>
      obtain ⟨-, rfl⟩ := List.cons.inj text
      exact behind
    | piece p behind =>
      have edge := solid p List.mem_cons_self
      obtain ⟨d, more, rfl⟩ := List.exists_cons_of_ne_nil edge.filled
      obtain ⟨rfl, -⟩ := List.cons.inj text
      exact absurd (edge.first c rfl) (by simp [here])

theorem Holds.reverse (h : Holds pieces s) :
    Holds (pieces.map List.reverse).reverse s.reverse := by
  induction h with
  | nil => exact .nil
  | gap c _ ih =>
    rw [List.reverse_cons]
    simpa using ih.append (holds_gaps [c])
  | piece p _ ih =>
    rw [List.map_cons, List.reverse_cons, List.reverse_append]
    exact ih.append (holds_self p.reverse)

theorem IsSolid.reverse {p : List Char} (h : IsSolid p) : IsSolid p.reverse where
  filled := by simpa using h.filled
  first := by simpa using h.last
  last := by simpa using h.first

/-- Nor do they stand in the blanks behind. -/
theorem Holds.of_append_blanks {after : List Char} (blank : ∀ c ∈ after, isBlank c = true)
    (solid : ∀ p ∈ pieces, IsSolid p) (h : Holds pieces (s ++ after)) : Holds pieces s := by
  have turned := h.reverse
  rw [List.reverse_append] at turned
  have solid' : ∀ p ∈ (pieces.map List.reverse).reverse, IsSolid p := by
    intro p inside
    obtain ⟨q, hq, rfl⟩ := List.mem_map.1 (List.mem_reverse.1 inside)
    exact (solid q hq).reverse
  have stripped := turned.of_blanks_append (fun c hc => blank c (List.mem_reverse.1 hc)) solid'
  simpa [Function.comp_def] using stripped.reverse

/-- A text is what trimming leaves of it, between blanks. -/
theorem exists_trim_eq (s : List Char) : ∃ before after, (∀ c ∈ before, isBlank c = true) ∧
    (∀ c ∈ after, isBlank c = true) ∧ s = before ++ trim s ++ after := by
  refine ⟨s.takeWhile isBlank, ((s.dropWhile isBlank).reverse.takeWhile isBlank).reverse,
    fun c hc => ?_, fun c hc => ?_, ?_⟩
  · exact List.mem_takeWhile_imp hc
  · exact List.mem_takeWhile_imp (List.mem_reverse.1 hc)
  · rw [trim, trimWhere, List.append_assoc, ← List.reverse_append, List.takeWhile_append_dropWhile,
      List.reverse_reverse, List.takeWhile_append_dropWhile]

theorem Holds.trim (solid : ∀ p ∈ pieces, IsSolid p) (h : Holds pieces s) :
    Holds pieces (Text.trim s) := by
  obtain ⟨before, after, blank, blank', split⟩ := exists_trim_eq s
  rw [split, List.append_assoc] at h
  exact (h.of_blanks_append blank solid).of_append_blanks blank' solid

/-- A text of blanks holds no solid piece. -/
theorem Holds.eq_nil (blank : ∀ c ∈ s, isBlank c = true) (solid : ∀ p ∈ pieces, IsSolid p)
    (h : Holds pieces s) : pieces = [] := by
  have stripped : Holds pieces [] := (s.append_nil ▸ h).of_blanks_append blank solid
  generalize text : ([] : List Char) = whole at stripped
  cases stripped with
  | nil => rfl
  | gap => cases text
  | piece p behind =>
    exact absurd (List.append_eq_nil_iff.1 text.symm).1 (solid p List.mem_cons_self).filled

/-- The text without its blanks. -/
def ink (s : List Char) : List Char := s.filter (!isBlank ·)

theorem ink_append (s t : List Char) : ink (s ++ t) = ink s ++ ink t := List.filter_append ..

theorem ink_of_blanks (blank : ∀ c ∈ s, isBlank c = true) : ink s = [] :=
  List.filter_eq_nil_iff.2 fun c hc => by simp [blank c hc]

theorem ink_trim (s : List Char) : ink (trim s) = ink s := by
  obtain ⟨before, after, blank, blank', split⟩ := exists_trim_eq s
  rw [congrArg ink split, ink_append, ink_append, ink_of_blanks blank, ink_of_blanks blank',
    List.nil_append, List.append_nil]

/-- What a lexeme adds to the text without comments. -/
def Lexeme.kept : Lexeme → List Char
  | .comment _ => []
  | l => l.text

/-- Whether the rest of a string holds the mark that closes it. -/
def closes (mark : Char) : List Char → Bool
  | [] => false
  | '\\' :: _ :: rest => closes mark rest
  | c :: rest => c == mark || closes mark rest

/-- The string that a lexeme is, if it is a closed one. -/
def Lexeme.literals : Lexeme → List (List Char)
  | .quoted mark body => if closes mark body then [mark :: body] else []
  | _ => []

theorem uncommented_comment (s : List Char) :
    uncommented .comment s = uncommented .code (splitComment s).2 := by
  fun_induction splitComment s with
  | case1 rest => rw [uncommented]
  | case2 c rest going p ih =>
    rw [uncommented, ih]
    exact going
  | case3 => rfl

theorem literals_comment (s : List Char) :
    literals .comment s = literals .code (splitComment s).2 := by
  fun_induction splitComment s with
  | case1 rest => rw [literals]
  | case2 c rest going p ih =>
    rw [literals, ih]
    exact going
  | case3 => rfl

section
variable {mark c : Char} {rest : List Char}

/-! A character of a string, unless it is a backslash that guards another one. -/

private theorem uncommented_cons (plain : c = '\\' → rest = []) (begun : List Char) :
    uncommented (.quoted mark begun) (c :: rest) =
      c :: uncommented (if c = mark then .code else .quoted mark (c :: begun)) rest := by
  rw [uncommented]
  rintro d more rfl rfl
  exact absurd (plain rfl) (List.cons_ne_nil _ _)

private theorem literals_cons (plain : c = '\\' → rest = []) (begun : List Char) :
    literals (.quoted mark begun) (c :: rest) =
      if c = mark then (c :: begun).reverse :: literals .code rest
      else literals (.quoted mark (c :: begun)) rest := by
  rw [literals]
  rintro d more rfl rfl
  exact absurd (plain rfl) (List.cons_ne_nil _ _)

private theorem closes_cons (plain : c = '\\' → rest = []) :
    closes mark (c :: rest) = (c == mark || closes mark rest) := by
  rw [closes]
  rintro d more rfl rfl
  exact absurd (plain rfl) (List.cons_ne_nil _ _)

end

theorem uncommented_quoted {mark : Char} (quote : mark ≠ '\\') (begun s : List Char) :
    uncommented (.quoted mark begun) s =
      (splitQuoted mark s).1 ++ uncommented .code (splitQuoted mark s).2 := by
  fun_induction splitQuoted mark s generalizing begun with
  | case1 => rfl
  | case2 c =>
    rw [uncommented_cons fun _ => rfl]
    simp [uncommented]
  | case3 d rest =>
    rw [uncommented_cons fun same => absurd same quote, if_pos rfl]
    rfl
  | case4 d rest _ p ih =>
    rw [uncommented, ih]
    rfl
  | case5 c d rest other plain p ih =>
    rw [uncommented_cons fun same => absurd same plain, if_neg other, ih]
    rfl

theorem literals_quoted {mark : Char} (quote : mark ≠ '\\') (begun s : List Char) :
    literals (.quoted mark begun) s =
      (if closes mark (splitQuoted mark s).1 then [begun.reverse ++ (splitQuoted mark s).1]
        else []) ++ literals .code (splitQuoted mark s).2 := by
  fun_induction splitQuoted mark s generalizing begun with
  | case1 => rfl
  | case2 c =>
    rw [literals_cons fun _ => rfl]
    simp [closes, literals]
  | case3 d rest =>
    rw [literals_cons fun same => absurd same quote, if_pos rfl]
    simp [closes]
  | case4 d rest p other ih =>
    rw [literals, ih]
    simp [closes, p]
  | case5 c d rest other plain p ih =>
    rw [literals_cons fun same => absurd same plain, if_neg other, ih,
      closes_cons fun same => absurd same plain]
    simp [other, p]

theorem getLast?_of_closes {mark : Char} (s : List Char)
    (h : closes mark (splitQuoted mark s).1 = true) :
    (splitQuoted mark s).1.getLast? = some mark := by
  fun_induction splitQuoted mark s with
  | case1 => simp [closes] at h
  | case2 c => simpa [closes] using h
  | case3 d rest => rfl
  | case4 d rest p other ih => simp [List.getLast?_cons, p, ih (by simpa [closes] using h)]
  | case5 c d rest other plain p ih =>
    rw [closes_cons fun same => absurd same plain] at h
    simp [List.getLast?_cons, p, ih (by simpa [other] using h)]

/-- What one lexeme accounts for. -/
structure Accounted (c : Char) (rest : List Char) (l : Lexeme) (more : List Char) : Prop where
  uncommented : uncommented .code (c :: rest) = l.kept ++ uncommented .code more
  literals : literals .code (c :: rest) = l.literals ++ literals .code more
  solid : ∀ p ∈ l.literals, IsSolid p
  blank : ∀ d, l = .blank d → isBlank d = true

private theorem accounted_char {c : Char} {rest : List Char} {l : Lexeme}
    (escape : c = '\\' → rest = []) (comment : c = '/' → rest.head? ≠ some '*')
    (code : Region.behind c = .code) (text : l.text = [c]) (kept : l.kept = l.text)
    (none : l.literals = []) (blank : ∀ d, l = .blank d → isBlank d = true) :
    Accounted c rest l rest where
  uncommented := by
    rw [Css.uncommented, code, kept, text]
    · rfl
    · rintro d more rfl rfl
      exact absurd (escape rfl) (List.cons_ne_nil _ _)
    · rintro more rfl rfl
      exact comment rfl rfl
  literals := by
    rw [Css.literals, code, none]
    · rfl
    · rintro d more rfl rfl
      exact absurd (escape rfl) (List.cons_ne_nil _ _)
    · rintro more rfl rfl
      exact comment rfl rfl
  solid := by simp [none]
  blank := blank

private theorem accounted_quoted {mark : Char} (quote : mark = '"' ∨ mark = '\'')
    (rest : List Char) :
    Accounted mark rest (.quoted mark (splitQuoted mark rest).1) (splitQuoted mark rest).2 := by
  have notBackslash : mark ≠ '\\' := by rcases quote with rfl | rfl <;> decide
  have notSlash : mark ≠ '/' := by rcases quote with rfl | rfl <;> decide
  have notBlank : isBlank mark = false := by rcases quote with rfl | rfl <;> rfl
  have opens : Region.behind mark = .quoted mark [mark] := if_pos quote
  refine ⟨?_, ?_, fun p inside => ?_, by simp⟩
  · rw [Css.uncommented, opens, uncommented_quoted notBackslash]
    · rfl
    · exact fun _ _ same _ => notBackslash same
    · exact fun _ same _ => notSlash same
  · rw [Css.literals, opens, literals_quoted notBackslash]
    · rfl
    · exact fun _ _ same _ => notBackslash same
    · exact fun _ same _ => notSlash same
  · rw [Lexeme.literals] at inside
    split at inside
    · next closed =>
      obtain rfl := List.mem_singleton.1 inside
      have last := getLast?_of_closes rest closed
      exact ⟨List.cons_ne_nil _ _, by simpa using notBlank,
        by simpa [List.getLast?_cons, last] using notBlank⟩
    · cases inside

theorem accounted_firstLexeme (c : Char) (rest : List Char) :
    Accounted c rest (firstLexeme c rest).1 (firstLexeme c rest).2 := by
  unfold firstLexeme
  split
  · next backslash =>
    subst backslash
    split
    · exact accounted_char (fun _ => rfl) (by simp) rfl rfl rfl rfl (by simp)
    · exact ⟨rfl, rfl, by simp [Lexeme.literals], by simp⟩
  next notBackslash =>
  split
  · next slash =>
    subst slash
    split
    · next more =>
      exact ⟨uncommented_comment more, literals_comment more, by simp [Lexeme.literals], by simp⟩
    · next noStar =>
      refine accounted_char (by simp) (fun _ star => ?_) rfl rfl rfl rfl (by simp)
      obtain ⟨more, rfl⟩ := List.head?_eq_some_iff.1 star
      exact noStar more rfl
  next notSlash =>
  have char {l : Lexeme} (code : ¬ (c = '"' ∨ c = '\'')) (text : l.text = [c])
      (kept : l.kept = l.text) (none : l.literals = [])
      (blank : ∀ d, l = .blank d → isBlank d = true) : Accounted c rest l rest :=
    accounted_char (fun same => absurd same notBackslash) (fun same => absurd same notSlash)
      (if_neg code) text kept none blank
  split
  · next quote => exact accounted_quoted (by simpa using quote) rest
  next notQuote =>
  have code : ¬ (c = '"' ∨ c = '\'') := by simpa using notQuote
  split
  · next same => exact char code (by simp [Lexeme.text, same]) rfl rfl (by simp)
  split
  · next same => exact char code (by simp [Lexeme.text, braceChar, same]) rfl rfl (by simp)
  split
  · next same => exact char code (by simp [Lexeme.text, braceChar, same]) rfl rfl (by simp)
  split
  · next blank => exact char code rfl rfl rfl fun d same => Lexeme.blank.inj same ▸ blank
  · exact char code rfl rfl rfl (by simp)

theorem uncommented_lexemes (s : List Char) :
    uncommented .code s = (lexemes s).flatMap Lexeme.kept := by
  fun_induction lexemes s with
  | case1 => rfl
  | case2 c rest ih => rw [List.flatMap_cons, ← ih, (accounted_firstLexeme c rest).uncommented]

theorem literals_lexemes (s : List Char) :
    literals .code s = (lexemes s).flatMap Lexeme.literals := by
  fun_induction lexemes s with
  | case1 => rfl
  | case2 c rest ih => rw [List.flatMap_cons, ← ih, (accounted_firstLexeme c rest).literals]

theorem isSolid_of_mem_lexemes (s : List Char) :
    ∀ l ∈ lexemes s, ∀ p ∈ l.literals, IsSolid p := by
  fun_induction lexemes s with
  | case1 => exact fun _ none => absurd none List.not_mem_nil
  | case2 c rest ih => exact List.forall_mem_cons.2 ⟨(accounted_firstLexeme c rest).solid, ih⟩

theorem isBlank_of_mem_lexemes (s : List Char) :
    ∀ l ∈ lexemes s, ∀ d, l = .blank d → isBlank d = true := by
  fun_induction lexemes s with
  | case1 => exact fun _ none => absurd none List.not_mem_nil
  | case2 c rest ih => exact List.forall_mem_cons.2 ⟨(accounted_firstLexeme c rest).blank, ih⟩

theorem ink_foldBlank (pending : List Char) :
    ink (foldBlank pending).reverse = ink pending.reverse := by
  have space : ink [' '] = [] := rfl
  unfold foldBlank
  split
  · exact space
  · split
    · rfl
    · rw [List.reverse_cons, ink_append, space, List.append_nil]

theorem Holds.foldBlank {pending : List Char} (h : Holds pieces pending.reverse) :
    Holds pieces (Css.foldBlank pending).reverse := by
  unfold Css.foldBlank
  split
  · simpa using h.append (holds_gaps [' '])
  · split
    · exact h
    · rw [List.reverse_cons]
      simpa using h.append (holds_gaps [' '])

/-- The tokens keep all that is no blank. -/
theorem ink_group (pending : List Char) {ls : List Lexeme}
    (blanks : ∀ l ∈ ls, ∀ d, l = .blank d → isBlank d = true) :
    ink (group pending ls).flatten = ink (pending.reverse ++ ls.flatMap Lexeme.kept) := by
  fun_induction group pending ls with
  | case1 pending blank =>
    have none : ∀ c ∈ pending.reverse, isBlank c = true := by simpa using blank
    rw [List.flatMap_nil, List.append_nil, ink_of_blanks none]
    rfl
  | case2 pending _ => rw [List.flatten_singleton, ink_trim, List.flatMap_nil, List.append_nil]
  | case3 pending rest ih =>
    rw [List.flatten_cons, ink_append, ink_trim, ih (List.forall_mem_cons.1 blanks).2, ← ink_append]
    simp [Lexeme.kept, Lexeme.text]
  | case4 pending opening rest blank ih =>
    have none : ∀ c ∈ pending.reverse, isBlank c = true := by simpa using blank
    rw [List.flatten_cons, ink_append, ih (List.forall_mem_cons.1 blanks).2,
      ink_append pending.reverse, ink_of_blanks none, ← ink_append]
    rfl
  | case5 pending opening rest _ ih =>
    rw [List.flatten_cons, List.flatten_cons, ink_append, ink_append, ink_trim,
      ih (List.forall_mem_cons.1 blanks).2, ← ink_append, ← ink_append]
    rfl
  | case6 pending c rest ih =>
    obtain ⟨here, later⟩ := List.forall_mem_cons.1 blanks
    have none : ink [c] = [] := ink_of_blanks (List.forall_mem_singleton.2 (here c rfl))
    have text : (Lexeme.blank c :: rest).flatMap Lexeme.kept =
        [c] ++ rest.flatMap Lexeme.kept := rfl
    rw [ih later, ink_append, ink_foldBlank, text, ink_append, ink_append, none, List.nil_append]
  | case7 pending body rest ih =>
    rw [ih (List.forall_mem_cons.1 blanks).2, ink_append, ink_foldBlank, ← ink_append]
    rfl
  | case8 pending l rest _ _ _ notComment ih =>
    have kept : l.kept = l.text := by
      cases l with
      | comment body => exact absurd rfl (notComment body)
      | _ => rfl
    rw [ih (List.forall_mem_cons.1 blanks).2, List.flatMap_cons, kept]
    simp

theorem Lexeme.holds_text (l : Lexeme) : Holds l.literals l.text := by
  cases l with
  | quoted mark body =>
    rw [literals]
    split
    · exact holds_self _
    · exact holds_gaps _
  | _ => exact holds_gaps _

/-- Every token holds the strings that were read for it. -/
theorem holds_group {done : List (List Char)} {pending : List Char} {ls : List Lexeme}
    (solid : ∀ p ∈ done, IsSolid p) (solid' : ∀ l ∈ ls, ∀ p ∈ l.literals, IsSolid p)
    (h : Holds done pending.reverse) : ∃ parts, List.Forall₂ Holds parts (group pending ls) ∧
      parts.flatten = done ++ ls.flatMap Lexeme.literals := by
  fun_induction group pending ls generalizing done with
  | case1 pending blank =>
    obtain rfl := h.eq_nil (by simpa using blank) solid
    exact ⟨[], .nil, rfl⟩
  | case2 pending _ => exact ⟨[done], .cons (h.trim solid) .nil, by simp⟩
  | case3 pending rest ih =>
    obtain ⟨parts, held, all⟩ := ih (by simp) (List.forall_mem_cons.1 solid').2 .nil
    have first : Holds done (';' :: pending).reverse := by
      rw [List.reverse_cons]
      simpa using h.append (holds_gaps [';'])
    exact ⟨done :: parts, .cons (first.trim solid) held, by rw [List.flatten_cons, all]; rfl⟩
  | case4 pending opening rest blank ih =>
    obtain rfl := h.eq_nil (by simpa using blank) solid
    obtain ⟨parts, held, all⟩ := ih (by simp) (List.forall_mem_cons.1 solid').2 .nil
    exact ⟨[] :: parts, .cons (holds_gaps _) held, by rw [List.flatten_cons, all]; rfl⟩
  | case5 pending opening rest _ ih =>
    obtain ⟨parts, held, all⟩ := ih (by simp) (List.forall_mem_cons.1 solid').2 .nil
    exact ⟨done :: [] :: parts, .cons (h.trim solid) (.cons (holds_gaps _) held),
      by rw [List.flatten_cons, List.flatten_cons, all]; rfl⟩
  | case6 pending c rest ih => exact ih solid (List.forall_mem_cons.1 solid').2 h.foldBlank
  | case7 pending body rest ih => exact ih solid (List.forall_mem_cons.1 solid').2 h.foldBlank
  | case8 pending l rest _ _ _ _ ih =>
    obtain ⟨here, later⟩ := List.forall_mem_cons.1 solid'
    have more : Holds (done ++ l.literals) (l.text.reverse ++ pending).reverse := by
      rw [List.reverse_append, List.reverse_reverse]
      exact h.append l.holds_text
    obtain ⟨parts, held, all⟩ := ih (List.forall_mem_append.2 ⟨solid, here⟩) later more
    exact ⟨parts, held, by rw [all, List.append_assoc]; rfl⟩

/-- The tokens of a style sheet, one behind the other, are the style sheet without its comments, up
to blanks. Every closed string of the style sheet stands in one of the tokens just as it is, and
they stand there in their order. -/
theorem tokens_verbatim (css : String) :
    ink ((tokens css).flatMap String.toList) = ink (uncommented .code css.toList) ∧
      ∃ parts, List.Forall₂ Holds parts ((tokens css).map String.toList) ∧
        parts.flatten = literals .code css.toList := by
  have texts : (tokens css).map String.toList = group [] (lexemes css.toList) := by
    simp [tokens, Function.comp_def]
  constructor
  · rw [List.flatMap_def, texts, ink_group [] (isBlank_of_mem_lexemes _), uncommented_lexemes]
    rfl
  · have start : Holds [] ([] : List Char).reverse := .nil
    obtain ⟨parts, held, all⟩ := holds_group (by simp) (isSolid_of_mem_lexemes css.toList) start
    exact ⟨parts, texts ▸ held, by rw [all, literals_lexemes]; rfl⟩

end UtilityCss.Css
