import UtilityCss.Proofs.Css.Shape

/-! Style sheets written one behind the other. The tokens of both are the tokens of the first one
and then those of the second, if the first one leaves nothing open and its last token ends there:
no blank, brace or comment mark is carried over. -/
namespace UtilityCss.Css
open Text

/-- Whether a text leaves a string, a comment or an escape open. -/
def leavesOpen : Region → List Char → Bool
  | .code, [] => false
  | _, [] => true
  | .code, ['\\'] => true
  | .code, '\\' :: _ :: rest => leavesOpen .code rest
  | .code, '/' :: '*' :: rest => leavesOpen .comment rest
  | .code, c :: rest => leavesOpen (.behind c) rest
  | .comment, '*' :: '/' :: rest => leavesOpen .code rest
  | .comment, _ :: rest => leavesOpen .comment rest
  | .quoted mark begun, '\\' :: c :: rest => leavesOpen (.quoted mark (c :: '\\' :: begun)) rest
  | .quoted mark begun, c :: rest =>
    leavesOpen (if c = mark then .code else .quoted mark (c :: begun)) rest

/-- Reading the style sheet to its end leaves no string, comment or escape open. -/
def IsComplete (css : String) : Prop := leavesOpen .code css.toList = false

instance decidableIsComplete (css : String) : Decidable (IsComplete css) :=
  inferInstanceAs (Decidable (_ = _))

/-- A semicolon that stands outside strings, comments and escapes ends the text. -/
def EndsInSemicolon (css : String) : Prop := ∃ front, css = front ++ ";" ∧ IsComplete front

section Cut

variable {mark c : Char} {rest behind : List Char}

/-- A comment that is closed ends where it ends, whatever follows. -/
theorem splitComment_behind {s : List Char} (closed : leavesOpen .comment s = false)
    (behind : List Char) :
    splitComment (s ++ behind) = ((splitComment s).1, (splitComment s).2 ++ behind) ∧
      leavesOpen .code (splitComment s).2 = false := by
  fun_induction splitComment s with
  | case1 rest => exact ⟨rfl, by simpa [leavesOpen] using closed⟩
  | case2 c rest going p ih =>
    have later : leavesOpen .comment rest = false := by
      rw [leavesOpen] at closed
      · exact closed
      · exact going
    obtain ⟨split, code⟩ := ih later
    refine ⟨?_, code⟩
    rw [List.cons_append, splitComment, split]
    -- The mark that closes the comment stands in `rest`, so `rest` is not empty.
    rintro tail rfl closes
    cases rest with
    | nil => simp [leavesOpen] at later
    | cons d more =>
      obtain ⟨rfl, -⟩ := List.cons.inj closes
      exact going more rfl rfl
  | case3 => simp [leavesOpen] at closed

/-- A character of a string, unless it is a backslash that guards another one. -/
private theorem leavesOpen_cons (plain : c = '\\' → rest = []) (begun : List Char) :
    leavesOpen (.quoted mark begun) (c :: rest) =
      leavesOpen (if c = mark then .code else .quoted mark (c :: begun)) rest := by
  rw [leavesOpen]
  rintro d more rfl rfl
  exact absurd (plain rfl) (List.cons_ne_nil _ _)

/-- A string that is closed ends where it ends, whatever follows. -/
theorem splitQuoted_behind (quote : mark ≠ '\\') {s begun : List Char}
    (closed : leavesOpen (.quoted mark begun) s = false) (behind : List Char) :
    splitQuoted mark (s ++ behind) = ((splitQuoted mark s).1, (splitQuoted mark s).2 ++ behind) ∧
      leavesOpen .code (splitQuoted mark s).2 = false := by
  induction s using splitQuoted.induct mark generalizing begun with
  | case1 => simp [leavesOpen] at closed
  | case2 c =>
    have ends : c = mark := by
      by_contra other
      rw [leavesOpen_cons (fun _ => rfl), if_neg other] at closed
      cases closed
    subst ends
    cases behind <;> simp [splitQuoted, leavesOpen]
  | case3 d rest =>
    rw [leavesOpen_cons (fun same => absurd same quote), if_pos rfl] at closed
    simpa [splitQuoted] using closed
  | case4 d rest other ih =>
    rw [leavesOpen] at closed
    obtain ⟨split, code⟩ := ih closed
    simp [splitQuoted, other, split, code]
  | case5 c d rest other plain ih =>
    rw [leavesOpen_cons (fun same => absurd same plain), if_neg other] at closed
    obtain ⟨split, code⟩ := ih closed
    rw [List.cons_append] at split
    simp [splitQuoted, other, plain, split, code]

private theorem leavesOpen_char (escape : c ≠ '\\') (comment : c = '/' → rest.head? ≠ some '*') :
    leavesOpen .code (c :: rest) = leavesOpen (.behind c) rest := by
  rw [leavesOpen]
  · exact fun same _ => escape same
  · exact fun _ _ same _ => escape same
  · rintro more rfl rfl
    exact comment rfl rfl

/-- A character that begins neither an escape nor a string nor a comment is read alone. -/
private theorem exists_firstLexeme_char (escape : c ≠ '\\') (quote : ¬ (c = '"' ∨ c = '\'')) :
    ∃ l, ∀ rest : List Char, (c = '/' → rest.head? ≠ some '*') →
      firstLexeme c rest = (l, rest) := by
  by_cases slash : c = '/'
  · subst slash
    refine ⟨.plain '/', fun rest comment => ?_⟩
    cases rest with
    | nil => rfl
    | cons d more =>
      have other : d ≠ '*' := by simpa using comment rfl
      simp [firstLexeme, other]
  · refine ⟨(firstLexeme c []).1, fun rest _ => ?_⟩
    have code : ¬ ((c = '"' || c = '\'') = true) := by simpa using quote
    simp only [firstLexeme, if_neg escape, if_neg slash, if_neg code]
    split
    · rfl
    split
    · rfl
    split
    · rfl
    split <;> rfl

/-- A closed lexeme is read first whatever follows, if no star comes to stand behind a slash. -/
theorem firstLexeme_behind (closed : leavesOpen .code (c :: rest) = false)
    (slash : c = '/' → rest = [] → behind.head? ≠ some '*') :
    firstLexeme c (rest ++ behind) =
        ((firstLexeme c rest).1, (firstLexeme c rest).2 ++ behind) ∧
      leavesOpen .code (firstLexeme c rest).2 = false := by
  by_cases escape : c = '\\'
  · subst escape
    cases rest with
    | nil => simp [leavesOpen] at closed
    | cons d more => simpa [firstLexeme, leavesOpen] using closed
  by_cases comment : c = '/' ∧ rest.head? = some '*'
  · obtain ⟨rfl, star⟩ := comment
    obtain ⟨more, rfl⟩ := List.head?_eq_some_iff.1 star
    rw [leavesOpen] at closed
    obtain ⟨split, code⟩ := splitComment_behind closed behind
    simp [firstLexeme, split, code]
  have noStar : c = '/' → rest.head? ≠ some '*' := fun same star => comment ⟨same, star⟩
  rw [leavesOpen_char escape noStar] at closed
  by_cases quote : c = '"' ∨ c = '\''
  · rw [Region.behind, if_pos quote] at closed
    obtain ⟨split, code⟩ := splitQuoted_behind escape closed behind
    have notSlash : c ≠ '/' := by rcases quote with rfl | rfl <;> decide
    simp [firstLexeme, escape, notSlash, quote, split, code]
  · rw [Region.behind, if_neg quote] at closed
    obtain ⟨l, alone⟩ := exists_firstLexeme_char escape quote
    have noStar' : c = '/' → (rest ++ behind).head? ≠ some '*' := by
      intro same
      cases rest with
      | nil => exact slash same rfl
      | cons d more => exact noStar same
    rw [alone _ noStar', alone _ noStar]
    exact ⟨rfl, closed⟩

end Cut

/-- A text that leaves nothing open is cut alike whatever follows, unless a star comes to stand
behind a slash at its end. -/
theorem lexemes_append_of_complete {s t : List Char} (closed : leavesOpen .code s = false)
    (star : (lexemes s).getLast? = some (.plain '/') → t.head? ≠ some '*') :
    lexemes (s ++ t) = lexemes s ++ lexemes t := by
  fun_induction lexemes s with
  | case1 => rfl
  | case2 c rest ih =>
    have slash : c = '/' → rest = [] → t.head? ≠ some '*' := by
      rintro rfl rfl
      exact star (by simp [firstLexeme, lexemes])
    obtain ⟨first, later⟩ := firstLexeme_behind closed slash
    rw [List.cons_append, lexemes, first, ih later, List.cons_append]
    intro last
    exact star (by simp [List.getLast?_cons, last])

variable {pending blanks : List Char} {ls front rest more : List Lexeme}

private theorem trim_append_blanks (blank : ∀ c ∈ blanks, isBlank c = true) (pending : List Char) :
    trim (pending ++ blanks).reverse = trim pending.reverse := by
  rw [List.reverse_append, trim, trim, trimWhere, trimWhere,
    List.dropWhile_append_of_pos fun c hc => blank c (List.mem_reverse.1 hc)]

private theorem all_append_blanks (blank : ∀ c ∈ blanks, isBlank c = true) (pending : List Char) :
    (pending ++ blanks).all isBlank = pending.all isBlank := by
  rw [List.all_append, List.all_eq_true.2 blank, Bool.and_true]

private theorem forall_foldBlank (blank : ∀ c ∈ blanks, isBlank c = true) :
    ∀ c ∈ foldBlank blanks, isBlank c = true := by
  cases blanks with
  | nil => simp [foldBlank, isBlank]
  | cons c more => simpa [foldBlank, blank c List.mem_cons_self] using blank

/-- Blanks in front of a token leave no trace. -/
theorem group_append_blanks (blank : ∀ c ∈ blanks, isBlank c = true) (pending : List Char)
    (ls : List Lexeme) : group (pending ++ blanks) ls = group pending ls := by
  induction ls generalizing pending blanks with
  | nil => simp only [group, all_append_blanks blank, trim_append_blanks blank]
  | cons l rest ih =>
    -- A gap folds into the blanks in front as long as nothing else is pending.
    have gap : group (foldBlank (pending ++ blanks)) rest = group (foldBlank pending) rest := by
      cases pending with
      | nil =>
        have space : ∀ c ∈ foldBlank [], isBlank c = true := forall_foldBlank (by simp)
        exact (ih (forall_foldBlank blank) []).trans (ih space []).symm
      | cons c more =>
        have kept : foldBlank (c :: more ++ blanks) = foldBlank (c :: more) ++ blanks := by
          simp only [foldBlank, List.cons_append]
          split <;> rfl
        rw [kept, ih blank]
    cases l with
    | semicolon =>
      rw [group, group, ← List.cons_append, trim_append_blanks blank]
    | brace opening => simp only [group, all_append_blanks blank, trim_append_blanks blank]
    | blank c => exact gap
    | comment body => exact gap
    | _ => simp only [group, ← List.append_assoc, ih blank]

/-- Nor do blanks and comments. -/
theorem group_gaps (gaps : ∀ l ∈ front, l.isGap = true) (ls : List Lexeme)
    (blank : ∀ c ∈ blanks, isBlank c = true) : group blanks (front ++ ls) = group [] ls := by
  induction front generalizing blanks with
  | nil => exact group_append_blanks blank [] ls
  | cons l rest ih =>
    obtain ⟨here, later⟩ := List.forall_mem_cons.1 gaps
    rw [List.cons_append, group_gap here, ih later (forall_foldBlank blank)]

/-- What stands behind the end of a token begins the next one. -/
theorem group_append_end {l : Lexeme} (ends : l.endsToken = true) (ls rest : List Lexeme) :
    group pending (ls ++ l :: rest) = group pending (ls ++ [l]) ++ group [] rest := by
  induction ls generalizing pending with
  | nil =>
    cases l with
    | semicolon => rfl
    | brace opening =>
      simp only [List.nil_append, group]
      split <;> rfl
    | _ => cases ends
  | cons first more ih =>
    cases first with
    | semicolon => simp only [List.cons_append, group, ih]
    | brace opening =>
      simp only [List.cons_append, group, ih]
      split <;> rfl
    | _ => simp only [List.cons_append, group, ih]

/-- The lexemes behind the last end of a token. -/
theorem exists_behind_end (ls : List Lexeme) :
    ∃ front behind, ls = front ++ behind ∧ (∀ l ∈ behind, l.endsToken = false) ∧
      (front = [] ∨ ∃ before l, front = before ++ [l] ∧ l.endsToken = true) := by
  induction ls using List.reverseRecOn with
  | nil => exact ⟨[], [], rfl, by simp, .inl rfl⟩
  | append_singleton before l ih =>
    cases ends : l.endsToken with
    | true => exact ⟨before ++ [l], [], by simp, by simp, .inr ⟨before, l, rfl, ends⟩⟩
    | false =>
      obtain ⟨front, behind, rfl, goes, ended⟩ := ih
      exact ⟨front, behind ++ [l], by simp, by simpa [or_imp, forall_and, ends] using goes, ended⟩

theorem segmentsFrom_goes (goes : ∀ l ∈ ls, l.endsToken = false) (front : List Lexeme) :
    segmentsFrom front ls = if (front ++ ls).all Lexeme.isGap then [] else [front ++ ls] := by
  induction ls generalizing front with
  | nil => simp [segmentsFrom]
  | cons l rest ih =>
    obtain ⟨here, later⟩ := List.forall_mem_cons.1 goes
    have next : segmentsFrom front (l :: rest) = segmentsFrom (front ++ [l]) rest := by
      cases l with
      | semicolon => cases here
      | brace opening => cases here
      | _ => rfl
    rw [next, ih later, List.append_assoc, List.singleton_append]

/-- A token that is a fragment neither is a brace nor ends in a semicolon. -/
theorem IsFragment.not_ended {token : String} (h : IsFragment token) :
    ¬ (IsBrace token ∨ EndsInSemicolon token) := by
  rintro ((rfl | rfl) | ⟨front, rfl, complete⟩)
  · cases h.inner (.brace true) (by decide +kernel)
  · cases h.inner (.brace false) (by decide +kernel)
  · have text : (front ++ ";").toList = front.toList ++ [';'] := by simp
    have cut : lexemes (front ++ ";").toList = lexemes front.toList ++ lexemes [';'] := by
      rw [text]
      exact lexemes_append_of_complete complete (by simp)
    cases h.inner .semicolon (by rw [cut, lexemes_semicolon]; simp)

/-- The tokens of two style sheets, one written behind the other, are the tokens of the first one and
then those of the second. The first one leaves no string, comment or escape open, and its last token
is a brace or ends in a semicolon. -/
theorem tokens_append {front behind : String} (complete : IsComplete front)
    (ended : ∀ token ∈ (tokens front).getLast?, IsBrace token ∨ EndsInSemicolon token) :
    tokens (front ++ behind) = tokens front ++ tokens behind := by
  obtain ⟨read, tail, split, goes, last⟩ := exists_behind_end (lexemes front.toList)
  have readable : Readable tail := Readable.right (split ▸ readable_lexemes front.toList)
  have afterEnd (rest : List Lexeme) : group [] (read ++ rest) = group [] read ++ group [] rest := by
    rcases last with rfl | ⟨before, l, rfl, ends⟩
    · rfl
    · rw [List.append_assoc, List.singleton_append, group_append_end ends]
  -- More than gaps behind the last end would be a token that goes on.
  have gaps : ∀ l ∈ tail, l.isGap = true := by
    by_contra filled
    have one : group [] tail = [settledText tail] := by
      rw [group_lexemes tail readable, segmentsFrom_goes goes, List.nil_append,
        if_neg (by simpa using filled), List.map_singleton]
    refine (isFragment_of_segment goes readable).not_ended (ended _ ?_)
    rw [tokens, split, afterEnd, one]
    simp
  have noSlash : (lexemes front.toList).getLast? ≠ some (.plain '/') := by
    intro slash
    rw [split, List.getLast?_append] at slash
    cases found : tail.getLast? with
    | some l =>
      obtain rfl : l = .plain '/' := by simpa [found] using slash
      cases gaps _ (List.mem_of_getLast? found)
    | none =>
      rcases last with rfl | ⟨before, l, rfl, ends⟩
      · simp [found] at slash
      · obtain rfl : l = .plain '/' := by simpa [found] using slash
        cases ends
  have cut := lexemes_append_of_complete (t := behind.toList) complete
    (fun slash => absurd slash noSlash)
  have none : group [] tail = [] := by
    rw [← List.append_nil tail, group_gaps gaps [] (by simp)]
    rfl
  rw [tokens, String.toList_append, cut, split, List.append_assoc, afterEnd,
    group_gaps gaps _ (by simp), tokens, split, afterEnd, none, List.append_nil, List.map_append]
  rfl

private def commented : String := "a:\";\\\"\"; /*\x7b'*/"

private def resumed : String := "*/b \x7bc\x7d"

/-- A statement with a string and a closed comment behind it, and in the text that follows what would
close a comment. -/
theorem tokens_append_commented :
    IsComplete commented ∧
    (∀ token ∈ (tokens commented).getLast?, IsBrace token ∨ EndsInSemicolon token) ∧
    tokens (commented ++ resumed) = ["a:\";\\\"\";", "*/b", "\x7b", "c", "\x7d"] := by
  have complete : IsComplete commented := by decide +kernel
  have first : tokens commented = ["a:\";\\\"\";"] := by decide +kernel
  have second : tokens resumed = ["*/b", "\x7b", "c", "\x7d"] := by decide +kernel
  have ended : ∀ token ∈ (tokens commented).getLast?, IsBrace token ∨ EndsInSemicolon token := by
    intro token last
    obtain rfl : "a:\";\\\"\";" = token := by simpa [first] using last
    exact .inr ⟨"a:\";\\\"\"", rfl, by decide +kernel⟩
  refine ⟨complete, ended, ?_⟩
  rw [tokens_append complete ended, first, second]
  rfl

end UtilityCss.Css
