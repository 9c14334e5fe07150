import UtilityCss.Proofs.Css.Segment

/-! Plain characters with blanks and comments between them. The characters stand for themselves, and
what separates them counts as one space, however long it is. -/
namespace UtilityCss.Css
open Text

/-- What separates words: blanks and closed comments, one of them at least. -/
inductive IsSeparator : List Char → Prop
  | blank {c : Char} (h : isBlank c = true) : IsSeparator [c]
  | comment {body : List Char} (closed : ¬ ['*', '/'] <:+: body) :
    IsSeparator ('/' :: '*' :: (body ++ ['*', '/']))
  | append {s t : List Char} (first : IsSeparator s) (second : IsSeparator t) :
    IsSeparator (s ++ t)

/-- A comment ends at the first mark that closes it. -/
theorem splitComment_of_closed {body : List Char} (closed : ¬ ['*', '/'] <:+: body)
    (rest : List Char) :
    splitComment (body ++ '*' :: '/' :: rest) = (body ++ ['*', '/'], rest) := by
  induction body with
  | nil => rfl
  | cons c more ih =>
    have later : ¬ ['*', '/'] <:+: more :=
      fun inside => closed (inside.trans (List.suffix_cons c more).isInfix)
    rw [List.cons_append, splitComment, ih later]
    · rfl
    -- A mark that begins at `c` would stand in the body.
    rintro tail rfl closes
    cases more with
    | nil => cases closes
    | cons d more =>
      obtain ⟨rfl, -⟩ := List.cons.inj closes
      exact closed (List.prefix_append ['*', '/'] more).isInfix

/-- A lexeme that begins with no star, and that is read first wherever no star follows. -/
structure Lexeme.IsLoose (l : Lexeme) : Prop where
  head : l.text.head? ≠ some '*'
  heads : ∀ rest : List Char, rest.head? ≠ some '*' → l.Heads rest

theorem readable_of_isLoose {ls : List Lexeme} (h : ∀ l ∈ ls, l.IsLoose) : Readable ls := by
  have noStar {ls : List Lexeme} (h : ∀ l ∈ ls, l.IsLoose) : (textOf ls).head? ≠ some '*' := by
    cases ls with
    | nil => simp
    | cons l rest =>
      rw [textOf_cons, List.head?_append_of_ne_nil _ l.text_ne_nil]
      exact (h l List.mem_cons_self).head
  induction ls with
  | nil => trivial
  | cons l rest ih =>
    obtain ⟨here, later⟩ := List.forall_mem_cons.1 h
    exact ⟨here.heads _ (noStar later), ih later⟩

theorem isLoose_semicolon : Lexeme.semicolon.IsLoose :=
  ⟨by simp [Lexeme.text], fun _ _ => heads_semicolon _⟩

theorem isLoose_plain {s : List Char} (ordinary : ∀ c ∈ s, isOrdinary c = true)
    (noStar : '*' ∉ s) : ∀ l ∈ s.map Lexeme.plain, l.IsLoose := by
  intro l inside
  obtain ⟨c, hc, rfl⟩ := List.mem_map.1 inside
  have other : c ≠ '*' := fun same => noStar (same ▸ hc)
  exact ⟨by simpa [Lexeme.text] using other,
    fun _ star => heads_plain_iff.2 ⟨ordinary c hc, fun bad => star bad.2⟩⟩

theorem textOf_plain (s : List Char) : textOf (s.map .plain) = s := by
  simp [textOf, List.flatMap_map, Lexeme.text]

/-- A separator is made of gaps. -/
theorem IsSeparator.exists_gaps {s : List Char} (h : IsSeparator s) :
    ∃ gaps, textOf gaps = s ∧ (∀ l ∈ gaps, l.IsLoose) ∧ (∀ l ∈ gaps, l.isGap = true) ∧
      gaps ≠ [] := by
  induction h with
  | @blank c h =>
    have noStar : c ≠ '*' := by
      rintro rfl
      cases h
    refine ⟨[.blank c], by simp [Lexeme.text], ?_, by simp [Lexeme.isGap], by simp⟩
    rw [List.forall_mem_singleton]
    exact ⟨by simpa [Lexeme.text] using noStar,
      fun rest _ => ⟨c, [], rfl, firstLexeme_blank h rest⟩⟩
  | @comment body closed =>
    refine ⟨[.comment (body ++ ['*', '/'])], by simp [Lexeme.text], ?_, by simp [Lexeme.isGap],
      by simp⟩
    rw [List.forall_mem_singleton]
    refine ⟨by simp [Lexeme.text], fun rest _ => ⟨'/', '*' :: (body ++ ['*', '/']), rfl, ?_⟩⟩
    simp [firstLexeme, splitComment_of_closed closed]
  | append _ _ first second =>
    obtain ⟨gaps, text, loose, isGap, filled⟩ := first
    obtain ⟨more, text', loose', isGap', -⟩ := second
    exact ⟨gaps ++ more, by rw [textOf_append, text, text'],
      List.forall_mem_append.2 ⟨loose, loose'⟩, List.forall_mem_append.2 ⟨isGap, isGap'⟩,
      by simp [filled]⟩

theorem group_plain (s pending : List Char) (rest : List Lexeme) :
    group pending (s.map .plain ++ rest) = group (s.reverse ++ pending) rest := by
  have ink : ∀ l ∈ s.map Lexeme.plain, l.IsInk := List.forall_mem_map.2 fun _ _ => trivial
  rw [group_append_ink ink, textOf_plain]

/-- Gaps behind a token that was begun count as one space. -/
theorem group_separator {c : Char} (ink : isBlank c = false) {gaps : List Lexeme}
    (h : ∀ l ∈ gaps, l.isGap = true) (filled : gaps ≠ []) (pending : List Char)
    (rest : List Lexeme) :
    group (c :: pending) (gaps ++ rest) = group (' ' :: c :: pending) rest := by
  have spaced {more : List Lexeme} (h : ∀ l ∈ more, l.isGap = true) :
      group (' ' :: c :: pending) (more ++ rest) = group (' ' :: c :: pending) rest := by
    induction more with
    | nil => rfl
    | cons l more ih =>
      obtain ⟨here, later⟩ := List.forall_mem_cons.1 h
      rw [List.cons_append, group_gap here]
      exact ih later
  obtain ⟨l, more, rfl⟩ := List.exists_cons_of_ne_nil filled
  obtain ⟨here, later⟩ := List.forall_mem_cons.1 h
  have folded : foldBlank (c :: pending) = ' ' :: c :: pending := by simp [foldBlank, ink]
  rw [List.cons_append, group_gap here, folded, spaced later]

end UtilityCss.Css
