import UtilityCss.Css.Token
import UtilityCss.Proofs.Css.Settle

/-! The text of the token that is being read, and what trimming leaves of it. The tokens written one
behind the other are the settled lexemes. -/
namespace UtilityCss.Css
open Text

variable {pending kept : List Char} {begun : Bool} {held : Held}

theorem group_ink {l : Lexeme} (h : l.IsInk) (pending : List Char) (rest : List Lexeme) :
    group pending (l :: rest) = group (l.text.reverse ++ pending) rest := by
  cases l with
  | escape guarded => rfl
  | quoted mark body => rfl
  | plain c => rfl
  | _ => exact False.elim h

theorem group_append_ink {ls : List Lexeme} (h : ∀ l ∈ ls, l.IsInk) (pending : List Char)
    (rest : List Lexeme) :
    group pending (ls ++ rest) = group ((textOf ls).reverse ++ pending) rest := by
  induction ls generalizing pending with
  | nil => rfl
  | cons l more ih =>
    obtain ⟨here, later⟩ := List.forall_mem_cons.1 h
    rw [List.cons_append, group_ink here, ih later, textOf_cons, List.reverse_append,
      List.append_assoc]

theorem group_escape (pending : List Char) (c : Char) (rest : List Lexeme) :
    group pending (.escape (some c) :: rest) = group (c :: '\\' :: pending) rest := rfl

/-- Trimming drops the blanks around a text that begins and ends with none. -/
theorem trim_reverse_append (after before : List Char) {kept : List Char}
    (ha : ∀ c ∈ after, isBlank c = true) (hb : ∀ c ∈ before, isBlank c = true)
    (first : ∀ c ∈ kept.getLast?, isBlank c = false)
    (last : ∀ c ∈ kept.head?, isBlank c = false) :
    trim (after ++ kept ++ before).reverse = kept.reverse := by
  have stays (s t : List Char) (h : ∀ c ∈ s.head?, isBlank c = false) (ne : s ≠ []) :
      (s ++ t).dropWhile isBlank = s ++ t := by
    obtain ⟨c, more, rfl⟩ := List.exists_cons_of_ne_nil ne
    have : isBlank c = false := h c rfl
    simp [this]
  have hb' : ∀ c ∈ before.reverse, isBlank c = true := fun c hc => hb c (List.mem_reverse.1 hc)
  have ha' : ∀ c ∈ after.reverse, isBlank c = true := fun c hc => ha c (List.mem_reverse.1 hc)
  rw [trim, trimWhere, List.reverse_append, List.reverse_append,
    List.dropWhile_append_of_pos hb']
  by_cases none : kept = []
  · subst none
    have : after.reverse.dropWhile isBlank = [] := List.dropWhile_eq_nil_iff.2 ha'
    simp [this]
  · rw [stays kept.reverse after.reverse (by simpa using first) (by simpa using none),
      ← List.reverse_append, List.reverse_reverse, List.dropWhile_append_of_pos ha]
    have := stays kept [] last none
    rw [List.append_nil] at this
    rw [this]

/-- What is known of the pending text: `kept` of it, and what is held, stay behind the blanks at its
start. -/
structure Pending (pending kept : List Char) (begun : Bool) (held : Held) : Prop where
  text : ∃ before, (∀ c ∈ before, isBlank c = true) ∧
    pending = (textOf held.kept).reverse ++ kept ++ before
  first : ∀ c ∈ kept.getLast?, isBlank c = false
  last : (∀ c, held ≠ .guarded c) → ∀ c ∈ kept.head?, isBlank c = false
  begun_iff : begun = true ↔ kept ≠ [] ∨ ∃ c, held = .guarded c
  space : held = .space → kept ≠ []
  guarded : ∀ c, held = .guarded c → isBlank c = true

theorem Pending.start : Pending [] [] false .nothing :=
  ⟨⟨[], by simp, rfl⟩, by simp, by simp, by simp, by simp, by simp⟩

/-- A blank. -/
theorem Pending.addBlank (h : Pending pending kept begun held) :
    Pending (foldBlank pending) kept begun (held.addBlank begun) := by
  obtain ⟨⟨before, blank, rfl⟩, first, last, hbegun, space, guarded⟩ := h
  cases held with
  | nothing =>
    cases begun with
    | false =>
      obtain rfl : kept = [] := by
        by_contra ne
        simpa using hbegun.2 (.inl ne)
      refine ⟨⟨foldBlank before, ?_, rfl⟩, first, last, hbegun, space, guarded⟩
      cases before with
      | nil => simp [foldBlank, isBlank]
      | cons c more =>
        have : isBlank c = true := blank c (by simp)
        simpa [foldBlank, this] using blank
    | true =>
      have ne : kept ≠ [] := by simpa using hbegun
      obtain ⟨c, more, rfl⟩ := List.exists_cons_of_ne_nil ne
      have ink : isBlank c = false := last (by simp) c rfl
      refine ⟨⟨before, blank, ?_⟩, first, fun _ => last (by simp), by simp, fun _ => ne,
        by simp [Held.addBlank]⟩
      simp [Held.kept, Held.addBlank, foldBlank, ink, Lexeme.text]
  | space =>
    refine ⟨⟨before, blank, ?_⟩, first, last, hbegun, space, guarded⟩
    simp [Held.kept, Held.addBlank, foldBlank, Lexeme.text, show isBlank ' ' = true from rfl]
  | guarded c =>
    have hc := guarded c rfl
    refine ⟨⟨before, blank, ?_⟩, first, last, hbegun, space, guarded⟩
    simp [Held.kept, Held.addBlank, foldBlank, Lexeme.text, hc]

private theorem Pending.first_kept (h : Pending pending kept begun held) :
    ∀ c ∈ ((textOf held.kept).reverse ++ kept).getLast?, isBlank c = false := by
  intro c hc
  by_cases none : kept = []
  · subst none
    cases held with
    | nothing => simp [Held.kept] at hc
    | space => exact absurd rfl (h.space rfl)
    | guarded d =>
      obtain rfl : '\\' = c := by simpa [Held.kept, Lexeme.text] using hc
      rfl
  · obtain ⟨d, hd⟩ := List.getLast?_isSome.2 none |> Option.isSome_iff_exists.1
    rw [List.getLast?_append, hd, Option.some_or] at hc
    exact h.first c (hd.trans hc)

/-- A text that begins and ends with no blank is written behind what is held. -/
theorem Pending.write (h : Pending pending kept begun held) {x : List Char} (ne : x ≠ [])
    (last : ∀ c ∈ x.head?, isBlank c = false) (first : ∀ c ∈ x.getLast?, isBlank c = false) :
    Pending (x ++ pending) (x ++ (textOf held.kept).reverse ++ kept) true .nothing := by
  obtain ⟨before, blank, rfl⟩ := h.text
  refine ⟨⟨before, blank, by simp [Held.kept]⟩, fun c hc => ?_, fun _ c hc => ?_, by simp [ne],
    by simp, by simp⟩
  · rw [List.append_assoc, List.getLast?_append] at hc
    cases hd : ((textOf held.kept).reverse ++ kept).getLast? with
    | none =>
      rw [hd, Option.none_or] at hc
      exact first c hc
    | some d =>
      rw [hd, Option.some_or] at hc
      exact h.first_kept c (hd.trans hc)
  · obtain ⟨d, more, rfl⟩ := List.exists_cons_of_ne_nil ne
    exact last c hc

/-- A guarded blank is held. -/
theorem Pending.guard (h : Pending pending kept begun held) {c : Char} (hc : isBlank c = true) :
    Pending (c :: '\\' :: pending) ((textOf held.kept).reverse ++ kept) true (.guarded c) := by
  obtain ⟨before, blank, rfl⟩ := h.text
  refine ⟨⟨before, blank, by simp [Held.kept, Lexeme.text]⟩, h.first_kept, ?_, by simp, by simp, ?_⟩
  · exact fun none => absurd rfl (none c)
  · exact fun d hd => (Held.guarded.inj hd) ▸ hc

theorem first_backslash {kept : List Char}
    (first : ∀ c ∈ kept.getLast?, isBlank c = false) :
    ∀ c ∈ ('\\' :: kept).getLast?, isBlank c = false := by
  intro c hc
  rw [List.getLast?_cons] at hc
  cases hk : kept.getLast? with
  | none =>
    obtain rfl : '\\' = c := by simpa [hk] using hc
    rfl
  | some d => exact first c (by simpa [hk] using hc)

/-- What the pending text is trimmed to. -/
theorem Pending.trim_eq (h : Pending pending kept begun held) :
    trim pending.reverse = kept.reverse ++ textOf held.atEnd := by
  obtain ⟨⟨before, blank, rfl⟩, first, last, -, -, guarded⟩ := h
  cases held with
  | nothing =>
    have := trim_reverse_append [] _ (by simp) blank first (last (by simp))
    simpa [Held.kept, Held.atEnd] using this
  | space =>
    have := trim_reverse_append [' '] _ (by simp [isBlank]) blank first (last (by simp))
    simpa [Held.kept, Held.atEnd, Lexeme.text] using this
  | guarded c =>
    have hc := guarded c rfl
    have := trim_reverse_append [c] _ (by simpa using hc) blank (first_backslash first)
      (by simp [isBlank])
    simpa [Held.kept, Held.atEnd, Lexeme.text] using this

theorem Pending.trim_semicolon (h : Pending pending kept begun held) :
    trim (';' :: pending).reverse = kept.reverse ++ textOf held.kept ++ [';'] := by
  have := (h.write (x := [';']) (by simp) (by simp [isBlank]) (by simp [isBlank])).trim_eq
  simpa [Held.atEnd] using this

theorem Pending.not_begun {pending kept : List Char} {held : Held}
    (h : Pending pending kept false held) : kept = [] ∧ held = .nothing := by
  obtain ⟨none, notGuarded⟩ : kept = [] ∧ ∀ c, held ≠ .guarded c := by simpa using h.begun_iff
  cases held with
  | nothing => exact ⟨none, rfl⟩
  | space => exact absurd none (h.space rfl)
  | guarded c => exact absurd rfl (notGuarded c)

theorem Pending.all_isBlank
    (h : Pending pending kept begun held) : pending.all isBlank = !begun := by
  cases begun with
  | false =>
    obtain ⟨before, blank, text⟩ := h.text
    obtain ⟨rfl, rfl⟩ := h.not_begun
    simpa [text, Held.kept] using blank
  | true =>
    have trimmed := h.trim_eq
    have some : ¬ trim pending.reverse = [] := by
      rw [trimmed]
      rcases h.begun_iff.1 rfl with ne | ⟨c, rfl⟩
      · simp [ne]
      · simp [Held.atEnd, Lexeme.text]
    rw [trim_eq_nil_iff, List.all_reverse] at some
    simpa using some

/-- Closed ink. -/
theorem Pending.ink
    (h : Pending pending kept begun held) {l : Lexeme} (ink : l.IsInk) {rest : List Lexeme}
    (heads : l.Heads (textOf rest)) (more : rest ≠ []) :
    Pending (l.text.reverse ++ pending) (l.text.reverse ++ (textOf held.kept).reverse ++ kept) true
      .nothing := by
  obtain ⟨ne, first, last, -⟩ := ink.cropped_spec heads
  rw [(ink.closed heads (textOf_ne_nil more)).1] at ne first last
  exact h.write (by simpa using ne) (by simpa using last) (by simpa using first)

/-- Ink at the end of the style sheet. -/
theorem Pending.trim_ink
    (h : Pending pending kept begun held) {l : Lexeme} (ink : l.IsInk) {rest : List Char}
    (heads : l.Heads rest) :
    trim (l.text.reverse ++ pending).reverse =
      kept.reverse ++ textOf held.kept ++ l.cropped.text := by
  obtain ⟨ne, first, last, tail, blank, split⟩ := ink.cropped_spec heads
  have hw := h.write (x := l.cropped.text.reverse) (by simpa using ne) (by simpa using last)
    (by simpa using first)
  obtain ⟨before, hb, text⟩ := hw.text
  have all : l.text.reverse ++ pending =
      tail.reverse ++ (l.cropped.text.reverse ++ (textOf held.kept).reverse ++ kept) ++ before := by
    rw [split, List.reverse_append, List.append_assoc, text]
    simp [Held.kept]
  rw [all, trim_reverse_append _ _ (by simpa using blank) hb hw.first (hw.last (by simp))]
  simp

theorem group_nil {pending text : List Char} (h : trim pending.reverse = text)
    (ne : text ≠ []) : group pending [] = [text] := by
  have some : ¬ trim pending.reverse = [] := by rwa [h]
  rw [trim_eq_nil_iff, List.all_reverse] at some
  rw [group, if_neg some, h]

theorem group_brace {pending text : List Char} (h : trim pending.reverse = text)
    (ne : text ≠ []) (opening : Bool) (rest : List Lexeme) :
    group pending (.brace opening :: rest) = text :: [braceChar opening] :: group [] rest := by
  have some : ¬ trim pending.reverse = [] := by rwa [h]
  rw [trim_eq_nil_iff, List.all_reverse] at some
  rw [group, if_neg some, h]

/-- Ink at the end of the style sheet belongs to one last token. -/
theorem Pending.group_ink_nil
    (h : Pending pending kept begun held) {l : Lexeme} (ink : l.IsInk) {rest : List Char}
    (heads : l.Heads rest) : group (l.text.reverse ++ pending) [] =
      [kept.reverse ++ textOf held.kept ++ l.cropped.text] := by
  have trimmed := h.trim_ink ink heads
  have some : ¬ trim (l.text.reverse ++ pending).reverse = [] := by
    rw [trimmed]
    simp [(ink.cropped_spec heads).1]
  rw [trim_eq_nil_iff, List.all_reverse] at some
  rw [group, if_neg some, trimmed]

/-- The compact text is made of the settled lexemes. -/
theorem flatten_group {ls : List Lexeme}
    (h : Pending pending kept begun held) (readable : Readable ls) :
    (group pending ls).flatten = kept.reverse ++ textOf (settle begun held ls) := by
  induction ls generalizing pending kept begun held with
  | nil =>
    rw [group, h.all_isBlank, settle]
    cases begun with
    | false =>
      obtain ⟨rfl, rfl⟩ := h.not_begun
      rfl
    | true => simp [h.trim_eq]
  | cons l rest ih =>
    obtain ⟨heads, tail⟩ := readable
    have fresh := ih Pending.start tail
    simp only [List.reverse_nil, List.nil_append] at fresh
    rcases l.kinds with rfl | ⟨opening, rfl⟩ | ⟨c, rfl⟩ | ⟨body, rfl⟩ | ⟨c, rfl, hc⟩ | ink
    · rw [group, settle, List.flatten_cons, h.trim_semicolon, fresh]
      simp [Lexeme.text]
    · rw [group, h.all_isBlank, settle]
      cases begun with
      | false =>
        obtain ⟨rfl, rfl⟩ := h.not_begun
        simp [Held.atBrace, Lexeme.text, fresh]
      | true =>
        cases held <;> simp [h.trim_eq, fresh, Held.atBrace, Held.atEnd, Lexeme.text]
    · rw [group, settle]
      exact ih h.addBlank tail
    · rw [group, settle]
      exact ih h.addBlank tail
    · have := ih (h.guard hc) tail
      rw [settle, if_pos hc, textOf_append, group_escape, this]
      simp
    · rw [group_ink ink, settle_ink ink]
      by_cases more : rest = []
      · subst more
        rw [h.group_ink_nil ink heads]
        simp [settle, Held.atEnd]
      · rw [ih (h.ink ink heads more) tail, (ink.closed heads (textOf_ne_nil more)).1]
        simp

end UtilityCss.Css
