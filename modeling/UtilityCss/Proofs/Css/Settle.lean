import Mathlib.Data.List.TakeWhile
import UtilityCss.Proofs.Css.Lexeme

/-! What the lexemes of a style sheet become in the compact text. They are read as themselves, and
to settle them twice changes nothing. -/
namespace UtilityCss.Css
open Text

/-- A text without the blanks at its end. -/
def trimEnd (s : List Char) : List Char := (s.reverse.dropWhile isBlank).reverse

/-- A lexeme without the blanks at the end of its text: only a string that is never closed has
any. -/
def Lexeme.cropped : Lexeme → Lexeme
  | .quoted mark body => .quoted mark (trimEnd body)
  | l => l

/-- What waits at the end of a text until it is clear what follows: a space, or a guarded blank. -/
inductive Held
  | nothing
  | space
  | guarded (c : Char)

/-- What waits is kept in front of everything that belongs to the same token. -/
def Held.kept : Held → List Lexeme
  | .nothing => []
  | .space => [.blank ' ']
  | .guarded c => [.escape (some c)]

/-- What is left of it at the end of the style sheet. -/
def Held.atEnd : Held → List Lexeme
  | .guarded _ => [.escape none]
  | _ => []

/-- A brace behind it. The backslash that is left of a guarded blank guards the brace. -/
def Held.atBrace (opening : Bool) : Held → Lexeme
  | .guarded _ => .escape (some (braceChar opening))
  | _ => .brace opening

/-- A space waits behind a token that was begun, unless a blank stands there already. -/
def Held.addBlank (begun : Bool) : Held → Held
  | .nothing => if begun then .space else .nothing
  | held => held

/-- The lexemes of the compact text. -/
def settle (begun : Bool) (held : Held) : List Lexeme → List Lexeme
  | [] => held.atEnd
  | .semicolon :: rest => held.kept ++ .semicolon :: settle false .nothing rest
  | .brace opening :: rest => held.atBrace opening :: settle false .nothing rest
  | .blank _ :: rest => settle begun (held.addBlank begun) rest
  | .comment _ :: rest => settle begun (held.addBlank begun) rest
  | .escape (some c) :: rest =>
    if isBlank c then held.kept ++ settle true (.guarded c) rest
    else held.kept ++ .escape (some c) :: settle true .nothing rest
  | l :: rest => held.kept ++ l.cropped :: settle true .nothing rest

theorem settle_guarded (c : Char) (ls : List Lexeme) :
    ∃ e more, settle true (.guarded c) ls = .escape e :: more := by
  induction ls with
  | nil => exact ⟨none, [], rfl⟩
  | cons l rest ih =>
    cases l with
    | blank d => exact ih
    | comment body => exact ih
    | brace opening => exact ⟨_, _, rfl⟩
    | escape guarded =>
      cases guarded with
      | none => exact ⟨_, _, rfl⟩
      | some d =>
        rw [settle]
        split <;> exact ⟨_, _, rfl⟩
    | _ => exact ⟨_, _, rfl⟩

/-- A lexeme that ends neither a token nor in a blank, an open string apart. -/
def Lexeme.IsInk : Lexeme → Prop
  | .escape (some c) => isBlank c = false
  | .escape none => True
  | .quoted .. => True
  | .plain _ => True
  | _ => False

theorem settle_ink {l : Lexeme} (h : l.IsInk) (begun : Bool) (held : Held) (rest : List Lexeme) :
    settle begun held (l :: rest) = held.kept ++ l.cropped :: settle true .nothing rest := by
  cases l with
  | escape guarded =>
    cases guarded with
    | none => rfl
    | some c =>
      have hc : isBlank c = false := h
      simp [settle, hc, Lexeme.cropped]
  | quoted mark body => rfl
  | plain c => rfl
  | _ => exact False.elim h

/-- Every lexeme ends a token, is a gap, guards a blank, or is ink. -/
theorem Lexeme.kinds (l : Lexeme) : l = .semicolon ∨ (∃ opening, l = .brace opening) ∨
    (∃ c, l = .blank c) ∨ (∃ body, l = .comment body) ∨
    (∃ c, l = .escape (some c) ∧ isBlank c = true) ∨ l.IsInk := by
  cases l with
  | semicolon => exact .inl rfl
  | brace opening => exact .inr (.inl ⟨opening, rfl⟩)
  | blank c => exact .inr (.inr (.inl ⟨c, rfl⟩))
  | comment body => exact .inr (.inr (.inr (.inl ⟨body, rfl⟩)))
  | escape guarded =>
    refine .inr (.inr (.inr (.inr ?_)))
    cases guarded with
    | none => exact .inr trivial
    | some c =>
      cases hc : isBlank c with
      | true => exact .inl ⟨c, rfl, hc⟩
      | false => exact .inr hc
  | quoted mark body => exact .inr (.inr (.inr (.inr (.inr trivial))))
  | plain c => exact .inr (.inr (.inr (.inr (.inr trivial))))

private theorem trimEnd_spec (s : List Char) : ∃ tail, (∀ c ∈ tail, isBlank c = true) ∧
    s = trimEnd s ++ tail ∧ ∀ c ∈ (trimEnd s).getLast?, isBlank c = false := by
  refine ⟨(s.reverse.takeWhile isBlank).reverse, fun c hc => ?_, ?_, fun c hc => ?_⟩
  · exact List.mem_takeWhile_imp (List.mem_reverse.1 hc)
  · rw [trimEnd, ← List.reverse_append, List.takeWhile_append_dropWhile, List.reverse_reverse]
  · rw [trimEnd, List.getLast?_reverse] at hc
    have stop := List.head?_dropWhile_not isBlank s.reverse
    rw [hc] at stop
    simpa using stop

theorem cropped_cropped (l : Lexeme) : l.cropped.cropped = l.cropped := by
  cases l with
  | quoted mark body =>
    obtain ⟨tail, -, -, last⟩ := trimEnd_spec body
    have stays : ∀ s : List Char, (∀ c ∈ s.head?, isBlank c = false) → s.dropWhile isBlank = s := by
      intro s hs
      cases s with
      | nil => rfl
      | cons c more => simp [show isBlank c = false from hs c rfl]
    have := stays (trimEnd body).reverse (by simpa using last)
    simp only [Lexeme.cropped]
    rw [trimEnd, this, List.reverse_reverse]
  | _ => rfl

theorem isInk_cropped {l : Lexeme} (h : l.IsInk) : l.cropped.IsInk := by
  cases l <;> exact h

/-- Whether a reversed text ends in a backslash that guards nothing. -/
def endsOpen : List Char → Bool
  | '\\' :: rest => !endsOpen rest
  | _ => false

theorem endsOpen_of_ne {c : Char} (h : c ≠ '\\') (rest : List Char) :
    endsOpen (c :: rest) = false := by
  unfold endsOpen
  split
  · next heq => exact absurd (List.cons.inj heq).1 h
  · rfl

theorem heads_escape_none_iff {rest : List Char} : (Lexeme.escape none).Heads rest ↔ rest = [] := by
  constructor
  · rintro ⟨c, more, text, first⟩
    obtain ⟨rfl, rfl⟩ : '\\' = c ∧ [] = more := by simpa [Lexeme.text] using text
    cases rest with
    | nil => rfl
    | cons d more => simp [firstLexeme] at first
  · rintro rfl
    exact heads_escape_none

private theorem isBlank_plain {c : Char} {rest : List Char} (h : (Lexeme.plain c).Heads rest) :
    isBlank c = false ∧ c ≠ '\\' := by
  have := (heads_plain_iff.1 h).1
  simp only [isOrdinary, Bool.and_eq_true, Bool.not_eq_true', bne_iff_ne] at this
  exact ⟨this.1.1.1.1.1.1, this.1.1.1.1.1.2⟩

private theorem isBlank_mark {mark : Char} {body rest : List Char}
    (h : (Lexeme.quoted mark body).Heads rest) : isBlank mark = false ∧ mark ≠ '\\' := by
  rcases (heads_quoted_iff.1 h).1 with rfl | rfl <;> exact ⟨rfl, by decide⟩

/-- Ink begins with no blank, and neither does it end in one once it is cropped. -/
theorem Lexeme.IsInk.cropped_spec {l : Lexeme} (h : l.IsInk) {rest : List Char}
    (heads : l.Heads rest) :
    l.cropped.text ≠ [] ∧ (∀ c ∈ l.cropped.text.head?, isBlank c = false) ∧
      (∀ c ∈ l.cropped.text.getLast?, isBlank c = false) ∧
      ∃ tail, (∀ c ∈ tail, isBlank c = true) ∧ l.text = l.cropped.text ++ tail := by
  cases l with
  | escape guarded =>
    cases guarded with
    | none => exact ⟨by simp [cropped, text], by simp [cropped, text, isBlank],
        by simp [cropped, text, isBlank], [], by simp, by simp [cropped]⟩
    | some c =>
      have hc : isBlank c = false := h
      exact ⟨by simp [cropped, text], by simp [cropped, text, isBlank],
        by simp [cropped, text, hc], [], by simp, by simp [cropped]⟩
  | quoted mark body =>
    obtain ⟨tail, blank, split, last⟩ := trimEnd_spec body
    refine ⟨by simp [cropped, text], by simp [cropped, text, (isBlank_mark heads).1], ?_, tail,
      blank, by simp [cropped, text, ← split]⟩
    intro c hc
    simp only [cropped, text, List.getLast?_cons] at hc
    cases ht : (trimEnd body).getLast? with
    | none =>
      obtain rfl : mark = c := by simpa [ht] using hc
      exact (isBlank_mark heads).1
    | some d => exact last c (by simpa [ht] using hc)
  | plain c =>
    have hc := (isBlank_plain heads).1
    exact ⟨by simp [cropped, text], by simp [cropped, text, hc], by simp [cropped, text, hc], [],
      by simp, by simp [cropped]⟩
  | _ => exact False.elim h

/-- Ink with something behind it is closed. -/
theorem Lexeme.IsInk.closed {l : Lexeme} (h : l.IsInk) {rest : List Char} (heads : l.Heads rest)
    (more : rest ≠ []) :
    l.cropped = l ∧
      ∀ before, endsOpen before = false → endsOpen (l.text.reverse ++ before) = false := by
  cases l with
  | escape guarded =>
    cases guarded with
    | none => exact absurd (heads_escape_none_iff.1 heads) more
    | some c =>
      refine ⟨rfl, fun before hb => ?_⟩
      by_cases hc : c = '\\'
      · subst hc
        simp [text, endsOpen, hb]
      · exact endsOpen_of_ne hc _
  | quoted mark body =>
    have last := (heads_quoted_closed heads more).1
    obtain ⟨tail, blank, split, -⟩ := trimEnd_spec body
    have none : tail = [] := by
      by_contra ne
      have hm : mark ∈ tail := by
        obtain ⟨d, hd⟩ := Option.isSome_iff_exists.1 (List.getLast?_isSome.2 ne)
        rw [split, List.getLast?_append, hd, Option.some_or] at last
        exact List.mem_of_getLast? (hd.trans last)
      have := blank mark hm
      simp [(isBlank_mark heads).1] at this
    rw [none, List.append_nil] at split
    refine ⟨by rw [cropped, ← split], fun before _ => ?_⟩
    obtain ⟨front, rfl⟩ := List.getLast?_eq_some_iff.1 last
    simpa [text] using endsOpen_of_ne (isBlank_mark heads).2 _
  | plain c =>
    exact ⟨rfl, fun before _ => endsOpen_of_ne (isBlank_plain heads).2 _⟩
  | _ => exact False.elim h

theorem textOf_ne_nil {ls : List Lexeme} (h : ls ≠ []) : textOf ls ≠ [] := by
  obtain ⟨l, rest, rfl⟩ := List.exists_cons_of_ne_nil h
  simp [l.text_ne_nil]

/-- Behind a space that waits stands no star. -/
private theorem star_space {ls : List Lexeme} :
    (textOf (settle true .space ls)).head? ≠ some '*' := by
  induction ls with
  | nil => simp [settle, Held.atEnd]
  | cons l rest ih =>
    rcases l.kinds with rfl | ⟨opening, rfl⟩ | ⟨c, rfl⟩ | ⟨body, rfl⟩ | ⟨c, rfl, hc⟩ | ink
    · simp [settle, Held.kept, Lexeme.text]
    · cases opening <;> simp [settle, Held.atBrace, Lexeme.text, braceChar]
    · exact ih
    · exact ih
    · simp [settle, hc, Held.kept, Lexeme.text]
    · simp [settle_ink ink, Held.kept, Lexeme.text]

/-- Settling brings no star to the front of a text. -/
private theorem star_settle {ls : List Lexeme} (readable : Readable ls)
    (h : (textOf (settle true .nothing ls)).head? = some '*') : (textOf ls).head? = some '*' := by
  cases ls with
  | nil => simp [settle, Held.atEnd] at h
  | cons l rest =>
    rcases l.kinds with rfl | ⟨opening, rfl⟩ | ⟨c, rfl⟩ | ⟨body, rfl⟩ | ⟨c, rfl, hc⟩ | ink
    · simp [settle, Held.kept, Lexeme.text] at h
    · cases opening <;> simp [settle, Held.atBrace, Lexeme.text, braceChar] at h
    · exact absurd h star_space
    · exact absurd h star_space
    · obtain ⟨e, more, he⟩ := settle_guarded c rest
      cases e <;> simp [settle, hc, Held.kept, he, Lexeme.text] at h
    · rw [settle_ink ink] at h
      obtain ⟨ne, -, -, tail, -, split⟩ := ink.cropped_spec readable.1
      obtain ⟨c, more, hc⟩ := List.exists_cons_of_ne_nil ne
      simp only [Held.kept, List.nil_append, textOf_cons, hc, List.cons_append, List.head?_cons,
        split] at h ⊢
      exact h

private theorem readable_kept (held : Held) {ls : List Lexeme} (h : Readable ls) :
    Readable (held.kept ++ ls) := by
  cases held with
  | nothing => exact h
  | space => exact ⟨heads_space _, h⟩
  | guarded c => exact ⟨heads_escape c _, h⟩

theorem heads_cropped {l : Lexeme} (ink : l.IsInk) {rest : List Lexeme}
    (heads : l.Heads (textOf rest)) (readable : Readable rest) :
    l.cropped.Heads (textOf (settle true .nothing rest)) := by
  cases l with
  | escape guarded =>
    cases guarded with
    | none =>
      have none : rest = [] := by
        by_contra more
        exact textOf_ne_nil more (heads_escape_none_iff.1 heads)
      subst none
      exact heads_escape_none
    | some c => exact heads_escape c _
  | quoted mark body =>
    by_cases more : rest = []
    · subst more
      refine heads_quoted_prefix heads ?_
      obtain ⟨tail, -, split, -⟩ := trimEnd_spec body
      exact ⟨tail, split.symm⟩
    · rw [(ink.closed heads (textOf_ne_nil more)).1]
      exact (heads_quoted_closed heads (textOf_ne_nil more)).2 _
  | plain c => exact heads_plain_notStar heads (star_settle readable)
  | _ => exact False.elim ink

/-- The compact text is read as the settled lexemes. -/
theorem readable_settle {ls : List Lexeme} (h : Readable ls) (begun : Bool) (held : Held) :
    Readable (settle begun held ls) := by
  induction ls generalizing begun held with
  | nil =>
    cases held with
    | guarded c => exact ⟨heads_escape_none, trivial⟩
    | _ => exact trivial
  | cons l rest ih =>
    obtain ⟨heads, tail⟩ := h
    rcases l.kinds with rfl | ⟨opening, rfl⟩ | ⟨c, rfl⟩ | ⟨body, rfl⟩ | ⟨c, rfl, hc⟩ | ink
    · exact readable_kept held ⟨heads_semicolon _, ih tail false .nothing⟩
    · cases held with
      | guarded c => exact ⟨heads_escape _ _, ih tail false .nothing⟩
      | _ => exact ⟨heads_brace _ _, ih tail false .nothing⟩
    · exact ih tail begun (held.addBlank begun)
    · exact ih tail begun (held.addBlank begun)
    · rw [settle, if_pos hc]
      exact readable_kept held (ih tail true (.guarded c))
    · rw [settle_ink ink]
      exact readable_kept held ⟨heads_cropped ink heads tail, ih tail true .nothing⟩

/-- What was kept is held again. -/
private theorem settle_kept {held : Held} {begun : Bool} (space : held = .space → begun = true)
    (guarded : ∀ c, held = .guarded c → isBlank c = true) {l : Lexeme} {rest : List Lexeme}
    (h : l = .semicolon ∨ (∃ e, l = .escape e) ∨ l.IsInk) (begun' : Bool) :
    settle begun .nothing (held.kept ++ l :: rest) =
      held.kept ++ settle begun' .nothing (l :: rest) := by
  have here (b : Bool) (held : Held) :
      settle b held (l :: rest) = held.kept ++ settle begun' .nothing (l :: rest) := by
    rcases h with rfl | ⟨e, rfl⟩ | ink
    · rfl
    · cases e with
      | none => rfl
      | some c => cases hc : isBlank c <;> simp [settle, hc, Held.kept]
    · rw [settle_ink ink, settle_ink ink]
      rfl
  cases held with
  | nothing => exact here begun .nothing
  | space =>
    rw [space rfl]
    exact here true .space
  | guarded c =>
    have hc := guarded c rfl
    simp only [Held.kept, List.cons_append, List.nil_append, settle, hc, if_true]
    exact here true (.guarded c)

/-- Settled lexemes are settled. -/
theorem settle_settle {ls : List Lexeme} {begun begun' : Bool} {held : Held}
    (more : begun = true → begun' = true) (space : held = .space → begun' = true)
    (guarded : ∀ c, held = .guarded c → isBlank c = true) :
    settle begun' .nothing (settle begun held ls) = settle begun held ls := by
  induction ls generalizing begun begun' held with
  | nil => cases held <;> rfl
  | cons l rest ih =>
    have fresh (b : Bool) : settle b .nothing (settle false .nothing rest) =
        settle false .nothing rest := ih (by simp) (by simp) (by simp)
    have gap : settle begun' .nothing (settle begun (held.addBlank begun) rest) =
        settle begun (held.addBlank begun) rest := by
      cases held with
      | nothing =>
        cases begun <;> exact ih more (by simp_all [Held.addBlank]) (by simp [Held.addBlank])
      | space => exact ih more space guarded
      | guarded c => exact ih more space guarded
    rcases l.kinds with rfl | ⟨opening, rfl⟩ | ⟨c, rfl⟩ | ⟨body, rfl⟩ | ⟨c, rfl, hc⟩ | ink
    · rw [settle, settle_kept space guarded (.inl rfl) begun']
      simp [settle, Held.kept, fresh]
    · cases held with
      | guarded c =>
        cases opening <;> simp [settle, Held.atBrace, Held.kept, braceChar, isBlank, fresh]
      | _ => simp [settle, Held.atBrace, fresh]
    · exact gap
    · exact gap
    · rw [settle, if_pos hc]
      obtain ⟨e, more, he⟩ := settle_guarded c rest
      have tail : settle true .nothing (settle true (.guarded c) rest) =
          settle true (.guarded c) rest := ih (by simp) (by simp) (by simpa using hc)
      rw [he] at tail ⊢
      rw [settle_kept space guarded (.inr (.inl ⟨e, rfl⟩)) true, tail]
    · rw [settle_ink ink, settle_kept space guarded (.inr (.inr (isInk_cropped ink))) true,
        settle_ink (isInk_cropped ink), cropped_cropped]
      have tail : settle true .nothing (settle true .nothing rest) = settle true .nothing rest :=
        ih (by simp) (by simp) (by simp)
      rw [tail]
      rfl

end UtilityCss.Css
