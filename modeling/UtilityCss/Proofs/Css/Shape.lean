import UtilityCss.Proofs.Css.Segment
import UtilityCss.Proofs.Css.Verbatim

/-! The shape of the tokens, and the course of reading them. -/
namespace UtilityCss.Css
open Text

/-- What stands inside a token: a space, an escape, a string, or a character that stands for
itself. -/
inductive Lexeme.IsInner : Lexeme → Prop
  | space : (Lexeme.blank ' ').IsInner
  | escape (guarded : Option Char) : (Lexeme.escape guarded).IsInner
  | quoted (mark : Char) (body : List Char) : (Lexeme.quoted mark body).IsInner
  | plain (c : Char) : (Lexeme.plain c).IsInner

/-- Lexemes of which no two spaces stand next to each other. -/
def IsSpaced (ls : List Lexeme) : Prop :=
  ls.IsChain fun l next => l = .blank ' ' → next ≠ .blank ' '

/-- The lexemes of a token, apart from its semicolon. -/
structure IsBody (ls : List Lexeme) : Prop where
  inner : ∀ l ∈ ls, l.IsInner
  spaced : IsSpaced ls

/-- The token is a brace. -/
def IsBrace (token : String) : Prop := token = "\x7b" ∨ token = "\x7d"

/-- A semicolon that stands outside strings and escapes ends the token. -/
def IsStatement (token : String) : Prop :=
  ∃ body, IsBody body ∧ lexemes token.toList = body ++ [.semicolon]

/-- The token holds no brace and no semicolon outside strings and escapes. -/
def IsFragment (token : String) : Prop := IsBody (lexemes token.toList)

variable {begun : Bool} {held : Held} {front ls : List Lexeme}

private theorem inner_kept (held : Held) : ∀ l ∈ held.kept, l.IsInner := by
  intro l hl
  cases held with
  | nothing => cases hl
  | space =>
    obtain rfl := List.mem_singleton.1 hl
    exact .space
  | guarded c =>
    obtain rfl := List.mem_singleton.1 hl
    exact .escape _

private theorem inner_atEnd (held : Held) : ∀ l ∈ held.atEnd, l.IsInner := by
  intro l hl
  cases held with
  | nothing => cases hl
  | space => cases hl
  | guarded c =>
    obtain rfl := List.mem_singleton.1 hl
    exact .escape _

private theorem inner_cropped {l : Lexeme} (ink : l.IsInk) : l.cropped.IsInner := by
  cases l with
  | escape guarded => exact .escape guarded
  | quoted mark body => exact .quoted mark _
  | plain c => exact .plain c
  | _ => exact False.elim ink

/-- What ends no token settles to what stands inside one. -/
private theorem exists_inner_settle (goes : ∀ l ∈ front, l.endsToken = false)
    {ends : List Lexeme} (last : ends = [] ∨ ends = [.semicolon]) (begun : Bool) (held : Held) :
    ∃ body, settle begun held (front ++ ends) = body ++ ends ∧ ∀ l ∈ body, l.IsInner := by
  induction front generalizing begun held with
  | nil =>
    rcases last with rfl | rfl
    · exact ⟨held.atEnd, by simp [settle], inner_atEnd held⟩
    · exact ⟨held.kept, rfl, inner_kept held⟩
  | cons l rest ih =>
    obtain ⟨here, later⟩ := List.forall_mem_cons.1 goes
    rw [List.cons_append]
    rcases l.kinds with rfl | ⟨opening, rfl⟩ | ⟨c, rfl⟩ | ⟨body, rfl⟩ | ⟨c, rfl, hc⟩ | ink
    · cases here
    · cases here
    · exact ih later begun _
    · exact ih later begun _
    · obtain ⟨body, text, inner⟩ := ih later true (.guarded c)
      refine ⟨held.kept ++ body, by rw [settle, if_pos hc, text, List.append_assoc], ?_⟩
      exact List.forall_mem_append.2 ⟨inner_kept held, inner⟩
    · obtain ⟨body, text, inner⟩ := ih later true .nothing
      refine ⟨held.kept ++ l.cropped :: body, by rw [settle_ink ink, text]; simp, ?_⟩
      exact List.forall_mem_append.2
        ⟨inner_kept held, List.forall_mem_cons.2 ⟨inner_cropped ink, inner⟩⟩

private theorem ne_blank {l : Lexeme} (visible : l.isGap = false) (c : Char) : l ≠ .blank c := by
  rintro rfl
  cases visible

private theorem isSpaced_cons {l : Lexeme} (visible : l.isGap = false) (h : IsSpaced ls) :
    IsSpaced (l :: ls) :=
  List.isChain_cons.2 ⟨fun _ _ same => absurd same (ne_blank visible ' '), h⟩

private theorem isSpaced_kept (held : Held) {l : Lexeme} (visible : l.isGap = false)
    (h : IsSpaced (l :: ls)) : IsSpaced (held.kept ++ l :: ls) := by
  cases held with
  | nothing => exact h
  | space => exact List.IsChain.cons_cons (fun _ => ne_blank visible ' ') h
  | guarded c => exact isSpaced_cons rfl h

/-- A space that is kept has ink, a semicolon or an escape behind it. -/
private theorem isSpaced_settle (ls : List Lexeme) (begun : Bool) (held : Held) :
    IsSpaced (settle begun held ls) := by
  -- What is kept is written together with what stands behind it, so no two spaces meet.
  induction ls generalizing begun held with
  | nil => cases held <;> simp [settle, Held.atEnd, IsSpaced]
  | cons l rest ih =>
    rcases l.kinds with rfl | ⟨opening, rfl⟩ | ⟨c, rfl⟩ | ⟨body, rfl⟩ | ⟨c, rfl, hc⟩ | ink
    · exact isSpaced_kept held rfl (isSpaced_cons rfl (ih false .nothing))
    · refine isSpaced_cons ?_ (ih false .nothing)
      cases held <;> rfl
    · exact ih begun _
    · exact ih begun _
    · obtain ⟨e, more, text⟩ := settle_guarded c rest
      have tail := ih true (.guarded c)
      rw [settle, if_pos hc, text]
      exact isSpaced_kept held rfl (text ▸ tail)
    · have visible := (isInk_cropped ink).isGap_eq_false
      rw [settle_ink ink]
      exact isSpaced_kept held visible (isSpaced_cons visible (ih true .nothing))

/-- The lexemes of a token that ends in no brace are settled ones. -/
private theorem exists_isBody (goes : ∀ l ∈ front, l.endsToken = false)
    {ends : List Lexeme} (last : ends = [] ∨ ends = [.semicolon])
    (readable : Readable (front ++ ends)) :
    ∃ body, IsBody body ∧ lexemes (settledText (front ++ ends)) = body ++ ends := by
  obtain ⟨body, text, inner⟩ := exists_inner_settle goes last false .nothing
  have spaced : IsSpaced (body ++ ends) := text ▸ isSpaced_settle _ false .nothing
  refine ⟨body, ⟨inner, spaced.left_of_append⟩, ?_⟩
  rw [settledText, (readable_settle readable false .nothing).lexemes_textOf, text]

theorem isSolid_trim {s : List Char} (filled : trim s ≠ []) : IsSolid (trim s) where
  filled := filled
  first := by
    intro c hc
    have front : trim s <+: s.dropWhile isBlank := by
      rw [← List.reverse_suffix, trim, trimWhere, List.reverse_reverse]
      exact List.dropWhile_suffix _
    obtain ⟨tail, whole⟩ := front
    have stop := List.head?_dropWhile_not isBlank s
    rw [← whole, List.head?_append_of_ne_nil _ filled, hc] at stop
    simpa using stop
  last := by
    intro c hc
    have stop := List.head?_dropWhile_not isBlank (s.dropWhile isBlank).reverse
    rw [trim, trimWhere, List.getLast?_reverse] at hc
    rw [hc] at stop
    simpa using stop

theorem isSolid_of_mem_group {pending token : List Char} (h : token ∈ group pending ls) :
    IsSolid token := by
  have brace (opening : Bool) : IsSolid [braceChar opening] := by
    constructor <;> cases opening <;> simp [braceChar, isBlank]
  have filled {pending : List Char} (h : ¬ pending.all isBlank = true) :
      IsSolid (trim pending.reverse) :=
    isSolid_trim (mt trim_eq_nil_iff.1 (by rwa [List.all_reverse]))
  fun_induction group pending ls with
  | case1 => cases h
  | case2 pending some =>
    obtain rfl := List.mem_singleton.1 h
    exact filled some
  | case3 pending rest ih =>
    rcases List.mem_cons.1 h with rfl | later
    · exact filled (by simp [isBlank])
    · exact ih later
  | case4 pending opening rest _ ih =>
    rcases List.mem_cons.1 h with rfl | later
    · exact brace opening
    · exact ih later
  | case5 pending opening rest some ih =>
    rcases List.mem_cons.1 h with rfl | later
    · exact filled some
    rcases List.mem_cons.1 later with rfl | last
    · exact brace opening
    · exact ih last
  | case6 pending c rest ih => exact ih h
  | case7 pending body rest ih => exact ih h
  | case8 pending l rest _ _ _ _ ih => exact ih h

/-! The tokens of a style sheet are its settled segments. -/

private theorem tokens_eq_segments (css : String) : tokens css =
    (segmentsFrom [] (lexemes css.toList)).map fun s => String.ofList (settledText s) := by
  rw [tokens, group_lexemes _ (readable_lexemes _), List.map_map]
  rfl

private theorem isBrace_mark (opening : Bool) :
    IsBrace (String.ofList (settledText [.brace opening])) := by
  cases opening
  · exact .inr rfl
  · exact .inl rfl

private theorem isStatement_of_segment (goes : ∀ l ∈ front, l.endsToken = false)
    (readable : Readable (front ++ [.semicolon])) :
    IsStatement (String.ofList (settledText (front ++ [.semicolon]))) := by
  obtain ⟨body, shape, cut⟩ := exists_isBody goes (.inr rfl) readable
  exact ⟨body, shape, by rw [String.toList_ofList, cut]⟩

theorem isFragment_of_segment (goes : ∀ l ∈ front, l.endsToken = false)
    (readable : Readable front) : IsFragment (String.ofList (settledText front)) := by
  have padded : Readable (front ++ []) := (List.append_nil front).symm ▸ readable
  obtain ⟨body, shape, cut⟩ := exists_isBody goes (.inl rfl) padded
  rw [List.append_nil, List.append_nil] at cut
  rwa [IsFragment, String.toList_ofList, cut]

private theorem readable_of_mem {segment : List Lexeme} {css : String}
    (h : segment ∈ segmentsFrom [] (lexemes css.toList)) : Readable segment := by
  obtain ⟨before, after, split⟩ := isInfix_of_mem_segments h
  have readable : Readable (before ++ segment ++ after) := split ▸ readable_lexemes css.toList
  exact readable.left.right

/-- Every token is a brace, ends in its one semicolon, or has none. -/
theorem shape_of_mem_tokens {css token : String} (h : token ∈ tokens css) :
    IsBrace token ∨ IsStatement token ∨ IsFragment token := by
  rw [tokens_eq_segments] at h
  obtain ⟨segment, inside, rfl⟩ := List.mem_map.1 h
  have readable := readable_of_mem inside
  cases isSegment_of_mem (by simp) inside with
  | brace opening => exact .inl (isBrace_mark opening)
  | statement goes => exact .inr (.inl (isStatement_of_segment goes readable))
  | fragment goes => exact .inr (.inr (isFragment_of_segment goes readable))

/-- A brace stands behind every token that is none and has no semicolon at its end. -/
theorem isChain_tokens (css : String) :
    (tokens css).IsChain fun token next => IsBrace token ∨ IsStatement token ∨ IsBrace next := by
  rw [tokens_eq_segments, List.isChain_map]
  refine (isChain_segments (by simp) _).imp_of_mem_imp fun segment next inside _ alternatives => ?_
  have readable := readable_of_mem inside
  rcases alternatives with ⟨opening, rfl⟩ | ⟨body, goes, rfl⟩ | ⟨opening, rfl⟩
  · exact .inl (isBrace_mark opening)
  · exact .inr (.inl (isStatement_of_segment goes readable))
  · exact .inr (.inr (isBrace_mark opening))

theorem length_lexemes_le (s : List Char) : (lexemes s).length ≤ s.length := by
  fun_induction lexemes s with
  | case1 => exact Nat.le_refl 0
  | case2 c rest ih => exact Nat.succ_le_succ (ih.trans (firstLexeme_length c rest))

/-- There are no more tokens than characters. -/
theorem length_tokens_le (css : String) : (tokens css).length ≤ css.length := by
  have few := length_segmentsFrom_le [] (lexemes css.toList)
  rw [List.all_nil, if_pos rfl, Nat.add_zero] at few
  rw [tokens_eq_segments, List.length_map, ← String.length_toList]
  exact few.trans (length_lexemes_le _)

/-! Reading. -/

theorem gather_suffix (pending : List Char) (ls : List Lexeme) : (gather pending ls).2 <:+ ls := by
  fun_induction gather pending ls with
  | case1 => exact List.suffix_refl _
  | case2 pending rest => exact List.suffix_cons _ _
  | case3 pending opening rest _ => exact List.suffix_cons _ _
  | case4 pending opening rest _ => exact List.suffix_refl _
  | case5 pending c rest ih => exact ih.trans (List.suffix_cons _ _)
  | case6 pending body rest ih => exact ih.trans (List.suffix_cons _ _)
  | case7 pending l rest _ _ _ _ ih => exact ih.trans (List.suffix_cons _ _)

/-- Where nothing is read, nothing is left. -/
theorem gather_eq_nil {pending : List Char} {ls : List Lexeme}
    (h : trim (gather pending ls).1.reverse = []) : (gather pending ls).2 = [] := by
  rw [trim_eq_nil_iff, List.all_reverse] at h
  fun_induction gather pending ls with
  | case1 => rfl
  | case2 pending rest => simp [isBlank] at h
  | case3 pending opening rest _ => cases opening <;> simp [braceChar, isBlank] at h
  | case4 pending opening rest filled => exact absurd h filled
  | case5 pending c rest ih => exact ih h
  | case6 pending body rest ih => exact ih h
  | case7 pending l rest _ _ _ _ ih => exact ih h

namespace Reader

/-- The tokens that are still to be read. -/
def remaining (r : Reader) : List String := (group [] r.rest).map String.ofList

theorem rest_read_of_empty {r : Reader} (h : r.read.value = "") : r.read.rest = [] :=
  gather_eq_nil (String.ofList_eq_empty_iff.1 h)

theorem remaining_eq (r : Reader) : r.remaining =
    if r.read.value = "" then [] else r.read.value :: r.read.remaining := by
  rw [remaining, group_eq_gather]
  by_cases none : r.read.value = ""
  · rw [if_pos none, if_pos (String.ofList_eq_empty_iff.1 none), List.map_nil]
  · rw [if_neg none, if_neg (mt String.ofList_eq_empty_iff.2 none), List.map_cons]
    rfl

theorem value_read (r : Reader) : r.read.value = r.remaining.head?.getD "" := by
  rw [remaining_eq]
  split
  · assumption
  · rfl

theorem remaining_read (r : Reader) : r.read.remaining = r.remaining.tail := by
  rw [r.remaining_eq]
  split
  · next none =>
    rw [remaining, rest_read_of_empty none]
    rfl
  · rfl

theorem remaining_iterate (r : Reader) (n : Nat) :
    (read^[n] r).remaining = r.remaining.drop n := by
  induction n with
  | zero => rfl
  | succ n ih => rw [Function.iterate_succ_apply', remaining_read, ih, List.tail_drop]

theorem rest_iterate_suffix (r : Reader) (n : Nat) : (read^[n] r).rest <:+ r.rest := by
  induction n with
  | zero => exact List.suffix_refl _
  | succ n ih =>
    rw [Function.iterate_succ_apply']
    exact (gather_suffix [] _).trans ih

/-- Nothing is read exactly where nothing but blanks and comments are left. -/
theorem value_read_eq_empty_iff {r : Reader} (readable : Readable r.rest) :
    r.read.value = "" ↔ ∀ l ∈ r.rest, l.isGap = true := by
  have none : r.read.value = "" ↔ r.remaining = [] := by
    rw [remaining_eq]
    split <;> simp_all
  rw [none, remaining, group_lexemes _ readable, List.map_eq_nil_iff, List.map_eq_nil_iff,
    segmentsFrom_eq_nil_iff, List.nil_append]

/-- At the end reading changes nothing any more. -/
theorem iterate_of_rest_eq_nil {r : Reader} (h : r.rest = []) (empty : r.value = "") (n : Nat) :
    read^[n] r = r := by
  refine Function.iterate_fixed ?_ n
  obtain ⟨rest, value⟩ := r
  cases h
  cases empty
  rfl

end Reader

/-- No token begins or ends in a blank. A token is a brace, or it holds no brace, no comment, no
blanks but single spaces, and no semicolon but one at its end. A token that neither is a brace nor
ends in a semicolon is the last one, or has a brace behind it. Reading yields the tokens one after
the other, no more than there are characters. It yields nothing only when blanks and comments are
all that is left, and from then on it is at the end for ever. -/
theorem tokens_shape (css : String) :
    (∀ token ∈ tokens css, IsSolid token.toList ∧
      (IsBrace token ∨ IsStatement token ∨ IsFragment token)) ∧
    ((tokens css).IsChain fun token next => IsBrace token ∨ IsStatement token ∨ IsBrace next) ∧
    (tokens css).length ≤ css.length ∧
    ∀ n, let r := Reader.read^[n] (Reader.ofString css)
      (textOf r.rest <:+ css.toList ∧ r.rest = lexemes (textOf r.rest)) ∧
      r.read.value = (tokens css)[n]?.getD "" ∧
      (r.read.value = "" ↔ ∀ l ∈ r.rest, l.isGap = true) ∧
      (r.read.value = "" → ∀ m,
        (Reader.read^[m] r.read).atEnd = true ∧ (Reader.read^[m] r.read).value = "") := by
  refine ⟨fun token inside => ⟨?_, shape_of_mem_tokens inside⟩, isChain_tokens css,
    length_tokens_le css, fun n => ?_⟩
  · obtain ⟨text, here, rfl⟩ := List.mem_map.1 inside
    rw [String.toList_ofList]
    exact isSolid_of_mem_group here
  · obtain ⟨before, split⟩ := (Reader.ofString css).rest_iterate_suffix n
    have whole : before ++ (Reader.read^[n] (Reader.ofString css)).rest =
        lexemes css.toList := split
    have readable : Readable (Reader.read^[n] (Reader.ofString css)).rest :=
      Readable.right (whole ▸ readable_lexemes css.toList)
    refine ⟨⟨⟨textOf before, ?_⟩, readable.lexemes_textOf.symm⟩, ?_,
      Reader.value_read_eq_empty_iff readable, fun none m => ?_⟩
    · rw [← textOf_append, whole, textOf_lexemes]
    · rw [Reader.value_read, Reader.remaining_iterate, List.head?_drop]
      rfl
    · have done := Reader.rest_read_of_empty none
      rw [Reader.iterate_of_rest_eq_nil done none, Reader.atEnd, done]
      exact ⟨rfl, none⟩

example : tokens "a\n/*;*/ b ;c\\ \x7d'\x7d" = ["a b ;", "c\\", "\x7d", "'\x7d"] := by
  decide +kernel

end UtilityCss.Css
