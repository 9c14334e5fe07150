import Mathlib.Data.List.Chain
import UtilityCss.Proofs.Css.Declaration
import UtilityCss.Proofs.Css.Pending

/-! The lexemes that each token is made of. A token is what its segment settles to, and it is read
back from its text, so that the shape of a token is the shape of a settled segment. -/
namespace UtilityCss.Css
open Text

/-- Whether a lexeme leaves no more than a blank in a token. -/
def Lexeme.isGap : Lexeme → Bool
  | .blank _ => true
  | .comment _ => true
  | _ => false

theorem group_gap {l : Lexeme} (h : l.isGap = true) (pending : List Char) (rest : List Lexeme) :
    group pending (l :: rest) = group (foldBlank pending) rest := by
  cases l with
  | blank c => rfl
  | comment body => rfl
  | _ => cases h

/-- The lexemes of each token. `front` is what was read of the first one. -/
def segmentsFrom (front : List Lexeme) : List Lexeme → List (List Lexeme)
  | [] => if front.all Lexeme.isGap then [] else [front]
  | .semicolon :: rest => (front ++ [.semicolon]) :: segmentsFrom [] rest
  | .brace opening :: rest =>
    if front.all Lexeme.isGap then [.brace opening] :: segmentsFrom [] rest
    else front :: [.brace opening] :: segmentsFrom [] rest
  | l :: rest => segmentsFrom (front ++ [l]) rest

/-- The text that the lexemes of one token settle to. -/
def settledText (segment : List Lexeme) : List Char := textOf (settle false .nothing segment)

theorem Readable.left {ls more : List Lexeme} (h : Readable (ls ++ more)) : Readable ls := by
  induction ls with
  | nil => trivial
  | cons l rest ih =>
    refine ⟨?_, ih h.2⟩
    have heads : l.Heads (textOf rest ++ textOf more) := textOf_append rest more ▸ h.1
    by_cases last : textOf rest ++ textOf more = []
    · rw [last] at heads
      rwa [(List.append_eq_nil_iff.1 last).1]
    · refine heads.of_star last fun star => ?_
      rw [List.head?_append, star, Option.some_or]

theorem Readable.right {ls more : List Lexeme} (h : Readable (ls ++ more)) : Readable more := by
  induction ls with
  | nil => exact h
  | cons l rest ih => exact ih h.2

theorem Lexeme.IsInk.isGap_eq_false {l : Lexeme} (h : l.IsInk) : l.isGap = false := by
  cases l with
  | blank c => exact False.elim h
  | comment body => exact False.elim h
  | _ => rfl

/-- A lexeme that ends no token is pending as its text, or as a blank. Nothing but blanks are
pending as long as only gaps were read. -/
theorem exists_pending {l : Lexeme} {more : List Char} (heads : l.Heads more)
    (semicolon : l ≠ .semicolon) (brace : ∀ opening, l ≠ .brace opening) (pending : List Char) :
    ∃ pending', (∀ rest, group pending (l :: rest) = group pending' rest) ∧
      pending'.all isBlank = (pending.all isBlank && l.isGap) := by
  have fold : (foldBlank pending).all isBlank = (pending.all isBlank && true) := by
    cases pending with
    | nil => simp [foldBlank, isBlank]
    | cons c rest => cases hc : isBlank c <;> simp [foldBlank, hc, show isBlank ' ' = true from rfl]
  rcases l.kinds with rfl | ⟨opening, rfl⟩ | ⟨c, rfl⟩ | ⟨body, rfl⟩ | ⟨c, rfl, hc⟩ | ink
  · exact absurd rfl semicolon
  · exact absurd rfl (brace opening)
  · exact ⟨_, fun _ => rfl, fold⟩
  · exact ⟨_, fun _ => rfl, fold⟩
  · exact ⟨_, fun _ => rfl, by simp [Lexeme.text, Lexeme.isGap, isBlank]⟩
  · refine ⟨_, group_ink ink pending, ?_⟩
    obtain ⟨filled, first, -, tail, -, text⟩ := ink.cropped_spec heads
    obtain ⟨c, body, here⟩ := List.exists_cons_of_ne_nil filled
    have visible : isBlank c = false := first c (by rw [here]; rfl)
    simp [text, here, visible, ink.isGap_eq_false]

/-- The text that one segment settles to is its token. -/
theorem settledText_of_group {segment : List Lexeme} {token : List Char}
    (readable : Readable segment) (h : group [] segment = [token]) :
    settledText segment = token := by
  have whole := flatten_group Pending.start readable
  rw [h] at whole
  simpa [settledText] using whole.symm

/-- Every token is what its segment settles to. -/
theorem group_eq_segments {pending : List Char} {front ls : List Lexeme}
    (readable : Readable (front ++ ls))
    (behind : ∀ rest, group [] (front ++ rest) = group pending rest)
    (blank : pending.all isBlank = front.all Lexeme.isGap) :
    group pending ls = (segmentsFrom front ls).map settledText := by
  -- Reading `front` alone leaves what is pending, so a token that ends here is that of `front`.
  induction ls generalizing pending front with
  | nil =>
    rw [List.append_nil] at readable
    have whole := behind []
    rw [List.append_nil, group] at whole
    rw [group, segmentsFrom, ← blank]
    split
    · rfl
    · next filled =>
      rw [if_neg filled] at whole
      rw [List.map_singleton, settledText_of_group readable whole]
  | cons l rest ih =>
    have fresh : group [] rest = (segmentsFrom [] rest).map settledText :=
      ih readable.right.2 (fun _ => rfl) rfl
    have next : front ++ l :: rest = (front ++ [l]) ++ rest := by simp
    by_cases semicolon : l = .semicolon
    · subst semicolon
      have whole : group [] (front ++ [.semicolon]) = [trim (';' :: pending).reverse] := behind _
      rw [next] at readable
      rw [group, segmentsFrom, fresh, List.map_cons, settledText_of_group readable.left whole]
    by_cases brace : ∃ opening, l = .brace opening
    · obtain ⟨opening, rfl⟩ := brace
      have mark : settledText [.brace opening] = [braceChar opening] := rfl
      rw [group, segmentsFrom, fresh, ← blank]
      split
      · rw [List.map_cons, mark]
      · next filled =>
        have whole := behind []
        rw [List.append_nil, group, if_neg filled] at whole
        rw [List.map_cons, List.map_cons, mark, settledText_of_group readable.left whole]
    · obtain ⟨pending', moves, blank'⟩ :=
        exists_pending readable.right.1 semicolon (fun o h => brace ⟨o, h⟩) pending
      have next' : segmentsFrom front (l :: rest) = segmentsFrom (front ++ [l]) rest := by
        cases l with
        | semicolon => exact absurd rfl semicolon
        | brace opening => exact absurd ⟨opening, rfl⟩ brace
        | _ => rfl
      rw [moves, next']
      refine ih (next ▸ readable) (fun behind' => ?_) ?_
      · rw [List.append_assoc, behind, List.singleton_append, moves]
      · simp [blank', blank]

theorem group_lexemes (ls : List Lexeme) (readable : Readable ls) :
    group [] ls = (segmentsFrom [] ls).map settledText :=
  group_eq_segments readable (fun _ => rfl) rfl

/-- Whether a lexeme is the last of its token. -/
def Lexeme.endsToken : Lexeme → Bool
  | .semicolon => true
  | .brace _ => true
  | _ => false

/-- What a token may be made of. -/
inductive IsSegment : List Lexeme → Prop
  | brace (opening : Bool) : IsSegment [.brace opening]
  | statement {front : List Lexeme} (goes : ∀ l ∈ front, l.endsToken = false) :
    IsSegment (front ++ [.semicolon])
  | fragment {front : List Lexeme} (goes : ∀ l ∈ front, l.endsToken = false) : IsSegment front

private theorem goes_concat {front : List Lexeme} {l : Lexeme}
    (goes : ∀ m ∈ front, m.endsToken = false) (semicolon : l ≠ .semicolon)
    (brace : ∀ opening, l ≠ .brace opening) : ∀ m ∈ front ++ [l], m.endsToken = false := by
  refine List.forall_mem_append.2 ⟨goes, List.forall_mem_singleton.2 ?_⟩
  cases l with
  | semicolon => exact absurd rfl semicolon
  | brace opening => exact absurd rfl (brace opening)
  | _ => rfl

theorem isSegment_of_mem {front ls segment : List Lexeme}
    (goes : ∀ l ∈ front, l.endsToken = false) (h : segment ∈ segmentsFrom front ls) :
    IsSegment segment := by
  fun_induction segmentsFrom front ls with
  | case1 => cases h
  | case2 =>
    obtain rfl := List.mem_singleton.1 h
    exact .fragment goes
  | case3 front rest ih =>
    rcases List.mem_cons.1 h with rfl | later
    · exact .statement goes
    · exact ih (by simp) later
  | case4 front opening rest _ ih =>
    rcases List.mem_cons.1 h with rfl | later
    · exact .brace opening
    · exact ih (by simp) later
  | case5 front opening rest _ ih =>
    rcases List.mem_cons.1 h with rfl | later
    · exact .fragment goes
    rcases List.mem_cons.1 later with rfl | last
    · exact .brace opening
    · exact ih (by simp) last
  | case6 front l rest semicolon brace ih => exact ih (goes_concat goes semicolon brace) h

/-- A segment that neither is a brace nor ends in a semicolon is the last one, or a brace is next to
it. -/
theorem isChain_segments {front : List Lexeme} (goes : ∀ l ∈ front, l.endsToken = false)
    (ls : List Lexeme) : (segmentsFrom front ls).IsChain
      fun segment next => (∃ opening, segment = [.brace opening]) ∨
        (∃ body, (∀ l ∈ body, l.endsToken = false) ∧ segment = body ++ [.semicolon]) ∨
          ∃ opening, next = [.brace opening] := by
  fun_induction segmentsFrom front ls with
  | case1 => exact .nil
  | case2 => exact .singleton _
  | case3 front rest ih =>
    exact List.isChain_cons.2 ⟨fun _ _ => .inr (.inl ⟨front, goes, rfl⟩), ih (by simp)⟩
  | case4 front opening rest _ ih =>
    exact List.isChain_cons.2 ⟨fun _ _ => .inl ⟨opening, rfl⟩, ih (by simp)⟩
  | case5 front opening rest _ ih =>
    exact .cons_cons (.inr (.inr ⟨opening, rfl⟩))
      (List.isChain_cons.2 ⟨fun _ _ => .inl ⟨opening, rfl⟩, ih (by simp)⟩)
  | case6 front l rest semicolon brace ih => exact ih (goes_concat goes semicolon brace)

theorem segmentsFrom_eq_nil_iff {front ls : List Lexeme} :
    segmentsFrom front ls = [] ↔ ∀ l ∈ front ++ ls, l.isGap = true := by
  have ended {l : Lexeme} (ends : l.isGap = false) (front rest : List Lexeme) :
      ¬ ∀ m ∈ front ++ l :: rest, m.isGap = true :=
    fun gaps => by simpa [ends] using gaps l (by simp)
  fun_induction segmentsFrom front ls with
  | case1 front gaps => simpa using gaps
  | case2 front filled => simpa using filled
  | case3 front rest => exact iff_of_false (by simp) (ended rfl front rest)
  | case4 front opening rest => exact iff_of_false (by simp) (ended rfl front rest)
  | case5 front opening rest => exact iff_of_false (by simp) (ended rfl front rest)
  | case6 front l rest _ _ ih => simpa using ih

/-- There are no more segments than lexemes. -/
theorem length_segmentsFrom_le (front ls : List Lexeme) :
    (segmentsFrom front ls).length ≤
      ls.length + if front.all Lexeme.isGap then 0 else 1 := by
  fun_induction segmentsFrom front ls with
  | case1 => simp
  | case2 front filled => simp [filled]
  | case3 front rest ih =>
    simp only [List.all_nil, if_true] at ih
    simp only [List.length_cons]
    omega
  | case4 front opening rest gaps ih =>
    simp only [List.all_nil, if_true] at ih
    simp only [List.length_cons, gaps, if_true]
    omega
  | case5 front opening rest filled ih =>
    simp only [List.all_nil, if_true] at ih
    simp only [List.length_cons, if_neg filled]
    omega
  | case6 front l rest _ _ ih =>
    have one : (if (front ++ [l]).all Lexeme.isGap then 0 else 1) ≤ 1 := by split <;> omega
    rw [List.length_cons]
    omega

theorem isInfix_of_mem_segments {front ls segment : List Lexeme}
    (h : segment ∈ segmentsFrom front ls) : segment <:+: front ++ ls := by
  have behind {part ls : List Lexeme} (before : List Lexeme) (inside : part <:+: [] ++ ls) :
      part <:+: before ++ ls := inside.trans (List.suffix_append before ls).isInfix
  fun_induction segmentsFrom front ls with
  | case1 => cases h
  | case2 front _ =>
    obtain rfl := List.mem_singleton.1 h
    exact (List.prefix_append _ _).isInfix
  | case3 front rest ih =>
    rw [← List.singleton_append, ← List.append_assoc]
    rcases List.mem_cons.1 h with rfl | later
    · exact (List.prefix_append _ _).isInfix
    · exact behind _ (ih later)
  | case4 front opening rest _ ih =>
    rw [← List.singleton_append]
    rcases List.mem_cons.1 h with rfl | later
    · exact ⟨front, rest, by simp⟩
    · rw [← List.append_assoc]
      exact behind _ (ih later)
  | case5 front opening rest _ ih =>
    rw [← List.singleton_append]
    rcases List.mem_cons.1 h with rfl | later
    · exact (List.prefix_append _ _).isInfix
    rcases List.mem_cons.1 later with rfl | last
    · exact ⟨front, rest, by simp⟩
    · rw [← List.append_assoc]
      exact behind _ (ih last)
  | case6 front l rest _ _ ih => simpa using ih h

end UtilityCss.Css
