import UtilityCss.Proofs.Css.Declaration
import UtilityCss.Proofs.Css.Pending
import UtilityCss.Utility.Candidate

/-! Texts that are cut at a brace: the tokens in front of it and those behind it do not depend on
each other. In particular the selector of a class is one token, however it is escaped. -/
namespace UtilityCss.Css
open Text

theorem group_append_brace (pending : List Char) (ls : List Lexeme) (opening : Bool)
    (rest : List Lexeme) :
    group pending (ls ++ .brace opening :: rest) =
      group pending ls ++ [braceChar opening] :: group [] rest := by
  fun_induction group pending ls with
  | case1 pending blank => simp [group, blank]
  | case2 pending filled => simp [group, filled]
  | case3 pending rest' ih => simp [group, ih]
  | case4 pending first rest' blank ih => simp [group, blank, ih]
  | case5 pending first rest' filled ih => simp [group, filled, ih]
  | case6 pending c rest' ih => simpa [group] using ih
  | case7 pending body rest' ih => simpa [group] using ih
  | case8 pending l rest' notSemicolon notBrace notBlank notComment ih =>
    rw [List.cons_append, group]
    · exact ih
    all_goals assumption

/-- A text that leaves no string, comment or escape open in front of a brace. -/
def IsClosed (text : String) (opening : Bool) : Prop :=
  lexemes (text.toList ++ [braceChar opening]) = lexemes text.toList ++ [.brace opening]

instance decidableIsClosed (text : String) (opening : Bool) : Decidable (IsClosed text opening) :=
  inferInstanceAs (Decidable (_ = _))

theorem lexemes_nil : lexemes [] = [] := by rw [lexemes]

theorem lexemes_brace (opening : Bool) (rest : List Char) :
    lexemes (braceChar opening :: rest) = .brace opening :: lexemes rest :=
  (heads_brace opening rest).lexemes_eq

/-- The text of a brace as a token. -/
def braceText (opening : Bool) : String := String.ofList [braceChar opening]

theorem tokens_append_brace {front : String} {opening : Bool} (closed : IsClosed front opening)
    (behind : String) :
    tokens (front ++ braceText opening ++ behind) =
      tokens front ++ braceText opening :: tokens behind := by
  have text : (front ++ braceText opening ++ behind).toList =
      front.toList ++ braceChar opening :: behind.toList := by simp [braceText]
  have brace : lexemes [braceChar opening] = [.brace opening] := by
    rw [lexemes_brace, lexemes_nil]
  rw [tokens, text, lexemes_append (closed.trans (by rw [brace])), lexemes_brace,
    group_append_brace, List.map_append]
  rfl

/-- A character of a class name in a selector. -/
private def nameLexeme (c : Char) : Lexeme :=
  if c = ':' || c = '/' || c = '.' then .escape (some c) else .plain c

private theorem text_nameLexeme (c : Char) :
    (nameLexeme c).text = if c = ':' || c = '/' || c = '.' then ['\\', c] else [c] := by
  rw [nameLexeme]
  split <;> rfl

private theorem textOf_nameLexemes (name : String) :
    textOf (name.toList.map nameLexeme) = (Candidate.escape name).toList := by
  simp only [Candidate.escape, String.toList_ofList, textOf, List.flatMap_map, text_nameLexeme]

private theorem toNat_of_isPart {c : Char} (h : Candidate.isPart c = true) :
    45 ≤ c.toNat ∧ c.toNat ≤ 122 := by
  simp only [Candidate.isPart, Candidate.isStart, Bool.or_eq_true, Bool.and_eq_true,
    decide_eq_true_eq, beq_iff_eq, Char.le_def, UInt32.le_iff_toNat_le] at h
  have number : c.toNat = c.val.toNat := rfl
  rcases h with ((((⟨low, high⟩ | rfl) | ⟨low, high⟩) | rfl) | rfl) | rfl
  · have : 'a'.val.toNat = 97 ∧ 'z'.val.toNat = 122 := by decide
    omega
  · decide
  · have : '0'.val.toNat = 48 ∧ '9'.val.toNat = 57 := by decide
    omega
  · decide
  · decide
  · decide

theorem isBlank_of_isPart {c : Char} (h : Candidate.isPart c = true) : isBlank c = false := by
  have range := toNat_of_isPart h
  simp only [isBlank, Bool.or_eq_false_iff, Bool.and_eq_false_iff, decide_eq_false_iff_not,
    beq_eq_false_iff_ne]
  omega

theorem isOrdinary_of_isPart {c : Char} (h : Candidate.isPart c = true) : isOrdinary c = true :=
  isOrdinary_of_mem h (isBlank_of_isPart h) rfl

private theorem lexemes_name {name : List Char} (parts : ∀ c ∈ name, Candidate.isPart c = true)
    (rest : List Char) :
    lexemes (textOf (name.map nameLexeme) ++ rest) = name.map nameLexeme ++ lexemes rest := by
  induction name with
  | nil => rfl
  | cons c more ih =>
    obtain ⟨here, later⟩ := List.forall_mem_cons.1 parts
    rw [List.map_cons, textOf_cons, List.append_assoc, List.cons_append, ← ih later]
    rw [nameLexeme]
    split
    · exact (heads_escape c _).lexemes_eq
    · next plain =>
      have slash : c ≠ '/' := by
        rintro rfl
        exact plain rfl
      exact (heads_plain_iff.2 ⟨isOrdinary_of_isPart here, fun bad => slash bad.1⟩).lexemes_eq

private theorem isInk_nameLexeme (c : Char) : (nameLexeme c).IsInk := by
  rw [nameLexeme]
  split
  · next mark =>
    simp only [Bool.or_eq_true, decide_eq_true_eq] at mark
    rcases mark with (rfl | rfl) | rfl <;> rfl
  · trivial

section Selector

variable {name : String}

private theorem lexemes_selector (parts : ∀ c ∈ name.toList, Candidate.isPart c = true)
    (rest : List Char) :
    lexemes ((" ." ++ Candidate.escape name).toList ++ rest) =
      .blank ' ' :: .plain '.' :: name.toList.map nameLexeme ++ lexemes rest := by
  have text : (" ." ++ Candidate.escape name).toList ++ rest =
      (Lexeme.blank ' ').text ++ ((Lexeme.plain '.').text ++
        (textOf (name.toList.map nameLexeme) ++ rest)) := by
    rw [textOf_nameLexemes]
    simp [Lexeme.text]
  rw [text, (heads_space _).lexemes_eq,
    (heads_plain_iff.2 ⟨by decide, fun bad => absurd bad.1 (by decide)⟩).lexemes_eq,
    lexemes_name parts]
  rfl

/-- The selector of a class leaves nothing open in front of its block. -/
theorem isClosed_selector (parts : ∀ c ∈ name.toList, Candidate.isPart c = true) :
    IsClosed (" ." ++ Candidate.escape name ++ " ") true := by
  have space (rest : List Char) : lexemes (' ' :: rest) = .blank ' ' :: lexemes rest :=
    (heads_space rest).lexemes_eq
  rw [IsClosed, String.toList_append, List.append_assoc, lexemes_selector parts,
    lexemes_selector parts]
  change _ ++ lexemes (' ' :: [braceChar true]) = _ ++ lexemes [' '] ++ _
  rw [space, space, lexemes_brace, lexemes_nil, List.append_assoc]
  rfl

/-- The selector of a class is one token. -/
theorem tokens_selector (parts : ∀ c ∈ name.toList, Candidate.isPart c = true) :
    tokens (" ." ++ Candidate.escape name ++ " ") = ["." ++ Candidate.escape name] := by
  have text : ("." ++ Candidate.escape name).toList = '.' :: (Candidate.escape name).toList := by
    simp
  have solid : ∀ c ∈ ("." ++ Candidate.escape name).toList.reverse, isBlank c = false := by
    intro c member
    rw [List.mem_reverse, text] at member
    rcases List.mem_cons.1 member with rfl | inside
    · rfl
    · rcases Candidate.mem_escape inside with rfl | named
      · rfl
      · exact isBlank_of_isPart (parts c named)
  have read : group [] (lexemes (" ." ++ Candidate.escape name ++ " ").toList) =
      group (foldBlank (("." ++ Candidate.escape name).toList.reverse ++ [' '])) [] := by
    have space : lexemes " ".toList = [.blank ' '] := by decide +kernel
    have ink : ∀ l ∈ name.toList.map nameLexeme, l.IsInk :=
      List.forall_mem_map.2 fun c _ => isInk_nameLexeme c
    have names := group_append_ink ink ['.', ' '] [.blank ' ']
    rw [String.toList_append, lexemes_selector parts, space, text, List.reverse_cons,
      List.append_assoc]
    rw [textOf_nameLexemes] at names
    exact names
  have trimmed := trim_reverse_append [' '] [' '] (by simp; rfl) (by simp; rfl)
    (fun c last => solid c (List.mem_of_getLast? last))
    (fun c first => solid c (List.mem_of_head? first))
  rw [List.reverse_reverse] at trimmed
  have folded : foldBlank (("." ++ Candidate.escape name).toList.reverse ++ [' ']) =
      [' '] ++ ("." ++ Candidate.escape name).toList.reverse ++ [' '] := by
    cases reversed : ("." ++ Candidate.escape name).toList.reverse with
    | nil => simp [text] at reversed
    | cons c rest =>
      have ink : isBlank c = false := solid c (reversed ▸ List.mem_cons_self)
      simp [foldBlank, ink]
  rw [tokens, read, folded, group_nil trimmed (by simp [text]), List.map_singleton,
    String.ofList_toList]

end Selector

end UtilityCss.Css
