import UtilityCss.Proofs.Css.Spacing
import UtilityCss.Proofs.Sheet.Applied

/-! Statements that apply utilities as a source writes them, each name behind blanks and closed
comments. The statement is one token, in which single spaces are left between the names, and what
it is expanded to follows from the list of names alone. -/
namespace UtilityCss

namespace Text

private def blankCodes : List Nat :=
  [9, 10, 11, 12, 13, 28, 29, 30, 31, 32, 0x85, 0xa0, 0x1680, 0x2000, 0x2001, 0x2002, 0x2003,
    0x2004, 0x2005, 0x2006, 0x2007, 0x2008, 0x2009, 0x200a, 0x2028, 0x2029, 0x202f, 0x205f, 0x3000]

private theorem mem_blankCodes {c : Char} (h : isBlank c = true) : c.toNat ∈ blankCodes := by
  simp only [isBlank, Bool.or_eq_true, Bool.and_eq_true, decide_eq_true_eq, beq_iff_eq] at h
  simp only [blankCodes, List.mem_cons, List.not_mem_nil, or_false]
  omega

/-- No blank is a letter or a number. -/
theorem isWord_eq_false_of_isBlank {c : Char} (h : isBlank c = true) : isWord c = false := by
  have outside : ∀ n ∈ blankCodes, within wordRanges n = false := by decide +kernel
  have other : c ≠ '_' := by
    rintro rfl
    cases h
  rw [isWord, outside _ (mem_blankCodes h), Bool.or_false, beq_eq_false_iff_ne]
  exact other

end Text

namespace Sheet

open Css Text

theorem isBlank_of_isNamePart {c : Char} (h : isNamePart c = true) : isBlank c = false := by
  by_contra filled
  have blank : isBlank c = true := by simpa using filled
  have other (mark : Char) (no : isBlank mark = false) : c ≠ mark := by
    rintro rfl
    rw [no] at blank
    cases blank
  simp [isNamePart, isWord_eq_false_of_isBlank blank, other '-' rfl, other '/' rfl,
    other '.' rfl] at h

/-- A character of a name stands for itself in a style sheet. -/
theorem isOrdinary_of_isNamePart {c : Char} (h : isNamePart c = true) : isOrdinary c = true :=
  isOrdinary_of_mem h (isBlank_of_isNamePart h) rfl

/-- The names that a text lists, each of them behind a separator. -/
inductive Lists : List String → List Char → Prop
  | nil : Lists [] []
  | cons {name : String} {names : List String} {separator rest : List Char}
    (separated : IsSeparator separator) (isName : IsName name) (listed : Lists names rest) :
    Lists (name :: names) (separator ++ name.toList ++ rest)

/-- A source that applies a list of names. -/
def Applies (names : List String) (source : String) : Prop :=
  ∃ listed, Lists names listed ∧ source = "@apply" ++ String.ofList listed ++ ";"

/-- A source that is one token, for which the table fills in some declarations. -/
def Expands (table : RuleTable) (source css : String) : Prop :=
  ∃ token, tokens source = [token] ∧ expandApply table token = css

/-- The text that a list of names is read as. -/
private def spaced (names : List String) : List Char := (String.join (names.map (" " ++ ·))).toList

private theorem spaced_cons (name : String) (names : List String) :
    spaced (name :: names) = ' ' :: (name.toList ++ spaced names) := by
  simp [spaced]

private theorem toList_applyStatement (names : List String) :
    (applyStatement names).toList = "@apply".toList ++ spaced names ++ [';'] := by
  simp [applyStatement, spaced]

private theorem trim_applyStatement (names : List String) :
    trim (applyStatement names).toList = (applyStatement names).toList := by
  have text := toList_applyStatement names
  have sign : isBlank '@' = false := rfl
  have semicolon : isBlank ';' = false := rfl
  have trimmed : trim ([] ++ (applyStatement names).toList.reverse ++ []).reverse =
      (applyStatement names).toList.reverse.reverse :=
    trim_reverse_append [] [] (by simp) (by simp)
      (by rw [List.getLast?_reverse, text]; simp [sign]) (by simp [text, semicolon])
  simpa using trimmed

variable {names : List String} {listed : List Char} {source : String}

theorem Lists.isName (h : Lists names listed) : ∀ name ∈ names, IsName name := by
  induction h with
  | nil => simp
  | cons _ isName _ ih => exact List.forall_mem_cons.2 ⟨isName, ih⟩

/-- A list of names is read as the names with one space in front of each. -/
theorem Lists.exists_lexemes (h : Lists names listed) :
    ∃ ls, textOf ls = listed ∧ (∀ l ∈ ls, l.IsLoose) ∧
      ∀ (c : Char) (pending : List Char) (rest : List Lexeme), isBlank c = false →
        group (c :: pending) (ls ++ rest) =
          group ((spaced names).reverse ++ c :: pending) rest := by
  induction h with
  | nil => exact ⟨[], rfl, by simp, fun _ _ _ _ => rfl⟩
  | @cons name names separator listed separated isName _ ih =>
    obtain ⟨gaps, text, loose, isGap, filled⟩ := separated.exists_gaps
    obtain ⟨ls, text', loose', read⟩ := ih
    have parts : ∀ c ∈ name.toList, isNamePart c = true := List.all_eq_true.1 isName.parts
    have plain : ∀ l ∈ name.toList.map Lexeme.plain, l.IsLoose :=
      isLoose_plain (fun c hc => isOrdinary_of_isNamePart (parts c hc))
        fun star => absurd (parts _ star) (by decide)
    refine ⟨gaps ++ (name.toList.map .plain ++ ls), by simp [text, text', textOf_plain],
      List.forall_mem_append.2 ⟨loose, List.forall_mem_append.2 ⟨plain, loose'⟩⟩,
      fun c pending rest ink => ?_⟩
    -- The name is not empty, so that no blank is pending last in front of the next separator.
    obtain ⟨last, more, reversed⟩ : ∃ last more, name.toList.reverse = last :: more :=
      List.exists_cons_of_ne_nil (by simpa using mt String.toList_eq_nil_iff.1 isName.filled)
    have inkLast : isBlank last = false :=
      isBlank_of_isNamePart (parts last (List.mem_reverse.1 (reversed ▸ List.mem_cons_self)))
    rw [List.append_assoc, List.append_assoc, group_separator ink isGap filled, group_plain,
      reversed, List.cons_append, read _ _ _ inkLast, spaced_cons, ← List.cons_append, ← reversed]
    simp

/-- A source that applies some names is one token, with single spaces between the names. -/
theorem Applies.tokens_eq (h : Applies names source) : tokens source = [applyStatement names] := by
  obtain ⟨listed, isListed, rfl⟩ := h
  obtain ⟨ls, text, loose, read⟩ := isListed.exists_lexemes
  have word : ∀ l ∈ "@apply".toList.map Lexeme.plain, l.IsLoose :=
    isLoose_plain (List.all_eq_true.1 (by decide)) (by decide)
  have readable : Readable ("@apply".toList.map .plain ++ (ls ++ [.semicolon])) := by
    refine readable_of_isLoose ?_
    simp only [List.forall_mem_append, List.forall_mem_singleton]
    exact ⟨word, loose, isLoose_semicolon⟩
  have cut : lexemes ("@apply" ++ String.ofList listed ++ ";").toList =
      "@apply".toList.map .plain ++ (ls ++ [.semicolon]) := by
    rw [← readable.lexemes_textOf]
    simp [text, Lexeme.text]
  have begun : group [] ("@apply".toList.map .plain ++ (ls ++ [.semicolon])) =
      group ('y' :: "lppa@".toList) (ls ++ [.semicolon]) := group_plain _ _ _
  have whole : (';' :: ((spaced names).reverse ++ 'y' :: "lppa@".toList)).reverse =
      (applyStatement names).toList := by
    rw [toList_applyStatement]
    simp
  rw [tokens, cut, begun, read _ _ _ rfl, group, whole, trim_applyStatement]
  simp [group]

/-- Names without rule contribute nothing. -/
theorem join_declarationsOf_eq (table : RuleTable) (names : List String) :
    String.join (names.map (declarationsOf table)) =
      String.join ((names.filterMap table.get?).map Rule.css) := by
  induction names with
  | nil => rfl
  | cons name rest ih =>
    rw [List.map_cons, String.join_cons, ih, declarationsOf]
    cases found : table.get? name with
    | none => rw [List.filterMap_cons_none found, String.empty_append]
    | some rule => rw [List.filterMap_cons_some found, List.map_cons, String.join_cons]

theorem Applies.expandApply_eq (h : Applies names source) (table : RuleTable) :
    expandApply table (applyStatement names) =
      String.join ((names.filterMap table.get?).map Rule.css) := by
  obtain ⟨_, isListed, rfl⟩ := h
  rw [expandApply_applyStatement isListed.isName, join_declarationsOf_eq]

theorem Applies.expands (h : Applies names source) (table : RuleTable) :
    Expands table source (String.join ((names.filterMap table.get?).map Rule.css)) :=
  ⟨_, h.tokens_eq, h.expandApply_eq table⟩

/-- A source that applies some names is one token, whatever blanks and closed comments separate the
names; the names stand in it as they are, with single spaces. It is expanded to the declarations of
those names that have a rule, in the order of the list and as often as they are listed. So a list is
expanded to what its front and its back are expanded to, and a name without rule may be left out. -/
theorem expands_of_applies (table : RuleTable) (h : Applies names source) :
    (tokens source = [applyStatement names] ∧
      expandApply table (applyStatement names) =
        String.join ((names.filterMap table.get?).map Rule.css)) ∧
    (∀ xs ys left right, names = xs ++ ys → Applies xs left → Applies ys right →
      ∃ css css', Expands table left css ∧ Expands table right css' ∧
        Expands table source (css ++ css')) ∧
    ∀ xs name ys shorter, names = xs ++ name :: ys → table.get? name = none →
      Applies (xs ++ ys) shorter → ∃ css, Expands table shorter css ∧ Expands table source css := by
  refine ⟨⟨h.tokens_eq, h.expandApply_eq table⟩, fun xs ys left right split first second => ?_,
    fun xs name ys shorter split unknown less => ?_⟩
  · have whole := h.expands table
    rw [split, List.filterMap_append, List.map_append, String.join_append] at whole
    exact ⟨_, _, first.expands table, second.expands table, whole⟩
  · have whole := h.expands table
    rw [split, List.filterMap_append, List.filterMap_cons_none unknown,
      ← List.filterMap_append] at whole
    exact ⟨_, less.expands table, whole⟩

private def halves : RuleTable :=
  .ofList [("a/", { css := "x:1;" }), ("/b", { css := "y:2;" }), ("m-0.5", { css := "z:3;" })]

/-- Slashes next to the marks of comments, a name without rule, and a name that is listed twice. -/
theorem expands_of_applies_slashes :
    Applies ["a/", "/b", "m-0.5", "nope", "a/"] "@apply /*;'*/a//**//b\n m-0.5/*/*/nope\ta/;" ∧
    tokens "@apply /*;'*/a//**//b\n m-0.5/*/*/nope\ta/;" = ["@apply a/ /b m-0.5 nope a/;"] ∧
    expandApply halves "@apply a/ /b m-0.5 nope a/;" = "x:1;y:2;z:3;x:1;" := by
  have blank (c : Char) (h : isBlank c = true) : IsSeparator [c] := .blank h
  have first : IsSeparator " /*;'*/".toList :=
    .append (blank ' ' rfl) (@IsSeparator.comment [';', '\''] (by decide))
  have empty : IsSeparator "/**/".toList := @IsSeparator.comment [] (by decide)
  have line : IsSeparator "\n ".toList := .append (blank '\n' rfl) (blank ' ' rfl)
  have slash : IsSeparator "/*/*/".toList := @IsSeparator.comment ['/'] (by decide)
  have listed : Lists ["a/", "/b", "m-0.5", "nope", "a/"] _ :=
    .cons first ⟨by decide, by decide⟩ <| .cons empty ⟨by decide, by decide⟩ <|
      .cons line ⟨by decide, by decide⟩ <| .cons slash ⟨by decide, by decide⟩ <|
        .cons (blank '\t' rfl) ⟨by decide, by decide⟩ .nil
  have applies : Applies ["a/", "/b", "m-0.5", "nope", "a/"]
      "@apply /*;'*/a//**//b\n m-0.5/*/*/nope\ta/;" := ⟨_, listed, by decide⟩
  obtain ⟨⟨one, css⟩, -⟩ := expands_of_applies halves applies
  exact ⟨applies, one, css.trans (by simp [halves, RuleTable.ofList, RuleTable.get?_put])⟩

end Sheet

end UtilityCss
