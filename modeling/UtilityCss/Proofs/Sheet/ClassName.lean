import UtilityCss.Proofs.Css.Brace
import UtilityCss.Proofs.Sheet.Applied
import UtilityCss.Proofs.Sheet.Failure
import UtilityCss.Proofs.Sheet.Ledger
import UtilityCss.Proofs.Utility.Words

/-! The name under which an authored utility is registered, and the name by which candidates and
statements look for it. -/
namespace UtilityCss

namespace Candidate

theorem escape_eq {name : String} (parts : name.toList.all isNamePart = true)
    (noSlash : '/' ∉ name.toList) (noDot : '.' ∉ name.toList) : escape name = name := by
  have single : ∀ c ∈ name.toList,
      (if c = ':' || c = '/' || c = '.' then ['\\', c] else [c]) = [c] := by
    intro c member
    have noColon : c ≠ ':' := fun same => colon_not_mem parts (same ▸ member)
    have noSlash : c ≠ '/' := fun same => noSlash (same ▸ member)
    have noDot : c ≠ '.' := fun same => noDot (same ▸ member)
    rw [if_neg (by simp [noColon, noSlash, noDot])]
  rw [escape, List.flatMap_def, List.map_congr_left single, ← List.flatMap_def]
  simp

/-- A slash or a dot leaves its backslash in the name. -/
theorem backslash_mem_escape {name : String} (marked : '/' ∈ name.toList ∨ '.' ∈ name.toList) :
    '\\' ∈ (escape name).toList := by
  rw [escape, String.toList_ofList, List.mem_flatMap]
  rcases marked with slash | dot
  · exact ⟨'/', slash, by decide⟩
  · exact ⟨'.', dot, by decide⟩

theorem escape_ne {name : String} (parts : name.toList.all isNamePart = true)
    (marked : '/' ∈ name.toList ∨ '.' ∈ name.toList) : escape name ≠ name := by
  intro same
  have backslash := backslash_mem_escape marked
  rw [same] at backslash
  exact absurd (List.all_eq_true.1 parts _ backslash) (by decide)

end Candidate

namespace Utility

variable {table : RuleTable} {breakpoints : Breakpoints} {className : String}

/-- Only the rule for the name behind the modifiers counts. -/
theorem resolve?_put_of_ne {name : String} {rule : Rule}
    (h : (splitModifiers className).2 ≠ name) :
    resolve? (table.put name rule) breakpoints className =
      resolve? table breakpoints className := by
  simp only [resolve?, RuleTable.get?_put, if_neg h, RuleTable.position?_put_of_ne h]

theorem exists_resolve?_put (name : String) (rule : Rule) (breakpoints : Breakpoints)
    (named : (splitModifiers className).2 = name) :
    ∃ u, resolve? (table.put name rule) breakpoints className = some u ∧ u.css = rule.css ∧
      u.specificity = rule.specificity := by
  obtain ⟨i, found⟩ : ∃ i, (table.put name rule).position? name = some i :=
    RuleTable.exists_position?_put
  simp [resolve?, named, RuleTable.get?_put, found]

end Utility

namespace Sheet

/-- A name of a class that a source can have. -/
structure IsClassName (name : String) : Prop where
  parts : name.toList.all Candidate.isNamePart = true
  first : name.toList.head?.any Candidate.isStart = true

/-- What can stand between the braces of a block: nothing in it reaches over the brace behind it,
and every block in it is closed. -/
structure IsBlock (content : String) : Prop where
  closed : Css.IsClosed content false
  balanced : nest? 0 (Css.tokens content) = some 0

/-- A layer with one utility, its name escaped as in a selector. -/
def authoredText (name content : String) : String :=
  "@layer utilities \x7b ." ++ Candidate.escape name ++ " \x7b" ++ content ++ "\x7d \x7d"

/-- The tokens of the layer. -/
def authoredTokens (name content : String) : List String :=
  ["@layer utilities", "\x7b"] ++
    (("." ++ Candidate.escape name) :: "\x7b" :: Css.tokens content ++ ["\x7d"]) ++ ["\x7d"]

variable {name content : String}

theorem IsClassName.isPart (h : IsClassName name) : ∀ c ∈ name.toList, Candidate.isPart c = true :=
  fun c member => Candidate.isPart_of_isNamePart (List.all_eq_true.1 h.parts c member)

/-- The escaped name starts with no dot. -/
theorem IsClassName.head_escape_ne (h : IsClassName name) :
    (Candidate.escape name).toList.head? ≠ some '.' := by
  obtain ⟨c, start, first⟩ := (Option.any_eq_true _ _).1 h.first
  obtain ⟨rest, split⟩ := List.head?_eq_some_iff.1 start
  obtain ⟨d, more, escaped, same⟩ := Candidate.exists_toList_escape split
  rw [escaped, List.head?_cons]
  intro dot
  cases dot
  rw [first] at same
  cases same

/-- The text of the layer, cut at its braces. -/
private theorem cut_authored (escaped content : String) :
    "@layer utilities \x7b ." ++ escaped ++ " \x7b" ++ content ++ "\x7d \x7d" =
      "@layer utilities " ++ Css.braceText true ++ (" ." ++ escaped ++ " " ++
        Css.braceText true ++ (content ++ Css.braceText false ++
          (" " ++ Css.braceText false ++ ""))) := by
  have front : "@layer utilities \x7b ." = "@layer utilities " ++ Css.braceText true ++ " ." := by
    decide +kernel
  have middle : " \x7b" = " " ++ Css.braceText true := by decide +kernel
  have behind : "\x7d \x7d" = Css.braceText false ++ (" " ++ Css.braceText false ++ "") := by
    decide +kernel
  rw [front, middle, behind]
  simp only [String.append_assoc]

theorem tokens_authoredText (named : IsClassName name) (block : IsBlock content) :
    Css.tokens (authoredText name content) = authoredTokens name content := by
  have layer : Css.IsClosed "@layer utilities " true := by decide +kernel
  have gap : Css.IsClosed " " false := by decide +kernel
  have word : Css.tokens "@layer utilities " = ["@layer utilities"] := by decide +kernel
  have blank : Css.tokens " " = [] := by decide +kernel
  have nothing : Css.tokens "" = [] := by decide +kernel
  have text : authoredText name content = _ := cut_authored (Candidate.escape name) content
  rw [text, Css.tokens_append_brace layer, Css.tokens_append_brace
    (Css.isClosed_selector named.isPart), Css.tokens_append_brace block.closed,
    Css.tokens_append_brace gap, Css.tokens_selector named.isPart, word, blank, nothing]
  have opening : Css.braceText true = "\x7b" := rfl
  have closing : Css.braceText false = "\x7d" := rfl
  simp [authoredTokens, opening, closing]

variable {table : RuleTable} {file : Path} {importSheet : String → Path → Pass → Outcome String}

/-- The rule that the layer registers, with the rules of a table filled in. -/
def authoredRule (table : RuleTable) (content : String) : Rule :=
  { css := String.join ((Css.tokens content).map (expandApply table)), specificity := 1 }

/-- The layer is processed to its end wherever it stands, and its utility is registered under the
escaped name. -/
theorem runTokens_authoredTokens (named : IsClassName name) (block : IsBlock content)
    (fills : ∀ t ∈ Css.tokens content, NotBrace t → NotBrace (expandApply table t))
    (base : Option String) (opened : List String) (out : String) (behind : List String) :
    runTokens file importSheet (authoredTokens name content ++ behind) .statements out
        ⟨table, base, opened⟩ =
      runTokens file importSheet behind .statements out
        ⟨table.put (Candidate.escape name) (authoredRule table content), base, opened⟩ := by
  have nested : nest? 0 ((Css.tokens content).map (expandApply table)) = some 0 := by
    rw [nest?_expandApply fills, block.balanced]
  have closes : expandApply table "\x7d" = "\x7d" := expandApply_of_head (by decide) table
  have entered : Position.run? file importSheet ⟨.entries 0, out, ⟨table, base, opened⟩⟩
      (("." ++ Candidate.escape name) :: "\x7b" :: Css.tokens content ++ ["\x7d"]) = _ :=
    Position.run?_entry nested closes (Candidate.escape name) 0 out
  rw [if_neg named.head_escape_ne] at entered
  have reached : Position.run? file importSheet ⟨.statements, out, ⟨table, base, opened⟩⟩
      (authoredTokens name content) = some ⟨.statements, out,
        ⟨table.put (Candidate.escape name) (authoredRule table content), base, opened⟩⟩ := by
    rw [authoredTokens, Position.run?_append, Position.run?_append, Position.run?_layerOpening,
      Option.bind_some, entered, Option.bind_some, Position.run?_layerClosing]
    rfl
  exact runTokens_of_run? reached behind

/-- No entry for the name is being read. -/
def Mode.Spares (mode : Mode) (name : String) : Prop :=
  ∀ selector, mode.selector? = some selector → entryName selector ≠ name

theorem spares_statements (name : String) : Mode.statements.Spares name :=
  fun _ none => by cases none

/-- A token other than the selector of a name leaves its rule as it is. -/
private theorem get?_stepped {kept t text : String} {mode next : Mode} {pass after : Pass}
    (stepped : Stepped file t mode pass after (.ok (next, text))) (spares : mode.Spares kept)
    (other : t ≠ "." ++ kept) :
    after.table.get? kept = pass.table.get? kept ∧ next.Spares kept := by
  cases stepped with
  | base token => exact ⟨by rw [baseLayer_table], spares_statements kept⟩
  | layer | statement | layerOpens | layerCloses => exact ⟨rfl, fun _ none => by cases none⟩
  | entry stays dot =>
    refine ⟨rfl, fun selector same named => other ?_⟩
    cases same
    rw [← named, selector_eq_of_head? dot]
  | bodyOpens | blockCloses | blockOpens | text => exact ⟨rfl, spares⟩
  | registers =>
    refine ⟨?_, fun _ none => by cases none⟩
    rw [RuleTable.get?_put, if_neg (spares _ rfl).symm]

/-- The tokens of a file in which a name has no entry leave its rule as it is, if the imports do. -/
theorem get?_runTokens {kept : String}
    (imports : ∀ t child pass after text, importSheet t child pass = (after, .ok text) →
      after.table.get? kept = pass.table.get? kept)
    {tokens : List String} {mode : Mode} {out text : String} {pass after : Pass}
    (spares : mode.Spares kept) (unnamed : "." ++ kept ∉ tokens)
    (h : runTokens file importSheet tokens mode out pass = (after, .ok text)) :
    after.table.get? kept = pass.table.get? kept := by
  induction tokens generalizing mode out pass with
  | nil =>
    rw [runTokens_nil] at h
    cases closed : mode.endFault? with
    | none =>
      rw [closed] at h
      cases h
      rfl
    | some cause =>
      rw [closed] at h
      cases h
  | cons t rest ih =>
    obtain ⟨other, later⟩ := not_or.1 (mt List.mem_cons.2 unnamed)
    cases path : inlined? mode t with
    | some relative =>
      rw [runTokens_import path] at h
      cases loaded : importSheet t (file.beside relative) pass with
      | mk between result =>
        rw [loaded] at h
        cases result with
        | error failure => cases h
        | ok inner =>
          rw [ih (spares_statements kept) later h]
          exact imports t _ pass between inner loaded
    | none =>
      rw [runTokens_step path] at h
      cases moved : step file t mode pass with
      | mk between result =>
        rw [moved] at h
        cases result with
        | error failure => cases h
        | ok reached =>
          obtain ⟨same, spares'⟩ := get?_stepped (stepped_of_step moved) spares (Ne.symm other)
          rw [ih spares' later h, same]

/-- A load leaves the rule of a name as it is that no sheet has an entry for. -/
theorem get?_load {kept : String} {files : SheetFiles} {bound : Nat} {p : Path}
    {inProgress : List Path} {fresh : p ∉ inProgress}
    {enough : files.unread inProgress ≤ bound} {pass after : Pass} {text : String}
    (unnamed : ∀ q css, q ∉ inProgress → files.read q = .ok css → "." ++ kept ∉ Css.tokens css)
    (h : load files bound p inProgress fresh enough pass = (after, .ok text)) :
    after.table.get? kept = pass.table.get? kept := by
  induction bound generalizing p inProgress pass after text with
  | zero =>
    cases found : files.read p with
    | error problem =>
      rw [load_of_error found] at h
      cases h
    | ok css =>
      obtain ⟨_, impossible⟩ := exists_bound found fresh enough
      cases impossible
  | succ bound ih =>
    cases found : files.read p with
    | error problem =>
      rw [load_of_error found] at h
      cases h
    | ok css =>
      rw [load_of_ok found] at h
      have same := get?_runTokens ?_ (spares_statements kept) (unnamed p css fresh found) h
      · exact same
      · intro t child between after inner loaded
        split at loaded
        · cases loaded
        · exact ih (fun q css outside => unnamed q css (mt (List.mem_cons_of_mem p) outside)) loaded

/-- A pass over a file that begins with the layer. -/
theorem get?_run {files : SheetFiles} {root : Path} {base css text : String} {last : Pass}
    {behind : List String} (named : IsClassName name) (block : IsBlock content)
    (fills : ∀ t ∈ Css.tokens content, NotBrace t → NotBrace (expandApply table t))
    (found : files.read root = .ok css)
    (begins : Css.tokens css = authoredTokens name content ++ behind)
    (unnamed : "." ++ Candidate.escape name ∉ behind)
    (elsewhere : ∀ q css, q ≠ root → files.read q = .ok css →
      "." ++ Candidate.escape name ∉ Css.tokens css)
    (h : run files root base table = (last, .ok text)) :
    last.table.get? (Candidate.escape name) = some (authoredRule table content) := by
  have loaded {bound : Nat} (enough : files.unread [] ≤ bound)
      (h : load files bound root [] List.not_mem_nil enough { table, base := some base } =
        (last, .ok text)) :
      last.table.get? (Candidate.escape name) = some (authoredRule table content) := by
    obtain ⟨less, rfl⟩ := exists_bound found List.not_mem_nil enough
    rw [load_of_ok found, begins, runTokens_authoredTokens named block fills] at h
    rw [get?_runTokens ?_ (spares_statements _) unnamed h, RuleTable.get?_put, if_pos rfl]
    intro t child between after inner loaded
    split at loaded
    · cases loaded
    · exact get?_load (fun q css outside => elsewhere q css (by simpa using outside)) loaded
  exact loaded _ h

theorem isWord_of_range {c : Char}
    (h : 48 ≤ c.toNat ∧ c.toNat ≤ 57 ∨ 97 ≤ c.toNat ∧ c.toNat ≤ 122) : Text.isWord c = true := by
  have ranges : Text.wordRanges =
      (0x30, 0x39) :: (0x41, 0x5a) :: (0x61, 0x7a) :: Text.wordRanges.drop 3 := rfl
  rw [Text.isWord, ranges, Text.within, Text.within, Text.within, Bool.or_eq_true]
  right
  rcases h with ⟨low, high⟩ | ⟨low, high⟩
  · rw [if_neg (by omega), if_pos (by omega)]
  · rw [if_neg (by omega), if_neg (by omega), if_neg (by omega), if_neg (by omega),
      if_neg (by omega), if_pos (by omega)]

/-- The name of a class can be applied. -/
theorem IsClassName.isName (h : IsClassName name) : IsName name := by
  refine ⟨?_, List.all_eq_true.2 fun c member => ?_⟩
  · rintro rfl
    exact absurd h.first (by decide)
  · have part := List.all_eq_true.1 h.parts c member
    simp only [Candidate.isNamePart, Candidate.isPart, Candidate.isStart, Bool.or_eq_true,
      Bool.and_eq_true, decide_eq_true_eq, beq_iff_eq, bne_iff_ne, Char.le_def,
      UInt32.le_iff_toNat_le] at part
    have number : c.toNat = c.val.toNat := rfl
    have bounds : 'a'.val.toNat = 97 ∧ 'z'.val.toNat = 122 ∧ '0'.val.toNat = 48 ∧
        '9'.val.toNat = 57 := by decide
    obtain ⟨((((letter | rfl) | digit) | colon) | rfl) | rfl, noColon⟩ := part
    · simp [isNamePart, isWord_of_range (c := c) (by omega)]
    · decide
    · simp [isNamePart, isWord_of_range (c := c) (by omega)]
    · exact absurd colon noColon
    · decide
    · decide

theorem splitModifiers_name (named : IsClassName name) :
    (Utility.splitModifiers name).2 = name := by
  rw [Utility.splitModifiers, Text.fields_of_not_mem (Candidate.colon_not_mem named.parts)]
  rfl

/-- What another name is applied for does not change. -/
theorem expandApply_put_of_ne {other : String} (isName : IsName name) (h : name ≠ other)
    (rule : Rule) :
    expandApply (table.put other rule) (applyStatement [name]) =
      expandApply table (applyStatement [name]) := by
  have names : ∀ n ∈ [name], IsName n := List.forall_mem_singleton.2 isName
  rw [expandApply_applyStatement names, expandApply_applyStatement names, List.map_singleton,
    List.map_singleton, declarationsOf, RuleTable.get?_put, if_neg h, ← declarationsOf]

theorem expandApply_put_self (isName : IsName name) (rule : Rule) :
    expandApply (table.put name rule) (applyStatement [name]) = rule.css := by
  rw [expandApply_applyStatement (List.forall_mem_singleton.2 isName), List.map_singleton,
    declarationsOf, RuleTable.get?_put, if_pos rfl, String.join_cons, String.join_nil,
    String.append_empty]

/-- A layer with one utility is processed to its end, wherever it stands, and registers the rule of
its block under the escaped name; no entry for another name takes the rule away again. A name
without slash and dot is its own escaped form: the rule is found under it by candidates and by
statements that apply it, whatever rule it had before. Under every other name nothing is found that
was not there before. -/
theorem rule_of_authored (named : IsClassName name) (block : IsBlock content)
    (fills : ∀ t ∈ Css.tokens content, NotBrace t → NotBrace (expandApply table t)) :
    let rule := authoredRule table content
    let after := table.put (Candidate.escape name) rule
    Css.tokens (authoredText name content) = authoredTokens name content ∧
    (∀ file importSheet base opened out behind,
      runTokens file importSheet (authoredTokens name content ++ behind) .statements out
          ⟨table, base, opened⟩ =
        runTokens file importSheet behind .statements out ⟨after, base, opened⟩) ∧
    (∀ files root base, files.read root = .ok (authoredText name content) →
      run files root base table = (⟨after, some base, [root.text]⟩, .ok "")) ∧
    (∀ files root base css behind last text, files.read root = .ok css →
      Css.tokens css = authoredTokens name content ++ behind →
      "." ++ Candidate.escape name ∉ behind →
      (∀ q css, q ≠ root → files.read q = .ok css →
        "." ++ Candidate.escape name ∉ Css.tokens css) →
      run files root base table = (last, .ok text) →
      last.table.get? (Candidate.escape name) = some rule) ∧
    (Utility.splitModifiers name).2 = name ∧
    ('/' ∉ name.toList → '.' ∉ name.toList →
      Candidate.escape name = name ∧ after.get? name = some rule ∧
      expandApply after (applyStatement [name]) = rule.css ∧
      ∀ breakpoints className, (Utility.splitModifiers className).2 = name →
        ∃ u, Utility.resolve? after breakpoints className = some u ∧ u.css = rule.css ∧
          u.specificity = rule.specificity) ∧
    ('/' ∈ name.toList ∨ '.' ∈ name.toList →
      Candidate.escape name ≠ name ∧ after.get? name = table.get? name ∧
      expandApply after (applyStatement [name]) = expandApply table (applyStatement [name]) ∧
      ∀ breakpoints className, (Utility.splitModifiers className).2 = name →
        Utility.resolve? after breakpoints className =
          Utility.resolve? table breakpoints className) := by
  intro rule after
  refine ⟨tokens_authoredText named block, fun _ _ base opened out behind =>
    runTokens_authoredTokens named block fills base opened out behind, ?_, ?_,
    splitModifiers_name named, ?_, ?_⟩
  · intro files root base found
    obtain ⟨importSheet, whole⟩ := exists_runTokens_of_read found base table
    rw [whole, tokens_authoredText named block, ← List.append_nil (authoredTokens name content),
      runTokens_authoredTokens named block fills, runTokens_nil]
    rfl
  · intro files root base css behind last text found begins unnamed elsewhere done
    exact get?_run named block fills found begins unnamed elsewhere done
  · intro noSlash noDot
    have same : Candidate.escape name = name := Candidate.escape_eq named.parts noSlash noDot
    have table' : after = table.put name rule := congrArg (table.put · rule) same
    rw [table']
    refine ⟨same, ?_, expandApply_put_self named.isName rule, fun breakpoints className base =>
      Utility.exists_resolve?_put name rule breakpoints base⟩
    rw [RuleTable.get?_put, if_pos rfl]
  · intro marked
    have differs := Candidate.escape_ne named.parts marked
    refine ⟨differs, ?_, expandApply_put_of_ne named.isName differs.symm rule,
      fun breakpoints className base => Utility.resolve?_put_of_ne ?_⟩
    · rw [RuleTable.get?_put, if_neg differs.symm]
    · rw [base]
      exact differs.symm

/-- A table with a rule that was generated. -/
private def generated : RuleTable := .ofList [("p-4", { css := "padding: 1rem;" })]

private def hovered : String := " color: red; &:hover \x7b color: blue; \x7d "

private def overriding : SheetFiles := .ofList [(.ofText "index.css", authoredText "p-4" hovered)]

theorem rule_of_authored_overriding :
    ∃ after, (run overriding (.ofText "index.css") "" generated) =
        (⟨after, some "", ["index.css"]⟩, .ok "") ∧
      after.get? "p-4" =
        some { css := "color: red;&:hover\x7bcolor: blue;\x7d", specificity := 1 } ∧
      expandApply after "@apply p-4;" = "color: red;&:hover\x7bcolor: blue;\x7d" ∧
      ∃ u, Utility.resolve? after [] "hover:p-4" = some u ∧
        u.css = "color: red;&:hover\x7bcolor: blue;\x7d" := by
  have named : IsClassName "p-4" := ⟨by decide, by decide⟩
  have block : IsBlock hovered := ⟨by decide +kernel, by decide +kernel⟩
  have whole (name : String) : NotBrace (declarationsOf generated name) := by
    have found : generated.get? name = if name = "p-4" then some { css := "padding: 1rem;" } else
        RuleTable.empty.get? name := RuleTable.get?_put _ _ _ _
    rw [declarationsOf, found, RuleTable.get?_empty]
    split
    · next same =>
      split at same
      · cases same
        exact ⟨by decide, by decide⟩
      · cases same
    · exact ⟨by decide, by decide⟩
  have css : (authoredRule generated hovered).css = "color: red;&:hover\x7bcolor: blue;\x7d" := by
    decide +kernel
  obtain ⟨-, -, alone, -, -, plain, -⟩ :=
    rule_of_authored named block fun t _ => notBrace_expandApply (t := t) whole
  obtain ⟨same, found, applied, resolved⟩ := plain (by decide) (by decide)
  obtain ⟨u, here, declared, -⟩ := resolved [] "hover:p-4" (by decide +kernel)
  refine ⟨_, alone overriding _ "" ?_, ?_, ?_, u, here, declared.trans css⟩
  · decide +kernel
  · rw [found, authoredRule, ← css]
    rfl
  · rw [← css, ← applied]
    rfl

private def halved : SheetFiles := .ofList
  [(.ofText "index.css", "@layer utilities \x7b .w-1\\/2 \x7b width:50%; \x7d \x7d")]

/-- The slash of the name is escaped in its selector, and the rule is not found under the name. -/
theorem get?_halved :
    authoredText "w-1/2" " width:50%; " =
        "@layer utilities \x7b .w-1\\/2 \x7b width:50%; \x7d \x7d" ∧
      (run halved (.ofText "index.css") "" .empty).2.toOption = some "" ∧
      (run halved (.ofText "index.css") "" .empty).1.table.names = ["w-1\\/2"] ∧
      (run halved (.ofText "index.css") "" .empty).1.table.get? "w-1/2" = none := by
  refine ⟨?_, ?_, ?_, ?_⟩
  all_goals decide +kernel

end Sheet

end UtilityCss
