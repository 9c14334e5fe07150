import UtilityCss.Proofs.Css.Declaration
import UtilityCss.Proofs.Sheet.Inlining
import UtilityCss.Proofs.Sheet.Position

/-! Blocks that apply authored utilities, and the declarations that are written for them. -/
namespace UtilityCss.Sheet

open Css (Declaration written statements)

/-- A name that a statement can apply. -/
structure IsName (name : String) : Prop where
  filled : name ≠ ""
  parts : name.toList.all isNamePart = true

/-- A utility as a layer of utilities authors it, with plain declarations and under a name that can
be applied. -/
structure Authored where
  name : String
  isName : IsName name
  body : List Declaration

/-- The tokens of the entry. -/
def Authored.tokens (u : Authored) : List String :=
  ("." ++ u.name) :: "\x7b" :: u.body.map Declaration.token ++ ["\x7d"]

/-- The tokens `start` have led from `p` to `q` by way of the entry of the utility, and the rule
that it has registered is still in force. -/
inductive Authored.Defined (file : Path) (importSheet : String → Path → Pass → Outcome String)
    (u : Authored) : (start : List String) → (p q : Position) → Prop
  | entry {before behind : List String} {count : Nat} {out : String} {pass : Pass}
    {p registered q : Position}
    (reached : p.run? file importSheet before = some ⟨.entries count, out, pass⟩)
    (entered : Position.run? file importSheet ⟨.entries count, out, pass⟩ u.tokens =
      some registered)
    (later : registered.run? file importSheet behind = some q)
    (kept : q.pass.table.get? u.name = registered.pass.table.get? u.name) :
    Defined file importSheet u (before ++ u.tokens ++ behind) p q

/-- The statement that applies some utilities. -/
def applyStatement (names : List String) : String :=
  "@apply" ++ String.join (names.map (" " ++ ·)) ++ ";"

/-- The tokens of a block that applies some utilities in front of declarations of its own. -/
def applyingBlock (selector : String) (utilities : List Authored) (own : List Declaration) :
    List String :=
  selector :: "\x7b" :: applyStatement (utilities.map (·.name)) ::
    own.map Declaration.token ++ ["\x7d"]

variable {file : Path} {importSheet : String → Path → Pass → Outcome String}

theorem isContent_token (d : Declaration) : IsContent d.token := by
  have filled := mt String.toList_eq_nil_iff.1 d.isDeclaration.ne_empty
  obtain ⟨c, rest, text⟩ := List.exists_cons_of_ne_nil filled
  obtain ⟨behind, token⟩ := d.exists_token_eq
  have head : d.token.toList = c :: (rest ++ behind.toList) := by simp [token, text]
  have noBrace : ∀ opening, c ≠ Css.braceChar opening := by
    rintro opening rfl
    refine d.isDeclaration.noBrace opening ?_
    rw [text, Css.lexemes]
    cases opening <;> simp [Css.firstLexeme, Css.braceChar]
  constructor
  · have noRule := d.isDeclaration.noRule
    rw [text] at noRule
    rw [head]
    exact noRule
  · intro same
    have opens : c = '\x7b' := by simpa [head] using congrArg (·.toList.head?) same
    exact noBrace true opens
  · intro same
    have closes : c = '\x7d' := by simpa [head] using congrArg (·.toList.head?) same
    exact noBrace false closes

theorem isContent_tokens (ds : List Declaration) : ∀ t ∈ ds.map Declaration.token, IsContent t := by
  intro t inside
  obtain ⟨d, -, rfl⟩ := List.mem_map.1 inside
  exact isContent_token d

/-- The pass behind the entry of a utility at the given place of its layer. -/
def Authored.register (u : Authored) (specificity : Nat) (pass : Pass) : Pass :=
  { pass with table := pass.table.put u.name { css := written u.body, specificity } }

theorem Authored.run?_tokens (u : Authored) (count : Nat) (out : String) (pass : Pass) :
    Position.run? file importSheet ⟨.entries count, out, pass⟩ u.tokens =
      if u.name.toList.head? = some '.' then none
      else some ⟨.entries (count + 1), out, u.register (count + 1) pass⟩ := by
  obtain ⟨same, nested⟩ := nest?_content (isContent_tokens u.body) pass.table 0
  have closes : expandApply pass.table "\x7d" = "\x7d" := expandApply_of_head (by decide) _
  have entered : Position.run? file importSheet ⟨.entries count, out, pass⟩ u.tokens = _ :=
    Position.run?_entry (same.symm ▸ nested) closes u.name count out
  rw [same] at entered
  exact entered

theorem Authored.Defined.declarationsOf_eq {u : Authored} {start : List String} {p q : Position}
    (h : u.Defined file importSheet start p q) :
    declarationsOf q.pass.table u.name = written u.body := by
  obtain ⟨reached, entered, later, kept⟩ := h
  rw [u.run?_tokens] at entered
  split at entered
  · cases entered
  · cases entered
    rw [declarationsOf, kept, Authored.register, RuleTable.get?_put, if_pos rfl]

theorem join_declarationsOf {table : RuleTable} {utilities : List Authored}
    (h : ∀ u ∈ utilities, declarationsOf table u.name = written u.body) :
    String.join ((utilities.map (·.name)).map (declarationsOf table)) =
      written (utilities.flatMap (·.body)) := by
  induction utilities with
  | nil => rfl
  | cons u rest ih =>
    obtain ⟨here, later⟩ := List.forall_mem_cons.1 h
    rw [List.map_cons, List.map_cons, String.join_cons, here, ih later, List.flatMap_cons,
      Css.written_append]

/-- Just the names are found in a statement that applies them. -/
theorem appliedNames_join {names : List String} (h : ∀ name ∈ names, IsName name) :
    appliedNames ((String.join (names.map (" " ++ ·))).toList ++ [';']) = names := by
  induction names with
  | nil => rfl
  | cons name rest ih =>
    obtain ⟨here, later⟩ := List.forall_mem_cons.1 h
    -- The name ends at the blank in front of the next one, or at the semicolon.
    obtain ⟨c, more, next, separator⟩ : ∃ c more,
        (String.join (rest.map (" " ++ ·))).toList ++ [';'] = c :: more ∧
          isNamePart c = false := by
      cases rest with
      | nil => exact ⟨';', [], rfl, by decide⟩
      | cons other others =>
        exact ⟨' ', other.toList ++ (String.join (others.map (" " ++ ·))).toList ++ [';'],
          by simp, by decide⟩
    have text : (String.join ((name :: rest).map (" " ++ ·))).toList ++ [';'] =
        ' ' :: (name.toList ++ c :: more) := by
      rw [← next]
      simp
    have filled := mt String.toList_eq_nil_iff.1 here.filled
    rw [text, appliedNames_skip (by decide),
      appliedNames_name (List.all_eq_true.1 here.parts) filled separator, ← next, ih later,
      String.ofList_toList]

theorem expandApply_applyStatement {names : List String} (h : ∀ name ∈ names, IsName name)
    (table : RuleTable) :
    expandApply table (applyStatement names) =
      String.join (names.map (declarationsOf table)) := by
  have behind : behindApply? (applyStatement names) =
      some ((String.join (names.map (" " ++ ·))).toList ++ [';']) := by
    simp [behindApply?, applyStatement]
  rw [expandApply, behind]
  exact congrArg (fun found => String.join (found.map (declarationsOf table)))
    (appliedNames_join h)

theorem next?_applyStatement {names : List String} (h : ∀ name ∈ names, IsName name) (out : String)
    (pass : Pass) :
    Position.next? file importSheet ⟨.statements, out, pass⟩ (applyStatement names) =
      some ⟨.statements, out ++ String.join (names.map (declarationsOf pass.table)), pass⟩ := by
  have text : (applyStatement names).toList =
      '@' :: 'a' :: ("pply" ++ String.join (names.map (" " ++ ·)) ++ ";").toList := by
    simp [applyStatement]
  have notBase : applyStatement names ≠ "@layer base;" := by
    intro same
    simpa [text] using congrArg String.toList same
  have notLayer : applyStatement names ≠ "@layer utilities" := by
    intro same
    simpa [text] using congrArg String.toList same
  have notImport : importPath? (applyStatement names) = none := by
    simp [importPath?, text]
  simp only [Position.next?, inlined?, notImport, step, if_neg notBase, if_neg notLayer,
    expandApply_applyStatement h]

/-- What a block that applies utilities is written as. Each of the utilities is authored in front of
the block. The block holds the declarations of the utilities in the order of their names and then
its own; read at its semicolons it holds just these if all of them but the last are written with
their semicolons, and only then. -/
theorem runTokens_applyingBlock {css selector out : String} {start behind : List String}
    {utilities : List Authored} {own : List Declaration} {pass mid : Pass}
    (shape : Css.tokens css = start ++ applyingBlock selector utilities own ++ behind)
    (plain : selector.toList.head? ≠ some '@')
    (reached : (Position.start pass).run? file importSheet start = some ⟨.statements, out, mid⟩)
    (defined : ∀ u ∈ utilities,
      u.Defined file importSheet start (.start pass) ⟨.statements, out, mid⟩) :
    runTokens file importSheet (Css.tokens css) .statements "" pass =
        runTokens file importSheet behind .statements
          (out ++ selector ++ "\x7b" ++ written (utilities.flatMap (·.body) ++ own) ++ "\x7d") mid ∧
      (statements (written (utilities.flatMap (·.body) ++ own)) =
          (utilities.flatMap (·.body) ++ own).map Declaration.text ↔
        ∀ d ∈ (utilities.flatMap (·.body) ++ own).dropLast, d.ended = true) := by
  refine ⟨?_, Css.statements_written_iff _⟩
  have names : ∀ name ∈ utilities.map (·.name), IsName name := by
    intro name inside
    obtain ⟨u, -, rfl⟩ := List.mem_map.1 inside
    exact u.isName
  have applied : String.join ((utilities.map (·.name)).map (declarationsOf mid.table)) =
      written (utilities.flatMap (·.body)) :=
    join_declarationsOf fun u inside => (defined u inside).declarationsOf_eq
  have block : Position.run? file importSheet ⟨.statements, out, mid⟩
      (applyingBlock selector utilities own) = some ⟨.statements,
        out ++ selector ++ "\x7b" ++ written (utilities.flatMap (·.body) ++ own) ++ "\x7d",
        mid⟩ := by
    rw [applyingBlock, List.cons_append, List.cons_append, Position.run?_cons,
      Position.next?_statement plain, Option.bind_some, Position.run?_cons,
      Position.next?_statement (by decide), Option.bind_some, List.cons_append, Position.run?_cons,
      next?_applyStatement names, Option.bind_some, applied, Position.run?_append,
      Position.run?_statements fun t inside => (isContent_tokens own t inside).noRule,
      Option.bind_some, Position.run?_statements (by decide)]
    simp [written, String.append_assoc]
  have whole : (Position.start pass).run? file importSheet
      (start ++ applyingBlock selector utilities own) = some ⟨.statements,
        out ++ selector ++ "\x7b" ++ written (utilities.flatMap (·.body) ++ own) ++ "\x7d",
        mid⟩ := by
    rw [Position.run?_append, reached, Option.bind_some, block]
  rw [shape]
  exact runTokens_of_run? whole behind

private def colored : Authored where
  name := "a"
  isName := ⟨by decide, by decide⟩
  body := [⟨"color:red", true, by decide +kernel⟩]

private def flush : Authored where
  name := "b"
  isName := ⟨by decide, by decide⟩
  body := [⟨"margin:0", false, by decide +kernel⟩]

private def unended : String :=
  "@layer utilities\x7b.a\x7bcolor:red;\x7d.b\x7bmargin:0\x7d\x7d.x\x7b@apply a b;\x7d"

theorem runTokens_applyingBlock_unended :
    ∃ mid, runTokens ⟨.here, 0, ["a.css"]⟩ (fun _ _ pass => (pass, .ok "")) (Css.tokens unended)
        .statements "" { table := .empty, base := none } =
      runTokens ⟨.here, 0, ["a.css"]⟩ (fun _ _ pass => (pass, .ok "")) [] .statements
        ".x\x7bcolor:red;margin:0\x7d" mid ∧
      statements "color:red;margin:0" = ["color:red", "margin:0"] := by
  let file : Path := ⟨.here, 0, ["a.css"]⟩
  let importSheet : String → Path → Pass → Outcome String := fun _ _ pass => (pass, .ok "")
  let pass : Pass := { table := .empty, base := none }
  let mid : Pass := flush.register 2 (colored.register 1 pass)
  let start := ["@layer utilities", "\x7b"] ++ colored.tokens ++ (flush.tokens ++ ["\x7d"])
  have first : (Position.start pass).run? file importSheet ["@layer utilities", "\x7b"] =
      some ⟨.entries 0, "", pass⟩ := Position.run?_layerOpening "" pass
  have second : Position.run? file importSheet ⟨.entries 0, "", pass⟩ colored.tokens =
      some ⟨.entries 1, "", colored.register 1 pass⟩ := colored.run?_tokens 0 "" pass
  have third : Position.run? file importSheet ⟨.entries 1, "", colored.register 1 pass⟩
      flush.tokens = some ⟨.entries 2, "", mid⟩ := flush.run?_tokens 1 "" _
  have last : Position.run? file importSheet ⟨.entries 2, "", mid⟩ ["\x7d"] =
      some ⟨.statements, "", mid⟩ := Position.run?_layerClosing 2 "" mid
  have behind : Position.run? file importSheet ⟨.entries 1, "", colored.register 1 pass⟩
      (flush.tokens ++ ["\x7d"]) = some ⟨.statements, "", mid⟩ := by
    rw [Position.run?_append, third, Option.bind_some, last]
  have reached : (Position.start pass).run? file importSheet start =
      some ⟨.statements, "", mid⟩ := by
    rw [Position.run?_append, Position.run?_append, first, Option.bind_some, second,
      Option.bind_some, behind]
  have defined : ∀ u ∈ [colored, flush],
      u.Defined file importSheet start (.start pass) ⟨.statements, "", mid⟩ := by
    rw [List.forall_mem_cons, List.forall_mem_singleton]
    constructor
    · exact .entry first second behind
        ((RuleTable.get?_put _ flush.name _ colored.name).trans (if_neg (by decide)))
    · have before : (Position.start pass).run? file importSheet
          (["@layer utilities", "\x7b"] ++ colored.tokens) =
            some ⟨.entries 1, "", colored.register 1 pass⟩ := by
        rw [Position.run?_append, first, Option.bind_some, second]
      have entry := Authored.Defined.entry before third last rfl
      rwa [List.append_assoc] at entry
  have shape : Css.tokens unended = start ++ applyingBlock ".x" [colored, flush] [] ++ [] := by
    decide +kernel
  have block := runTokens_applyingBlock shape (by decide) reached defined
  exact ⟨mid, block.1, block.2.2 (by decide)⟩

private def unseparated : SheetFiles := .ofList
  [(⟨.here, 0, ["a.css"]⟩,
    "@layer utilities\x7b.a\x7bcolor:red\x7d.b\x7bmargin:0;\x7d\x7d.x\x7b@apply a b;\x7d")]

/-- A declaration without its semicolon runs into the one behind it. -/
theorem run_applyingBlock_fused :
    (run unseparated ⟨.here, 0, ["a.css"]⟩ "" .empty).2.toOption =
        some ".x\x7bcolor:redmargin:0;\x7d" ∧
      statements "color:redmargin:0;" = ["color:redmargin:0"] := by
  constructor
  · decide +kernel
  · decide +kernel

end UtilityCss.Sheet
