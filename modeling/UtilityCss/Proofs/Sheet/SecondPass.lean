import UtilityCss.Proofs.Sheet.Inlining
import UtilityCss.Proofs.Sheet.Lockstep
import UtilityCss.Sheet.Stylesheet

/-! A style sheet processed once more with the table that its first pass has left. The second pass
knows from its start on what the first one came to know on its way. -/
namespace UtilityCss

namespace Sheet

/-- A text that is not a single brace. -/
def NotBrace (css : String) : Prop := css ≠ "\x7b" ∧ css ≠ "\x7d"

/-- The content of a block that is open `depth` deep. Only in an inner block may it be no more than
the brace that opens it. -/
structure BlockText (depth : Nat) (css : String) : Prop where
  empty : css = "" → depth = 0
  opening : css = "\x7b" → depth ≠ 0
  closing : css ≠ "\x7d"

private theorem append_eq_brace {a b : String} (opening : Bool) :
    a ++ b = String.ofList [Css.braceChar opening] ↔
      a = "" ∧ b = String.ofList [Css.braceChar opening] ∨
        a = String.ofList [Css.braceChar opening] ∧ b = "" := by
  simp only [← String.toList_inj, String.toList_append, String.toList_ofList, String.toList_empty]
  exact List.append_eq_singleton_iff

private theorem append_eq_opening {a b : String} :
    a ++ b = "\x7b" ↔ a = "" ∧ b = "\x7b" ∨ a = "\x7b" ∧ b = "" := append_eq_brace true

private theorem append_eq_closing {a b : String} :
    a ++ b = "\x7d" ↔ a = "" ∧ b = "\x7d" ∨ a = "\x7d" ∧ b = "" := append_eq_brace false

theorem NotBrace.append {a b : String} (ha : NotBrace a) (hb : NotBrace b) : NotBrace (a ++ b) := by
  refine ⟨fun h => ?_, fun h => ?_⟩
  · rcases append_eq_opening.1 h with ⟨-, h⟩ | ⟨h, -⟩
    · exact hb.1 h
    · exact ha.1 h
  · rcases append_eq_closing.1 h with ⟨-, h⟩ | ⟨h, -⟩
    · exact hb.2 h
    · exact ha.2 h

namespace BlockText

variable {depth : Nat} {css t : String}

theorem notBrace (h : BlockText 0 css) : NotBrace css :=
  ⟨fun brace => h.opening brace rfl, h.closing⟩

theorem append_opening (h : BlockText depth css) : BlockText (depth + 1) (css ++ "\x7b") where
  empty none := absurd (String.append_eq_empty_iff.1 none).2 (by decide)
  opening _ := Nat.succ_ne_zero depth
  closing brace := by
    rcases append_eq_closing.1 brace with ⟨-, same⟩ | ⟨closing, -⟩
    · exact absurd same (by decide)
    · exact h.closing closing

theorem append_closing (h : BlockText (depth + 1) css) : BlockText depth (css ++ "\x7d") where
  empty none := absurd (String.append_eq_empty_iff.1 none).2 (by decide)
  opening brace := by
    rcases append_eq_opening.1 brace with ⟨-, same⟩ | ⟨-, none⟩
    · exact absurd same (by decide)
    · exact absurd none (by decide)
  closing brace := by
    rcases append_eq_closing.1 brace with ⟨none, -⟩ | ⟨closing, -⟩
    · exact absurd (h.empty none) (Nat.succ_ne_zero depth)
    · exact h.closing closing

theorem append (h : BlockText depth css) (ht : NotBrace t) : BlockText depth (css ++ t) where
  empty none := h.empty (String.append_eq_empty_iff.1 none).1
  opening brace := by
    rcases append_eq_opening.1 brace with ⟨-, single⟩ | ⟨single, -⟩
    · exact absurd single ht.1
    · exact h.opening single
  closing brace := by
    rcases append_eq_closing.1 brace with ⟨-, single⟩ | ⟨single, -⟩
    · exact ht.2 single
    · exact h.closing single

end BlockText

/-- All texts are alike that no brace can be mistaken for: the blocks of two passes open and close
at the same tokens. -/
def notBraces : Likeness where
  rule a a' := NotBrace a ∧ NotBrace a'
  body depth css css' := BlockText depth css ∧ BlockText depth css'
  written _ _ := True
  rule_empty := by simp [NotBrace]
  rule_append h h' := ⟨h.1.append h'.1, h.2.append h'.2⟩
  rule_opening h := iff_of_false h.1.1 h.2.1
  rule_closing h := iff_of_false h.1.2 h.2.2
  rule_of_body h := ⟨h.1.notBrace, h.2.notBrace⟩
  body_empty := by
    have nothing : BlockText 0 "" := ⟨fun _ => rfl, by decide, by decide⟩
    exact ⟨nothing, nothing⟩
  body_opening h := ⟨h.1.append_opening, h.2.append_opening⟩
  body_closing h := ⟨h.1.append_closing, h.2.append_closing⟩
  body_text h filled opening closing := by
    rcases filled with rfl | alike
    · exact ⟨h.1.append ⟨opening, closing⟩, h.2.append ⟨opening, closing⟩⟩
    · exact ⟨h.1.append alike.1, h.2.append alike.2⟩
  written_refl _ := trivial
  written_append _ _ := trivial
  written_rule _ := trivial

/-- Only equal texts are alike. -/
def equalTexts : Likeness where
  rule := Eq
  body _ := Eq
  written := Eq
  rule_empty := rfl
  rule_append h h' := by rw [h, h']
  rule_opening h := by rw [h]
  rule_closing h := by rw [h]
  rule_of_body := id
  body_empty := rfl
  body_opening h := by rw [h]
  body_closing h := by rw [h]
  body_text h filled _ _ := by
    rcases filled with rfl | same
    · rw [h]
    · rw [h, same]
  written_refl _ := rfl
  written_append h h' := by rw [h, h']
  written_rule := id

variable {L : Likeness} {first : RuleTable} {registered : List String} {pass pass' : Pass}

/-- Registering again what a table has been given keeps its order. -/
theorem Alike.names_again (h : Alike L first pass.table registered pass pass') :
    pass'.table.names = pass.table.names := by
  rw [h.names']
  refine RuleTable.addNames_of_subset ?_
  rw [h.names]
  exact RuleTable.subset_addNames _ _

/-- Registering again what a table has been given changes no more of a rule than its
declarations. -/
theorem Alike.get?_again (h : Alike L first pass.table registered pass pass') (name : String) :
    ∃ css, pass'.table.get? name = (pass.table.get? name).map fun rule => { rule with css } := by
  by_cases known : name ∈ registered
  · obtain ⟨css, css', count, found, found', -⟩ := h.known name known
    exact ⟨css', by rw [found, found']; rfl⟩
  · obtain ⟨-, kept⟩ := h.unknown name known
    rw [kept]
    cases pass.table.get? name with
    | none => exact ⟨"", rfl⟩
    | some rule => exact ⟨rule.css, rfl⟩

theorem Alike.toList_again (h : Alike equalTexts first pass.table registered pass pass') :
    pass'.table.toList = pass.table.toList := by
  refine RuleTable.toList_eq h.names_again fun name => ?_
  by_cases known : name ∈ registered
  · obtain ⟨css, css', count, found, found', same⟩ := h.known name known
    obtain rfl : css = css' := same
    rw [found, found']
  · exact (h.unknown name known).2

/-- No pass gives a rule a single brace for declarations. -/
theorem notBrace_of_run {files : SheetFiles} {root : Path} {base text : String} {table : RuleTable}
    {after : Pass} (whole : ∀ name, NotBrace (declarationsOf table name))
    (h : run files root base table = (after, .ok text)) (name : String) :
    NotBrace (declarationsOf after.table name) := by
  have alike (n : String) : NameAlike notBraces table table n := ⟨whole n, whole n⟩
  obtain ⟨text', after', h', -, later⟩ := Alike.run (registeredOr_of_forall alike _) h
  exact (later.nameAlike (.inr (alike name))).1

end Sheet

namespace Stylesheet

open Sheet

variable {sheets : SheetFiles} {root : Path} {base : String} {table table' : RuleTable}
  {sheet : Stylesheet}

theorem run_of_process (h : process sheets root base table = (table', .ok sheet)) :
    ∃ pass, run sheets root base table = (pass, .ok sheet.css) ∧ pass.table = table' ∧
      sheet = ⟨root, base, sheet.css, pass.files⟩ := by
  rw [process] at h
  split at h <;> cases h
  next pass css ran => exact ⟨pass, ran, rfl, rfl⟩

/-- A style sheet that was processed once, processed again over the same files with the rules that
the first pass has left. No rule may be a single brace in front; then the second pass succeeds too
and comes to the same files and the same rules but for their declarations. It comes to the same
altogether if no `@apply` names a rule that the first pass gave other declarations only later. -/
theorem update_of_process (h : process sheets root base table = (table', .ok sheet)) :
    ((∀ name, NotBrace (declarationsOf table name)) →
      ∃ table'' css, sheet.update sheets table' = (table'', .ok { sheet with css }) ∧
        table''.names = table'.names ∧
        ∀ name, ∃ css, table''.get? name =
          (table'.get? name).map fun rule => { rule with css }) ∧
    (RegisteredOr (fun name => declarationsOf table name = declarationsOf table' name) []
        (visitsOf sheets root base table) →
      ∃ table'', sheet.update sheets table' = (table'', .ok sheet) ∧
        table''.toList = table'.toList) := by
  obtain ⟨pass, ran, rfl, same⟩ := run_of_process h
  constructor
  · intro whole
    have alike (name : String) : NameAlike notBraces table pass.table name :=
      ⟨whole name, notBrace_of_run whole ran name⟩
    obtain ⟨css, pass', ran', -, later⟩ := Alike.run (registeredOr_of_forall alike _) ran
    refine ⟨pass'.table, css, ?_, later.names_again, later.get?_again⟩
    rw [same, update, process, ran']
    simp only [later.files]
  · intro settled
    obtain ⟨css, pass', ran', equal, later⟩ := Alike.run (L := equalTexts) settled ran
    obtain rfl : sheet.css = css := equal
    refine ⟨pass'.table, ?_, later.toList_again⟩
    rw [same, update, process, ran']
    simp only [later.files]

private def redefining : SheetFiles := .ofList
  [(⟨.here, 0, ["a.css"]⟩,
      "@import \"./b.css\";.y\x7b@apply x;\x7d@layer utilities\x7b.x\x7bcolor:blue;\x7d\x7d"),
   (⟨.here, 0, ["b.css"]⟩, "@layer utilities\x7b.x\x7bcolor:red;\x7d\x7d")]

theorem update_of_process_redefining :
    ∃ table sheet, process redefining ⟨.here, 0, ["a.css"]⟩ "" .empty = (table, .ok sheet) ∧
      (∃ table' css, sheet.update redefining table = (table', .ok { sheet with css }) ∧
        table'.names = table.names ∧
        ∀ name, ∃ css, table'.get? name =
          (table.get? name).map fun rule => { rule with css }) ∧
      ∃ table', sheet.update redefining table = (table', .ok sheet) ∧
        table'.toList = table.toList := by
  have settled : RegisteredOr (fun name => declarationsOf .empty name =
      declarationsOf (process redefining ⟨.here, 0, ["a.css"]⟩ "" .empty).1 name) []
      (visitsOf redefining ⟨.here, 0, ["a.css"]⟩ "" .empty) := by decide +kernel
  have passes : (process redefining ⟨.here, 0, ["a.css"]⟩ "" .empty).2.toOption.isSome := by
    decide +kernel
  cases h : process redefining ⟨.here, 0, ["a.css"]⟩ "" .empty with
  | mk table result =>
    rw [h] at settled passes
    cases result with
    | error failure => simp [Except.toOption] at passes
    | ok sheet =>
      have both := update_of_process h
      have whole (name : String) : NotBrace (declarationsOf .empty name) := by
        rw [declarationsOf, RuleTable.get?_empty]
        simp [NotBrace]
      exact ⟨table, sheet, rfl, both.1 whole, both.2 settled⟩

private def usedFirst : SheetFiles := .ofList
  [(⟨.here, 0, ["a.css"]⟩, "a\x7b@apply x;\x7d@layer utilities\x7b.x\x7bcolor:red;\x7d\x7d")]

/-- The second pass fills in a rule that the first one did not know yet. -/
theorem update_usedFirst :
    ∃ table sheet, process usedFirst ⟨.here, 0, ["a.css"]⟩ "" .empty = (table, .ok sheet) ∧
      sheet.css = "a\x7b\x7d" ∧
      ∃ table' sheet', sheet.update usedFirst table = (table', .ok sheet') ∧
        sheet'.css = "a\x7bcolor:red;\x7d" := by
  have first : (process usedFirst ⟨.here, 0, ["a.css"]⟩ "" .empty).2.toOption.map
      (fun sheet => (sheet.root, sheet.base, sheet.css)) =
        some (⟨.here, 0, ["a.css"]⟩, "", "a\x7b\x7d") := by
    decide +kernel
  have second : (process usedFirst ⟨.here, 0, ["a.css"]⟩ ""
      (process usedFirst ⟨.here, 0, ["a.css"]⟩ "" .empty).1).2.toOption.map (·.css) =
        some "a\x7bcolor:red;\x7d" := by
    decide +kernel
  cases h : process usedFirst ⟨.here, 0, ["a.css"]⟩ "" .empty with
  | mk table result =>
    rw [h] at first second
    cases result with
    | error failure => simp [Except.toOption] at first
    | ok sheet =>
      simp only [Except.toOption, Option.map_some, Option.some.injEq, Prod.mk.injEq] at first
      obtain ⟨root, base, css⟩ := first
      refine ⟨table, sheet, rfl, css, ?_⟩
      rw [update, root, base]
      cases h' : process usedFirst ⟨.here, 0, ["a.css"]⟩ "" table with
      | mk table' result' =>
        rw [h'] at second
        cases result' with
        | error failure => simp [Except.toOption] at second
        | ok sheet' => exact ⟨table', sheet', rfl, by simpa [Except.toOption] using second⟩

end Stylesheet

end UtilityCss
