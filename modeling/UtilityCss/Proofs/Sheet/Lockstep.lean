import UtilityCss.Proofs.Rule.Table
import UtilityCss.Proofs.Sheet.Visits

/-! The same sheets processed with two rule tables. The two passes take the same way as long as what
they put in place of `@apply` statements is alike, and they register the same names. -/
namespace UtilityCss.Sheet

open RuleTable (addName addNames addNames_concat)

/-- Which texts of two passes count as alike: the declarations of two rules, the content of two
blocks that are open `depth` deep, and what is written. -/
structure Likeness where
  rule : String → String → Prop
  body : (depth : Nat) → String → String → Prop
  written : String → String → Prop
  rule_empty : rule "" ""
  rule_append : ∀ {a a' b b'}, rule a a' → rule b b' → rule (a ++ b) (a' ++ b')
  rule_opening : ∀ {a a'}, rule a a' → (a = "\x7b" ↔ a' = "\x7b")
  rule_closing : ∀ {a a'}, rule a a' → (a = "\x7d" ↔ a' = "\x7d")
  rule_of_body : ∀ {css css'}, body 0 css css' → rule css css'
  body_empty : body 0 "" ""
  body_opening : ∀ {depth css css'}, body depth css css' →
    body (depth + 1) (css ++ "\x7b") (css' ++ "\x7b")
  body_closing : ∀ {depth css css'}, body (depth + 1) css css' →
    body depth (css ++ "\x7d") (css' ++ "\x7d")
  body_text : ∀ {depth css css' t t'}, body depth css css' → t' = t ∨ rule t t' → t ≠ "\x7b" →
    t ≠ "\x7d" → body depth (css ++ t) (css' ++ t')
  written_refl : ∀ t, written t t
  written_append : ∀ {a a' b b'}, written a a' → written b b' → written (a ++ b) (a' ++ b')
  written_rule : ∀ {a a'}, rule a a' → written a a'

/-- Whether the declarations that two tables hold under a name are alike. -/
def NameAlike (L : Likeness) (table table' : RuleTable) (name : String) : Prop :=
  L.rule (declarationsOf table name) (declarationsOf table' name)

variable {L : Likeness} {first other : RuleTable} {registered : List String}
  {pass pass' after : Pass}

namespace Likeness

/-- Two tokens with their applied rules filled in. -/
def Filled (L : Likeness) (t t' : String) : Prop := t' = t ∨ L.rule t t'

theorem Filled.opening_iff {t t' : String} (h : L.Filled t t') : t = "\x7b" ↔ t' = "\x7b" := by
  rcases h with rfl | alike
  · rfl
  · exact L.rule_opening alike

theorem Filled.closing_iff {t t' : String} (h : L.Filled t t') : t = "\x7d" ↔ t' = "\x7d" := by
  rcases h with rfl | alike
  · rfl
  · exact L.rule_closing alike

theorem Filled.written {t t' : String} (h : L.Filled t t') : L.written t t' := by
  rcases h with rfl | alike
  · exact L.written_refl _
  · exact L.written_rule alike

theorem rule_join {α : Type} {f f' : α → String} {names : List α}
    (h : ∀ name ∈ names, L.rule (f name) (f' name)) :
    L.rule (String.join (names.map f)) (String.join (names.map f')) := by
  induction names with
  | nil => simpa using L.rule_empty
  | cons name rest ih =>
    rw [List.map_cons, List.map_cons, String.join_cons, String.join_cons]
    exact L.rule_append (h name List.mem_cons_self)
      (ih fun other inside => h other (List.mem_cons_of_mem _ inside))

theorem filled_expandApply {table table' : RuleTable} {v : Visit}
    (h : ∀ name ∈ v.applied, NameAlike L table table' name) :
    L.Filled (expandApply table v.token) (expandApply table' v.token) := by
  unfold expandApply
  unfold Visit.applied at h
  cases apply : behindApply? v.token with
  | none => exact .inl rfl
  | some names =>
    rw [apply] at h
    exact .inr (rule_join h)

end Likeness

/-- Two positions that differ in the text of the open block only. -/
inductive ModesAlike (L : Likeness) : Mode → Mode → Prop
  | statements : ModesAlike L .statements .statements
  | layerOpening : ModesAlike L .layerOpening .layerOpening
  | entries (count : Nat) : ModesAlike L (.entries count) (.entries count)
  | bodyOpening (count : Nat) (selector : String) :
    ModesAlike L (.bodyOpening count selector) (.bodyOpening count selector)
  | body (count : Nat) (selector : String) {depth : Nat} {css css' : String}
    (alike : L.body depth css css') :
    ModesAlike L (.body count selector depth css) (.body count selector depth css')

/-- The rules of an authored utility in two passes. -/
def RulesAlike (L : Likeness) (rule? rule'? : Option Rule) : Prop :=
  ∃ css css' count, rule? = some { css, specificity := count } ∧
    rule'? = some { css := css', specificity := count } ∧ L.rule css css'

/-- Two passes, from the tables `first` and `other`, that have registered the same names. -/
structure Alike (L : Likeness) (first other : RuleTable) (registered : List String)
    (pass pass' : Pass) : Prop where
  base : pass'.base = pass.base
  files : pass'.files = pass.files
  names : pass.table.names = addNames first.names registered
  names' : pass'.table.names = addNames other.names registered
  known : ∀ name ∈ registered, RulesAlike L (pass.table.get? name) (pass'.table.get? name)
  unknown : ∀ name ∉ registered,
    pass.table.get? name = first.get? name ∧ pass'.table.get? name = other.get? name

namespace Alike

theorem start (L : Likeness) (first other : RuleTable) (base : Option String)
    (files : List String) :
    Alike L first other [] { table := first, base, files } { table := other, base, files } where
  base := rfl
  files := rfl
  names := rfl
  names' := rfl
  known _ none := absurd none List.not_mem_nil
  unknown _ _ := ⟨rfl, rfl⟩

theorem opened (alike : Alike L first other registered pass pass') (f : String) :
    Alike L first other registered { pass with files := pass.files ++ [f] }
      { pass' with files := pass'.files ++ [f] } :=
  { alike with files := by simp [alike.files] }

theorem nameAlike (alike : Alike L first other registered pass pass') {name : String}
    (h : name ∈ registered ∨ NameAlike L first other name) :
    NameAlike L pass.table pass'.table name := by
  unfold NameAlike declarationsOf at *
  by_cases known : name ∈ registered
  · obtain ⟨css, css', count, found, found', same⟩ := alike.known name known
    rw [found, found']
    exact same
  · obtain ⟨found, found'⟩ := alike.unknown name known
    rw [found, found']
    exact h.resolve_left known

theorem put (alike : Alike L first other registered pass pass') {css css' : String}
    (same : L.rule css css') (name : String) (count : Nat) :
    Alike L first other (registered ++ [name])
      { pass with table := pass.table.put name { css, specificity := count } }
      { pass' with table := pass'.table.put name { css := css', specificity := count } } where
  base := alike.base
  files := alike.files
  names := by rw [RuleTable.names_put, addNames_concat, alike.names]
  names' := by rw [RuleTable.names_put, addNames_concat, alike.names']
  known n inside := by
    simp only [RuleTable.get?_put]
    by_cases here : n = name
    · rw [if_pos here, if_pos here]
      exact ⟨css, css', count, rfl, rfl, same⟩
    · rw [if_neg here, if_neg here]
      exact alike.known n (by simpa [here] using inside)
  unknown n outside := by
    obtain ⟨before, here⟩ : n ∉ registered ∧ n ≠ name := by simpa using outside
    simp only [RuleTable.get?_put, if_neg here]
    exact alike.unknown n before

theorem baseLayer (alike : Alike L first other registered pass pass') (t : String) :
    (Sheet.baseLayer pass' t).2 = (Sheet.baseLayer pass t).2 ∧
      Alike L first other registered (Sheet.baseLayer pass t).1 (Sheet.baseLayer pass' t).1 := by
  unfold Sheet.baseLayer
  rw [alike.base]
  cases pass.base with
  | none => exact ⟨rfl, alike⟩
  | some text => exact ⟨rfl, { alike with base := rfl }⟩

variable {file : Path}

/-- One token is processed in the same way in both passes. -/
theorem step (alike : Alike L first other registered pass pass') {t text : String}
    {mode mode' next : Mode} (modes : ModesAlike L mode mode')
    (uses : ∀ name ∈ (⟨t, mode, pass⟩ : Visit).applied,
      name ∈ registered ∨ NameAlike L first other name)
    (h : step file t mode pass = (after, .ok (next, text))) :
    ∃ next' text' after', Sheet.step file t mode' pass' = (after', .ok (next', text')) ∧
      ModesAlike L next next' ∧ L.written text text' ∧
      Alike L first other (registered ++ (⟨t, mode, pass⟩ : Visit).registers) after after' := by
  have filled : L.Filled (expandApply pass.table t) (expandApply pass'.table t) :=
    Likeness.filled_expandApply (v := ⟨t, mode, pass⟩) fun name inside =>
      alike.nameAlike (uses name inside)
  have silent := L.written_refl ""
  cases stepped_of_step h with
  | base token =>
    cases modes
    obtain ⟨same, later⟩ := alike.baseLayer t
    refine ⟨_, _, _, Stepped.step_eq (.base token), .statements, same ▸ L.written_refl _, ?_⟩
    simpa [Visit.registers] using later
  | layer token =>
    cases modes
    refine ⟨_, _, _, Stepped.step_eq (.layer token), .layerOpening, silent, ?_⟩
    simpa [Visit.registers] using alike
  | statement notBase notLayer =>
    cases modes
    refine ⟨_, _, _, Stepped.step_eq (.statement notBase notLayer), .statements,
      filled.written, ?_⟩
    simpa [Visit.registers] using alike
  | layerOpens token =>
    cases modes
    refine ⟨_, _, _, Stepped.step_eq (.layerOpens token), .entries 0, silent, ?_⟩
    simpa [Visit.registers] using alike
  | layerCloses token =>
    cases modes
    refine ⟨_, _, _, Stepped.step_eq (.layerCloses token), .statements, silent, ?_⟩
    simpa [Visit.registers] using alike
  | entry stays dot =>
    cases modes
    refine ⟨_, _, _, Stepped.step_eq (.entry stays dot), .bodyOpening _ _, silent, ?_⟩
    simpa [Visit.registers] using alike
  | bodyOpens token =>
    cases modes
    refine ⟨_, _, _, Stepped.step_eq (.bodyOpens token), .body _ _ L.body_empty, silent, ?_⟩
    simpa [Visit.registers] using alike
  | registers token dotless =>
    obtain _ | _ | _ | _ | ⟨_, _, same⟩ := modes
    have token' := filled.closing_iff.1 token
    refine ⟨_, _, _, Stepped.step_eq (.registers token' dotless), .entries _, silent, ?_⟩
    simpa [Visit.registers, token] using alike.put (L.rule_of_body same) _ _
  | blockCloses token =>
    obtain _ | _ | _ | _ | ⟨_, _, same⟩ := modes
    have token' := filled.closing_iff.1 token
    refine ⟨_, _, _, Stepped.step_eq (.blockCloses token'), .body _ _ (L.body_closing same),
      silent, ?_⟩
    simpa [Visit.registers] using alike
  | blockOpens token =>
    obtain _ | _ | _ | _ | ⟨_, _, same⟩ := modes
    have token' := filled.opening_iff.1 token
    refine ⟨_, _, _, Stepped.step_eq (.blockOpens token'), .body _ _ (L.body_opening same),
      silent, ?_⟩
    have stays : expandApply pass.table t ≠ "\x7d" := by simp [token]
    rwa [Visit.registers_of_ne stays, List.append_nil]
  | text notOpening notClosing =>
    obtain _ | _ | _ | _ | ⟨_, _, same⟩ := modes
    refine ⟨_, _, _, Stepped.step_eq (.text (mt filled.opening_iff.2 notOpening)
      (mt filled.closing_iff.2 notClosing)),
      .body _ _ (L.body_text same filled notOpening notClosing), silent, ?_⟩
    rwa [Visit.registers_of_ne notClosing, List.append_nil]

end Alike

theorem ModesAlike.inlined?_eq {mode mode' : Mode} (h : ModesAlike L mode mode') (t : String) :
    inlined? mode' t = inlined? mode t := by
  cases h <;> rfl

theorem ModesAlike.endFault?_eq {mode mode' : Mode} (h : ModesAlike L mode mode') :
    mode'.endFault? = mode.endFault? := by
  cases h <;> rfl

variable {files : SheetFiles} {file : Path}
  {importSheet : String → Path → Pass → Outcome String} {inside : Path → Pass → List Visit}

/-- The tokens of a file, when what it imports is alike. -/
theorem Alike.runTokens
    (child : ∀ {statement : String} {p : Path} {registered : List String}
      {pass pass' after : Pass} {text : String},
      Alike L first other registered pass pass' →
      RegisteredOr (NameAlike L first other) registered (inside p pass) →
      importSheet statement p pass = (after, .ok text) →
      ∃ text' after', importSheet statement p pass' = (after', .ok text') ∧
        L.written text text' ∧
        Alike L first other (registered ++ (inside p pass).flatMap Visit.registers) after after')
    {tokens : List String} {mode mode' : Mode} {out out' text : String}
    (alike : Alike L first other registered pass pass') (modes : ModesAlike L mode mode')
    (outs : L.written out out')
    (uses : RegisteredOr (NameAlike L first other) registered
      (visitTokens file importSheet inside tokens mode pass))
    (h : runTokens file importSheet tokens mode out pass = (after, .ok text)) :
    ∃ text' after', Sheet.runTokens file importSheet tokens mode' out' pass' =
        (after', .ok text') ∧ L.written text text' ∧
      Alike L first other
        (registered ++
          (visitTokens file importSheet inside tokens mode pass).flatMap Visit.registers)
        after after' := by
  induction tokens generalizing registered mode mode' out out' pass pass' with
  | nil =>
    rw [runTokens_nil] at h ⊢
    rw [modes.endFault?_eq]
    cases ended : mode.endFault? with
    | some cause => simp [ended] at h
    | none =>
      simp only [ended] at h
      cases h
      exact ⟨_, _, rfl, outs, by simpa [visitTokens] using alike⟩
  | cons t rest ih =>
    cases path : inlined? mode t with
    | some relative =>
      have path' := (modes.inlined?_eq t).trans path
      rw [runTokens_import path] at h
      rw [runTokens_import path']
      rw [visitTokens_import path] at uses ⊢
      split at h
      · next between inner loaded =>
        simp only [loaded] at uses ⊢
        obtain ⟨within, later⟩ := registeredOr_append.1 uses
        obtain ⟨inner', between', loaded', inners, alike⟩ := child alike within loaded
        have wrapped := L.written_append (L.written_append
          (L.written_append outs (L.written_refl "@layer \x7b")) inners) (L.written_refl "\x7d")
        obtain ⟨text', after', ran, texts, behind⟩ := ih alike .statements wrapped later h
        rw [loaded']
        refine ⟨text', after', ran, texts, ?_⟩
        rwa [List.flatMap_append, ← List.append_assoc]
      · cases h
    | none =>
      have path' := (modes.inlined?_eq t).trans path
      rw [runTokens_step path] at h
      rw [runTokens_step path']
      rw [visitTokens_step path] at uses ⊢
      split at h
      · next between next written moved =>
        simp only [moved] at uses ⊢
        obtain ⟨here, later⟩ := uses
        obtain ⟨next', written', between', moved', nexts, writtens, alike⟩ :=
          alike.step modes here moved
        obtain ⟨text', after', ran, texts, behind⟩ :=
          ih alike nexts (L.written_append outs writtens) later h
        rw [moved']
        refine ⟨text', after', ran, texts, ?_⟩
        rwa [List.flatMap_cons, ← List.append_assoc]
      · cases h

theorem Alike.load {bound : Nat} {p : Path} {inProgress : List Path} {fresh : p ∉ inProgress}
    {enough : files.unread inProgress ≤ bound} {text : String}
    (alike : Alike L first other registered pass pass')
    (uses : RegisteredOr (NameAlike L first other) registered
      (visits files bound p inProgress fresh enough pass))
    (h : load files bound p inProgress fresh enough pass = (after, .ok text)) :
    ∃ text' after', Sheet.load files bound p inProgress fresh enough pass' = (after', .ok text') ∧
      L.written text text' ∧
      Alike L first other
        (registered ++ (visits files bound p inProgress fresh enough pass).flatMap Visit.registers)
        after after' := by
  induction bound generalizing p inProgress registered pass pass' after text with
  | zero =>
    cases found : files.read p with
    | error problem =>
      rw [load_of_error found] at h
      cases h
    | ok css =>
      obtain ⟨less, none⟩ := exists_bound found fresh enough
      cases none
  | succ bound ih =>
    cases found : files.read p with
    | error problem =>
      rw [load_of_error found] at h
      cases h
    | ok css =>
      rw [load_of_ok found] at h ⊢
      rw [visits_of_ok found] at uses ⊢
      refine (alike.opened p.text).runTokens (fun alike uses loaded => ?_) .statements
        (L.written_refl "") uses h
      split at loaded
      · cases loaded
      · next unseen =>
        rw [dif_neg unseen] at uses
        simpa only [dif_neg unseen] using ih alike uses loaded

/-- A pass that succeeds, repeated with a table in which the rules it applies before it registers
them are alike. -/
theorem Alike.run {root : Path} {base text : String}
    (uses : RegisteredOr (NameAlike L first other) [] (visitsOf files root base first))
    (h : run files root base first = (after, .ok text)) :
    ∃ text' after', Sheet.run files root base other = (after', .ok text') ∧ L.written text text' ∧
      Alike L first other ((visitsOf files root base first).flatMap Visit.registers) after after' :=
  (Alike.start L first other (some base) []).load uses h

end UtilityCss.Sheet
