import UtilityCss.Proofs.Sheet.Step

/-! The tokens that a pass processes, in document order over all files that it loads, with the names
that they apply and those that they register. -/
namespace UtilityCss.Sheet

/-- A token that is processed, with the mode and the pass in which it is met. -/
structure Visit where
  token : String
  mode : Mode
  pass : Pass

/-- The names that the token applies. -/
def Visit.applied (v : Visit) : List String :=
  match behindApply? v.token with
  | some names => appliedNames names
  | none => []

/-- The name that the token registers a utility under. Only the one that closes its block does. -/
def Visit.registers (v : Visit) : List String :=
  match v.mode with
  | .body _ selector 0 _ =>
    if expandApply v.pass.table v.token = "\x7d" then [entryName selector] else []
  | _ => []

theorem Visit.registers_of_ne {t : String} {pass : Pass}
    (h : expandApply pass.table t ≠ "\x7d") (mode : Mode) :
    (⟨t, mode, pass⟩ : Visit).registers = [] := by
  unfold registers
  split
  · rw [if_neg h]
  · rfl

/-- Every name that is applied was registered before, or has the property `P`. -/
def RegisteredOr (P : String → Prop) : (registered : List String) → List Visit → Prop
  | _, [] => True
  | registered, v :: rest =>
    (∀ name ∈ v.applied, name ∈ registered ∨ P name) ∧
      RegisteredOr P (registered ++ v.registers) rest

instance decidableRegisteredOr (P : String → Prop) [DecidablePred P] :
    (registered : List String) → (visits : List Visit) →
      Decidable (RegisteredOr P registered visits)
  | _, [] => .isTrue trivial
  | registered, v :: rest =>
    have := decidableRegisteredOr P (registered ++ v.registers) rest
    inferInstanceAs (Decidable (_ ∧ _))

/-- The tokens of one file that are processed, with those of its imports, which `inside` lists. -/
def visitTokens (file : Path) (importSheet : (statement : String) → Path → Pass → Outcome String)
    (inside : Path → Pass → List Visit) : List String → Mode → Pass → List Visit
  | [], _, _ => []
  | t :: rest, mode, pass =>
    match inlined? mode t with
    | some relative =>
      inside (file.beside relative) pass ++
        match importSheet t (file.beside relative) pass with
        | (between, .ok _) => visitTokens file importSheet inside rest .statements between
        | (_, .error _) => []
    | none =>
      ⟨t, mode, pass⟩ ::
        match step file t mode pass with
        | (between, .ok (next, _)) => visitTokens file importSheet inside rest next between
        | (_, .error _) => []

/-- The tokens that are processed while a file is loaded. -/
def visits (files : SheetFiles) : (bound : Nat) → (p : Path) → (inProgress : List Path) →
    p ∉ inProgress → files.unread inProgress ≤ bound → Pass → List Visit
  | bound, p, inProgress, fresh, enough, pass =>
    match found : files.read p with
    | .error _ => []
    | .ok css =>
      have fewer := Nat.lt_of_lt_of_le (files.unread_cons_lt found fresh) enough
      match bound, fewer with
      | bound + 1, fewer =>
        visitTokens p
          (fun statement child pass =>
            if seen : child ∈ p :: inProgress then
              (pass, .error (.faulty ⟨.circularImport child.text statement, some p.text⟩))
            else load files bound child (p :: inProgress) seen (Nat.le_of_lt_succ fewer) pass)
          (fun child pass =>
            if seen : child ∈ p :: inProgress then []
            else visits files bound child (p :: inProgress) seen (Nat.le_of_lt_succ fewer) pass)
          (Css.tokens css) .statements { pass with files := pass.files ++ [p.text] }

private theorem unread_le (files : SheetFiles) : files.unread [] ≤ files.unread [] := Nat.le_refl _

/-- The tokens that a pass processes. -/
def visitsOf (files : SheetFiles) (root : Path) (base : String) (table : RuleTable) : List Visit :=
  visits files (files.unread []) root [] List.not_mem_nil (unread_le files)
    { table, base := some base }

variable {files : SheetFiles} {file : Path}
  {importSheet : String → Path → Pass → Outcome String} {inside : Path → Pass → List Visit}

theorem visitTokens_import {t relative : String} {mode : Mode} (h : inlined? mode t = some relative)
    (rest : List String) (pass : Pass) :
    visitTokens file importSheet inside (t :: rest) mode pass =
      inside (file.beside relative) pass ++
        match importSheet t (file.beside relative) pass with
        | (between, .ok _) => visitTokens file importSheet inside rest .statements between
        | (_, .error _) => [] := by
  rw [visitTokens, h]

theorem visitTokens_step {t : String} {mode : Mode} (h : inlined? mode t = none)
    (rest : List String) (pass : Pass) :
    visitTokens file importSheet inside (t :: rest) mode pass =
      ⟨t, mode, pass⟩ ::
        match step file t mode pass with
        | (between, .ok (next, _)) => visitTokens file importSheet inside rest next between
        | (_, .error _) => [] := by
  rw [visitTokens, h]

/-- A file that can be read is visited with the visits of its imports. -/
theorem visits_of_ok {bound : Nat} {p : Path} {inProgress : List Path} {pass : Pass} {css : String}
    (h : files.read p = .ok css) (fresh : p ∉ inProgress)
    (enough : files.unread inProgress ≤ bound + 1) :
    visits files (bound + 1) p inProgress fresh enough pass =
      visitTokens p
        (fun statement child pass =>
          if seen : child ∈ p :: inProgress then
            (pass, .error (.faulty ⟨.circularImport child.text statement, some p.text⟩))
          else load files bound child (p :: inProgress) seen
            (Nat.le_of_lt_succ (Nat.lt_of_lt_of_le (files.unread_cons_lt h fresh) enough)) pass)
        (fun child pass =>
          if seen : child ∈ p :: inProgress then []
          else visits files bound child (p :: inProgress) seen
            (Nat.le_of_lt_succ (Nat.lt_of_lt_of_le (files.unread_cons_lt h fresh) enough)) pass)
        (Css.tokens css) .statements { pass with files := pass.files ++ [p.text] } := by
  rw [visits]
  split
  · next problem found => cases h.symm.trans found
  · next css' found =>
    cases h.symm.trans found
    rfl

variable {P : String → Prop} {registered : List String}

theorem registeredOr_append {before behind : List Visit} :
    RegisteredOr P registered (before ++ behind) ↔
      RegisteredOr P registered before ∧
        RegisteredOr P (registered ++ before.flatMap Visit.registers) behind := by
  induction before generalizing registered with
  | nil => simp [RegisteredOr]
  | cons v rest ih =>
    simp only [List.cons_append, RegisteredOr, ih, List.flatMap_cons, List.append_assoc, and_assoc]

theorem registeredOr_of_forall (h : ∀ name, P name) (visits : List Visit) :
    RegisteredOr P registered visits := by
  induction visits generalizing registered with
  | nil => trivial
  | cons v rest ih => exact ⟨fun name _ => .inr (h name), ih⟩

end UtilityCss.Sheet
