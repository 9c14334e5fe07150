import UtilityCss.Proofs.Sheet.Inlining

/-! The base text of a pass. It is written for the first statement that asks for it, in document
order over all files that are loaded, and it decides nothing else: two passes with different base
texts take the same way. -/
namespace UtilityCss.Sheet

/-- The pass with another base text waiting. -/
def Pass.withBase (pass : Pass) (base : Option String) : Pass := { pass with base }

theorem Pass.eq_withBase {pass pass' : Pass} (table : pass.table = pass'.table)
    (files : pass.files = pass'.files) : pass' = pass.withBase pass'.base := by
  obtain ⟨table', base', files'⟩ := pass'
  cases table
  cases files
  rfl

/-- Whether a token asks for the base text. Only a statement does. -/
def Asks : Mode → String → Prop
  | .statements, t => t = "@layer base;"
  | _, _ => False

instance decidableAsks (mode : Mode) (t : String) : Decidable (Asks mode t) := by
  cases mode <;> unfold Asks <;> infer_instance

/-- What is written for a token that asks. -/
def askedText : Option String → String
  | some text => "@layer base \x7b" ++ text ++ "\x7d"
  | none => "@layer base;"

/-- The pieces of an inlined file as in `Inlines`, each with the mode in which it is met. -/
inductive Traces (files : SheetFiles) :
    Path → List String → Mode → Pass → List (Mode × Piece) → Pass → Prop
  | done {file pass} : Traces files file [] .statements pass [] pass
  | inlined {file t rest mode pass relative css inner between trace after}
      (h : inlined? mode t = some relative) (read : files.read (file.beside relative) = .ok css)
      (content :
        Traces files (file.beside relative) (Css.tokens css) .statements pass inner between)
      (behind : Traces files file rest .statements between trace after) :
      Traces files file (t :: rest) mode pass ((.statements, .layer) :: (.statements, .opening) ::
        inner ++ (.statements, .closing) :: trace) after
  | kept {file t rest mode pass next between text trace after} (h : inlined? mode t = none)
      (moved : step file t mode pass = (between, .ok (next, text)))
      (behind : Traces files file rest next between trace after) :
      Traces files file (t :: rest) mode pass ((mode, .token t text) :: trace) after

variable {files : SheetFiles} {file p : Path} {t : String} {mode : Mode} {pass : Pass}

theorem Asks.eq (h : Asks mode t) : mode = .statements ∧ t = "@layer base;" := by
  cases mode with
  | statements => exact ⟨rfl, h⟩
  | _ => cases h

theorem Asks.step_eq (h : Asks mode t) :
    step file t mode pass = (pass.withBase none, .ok (.statements, askedText pass.base)) := by
  obtain ⟨rfl, rfl⟩ := h.eq
  rw [Stepped.step_eq (.base rfl)]
  obtain ⟨table, base, opened⟩ := pass
  cases base <;> rfl

/-- Every other token is processed without regard to the base text. -/
theorem step_withBase (h : ¬ Asks mode t) (base : Option String) :
    step file t mode (pass.withBase base) =
      ((step file t mode pass).1.withBase base, (step file t mode pass).2) := by
  cases moved : step file t mode pass with
  | mk after result =>
  cases stepped_of_step moved with
  | base token => exact absurd token h
  | layer token => exact Stepped.step_eq (.layer token)
  | statement notBase notLayer => exact Stepped.step_eq (.statement notBase notLayer)
  | layerOpens token => exact Stepped.step_eq (.layerOpens token)
  | layerStuck token => exact Stepped.step_eq (.layerStuck token)
  | layerCloses token => exact Stepped.step_eq (.layerCloses token)
  | entry stays dot => exact Stepped.step_eq (.entry stays dot)
  | notAClass stays dotless => exact Stepped.step_eq (.notAClass stays dotless)
  | bodyOpens token => exact Stepped.step_eq (.bodyOpens token)
  | bodyStuck token => exact Stepped.step_eq (.bodyStuck token)
  | registers token dotless => exact Stepped.step_eq (.registers token dotless)
  | dotted token dot => exact Stepped.step_eq (.dotted token dot)
  | blockCloses token => exact Stepped.step_eq (.blockCloses token)
  | blockOpens token => exact Stepped.step_eq (.blockOpens token)
  | text notOpening notClosing => exact Stepped.step_eq (.text notOpening notClosing)

/-- The failure of an outcome. -/
def Outcome.failure? {α : Type} (o : Outcome α) : Option Failure :=
  match o.2 with
  | .ok _ => none
  | .error failure => some failure

/-- Two outcomes that differ in nothing but the text. -/
structure SameButText {α : Type} (o o' : Outcome α) : Prop where
  table : o.1.table = o'.1.table
  files : o.1.files = o'.1.files
  failure : o.failure? = o'.failure?

theorem SameButText.runTokens {importSheet : String → Path → Pass → Outcome String}
    (child : ∀ statement p pass base,
      SameButText (importSheet statement p pass) (importSheet statement p (pass.withBase base)))
    (tokens : List String) (mode : Mode) (out out' : String) (pass : Pass) (base : Option String) :
    SameButText (runTokens file importSheet tokens mode out pass)
      (runTokens file importSheet tokens mode out' (pass.withBase base)) := by
  induction tokens generalizing mode out out' pass base with
  | nil =>
    rw [runTokens_nil, runTokens_nil]
    cases mode.endFault? with
    | none => exact ⟨rfl, rfl, rfl⟩
    | some cause => exact ⟨rfl, rfl, rfl⟩
  | cons t rest ih =>
    cases path : inlined? mode t with
    | some relative =>
      rw [runTokens_import path, runTokens_import path]
      obtain ⟨table, opened, failure⟩ := child t (file.beside relative) pass base
      cases loaded : importSheet t (file.beside relative) pass with
      | mk between result =>
      cases loaded' : importSheet t (file.beside relative) (pass.withBase base) with
      | mk between' result' =>
      rw [loaded, loaded'] at table opened failure
      cases result with
      | ok inner =>
        cases result' with
        | ok inner' =>
          have same : between' = between.withBase between'.base := Pass.eq_withBase table opened
          rw [same]
          exact ih .statements _ _ between _
        | error failure' => cases failure
      | error failed =>
        cases result' with
        | ok inner' => cases failure
        | error failure' => exact ⟨table, opened, failure⟩
    | none =>
      rw [runTokens_step path, runTokens_step path]
      by_cases asks : Asks mode t
      · rw [asks.step_eq, asks.step_eq]
        exact ih .statements _ _ (pass.withBase none) none
      · rw [step_withBase asks]
        cases step file t mode pass with
        | mk between result =>
        cases result with
        | ok moved => exact ih moved.1 _ _ between base
        | error failed => exact ⟨rfl, rfl, rfl⟩

/-- A file is loaded in the same way whatever the base text is. -/
theorem SameButText.load (bound : Nat) (p : Path) (inProgress : List Path) (fresh : p ∉ inProgress)
    (enough : files.unread inProgress ≤ bound) (pass : Pass) (base : Option String) :
    SameButText (load files bound p inProgress fresh enough pass)
      (load files bound p inProgress fresh enough (pass.withBase base)) := by
  induction bound generalizing p inProgress pass base with
  | zero =>
    cases found : files.read p with
    | error problem =>
      rw [load_of_error found, load_of_error found]
      exact ⟨rfl, rfl, rfl⟩
    | ok css =>
      obtain ⟨less, none⟩ := exists_bound found fresh enough
      cases none
  | succ bound ih =>
    cases found : files.read p with
    | error problem =>
      rw [load_of_error found, load_of_error found]
      exact ⟨rfl, rfl, rfl⟩
    | ok css =>
      rw [load_of_ok found, load_of_ok found]
      refine SameButText.runTokens (fun statement child pass base => ?_) _ _ _ _
        { pass with files := pass.files ++ [p.text] } base
      by_cases seen : child ∈ p :: inProgress
      · rw [dif_pos seen, dif_pos seen]
        exact ⟨rfl, rfl, rfl⟩
      · rw [dif_neg seen, dif_neg seen]
        exact ih child (p :: inProgress) seen _ pass base

theorem sameButText_run (files : SheetFiles) (root : Path) (table : RuleTable) (B B' : String) :
    SameButText (run files root B table) (run files root B' table) :=
  SameButText.load _ root [] _ _ { table, base := some B } (some B')

theorem Traces.inlines {tokens : List String} {trace : List (Mode × Piece)} {after : Pass}
    (h : Traces files file tokens mode pass trace after) :
    Inlines files file tokens mode pass (trace.map (·.2)) after := by
  induction h with
  | done => exact .done
  | inlined path read _ _ content behind => simpa using Inlines.inlined path read content behind
  | kept path moved _ behind => exact .kept path moved behind

theorem Inlines.exists_traces {tokens : List String} {flat : List Piece} {after : Pass}
    (h : Inlines files file tokens mode pass flat after) :
    ∃ trace, Traces files file tokens mode pass trace after ∧ trace.map (·.2) = flat := by
  induction h with
  | done => exact ⟨[], .done, rfl⟩
  | inlined path read _ _ content behind =>
    obtain ⟨inner, within, rfl⟩ := content
    obtain ⟨trace, later, rfl⟩ := behind
    exact ⟨_, .inlined path read within later, by simp⟩
  | kept path moved _ behind =>
    obtain ⟨trace, later, rfl⟩ := behind
    exact ⟨_, .kept path moved later, rfl⟩

/-- Whether a piece stands for a token that asks for the base text. -/
def Asking (e : Mode × Piece) : Prop := Asks e.1 e.2.source

instance decidableAsking (e : Mode × Piece) : Decidable (Asking e) :=
  inferInstanceAs (Decidable (Asks _ _))

/-- The pieces with the text that is written when `base` waits in front of them. -/
def rebase : Option String → List (Mode × Piece) → List (Mode × Piece)
  | _, [] => []
  | base, e :: rest =>
    if Asking e then (e.1, .token e.2.source (askedText base)) :: rebase none rest
    else e :: rebase base rest

/-- The base text that still waits behind the pieces. -/
def waiting : Option String → List (Mode × Piece) → Option String
  | base, [] => base
  | base, e :: rest => if Asking e then none else waiting base rest

theorem waiting_none (trace : List (Mode × Piece)) : waiting none trace = none := by
  induction trace with
  | nil => rfl
  | cons e rest ih =>
    rw [waiting, ih]
    split <;> rfl

theorem rebase_append (base : Option String) (front back : List (Mode × Piece)) :
    rebase base (front ++ back) = rebase base front ++ rebase (waiting base front) back := by
  induction front generalizing base with
  | nil => rfl
  | cons e rest ih =>
    rw [List.cons_append, rebase, rebase, waiting]
    split
    · rw [ih, waiting_none, List.cons_append]
    · rw [ih, List.cons_append]

theorem waiting_append (base : Option String) (front back : List (Mode × Piece)) :
    waiting base (front ++ back) = waiting (waiting base front) back := by
  induction front generalizing base with
  | nil => rfl
  | cons e rest ih =>
    rw [List.cons_append, waiting, waiting]
    split
    · rw [waiting_none]
    · exact ih base

theorem rebase_of_not_asking (base : Option String) {trace : List (Mode × Piece)}
    (h : ∀ e ∈ trace, ¬ Asking e) : rebase base trace = trace ∧ waiting base trace = base := by
  induction trace with
  | nil => exact ⟨rfl, rfl⟩
  | cons e rest ih =>
    obtain ⟨same, still⟩ := ih fun e' inside => h e' (List.mem_cons_of_mem _ inside)
    rw [rebase, waiting, if_neg (h e List.mem_cons_self), if_neg (h e List.mem_cons_self), same,
      still]
    exact ⟨rfl, rfl⟩

/-- Once the base text is gone, a token that asks is written as it stands. -/
theorem eq_of_mem_rebase_none {trace : List (Mode × Piece)} {e : Mode × Piece}
    (inside : e ∈ rebase none trace) (asks : Asking e) :
    e = (.statements, .token "@layer base;" "@layer base;") := by
  induction trace with
  | nil => cases inside
  | cons e' rest ih =>
    rw [rebase] at inside
    split at inside
    · next asks' =>
      rcases List.mem_cons.1 inside with rfl | inside
      · obtain ⟨mode, token⟩ := asks'.eq
        rw [mode, token]
        rfl
      · exact ih inside
    · next silent =>
      rcases List.mem_cons.1 inside with rfl | inside
      · exact absurd asks silent
      · exact ih inside

private theorem not_asking_import : ¬ Asking (.statements, .layer) ∧
    ¬ Asking (.statements, .opening) ∧ ¬ Asking (.statements, .closing) := by decide

/-- The same file with another base text. -/
theorem Traces.withBase {tokens : List String} {trace : List (Mode × Piece)} {after : Pass}
    (h : Traces files file tokens mode pass trace after) (base : Option String) :
    Traces files file tokens mode (pass.withBase base) (rebase base trace)
      (after.withBase (waiting base trace)) := by
  induction h generalizing base with
  | done => exact .done
  | @inlined _ _ _ _ _ _ _ inner _ _ _ path read _ _ content behind =>
    obtain ⟨layer, opening, closing⟩ := not_asking_import
    have whole := Traces.inlined path read (content base) (behind (waiting base inner))
    simpa only [List.cons_append, rebase, waiting, rebase_append, waiting_append, if_neg layer,
      if_neg opening, if_neg closing] using whole
  | @kept file t rest mode pass next between text _ _ path moved _ behind =>
    rw [rebase, waiting]
    split
    · next asks =>
      have same := moved.symm.trans (Asks.step_eq asks)
      simp only [Prod.mk.injEq, Except.ok.injEq] at same
      obtain ⟨rfl, rfl, rfl⟩ := same
      have later := behind none
      rw [waiting_none] at later
      exact .kept path (Asks.step_eq asks) later
    · next silent =>
      have notAsks : ¬ Asks mode t := silent
      have moved' : step file t mode (pass.withBase base) =
          (between.withBase base, .ok (next, text)) := by
        rw [step_withBase notAsks, moved]
      exact .kept path moved' (behind base)

/-- Only the first piece that asks has the base text. -/
theorem exists_rebase_some (trace : List (Mode × Piece)) :
    (∀ e ∈ trace, ¬ Asking e) ∨ ∃ front back, (∀ e ∈ front, ¬ Asking e) ∧
      (∀ e ∈ back, Asking e → e = (.statements, .token "@layer base;" "@layer base;")) ∧
      ∀ B, rebase (some B) trace = front ++
        (.statements, .token "@layer base;" ("@layer base \x7b" ++ B ++ "\x7d")) :: back := by
  induction trace with
  | nil => exact .inl fun _ none => absurd none List.not_mem_nil
  | cons e rest ih =>
    by_cases asks : Asking e
    · refine .inr ⟨[], rebase none rest, fun _ none => absurd none List.not_mem_nil,
        fun _ inside asks' => eq_of_mem_rebase_none inside asks', fun B => ?_⟩
      obtain ⟨mode, token⟩ := Asks.eq asks
      rw [rebase, if_pos asks, mode, token]
      rfl
    · rcases ih with silent | ⟨front, back, silent, passed, filled⟩
      · exact .inl (List.forall_mem_cons.2 ⟨asks, silent⟩)
      · refine .inr ⟨e :: front, back, List.forall_mem_cons.2 ⟨asks, silent⟩, passed, fun B => ?_⟩
        rw [rebase, if_neg asks, filled, List.cons_append]

variable {root : Path} {table : RuleTable}

/-- What one base text lets a pass write shows what every base text does. -/
private theorem exists_trace {base out : String} (h : (run files root base table).2 = .ok out) :
    ∃ css trace, files.read root = .ok css ∧ ∀ B,
      (∃ after, Traces files root (Css.tokens css) .statements { table, base := some B }
        (rebase (some B) trace) after) ∧
      (run files root B table).2 = .ok (writtenText " " ((rebase (some B) trace).map (·.2))) := by
  obtain ⟨css, flat, read, inlines, -⟩ := inlines_of_load (Prod.ext rfl h)
  obtain ⟨trace, traces, rfl⟩ := inlines.exists_traces
  refine ⟨css, trace, read, fun B => ?_⟩
  have moved := traces.withBase (some B)
  refine ⟨⟨_, moved⟩, ?_⟩
  have same := (sameButText_run files root table base B).failure
  cases other : (run files root B table).2 with
  | error failure => simp [Outcome.failure?, h, other] at same
  | ok out' =>
    obtain ⟨css', flat', read', inlines', text⟩ := inlines_of_load (Prod.ext rfl other)
    obtain rfl := Except.ok.inj (read.symm.trans read')
    rw [text, (inlines'.unique moved.inlines).1]

/-- The outcome of a pass is the same for every base text, or the base text stands at one place of
it. The place is that of the first token that asks for it; the tokens behind it that ask are written
as they stand. Nothing else depends on the base text: neither the rules, nor the files that are
opened, nor the failure. -/
theorem run_base (files : SheetFiles) (root : Path) (table : RuleTable) :
    (∀ B B', SameButText (run files root B table) (run files root B' table)) ∧
    ((∃ failure, ∀ B, (run files root B table).2 = .error failure) ∨
    ∃ css, files.read root = .ok css ∧
      ((∃ trace, (∀ e ∈ trace, ¬ Asking e) ∧ ∀ B,
        (∃ after, Traces files root (Css.tokens css) .statements { table, base := some B } trace
          after) ∧
        (run files root B table).2 = .ok (writtenText " " (trace.map (·.2)))) ∨
      ∃ front back, (∀ e ∈ front, ¬ Asking e) ∧
        (∀ e ∈ back, Asking e → e = (.statements, .token "@layer base;" "@layer base;")) ∧ ∀ B,
        (∃ after, Traces files root (Css.tokens css) .statements { table, base := some B }
          (front ++ (.statements, .token "@layer base;" ("@layer base \x7b" ++ B ++ "\x7d")) ::
            back) after) ∧
        (run files root B table).2 = .ok (writtenText " " (front.map (·.2)) ++
          ("@layer base \x7b" ++ B ++ "\x7d") ++ writtenText " " (back.map (·.2))))) := by
  have alike := sameButText_run files root table
  refine ⟨alike, ?_⟩
  cases result : (run files root "" table).2 with
  | error failure =>
    refine .inl ⟨failure, fun B => ?_⟩
    have same := (alike "" B).failure
    cases other : (run files root B table).2 with
    | ok out => simp [Outcome.failure?, result, other] at same
    | error failure' => simp_all [Outcome.failure?]
  | ok out =>
    obtain ⟨css, trace, read, written⟩ := exists_trace result
    refine .inr ⟨css, read, ?_⟩
    rcases exists_rebase_some trace with silent | ⟨front, back, silent, passed, filled⟩
    · refine .inl ⟨trace, silent, fun B => ?_⟩
      have here := written B
      rwa [(rebase_of_not_asking (some B) silent).1] at here
    · refine .inr ⟨front, back, silent, passed, fun B => ?_⟩
      have here := written B
      rw [filled] at here
      refine ⟨here.1, ?_⟩
      rw [here.2, List.map_append, List.map_cons, writtenText_append, writtenText_cons,
        Piece.written, ← String.append_assoc]

/-- A statement asks and a token inside a block does not. -/
example : (run (.ofList [(⟨.here, 0, ["a.css"]⟩,
      "@layer utilities\x7b.x\x7b@layer base;\x7d\x7d@layer base;@layer base;")])
    ⟨.here, 0, ["a.css"]⟩ "b" .empty).2.toOption =
      some "@layer base \x7bb\x7d@layer base;" := by
  decide +kernel

end UtilityCss.Sheet
