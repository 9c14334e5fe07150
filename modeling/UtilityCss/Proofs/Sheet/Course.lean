import Mathlib.Logic.Function.Iterate
import UtilityCss.Proofs.Sheet.Step

/-! The course of a pass, moment by moment, as a machine whose stack holds the files in progress. It
comes to an end, and to that of the pass. -/
namespace UtilityCss.Sheet

/-- A file in progress: what is left of its tokens, and what the others have come to. -/
structure Frame where
  file : Path
  rest : List String
  mode : Mode
  out : String

/-- A moment of a pass: the file that is read, the files that wait for it, innermost first, the pass
so far, and the tokens that were processed for it, each import in front of those of its file. -/
structure Moment where
  top : Frame
  waiting : List Frame
  pass : Pass
  met : List String

/-- The files in progress, innermost first. -/
def Moment.inProgress (m : Moment) : List Path := m.top.file :: m.waiting.map Frame.file

/-- Where a pass stands: at a moment from which it goes on, or at its end. -/
inductive Stage
  | going (m : Moment)
  | ended (met : List String) (outcome : Outcome String)

/-- Opening the file `p` for those that wait for it. -/
def enter (files : SheetFiles) (p : Path) (waiting : List Frame) (pass : Pass)
    (met : List String) : Stage :=
  let pass := { pass with files := pass.files ++ [p.text] }
  match files.read p with
  | .error problem => .ended met (pass, .error (problem.failure p))
  | .ok css => .going ⟨⟨p, Css.tokens css, .statements, ""⟩, waiting, pass, met⟩

/-- The frame with the text of an imported file behind its own. -/
def Frame.resumed (caller : Frame) (text : String) : Frame :=
  { caller with out := caller.out ++ "@layer \x7b" ++ text ++ "\x7d" }

/-- What a file whose load is over leaves to those that wait for it. -/
def leave (met : List String) : List Frame → Outcome String → Stage
  | _, (pass, .error failure) => .ended met (pass, .error failure)
  | [], (pass, .ok text) => .ended met (pass, .ok text)
  | caller :: waiting, (pass, .ok text) => .going ⟨caller.resumed text, waiting, pass, met⟩

/-- The failure of importing a file that is in progress. -/
def circularFailure (file child : Path) (statement : String) : Failure :=
  .faulty ⟨.circularImport child.text statement, some file.text⟩

/-- What comes of a moment: one token is processed, a file is opened, or one is left. -/
def Moment.next (files : SheetFiles) : Moment → Stage
  | ⟨⟨file, [], mode, out⟩, waiting, pass, met⟩ =>
    match mode.endFault? with
    | none => leave met waiting (pass, .ok out)
    | some cause => .ended met (pass, .error (.faulty ⟨cause, some file.text⟩))
  | ⟨⟨file, t :: rest, mode, out⟩, waiting, pass, met⟩ =>
    match inlined? mode t with
    | some relative =>
      if file.beside relative ∈ file :: waiting.map Frame.file then
        .ended met (pass, .error (circularFailure file (file.beside relative) t))
      else
        enter files (file.beside relative) (⟨file, rest, .statements, out⟩ :: waiting) pass
          (met ++ [t])
    | none =>
      match step file t mode pass with
      | (pass, .ok (mode, text)) =>
        .going ⟨⟨file, rest, mode, out ++ text⟩, waiting, pass, met ++ [t]⟩
      | (pass, .error failure) => .ended met (pass, .error failure)

/-- The stage behind another one. Nothing follows the end. -/
def Stage.next (files : SheetFiles) : Stage → Stage
  | .going m => m.next files
  | .ended met outcome => .ended met outcome

/-- The stage of a pass from a root file after `n` moves. -/
def course (files : SheetFiles) (root : Path) (base : String) (table : RuleTable) (n : Nat) :
    Stage :=
  (Stage.next files)^[n] (enter files root [] { table, base := some base } [])

/-- A stage comes some moves behind another one. -/
def Leads (files : SheetFiles) (s s' : Stage) : Prop := ∃ n, (Stage.next files)^[n] s = s'

variable {files : SheetFiles} {s s' s'' : Stage} {met : List String} {outcome : Outcome String}

theorem Leads.refl (s : Stage) : Leads files s s := ⟨0, rfl⟩

theorem Leads.trans (first : Leads files s s') (second : Leads files s' s'') :
    Leads files s s'' := by
  obtain ⟨n, rfl⟩ := first
  obtain ⟨k, rfl⟩ := second
  exact ⟨k + n, Function.iterate_add_apply _ k n s⟩

theorem Leads.head {m : Moment} (later : Leads files (m.next files) s) :
    Leads files (.going m) s :=
  .trans ⟨1, rfl⟩ later

theorem iterate_ended (n : Nat) :
    (Stage.next files)^[n] (.ended met outcome) = .ended met outcome :=
  Function.iterate_fixed rfl n

/-- A file whose imports lead where `importSheet` says leads where its tokens do. -/
private theorem leads_runTokens {p : Path}
    {importSheet : String → Path → Pass → Outcome String} {waiting : List Frame}
    (child : ∀ {mode : Mode} {t relative : String}, inlined? mode t = some relative →
      ∀ (rest : List String) (out : String) (pass : Pass) (met : List String), ∃ met',
        Leads files (Moment.next files ⟨⟨p, t :: rest, mode, out⟩, waiting, pass, met⟩)
          (leave met' (⟨p, rest, .statements, out⟩ :: waiting)
            (importSheet t (p.beside relative) pass)))
    (tokens : List String) (mode : Mode) (out : String) (pass : Pass) (met : List String) :
    ∃ met', Leads files (.going ⟨⟨p, tokens, mode, out⟩, waiting, pass, met⟩)
      (leave met' waiting (runTokens p importSheet tokens mode out pass)) := by
  induction tokens generalizing mode out pass met with
  | nil =>
    refine ⟨met, .head ?_⟩
    rw [runTokens_nil, Moment.next]
    cases mode.endFault? with
    | none => exact .refl _
    | some cause => exact .refl _
  | cons t rest ih =>
    cases path : inlined? mode t with
    | some relative =>
      obtain ⟨between, inside⟩ := child path rest out pass met
      rw [runTokens_import path]
      cases loaded : importSheet t (p.beside relative) pass with
      | mk after result =>
        rw [loaded] at inside
        cases result with
        | error failure => exact ⟨between, inside.head⟩
        | ok text =>
          obtain ⟨met', behind⟩ :=
            ih .statements (out ++ "@layer \x7b" ++ text ++ "\x7d") after between
          exact ⟨met', .head (inside.trans behind)⟩
    | none =>
      rw [runTokens_step path]
      cases moved : step p t mode pass with
      | mk after result =>
        cases result with
        | error failure =>
          refine ⟨met, .head ?_⟩
          rw [Moment.next, path, moved]
          exact .refl _
        | ok reached =>
          obtain ⟨met', behind⟩ := ih reached.1 (out ++ reached.2) after (met ++ [t])
          refine ⟨met', .head ?_⟩
          rw [Moment.next, path, moved]
          exact behind

/-- The machine does what loading a file does. -/
private theorem leads_load (bound : Nat) (p : Path) (waiting : List Frame)
    (fresh : p ∉ waiting.map Frame.file)
    (enough : files.unread (waiting.map Frame.file) ≤ bound) (pass : Pass) (met : List String) :
    ∃ met', Leads files (enter files p waiting pass met)
      (leave met' waiting (load files bound p _ fresh enough pass)) := by
  induction bound generalizing p waiting pass met with
  | zero =>
    cases found : files.read p with
    | error problem =>
      rw [load_of_error found, enter, found]
      exact ⟨met, .refl _⟩
    | ok css =>
      obtain ⟨_, impossible⟩ := exists_bound found fresh enough
      cases impossible
  | succ bound ih =>
    cases found : files.read p with
    | error problem =>
      rw [load_of_error found, enter, found]
      exact ⟨met, .refl _⟩
    | ok css =>
      rw [load_of_ok found, enter, found]
      refine leads_runTokens ?_ _ _ _ _ met
      intro mode t relative path rest out pass met
      rw [Moment.next, path]
      by_cases seen : p.beside relative ∈ p :: waiting.map Frame.file
      · simp only [dif_pos seen, if_pos seen]
        exact ⟨met, .refl _⟩
      · simp only [dif_neg seen, if_neg seen]
        exact ih (p.beside relative) (⟨p, rest, .statements, out⟩ :: waiting) seen _ pass
          (met ++ [t])

variable {root : Path} {base : String} {table : RuleTable}

/-- The course of a pass comes to an end, which is that of the pass. -/
theorem exists_course_eq_ended (files : SheetFiles) (root : Path) (base : String)
    (table : RuleTable) : ∃ n met, course files root base table n =
      .ended met (run files root base table) := by
  obtain ⟨met, n, ends⟩ :=
    leads_load (files.unread []) root [] List.not_mem_nil (Nat.le_refl _)
      { table, base := some base } []
  refine ⟨n, met, ends.trans ?_⟩
  change leave met [] (run files root base table) = _
  cases run files root base table with
  | mk pass result =>
    cases result with
    | ok text => rfl
    | error failure => rfl

/-- There is no other end. -/
theorem eq_run_of_course_eq_ended {n : Nat}
    (h : course files root base table n = .ended met outcome) :
    outcome = run files root base table := by
  obtain ⟨k, met', ends⟩ := exists_course_eq_ended files root base table
  have onward {n k : Nat} {met : List String} {outcome : Outcome String}
      (ends : course files root base table n = .ended met outcome) :
      course files root base table (k + n) = .ended met outcome := by
    rw [course, Function.iterate_add_apply, ← course, ends, iterate_ended]
  have same := (onward (k := k) h).symm.trans (Nat.add_comm k n ▸ onward (k := n) ends)
  cases same
  rfl

/-- What a moment that is not the last one leads to. -/
inductive Moves (files : SheetFiles) : Moment → Moment → Prop
  | token {file : Path} {t text out : String} {rest met : List String} {mode mode' : Mode}
    {waiting : List Frame} {pass after : Pass} (plain : inlined? mode t = none)
    (stepped : step file t mode pass = (after, .ok (mode', text))) :
    Moves files ⟨⟨file, t :: rest, mode, out⟩, waiting, pass, met⟩
      ⟨⟨file, rest, mode', out ++ text⟩, waiting, after, met ++ [t]⟩
  | enters {file : Path} {t relative css out : String} {rest met : List String} {mode : Mode}
    {waiting : List Frame} {pass : Pass} (path : inlined? mode t = some relative)
    (fresh : file.beside relative ∉ file :: waiting.map Frame.file)
    (found : files.read (file.beside relative) = .ok css) :
    Moves files ⟨⟨file, t :: rest, mode, out⟩, waiting, pass, met⟩
      ⟨⟨file.beside relative, Css.tokens css, .statements, ""⟩,
        ⟨file, rest, .statements, out⟩ :: waiting,
        { pass with files := pass.files ++ [(file.beside relative).text] }, met ++ [t]⟩
  | leaves {file : Path} {out : String} {met : List String} {mode : Mode} {caller : Frame}
    {waiting : List Frame} {pass : Pass} (closed : mode.endFault? = none) :
    Moves files ⟨⟨file, [], mode, out⟩, caller :: waiting, pass, met⟩
      ⟨caller.resumed out, waiting, pass, met⟩

theorem enter_eq_going {p : Path} {waiting : List Frame} {pass : Pass} {m : Moment}
    (h : enter files p waiting pass met = .going m) : ∃ css, files.read p = .ok css ∧
      m = ⟨⟨p, Css.tokens css, .statements, ""⟩, waiting,
        { pass with files := pass.files ++ [p.text] }, met⟩ := by
  rw [enter] at h
  cases found : files.read p with
  | error problem =>
    rw [found] at h
    cases h
  | ok css =>
    rw [found] at h
    cases h
    exact ⟨css, rfl, rfl⟩

/-- What the last moment of a pass comes to. -/
inductive Ends (files : SheetFiles) : Moment → List String → Outcome String → Prop
  | finished {file : Path} {out : String} {met : List String} {mode : Mode} {pass : Pass}
    (closed : mode.endFault? = none) :
    Ends files ⟨⟨file, [], mode, out⟩, [], pass, met⟩ met (pass, .ok out)
  | unclosed {file : Path} {out : String} {met : List String} {mode : Mode} {waiting : List Frame}
    {pass : Pass} {cause : Cause} (fault : mode.endFault? = some cause) :
    Ends files ⟨⟨file, [], mode, out⟩, waiting, pass, met⟩ met
      (pass, .error (.faulty ⟨cause, some file.text⟩))
  | circular {file : Path} {t relative out : String} {rest met : List String} {mode : Mode}
    {waiting : List Frame} {pass : Pass} (path : inlined? mode t = some relative)
    (back : file.beside relative ∈ file :: waiting.map Frame.file) :
    Ends files ⟨⟨file, t :: rest, mode, out⟩, waiting, pass, met⟩ met
      (pass, .error (circularFailure file (file.beside relative) t))
  | unreadable {file : Path} {t relative out : String} {rest met : List String} {mode : Mode}
    {waiting : List Frame} {pass : Pass} {problem : ReadProblem}
    (path : inlined? mode t = some relative)
    (found : files.read (file.beside relative) = .error problem) :
    Ends files ⟨⟨file, t :: rest, mode, out⟩, waiting, pass, met⟩ (met ++ [t])
      ({ pass with files := pass.files ++ [(file.beside relative).text] },
        .error (problem.failure (file.beside relative)))
  | failed {file : Path} {t out : String} {rest met : List String} {mode : Mode}
    {waiting : List Frame} {pass after : Pass} {failure : Failure}
    (plain : inlined? mode t = none)
    (stepped : step file t mode pass = (after, .error failure)) :
    Ends files ⟨⟨file, t :: rest, mode, out⟩, waiting, pass, met⟩ met (after, .error failure)

/-- All that can come of a moment. -/
inductive Moment.Next (files : SheetFiles) (m : Moment) : Stage → Prop
  | going {m' : Moment} (moves : Moves files m m') : Next files m (.going m')
  | ended {met : List String} {outcome : Outcome String} (ends : Ends files m met outcome) :
    Next files m (.ended met outcome)

theorem Moment.next_cases (m : Moment) (files : SheetFiles) : m.Next files (m.next files) := by
  obtain ⟨⟨file, tokens, mode, out⟩, waiting, pass, met⟩ := m
  cases tokens with
  | nil =>
    rw [Moment.next]
    cases closed : mode.endFault? with
    | some cause => exact .ended (.unclosed closed)
    | none =>
      cases waiting with
      | nil => exact .ended (.finished closed)
      | cons caller waiting => exact .going (.leaves closed)
  | cons t rest =>
    cases path : inlined? mode t with
    | some relative =>
      by_cases back : file.beside relative ∈ file :: waiting.map Frame.file
      · simp only [Moment.next, path, if_pos back]
        exact .ended (.circular path back)
      · simp only [Moment.next, path, if_neg back, enter]
        cases found : files.read (file.beside relative) with
        | error problem => exact .ended (.unreadable path found)
        | ok css => exact .going (.enters path back found)
    | none =>
      cases moved : step file t mode pass with
      | mk after result =>
        simp only [Moment.next, path, moved]
        cases result with
        | error failure => exact .ended (.failed path moved)
        | ok reached => exact .going (.token path moved)

theorem moves_of_next {m m' : Moment} (h : m.next files = .going m') : Moves files m m' := by
  have next := m.next_cases files
  rw [h] at next
  cases next with
  | going moves => exact moves

theorem ends_of_next {m : Moment} (h : m.next files = .ended met outcome) :
    Ends files m met outcome := by
  have next := m.next_cases files
  rw [h] at next
  cases next with
  | ended ends => exact ends

/-- What holds at the first moment and is kept by every move holds at every moment. -/
theorem course_invariant {I : Moment → Prop}
    (first : ∀ {css : String}, files.read root = .ok css → I
      ⟨⟨root, Css.tokens css, .statements, ""⟩, [],
        { table, base := some base, files := [root.text] }, []⟩)
    (kept : ∀ {m m' : Moment}, I m → Moves files m m' → I m') {n : Nat} {m : Moment}
    (h : course files root base table n = .going m) : I m := by
  induction n generalizing m with
  | zero =>
    obtain ⟨css, found, rfl⟩ := enter_eq_going h
    exact first found
  | succ n ih =>
    rw [course, Function.iterate_succ_apply', ← course] at h
    cases before : course files root base table n with
    | ended met outcome =>
      rw [before] at h
      cases h
    | going m' =>
      rw [before] at h
      exact kept (ih before) (moves_of_next h)

/-- A pass ends at its root, which it cannot read, or behind its last moment. -/
theorem course_eq_ended {n : Nat} (h : course files root base table n = .ended met outcome) :
    (∃ problem, files.read root = .error problem ∧ met = [] ∧
      outcome = ({ table, base := some base, files := [root.text] },
        .error (problem.failure root))) ∨
    ∃ k m, course files root base table k = .going m ∧ m.next files = .ended met outcome := by
  induction n with
  | zero =>
    have first : enter files root [] { table, base := some base } [] = .ended met outcome := h
    rw [enter] at first
    cases found : files.read root with
    | ok css =>
      rw [found] at first
      cases first
    | error problem =>
      rw [found] at first
      cases first
      exact .inl ⟨problem, rfl, rfl, rfl⟩
  | succ n ih =>
    cases before : course files root base table n with
    | going m =>
      rw [course, Function.iterate_succ_apply', ← course, before] at h
      exact .inr ⟨n, m, before, h⟩
    | ended met' outcome' =>
      rw [course, Function.iterate_succ_apply', ← course, before] at h
      cases h
      exact ih before

end UtilityCss.Sheet
