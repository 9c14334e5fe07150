import Mathlib.Data.List.Nodup
import Mathlib.Data.List.Perm.Subperm
import UtilityCss.Proofs.Files.Path
import UtilityCss.Proofs.Sheet.Course

/-! The files in progress, and the imports that lead back to one of them. -/
namespace UtilityCss.Sheet

/-- A sheet has an import of another one that can be inlined. -/
def Imports (files : SheetFiles) (p q : Path) : Prop :=
  ∃ css t relative, files.read p = .ok css ∧ t ∈ Css.tokens css ∧ importPath? t = some relative ∧
    q = p.beside relative

/-- A chain of imports from a root, innermost first. -/
inductive ImportChain (files : SheetFiles) (root : Path) : List Path → Prop
  | root : ImportChain files root [root]
  | further {p q : Path} {above : List Path} (chain : ImportChain files root (p :: above))
    (imports : Imports files p q) : ImportChain files root (q :: p :: above)

/-- The import that is processed next: its statement and its file. -/
def Moment.import? (m : Moment) : Option (String × Path) :=
  match m.top.rest with
  | [] => none
  | t :: _ => (inlined? m.top.mode t).map fun relative => (t, m.top.file.beside relative)

variable {files : SheetFiles} {root p q : Path} {above : List Path}

theorem ImportChain.tail (h : ImportChain files root (q :: p :: above)) :
    ImportChain files root (p :: above) := by
  cases h with
  | further chain imports => exact chain

theorem ImportChain.normal (normal : root.Normal) (h : ImportChain files root above) :
    ∀ p ∈ above, p.Normal := by
  induction h with
  | root => exact List.forall_mem_singleton.2 normal
  | further chain imports ih =>
    obtain ⟨_, _, relative, _, _, _, rfl⟩ := imports
    exact List.forall_mem_cons.2 ⟨(ih _ List.mem_cons_self).beside relative, ih⟩

/-- The frame stands inside its file. -/
def Frame.Inside (files : SheetFiles) (f : Frame) : Prop :=
  ∃ css before, files.read f.file = .ok css ∧ Css.tokens css = before ++ f.rest

/-- What holds of the files in progress at every moment. -/
structure Moment.Sound (files : SheetFiles) (root : Path) (m : Moment) : Prop where
  distinct : m.inProgress.Nodup
  chain : ImportChain files root m.inProgress
  inside : ∀ f ∈ m.top :: m.waiting, f.Inside files

theorem Frame.Inside.imports {file : Path} {t relative out : String} {rest : List String}
    {mode : Mode} (h : Frame.Inside files ⟨file, t :: rest, mode, out⟩)
    (path : inlined? mode t = some relative) : Imports files file (file.beside relative) := by
  obtain ⟨css, before, found, split⟩ := h
  obtain ⟨-, statement⟩ := inlined?_eq_some_iff.1 path
  have inside : t ∈ Css.tokens css := split ▸ List.mem_append_right _ List.mem_cons_self
  exact ⟨css, t, relative, found, inside, statement, rfl⟩

theorem Frame.Inside.behind {file : Path} {t out out' : String} {rest : List String}
    {mode mode' : Mode} (h : Frame.Inside files ⟨file, t :: rest, mode, out⟩) :
    Frame.Inside files ⟨file, rest, mode', out'⟩ := by
  obtain ⟨css, before, found, split⟩ := h
  exact ⟨css, before ++ [t], found, by rw [split, List.append_assoc]; rfl⟩

theorem Moment.Sound.moves {m m' : Moment} (h : m.Sound files root) (moves : Moves files m m') :
    m'.Sound files root := by
  obtain ⟨distinct, chain, inside⟩ := h
  obtain ⟨here, waiting⟩ := List.forall_mem_cons.1 inside
  cases moves with
  | token plain stepped => exact ⟨distinct, chain, List.forall_mem_cons.2 ⟨here.behind, waiting⟩⟩
  | @enters _ _ _ css _ _ _ _ _ _ path fresh found =>
    exact ⟨List.nodup_cons.2 ⟨fresh, distinct⟩, chain.further (here.imports path),
      List.forall_mem_cons.2 ⟨⟨css, [], found, rfl⟩,
        List.forall_mem_cons.2 ⟨here.behind, waiting⟩⟩⟩
  | leaves closed =>
    obtain ⟨caller, waiting⟩ := List.forall_mem_cons.1 waiting
    exact ⟨(List.nodup_cons.1 distinct).2, chain.tail, List.forall_mem_cons.2 ⟨caller, waiting⟩⟩

variable {base : String} {table : RuleTable} {m : Moment}

theorem sound_of_course {n : Nat} (h : course files root base table n = .going m) :
    m.Sound files root :=
  course_invariant (I := Moment.Sound files root)
    (fun {css} found => ⟨List.nodup_singleton _, .root,
      List.forall_mem_singleton.2 ⟨css, [], found, rfl⟩⟩)
    Moment.Sound.moves h

theorem Moment.Sound.exists_read (h : m.Sound files root) :
    ∀ p ∈ m.inProgress, ∃ css, files.read p = .ok css := by
  intro p member
  obtain ⟨f, inProgress, rfl⟩ := (List.mem_map.1 member : ∃ f ∈ m.top :: m.waiting, f.file = p)
  obtain ⟨css, _, found, _⟩ := h.inside f inProgress
  exact ⟨css, found⟩

/-- Files in progress differ also in their texts. -/
theorem Moment.Sound.nodup_text (h : m.Sound files root) (normal : root.Normal) :
    (m.inProgress.map Path.text).Nodup :=
  h.distinct.map_on fun p hp q hq same =>
    (h.chain.normal normal p hp).eq_of_text_eq (h.chain.normal normal q hq) same

/-- The moment imports a file in progress. -/
def Moment.Returns (m : Moment) (t : String) (child : Path) : Prop :=
  m.import? = some (t, child) ∧ child ∈ m.inProgress

/-- The outcome when a moment imports a file in progress. -/
theorem Moment.Returns.next_eq {t : String} {child : Path} (h : m.Returns t child) :
    m.next files = .ended m.met (m.pass, .error (circularFailure m.top.file child t)) := by
  obtain ⟨⟨file, tokens, mode, out⟩, waiting, pass, met⟩ := m
  obtain ⟨next, back⟩ := h
  cases tokens with
  | nil => cases next
  | cons t' rest =>
    obtain ⟨relative, path, same⟩ := Option.map_eq_some_iff.1 next
    cases same
    replace path : inlined? mode t = some relative := path
    simp only [Moment.next, path]
    exact if_pos back

theorem ReadProblem.failure_ne_circularImport (problem : ReadProblem) (p : Path) (child t : String)
    (file : Option String) : problem.failure p ≠ .faulty ⟨.circularImport child t, file⟩ := by
  intro same
  cases problem with
  | file problem => cases same
  | notUtf8 => cases same

/-- Importing a file in progress is the only way to end with the fault. -/
theorem returns_of_next {child t : String} {file : Option String} {met : List String} {pass : Pass}
    (h : m.next files = .ended met (pass, .error (.faulty ⟨.circularImport child t, file⟩))) :
    pass = m.pass ∧ ∃ q, m.Returns t q ∧ child = q.text ∧ file = some m.top.file.text := by
  generalize same : (pass, Except.error (Failure.faulty ⟨.circularImport child t, file⟩)) =
    outcome at h
  cases ends_of_next h with
  | finished closed => cases same
  | @unclosed _ _ _ mode _ _ _ fault =>
    cases same
    cases mode <;> cases fault
  | circular path back =>
    cases same
    exact ⟨rfl, _, ⟨congrArg (Option.map _) path, back⟩, rfl, rfl⟩
  | unreadable path found =>
    simp only [Prod.mk.injEq, Except.error.injEq] at same
    exact absurd same.2.symm (ReadProblem.failure_ne_circularImport _ _ _ _ _)
  | failed plain stepped =>
    cases same
    cases stepped_of_step stepped

/-- A pass ends with the fault exactly when its course imports a file in progress. -/
theorem run_eq_circularImport_iff {child t : String} {file : Option String} {pass : Pass} :
    run files root base table = (pass, .error (.faulty ⟨.circularImport child t, file⟩)) ↔
      ∃ n m q, course files root base table n = .going m ∧ m.Returns t q ∧ pass = m.pass ∧
        child = q.text ∧ file = some m.top.file.text := by
  constructor
  · intro failed
    obtain ⟨n, met, ends⟩ := exists_course_eq_ended files root base table
    rw [failed] at ends
    rcases course_eq_ended ends with ⟨problem, _, _, same⟩ | ⟨k, m, reached, last⟩
    · simp only [Prod.mk.injEq, Except.error.injEq] at same
      exact absurd same.2.symm (problem.failure_ne_circularImport _ _ _ _)
    · obtain ⟨passes, q, returns, named, located⟩ := returns_of_next last
      exact ⟨k, m, q, reached, returns, passes, named, located⟩
  · rintro ⟨n, m, q, reached, returns, rfl, rfl, rfl⟩
    have ends : course files root base table (n + 1) =
        .ended m.met (m.pass, .error (circularFailure m.top.file q t)) := by
      rw [course, Function.iterate_succ_apply', ← course, reached]
      exact returns.next_eq
    exact (eq_run_of_course_eq_ended ends).symm

/-- The import behind which a moment stands is one of its file. -/
theorem Moment.Sound.imports (h : m.Sound files root) {t : String} {child : Path}
    (next : m.import? = some (t, child)) : Imports files m.top.file child := by
  obtain ⟨⟨file, tokens, mode, out⟩, waiting, pass, met⟩ := m
  cases tokens with
  | nil => cases next
  | cons t' rest =>
    obtain ⟨relative, path, same⟩ := Option.map_eq_some_iff.1 next
    cases same
    exact (h.inside _ List.mem_cons_self).imports path

/-- A pass comes to an end. The files in progress are always different files that can be read, each
imported by the one in front of it, so there are never more of them than such files. A pass ends
with the fault of a circular import exactly when an import in its course leads back to a file in
progress, and there is none when no chain of imports does. -/
theorem course_circularImport (files : SheetFiles) (root : Path) (base : String)
    (table : RuleTable) :
    (∃ n met, course files root base table n = .ended met (run files root base table)) ∧
    (∀ n m, course files root base table n = .going m →
      m.inProgress.Nodup ∧ (root.Normal → (m.inProgress.map Path.text).Nodup) ∧
      ImportChain files root m.inProgress ∧
      (∀ p ∈ m.inProgress, ∃ css, files.read p = .ok css) ∧
      ∀ existing : List Path, (∀ p css, files.read p = .ok css → p ∈ existing) →
        m.inProgress.length ≤ existing.length) ∧
    ((∀ p q above, ImportChain files root (p :: above) → Imports files p q → q ∉ p :: above) →
      ∀ pass child t file,
        run files root base table ≠ (pass, .error (.faulty ⟨.circularImport child t, file⟩))) ∧
    ∀ pass child t file,
      run files root base table = (pass, .error (.faulty ⟨.circularImport child t, file⟩)) ↔
        ∃ n m q, course files root base table n = .going m ∧ m.Returns t q ∧ pass = m.pass ∧
          child = q.text ∧ file = some m.top.file.text := by
  refine ⟨exists_course_eq_ended files root base table, fun n m reached => ?_,
    fun straight pass child t file failed => ?_, fun _ _ _ _ => run_eq_circularImport_iff⟩
  · have sound := sound_of_course reached
    refine ⟨sound.distinct, sound.nodup_text, sound.chain, sound.exists_read,
      fun existing all => ?_⟩
    refine (List.subperm_of_subset sound.distinct fun p member => ?_).length_le
    obtain ⟨css, found⟩ := sound.exists_read p member
    exact all p css found
  · obtain ⟨n, m, q, reached, ⟨next, back⟩, _⟩ := run_eq_circularImport_iff.1 failed
    have sound := sound_of_course reached
    exact straight m.top.file q _ sound.chain (sound.imports next) back

end UtilityCss.Sheet
