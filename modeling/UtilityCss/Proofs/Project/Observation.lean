import UtilityCss.Proofs.Files.Change
import UtilityCss.Proofs.Files.Zero
import UtilityCss.Proofs.Project.Watcher

/-! What a watcher tells over its whole life. A poll tells the paths whose states differ from those
noted last. Listing a file notes its state anew, and this loses what happened to it before. -/
namespace UtilityCss.Project.Watcher

variable {tree : FileTree} {w w' : Watcher} {path : String} {state state' : Option Nat}

/-- The state of a path: that of a listed file is what a look at it shows, and every other path has
the stamp that a walk through a watched directory shows, if one comes to it. -/
def IsState (tree : FileTree) (w : Watcher) (path : String) (state : Option Nat) : Prop :=
  if path ∈ w.files then tree.stamp? path = .ok state
  else ∀ stamp, state = some stamp ↔ ∃ d ∈ w.directories, Shows tree d path stamp

theorem IsState.unique (h : IsState tree w path state) (h' : IsState tree w path state') :
    state = state' := by
  unfold IsState at h h'
  split at h
  · next listed =>
    rw [if_pos listed] at h'
    exact Except.ok.inj (h.symm.trans h')
  · next other =>
    rw [if_neg other] at h'
    exact Option.ext fun stamp => (h stamp).trans (h' stamp).symm

/-- A scan notes the state of every path. -/
theorem isState_of_scan (sound : tree.Sound) {snapshot : Snapshot}
    (h : w.scan tree = .ok snapshot) (path : String) : IsState tree w path snapshot[path]? := by
  unfold IsState
  split
  · next listed =>
    obtain ⟨state, look, noted⟩ := scan_eq_ok sound h path listed
    rw [noted, look]
  · next other => exact fun stamp => scan_of_not_listed sound h other

private theorem exists_foldlM_look {files : List String}
    (looks : ∀ f ∈ files, ∃ state, tree.stamp? f = .ok state) (snapshot : Snapshot) :
    ∃ listed, files.foldlM (look tree) snapshot = .ok listed := by
  induction files generalizing snapshot with
  | nil => exact ⟨snapshot, rfl⟩
  | cons f rest ih =>
    obtain ⟨⟨state, first⟩, later⟩ := List.forall_mem_cons.1 looks
    obtain ⟨next, here⟩ : ∃ next, look tree snapshot f = .ok next := by
      cases state with
      | none => exact ⟨snapshot.erase f, by rw [look, first]; rfl⟩
      | some stamp => exact ⟨snapshot.insert f stamp, by rw [look, first]; rfl⟩
    obtain ⟨listed, others⟩ := ih later next
    exact ⟨listed, by rw [List.foldlM_cons, here]; exact others⟩

/-- A scan fails on a listed file that cannot be looked at and on a path that is too long. -/
theorem exists_scan_iff (sound : tree.Sound) (free : ∀ d ∈ w.directories, '\x00' ∉ d.toList) :
    (∃ snapshot, w.scan tree = .ok snapshot) ↔
      (∀ f ∈ w.files, ∃ state, tree.stamp? f = .ok state) ∧
        ∀ d ∈ w.directories, ∀ path stamp, Shows tree d path stamp →
          Path.isTooLong path = false := by
  constructor
  · rintro ⟨snapshot, h⟩
    refine ⟨fun f hf => ?_, fun d hd => ?_⟩
    · obtain ⟨state, look, -⟩ := scan_eq_ok sound h f hf
      exact ⟨state, look⟩
    · obtain ⟨_, _, -, walked, -⟩ := exists_of_scan h
      obtain ⟨stamps, -, below⟩ := (mapM_eq_ok walked).2 d hd
      exact ((exists_stampsBelow_iff sound).1 ⟨stamps, below⟩).2
  · rintro ⟨looks, short⟩
    obtain ⟨listed, looked⟩ := exists_foldlM_look looks ∅
    obtain ⟨below, walked⟩ := exists_mapM_eq_ok fun d hd => (exists_stampsBelow_iff sound).2
      ⟨fun zero => free d hd (FileTree.node?_zeroInPath zero), short d hd⟩
    exact ⟨_, by rw [scan, looked]; simp only [walked, bind, Except.bind]; rfl⟩

/-- The noted states after some paths are listed: what is new in the list is noted as it is now, as
far as it can be looked at. -/
def renoted (tree : FileTree) (w w' : Watcher) (noted : String → Option Nat) (path : String) :
    Option Nat :=
  if path ∈ w'.files ∧ path ∉ w.files then (tree.stamp? path).toOption.getD (noted path)
  else noted path

private theorem renoted_trans {between : Watcher} (h : w.files ⊆ between.files)
    (h' : between.files ⊆ w'.files) (noted : String → Option Nat) :
    renoted tree between w' (renoted tree w between noted) path = renoted tree w w' noted path := by
  unfold renoted
  by_cases old : path ∈ w.files
  · simp [old, h old]
  · by_cases now : path ∈ between.files
    · simp [old, now, h' now]
    · simp [old, now]

/-- One more path in the list. A look that fails leaves the snapshot. -/
private theorem renoted_listed {p : String} (fresh : p ∉ w.files) {snapshot : Snapshot}
    (looked : look tree w.snapshot p = .ok snapshot ∨
      snapshot = w.snapshot ∧ ∃ fault, look tree w.snapshot p = .error fault) (path : String) :
    snapshot[path]? = renoted tree w { w with files := w.files ++ [p], snapshot }
      (fun path => w.snapshot[path]?) path := by
  by_cases own : path = p
  · subst own
    rw [renoted, if_pos ⟨List.mem_append_right _ List.mem_cons_self, fresh⟩]
    rcases looked with seen | ⟨rfl, fault, failed⟩
    · obtain ⟨state, stamp, known, -⟩ := look_eq_ok seen
      rw [stamp, known]
      rfl
    · cases stamp : tree.stamp? path with
      | error fault => rfl
      | ok state =>
        rw [look, stamp] at failed
        cases state <;> cases failed
  · rw [renoted, if_neg (by simp [own])]
    rcases looked with seen | ⟨rfl, -⟩
    · obtain ⟨_, -, -, elsewhere⟩ := look_eq_ok seen
      exact elsewhere path own
    · rfl

/-- Listing paths notes those that are new in the list, and no other path. -/
theorem addFiles_spec {paths : List String} {fault : Option FileFault}
    (h : w.addFiles tree paths = (w', fault)) : w'.directories = w.directories ∧
      w.files ⊆ w'.files ∧
      ∀ path, w'.snapshot[path]? = renoted tree w w' (fun path => w.snapshot[path]?) path := by
  induction paths generalizing w with
  | nil =>
    cases h
    refine ⟨rfl, List.Subset.refl _, fun path => ?_⟩
    rw [renoted, if_neg fun new => new.2 new.1]
  | cons p rest ih =>
    rw [addFiles] at h
    split at h
    · exact ih h
    · next new =>
      have fresh : p ∉ w.files := by simpa using new
      dsimp only at h
      split at h
      · next snapshot seen =>
        obtain ⟨same, kept, noted⟩ := ih h
        refine ⟨same, List.Subset.trans (List.subset_append_left _ _) kept, fun path => ?_⟩
        rw [noted path, funext (renoted_listed fresh (.inl seen)),
          renoted_trans (List.subset_append_left _ _) kept]
      · next fault' failed =>
        cases h
        exact ⟨rfl, List.subset_append_left _ _,
          renoted_listed fresh (.inr ⟨rfl, fault', failed⟩)⟩

/-- A history of a watcher: the tree changes, further paths are listed, and the watcher polls, each
any number of times. The last argument is what a poll compares with. -/
inductive Observes : FileTree → Watcher → (String → Option Nat) → Prop
  | started {tree : FileTree} {files directories : List String} {w : Watcher}
      {noted : String → Option Nat} (sound : tree.Sound)
      (begun : start tree files directories = .ok w)
      (states : ∀ path, IsState tree w path (noted path)) : Observes tree w noted
  | changed {tree : FileTree} {w : Watcher} {noted : String → Option Nat}
      (before : Observes tree w noted) (c : Change) : Observes (tree.change c).1 w noted
  | listed {tree : FileTree} {w w' : Watcher} {noted : String → Option Nat}
      (before : Observes tree w noted) {paths : List String} {fault : Option FileFault}
      (added : w.addFiles tree paths = (w', fault)) : Observes tree w' (renoted tree w w' noted)
  | polled {tree : FileTree} {w w' : Watcher} {noted noted' : String → Option Nat}
      (before : Observes tree w noted) {changed : List String}
      (told : w.poll tree = .ok (w', changed))
      (states : ∀ path, IsState tree w' path (noted' path)) : Observes tree w' noted'

/-- What every history keeps. -/
structure Attends (tree : FileTree) (w : Watcher) (noted : String → Option Nat) : Prop where
  sound : tree.Sound
  free : ∀ d ∈ w.directories, '\x00' ∉ d.toList
  noted : ∀ path, w.snapshot[path]? = noted path

theorem poll_eq_ok {changed : List String} (h : w.poll tree = .ok (w', changed)) :
    ∃ snapshot, w.scan tree = .ok snapshot ∧ w' = { w with snapshot } ∧
      changed = changedPaths w.snapshot snapshot := by
  obtain ⟨snapshot, scanned, h⟩ := bind_eq_ok h
  cases h
  exact ⟨snapshot, scanned, rfl, rfl⟩

/-- A watcher starts with what a scan notes. -/
theorem scan_of_start {files directories : List String}
    (h : start tree files directories = .ok w) : w.scan tree = .ok w.snapshot := by
  rw [start] at h
  split at h
  · obtain ⟨snapshot, scanned, h⟩ := bind_eq_ok h
    cases h
    exact scanned
  · cases h

/-- A scan has no zero characters in the texts of its directories. -/
private theorem free_of_scan {snapshot : Snapshot} (sound : tree.Sound)
    (h : w.scan tree = .ok snapshot) : ∀ d ∈ w.directories, '\x00' ∉ d.toList := by
  obtain ⟨_, _, -, walked, -⟩ := exists_of_scan h
  intro d hd zero
  obtain ⟨stamps, -, below⟩ := (mapM_eq_ok walked).2 d hd
  exact ((exists_stampsBelow_iff sound).1 ⟨stamps, below⟩).1 (FileTree.node?_of_zero zero)

/-- A watcher that starts begins a history. -/
theorem observes_of_start (sound : tree.Sound) {files directories : List String}
    (h : start tree files directories = .ok w) :
    Observes tree w fun path => w.snapshot[path]? :=
  .started sound h (isState_of_scan sound (scan_of_start h))

variable {noted : String → Option Nat}

theorem Observes.attends (h : Observes tree w noted) : Attends tree w noted := by
  induction h with
  | started sound begun states =>
    have scanned := scan_of_start begun
    exact ⟨sound, free_of_scan sound scanned, fun path =>
      (isState_of_scan sound scanned path).unique (states path)⟩
  | changed before c ih => exact ⟨(FileTree.later_change ih.sound c).sound, ih.free, ih.noted⟩
  | listed before added ih =>
    obtain ⟨same, -, noted⟩ := addFiles_spec added
    refine ⟨ih.sound, same ▸ ih.free, fun path => ?_⟩
    rw [noted path, funext ih.noted]
  | polled before told states ih =>
    obtain ⟨snapshot, scanned, rfl, -⟩ := poll_eq_ok told
    exact ⟨ih.sound, ih.free, fun path =>
      (isState_of_scan ih.sound scanned path).unique (states path)⟩

theorem changedPaths_self (snapshot : Snapshot) : changedPaths snapshot snapshot = [] :=
  List.eq_nil_iff_forall_not_mem.2 fun _ inside => mem_changedPaths.1 inside rfl

/-- At every point of a history, a poll succeeds if all listed files can be looked at and no path
that it comes to is too long. It tells the paths whose states are not the noted ones, in ascending
order and each once, and a further poll has nothing to tell. -/
theorem poll_of_observes (h : Observes tree w noted) :
    ((∃ w' changed, w.poll tree = .ok (w', changed)) ↔
      (∀ f ∈ w.files, ∃ state, tree.stamp? f = .ok state) ∧
        ∀ d ∈ w.directories, ∀ path stamp, Shows tree d path stamp →
          Path.isTooLong path = false) ∧
    ∀ w' changed, w.poll tree = .ok (w', changed) →
      changed.Pairwise (· < ·) ∧
      (∀ path, path ∈ changed ↔ ∃ state, IsState tree w path state ∧ state ≠ noted path) ∧
      w'.poll tree = .ok (w', []) := by
  have attends := h.attends
  constructor
  · rw [← exists_scan_iff attends.sound attends.free]
    constructor
    · rintro ⟨w', changed, told⟩
      obtain ⟨snapshot, scanned, -⟩ := poll_eq_ok told
      exact ⟨snapshot, scanned⟩
    · rintro ⟨snapshot, scanned⟩
      exact ⟨_, _, by rw [poll, scanned]; rfl⟩
  · intro w' changed told
    obtain ⟨snapshot, scanned, rfl, rfl⟩ := poll_eq_ok told
    refine ⟨Text.pairwise_sortedDistinct _, fun path => ?_, ?_⟩
    · -- The states are unique, so the scan differs from the noted one where the state does.
      have state := isState_of_scan attends.sound scanned path
      rw [mem_changedPaths, attends.noted]
      constructor
      · exact fun differs => ⟨_, state, differs.symm⟩
      · rintro ⟨now, here, differs⟩ same
        exact differs ((here.unique state).trans same.symm)
    · have again : ({ w with snapshot } : Watcher).scan tree = .ok snapshot := scanned
      rw [poll, again]
      exact congrArg (fun changed => Except.ok ({ w with snapshot }, changed))
        (changedPaths_self snapshot)

private def styles : FileTree := (FileTree.changeAll {} [.write "src/a.css" (.text "x")]).1

private def restyled : FileTree := (styles.change (.write "src/a.css" (.text "y"))).1

private theorem sound_styles : styles.Sound := by
  rw [styles]
  exact FileTree.sound_changeAll _

/-- A file below a watched directory is written, and the poll behind it tells it. -/
theorem poll_of_observes_restyled : ∃ w w' noted changed,
    Observes restyled w noted ∧ w.poll restyled = .ok (w', changed) ∧
      changed.Pairwise (· < ·) ∧ "src/a.css" ∈ changed ∧ w'.poll restyled = .ok (w', []) := by
  obtain ⟨w, begun, facts⟩ := exists_ok_of_any (x := start styles [] ["src"]) (p := fun w =>
    (w.scan restyled).toOption.any fun snapshot =>
      snapshot["src/a.css"]? != w.snapshot["src/a.css"]?) (by decide +kernel)
  obtain ⟨snapshot, scanned, differs⟩ := exists_ok_of_any facts
  have history : Observes restyled w fun path => w.snapshot[path]? :=
    .changed (observes_of_start sound_styles begun) _
  have told : w.poll restyled = .ok ({ w with snapshot }, changedPaths w.snapshot snapshot) := by
    rw [poll, scanned]
    rfl
  obtain ⟨ascending, tells, again⟩ := (poll_of_observes history).2 _ _ told
  have sound := (FileTree.later_change sound_styles (.write "src/a.css" (.text "y"))).sound
  exact ⟨w, _, _, _, history, told, ascending,
    (tells "src/a.css").2 ⟨_, isState_of_scan sound scanned _, by simpa using differs⟩, again⟩

private def displaced : FileTree := (styles.changeAll [.remove "src", .write "src" (.text "")]).1

/-- The same file is written and then listed, and no poll ever tells that it was written. And every
poll fails as soon as a file stands in the place of the directory of a listed file. -/
theorem not_mem_changed_restyled :
    (∃ w w' w'' changed old new, start styles [] ["src"] = .ok w ∧
      IsState styles w "src/a.css" (some old) ∧
      w.addFiles restyled ["src/a.css"] = (w', none) ∧
      IsState restyled w' "src/a.css" (some new) ∧ old ≠ new ∧
      w'.poll restyled = .ok (w'', changed) ∧ "src/a.css" ∉ changed) ∧
    ∃ w, start styles ["src/a.css"] [] = .ok w ∧
      ∀ w' changed, w.poll displaced ≠ .ok (w', changed) := by
  constructor
  · obtain ⟨w, begun, facts⟩ := exists_ok_of_any (x := start styles [] ["src"]) (p := fun w =>
      w.snapshot["src/a.css"]? == some 2 && (w.addFiles restyled ["src/a.css"]).2.isNone &&
        ((w.addFiles restyled ["src/a.css"]).1.scan restyled).toOption.any fun snapshot =>
          snapshot["src/a.css"]? == some 3 &&
            (w.addFiles restyled ["src/a.css"]).1.snapshot["src/a.css"]? == some 3)
      (by decide +kernel)
    obtain ⟨facts, later⟩ := Bool.and_eq_true_iff.1 facts
    obtain ⟨old, done⟩ := Bool.and_eq_true_iff.1 facts
    cases added : w.addFiles restyled ["src/a.css"] with
    | mk w' fault =>
      rw [added] at done later
      obtain rfl : fault = none := by simpa using done
      obtain ⟨snapshot, scanned, facts⟩ := exists_ok_of_any later
      obtain ⟨new, noted⟩ := Bool.and_eq_true_iff.1 facts
      rw [beq_iff_eq] at old new noted
      have sound := (FileTree.later_change sound_styles (.write "src/a.css" (.text "y"))).sound
      refine ⟨w, w', { w' with snapshot }, changedPaths w'.snapshot snapshot, 2, 3, begun, ?_,
        added, ?_, by decide, ?_, fun told => ?_⟩
      · exact old ▸ isState_of_scan sound_styles (scan_of_start begun) _
      · exact new ▸ isState_of_scan sound scanned _
      · rw [poll, scanned]
        rfl
      · exact mem_changedPaths.1 told (noted.trans new.symm)
  · obtain ⟨w, begun, stuck⟩ := exists_ok_of_any (x := start styles ["src/a.css"] [])
      (p := fun w => (w.scan displaced).toOption.isNone) (by decide +kernel)
    refine ⟨w, begun, fun w' changed told => ?_⟩
    obtain ⟨snapshot, scanned, -⟩ := poll_eq_ok told
    rw [scanned] at stuck
    cases stuck

end UtilityCss.Project.Watcher
