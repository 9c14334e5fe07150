import UtilityCss.Proofs.Project.Tracking

/-! What starts and polls do to what a watch knows. -/
namespace UtilityCss.Project.Watch

open Path (placeIn)

variable {options : Options} {w w' : Watch} {tree : FileTree} {failed : Option FileTree}

theorem later_pause {events : List Event} {t : FileTree} (h : t.Sound)
    (paused : pause t events = (tree, .over)) : t.Later tree := by
  induction events generalizing t with
  | nil =>
    cases paused
    exact .refl h
  | cons event rest ih =>
    cases event with
    | interrupt => cases paused
    | change c =>
      rw [pause] at paused
      have first := FileTree.later_change h c
      cases changed : t.change c with
      | mk next fault =>
        rw [changed] at paused first
        cases fault with
        | some fault => cases paused
        | none => exact first.trans (ih first.sound paused)

/-- Once the watch has been told of all that is pending, its style sheet is current. -/
theorem Tracks.tellAll {paths : List String} (h : Tracks options w)
    (told : w.tellAll paths = (w', none))
    (status : w.Current options failed ∨ w.Pending paths) :
    Tracks options w' ∧ w'.Current options (w.failedAfterAll failed paths) := by
  induction paths generalizing w failed with
  | nil =>
    cases told
    refine ⟨h, status.resolve_right ?_⟩
    rintro ⟨f, none, -⟩
    cases none
  | cons path rest ih =>
    rw [Watch.tellAll] at told
    cases first : w.tell path with
    | mk next fault =>
      rw [first] at told
      cases fault with
      | some fault => cases told
      | none =>
        have step := told_of_tell first
        rw [failedAfterAll, first]
        exact ih (h.told step) told (h.current_told step status)

/-- Paths that are none of its files leave the style sheet as it is. -/
theorem Tracks.sheet_of_tellAll {paths : List String} (h : Tracks options w)
    (told : w.tellAll paths = (w', none))
    (others : ∀ path ∈ paths, w.session.build.isDependency w.tree path = false) :
    w'.session.build.sheet = w.session.build.sheet := by
  induction paths generalizing w with
  | nil =>
    cases told
    rfl
  | cons path rest ih =>
    rw [Watch.tellAll] at told
    cases first : w.tell path with
    | mk next fault =>
      rw [first] at told
      cases fault with
      | some fault => cases told
      | none =>
        have step := told_of_tell first
        obtain ⟨same, home⟩ := h.sheet_of_told step (others path List.mem_cons_self)
        rw [ih (h.told step) told, same]
        intro path' later
        have names : Build.samePath next.tree = Build.samePath w.tree := by
          funext a b
          rw [Build.samePath, Build.samePath, home]
        rw [Build.isDependency, same, names]
        exact others path' (List.mem_cons_of_mem _ later)

/-- What a watcher has noted at a look at all files is what is there. -/
private theorem Tracks.of_noted (sound : w.tree.Sound) (home : w.tree.IsDirAt w.tree.home)
    (own : w.session.build.options = options)
    (made : ∃ good, freshSheet good options = .ok w.session.build.sheet)
    (listed : ∀ f ∈ w.session.build.sheet.files, f ∈ w.watcher.files)
    (noted : ∀ f ∈ w.watcher.files, ∃ state, w.tree.stamp? f = .ok state ∧
      w.watcher.snapshot[f]? = state) : Tracks options w := by
  refine ⟨sound, home, own, made, listed, ?_, ?_⟩
  · intro p normal text inside apart content stamp there
    obtain ⟨state, look, known⟩ := noted _ inside
    rw [FileTree.stamp?_of_file normal text home there] at look
    cases look
    exact known
  · intro f inside stamp known
    obtain ⟨state, look, same⟩ := noted f inside
    rw [same] at known
    subst known
    exact sound.stamp?_le look

section Scan

variable {snapshot : Snapshot}

/-- A scan notes the files as they are. -/
theorem Tracks.scanned (h : Tracks options w) (later : w.tree.Later tree)
    (home : tree.IsDirAt tree.home) (scanned : w.watcher.scan tree = .ok snapshot) :
    Tracks options ⟨tree, w.session, { w.watcher with snapshot }⟩ :=
  .of_noted later.sound home h.own h.made h.listed (Watcher.scan_eq_ok later.sound scanned)

/-- A file of the style sheet that a scan does not find changed is the one that was noted. -/
theorem Tracks.file_iff_of_scan (h : Tracks options w) (later : w.tree.Later tree)
    (home : tree.IsDirAt tree.home) (scanned : w.watcher.scan tree = .ok snapshot) {f : String}
    (hf : f ∈ w.session.build.sheet.files) (apart : w.IsApart f)
    (unchanged : w.watcher.snapshot[f]? = snapshot[f]?) (content : Content) (stamp : Nat) :
    tree.root.descend (placeIn w.tree.home f) = .ok (.file content stamp) ↔
      w.tree.root.descend (placeIn w.tree.home f) = .ok (.file content stamp) := by
  obtain ⟨p, normal, rfl, text⟩ := h.exists_path hf
  have listed := h.listed _ hf
  obtain ⟨state, look, noted⟩ := Watcher.scan_eq_ok later.sound scanned _ listed
  constructor
  · intro there
    have shown := FileTree.stamp?_of_file normal text home (by rwa [later.home])
    rw [shown] at look
    cases look
    have old := h.bounded _ listed stamp (unchanged.trans noted)
    rcases later.aged _ _ there with new | ⟨m, before, same⟩
    · exact absurd old (Nat.not_le.2 new)
    · rw [before, Node.eq_file_of_face same]
  · intro there
    have known := h.noted p normal text listed apart content stamp there
    have old := h.bounded _ listed stamp known
    rw [unchanged, noted] at known
    subst known
    obtain ⟨n, now, own⟩ := FileTree.exists_node_of_stamp? look
    rw [later.home] at now
    rcases later.aged _ _ now with new | ⟨m, before, same⟩
    · exact absurd (own ▸ old) (Nat.not_le.2 new)
    · rw [there] at before
      cases before
      rw [now, Node.eq_file_of_face same.symm]

/-- After a scan the style sheet is current still or a changed file of it is yet to be told. -/
theorem Tracks.current_scanned (h : Tracks options w) (current : w.Current options failed)
    (apart : ∀ f ∈ w.session.build.sheet.files, w.IsApart f) (later : w.tree.Later tree)
    (home : tree.IsDirAt tree.home) (scanned : w.watcher.scan tree = .ok snapshot) :
    Current options ⟨tree, w.session, { w.watcher with snapshot }⟩ failed ∨
      Pending ⟨tree, w.session, { w.watcher with snapshot }⟩
        (Watcher.changedPaths w.watcher.snapshot snapshot) := by
  by_cases changed : ∃ f ∈ w.session.build.sheet.files, w.watcher.snapshot[f]? ≠ snapshot[f]?
  · right
    obtain ⟨f, hf, differs⟩ := changed
    refine ⟨f, Watcher.mem_changedPaths.2 differs, hf, ?_⟩
    rw [IsApart, later.home]
    exact apart f hf
  · left
    have same {f : String} (hf : f ∈ w.session.build.sheet.files) :=
      h.file_iff_of_scan later home scanned hf (apart f hf)
        (Decidable.byContradiction fun differs => changed ⟨f, hf, differs⟩)
    cases failed with
    | some tried =>
      refine ⟨current.later.trans later, current.unmade, fun f hf apart' content stamp => ?_⟩
      rw [later.home]
      exact (same hf content stamp).trans (current.same f hf (apart f hf) content stamp)
    | none =>
      intro _
      exact freshSheet_of_same (current apart) later.home
        fun f hf content stamp => (same hf content stamp).2

end Scan

/-- The tree on which the latest attempt to build failed, if it failed, after a poll. -/
def failedAfterPoll (failed : Option FileTree) (w : Watch) : Option FileTree :=
  match w.watcher.poll w.tree with
  | .ok (watcher, changed) => failedAfterAll failed { w with watcher } changed
  | .error _ => failed

theorem Tracks.polled (h : Tracks options w) (current : w.Current options failed)
    (apart : ∀ f ∈ w.session.build.sheet.files, w.IsApart f) (later : w.tree.Later tree)
    (home : tree.IsDirAt tree.home) (told : ({ w with tree } : Watch).poll = (w', none)) :
    Tracks options w' ∧
      w'.Current options (({ w with tree } : Watch).failedAfterPoll failed) := by
  rw [poll] at told
  rw [failedAfterPoll]
  dsimp only at told ⊢
  rw [Watcher.poll] at told ⊢
  cases scanned : w.watcher.scan tree with
  | error fault =>
    rw [scanned] at told
    cases told
  | ok snapshot =>
    rw [scanned] at told
    exact (h.scanned later home scanned).tellAll told
      (h.current_scanned current apart later home scanned)

theorem Tracks.sheet_of_poll {watcher : Watcher} {changed : List String} (h : Tracks options w)
    (later : w.tree.Later tree) (home : tree.IsDirAt tree.home)
    (polled : w.watcher.poll tree = .ok (watcher, changed))
    (others : ∀ path ∈ changed, w.session.build.isDependency tree path = false)
    (told : ({ w with tree } : Watch).poll = (w', none)) :
    w'.session.build.sheet = w.session.build.sheet := by
  rw [poll] at told
  dsimp only at told
  rw [polled] at told
  rw [Watcher.poll] at polled
  cases scanned : w.watcher.scan tree with
  | error fault =>
    rw [scanned] at polled
    cases polled
  | ok snapshot =>
    rw [scanned] at polled
    cases polled
    exact (h.scanned later home scanned).sheet_of_tellAll told others

private theorem exists_of_start {made : FileTree} (started : start tree options = (made, .ok w)) :
    w.tree = made ∧ Session.start tree options = (made, .ok w.session) ∧
      Watcher.start made w.session.build.sheet.files options.directories = .ok w.watcher := by
  rw [start] at started
  cases begun : Session.start tree options with
  | mk written result =>
    rw [begun] at started
    cases result with
    | error fault => cases started
    | ok session =>
      dsimp only at started
      cases watched : Watcher.start written session.build.sheet.files options.directories with
      | error fault =>
        rw [watched] at started
        cases started
      | ok watcher =>
        rw [watched] at started
        cases started
        exact ⟨rfl, rfl, watched⟩

/-- A watch starts with the fresh style sheet. -/
theorem tracks_of_start {made : FileTree} (sound : tree.Sound) (home : tree.IsDirAt tree.home)
    (started : start tree options = (made, .ok w)) :
    Tracks options w ∧ w.Current options none := by
  obtain ⟨rfl, begun, watched⟩ := exists_of_start started
  obtain ⟨build, written⟩ := Session.start_eq_ok begun
  obtain ⟨later, spares⟩ := FileTree.writeOutput_eq_ok sound written
  obtain ⟨listed, noted⟩ := Watcher.start_eq_ok later.sound watched
  obtain ⟨fresh, own⟩ := freshSheet_of_make build
  have kept : w.tree.IsDirAt w.tree.home := by
    rw [later.home]
    exact spares.dir _ home
  refine ⟨.of_noted later.sound kept own ⟨tree, fresh⟩ listed noted, fun apart => ?_⟩
  simp only [IsApart, later.home] at apart
  exact freshSheet_of_same fresh later.home fun f hf content stamp there =>
    (spares.file_iff _ (apart f hf) content stamp).2 there

end UtilityCss.Project.Watch
