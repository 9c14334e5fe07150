import UtilityCss.Proofs.Project.Session
import UtilityCss.Proofs.Project.Watcher

/-! The invariant of a watch: the files of its style sheet are watched and noted as they are, and
the style sheet is the fresh one, unless the latest attempt to build failed. -/
namespace UtilityCss

open Path (placeIn)

namespace FileTree

variable {t : FileTree}

/-- A look at a normal path shows the stamp of the file at its place. -/
theorem stamp?_of_file {p : Path} (normal : p.Normal) (sound : textProblem? p.text = none)
    (home : t.IsDirAt t.home) {content : Content} {stamp : Nat}
    (there : t.root.descend (placeIn t.home p.text) = .ok (.file content stamp)) :
    t.stamp? p.text = .ok (some stamp) := by
  rw [normal.placeIn_text] at there
  rw [stamp?, node?_text normal sound home there]
  rfl

/-- What a look shows stands at the place. -/
theorem exists_node_of_stamp? {s : String} {stamp : Nat} (h : t.stamp? s = .ok (some stamp)) :
    ∃ n, t.root.descend (placeIn t.home s) = .ok n ∧ n.stamp = stamp := by
  rw [stamp?] at h
  cases found : t.node? s with
  | error problem =>
    rw [found] at h
    cases problem <;> cases h
  | ok n =>
    rw [found] at h
    cases h
    exact ⟨n, descend_of_node? found, rfl⟩

theorem Sound.stamp?_le (sound : t.Sound) {s : String} {stamp : Nat}
    (h : t.stamp? s = .ok (some stamp)) : stamp ≤ t.clock := by
  obtain ⟨n, there, rfl⟩ := exists_node_of_stamp? h
  exact sound.stamp _ there

end FileTree

namespace Project.Watch

variable {options : Options} {w w' : Watch} {path : String}

/-- The path names another place than the output file does. -/
def IsApart (w : Watch) (f : String) : Prop :=
  placeIn w.tree.home f ≠ placeIn w.tree.home w.session.outfile

/-- The watcher lists the files of the style sheet and has noted every file as it is. -/
structure Tracks (options : Options) (w : Watch) : Prop where
  sound : w.tree.Sound
  home : w.tree.IsDirAt w.tree.home
  own : w.session.build.options = options
  made : ∃ good, freshSheet good options = .ok w.session.build.sheet
  listed : ∀ f ∈ w.session.build.sheet.files, f ∈ w.watcher.files
  noted : ∀ p : Path, p.Normal → FileTree.textProblem? p.text = none →
    p.text ∈ w.watcher.files → w.IsApart p.text → ∀ content stamp,
      w.tree.root.descend (placeIn w.tree.home p.text) = .ok (.file content stamp) →
        w.watcher.snapshot[p.text]? = some stamp
  bounded : ∀ f ∈ w.watcher.files, ∀ stamp, w.watcher.snapshot[f]? = some stamp →
    stamp ≤ w.tree.clock

/-- The files of the style sheet are sheets at normal paths. -/
theorem Tracks.exists_path (h : Tracks options w) {f : String}
    (hf : f ∈ w.session.build.sheet.files) :
    ∃ p : Path, p.Normal ∧ p.text = f ∧ FileTree.textProblem? p.text = none := by
  obtain ⟨good, made⟩ := h.made
  obtain ⟨p, normal, same, css, read⟩ := freshSheet_opened made f hf
  exact ⟨p, normal, same, (FileTree.exists_file_of_readSheet normal read).1⟩

private theorem Tracks.write (h : Tracks options w) {build : Build} {tree : FileTree}
    {watcher : Watcher} (own : build.options = options)
    (made : ∃ good, freshSheet good options = .ok build.sheet)
    (written : w.tree.writeOutput w.session.outfile (.text build.text) = (tree, none))
    (watched : w.watcher.addFiles tree build.sheet.files = (watcher, none)) :
    Tracks options ⟨tree, { w.session with build, lastFault := none }, watcher⟩ := by
  obtain ⟨later, spares⟩ := FileTree.writeOutput_eq_ok h.sound written
  obtain ⟨added, kept, same, others⟩ := Watcher.addFiles_eq_ok watched
  have home : tree.IsDirAt tree.home := by
    rw [later.home]
    exact spares.dir _ h.home
  refine ⟨later.sound, home, own, made, added, ?_, ?_⟩
  · intro p normal text listed apart content stamp there
    rw [IsApart, later.home] at apart
    rcases others _ listed with old | ⟨state, look, noted⟩
    · rw [same _ old]
      refine h.noted p normal text old apart content stamp ?_
      rw [later.home] at there
      exact (spares.file_iff _ apart content stamp).1 there
    · have shown := FileTree.stamp?_of_file normal text home there
      rw [shown] at look
      cases look
      exact noted
  · intro f listed stamp known
    rcases others f listed with old | ⟨state, look, noted⟩
    · rw [same f old] at known
      exact Nat.le_trans (h.bounded f old stamp known) later.clock
    · rw [noted] at known
      subst known
      exact later.sound.stamp?_le look

/-- Telling a watch of a path keeps it so. -/
theorem Tracks.told (h : Tracks options w) (told : Told w path w') : Tracks options w' := by
  cases told with
  | nothing => exact h
  | failed => exact ⟨h.sound, h.home, h.own, h.made, h.listed, h.noted, h.bounded⟩
  | replaced response written watched =>
    have made := Session.make_of_replaced response
    rw [h.own] at made
    obtain ⟨fresh, own⟩ := freshSheet_of_make made
    exact h.write own ⟨_, fresh⟩ written watched
  | extended response written watched =>
    obtain ⟨same, own⟩ := Session.sheet_of_extended response
    exact h.write (own.trans h.own) (same ▸ h.made) written watched

/-- A path that is none of its files leaves the style sheet as it is. -/
theorem Tracks.sheet_of_told (h : Tracks options w) (told : Told w path w')
    (other : w.session.build.isDependency w.tree path = false) :
    w'.session.build.sheet = w.session.build.sheet ∧ w'.tree.home = w.tree.home := by
  cases told with
  | nothing => exact ⟨rfl, rfl⟩
  | failed => exact ⟨rfl, rfl⟩
  | replaced response written watched =>
    rcases Session.respond_eq_ok response with none | ⟨dependency, -⟩ | ⟨_, extended, -⟩
    · cases none
    · rw [other] at dependency
      cases dependency
    · cases extended
  | extended response written watched =>
    have later := (FileTree.writeOutput_eq_ok h.sound written).1
    exact ⟨(Session.sheet_of_extended response).1, later.home⟩

/-- The latest attempt to build was made on an earlier tree and failed. The files of the style sheet
are what they were then. -/
structure Stuck (options : Options) (w : Watch) (tried : FileTree) : Prop where
  later : tried.Later w.tree
  unmade : ∃ fault, Build.make tried options = .error fault ∧ fault.isMendable = true
  same : ∀ f ∈ w.session.build.sheet.files, w.IsApart f → ∀ content stamp,
    w.tree.root.descend (placeIn w.tree.home f) = .ok (.file content stamp) ↔
      tried.root.descend (placeIn w.tree.home f) = .ok (.file content stamp)

/-- The style sheet is the fresh one, if it does not contain the output file; after an attempt to
build that failed nothing has changed that the watch would notice. -/
def Current (options : Options) (w : Watch) : Option FileTree → Prop
  | some tried => w.Stuck options tried
  | none => (∀ f ∈ w.session.build.sheet.files, w.IsApart f) →
      freshSheet w.tree options = .ok w.session.build.sheet

/-- A file of the style sheet is yet to be told. -/
def Pending (w : Watch) (paths : List String) : Prop :=
  ∃ f ∈ paths, f ∈ w.session.build.sheet.files ∧ w.IsApart f

/-- The tree on which the latest attempt to build failed, if it failed, once the watch was told of a
path. -/
def failedAfter (failed : Option FileTree) (w : Watch) (path : String) : Option FileTree :=
  match w.session.respond w.tree path with
  | .ok (.replaced _) => none
  | .ok (.failed _) => some w.tree
  | _ => failed

/-- The tree on which the latest attempt to build failed, if it failed, once the watch was told of
some paths. -/
def failedAfterAll (failed : Option FileTree) (w : Watch) : List String → Option FileTree
  | [] => failed
  | path :: rest => failedAfterAll (w.failedAfter failed path) (w.tell path).1 rest

/-- A fresh sheet stays fresh where its files are left alone. -/
theorem freshSheet_of_same {tree tree' : FileTree} {sheet : Stylesheet}
    (fresh : freshSheet tree options = .ok sheet) (home : tree'.home = tree.home)
    (same : ∀ f ∈ sheet.files, ∀ content stamp,
      tree.root.descend (placeIn tree.home f) = .ok (.file content stamp) →
        tree'.root.descend (placeIn tree.home f) = .ok (.file content stamp)) :
    freshSheet tree' options = .ok sheet := by
  apply freshSheet_congr fresh
  intro f hf p normal text
  subst text
  obtain ⟨q, normal', text, css, read⟩ := freshSheet_opened fresh _ hf
  rw [FileTree.readSheet_text normal' normal text] at read
  obtain ⟨-, content, stamp, there⟩ := FileTree.exists_file_of_readSheet normal read
  exact FileTree.readSheet_congr normal home there (same _ hf content stamp there)

/-- A path that asks for no new build is no file of the style sheet. -/
private theorem Pending.rest {rest : List String} (h : w.Pending (path :: rest))
    (told : w.session.respond w.tree path = .ok .nothing ∨
      ∃ build, w.session.respond w.tree path = .ok (.extended build)) : w.Pending rest := by
  obtain ⟨f, inside, listed, apart⟩ := h
  rcases List.mem_cons.1 inside with rfl | later
  · have response := Session.respond_of_mem listed apart
    cases made : Build.make w.tree w.session.build.options with
    | ok build =>
      rw [made] at response
      rcases told with told | ⟨_, told⟩ <;> rw [response] at told <;> cases told
    | error fault =>
      rw [made] at response
      dsimp only at response
      split at response <;> rcases told with told | ⟨_, told⟩ <;> rw [response] at told <;>
        cases told
  · exact ⟨f, later, listed, apart⟩

/-- Writing the output file changes nothing for a style sheet that does not contain it. -/
private theorem Current.write {build : Build} {failed : Option FileTree} {tree : FileTree}
    {watcher : Watcher} (sound : w.tree.Sound) (h : w.Current options failed)
    (same : build.sheet = w.session.build.sheet)
    (written : w.tree.writeOutput w.session.outfile (.text build.text) = (tree, none)) :
    Current options ⟨tree, { w.session with build, lastFault := none }, watcher⟩ failed := by
  obtain ⟨later, spares⟩ := FileTree.writeOutput_eq_ok sound written
  cases failed with
  | some tried =>
    refine ⟨h.later.trans later, h.unmade, fun f hf apart content stamp => ?_⟩
    dsimp only at hf ⊢
    rw [same] at hf
    rw [IsApart, later.home] at apart
    rw [later.home, spares.file_iff _ apart]
    exact h.same f hf apart content stamp
  | none =>
    intro apart
    dsimp only at apart ⊢
    rw [same] at apart ⊢
    simp only [IsApart, later.home] at apart
    exact freshSheet_of_same (h apart) later.home fun f hf content stamp there =>
      (spares.file_iff _ (apart f hf) content stamp).2 there

/-- Telling the watch of a path: what is current stays so, and what is not is yet to be told. -/
theorem Tracks.current_told {failed : Option FileTree} {rest : List String} (h : Tracks options w)
    (told : Told w path w')
    (status : w.Current options failed ∨ w.Pending (path :: rest)) :
    w'.Current options (w.failedAfter failed path) ∨ w'.Pending rest := by
  cases told with
  | nothing response =>
    rw [failedAfter, response]
    exact status.imp_right fun pending => pending.rest (.inl response)
  | failed response =>
    obtain ⟨unmade, mendable⟩ := Session.make_of_failed response
    rw [h.own] at unmade
    rw [failedAfter, response]
    exact .inl ⟨.refl h.sound, ⟨_, unmade, mendable⟩, fun _ _ _ _ _ => Iff.rfl⟩
  | replaced response written watched =>
    have made := Session.make_of_replaced response
    rw [h.own] at made
    rw [failedAfter, response]
    obtain ⟨later, spares⟩ := FileTree.writeOutput_eq_ok h.sound written
    left
    intro apart
    simp only [IsApart, later.home] at apart
    exact freshSheet_of_same (freshSheet_of_make made).1 later.home
      fun f hf content stamp there => (spares.file_iff _ (apart f hf) content stamp).2 there
  | extended response written watched =>
    obtain ⟨same, -⟩ := Session.sheet_of_extended response
    rw [failedAfter, response]
    rcases status with current | pending
    · exact .inl (current.write h.sound same written)
    · right
      obtain ⟨f, inside, listed, apart⟩ := pending.rest (.inr ⟨_, response⟩)
      have later := (FileTree.writeOutput_eq_ok h.sound written).1
      refine ⟨f, inside, ?_, ?_⟩
      · rw [same]
        exact listed
      · rw [IsApart, later.home]
        exact apart

end Project.Watch

end UtilityCss
