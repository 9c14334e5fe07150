import UtilityCss.Project.Watch
import UtilityCss.Proofs.Files.Output
import UtilityCss.Proofs.Project.FreshSheet

/-! What a session does when it is told of a path. -/
namespace UtilityCss.Project

open Path (placeIn)

namespace Session

variable {tree : FileTree} {s : Session} {path : String} {b : Build}

/-- A session that starts has made a build and written it. -/
theorem start_eq_ok {options : Options} {written : FileTree}
    (h : start tree options = (written, .ok s)) :
    Build.make tree options = .ok s.build ∧
      tree.writeOutput s.outfile (.text s.build.text) = (written, none) := by
  rw [start] at h
  split at h
  · cases h
  · next outfile named =>
    cases made : Build.make tree options with
    | error fault =>
      rw [made] at h
      cases h
    | ok build =>
      rw [made] at h
      simp only [write] at h
      cases output : tree.writeOutput outfile (.text build.text) with
      | mk after fault =>
        rw [output] at h
        cases fault with
        | some fault => cases h
        | none =>
          cases h
          exact ⟨rfl, output⟩

private theorem not_samePath_of_place {a c : String}
    (h : placeIn tree.home a ≠ placeIn tree.home c) : Build.samePath tree a c = false := by
  rw [Build.samePath]
  apply beq_eq_false_iff_ne.2
  intro same
  rw [← Path.names_absolute, ← Path.names_absolute, same] at h
  exact h rfl

/-- A file of the style sheet that is not the output file asks for a new build. -/
theorem respond_of_mem (listed : path ∈ s.build.sheet.files)
    (apart : placeIn tree.home path ≠ placeIn tree.home s.outfile) :
    s.respond tree path =
      match Build.make tree s.build.options with
      | .ok build => .ok (.replaced build)
      | .error fault => if fault.isMendable then .ok (.failed fault) else .error fault := by
  have dependency : s.build.isDependency tree path = true :=
    List.any_eq_true.2 ⟨path, listed, by simp [Build.samePath]⟩
  rw [respond, if_neg (by simp [not_samePath_of_place apart]), if_pos dependency]
  rfl

/-- What an answer means. -/
theorem respond_eq_ok {answer : Response} (h : s.respond tree path = .ok answer) :
    answer = .nothing ∨
      (s.build.isDependency tree path = true ∧
        ((∃ b, answer = .replaced b ∧ Build.make tree s.build.options = .ok b) ∨
          ∃ fault, answer = .failed fault ∧ Build.make tree s.build.options = .error fault ∧
            fault.isMendable = true)) ∨
      ∃ b, answer = .extended b ∧ b.sheet = s.build.sheet ∧ b.options = s.build.options := by
  rw [respond] at h
  split at h
  · cases h
    exact .inl rfl
  · split at h
    · next dependency =>
      right; left
      refine ⟨dependency, ?_⟩
      cases made : s.build.remake tree with
      | ok build =>
        rw [made] at h
        cases h
        exact .inl ⟨build, rfl, made⟩
      | error fault =>
        rw [made] at h
        dsimp only at h
        split at h
        · next mendable =>
          cases h
          exact .inr ⟨fault, rfl, made, mendable⟩
        · cases h
    · split at h
      · right; right
        cases updated : s.build.updateSources tree [path] with
        | error fault =>
          rw [updated] at h
          cases h
        | ok build =>
          rw [updated] at h
          cases h
          refine ⟨build, rfl, ?_⟩
          rw [Build.updateSources] at updated
          cases read : Build.readSources tree [path] with
          | error fault =>
            rw [read] at updated
            cases updated
          | ok sources =>
            rw [read] at updated
            cases updated
            exact ⟨rfl, rfl⟩
      · cases h
        exact .inl rfl

theorem make_of_replaced (h : s.respond tree path = .ok (.replaced b)) :
    Build.make tree s.build.options = .ok b := by
  rcases respond_eq_ok h with none | ⟨-, ⟨_, same, made⟩ | ⟨_, other, -⟩⟩ | ⟨_, other, -⟩
  · cases none
  · cases same
    exact made
  · cases other
  · cases other

theorem make_of_failed {fault : Fault} (h : s.respond tree path = .ok (.failed fault)) :
    Build.make tree s.build.options = .error fault ∧ fault.isMendable = true := by
  rcases respond_eq_ok h with none | ⟨-, ⟨_, other, -⟩ | ⟨_, same, made⟩⟩ | ⟨_, other, -⟩
  · cases none
  · cases other
  · cases same
    exact made
  · cases other

/-- Further utilities leave the style sheet as it is. -/
theorem sheet_of_extended (h : s.respond tree path = .ok (.extended b)) :
    b.sheet = s.build.sheet ∧ b.options = s.build.options := by
  rcases respond_eq_ok h with none | ⟨-, ⟨_, other, -⟩ | ⟨_, other, -⟩⟩ | ⟨_, same, kept⟩
  · cases none
  · cases other
  · cases other
  · cases same
    exact kept

end Session

namespace Watch

variable {w w' : Watch} {path : String}

/-- What a watch has done when it was told of a path and nothing failed. -/
inductive Told (w : Watch) (path : String) : Watch → Prop
  | nothing (h : w.session.respond w.tree path = .ok .nothing) : Told w path w
  | failed {fault} (h : w.session.respond w.tree path = .ok (.failed fault)) :
      Told w path { w with session := { w.session with lastFault := some fault } }
  | replaced {build tree watcher} (h : w.session.respond w.tree path = .ok (.replaced build))
      (written : w.tree.writeOutput w.session.outfile (.text build.text) = (tree, none))
      (watched : w.watcher.addFiles tree build.sheet.files = (watcher, none)) :
      Told w path ⟨tree, { w.session with build, lastFault := none }, watcher⟩
  | extended {build tree watcher} (h : w.session.respond w.tree path = .ok (.extended build))
      (written : w.tree.writeOutput w.session.outfile (.text build.text) = (tree, none))
      (watched : w.watcher.addFiles tree build.sheet.files = (watcher, none)) :
      Told w path ⟨tree, { w.session with build, lastFault := none }, watcher⟩

private theorem accept_eq (tree : FileTree) (s : Session) (build : Build) :
    s.accept tree build =
      match tree.writeOutput s.outfile (.text build.text) with
      | (tree, none) => ⟨tree, { s with build, lastFault := none }, .ok true⟩
      | (tree, some fault) =>
        ⟨tree, { s with build, lastFault := none }, .error (.file fault)⟩ := by
  unfold Session.accept Session.write
  dsimp only
  obtain ⟨written, fault⟩ := tree.writeOutput s.outfile (.text build.text)
  cases fault <;> rfl

private theorem written_of_accept {build : Build}
    (changed : w.session.handleChange w.tree path = w.session.accept w.tree build)
    (h : w.tell path = (w', none)) :
    ∃ tree watcher, w.tree.writeOutput w.session.outfile (.text build.text) = (tree, none) ∧
      w.watcher.addFiles tree build.sheet.files = (watcher, none) ∧
      w' = ⟨tree, { w.session with build, lastFault := none }, watcher⟩ := by
  rw [tell] at h
  rw [changed, accept_eq] at h
  cases written : w.tree.writeOutput w.session.outfile (.text build.text) with
  | mk tree fault =>
    rw [written] at h
    cases fault with
    | some fault => cases h
    | none =>
      dsimp only at h
      cases watched : w.watcher.addFiles tree build.sheet.files with
      | mk watcher fault =>
        rw [watched] at h
        cases fault with
        | some fault => cases h
        | none =>
          cases h
          exact ⟨tree, watcher, rfl, watched, rfl⟩

theorem told_of_tell (h : w.tell path = (w', none)) : Told w path w' := by
  cases response : w.session.respond w.tree path with
  | error fault =>
    unfold tell Session.handleChange at h
    rw [response] at h
    cases h
  | ok answer =>
    cases answer with
    | nothing =>
      unfold tell Session.handleChange at h
      rw [response] at h
      cases h
      exact .nothing response
    | failed fault =>
      unfold tell Session.handleChange at h
      rw [response] at h
      cases h
      exact .failed response
    | replaced build =>
      have changed : w.session.handleChange w.tree path = w.session.accept w.tree build := by
        rw [Session.handleChange, response]
      obtain ⟨tree, watcher, written, watched, rfl⟩ := written_of_accept changed h
      exact .replaced response written watched
    | extended build =>
      have changed : w.session.handleChange w.tree path = w.session.accept w.tree build := by
        rw [Session.handleChange, response]
      obtain ⟨tree, watcher, written, watched, rfl⟩ := written_of_accept changed h
      exact .extended response written watched

end Watch

end UtilityCss.Project
