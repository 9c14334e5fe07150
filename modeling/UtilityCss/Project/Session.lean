import UtilityCss.Project.Build

/-! Sessions: a build whose output file follows every change. -/
namespace UtilityCss.Project

/-- The current build, the file that holds its text, and the fault of the last attempt to build, if
it failed. -/
structure Session where
  build : Build
  outfile : String
  lastFault : Option Fault := none

namespace Session

/-- Writes the text of the current build. -/
def write (tree : FileTree) (s : Session) : FileTree × Option Fault :=
  match tree.writeOutput s.outfile (.text s.build.text) with
  | (written, fault) => (written, fault.map .file)

/-- Starts a session: the project is built and written. -/
def start (tree : FileTree) (options : Options) : FileTree × Except Fault Session :=
  match options.outfile.filter (!·.isEmpty) with
  | none => (tree, .error (.noOutput .session))
  | some outfile =>
    match Build.make tree options with
    | .error fault => (tree, .error fault)
    | .ok build =>
      let s : Session := { build, outfile }
      match s.write tree with
      | (written, none) => (written, .ok s)
      | (written, some fault) => (written, .error fault)

/-- A tree and a session after an event, with what the event comes to. -/
structure Outcome (α : Type) where
  tree : FileTree
  session : Session
  result : Except Fault α

/-- What a changed path means for a session: nothing, a new build, the current build with further
utilities, or a new build that failed with a fault that can be mended. -/
inductive Response
  | nothing
  | replaced (build : Build)
  | extended (build : Build)
  | failed (fault : Fault)

/-- Finds out what a changed path means. A file of the style sheet asks for a new build. A source is
only searched for further utilities. The output file itself and all other paths ask for nothing. -/
def respond (tree : FileTree) (s : Session) (path : String) : Except Fault Response :=
  if Build.samePath tree path s.outfile then .ok .nothing
  else if s.build.isDependency tree path then
    match s.build.remake tree with
    | .ok build => .ok (.replaced build)
    | .error fault => if fault.isMendable then .ok (.failed fault) else .error fault
  else if s.build.isSource path then
    match s.build.updateSources tree [path] with
    | .ok build => .ok (.extended build)
    | .error fault => .error (.file fault)
  else .ok .nothing

/-- Takes over a build and writes it. -/
def accept (tree : FileTree) (s : Session) (build : Build) : Outcome Bool :=
  let s := { s with build, lastFault := none }
  match s.write tree with
  | (tree, none) => ⟨tree, s, .ok true⟩
  | (tree, some fault) => ⟨tree, s, .error fault⟩

/-- Reacts to a changed path and tells whether the output was written. After a build that failed the
old one stays. -/
def handleChange (tree : FileTree) (s : Session) (path : String) : Outcome Bool :=
  match s.respond tree path with
  | .error fault => ⟨tree, s, .error fault⟩
  | .ok .nothing => ⟨tree, s, .ok false⟩
  | .ok (.failed fault) => ⟨tree, { s with lastFault := some fault }, .ok false⟩
  | .ok (.replaced build) => s.accept tree build
  | .ok (.extended build) => s.accept tree build

end Session

end UtilityCss.Project
