import Std.Data.TreeMap
import UtilityCss.Files.Change
import UtilityCss.Text.Sorted

/-! Watching files by comparing their stamps with those of the last look. -/
namespace UtilityCss.Project

/-- The stamps of the files that are there. -/
abbrev Snapshot := Std.TreeMap String Nat

/-- Watched files and directories with the stamps seen last. -/
structure Watcher where
  files : List String := []
  directories : List String := []
  snapshot : Snapshot := ∅

namespace Watcher

/-- The stamps of the files among the entries of a directory. A file whose name ends with a tilde is
a backup and does not count. -/
def fileStamps (directory : String) (entries : List (String × Node)) : List (String × Nat) :=
  entries.filterMap fun
    | (name, .file _ stamp) =>
      if name.toList.getLast? = some '~' then none else some (Path.joinText directory name, stamp)
    | (_, .dir ..) => none

mutual

/-- The stamps of all files below a node, those of a directory before those of the directories in
it. A directory whose path is too long cannot be opened and has none. -/
def stampsOf (path : String) : Node → List (String × Nat)
  | .file .. => []
  | .dir entries _ =>
    if Path.isTooLong path then [] else fileStamps path entries ++ stampsIn path entries

/-- The stamps of all files below the entries of a directory. -/
def stampsIn (directory : String) : List (String × Node) → List (String × Nat)
  | [] => []
  | (name, n) :: rest => stampsOf (Path.joinText directory name) n ++ stampsIn directory rest

end

/-- The stamps of the files below a directory. There are none if it cannot be opened. A text that is
no path at all is a fault, and so is a file whose path is too long. -/
def stampsBelow (tree : FileTree) (directory : String) :
    Except FileFault (List (String × Nat)) :=
  match tree.node? directory with
  | .ok n =>
    let stamps := stampsOf directory n
    match stamps.find? fun e => Path.isTooLong e.1 with
    | some (path, _) => .error ⟨.nameTooLong, path⟩
    | none => .ok stamps
  | .error .zeroInPath => .error ⟨.zeroInPath, directory⟩
  | .error _ => .ok []

/-- Notes the state of one listed file. -/
def look (tree : FileTree) (snapshot : Snapshot) (path : String) : Except FileFault Snapshot := do
  match ← tree.stamp? path with
  | some stamp => return snapshot.insert path stamp
  | none => return snapshot.erase path

/-- The stamps of everything watched. -/
def scan (tree : FileTree) (w : Watcher) : Except FileFault Snapshot := do
  let listed ← w.files.foldlM (look tree) ∅
  let below ← w.directories.mapM (stampsBelow tree)
  return below.flatten.foldl (fun s e => s.insert e.1 e.2) listed

/-- Watches further files as they are now. A file that cannot be looked at is listed all the same,
and the files behind it are not. -/
def addFiles (tree : FileTree) (w : Watcher) : List String → Watcher × Option FileFault
  | [] => (w, none)
  | path :: rest =>
    if w.files.contains path then w.addFiles tree rest
    else
      let w := { w with files := w.files ++ [path] }
      match look tree w.snapshot path with
      | .ok snapshot => { w with snapshot }.addFiles tree rest
      | .error fault => (w, some fault)

/-- Starts to watch. -/
def start (tree : FileTree) (files directories : List String) : Except FileFault Watcher :=
  match { directories : Watcher }.addFiles tree files with
  | (w, none) => do return { w with snapshot := ← w.scan tree }
  | (_, some fault) => .error fault

/-- The paths whose states differ, in ascending order. -/
def changedPaths (old new : Snapshot) : List String :=
  Text.sortedDistinct ((old.keys ++ new.keys).filter fun path => old[path]? != new[path]?)

/-- Looks at everything and tells what changed since the last look. A look that fails counts for
nothing. -/
def poll (tree : FileTree) (w : Watcher) : Except FileFault (Watcher × List String) := do
  let snapshot ← w.scan tree
  return ({ w with snapshot }, changedPaths w.snapshot snapshot)

/-- Polls once after each of some lists of changes and collects what changed. -/
def follow (tree : FileTree) (w : Watcher) :
    List (List Change) → FileTree × Watcher × Except FileFault (List String)
  | [] => (tree, w, .ok [])
  | changes :: rest =>
    match tree.changeAll changes with
    | (tree, some fault) => (tree, w, .error fault)
    | (tree, none) =>
      match w.poll tree with
      | .error fault => (tree, w, .error fault)
      | .ok (w, changed) =>
        match follow tree w rest with
        | (tree, w, .ok more) => (tree, w, .ok (changed ++ more))
        | failed => failed

end Watcher

end UtilityCss.Project
