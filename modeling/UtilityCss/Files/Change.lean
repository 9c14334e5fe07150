import UtilityCss.Files.Tree

/-! Changes of a file tree from outside. -/
namespace UtilityCss

/-- A change. Writing makes the directories that are missing. Paths are taken as they stand. -/
inductive Change
  | write (path : String) (content : Content)
  | makeDirectory (path : String)
  | remove (path : String)
  | touch (path : String)

namespace FileTree

/-- The tree after a change that may fail; a failed one leaves it. -/
def orFault (t : FileTree) : Except FileFault FileTree → FileTree × Option FileFault
  | .ok changed => (changed, none)
  | .error fault => (t, some fault)

/-- Carries out a change. -/
def change (t : FileTree) : Change → FileTree × Option FileFault
  | .write path content =>
    let directory := Path.directoryText path
    let (made, fault) :=
      if directory.isEmpty then (t, none) else t.makeDirectories (Path.ancestors directory)
    match fault with
    | none => made.orFault (made.put path content)
    | some fault => (made, some fault)
  | .makeDirectory path => t.makeDirectories (Path.ancestors path)
  | .remove path => t.orFault (t.remove path)
  | .touch path => t.orFault (t.touch path)

/-- Carries out changes up to the first fault. -/
def changeAll (t : FileTree) : List Change → FileTree × Option FileFault
  | [] => (t, none)
  | c :: rest =>
    match t.change c with
    | (changed, none) => changed.changeAll rest
    | failed => failed

end FileTree

end UtilityCss
