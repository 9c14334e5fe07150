import UtilityCss.Files.Tree
import UtilityCss.Pattern.Basic
import UtilityCss.Text.Sorted

/-! The source files below some directories. -/
namespace UtilityCss.Project

/-- Which files are sources. What is ignored is not looked into either. -/
structure Selection where
  wanted : Pattern := .endingWith ".tsx" [".ts", ".jsx", ".js", ".html"]
  ignored : Option Pattern := none

namespace Selection

/-- Whether a path is left out. -/
def ignores (s : Selection) (path : String) : Bool :=
  match s.ignored with
  | some r => r.finds path
  | none => false

/-- Whether a path is that of a source, apart from the directories above it. -/
def selects (s : Selection) (path : String) : Bool := !s.ignores path && s.wanted.finds path

/-- What a walk meets: a directory that it opens, or a source. -/
inductive Stop
  | directory (path : String)
  | source (path : String) (content : Content)

mutual

/-- The stops at and below a node that is not ignored. -/
def stopsAt (s : Selection) (path : String) : Node → List Stop
  | .file content _ => if s.wanted.finds path then [.source path content] else []
  | .dir entries _ => .directory path :: (Text.sortedByName (s.stopsIn path entries)).flatMap (·.2)

/-- The stops of each entry of a directory. -/
def stopsIn (s : Selection) (directory : String) :
    List (String × Node) → List (String × List Stop)
  | [] => []
  | (name, n) :: rest =>
    let path := Path.joinText directory name
    (name, if s.ignores path then [] else s.stopsAt path n) :: s.stopsIn directory rest

end

/-- The sources among some stops, up to a directory whose path is too long to be opened. -/
def sourcesOf : List Stop → List (String × Content) × Option FileFault
  | [] => ([], none)
  | .directory path :: rest =>
    if Path.isTooLong path then ([], some ⟨.nameTooLong, path⟩) else sourcesOf rest
  | .source path content :: rest =>
    let (more, fault) := sourcesOf rest
    ((path, content) :: more, fault)

end Selection

/-- The sources below some directories, one directory after the other. A directory that cannot be
opened ends the crawl. -/
def crawl (tree : FileTree) (s : Selection) :
    (directories : List String) → List (String × Content) × Option FileFault
  | [] => ([], none)
  | directory :: rest =>
    match tree.node? directory with
    | .error problem => ([], some ⟨problem, directory⟩)
    | .ok (.file ..) => ([], some ⟨.notDirectory, directory⟩)
    | .ok n =>
      match Selection.sourcesOf (s.stopsAt directory n) with
      | (found, none) =>
        let (more, fault) := crawl tree s rest
        (found ++ more, fault)
      | failed => failed

/-- The texts of some sources with the fault that comes behind them. A source is read under its
tidied path, and one for which that is too long ends the reading. -/
def readFound (fault : Option FileFault) :
    List (String × Content) → List String × Option FileFault
  | [] => ([], fault)
  | (path, content) :: rest =>
    let tidied := Path.tidy path
    if Path.isTooLong tidied then ([], some ⟨.nameTooLong, tidied⟩)
    else
      let (more, fault) := readFound fault rest
      (content.source :: more, fault)

/-- The texts of the sources below some directories. -/
def crawlTexts (tree : FileTree) (s : Selection) (directories : List String) :
    List String × Option FileFault :=
  let (found, fault) := crawl tree s directories
  readFound fault found

end UtilityCss.Project
