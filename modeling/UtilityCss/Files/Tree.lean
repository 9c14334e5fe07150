import UtilityCss.Files.Fault
import UtilityCss.Files.Path
import UtilityCss.OrderedMap
import UtilityCss.Text.Newlines
import UtilityCss.Text.Utf8

/-! File trees: directories and files with the times of their last changes. -/
namespace UtilityCss

/-- What a file holds: a text, or bytes that need not be one. -/
inductive Content
  | text (s : String)
  | bytes (b : List UInt8)

namespace Content

/-- The characters, if the content is UTF-8. -/
def decode : Content → Except Text.Utf8.Fault (List Char)
  | .text s => .ok s.toList
  | .bytes b => Text.Utf8.decode b

/-- The characters, with a replacement for each part that is not UTF-8. -/
def decodeLossy : Content → List Char
  | .text s => s.toList
  | .bytes b => Text.Utf8.decodeLossy b

/-- The content as the text of a source: anything can be read. -/
def source (c : Content) : String := String.ofList (Text.unifyNewlines c.decodeLossy)

/-- The content as it stands in the file. -/
def raw : Content → String
  | .text s => s
  | c => String.ofList c.decodeLossy

end Content

/-- A file or a directory. The stamp of a directory moves when an entry comes or goes. -/
inductive Node
  | file (content : Content) (stamp : Nat)
  | dir (entries : List (String × Node)) (stamp : Nat)

namespace Node

/-- The time of the last change. -/
def stamp : Node → Nat
  | .file _ s => s
  | .dir _ s => s

/-- Whether a node is a directory. -/
def isDir : Node → Bool
  | .file .. => false
  | .dir .. => true

/-- The node some names further down. -/
def descend : Node → List String → Except FileProblem Node
  | n, [] => .ok n
  | .file .., _ :: _ => .error .notDirectory
  | .dir entries _, name :: rest =>
    if 255 < name.utf8ByteSize then .error .nameTooLong
    else match entries.lookup name with
      | none => .error .notFound
      | some child => child.descend rest

/-- Puts a node at a place; the directories above it must be there. -/
def put (now : Nat) (new : Node) : List String → Node → Node
  | [], _ => new
  | _ :: _, .file content stamp => .file content stamp
  | name :: rest, .dir entries stamp =>
    match entries.lookup name with
    | some child => .dir (putNamed name (put now new rest child) entries) stamp
    | none => if rest.isEmpty then .dir (putNamed name new entries) now else .dir entries stamp

/-- Takes away the node at a place. -/
def erase (now : Nat) : List String → Node → Node
  | [], n => n
  | _ :: _, .file content stamp => .file content stamp
  | name :: rest, .dir entries stamp =>
    match entries.lookup name with
    | none => .dir entries stamp
    | some child =>
      if rest.isEmpty then .dir (entries.filter (·.1 != name)) now
      else .dir (putNamed name (erase now rest child) entries) stamp

mutual

/-- The places of all files. -/
def files : Node → List (List String)
  | .file .. => [[]]
  | .dir entries _ => entryFiles entries

/-- The places of all files below some entries. -/
def entryFiles : List (String × Node) → List (List String)
  | [] => []
  | (name, n) :: rest => (files n).map (name :: ·) ++ entryFiles rest

end

theorem mem_entryFiles_of_lookup {entries : List (String × Node)} {name : String} {child : Node}
    {place : List String} (h : entries.lookup name = some child) (hp : place ∈ child.files) :
    name :: place ∈ entryFiles entries := by
  induction entries with
  | nil => simp at h
  | cons e rest ih =>
    obtain ⟨n, v⟩ := e
    rw [List.lookup_cons] at h
    rw [entryFiles, List.mem_append, List.mem_map]
    split at h
    · next hn =>
      obtain rfl := Option.some.inj h
      obtain rfl : name = n := by simpa using hn
      exact Or.inl ⟨place, hp, rfl⟩
    · exact Or.inr (ih h)

/-- A file that is found is one of the files. -/
theorem mem_files_of_descend {n : Node} {place : List String} {content : Content} {stamp : Nat}
    (h : n.descend place = .ok (.file content stamp)) : place ∈ n.files := by
  induction place generalizing n with
  | nil =>
    rw [descend] at h
    obtain rfl := Except.ok.inj h
    simp [files]
  | cons name rest ih =>
    cases n with
    | file => simp [descend] at h
    | dir entries _ =>
      rw [descend] at h
      split at h
      · cases h
      · split at h
        · cases h
        · next child hc =>
          rw [files]
          exact mem_entryFiles_of_lookup hc (ih h)

end Node

/-- A tree with a working directory, given by the names that lead to it from the root, and a clock
that moves with every change. -/
structure FileTree where
  root : Node := .dir [] 0
  home : List String := []
  clock : Nat := 0

namespace FileTree

/-- Faults that need no look at the tree. -/
def textProblem? (path : String) : Option FileProblem :=
  if path.toList.contains '\x00' then some .zeroInPath
  else if path.isEmpty then some .notFound
  else if Path.isTooLong path then some .nameTooLong
  else none

/-- The place one component further. The root is its own parent. -/
def stepTo (t : FileTree) (place : List String) (component : String) :
    Except FileProblem (List String) := do
  match ← t.root.descend place with
  | .file .. => throw .notDirectory
  | .dir .. =>
    if component = "" || component = "." then return place
    else if component = ".." then return place.dropLast
    else
      let next := place ++ [component]
      let _ ← t.root.descend next
      return next

/-- The place that a path names; every component but the last must be a directory, and before a
slash at the end the last one too. -/
def resolve (t : FileTree) (path : String) : Except FileProblem (List String) :=
  match textProblem? path with
  | some problem => .error problem
  | none =>
    let start := if path.toList.head? = some '/' then [] else t.home
    (Text.fields '/' path).foldlM t.stepTo start

/-- The node that a path names. -/
def node? (t : FileTree) (path : String) : Except FileProblem Node := do
  t.root.descend (← t.resolve path)

/-- Whether a path names a directory. -/
def isDirectory (t : FileTree) (path : String) : Bool :=
  match t.node? path with
  | .ok n => n.isDir
  | .error _ => false

/-- The text of the file that a path names, as it stands there. -/
def text? (t : FileTree) (path : String) : Option String :=
  match t.node? path with
  | .ok (.file content _) => some content.raw
  | _ => none

/-- The content of the file that a path names, once it is tidied. -/
def read (t : FileTree) (path : String) : Except FileFault Content :=
  let tidied := Path.tidy path
  match t.node? tidied with
  | .error problem => .error ⟨problem, tidied⟩
  | .ok (.dir ..) => .error ⟨.isDirectory, tidied⟩
  | .ok (.file content _) => .ok content

/-- The place at which a new entry can be made: its directory is there and it is not. -/
def freePlace (t : FileTree) (path : String) : Except FileProblem (List String) :=
  match t.resolve path with
  | .ok _ => .error .alreadyExists
  | .error .notFound => do
    let parts := Path.components path
    let some last := parts.getLast? | throw .notFound
    let place ← t.resolve (Path.textOf (Path.anchorOf path.toList) parts.dropLast)
    return place ++ [last]
  | .error problem => .error problem

/-- Puts a new node at a place, one tick later. -/
def putNow (t : FileTree) (place : List String) (make : Nat → Node) : FileTree :=
  let now := t.clock + 1
  { t with root := Node.put now (make now) place t.root, clock := now }

/-- Makes a directory. Slashes at the end of its path say nothing. -/
def makeDirectory (t : FileTree) (path : String) : Except FileProblem FileTree := do
  return t.putNow (← t.freePlace (String.ofList (Path.withoutSlashes path.toList))) (.dir [])

/-- Makes a directory, unless it is there. -/
def settleDirectory (t : FileTree) (path : String) : FileTree × Option FileFault :=
  match t.makeDirectory path with
  | .ok made => (made, none)
  | .error problem => if t.isDirectory path then (t, none) else (t, some ⟨problem, path⟩)

/-- Makes the directories of a path from the last one upwards, as far as they are missing. -/
def ensureDirectories (t : FileTree) (anchor : Anchor) : List String → FileTree × Option FileFault
  | [] => (t, none)
  | last :: above =>
    let path := Path.textOf anchor (last :: above).reverse
    match t.makeDirectory path with
    | .error .notFound =>
      match t.ensureDirectories anchor above with
      | (made, none) => made.settleDirectory path
      | failed => failed
    | _ => t.settleDirectory path

/-- Makes a directory and first the missing ones above it, given as they are written. A dot behind a
directory that was just made asks for nothing. A file that stands in the place of a directory above
is only noticed further on. -/
def makeDirectories (t : FileTree) : List (String × String) → FileTree × Option FileFault
  | [] => (t, none)
  | (path, last) :: above =>
    match above with
    | [] => t.settleDirectory path
    | next :: _ =>
      match t.node? next.1 with
      | .ok _ => t.settleDirectory path
      | .error _ =>
        let (made, fault) := t.makeDirectories above
        match fault.filter (·.problem ≠ .alreadyExists) with
        | none => if last = "." then (made, none) else made.settleDirectory path
        | some fault => (made, some fault)

/-- Writes a file whose directory is there. The path is taken as it is written. -/
def put (t : FileTree) (path : String) (content : Content) : Except FileFault FileTree :=
  match t.node? path, t.resolve path with
  | .ok (.dir ..), _ => .error ⟨.isDirectory, path⟩
  | .ok (.file ..), .ok place => .ok (t.putNow place (.file content))
  | _, _ =>
    match t.freePlace path with
    | .ok place => .ok (t.putNow place (.file content))
    | .error problem => .error ⟨problem, path⟩

/-- Writes a file whose directory is there, once the path is tidied. -/
def write (t : FileTree) (path : String) (content : Content) : Except FileFault FileTree :=
  t.put (Path.tidy path) content

/-- Writes a file and makes the missing directories above it. -/
def writeOutput (t : FileTree) (path : String) (content : Content) :
    FileTree × Option FileFault :=
  match t.ensureDirectories (Path.anchorOf path.toList) (Path.components path).reverse.tail with
  | (made, none) =>
    match made.write path content with
    | .ok written => (written, none)
    | .error fault => (made, some fault)
  | failed => failed

/-- Takes away a file or a whole directory. -/
def remove (t : FileTree) (path : String) : Except FileFault FileTree :=
  match t.resolve path with
  | .ok place => .ok { t with root := t.root.erase (t.clock + 1) place, clock := t.clock + 1 }
  | .error problem => .error ⟨problem, path⟩

/-- Gives a file or a directory a new stamp. -/
def touch (t : FileTree) (path : String) : Except FileFault FileTree :=
  match t.resolve path, t.node? path with
  | .ok place, .ok (.file content _) => .ok (t.putNow place (.file content))
  | .ok place, .ok (.dir entries _) => .ok (t.putNow place (.dir entries))
  | .error problem, _ => .error ⟨problem, path⟩
  | _, .error problem => .error ⟨problem, path⟩

/-- The time of the last change of a path, if the path is there. -/
def stamp? (t : FileTree) (path : String) : Except FileFault (Option Nat) :=
  match t.node? path with
  | .ok n => .ok (some n.stamp)
  | .error .notFound => .ok none
  | .error problem => .error ⟨problem, path⟩

end FileTree

end UtilityCss
