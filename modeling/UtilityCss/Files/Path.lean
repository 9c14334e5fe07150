import UtilityCss.Text.Split

/-! Normal paths: parent steps stand in front of all names, and no step is written that leads
nowhere. Two normal paths are the same exactly when their texts are. -/
namespace UtilityCss

/-- Where a path starts: at the working directory or at the root, which has two spellings. -/
inductive Anchor
  | here
  | root
  | doubleRoot
  deriving DecidableEq, Repr

/-- A normal path: first some steps to the parent, then names. -/
structure Path where
  anchor : Anchor := .here
  ups : Nat := 0
  names : List String := []
  deriving DecidableEq, Repr

namespace Path

/-- The slashes of an anchor. -/
def Anchor.text : Anchor → String
  | .here => ""
  | .root => "/"
  | .doubleRoot => "//"

/-- The anchor of a text: three and more slashes count as one. -/
def anchorOf (s : List Char) : Anchor :=
  match s.takeWhile (· == '/') with
  | [] => .here
  | [_, _] => .doubleRoot
  | _ => .root

/-- The path after one more component. A parent step takes back a name; at the root it is lost. -/
def push (p : Path) (component : String) : Path :=
  if component = "" || component = "." then p
  else if component = ".." then
    if p.names.isEmpty then
      if p.anchor = .here then { p with ups := p.ups + 1 } else p
    else { p with names := p.names.dropLast }
  else { p with names := p.names ++ [component] }

/-- The path after all components of a text. -/
def pushAll (p : Path) (s : String) : Path := (Text.fields '/' s).foldl push p

/-- The normal path of a text. -/
def ofText (s : String) : Path := pushAll { anchor := anchorOf s.toList } s

/-- The text of a path. -/
def text (p : Path) : String :=
  let components := List.replicate p.ups ".." ++ p.names
  if p.anchor = .here && components.isEmpty then "."
  else Anchor.text p.anchor ++ String.intercalate "/" components

private theorem ups_le_intercalate (ups : Nat) (names : List String) :
    3 * ups ≤ (String.intercalate "/" (List.replicate ups ".." ++ names)).utf8ByteSize + 1 := by
  induction ups with
  | zero => omega
  | succ ups ih =>
    rw [List.replicate_succ, List.cons_append]
    cases h : List.replicate ups ".." ++ names with
    | nil =>
      rw [List.append_eq_nil_iff, List.replicate_eq_nil_iff] at h
      rw [h.1]
      decide
    | cons next rest =>
      rw [h] at ih
      rw [String.intercalate_cons_cons, String.utf8ByteSize_append, String.utf8ByteSize_append]
      have hsize : ("..".utf8ByteSize, "/".utf8ByteSize) = (2, 1) := by decide
      injection hsize with hup hslash
      omega

/-- A parent step takes two characters and a slash, of which only the last one can be spared. -/
theorem ups_le_text (p : Path) : 3 * p.ups ≤ p.text.utf8ByteSize + 1 := by
  have h := ups_le_intercalate p.ups p.names
  rw [text]
  split
  · next hempty =>
    simp only [Bool.and_eq_true, List.isEmpty_iff, List.append_eq_nil_iff] at hempty
    rw [hempty.2.1, hempty.2.2] at h
    simp only [List.nil_append, String.intercalate_nil] at h
    simp only [String.utf8ByteSize_empty] at h
    omega
  · rw [String.utf8ByteSize_append]
    omega

/-- The directory of a path: its last step is dropped. -/
def parent (p : Path) : Path :=
  if p.names.isEmpty then { p with ups := p.ups - 1 } else { p with names := p.names.dropLast }

/-- The path that a text names from inside the file `p`. -/
def beside (p : Path) (s : String) : Path :=
  if s.toList.head? = some '/' then ofText s else p.parent.pushAll s

/-- The path that a text names from the directory at a place below the root. -/
def absolute (place : List String) (s : String) : Path :=
  if s.toList.head? = some '/' then ofText s else pushAll ⟨.root, 0, place⟩ s

/-- Whether a text has more bytes than a path may have. -/
def isTooLong (s : String) : Bool := 4096 ≤ s.utf8ByteSize

/-- Puts a text behind a directory, as one joins names while walking through directories. -/
def joinText (directory name : String) : String :=
  if directory = "" || directory.toList.getLast? = some '/' then directory ++ name
  else directory ++ "/" ++ name

/-- The components of a text without empty ones and dots; parent steps are kept. -/
def components (s : String) : List String :=
  (Text.fields '/' s).filter fun c => c != "" && c != "."

/-- The text of some components behind an anchor. -/
def textOf (anchor : Anchor) (components : List String) : String :=
  if anchor = .here && components.isEmpty then "."
  else Anchor.text anchor ++ String.intercalate "/" components

/-- A text without empty components and dots; parent steps are kept. -/
def tidy (s : String) : String := textOf (anchorOf s.toList) (components s)

/-- Drops the slashes at the end of a text, unless nothing else is there. -/
def withoutSlashes (s : List Char) : List Char :=
  match s.reverse.dropWhile (· == '/') with
  | [] => s
  | kept => kept.reverse

/-- The directory of a path as it is written, and what stands behind the last slash. -/
def cut (s : List Char) : List Char × List Char :=
  let behind := s.reverse.takeWhile (· != '/')
  (withoutSlashes (s.reverse.dropWhile (· != '/')).reverse, behind.reverse)

/-- The directory of a path as it is written; empty for a name alone. -/
def directoryText (path : String) : String := String.ofList (cut path.toList).1

/-- A path and the directories above it as they are written, each with its last component. Slashes
at the end count as none; a name alone has nothing above it. -/
def upward : (fuel : Nat) → List Char → List (String × String)
  | 0, _ => []
  | fuel + 1, s =>
    let ends := cut s
    let (above, last) := if ends.2.isEmpty then cut ends.1 else ends
    let entry := (String.ofList s, String.ofList last)
    if above.isEmpty || last.isEmpty then [entry] else entry :: upward fuel above

/-- A path and the directories above it. -/
def ancestors (path : String) : List (String × String) := upward (path.length + 1) path.toList

end Path

end UtilityCss
