import UtilityCss.Files.Tree
import UtilityCss.Sheet.Pass

/-! The style sheets of a file tree. -/
namespace UtilityCss.FileTree

open Sheet (ReadProblem SheetFiles)

/-- The place that a normal path names. The root is its own parent. -/
def placeOf (t : FileTree) (p : Path) : Except FileProblem (List String) :=
  match p.anchor with
  | .here => .ok (t.home.take (t.home.length - p.ups) ++ p.names)
  | .root | .doubleRoot => if p.ups = 0 then .ok p.names else .error .notFound

/-- The characters of a style sheet. Line breaks are unified inside strings too. -/
def sheetText (content : Content) : Except ReadProblem String :=
  match content.decode with
  | .ok s => .ok (String.ofList (Text.unifyNewlines s))
  | .error _ => .error .notUtf8

/-- The content of the file at a normal path. -/
def sheetContent (t : FileTree) (p : Path) : Except FileProblem Content := do
  if let some problem := textProblem? p.text then throw problem
  match ← t.root.descend (← t.placeOf p) with
  | .file content _ => return content
  | .dir .. => throw .isDirectory

/-- Reads the style sheet at a normal path. -/
def readSheet (t : FileTree) (p : Path) : Except ReadProblem String :=
  match t.sheetContent p with
  | .ok content => sheetText content
  | .error problem => .error (.file problem)

/-- The most parent steps for which there is room in a path. -/
def maxUps : Nat := 1365

theorem ups_le_of_textProblem? {p : Path} (h : textProblem? p.text = none) : p.ups ≤ maxUps := by
  have hups := p.ups_le_text
  have hsize : p.text.utf8ByteSize < 4096 := by
    unfold textProblem? at h
    split at h
    · cases h
    · split at h
      · cases h
      · split at h
        · cases h
        · next hshort => simpa [Path.isTooLong] using hshort
  unfold maxUps
  omega

/-- The normal paths of a place. From the working directory there is one for every directory above
both, and at the root more steps to the parent change nothing. -/
def pathsOf (t : FileTree) (place : List String) : List Path :=
  ⟨.root, 0, place⟩ :: ⟨.doubleRoot, 0, place⟩ ::
    (List.range (maxUps + 1)).filterMap fun ups =>
      let start := t.home.take (t.home.length - ups)
      if start.isPrefixOf place then some ⟨.here, ups, place.drop start.length⟩ else none

theorem mem_pathsOf_of_placeOf {t : FileTree} {p : Path} {place : List String}
    (hups : p.ups ≤ maxUps) (h : t.placeOf p = .ok place) : p ∈ t.pathsOf place := by
  obtain ⟨anchor, ups, names⟩ := p
  cases anchor with
  | here =>
    simp only [placeOf] at h
    obtain rfl := Except.ok.inj h
    simp only [pathsOf, List.mem_cons, List.mem_filterMap, List.mem_range]
    refine .inr (.inr ⟨ups, Nat.lt_succ_of_le hups, ?_⟩)
    rw [if_pos (by simp)]
    simp
  | root =>
    simp only [placeOf] at h
    split at h
    · next hzero =>
      obtain rfl := Except.ok.inj h
      simp [pathsOf, show ups = 0 from hzero]
    · cases h
  | doubleRoot =>
    simp only [placeOf] at h
    split at h
    · next hzero =>
      obtain rfl := Except.ok.inj h
      simp [pathsOf, show ups = 0 from hzero]
    · cases h

theorem mem_files_of_sheetContent {t : FileTree} {p : Path} {content : Content}
    (h : t.sheetContent p = .ok content) :
    p.ups ≤ maxUps ∧ ∃ place ∈ t.root.files, t.placeOf p = .ok place := by
  unfold sheetContent at h
  cases hp : textProblem? p.text with
  | some problem => simp [hp, throw, throwThe, MonadExceptOf.throw, bind, Except.bind] at h
  | none =>
    cases hplace : t.placeOf p with
    | error problem => simp [hp, hplace, bind, Except.bind] at h
    | ok place =>
      cases hnode : t.root.descend place with
      | error problem => simp [hp, hplace, hnode, bind, Except.bind] at h
      | ok n =>
        cases n with
        | file c stamp =>
          exact ⟨ups_le_of_textProblem? hp, place, Node.mem_files_of_descend hnode, rfl⟩
        | dir entries stamp =>
          simp [hp, hplace, hnode, throw, throwThe, MonadExceptOf.throw, bind, Except.bind] at h

/-- The style sheets that can be read. -/
def sheets (t : FileTree) : SheetFiles where
  read := t.readSheet
  paths := t.root.files.flatMap t.pathsOf
  mem_paths {p css} h := by
    unfold readSheet at h
    cases hc : t.sheetContent p with
    | error problem => simp [hc] at h
    | ok content =>
      obtain ⟨hups, place, hfile, hplace⟩ := mem_files_of_sheetContent hc
      exact List.mem_flatMap.2 ⟨place, hfile, mem_pathsOf_of_placeOf hups hplace⟩

end UtilityCss.FileTree
