import UtilityCss.Proofs.Files.Written
import UtilityCss.Proofs.Project.Crawl
import UtilityCss.Proofs.Text.Sorted

/-! What a crawl yields, and in which order. Every node below a directory is known by the names that
lead to it. A walk that goes into each directory where it meets it, and through the entries of a
directory by name, meets the nodes in the lexicographic order of these names. -/
namespace UtilityCss.Project

open Path (joinText waypoints)

namespace Selection

variable {s : Selection} {base : String} {n : Node} {now stamp : Nat} {content : Content}
  {entries : List (String × Node)} {names : List String} {stop : Stop}

/-- What a walk from a node meets some names further down: a directory or a wanted file, if nothing
on the way to it is ignored. -/
inductive Passes (s : Selection) (base : String) (n : Node) : List String → Stop → Prop
  | directory {names : List String} {entries : List (String × Node)} {stamp : Nat}
      (there : n.descend names = .ok (.dir entries stamp))
      (clear : ∀ passed ∈ waypoints base names, s.ignores passed = false) :
      Passes s base n names (.directory (names.foldl joinText base))
  | source {names : List String} {content : Content} {stamp : Nat}
      (there : n.descend names = .ok (.file content stamp))
      (clear : ∀ passed ∈ waypoints base names, s.ignores passed = false)
      (wanted : s.wanted.finds (names.foldl joinText base) = true) :
      Passes s base n names (.source (names.foldl joinText base) content)

theorem passes_file_iff : s.Passes base (.file content stamp) names stop ↔
    names = [] ∧ s.wanted.finds base = true ∧ stop = .source base content := by
  constructor
  · intro h
    cases h with
    | directory there =>
      cases names with
      | nil => cases there
      | cons => cases there
    | source there _ wanted =>
      cases names with
      | nil =>
        cases there
        exact ⟨rfl, wanted, rfl⟩
      | cons => cases there
  · rintro ⟨rfl, wanted, rfl⟩
    exact .source rfl (fun _ none => absurd none List.not_mem_nil) wanted

theorem passes_dir_nil_iff :
    s.Passes base (.dir entries stamp) [] stop ↔ stop = .directory base := by
  constructor
  · intro h
    cases h with
    | directory => rfl
    | source there => cases there
  · rintro rfl
    exact .directory rfl (fun _ none => absurd none List.not_mem_nil)

/-- What is met in a directory is met in one of its entries that is not ignored. -/
theorem passes_dir_cons_iff {name : String} (sound : (Node.dir entries stamp).Sound now) :
    s.Passes base (.dir entries stamp) (name :: names) stop ↔
      ∃ child, (name, child) ∈ entries ∧ s.ignores (joinText base name) = false ∧
        s.Passes (joinText base name) child names stop := by
  constructor
  · intro h
    cases h with
    | directory there clear =>
      obtain ⟨child, inside, below⟩ := sound.descend_cons_iff.1 there
      obtain ⟨here, later⟩ := List.forall_mem_cons.1 clear
      exact ⟨child, inside, here, .directory below later⟩
    | source there clear wanted =>
      obtain ⟨child, inside, below⟩ := sound.descend_cons_iff.1 there
      obtain ⟨here, later⟩ := List.forall_mem_cons.1 clear
      exact ⟨child, inside, here, .source below later wanted⟩
  · rintro ⟨child, inside, here, h⟩
    cases h with
    | directory below later =>
      exact .directory (sound.descend_cons_iff.2 ⟨child, inside, below⟩)
        (List.forall_mem_cons.2 ⟨here, later⟩)
    | source below later wanted =>
      exact .source (sound.descend_cons_iff.2 ⟨child, inside, below⟩)
        (List.forall_mem_cons.2 ⟨here, later⟩) wanted

/-- The stops of a walk with the names that lead to them, in lexicographic order. -/
structure IsWalk (s : Selection) (base : String) (n : Node) (walk : List (List String × Stop)) :
    Prop where
  ascending : walk.Pairwise (·.1 < ·.1)
  mem_iff {names : List String} {stop : Stop} : (names, stop) ∈ walk ↔ s.Passes base n names stop

/-- The stops of a directory, entry by entry. -/
theorem stopsAt_dir (s : Selection) (base : String) (entries : List (String × Node)) (stamp : Nat) :
    s.stopsAt base (.dir entries stamp) =
      .directory base :: (Text.sortedByName entries).flatMap fun e =>
        if s.ignores (joinText base e.1) then [] else s.stopsAt (joinText base e.1) e.2 := by
  have each : s.stopsIn base entries = entries.map fun e =>
      (e.1, if s.ignores (joinText base e.1) then [] else s.stopsAt (joinText base e.1) e.2) := by
    induction entries with
    | nil => rfl
    | cons e rest ih =>
      rw [stopsIn, ih]
      rfl
  rw [stopsAt, each, Text.sortedByName_map, List.flatMap_map]

/-- The stops of some entries whose names ascend, given a walk through each of them. -/
private theorem exists_walk_entries (ascending : entries.Pairwise (·.1 < ·.1))
    (each : ∀ e ∈ entries, ∃ walk, s.IsWalk (joinText base e.1) e.2 walk ∧
      walk.map (·.2) = s.stopsAt (joinText base e.1) e.2) :
    ∃ walk : List (List String × Stop), walk.Pairwise (·.1 < ·.1) ∧
      (∀ names stop, (names, stop) ∈ walk ↔ ∃ e ∈ entries, ∃ rest, names = e.1 :: rest ∧
        s.ignores (joinText base e.1) = false ∧ s.Passes (joinText base e.1) e.2 rest stop) ∧
      walk.map (·.2) = entries.flatMap fun e =>
        if s.ignores (joinText base e.1) then [] else s.stopsAt (joinText base e.1) e.2 := by
  induction entries with
  | nil => exact ⟨[], .nil, by simp, rfl⟩
  | cons e rest ih =>
    obtain ⟨lowest, ascending⟩ := List.pairwise_cons.1 ascending
    obtain ⟨first, later⟩ := List.forall_mem_cons.1 each
    obtain ⟨behind, behindAscending, behindMem, behindStops⟩ := ih ascending later
    cases left : s.ignores (joinText base e.1) with
    | true =>
      refine ⟨behind, behindAscending, fun names stop => ?_, ?_⟩
      · rw [behindMem, List.exists_mem_cons_iff]
        simp [left]
      · rw [List.flatMap_cons, left, behindStops]
        rfl
    | false =>
      obtain ⟨walk, isWalk, stops⟩ := first
      refine ⟨walk.map (fun w => (e.1 :: w.1, w.2)) ++ behind, ?_, fun names stop => ?_, ?_⟩
      · refine List.pairwise_append.2 ⟨?_, behindAscending, ?_⟩
        · refine List.pairwise_map.2 (isWalk.ascending.imp fun below => ?_)
          exact List.cons_lt_cons_iff.2 (.inr ⟨rfl, below⟩)
        · intro w inside w' inside'
          obtain ⟨_, -, rfl⟩ := List.mem_map.1 inside
          obtain ⟨e', he', _, same, -⟩ := (behindMem w'.1 w'.2).1 inside'
          rw [same]
          exact List.cons_lt_cons_iff.2 (.inl (lowest e' he'))
      · rw [List.mem_append, behindMem, List.exists_mem_cons_iff, List.mem_map]
        refine or_congr ?_ Iff.rfl
        constructor
        · rintro ⟨w, inside, same⟩
          cases same
          exact ⟨_, rfl, left, isWalk.mem_iff.1 inside⟩
        · rintro ⟨rest, rfl, -, passed⟩
          exact ⟨_, isWalk.mem_iff.2 passed, rfl⟩
      · rw [List.map_append, List.map_map, List.flatMap_cons, left, behindStops, ← stops]
        rfl

/-- The stops of a walk are those that it is to pass, each once, in the order of their names. -/
theorem exists_walk {n : Node} {base : String} (sound : n.Sound now) :
    ∃ walk, s.IsWalk base n walk ∧ walk.map (·.2) = s.stopsAt base n := by
  match n with
  | .file content stamp =>
    cases wanted : s.wanted.finds base with
    | true =>
      refine ⟨[([], .source base content)], ⟨List.pairwise_singleton _ _, ?_⟩, ?_⟩
      · intro names stop
        rw [passes_file_iff, List.mem_singleton, Prod.mk.injEq]
        simp [wanted]
      · rw [stopsAt, if_pos wanted]
        rfl
    | false =>
      refine ⟨[], ⟨.nil, ?_⟩, ?_⟩
      · intro names stop
        rw [passes_file_iff]
        simp [wanted]
      · rw [stopsAt, if_neg (by simp [wanted])]
        rfl
  | .dir entries stamp =>
    have nodup : (entries.map (·.1)).Nodup := sound.nodup [] rfl
    have mem_sorted (e : String × Node) : e ∈ Text.sortedByName entries ↔ e ∈ entries :=
      List.mem_mergeSort
    obtain ⟨walk, ascending, mem, stops⟩ := exists_walk_entries (s := s)
      (Text.pairwise_sortedByName nodup) fun e inside =>
        have inside := (mem_sorted e).1 inside
        exists_walk (n := e.2) (sound.child (lookup_of_mem nodup inside))
    refine ⟨([], .directory base) :: walk, ⟨List.pairwise_cons.2 ⟨?_, ascending⟩, ?_⟩, ?_⟩
    · intro w inside
      obtain ⟨e, -, rest, same, -⟩ := (mem w.1 w.2).1 inside
      rw [same]
      exact List.nil_lt_cons _ _
    · intro names stop
      rw [List.mem_cons, mem]
      cases names with
      | nil => simp [passes_dir_nil_iff]
      | cons name rest =>
        rw [passes_dir_cons_iff sound]
        constructor
        · rintro (same | ⟨e, inside, _, same, clear, passed⟩)
          · cases same
          · cases same
            exact ⟨e.2, (mem_sorted e).1 inside, clear, passed⟩
        · rintro ⟨child, inside, clear, passed⟩
          exact .inr ⟨(name, child), (mem_sorted _).2 inside, rest, rfl, clear, passed⟩
    · rw [stopsAt_dir, List.map_cons, stops]
termination_by sizeOf n
decreasing_by exact Node.sizeOf_lt_of_mem inside stamp

/-- Whether a stop is a directory that cannot be opened, its path being too long. -/
def Stop.isShut : Stop → Bool
  | .directory path => Path.isTooLong path
  | .source .. => false

/-- The sources among some stops, with the names that lead to them. -/
def sourcesWithNames (walk : List (List String × Stop)) : List (List String × Content) :=
  walk.filterMap fun w =>
    match w.2 with
    | .directory _ => none
    | .source _ content => some (w.1, content)

theorem mem_sourcesWithNames {walk : List (List String × Stop)} :
    (names, content) ∈ sourcesWithNames walk ↔ ∃ path, (names, .source path content) ∈ walk := by
  rw [sourcesWithNames, List.mem_filterMap]
  constructor
  · rintro ⟨⟨names', stop⟩, inside, same⟩
    cases stop with
    | directory => cases same
    | source path content' =>
      cases same
      exact ⟨path, inside⟩
  · rintro ⟨path, inside⟩
    exact ⟨_, inside, rfl⟩

theorem pairwise_sourcesWithNames {walk : List (List String × Stop)}
    (ascending : walk.Pairwise (·.1 < ·.1)) :
    (sourcesWithNames walk).Pairwise (·.1 < ·.1) := by
  refine ascending.filterMap _ fun w w' below e he e' he' => ?_
  obtain ⟨names, stop⟩ := w
  obtain ⟨names', stop'⟩ := w'
  cases stop with
  | directory => cases he
  | source =>
    cases stop' with
    | directory => cases he'
    | source =>
      cases he
      cases he'
      exact below

/-- The joined paths of some files below a directory. -/
def joinedPaths (directory : String) (found : List (List String × Content)) :
    List (String × Content) :=
  found.map fun e => (e.1.foldl joinText directory, e.2)

/-- Stops without a directory that is shut give all their sources, and what comes behind them. -/
theorem sourcesOf_append {walk : List (List String × Stop)} (rest : List Stop)
    (joined : ∀ w ∈ walk, s.Passes base n w.1 w.2) (openable : ∀ w ∈ walk, w.2.isShut = false) :
    sourcesOf (walk.map (·.2) ++ rest) =
      (joinedPaths base (sourcesWithNames walk) ++ (sourcesOf rest).1, (sourcesOf rest).2) := by
  induction walk with
  | nil => rfl
  | cons w walk ih =>
    obtain ⟨here, joined⟩ := List.forall_mem_cons.1 joined
    obtain ⟨first, openable⟩ := List.forall_mem_cons.1 openable
    have later := ih joined openable
    obtain ⟨names, stop⟩ := w
    have here : s.Passes base n names stop := here
    cases here with
    | directory there =>
      rw [List.map_cons, List.cons_append, sourcesOf, if_neg (by simpa [Stop.isShut] using first)]
      exact later
    | source there =>
      rw [List.map_cons, List.cons_append, sourcesOf, later]
      rfl

end Selection

variable {tree : FileTree} {s : Selection} {directory : String} {names : List String}
  {content : Content}

/-- A file below a directory that a crawl is to yield: its path is wanted, and nothing on the way to
it is ignored, the path itself included. Whether the directory is ignored is not asked. -/
def Chosen (tree : FileTree) (s : Selection) (directory : String) (names : List String)
    (content : Content) : Prop :=
  (∃ stamp, tree.HasFile directory names content stamp) ∧
    s.wanted.finds (names.foldl joinText directory) = true ∧
    ∀ passed ∈ waypoints directory names, s.ignores passed = false

/-- A directory that a crawl opens: the one it starts with, or one below it that is reached without
passing anything ignored. -/
def Opens (tree : FileTree) (s : Selection) (directory : String) (names : List String) : Prop :=
  (∃ n entries stamp, tree.node? directory = .ok n ∧ n.descend names = .ok (.dir entries stamp)) ∧
    ∀ passed ∈ waypoints directory names, s.ignores passed = false

/-- The path of an opened directory is longer than a path may be. -/
def Shut (tree : FileTree) (s : Selection) (directory : String) (names : List String) : Prop :=
  Opens tree s directory names ∧ Path.isTooLong (names.foldl joinText directory) = true

/-- The chosen files as far as they are reached, each once, in lexicographic order of their names. -/
structure IsListing (tree : FileTree) (s : Selection) (directory : String)
    (reached : List String → Prop) (found : List (List String × Content)) : Prop where
  ascending : found.Pairwise (·.1 < ·.1)
  mem_iff {names : List String} {content : Content} :
    (names, content) ∈ found ↔ Chosen tree s directory names content ∧ reached names

/-- Which files are listed settles the listing. -/
theorem IsListing.unique {reached : List String → Prop} {found found' : List (List String × Content)}
    (h : IsListing tree s directory reached found)
    (h' : IsListing tree s directory reached found') : found = found' := by
  have : Std.Irrefl fun e e' : List String × Content => e.1 < e'.1 := ⟨fun e => List.lt_irrefl e.1⟩
  have : Std.Antisymm fun e e' : List String × Content => e.1 < e'.1 :=
    ⟨fun _ _ below above => absurd above (List.lt_asymm below)⟩
  refine h.ascending.eq_of_mem_iff h'.ascending fun e => ?_
  rw [h.mem_iff, h'.mem_iff]

/-- What a crawl is to yield: the chosen files of each directory in turn. It ends before its time at
the first directory on its way that cannot be opened. -/
inductive Crawls (tree : FileTree) (s : Selection) :
    (directories : List String) → List (String × Content) → Option FileFault → Prop
  | done : Crawls tree s [] [] none
  | whole {directory : String} {rest : List String} {found : List (List String × Content)}
      {more : List (String × Content)} {fault : Option FileFault}
      (listing : IsListing tree s directory (fun _ => True) found)
      (openable : ∀ names, ¬ Shut tree s directory names) (later : Crawls tree s rest more fault) :
      Crawls tree s (directory :: rest) (Selection.joinedPaths directory found ++ more) fault
  | cut {directory : String} {rest names : List String} {found : List (List String × Content)}
      (shut : Shut tree s directory names)
      (first : ∀ names', Shut tree s directory names' → ¬ names' < names)
      (listing : IsListing tree s directory (· < names) found) :
      Crawls tree s (directory :: rest) (Selection.joinedPaths directory found)
        (some ⟨.nameTooLong, names.foldl joinText directory⟩)

section Directory

open Selection (Stop IsWalk sourcesOf sourcesWithNames joinedPaths)

variable {entries : List (String × Node)} {stamp : Nat} {walk : List (List String × Stop)}
  (found : tree.node? directory = .ok (.dir entries stamp))
include found

theorem chosen_iff : Chosen tree s directory names content ↔
    ∃ path, s.Passes directory (.dir entries stamp) names (.source path content) := by
  constructor
  · rintro ⟨⟨st, -, n, there, below⟩, wanted, clear⟩
    cases found.symm.trans there
    exact ⟨_, .source below clear wanted⟩
  · rintro ⟨path, passed⟩
    cases passed with
    | source below clear wanted =>
      refine ⟨⟨_, ?_, _, found, below⟩, wanted, clear⟩
      rintro rfl
      cases below

theorem shut_iff : Shut tree s directory names ↔
    ∃ stop, s.Passes directory (.dir entries stamp) names stop ∧ stop.isShut = true := by
  constructor
  · rintro ⟨⟨⟨n, entries', stamp', there, below⟩, clear⟩, long⟩
    cases found.symm.trans there
    exact ⟨_, .directory below clear, long⟩
  · rintro ⟨stop, passed, long⟩
    cases passed with
    | directory below clear => exact ⟨⟨⟨_, _, _, found, below⟩, clear⟩, long⟩
    | source => cases long

/-- A front of a walk lists the chosen files that are reached in it. -/
theorem isListing_of_isWalk {front : List (List String × Stop)} {reached : List String → Prop}
    (isWalk : s.IsWalk directory (.dir entries stamp) walk) (begins : front.Sublist walk)
    (mem : ∀ w ∈ walk, w ∈ front ↔ reached w.1) :
    IsListing tree s directory reached (sourcesWithNames front) := by
  refine ⟨Selection.pairwise_sourcesWithNames (isWalk.ascending.sublist begins), ?_⟩
  intro names content
  rw [Selection.mem_sourcesWithNames, chosen_iff found, ← exists_and_right]
  refine exists_congr fun path => ⟨fun inside => ?_, fun h => ?_⟩
  · have met := begins.subset inside
    exact ⟨isWalk.mem_iff.1 met, (mem _ met).1 inside⟩
  · exact (mem _ (isWalk.mem_iff.2 h.1)).2 h.2

/-- What a walk through one directory yields. -/
theorem crawls_directory (sound : tree.root.Sound tree.clock) :
    (∃ l, IsListing tree s directory (fun _ => True) l ∧ (∀ names, ¬ Shut tree s directory names) ∧
      sourcesOf (s.stopsAt directory (.dir entries stamp)) = (joinedPaths directory l, none)) ∨
    ∃ names l, Shut tree s directory names ∧
      (∀ names', Shut tree s directory names' → ¬ names' < names) ∧
      IsListing tree s directory (· < names) l ∧
      sourcesOf (s.stopsAt directory (.dir entries stamp)) =
        (joinedPaths directory l, some ⟨.nameTooLong, names.foldl joinText directory⟩) := by
  obtain ⟨walk, isWalk, stops⟩ := Selection.exists_walk (s := s)
    (sound.below (FileTree.descend_of_node? found))
  rw [← stops]
  have passes (w : List String × Stop) (inside : w ∈ walk) :
      s.Passes directory (.dir entries stamp) w.1 w.2 := isWalk.mem_iff.1 inside
  cases first : walk.find? (·.2.isShut) with
  | none =>
    have openable (w : List String × Stop) (inside : w ∈ walk) : w.2.isShut = false := by
      simpa using List.find?_eq_none.1 first w inside
    refine .inl ⟨sourcesWithNames walk,
      isListing_of_isWalk found isWalk (.refl _) (by simp), fun names shut => ?_, ?_⟩
    · obtain ⟨stop, passed, long⟩ := (shut_iff found).1 shut
      have short := openable (names, stop) (isWalk.mem_iff.2 passed)
      rw [long] at short
      cases short
    · have all := Selection.sourcesOf_append [] passes openable
      rw [List.append_nil] at all
      rw [all]
      exact congrArg (·, none) (List.append_nil _)
  | some w =>
    obtain ⟨long, front, behind, rfl, openable⟩ := List.find?_eq_some_iff_append.1 first
    obtain ⟨names, stop⟩ := w
    obtain ⟨-, ascending, apart⟩ := List.pairwise_append.1 isWalk.ascending
    have below (w) (inside : w ∈ front) : w.1 < names := apart w inside _ List.mem_cons_self
    have above (w) (inside : w ∈ behind) : names < w.1 := (List.pairwise_cons.1 ascending).1 w inside
    have passed : s.Passes directory (.dir entries stamp) names stop := passes (names, stop) (by simp)
    refine .inr ⟨names, sourcesWithNames front, (shut_iff found).2 ⟨stop, passed, long⟩, ?_, ?_, ?_⟩
    · intro names' shut lower
      obtain ⟨stop', passed', long'⟩ := (shut_iff found).1 shut
      rcases List.mem_append.1 (isWalk.mem_iff.2 passed') with inside | inside
      · have short := openable _ inside
        rw [long'] at short
        cases short
      · rcases List.mem_cons.1 inside with same | inside
        · cases same
          exact List.lt_irrefl _ lower
        · exact List.lt_asymm lower (above _ inside)
    · refine isListing_of_isWalk found isWalk (List.sublist_append_left _ _) fun w inside => ?_
      refine ⟨below w, fun lower => ?_⟩
      rcases List.mem_append.1 inside with inside | inside
      · exact inside
      · rcases List.mem_cons.1 inside with rfl | inside
        · exact absurd lower (List.lt_irrefl _)
        · exact absurd (above w inside) (List.lt_asymm lower)
    · rw [List.map_append, Selection.sourcesOf_append _
        (fun w inside => passes w (List.mem_append_left _ inside)) (by simpa using openable)]
      cases passed with
      | directory =>
        have long : Path.isTooLong (names.foldl joinText directory) = true := long
        rw [List.map_cons, sourcesOf, if_pos long]
        exact congrArg (·, _) (List.append_nil _)
      | source => cases long

end Directory

/-- A crawl of directories that are there yields the chosen files of each of them in turn, each once
and in the lexicographic order of the names that lead to it, until it comes to a directory that
cannot be opened. -/
theorem crawls_crawl {directories : List String} (sound : tree.root.Sound tree.clock)
    (there : ∀ d ∈ directories, tree.isDirectory d = true) :
    Crawls tree s directories (crawl tree s directories).1 (crawl tree s directories).2 := by
  induction directories with
  | nil => exact .done
  | cons d rest ih =>
    obtain ⟨here, there⟩ := List.forall_mem_cons.1 there
    obtain ⟨entries, stamp, found⟩ : ∃ entries stamp, tree.node? d = .ok (.dir entries stamp) := by
      unfold FileTree.isDirectory at here
      split at here
      · next n found =>
        cases n with
        | file => cases here
        | dir entries stamp => exact ⟨entries, stamp, found⟩
      · cases here
    rcases crawls_directory (s := s) found sound with ⟨l, listing, openable, told⟩ |
        ⟨names, l, shut, first, listing, told⟩
    · simp only [crawl, found, told]
      exact .whole listing openable (ih there)
    · simp only [crawl, found, told]
      exact .cut shut first listing

private def shelves : FileTree :=
  (FileTree.changeAll {} [.write "src/b.js" (.text "b"), .write "src/a.js" (.text "a"),
    .write "src/a/z.html" (.text "z"), .write "src/lib/c.js" (.text "c"),
    .write "src/a.css" (.text "d")]).1

/-- A directory that is ignored below another one and then listed itself. -/
theorem crawls_crawl_shelves :
    let s : Selection := { ignored := some (.seq (.literal "lib") .finish) }
    shelves.root.Sound shelves.clock ∧ shelves.isDirectory "src" = true ∧
      shelves.isDirectory "src/lib" = true ∧
      Crawls shelves s ["src", "src/lib"] (crawl shelves s ["src", "src/lib"]).1
        (crawl shelves s ["src", "src/lib"]).2 := by
  intro s
  have sound : shelves.root.Sound shelves.clock := by
    rw [shelves]
    exact FileTree.sound_changeAll _
  have src : shelves.isDirectory "src" = true := by decide +kernel
  have lib : shelves.isDirectory "src/lib" = true := by decide +kernel
  refine ⟨sound, src, lib, crawls_crawl sound ?_⟩
  simp [src, lib]

section Dots

/-- The working directory, written with many dots. -/
private def dots : Nat → String
  | 0 => "."
  | n + 1 => "./" ++ dots n

private theorem utf8ByteSize_dots (n : Nat) : (dots n).utf8ByteSize = 2 * n + 1 := by
  induction n with
  | zero => rfl
  | succ n ih =>
    have two : "./".utf8ByteSize = 2 := rfl
    rw [dots, String.utf8ByteSize_append, ih, two]
    omega

private theorem fields_dots (n : Nat) : Text.fields '/' (dots n) = List.replicate (n + 1) "." := by
  induction n with
  | zero => decide
  | succ n ih =>
    have first : Text.fields '/' "." = ["."] := by decide
    have split : dots (n + 1) = "." ++ String.singleton '/' ++ dots n := rfl
    rw [split, Text.fields_append, first, ih]
    rfl

private theorem mem_dots {c : Char} {n : Nat} (h : c ∈ (dots n).toList) : c = '.' ∨ c = '/' := by
  induction n with
  | zero => exact .inl (by simpa [dots] using h)
  | succ n ih =>
    rw [dots, String.toList_append, List.mem_append] at h
    rcases h with h | h
    · simpa using h
    · exact ih h

private theorem textProblem?_dots {n : Nat} (short : n < 2048) :
    FileTree.textProblem? (dots n) = none := by
  have plain : (dots n).toList.contains '\x00' = false := by
    rw [List.contains_eq_mem, decide_eq_false_iff_not]
    intro h
    rcases mem_dots h with h | h
    · exact absurd h (by decide)
    · exact absurd h (by decide)
  have some : (dots n).isEmpty = false := by
    cases n with
    | zero => rfl
    | succ n => simp [dots]
  have fits : Path.isTooLong (dots n) = false := by
    rw [Path.isTooLong, utf8ByteSize_dots, decide_eq_false_iff_not]
    omega
  rw [FileTree.textProblem?, plain, some, fits]
  rfl

private theorem node?_dots {t : FileTree} {entries : List (String × Node)} {stamp n : Nat}
    (root : t.root = .dir entries stamp) (home : t.home = []) (short : n < 2048) :
    t.node? (dots n) = .ok (.dir entries stamp) := by
  have start : Path.startOf t.home (dots n) = [] := by
    rw [home, Path.startOf]
    split <;> rfl
  have resolved : t.resolve (dots n) = .ok [] := by
    rw [FileTree.resolve_eq (textProblem?_dots short), fields_dots, start]
    refine FileTree.foldlM_stepTo_blanks ?_ ⟨entries, stamp, by rw [root]; rfl⟩
    intro c inside
    exact .inr (List.eq_of_mem_replicate inside)
  rw [FileTree.node?_of_resolve resolved, root]
  rfl

private def parts : FileTree :=
  (FileTree.changeAll {} [.write "part/b.js" (.text "y")]).1

private theorem root_parts :
    parts.root = .dir [("part", .dir [("b.js", .file (.text "y") 2)] 2)] 1 := rfl

private theorem isTooLong_dots (n : Nat) (name : String) (long : 4096 ≤ 2 * n + name.utf8ByteSize) :
    Path.isTooLong (joinText (dots n) name) = true := by
  have size := utf8ByteSize_dots n
  rw [Path.isTooLong, decide_eq_true_iff, joinText]
  split
  · rw [String.utf8ByteSize_append]
    omega
  · rw [String.utf8ByteSize_append, String.utf8ByteSize_append]
    omega

/-- A crawl ends at once where the only entry of the directory is a directory with too long a
path. -/
private theorem crawl_of_isTooLong {t : FileTree} {name : String} {inner : List (String × Node)}
    {stamp stamp' : Nat} (clear : s.ignored = none)
    (found : t.node? directory = .ok (.dir [(name, .dir inner stamp)] stamp'))
    (short : Path.isTooLong directory = false)
    (long : Path.isTooLong (joinText directory name) = true) :
    crawl t s [directory] = ([], some ⟨.nameTooLong, joinText directory name⟩) := by
  have passed : s.ignores (joinText directory name) = false := by
    rw [Selection.ignores, clear]
  obtain ⟨behind, stops⟩ : ∃ behind, s.stopsAt directory (.dir [(name, .dir inner stamp)] stamp') =
      .directory directory :: .directory (joinText directory name) :: behind := by
    rw [Selection.stopsAt_dir, Text.sortedByName, List.mergeSort_singleton, List.flatMap_singleton,
      passed, if_neg Bool.false_ne_true, Selection.stopsAt_dir]
    exact ⟨_, rfl⟩
  simp only [crawl, found, stops, Selection.sourcesOf, short, long]
  rfl

private theorem chosen_dots {t : FileTree} {n stamp : Nat} {root : Node} (file : names ≠ [])
    (found : t.node? (dots (n + 1)) = .ok root)
    (there : root.descend names = .ok (.file content stamp)) :
    Chosen t { wanted := .char '/' } (dots (n + 1)) names content := by
  refine ⟨⟨stamp, file, root, found, there⟩, ?_, fun _ _ => rfl⟩
  obtain ⟨more, longer⟩ := Path.exists_foldl_joinText_eq (dots (n + 1)) names
  rw [longer, dots, String.append_assoc]
  exact Pattern.finds_append rfl (by decide) _

/-- The directory that is listed can be opened, but the one in it cannot: joined to so many dots its
name makes too long a path. The file in it is chosen, and the crawl yields nothing. -/
theorem crawl_parts :
    let s : Selection := { wanted := .char '/' }
    parts.root.Sound parts.clock ∧ parts.isDirectory (dots 2047) = true ∧
      Chosen parts s (dots 2047) ["part", "b.js"] (.text "y") ∧
      crawl parts s [dots 2047] = ([], some ⟨.nameTooLong, joinText (dots 2047) "part"⟩) := by
  intro s
  have sound : parts.root.Sound parts.clock := by
    rw [parts]
    exact FileTree.sound_changeAll _
  have found := node?_dots root_parts rfl (n := 2047) (by decide)
  refine ⟨sound, ?_, chosen_dots (List.cons_ne_nil _ _) found rfl, ?_⟩
  · rw [FileTree.isDirectory, found]
    rfl
  · refine crawl_of_isTooLong rfl found ?_ (isTooLong_dots _ _ (by decide))
    rw [Path.isTooLong, utf8ByteSize_dots]
    decide

end Dots

end UtilityCss.Project
