import UtilityCss.Project.Build
import UtilityCss.Proofs.Files.Change
import UtilityCss.Proofs.Pattern.Extension
import UtilityCss.Proofs.Project.Watcher

/-! Which files a crawl finds, and which of the files that a watcher reports are taken for sources.
A crawl does not look into a directory that is ignored. A watcher reports the files in it all the
same, and such a file is taken for a source unless its own path is ignored too. -/
namespace UtilityCss.Project

open Path (joinText waypoints)

namespace Selection

variable {s : Selection} {path : String} {content : Content}

theorem exists_mem_stopsIn {directory : String} {entries : List (String × Node)} {stop : Stop} :
    (∃ e ∈ s.stopsIn directory entries, stop ∈ e.2) ↔ ∃ e ∈ entries,
      s.ignores (joinText directory e.1) = false ∧
        stop ∈ s.stopsAt (joinText directory e.1) e.2 := by
  induction entries with
  | nil => simp [stopsIn]
  | cons e rest ih =>
    rw [stopsIn]
    simp only [List.mem_cons, exists_eq_or_imp, ih]
    refine or_congr_left ?_
    cases s.ignores (joinText directory e.1) <;> simp

/-- The sources of a walk are the wanted files on the way to which nothing is ignored. -/
theorem mem_stopsAt {now : Nat} {n : Node} {base : String} (sound : n.Sound now) :
    Stop.source path content ∈ s.stopsAt base n ↔ ∃ names stamp,
      n.descend names = .ok (.file content stamp) ∧ path = names.foldl joinText base ∧
        s.wanted.finds path = true ∧ ∀ passed ∈ waypoints base names, s.ignores passed = false := by
  match n with
  | .file held st =>
    rw [stopsAt]
    constructor
    · intro found
      split at found
      · next wanted =>
        cases List.mem_singleton.1 found
        exact ⟨[], st, rfl, rfl, wanted, fun _ none => absurd none List.not_mem_nil⟩
      · cases found
    · rintro ⟨names, stamp, there, same, wanted, -⟩
      cases names with
      | nil =>
        cases there
        obtain rfl : path = base := same
        rw [if_pos wanted]
        exact List.mem_singleton_self _
      | cons name rest => cases there
  | .dir entries st =>
    have inner (e : String × Node) (inside : e ∈ entries) :=
      @mem_stopsAt now e.2 (joinText base e.1)
        (sound.child (lookup_of_mem (sound.nodup [] rfl) inside))
    -- In which order the entries are met makes no difference to what is met.
    have sorted : Stop.source path content ∈ s.stopsAt base (.dir entries st) ↔
        ∃ e ∈ s.stopsIn base entries, Stop.source path content ∈ e.2 := by
      simp [stopsAt, Text.sortedByName]
    rw [sorted, exists_mem_stopsIn]
    constructor
    · rintro ⟨⟨name, child⟩, inside, open_, found⟩
      obtain ⟨names, stamp, there, rfl, wanted, unpruned⟩ := (inner _ inside).1 found
      exact ⟨name :: names, stamp, sound.descend_cons_iff.2 ⟨child, inside, there⟩, rfl, wanted,
        List.forall_mem_cons.2 ⟨open_, unpruned⟩⟩
    · rintro ⟨names, stamp, there, rfl, wanted, unpruned⟩
      cases names with
      | nil => cases there
      | cons name rest =>
        obtain ⟨child, inside, there⟩ := sound.descend_cons_iff.1 there
        obtain ⟨open_, unpruned⟩ := List.forall_mem_cons.1 unpruned
        exact ⟨_, inside, open_, (inner _ inside).2 ⟨rest, stamp, there, rfl, wanted, unpruned⟩⟩
termination_by sizeOf n
decreasing_by exact Node.sizeOf_lt_of_mem inside st

theorem mem_of_mem_sourcesOf {stops : List Stop} (h : (path, content) ∈ (sourcesOf stops).1) :
    Stop.source path content ∈ stops := by
  induction stops with
  | nil => cases h
  | cons stop rest ih =>
    cases stop with
    | directory d =>
      rw [sourcesOf] at h
      split at h
      · cases h
      · exact List.mem_cons_of_mem _ (ih h)
    | source p c =>
      rcases List.mem_cons.1 h with same | later
      · cases same
        exact List.mem_cons_self
      · exact List.mem_cons_of_mem _ (ih later)

theorem mem_sourcesOf {stops : List Stop} (complete : (sourcesOf stops).2 = none) :
    (path, content) ∈ (sourcesOf stops).1 ↔ Stop.source path content ∈ stops := by
  refine ⟨mem_of_mem_sourcesOf, fun h => ?_⟩
  induction stops with
  | nil => cases h
  | cons stop rest ih =>
    cases stop with
    | directory d =>
      rw [sourcesOf] at complete ⊢
      split at complete
      · cases complete
      · next short =>
        rw [if_neg short]
        exact ih complete ((List.mem_cons.1 h).resolve_left Stop.noConfusion)
    | source p c =>
      rcases List.mem_cons.1 h with same | later
      · cases same
        exact List.mem_cons_self
      · exact List.mem_cons_of_mem _ (ih complete later)

end Selection

variable {tree : FileTree} {s : Selection} {directories : List String} {path : String}
  {content : Content}

/-- A path stands for a source that is met in one of the directories. -/
def Meets (tree : FileTree) (s : Selection) (directories : List String) (path : String)
    (content : Content) : Prop :=
  ∃ d ∈ directories, ∃ entries stamp, tree.node? d = .ok (.dir entries stamp) ∧
    .source path content ∈ s.stopsAt d (.dir entries stamp)

theorem Meets.cons {d : String} (h : Meets tree s directories path content) :
    Meets tree s (d :: directories) path content :=
  h.imp fun _ found => ⟨List.mem_cons_of_mem _ found.1, found.2⟩

/-- What a crawl finds is met in one of the directories. -/
theorem meets_of_mem_crawl (h : (path, content) ∈ (crawl tree s directories).1) :
    Meets tree s directories path content := by
  induction directories with
  | nil => cases h
  | cons d rest ih =>
    cases found : tree.node? d with
    | error problem => simp [crawl, found] at h
    | ok n =>
      cases n with
      | file => simp [crawl, found] at h
      | dir entries stamp =>
        have here (own : (path, content) ∈ (Selection.sourcesOf
            (s.stopsAt d (.dir entries stamp))).1) : Meets tree s (d :: rest) path content :=
          ⟨d, List.mem_cons_self, entries, stamp, found, Selection.mem_of_mem_sourcesOf own⟩
        cases told : Selection.sourcesOf (s.stopsAt d (.dir entries stamp)) with
        | mk sources fault =>
          rw [told] at here
          cases fault with
          | some fault =>
            simp only [crawl, found, told] at h
            exact here h
          | none =>
            simp only [crawl, found, told, List.mem_append] at h
            exact h.elim here fun later => (ih later).cons

/-- A crawl that comes to its end finds everything that is met. -/
theorem mem_crawl (complete : (crawl tree s directories).2 = none) :
    (path, content) ∈ (crawl tree s directories).1 ↔ Meets tree s directories path content := by
  refine ⟨meets_of_mem_crawl, fun met => ?_⟩
  induction directories with
  | nil =>
    obtain ⟨_, none, -⟩ := met
    cases none
  | cons d rest ih =>
    cases found : tree.node? d with
    | error problem => simp [crawl, found] at complete
    | ok n =>
      cases n with
      | file => simp [crawl, found] at complete
      | dir entries stamp =>
        cases told : Selection.sourcesOf (s.stopsAt d (.dir entries stamp)) with
        | mk sources fault =>
          cases fault with
          | some fault => simp [crawl, found, told] at complete
          | none =>
            simp only [crawl, found, told, List.mem_append] at complete ⊢
            obtain ⟨e, he, entries', stamp', there, stop⟩ := met
            rcases List.mem_cons.1 he with rfl | later
            · cases found.symm.trans there
              have own := (Selection.mem_sourcesOf (congrArg Prod.snd told)).2 stop
              rw [told] at own
              exact .inl own
            · exact .inr (ih complete ⟨e, later, entries', stamp', there, stop⟩)

/-- A path is that of a file below a directory, and no directory on the way to it is ignored. -/
def Reaches (tree : FileTree) (s : Selection) (directory path : String) (content : Content) :
    Prop :=
  ∃ names stamp, tree.HasFile directory names content stamp ∧
    path = names.foldl joinText directory ∧
    ∀ passed ∈ (waypoints directory names).dropLast, s.ignores passed = false

/-- The sources that are met are the selected files that are reached. -/
theorem meets_iff (sound : tree.root.Sound tree.clock) : Meets tree s directories path content ↔
    s.selects path = true ∧ ∃ d ∈ directories, Reaches tree s d path content := by
  have split {d : String} {names : List String} (some : names ≠ []) :
      (∀ passed ∈ waypoints d names, s.ignores passed = false) ↔
        (∀ passed ∈ (waypoints d names).dropLast, s.ignores passed = false) ∧
          s.ignores (names.foldl joinText d) = false := by
    rw [← List.dropLast_append_getLast? _ (Path.getLast?_waypoints d some), List.dropLast_concat,
      List.forall_mem_append, List.forall_mem_singleton]
  have selected : s.selects path = true ↔ s.ignores path = false ∧ s.wanted.finds path = true := by
    simp [Selection.selects]
  rw [selected]
  constructor
  · rintro ⟨d, hd, entries, st, found, stop⟩
    obtain ⟨names, stamp, there, rfl, wanted, unpruned⟩ :=
      (Selection.mem_stopsAt (sound.below (FileTree.descend_of_node? found))).1 stop
    have some : names ≠ [] := by
      rintro rfl
      cases there
    obtain ⟨above, own⟩ := (split some).1 unpruned
    exact ⟨⟨own, wanted⟩, d, hd, names, stamp, ⟨some, _, found, there⟩, rfl, above⟩
  · rintro ⟨⟨own, wanted⟩, d, hd, names, stamp, file, rfl, above⟩
    obtain ⟨n, found, there⟩ := file.found
    cases n with
    | file =>
      obtain ⟨name, rest, rfl⟩ := List.exists_cons_of_ne_nil file.some
      cases there
    | dir entries st =>
      exact ⟨d, hd, entries, st, found,
        (Selection.mem_stopsAt (sound.below (FileTree.descend_of_node? found))).2
          ⟨names, stamp, there, rfl, wanted, (split file.some).2 ⟨above, own⟩⟩⟩

/-- A pattern that never asks for the end of a path ignores all that stands in an ignored
directory. -/
theorem ignores_of_mem_waypoints (free : ∀ r ∈ s.ignored, r.asksForFinish = false)
    {directory passed : String} {names : List String} (h : passed ∈ waypoints directory names)
    (ignored : s.ignores passed = true) : s.ignores (names.foldl joinText directory) = true := by
  obtain ⟨more, longer⟩ := Path.exists_eq_append_of_mem_waypoints h
  rw [longer]
  unfold Selection.ignores at ignored ⊢
  split at ignored
  · next r pattern => exact Pattern.finds_append (free r pattern) ignored more
  · cases ignored

/-- Which of the files that a watcher reports a crawl of the same directories finds. It finds
sources only. If it comes to its end, then it finds those that stand in no ignored directory, and
these are all the sources if the pattern of what is ignored never asks for the end of a path. -/
theorem crawl_iff_isSource {b : Build} (sound : tree.Sound) {snapshot : Snapshot}
    (scanned : Watcher.scan tree { directories := b.options.directories } = .ok snapshot)
    (reported : path ∈ snapshot) :
    let s := b.options.selection
    let crawled := crawl tree s b.options.directories
    ((∃ content, (path, content) ∈ crawled.1) → b.isSource path = true) ∧
    (crawled.2 = none →
      ((∃ content, (path, content) ∈ crawled.1) ↔ b.isSource path = true ∧
        ∃ d ∈ b.options.directories, ∃ content, Reaches tree s d path content) ∧
      ((∀ r ∈ s.ignored, r.asksForFinish = false) →
        ((∃ content, (path, content) ∈ crawled.1) ↔ b.isSource path = true))) := by
  intro s crawled
  have only {content : Content} (h : (path, content) ∈ (crawl tree s b.options.directories).1) :=
    (meets_iff sound).1 (meets_of_mem_crawl h)
  have all (complete : (crawl tree s b.options.directories).2 = none) :
      (∃ content, (path, content) ∈ (crawl tree s b.options.directories).1) ↔
        b.isSource path = true ∧
          ∃ d ∈ b.options.directories, ∃ content, Reaches tree s d path content := by
    constructor
    · rintro ⟨content, h⟩
      obtain ⟨selected, d, hd, reached⟩ := only h
      exact ⟨selected, d, hd, content, reached⟩
    · rintro ⟨selected, d, hd, content, reached⟩
      exact ⟨content, (mem_crawl complete).2 ((meets_iff sound).2 ⟨selected, d, hd, reached⟩)⟩
  refine ⟨fun ⟨_, h⟩ => (only h).1, fun complete => ⟨all complete, fun free => ?_⟩⟩
  rw [all complete]
  refine ⟨And.left, fun selected => ⟨selected, ?_⟩⟩
  obtain ⟨stamp, noted⟩ := Option.isSome_iff_exists.1
    (Std.TreeMap.mem_iff_isSome_getElem?.1 reported)
  obtain ⟨d, hd, names, content, file, rfl, -⟩ :=
    (Watcher.scan_of_not_listed sound scanned List.not_mem_nil).1 noted
  refine ⟨d, hd, content, names, stamp, file, rfl, fun passed inside => ?_⟩
  cases ignored : s.ignores passed with
  | false => rfl
  | true =>
    have own := ignores_of_mem_waypoints free (List.dropLast_subset _ inside) ignored
    exact absurd selected (by simp [Build.isSource, Selection.selects, s, own])

private def library : FileTree :=
  (FileTree.changeAll {} [.write "src/lib/a.js" (.text "p-1")]).1

/-- A build of the library that leaves some paths out. -/
private def buildWithout (ignored : Pattern) : Build where
  options := { cssFile := "index.css", directories := ["src"], selection := { ignored } }
  theme := {}
  table := .empty
  sheet := ⟨.ofText "index.css", "", "", []⟩
  layer := { breakpoints := [] }

private theorem sound_library : library.Sound := by
  rw [library]
  exact FileTree.sound_changeAll _

private theorem scan_library : ∃ snapshot,
    Watcher.scan library { directories := ["src"] } = .ok snapshot ∧
      "src/lib/a.js" ∈ snapshot :=
  exists_ok_of_any (by decide +kernel)

/-- A path that is not left out is found by the crawl. -/
theorem crawl_iff_isSource_library :
    library.Sound ∧ ∃ snapshot, Watcher.scan library { directories := ["src"] } = .ok snapshot ∧
      "src/lib/a.js" ∈ snapshot ∧
      (buildWithout (.literal "tmp")).isSource "src/lib/a.js" = true ∧
      ∃ content, ("src/lib/a.js", content) ∈
        (crawl library (buildWithout (.literal "tmp")).options.selection ["src"]).1 := by
  obtain ⟨snapshot, scanned, reported⟩ := scan_library
  have complete : (crawl library (buildWithout (.literal "tmp")).options.selection
      ["src"]).2 = none := by decide +kernel
  have selected : (buildWithout (.literal "tmp")).isSource "src/lib/a.js" = true := by
    decide +kernel
  refine ⟨sound_library, snapshot, scanned, reported, selected, ?_⟩
  refine (((crawl_iff_isSource (b := buildWithout (.literal "tmp")) sound_library scanned
    reported).2 complete).2 ?_).2 selected
  rintro r ⟨⟩
  decide

/-- If only the path of the directory itself is left out, then the crawl does not look into it, but
a file in it is taken for a source as soon as the watcher reports it. -/
theorem not_crawled_library :
    library.Sound ∧ ∃ snapshot, Watcher.scan library { directories := ["src"] } = .ok snapshot ∧
      "src/lib/a.js" ∈ snapshot ∧
      (crawl library (buildWithout (.seq (.literal "lib") .finish)).options.selection
        ["src"]).2 = none ∧
      (¬ ∃ content, ("src/lib/a.js", content) ∈
        (crawl library (buildWithout (.seq (.literal "lib") .finish)).options.selection
          ["src"]).1) ∧
      (buildWithout (.seq (.literal "lib") .finish)).isSource "src/lib/a.js" = true := by
  obtain ⟨snapshot, scanned, reported⟩ := scan_library
  refine ⟨sound_library, snapshot, scanned, reported, by decide +kernel, ?_, by decide +kernel⟩
  have nothing : (crawl library (buildWithout (.seq (.literal "lib") .finish)).options.selection
      ["src"]).1.isEmpty = true := by decide +kernel
  rintro ⟨content, found⟩
  rw [List.isEmpty_iff.1 nothing] at found
  cases found

end UtilityCss.Project
