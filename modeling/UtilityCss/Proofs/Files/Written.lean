import UtilityCss.Proofs.Except
import UtilityCss.Proofs.Files.Output

/-! What is written to a path can be read there. -/
namespace UtilityCss

namespace Node

variable {now : Nat} {new n m : Node} {place : List String}

/-- A node put in the place of another one is found there. -/
theorem descend_put_over (there : n.descend place = .ok m) :
    (put now new place n).descend place = .ok new := by
  induction place generalizing n with
  | nil => rfl
  | cons name rest ih =>
    cases n with
    | file => cases there
    | dir entries stamp =>
      obtain ⟨short, child, lookup, below⟩ := descend_dir_cons there
      rw [put, lookup]
      dsimp only
      rw [descend_dir_of_lookup short lookup_putNamed_self]
      exact ih below

/-- A node put at a free place of a directory is found there. -/
theorem descend_put_free {last : String} {entries : List (String × Node)} {stamp : Nat}
    {problem : FileProblem} (short : last.utf8ByteSize ≤ 255)
    (dir : n.descend place = .ok (.dir entries stamp))
    (free : n.descend (place ++ [last]) = .error problem) :
    (put now new (place ++ [last]) n).descend (place ++ [last]) = .ok new := by
  induction place generalizing n with
  | nil =>
    cases dir
    rw [List.nil_append] at free ⊢
    rw [put]
    cases lookup : entries.lookup last with
    | some child =>
      rw [descend_dir_of_lookup short lookup] at free
      cases free
    | none =>
      dsimp only
      rw [if_pos List.isEmpty_nil, descend_dir_of_lookup short lookup_putNamed_self]
      rfl
  | cons name rest ih =>
    cases n with
    | file => cases dir
    | dir es s =>
      obtain ⟨shortName, child, lookup, below⟩ := descend_dir_cons dir
      rw [List.cons_append, descend_dir_of_lookup shortName lookup] at free
      rw [List.cons_append, put, lookup]
      dsimp only
      rw [descend_dir_of_lookup shortName lookup_putNamed_self]
      exact ih below free

end Node

namespace FileTree

open Path (placeIn startOf)

variable {t t' : FileTree} {s : String} {content : Content}

/-- A walk is repeated in a tree that has its directories and what stands at its end. -/
theorem foldlM_stepTo_spared (dirs : ∀ place, t.IsDirAt place → t'.IsDirAt place)
    {components start place : List String} {n : Node}
    (h : components.foldlM t.stepTo start = .ok place) (there : t'.root.descend place = .ok n) :
    components.foldlM t'.stepTo start = .ok place := by
  induction components generalizing start with
  | nil => exact h
  | cons c rest ih =>
    rw [List.foldlM_cons] at h
    cases first : t.stepTo start c with
    | error problem =>
      rw [first] at h
      cases h
    | ok next =>
      rw [first] at h
      have behind : rest.foldlM t.stepTo next = .ok place := h
      have found : ∃ m, t'.root.descend next = .ok m := by
        by_cases ended : rest = []
        · subst ended
          cases behind
          exact ⟨n, there⟩
        · obtain ⟨entries, stamp, dir⟩ := dirs _ ((foldlM_stepTo_eq_ok behind).2 ended).1
          exact ⟨_, dir⟩
      have again : t'.stepTo start c = .ok next := by
        have dir := (stepTo_eq_ok first).1
        rw [stepTo_dir dir] at first
        rw [stepTo_dir (dirs start dir)]
        split at first
        · next blank => rw [if_pos blank, ← first]
        · next solid =>
          rw [if_neg solid]
          split at first
          · next up => rw [if_pos up, ← first]
          · next notUp =>
            rw [if_neg notUp]
            cases child : t.root.descend (start ++ [c]) with
            | error problem =>
              rw [child] at first
              cases first
            | ok m =>
              rw [child] at first
              cases first
              obtain ⟨m', found⟩ := found
              rw [found]
              rfl
      rw [List.foldlM_cons, again]
      exact ih behind

/-- A file is put where its text leads to something, or at a free place. -/
theorem resolve_or_free_of_put (h : t.put s content = .ok t') :
    (∃ place, t.resolve s = .ok place) ∨ ∃ place, t.freePlace s = .ok place := by
  rw [put] at h
  split at h
  · cases h
  · next c stamp place found resolved => exact .inl ⟨place, resolved⟩
  · split at h
    · next place free => exact .inr ⟨place, free⟩
    · cases h

theorem resolve_eq (h : textProblem? s = none) :
    t.resolve s = (Text.fields '/' s).foldlM t.stepTo (startOf t.home s) := by
  rw [resolve, h]
  rfl

theorem node?_of_resolve {place : List String} (h : t.resolve s = .ok place) :
    t.node? s = t.root.descend place := by
  rw [node?, h]
  rfl

/-- What a text names is what it leads to. -/
theorem node?_eq_ok {n : Node} : t.node? s = .ok n ↔
    ∃ place, t.resolve s = .ok place ∧ t.root.descend place = .ok n := by
  constructor
  · intro h
    exact bind_eq_ok h
  · rintro ⟨place, resolved, there⟩
    rw [node?_of_resolve resolved, there]

/-- A text leads to the same place where no directory is missing and something stands there. -/
theorem resolve_spared (home : t'.home = t.home)
    (dirs : ∀ place, t.IsDirAt place → t'.IsDirAt place) {place : List String} {n : Node}
    (h : t.resolve s = .ok place) (there : t'.root.descend place = .ok n) :
    t'.resolve s = .ok place := by
  obtain ⟨sound, -, -⟩ := resolve_eq_ok h
  rw [resolve_eq sound] at h ⊢
  rw [home]
  exact foldlM_stepTo_spared dirs h there

/-- A text that names a directory names one where no directory is missing. -/
theorem exists_dir_of_node? (home : t'.home = t.home)
    (dirs : ∀ place, t.IsDirAt place → t'.IsDirAt place) {entries : List (String × Node)}
    {stamp : Nat} (h : t.node? s = .ok (.dir entries stamp)) :
    ∃ es st, t'.node? s = .ok (.dir es st) := by
  obtain ⟨place, resolved, below⟩ := node?_eq_ok.1 h
  obtain ⟨es, st, there⟩ := dirs place ⟨entries, stamp, below⟩
  exact ⟨es, st, node?_eq_ok.2 ⟨place, resolve_spared home dirs resolved there, there⟩⟩

private theorem descend_of_put (h : t.put s content = .ok t') :
    t'.root.descend (placeIn t.home s) = .ok (.file content (t.clock + 1)) := by
  obtain ⟨rfl, free | ⟨c, stamp, there⟩⟩ := put_eq_ok h
  · obtain ⟨parent, last, split, -, short, ⟨entries, stamp, dir⟩, missing, -⟩ :=
      freePlace_eq_ok free
    rw [split] at missing ⊢
    exact Node.descend_put_free short dir missing
  · exact Node.descend_put_over there

/-- The text that a file was put at leads to it afterwards, if it is a tidy one. -/
private theorem resolve_of_put {blanks : List String} (blank : ∀ c ∈ blanks, c = "" ∨ c = ".")
    (fields : Text.fields '/' s = blanks ++ Path.components s) (h : t.put s content = .ok t') :
    t'.resolve s = .ok (placeIn t.home s) := by
  have found := descend_of_put h
  have dirs := (spares_put_file h).dir
  have home : t'.home = t.home := by rw [(put_eq_ok h).1]
  rcases resolve_or_free_of_put h with ⟨place, resolved⟩ | ⟨place, free⟩
  · obtain ⟨sound, rfl, -⟩ := resolve_eq_ok resolved
    rw [resolve_eq sound] at resolved ⊢
    rw [home]
    exact foldlM_stepTo_spared dirs resolved found
  · obtain ⟨missing, front, last, parent, split, rfl, start, -, walk⟩ :=
      exists_walk_of_freePlace free
    obtain ⟨parent', last', same, proper, -, dir, -, named⟩ := freePlace_eq_ok free
    obtain ⟨rfl, rfl⟩ : parent = parent' ∧ last = last' := by simpa using same
    have sound := textProblem?_of_missing missing (by simp [split])
    obtain ⟨entries, stamp, there⟩ := dirs _ dir
    have lastStep : t'.stepTo parent last = .ok (parent ++ [last]) := by
      rw [stepTo_dir (dirs _ dir), if_neg (by simp [proper.ne_empty, proper.ne_dot]),
        if_neg proper.ne_up, named, found]
      rfl
    rw [resolve_eq sound, home, fields, split, List.foldlM_append,
      foldlM_stepTo_blanks blank (dirs _ start), ← named]
    change (front ++ [last]).foldlM t'.stepTo (startOf t.home s) = _
    rw [List.foldlM_append, foldlM_stepTo_spared dirs walk there]
    change [last].foldlM t'.stepTo parent = _
    rw [List.foldlM_cons, lastStep]
    rfl

theorem components_tidy (s : String) : Path.components (Path.tidy s) = Path.components s := by
  obtain ⟨blanks, blank, fields⟩ :=
    Path.fields_textOf (Path.anchorOf s.toList) (components_plain s)
  have none : blanks.filter isSolid = [] := by
    apply List.filter_eq_nil_iff.2
    intro c hc
    rcases blank c hc with rfl | rfl <;> decide
  have all : (Path.components s).filter isSolid = Path.components s :=
    List.filter_eq_self.2 fun c hc => (List.mem_filter.1 hc).2
  change (Text.fields '/' (Path.tidy s)).filter isSolid = _
  rw [Path.tidy, fields, List.filter_append, none, all, List.nil_append]

theorem read_eq_ok : t.read s = .ok content ↔
    ∃ stamp, t.node? (Path.tidy s) = .ok (.file content stamp) := by
  delta FileTree.read
  dsimp only
  cases t.node? (Path.tidy s) with
  | error problem => simp
  | ok node =>
    cases node with
    | dir => simp
    | file => simp

/-- What is written to a path is read there. -/
theorem read_of_write (h : t.write s content = .ok t') : t'.read s = .ok content := by
  obtain ⟨blanks, blank, fields⟩ :=
    Path.fields_textOf (Path.anchorOf s.toList) (components_plain s)
  have put : t.put (Path.tidy s) content = .ok t' := h
  have resolved : t'.resolve (Path.tidy s) = .ok (placeIn t.home (Path.tidy s)) := by
    apply resolve_of_put blank _ put
    rw [components_tidy]
    exact fields
  refine read_eq_ok.2 ⟨t.clock + 1, ?_⟩
  rw [node?_of_resolve resolved]
  exact descend_of_put put

/-- An output file holds what was written. -/
theorem read_of_writeOutput {written : FileTree} (h : t.writeOutput s content = (written, none)) :
    written.read s = .ok content := by
  rw [writeOutput] at h
  cases above : t.ensureDirectories (Path.anchorOf s.toList) (Path.components s).reverse.tail with
  | mk made fault =>
    rw [above] at h
    cases fault with
    | some fault => cases h
    | none =>
      dsimp only at h
      cases put : made.write s content with
      | error fault =>
        rw [put] at h
        cases h
      | ok final =>
        rw [put] at h
        cases h
        exact read_of_write put

/-- The front of a text has no fault of its own if the text has none. -/
private theorem textProblem?_of_append {front behind : String} (some : front ≠ "")
    (h : textProblem? (front ++ behind) = none) : textProblem? front = none := by
  simp only [textProblem?, String.toList_append, List.contains_eq_mem, List.mem_append,
    Path.isTooLong, String.utf8ByteSize_append, decide_eq_true_eq] at h ⊢
  split at h
  · cases h
  · next zero =>
    split at h
    · cases h
    · split at h
      · cases h
      · next short =>
        rw [if_neg fun inside => zero (.inl inside), if_neg (by simpa using some),
          if_neg (by omega)]

/-- The directory above a file that can be read. -/
theorem exists_dir_of_read {front : List String} {last : String}
    (split : Path.components s = front ++ [last]) (some : front ≠ [])
    (h : t.read s = .ok content) : ∃ entries stamp,
      t.node? (Path.textOf (Path.anchorOf s.toList) front) = .ok (.dir entries stamp) := by
  have plain := components_plain s
  obtain ⟨_, found⟩ := read_eq_ok.1 h
  obtain ⟨place, resolved, -⟩ := node?_eq_ok.1 found
  obtain ⟨start, -, walk⟩ := foldlM_stepTo_of_resolve_textOf plain resolved
  have sound := (resolve_eq_ok resolved).1
  rw [Path.tidy] at sound
  rw [split] at plain walk sound
  rw [List.foldlM_append] at walk
  obtain ⟨parent, above, final⟩ := bind_eq_ok walk
  obtain ⟨entries, stamp, there⟩ : t.IsDirAt parent :=
    ((foldlM_stepTo_eq_ok final).2 (List.cons_ne_nil _ _)).1
  have plain' (c : String) (hc : c ∈ front) := plain c (List.mem_append_left _ hc)
  obtain ⟨blanks, blank, fields⟩ := Path.fields_textOf (Path.anchorOf s.toList) plain'
  have sound' : textProblem? (Path.textOf (Path.anchorOf s.toList) front) = none := by
    obtain ⟨before, whole, behind⟩ :=
      Path.exists_textOf_concat (Path.anchorOf s.toList) front last
    rw [whole, behind some, String.append_assoc] at sound
    exact textProblem?_of_append (Path.textOf_ne_empty some plain') sound
  refine ⟨entries, stamp, node?_eq_ok.2 ⟨parent, ?_, there⟩⟩
  rw [resolve_eq sound', Path.startOf_textOf _ _ plain', ← Path.startOf_eq, fields,
    List.foldlM_append, foldlM_stepTo_blanks blank start]
  exact above

/-- Directories that are there need not be made. -/
theorem ensureDirectories_of_dir {anchor : Anchor} {last : String} {above : List String}
    (some : last ≠ "") (noSlash : '/' ∉ last.toList) {entries : List (String × Node)} {stamp : Nat}
    (there : t.node? (Path.textOf anchor (last :: above).reverse) = .ok (.dir entries stamp)) :
    t.ensureDirectories anchor (last :: above) = (t, none) := by
  have refused : t.makeDirectory (Path.textOf anchor (last :: above).reverse) =
      .error .alreadyExists := by
    obtain ⟨before, whole, -⟩ := Path.exists_textOf_concat anchor above.reverse last
    rw [← List.reverse_cons] at whole
    obtain ⟨place, resolved, -⟩ := node?_eq_ok.1 there
    rw [makeDirectory, whole, Path.withoutSlashes_append some noSlash, ← whole, freePlace, resolved]
    rfl
  have settled : t.settleDirectory (Path.textOf anchor (last :: above).reverse) = (t, none) := by
    rw [settleDirectory, refused, isDirectory, there]
    rfl
  unfold ensureDirectories
  dsimp only
  rw [refused]
  exact settled

/-- A file that can be read can be written over. -/
theorem exists_writeOutput_of_read (h : t.read s = .ok content) (new : Content) :
    ∃ written, t.writeOutput s new = (written, none) := by
  have above : t.ensureDirectories (Path.anchorOf s.toList) (Path.components s).reverse.tail =
      (t, none) := by
    rcases List.eq_nil_or_concat (Path.components s) with none | ⟨front, last, split⟩
    · rw [none]
      rfl
    · rw [List.concat_eq_append] at split
      rcases List.eq_nil_or_concat front with rfl | ⟨front, above, rfl⟩
      · rw [split]
        rfl
      · rw [List.concat_eq_append] at split
        have plain := components_plain s above (by simp [split])
        obtain ⟨entries, stamp, there⟩ := exists_dir_of_read split (by simp) h
        have upward : (Path.components s).reverse.tail = above :: front.reverse := by
          simp [split]
        have back : (above :: front.reverse).reverse = front ++ [above] := by simp
        rw [upward]
        exact ensureDirectories_of_dir plain.1 plain.2 (back ▸ there)
  obtain ⟨stamp, found⟩ := read_eq_ok.1 h
  obtain ⟨place, resolved, -⟩ := node?_eq_ok.1 found
  refine ⟨t.putNow place (.file new), ?_⟩
  rw [writeOutput, above]
  simp only [write, put, found, resolved]

/-- A file that is spared is still read at its path. -/
theorem Spares.read {out : List String} (h : Spares out t t') (home : t'.home = t.home)
    (other : placeIn t.home s ≠ out) (there : t.read s = .ok content) :
    t'.read s = .ok content := by
  obtain ⟨stamp, found⟩ := read_eq_ok.1 there
  obtain ⟨place, resolved, below⟩ := node?_eq_ok.1 found
  obtain ⟨-, same, -⟩ := resolve_eq_ok resolved
  rw [placeIn_tidy] at same
  subst same
  have below' := (h.file_iff _ other content stamp).2 below
  exact read_eq_ok.2
    ⟨stamp, node?_eq_ok.2 ⟨_, resolve_spared home h.dir resolved below', below'⟩⟩

theorem spares_makeDirectories {out : List String} (paths : List (String × String)) :
    Spares out t (t.makeDirectories paths).1 := by
  induction paths with
  | nil => exact .refl
  | cons first above ih =>
    obtain ⟨path, last⟩ := first
    cases above with
    | nil => exact spares_settleDirectory path
    | cons next rest =>
      rw [makeDirectories]
      split
      · exact spares_settleDirectory path
      · dsimp only
        split
        · split
          · exact ih
          · exact ih.trans (spares_settleDirectory path)
        · exact ih

/-- Writing one file from outside leaves what is read at the paths of others. -/
theorem read_of_change_write (h : t.Sound) {path : String} {new : Content}
    (wrote : t.change (.write path new) = (t', none))
    (other : placeIn t.home s ≠ placeIn t.home path) (there : t.read s = .ok content) :
    t'.read s = .ok content := by
  have home : t'.home = t.home := by
    have later := later_change h (.write path new)
    rw [wrote] at later
    exact later.home
  have above : ∀ out, Spares out t (if (Path.directoryText path).isEmpty then (t, none)
      else t.makeDirectories (Path.ancestors (Path.directoryText path))).1 := by
    intro out
    split
    · exact .refl
    · exact spares_makeDirectories _
  have homeAbove : (if (Path.directoryText path).isEmpty then (t, none)
      else t.makeDirectories (Path.ancestors (Path.directoryText path))).1.home = t.home := by
    split
    · rfl
    · exact (later_makeDirectories h _).home
  simp only [change] at wrote
  generalize (if (Path.directoryText path).isEmpty then (t, none)
      else t.makeDirectories (Path.ancestors (Path.directoryText path))) = result
    at above homeAbove wrote
  obtain ⟨made, fault⟩ := result
  cases fault with
  | some fault => cases wrote
  | none =>
    cases put : made.put path new with
    | error fault =>
      simp only [put, orFault] at wrote
      cases wrote
    | ok final =>
      simp only [put, orFault] at wrote
      cases wrote
      have file := spares_put_file put
      have homeMade : made.home = t.home := homeAbove
      rw [homeMade] at file
      exact ((above _).trans file).read home other there

end FileTree

end UtilityCss
