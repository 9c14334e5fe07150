import UtilityCss.Proofs.Files.Change

/-! Writing a file with the directories above it leaves every other file alone. -/
namespace UtilityCss

namespace Node

variable {now : Nat} {new n : Node} {place other : List String}

theorem descend_dir_of_lookup_none {entries : List (String × Node)} {stamp : Nat} {name : String}
    (h : entries.lookup name = none) (rest : List String) (m : Node) :
    (Node.dir entries stamp).descend (name :: rest) ≠ .ok m := by
  intro there
  obtain ⟨-, child, some, -⟩ := descend_dir_cons there
  rw [h] at some
  cases some

/-- A node put at one place leaves the files elsewhere, and nothing becomes a file there. -/
theorem descend_put_file_iff (h : ¬ place <+: other) {content : Content} {stamp : Nat} :
    (put now new place n).descend other = .ok (.file content stamp) ↔
      n.descend other = .ok (.file content stamp) := by
  induction place generalizing n other with
  | nil => exact absurd List.nil_prefix h
  | cons name rest ih =>
    cases n with
    | file => rfl
    | dir entries s =>
      cases other with
      | nil =>
        rw [put]
        cases entries.lookup name with
        | some child => simp [descend]
        | none =>
          dsimp only
          split <;> simp [descend]
      | cons first more =>
        rw [put]
        by_cases same : first = name
        · subst same
          have deeper : ¬ rest <+: more := fun hp => h (List.cons_prefix_cons.2 ⟨rfl, hp⟩)
          cases found : entries.lookup first with
          | some child =>
            simp only [descend, lookup_putNamed_self, found]
            split
            · rfl
            · exact ih deeper
          | none =>
            dsimp only
            rw [if_neg]
            intro empty
            rw [List.isEmpty_iff.1 empty] at deeper
            exact deeper List.nil_prefix
        · cases found : entries.lookup name with
          | some child => simp only [descend, lookup_putNamed_of_ne same]
          | none =>
            dsimp only
            split
            · simp only [descend, lookup_putNamed_of_ne same]
            · rfl

/-- A node put at one place leaves the directories elsewhere. -/
theorem exists_dir_put (h : ¬ place <+: other) {entries : List (String × Node)} {stamp : Nat}
    (there : n.descend other = .ok (.dir entries stamp)) :
    ∃ es s, (put now new place n).descend other = .ok (.dir es s) := by
  induction place generalizing n other with
  | nil => exact absurd List.nil_prefix h
  | cons name rest ih =>
    cases n with
    | file => exact ⟨entries, stamp, there⟩
    | dir es s =>
      rw [put]
      cases other with
      | nil =>
        cases es.lookup name with
        | some child => exact ⟨_, _, rfl⟩
        | none =>
          dsimp only
          split <;> exact ⟨_, _, rfl⟩
      | cons first more =>
        obtain ⟨short, child, lookup, below⟩ := descend_dir_cons there
        by_cases same : first = name
        · subst same
          have deeper : ¬ rest <+: more := fun hp => h (List.cons_prefix_cons.2 ⟨rfl, hp⟩)
          rw [lookup]
          dsimp only
          obtain ⟨es', s', found⟩ := ih deeper below
          exact ⟨es', s', by rw [descend_dir_of_lookup short lookup_putNamed_self]; exact found⟩
        · have kept (value : Node) : (putNamed name value es).lookup first = some child := by
            rw [lookup_putNamed_of_ne same, lookup]
          cases found : es.lookup name with
          | some old =>
            exact ⟨entries, stamp, by rw [descend_dir_of_lookup short (kept _)]; exact below⟩
          | none =>
            dsimp only
            split
            · exact ⟨entries, stamp, by rw [descend_dir_of_lookup short (kept _)]; exact below⟩
            · exact ⟨entries, stamp, there⟩

/-- Where there is a directory once a file was put somewhere, there was one before. -/
theorem exists_dir_of_put_file {content : Content} {s stamp : Nat}
    {entries : List (String × Node)}
    (there : (put now (.file content s) place n).descend other = .ok (.dir entries stamp)) :
    ∃ es st, n.descend other = .ok (.dir es st) := by
  induction place generalizing n other with
  | nil => cases other <;> cases there
  | cons name rest ih =>
    cases n with
    | file => exact ⟨_, _, there⟩
    | dir es st =>
      cases other with
      | nil => exact ⟨es, st, rfl⟩
      | cons first more =>
        have aside {value : Node} (differs : first ≠ name) {stamp' : Nat}
            (h : (Node.dir (putNamed name value es) stamp').descend (first :: more) =
              .ok (.dir entries stamp)) :
            (Node.dir es st).descend (first :: more) = .ok (.dir entries stamp) := by
          obtain ⟨short, child, lookup, below⟩ := descend_dir_cons h
          rw [lookup_putNamed_of_ne differs] at lookup
          rw [descend_dir_of_lookup short lookup]
          exact below
        rw [put] at there
        cases found : es.lookup name with
        | some child =>
          rw [found] at there
          by_cases same : first = name
          · subst same
            obtain ⟨short, inner, lookup, below⟩ := descend_dir_cons there
            rw [lookup_putNamed_self] at lookup
            cases lookup
            rw [descend_dir_of_lookup short found]
            exact ih below
          · exact ⟨_, _, aside same there⟩
        | none =>
          rw [found] at there
          dsimp only at there
          split at there
          · by_cases same : first = name
            · subst same
              obtain ⟨-, inner, lookup, below⟩ := descend_dir_cons there
              rw [lookup_putNamed_self] at lookup
              cases lookup
              cases more <;> cases below
            · exact ⟨_, _, aside same there⟩
          · exact ⟨_, _, there⟩

/-- Below the place there is what the new node holds, or what was there. -/
theorem descend_put_below {more : List String} {m : Node}
    (h : (put now new place n).descend (place ++ more) = .ok m) :
    new.descend more = .ok m ∨ n.descend (place ++ more) = .ok m := by
  induction place generalizing n with
  | nil => exact .inl h
  | cons name rest ih =>
    cases n with
    | file => exact .inr h
    | dir entries s =>
      rw [put] at h
      cases found : entries.lookup name with
      | some child =>
        rw [found] at h
        obtain ⟨short, inner, lookup, below⟩ := descend_dir_cons h
        rw [lookup_putNamed_self] at lookup
        cases lookup
        refine (ih below).imp_right fun old => ?_
        rw [List.cons_append, descend_dir_of_lookup short found]
        exact old
      | none =>
        rw [found] at h
        dsimp only at h
        split at h
        · next empty =>
          obtain rfl := List.isEmpty_iff.1 empty
          obtain ⟨short, inner, lookup, below⟩ := descend_dir_cons h
          rw [lookup_putNamed_self] at lookup
          cases lookup
          exact .inl below
        · exact absurd h (descend_dir_of_lookup_none found _ m)

end Node

namespace FileTree

open Path (placeIn)

variable {t t' t'' : FileTree} {out : List String}

/-- The second tree has the same files but for the one at the place `out`, and no fewer
directories. -/
structure Spares (out : List String) (t t' : FileTree) : Prop where
  file_iff : ∀ place, place ≠ out → ∀ content stamp,
    t'.root.descend place = .ok (.file content stamp) ↔
      t.root.descend place = .ok (.file content stamp)
  dir : ∀ place, t.IsDirAt place → t'.IsDirAt place

theorem Spares.refl : Spares out t t := ⟨fun _ _ _ _ => Iff.rfl, fun _ => id⟩

theorem Spares.trans (h : Spares out t t') (h' : Spares out t' t'') : Spares out t t'' :=
  ⟨fun place other c s => (h'.file_iff place other c s).trans (h.file_iff place other c s),
    fun place there => h'.dir place (h.dir place there)⟩

private theorem spares_put {place : List String} {new : Node} {now : Nat}
    (noDir : ¬ t.IsDirAt place)
    (none : ∀ more content stamp, place ++ more ≠ out →
      new.descend more ≠ .ok (.file content stamp) ∧
        t.root.descend (place ++ more) ≠ .ok (.file content stamp)) (clock : Nat) :
    Spares out t { t with root := Node.put now new place t.root, clock } := by
  refine ⟨fun other differs content stamp => ?_, fun other there => ?_⟩
  · by_cases below : place <+: other
    · obtain ⟨more, rfl⟩ := below
      constructor
      · intro found
        rcases Node.descend_put_below found with new | old
        · exact absurd new (none more content stamp differs).1
        · exact old
      · intro found
        exact absurd found (none more content stamp differs).2
    · exact Node.descend_put_file_iff below
  · obtain ⟨entries, stamp, found⟩ := there
    by_cases below : place <+: other
    · obtain ⟨more, rfl⟩ := below
      refine absurd ?_ noDir
      cases more with
      | nil =>
        rw [List.append_nil] at found
        exact ⟨entries, stamp, found⟩
      | cons name rest => exact Node.dir_of_descend_append found (List.cons_ne_nil _ _)
    · exact Node.exists_dir_put below found

private theorem not_dir_of_missing {place : List String} {problem : FileProblem}
    (h : t.root.descend place = .error problem) : ¬ t.IsDirAt place := by
  rintro ⟨entries, stamp, found⟩
  rw [h] at found
  cases found

private theorem not_found_below {place more : List String} {problem : FileProblem} {m : Node}
    (h : t.root.descend place = .error problem) : t.root.descend (place ++ more) ≠ .ok m := by
  intro found
  rw [Node.descend_append, h] at found
  cases found

theorem spares_makeDirectory {s : String} (h : t.makeDirectory s = .ok t') : Spares out t t' := by
  obtain ⟨text, place, free, rfl⟩ := makeDirectory_eq_ok h
  obtain ⟨-, -, -, -, -, -, missing, -⟩ := freePlace_eq_ok free
  refine spares_put (not_dir_of_missing missing) (fun more content stamp _ =>
    ⟨fun found => ?_, not_found_below missing⟩) _
  cases more with
  | nil => cases found
  | cons name rest => exact Node.descend_dir_of_lookup_none rfl rest _ found

/-- A file that is put somewhere spares all others. -/
theorem spares_put_file {s : String} {content : Content} (h : t.put s content = .ok t') :
    Spares (placeIn t.home s) t t' := by
  obtain ⟨rfl, there⟩ := put_eq_ok h
  have below (more : List String) (m : Node) (deeper : more ≠ []) :
      t.root.descend (placeIn t.home s ++ more) ≠ .ok m := by
    rcases there with free | ⟨c, stamp, found⟩
    · obtain ⟨-, -, -, -, -, -, missing, -⟩ := freePlace_eq_ok free
      exact not_found_below missing
    · intro found'
      obtain ⟨entries, s', dir⟩ := Node.dir_of_descend_append found' deeper
      rw [found] at dir
      cases dir
  refine spares_put ?_ (fun more c stamp differs => ?_) _
  · rcases there with free | ⟨c, stamp, found⟩
    · obtain ⟨-, -, -, -, -, -, missing, -⟩ := freePlace_eq_ok free
      exact not_dir_of_missing missing
    · rintro ⟨entries, s', dir⟩
      rw [found] at dir
      cases dir
  · have deeper : more ≠ [] := by
      rintro rfl
      exact differs (List.append_nil _)
    refine ⟨fun found => ?_, below more _ deeper⟩
    obtain ⟨name, rest, rfl⟩ := List.exists_cons_of_ne_nil deeper
    cases found

/-- Two trees that are the same but for a file that may stand at the place `out` in either. -/
structure SameBut (out : List String) (t t' : FileTree) : Prop where
  home : t'.home = t.home
  spares : Spares out t t'
  dir : ∀ place, t'.IsDirAt place → t.IsDirAt place

theorem SameBut.symm (h : SameBut out t t') : SameBut out t' t :=
  ⟨h.home.symm, ⟨fun place other c s => (h.spares.file_iff place other c s).symm, h.dir⟩,
    h.spares.dir⟩

/-- A file that is put somewhere makes no other difference. -/
theorem sameBut_of_put {s : String} {content : Content} (h : t.put s content = .ok t') :
    SameBut (placeIn t.home s) t t' := by
  have spares := spares_put_file h
  obtain ⟨rfl, -⟩ := put_eq_ok h
  refine ⟨rfl, spares, fun place dir => ?_⟩
  obtain ⟨entries, stamp, there⟩ := dir
  exact Node.exists_dir_of_put_file there

theorem spares_settleDirectory (s : String) : Spares out t (t.settleDirectory s).1 := by
  rw [settleDirectory]
  split
  · next made => exact spares_makeDirectory made
  · split <;> exact .refl

/-- The directories of a path are settled from above, unless those above fail. -/
private theorem ensureDirectories_cons (anchor : Anchor) (last : String) (above : List String)
    {P : FileTree → Prop} (alone : ∀ s, P (t.settleDirectory s).1)
    (failed : P (t.ensureDirectories anchor above).1)
    (behind : ∀ s, P ((t.ensureDirectories anchor above).1.settleDirectory s).1) :
    P (t.ensureDirectories anchor (last :: above)).1 := by
  unfold ensureDirectories
  dsimp only
  cases made : t.makeDirectory (Path.textOf anchor (last :: above).reverse) with
  | ok directory => exact alone _
  | error problem =>
    cases problem with
    | notFound =>
      cases done : t.ensureDirectories anchor above with
      | mk made fault =>
        rw [done] at failed behind
        cases fault with
        | none => exact behind _
        | some fault => exact failed
    | _ => exact alone _

theorem spares_ensureDirectories (anchor : Anchor) (upward : List String) :
    Spares out t (t.ensureDirectories anchor upward).1 := by
  induction upward with
  | nil => exact .refl
  | cons last above ih =>
    exact ensureDirectories_cons anchor last above spares_settleDirectory ih fun s =>
      ih.trans (spares_settleDirectory s)

theorem later_ensureDirectories (h : t.Sound) (anchor : Anchor) (upward : List String) :
    t.Later (t.ensureDirectories anchor upward).1 := by
  induction upward with
  | nil => exact .refl h
  | cons last above ih =>
    exact ensureDirectories_cons anchor last above (later_settleDirectory h) ih fun s =>
      ih.trans (later_settleDirectory ih.sound s)

/-- Writing an output file brings a sound tree to a later one and spares every other file. -/
theorem writeOutput_eq_ok (h : t.Sound) {s : String} {content : Content} {written : FileTree}
    (wrote : t.writeOutput s content = (written, none)) :
    t.Later written ∧ Spares (placeIn t.home s) t written := by
  have above := later_ensureDirectories h (Path.anchorOf s.toList)
    (Path.components s).reverse.tail
  have spared : Spares (placeIn t.home s) t _ := spares_ensureDirectories
    (Path.anchorOf s.toList) (Path.components s).reverse.tail
  rw [writeOutput] at wrote
  generalize t.ensureDirectories (Path.anchorOf s.toList) (Path.components s).reverse.tail = result
    at above spared wrote
  obtain ⟨made, fault⟩ := result
  cases fault with
  | some fault => cases wrote
  | none =>
    cases put : made.write s content with
    | error fault =>
      simp only [put] at wrote
      cases wrote
    | ok final =>
      simp only [put] at wrote
      cases wrote
      have file := spares_put_file put
      rw [above.home, placeIn_tidy] at file
      exact ⟨above.trans (later_put above.sound put), spared.trans file⟩

end FileTree

end UtilityCss
