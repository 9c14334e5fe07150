import UtilityCss.Files.Tree
import UtilityCss.Proofs.Files.Path

/-! What a text leads to in a file tree. A text is followed component by component; where that
succeeds, it comes to the place that its components say. -/
namespace UtilityCss

namespace Node

theorem descend_append (n : Node) (place more : List String) :
    n.descend (place ++ more) = n.descend place >>= fun m => m.descend more := by
  induction place generalizing n with
  | nil => rfl
  | cons name rest ih =>
    cases n with
    | file => rfl
    | dir entries stamp =>
      simp only [List.cons_append, descend]
      split
      · rfl
      · cases entries.lookup name with
        | none => rfl
        | some child => exact ih child

/-- Above what is found there are directories. -/
theorem dir_of_descend_append {n m : Node} {place more : List String}
    (h : n.descend (place ++ more) = .ok m) (ne : more ≠ []) :
    ∃ entries stamp, n.descend place = .ok (.dir entries stamp) := by
  rw [descend_append] at h
  cases above : n.descend place with
  | error problem =>
    rw [above] at h
    cases h
  | ok d =>
    rw [above] at h
    cases d with
    | dir entries stamp => exact ⟨entries, stamp, rfl⟩
    | file content stamp =>
      obtain ⟨name, rest, rfl⟩ := List.exists_cons_of_ne_nil ne
      cases h

theorem exists_descend_of_append {n m : Node} {place more : List String}
    (h : n.descend (place ++ more) = .ok m) : ∃ d, n.descend place = .ok d := by
  rw [descend_append] at h
  cases above : n.descend place with
  | error problem =>
    rw [above] at h
    cases h
  | ok d => exact ⟨d, rfl⟩

end Node

namespace FileTree

open Path (climb placeIn startOf)

variable {t : FileTree}

/-- There is a directory at the place. -/
def IsDirAt (t : FileTree) (place : List String) : Prop :=
  ∃ entries stamp, t.root.descend place = .ok (.dir entries stamp)

theorem IsDirAt.dropLast {place : List String} (h : t.IsDirAt place) :
    t.IsDirAt place.dropLast := by
  rcases List.eq_nil_or_concat place with rfl | ⟨front, last, rfl⟩
  · exact h
  · obtain ⟨entries, stamp, found⟩ := h
    rw [List.concat_eq_append, List.dropLast_concat]
    rw [List.concat_eq_append] at found
    exact Node.dir_of_descend_append found (by simp)

/-- A step from a directory. -/
theorem stepTo_dir {place : List String} (h : t.IsDirAt place) (c : String) :
    t.stepTo place c = if c = "" || c = "." then .ok place
      else if c = ".." then .ok place.dropLast
      else (t.root.descend (place ++ [c])).map fun _ => place ++ [c] := by
  obtain ⟨entries, stamp, here⟩ := h
  simp only [stepTo, here, bind, Except.bind]
  cases t.root.descend (place ++ [c]) <;> rfl

/-- A step leads from a directory to something that is there. -/
theorem stepTo_eq_ok {place next : List String} {c : String} (h : t.stepTo place c = .ok next) :
    t.IsDirAt place ∧ next = climb place c ∧ ∃ n, t.root.descend next = .ok n := by
  have dir : t.IsDirAt place := by
    cases here : t.root.descend place with
    | error problem =>
      rw [stepTo, here] at h
      cases h
    | ok n =>
      rw [stepTo, here] at h
      cases n with
      | file content stamp => cases h
      | dir entries stamp => exact ⟨entries, stamp, here⟩
  refine ⟨dir, ?_⟩
  rw [stepTo_dir dir] at h
  rw [climb]
  split at h
  · next blank =>
    rw [if_pos blank]
    cases h
    obtain ⟨entries, stamp, here⟩ := dir
    exact ⟨rfl, _, here⟩
  · next solid =>
    rw [if_neg solid]
    split at h
    · next up =>
      rw [if_pos up]
      cases h
      obtain ⟨entries, stamp, above⟩ := dir.dropLast
      exact ⟨rfl, _, above⟩
    · next notUp =>
      rw [if_neg notUp]
      cases child : t.root.descend (place ++ [c]) with
      | error problem =>
        rw [child] at h
        cases h
      | ok n =>
        rw [child] at h
        cases h
        exact ⟨rfl, n, child⟩

/-- Where a walk over some components comes to. -/
theorem foldlM_stepTo_eq_ok {components : List String} {start place : List String}
    (h : components.foldlM t.stepTo start = .ok place) :
    place = components.foldl climb start ∧
      (components ≠ [] → t.IsDirAt start ∧ ∃ n, t.root.descend place = .ok n) := by
  induction components generalizing start with
  | nil =>
    cases h
    exact ⟨rfl, fun none => absurd rfl none⟩
  | cons c rest ih =>
    rw [List.foldlM_cons] at h
    cases first : t.stepTo start c with
    | error problem =>
      rw [first] at h
      cases h
    | ok next =>
      rw [first] at h
      obtain ⟨dir, rfl, there⟩ := stepTo_eq_ok first
      obtain ⟨same, more⟩ := ih h
      refine ⟨same, fun _ => ⟨dir, ?_⟩⟩
      cases rest with
      | nil =>
        rw [same]
        exact there
      | cons d others => exact (more (List.cons_ne_nil _ _)).2

/-- What a text leads to stands at the place that its components say. -/
theorem resolve_eq_ok {s : String} {place : List String} (h : t.resolve s = .ok place) :
    textProblem? s = none ∧ place = placeIn t.home s ∧ ∃ n, t.root.descend place = .ok n := by
  rw [resolve] at h
  split at h
  · cases h
  · next sound =>
    obtain ⟨same, there⟩ := foldlM_stepTo_eq_ok h
    exact ⟨sound, same, (there (Text.fields_ne_nil s)).2⟩

theorem descend_of_node? {s : String} {n : Node} (h : t.node? s = .ok n) :
    t.root.descend (placeIn t.home s) = .ok n := by
  rw [node?] at h
  cases found : t.resolve s with
  | error problem =>
    rw [found] at h
    cases h
  | ok place =>
    rw [found] at h
    rw [← (resolve_eq_ok found).2.1]
    exact h

theorem foldlM_stepTo_blanks {blanks : List String} (h : ∀ c ∈ blanks, c = "" ∨ c = ".")
    {place : List String} (dir : t.IsDirAt place) :
    blanks.foldlM t.stepTo place = .ok place := by
  induction blanks with
  | nil => rfl
  | cons c rest ih =>
    have still : t.stepTo place c = .ok place := by
      rw [stepTo_dir dir, if_pos (by simpa using h c List.mem_cons_self)]
    rw [List.foldlM_cons, still]
    exact ih fun d hd => h d (List.mem_cons_of_mem _ hd)

/-- Names lead down to what is there. -/
theorem foldlM_stepTo_names {names : List String} (h : ∀ name ∈ names, IsName name)
    {place : List String} {n : Node} (there : t.root.descend (place ++ names) = .ok n) :
    names.foldlM t.stepTo place = .ok (place ++ names) := by
  induction names generalizing place with
  | nil => simp [List.foldlM_nil, pure, Except.pure]
  | cons name rest ih =>
    have proper := h name List.mem_cons_self
    have dir : t.IsDirAt place := Node.dir_of_descend_append there (List.cons_ne_nil _ _)
    have split : place ++ name :: rest = (place ++ [name]) ++ rest := by simp
    rw [split] at there ⊢
    obtain ⟨child, found⟩ := Node.exists_descend_of_append there
    have first : t.stepTo place name = .ok (place ++ [name]) := by
      rw [stepTo_dir dir, if_neg (by simp [proper.ne_empty, proper.ne_dot]), if_neg proper.ne_up,
        found]
      rfl
    rw [List.foldlM_cons, first]
    exact ih (fun d hd => h d (List.mem_cons_of_mem _ hd)) there

private theorem foldlM_stepTo_ups {place : List String} (dir : t.IsDirAt place) (ups : Nat) :
    (List.replicate ups "..").foldlM t.stepTo place = .ok (place.take (place.length - ups)) := by
  induction ups generalizing place with
  | zero => simp [pure, Except.pure]
  | succ ups ih =>
    have first : t.stepTo place ".." = .ok place.dropLast := by
      rw [stepTo_dir dir]
      rfl
    rw [List.replicate_succ, List.foldlM_cons, first]
    have rest := ih dir.dropLast
    rw [List.dropLast_eq_take, List.take_take, List.length_take] at rest
    rw [List.dropLast_eq_take]
    refine rest.trans ?_
    congr 2
    omega

/-- A normal path leads to what is at its place, as long as the working directory is there. -/
theorem resolve_text {p : Path} (normal : p.Normal) (sound : textProblem? p.text = none)
    (home : t.IsDirAt t.home) {n : Node} (there : t.root.descend (p.place t.home) = .ok n) :
    t.resolve p.text = .ok (p.place t.home) := by
  have top : t.IsDirAt [] := by
    cases split : t.home with
    | nil => exact split ▸ home
    | cons name rest =>
      obtain ⟨entries, stamp, found⟩ := home
      rw [split] at found
      exact @Node.dir_of_descend_append _ _ [] _ found (List.cons_ne_nil _ _)
  obtain ⟨blanks, blank, fields⟩ := normal.plain.fields_text
  have start := normal.plain.startOf_text t.home
  have walk : (Text.fields '/' p.text).foldlM t.stepTo (startOf t.home p.text) =
      .ok (p.place t.home) := by
    rw [fields, List.foldlM_append, start]
    cases anchor : p.anchor with
    | here =>
      rw [if_pos rfl, foldlM_stepTo_blanks blank home]
      change p.steps.foldlM t.stepTo t.home = _
      rw [Path.steps, List.foldlM_append, foldlM_stepTo_ups home]
      rw [Path.place, anchor] at there ⊢
      exact foldlM_stepTo_names normal.names there
    | _ =>
      have none : p.ups = 0 := normal.ups.resolve_left (by simp [anchor])
      rw [if_neg (by simp), foldlM_stepTo_blanks blank top]
      change p.steps.foldlM t.stepTo [] = _
      rw [Path.steps, none]
      rw [Path.place, anchor] at there ⊢
      exact @foldlM_stepTo_names t _ normal.names [] _ there
  rw [resolve]
  rw [sound]
  exact walk

theorem node?_text {p : Path} (normal : p.Normal) (sound : textProblem? p.text = none)
    (home : t.IsDirAt t.home) {n : Node} (there : t.root.descend (p.place t.home) = .ok n) :
    t.node? p.text = .ok n := by
  rw [node?, resolve_text normal sound home there]
  exact there

/-- A component that leads somewhere. -/
def isSolid (c : String) : Bool := c != "" && c != "."

private theorem blank_of_not_solid {c : String} (h : isSolid c = false) : c = "" ∨ c = "." := by
  simpa [isSolid, Classical.or_iff_not_imp_left] using h

private theorem foldl_climb_solid (place : List String) (components : List String) :
    (components.filter isSolid).foldl climb place = components.foldl climb place := by
  induction components generalizing place with
  | nil => rfl
  | cons c rest ih =>
    cases solid : isSolid c with
    | true => rw [List.filter_cons_of_pos solid, List.foldl_cons, List.foldl_cons, ih]
    | false =>
      have still : climb place c = place := by
        simpa using @Path.foldl_climb_blanks [c] (by simpa using blank_of_not_solid solid) place
      rw [List.filter_cons_of_neg (by simp [solid]), List.foldl_cons, still, ih]

/-- Components that lead nowhere can only stop at a file. -/
private theorem foldlM_stepTo_solid {components : List String} {start : List String} {n : Node}
    {problem : FileProblem} (there : t.root.descend start = .ok n)
    (h : components.foldlM t.stepTo start = .error problem) (other : problem ≠ .notDirectory) :
    (components.filter isSolid).foldlM t.stepTo start = .error problem := by
  induction components generalizing start n with
  | nil => cases h
  | cons c rest ih =>
    rw [List.foldlM_cons] at h
    cases solid : isSolid c with
    | true =>
      rw [List.filter_cons_of_pos solid, List.foldlM_cons]
      cases first : t.stepTo start c with
      | error e =>
        rw [first] at h
        exact h
      | ok next =>
        rw [first] at h
        obtain ⟨m, found⟩ := (stepTo_eq_ok first).2.2
        exact ih found h
    | false =>
      rw [List.filter_cons_of_neg (by simp [solid])]
      cases n with
      | file content stamp =>
        have stuck : t.stepTo start c = .error .notDirectory := by
          rw [stepTo, there]
          rfl
        rw [stuck] at h
        cases h
        exact absurd rfl other
      | dir entries stamp =>
        have still : t.stepTo start c = .ok start := by
          rw [stepTo_dir ⟨entries, stamp, there⟩,
            if_pos (by simpa using blank_of_not_solid solid)]
        rw [still] at h
        exact ih there h

theorem components_plain (s : String) : ∀ c ∈ Path.components s, c ≠ "" ∧ '/' ∉ c.toList := by
  intro c hc
  obtain ⟨inside, solid⟩ := List.mem_filter.1 hc
  simp only [Bool.and_eq_true, bne_iff_ne] at solid
  exact ⟨solid.1, Text.not_mem_of_mem_fields inside⟩

/-- A walk over the components of a text that is tidied. -/
theorem foldlM_stepTo_of_resolve_textOf {s : String} {components parent : List String}
    (plain : ∀ c ∈ components, c ≠ "" ∧ '/' ∉ c.toList)
    (h : t.resolve (Path.textOf (Path.anchorOf s.toList) components) = .ok parent) :
    t.IsDirAt (startOf t.home s) ∧ (∃ n, t.root.descend parent = .ok n) ∧
      components.foldlM t.stepTo (startOf t.home s) = .ok parent := by
  have found := (resolve_eq_ok h).2.2
  obtain ⟨blanks, blank, fields⟩ := Path.fields_textOf (Path.anchorOf s.toList) plain
  rw [resolve] at h
  split at h
  · cases h
  · have walk : (Text.fields '/' (Path.textOf (Path.anchorOf s.toList) components)).foldlM
        t.stepTo (startOf t.home s) = .ok parent := by
      rw [Path.startOf_eq, ← Path.startOf_textOf t.home (Path.anchorOf s.toList) plain]
      exact h
    have start := ((foldlM_stepTo_eq_ok walk).2 (Text.fields_ne_nil _)).1
    rw [fields, List.foldlM_append, foldlM_stepTo_blanks blank start] at walk
    exact ⟨start, found, walk⟩

/-- A text with components that leads to nothing has no fault of its own. -/
theorem textProblem?_of_missing {s : String} (h : t.resolve s = .error .notFound)
    (some : Path.components s ≠ []) : textProblem? s = none := by
  rw [resolve] at h
  split at h
  · next problem found =>
    cases h
    have empty : s = "" := by
      rw [textProblem?] at found
      split at found
      · cases found
      · split at found
        · next none => exact String.isEmpty_iff.1 none
        · split at found <;> cases found
    subst empty
    exact absurd (by decide) some
  · next sound => exact sound

private theorem walk_of_missing {s : String} (h : t.resolve s = .error .notFound)
    (some : Path.components s ≠ []) :
    (Text.fields '/' s).foldlM t.stepTo (startOf t.home s) = .error .notFound := by
  have sound := textProblem?_of_missing h some
  rw [resolve, sound] at h
  exact h

private theorem free_of_missing_step {parent : List String} {last : String} {n : Node}
    (there : t.root.descend parent = .ok n) (solid : isSolid last = true)
    (h : t.stepTo parent last = .error .notFound) :
    t.IsDirAt parent ∧ last ≠ ".." ∧ last.utf8ByteSize ≤ 255 ∧
      t.root.descend (parent ++ [last]) = .error .notFound := by
  cases n with
  | file content stamp =>
    rw [stepTo, there] at h
    cases h
  | dir entries stamp =>
    have dir : t.IsDirAt parent := ⟨entries, stamp, there⟩
    have notBlank : ¬ (last = "" || last = ".") = true := by
      simpa [isSolid] using solid
    rw [stepTo_dir dir, if_neg notBlank] at h
    split at h
    · cases h
    · next notUp =>
      have missing : t.root.descend (parent ++ [last]) = .error .notFound := by
        cases found : t.root.descend (parent ++ [last]) with
        | error problem =>
          rw [found] at h
          cases h
          rfl
        | ok child =>
          rw [found] at h
          cases h
      refine ⟨dir, notUp, ?_, missing⟩
      rw [Node.descend_append, there] at missing
      apply Decidable.byContradiction
      intro long
      have refused : (Node.dir entries stamp).descend [last] = .error .nameTooLong := by
        rw [Node.descend, if_pos (by omega)]
      exact absurd (refused.symm.trans missing) (by simp)

/-- A free place is found by a walk to its directory. -/
theorem exists_walk_of_freePlace {s : String} {place : List String}
    (h : t.freePlace s = .ok place) :
    t.resolve s = .error .notFound ∧ ∃ front last parent, Path.components s = front ++ [last] ∧
      place = parent ++ [last] ∧ t.IsDirAt (startOf t.home s) ∧
      (∃ n, t.root.descend parent = .ok n) ∧
      front.foldlM t.stepTo (startOf t.home s) = .ok parent := by
  rw [freePlace] at h
  split at h
  · cases h
  · next missing =>
    dsimp only at h
    cases final : (Path.components s).getLast? with
    | none =>
      rw [final] at h
      cases h
    | some last =>
      obtain ⟨front, split⟩ := List.getLast?_eq_some_iff.1 final
      have front_eq : (Path.components s).dropLast = front := by rw [split, List.dropLast_concat]
      simp only [final, front_eq, bind, Except.bind, pure, Except.pure] at h
      cases above : t.resolve (Path.textOf (Path.anchorOf s.toList) front) with
      | error problem =>
        rw [above] at h
        cases h
      | ok parent =>
        rw [above] at h
        cases h
        have plain := components_plain s
        rw [split] at plain
        obtain ⟨start, there, walk⟩ := foldlM_stepTo_of_resolve_textOf
          (fun c hc => plain c (List.mem_append_left _ hc)) above
        exact ⟨missing, front, last, parent, split, rfl, start, there, walk⟩
  · cases h

/-- A free place is one behind a directory, and it is named by the text. -/
theorem freePlace_eq_ok {s : String} {place : List String} (h : t.freePlace s = .ok place) :
    ∃ parent last, place = parent ++ [last] ∧ IsName last ∧ last.utf8ByteSize ≤ 255 ∧
      t.IsDirAt parent ∧ t.root.descend place = .error .notFound ∧
      place = placeIn t.home s := by
  obtain ⟨missing, front, last, parent, split, rfl, start, ⟨n, there⟩, walk⟩ :=
    exists_walk_of_freePlace h
  obtain ⟨m, started⟩ : ∃ m, t.root.descend (startOf t.home s) = .ok m :=
    let ⟨entries, stamp, found⟩ := start
    ⟨_, found⟩
  have whole := foldlM_stepTo_solid started (walk_of_missing missing (by simp [split])) (by simp)
  have solid : (Text.fields '/' s).filter isSolid = front ++ [last] := split
  rw [solid, List.foldlM_append, walk] at whole
  have lastStep : t.stepTo parent last = .error .notFound := by
    have only : ([last].foldlM t.stepTo parent) = .error .notFound := whole
    rw [List.foldlM_cons] at only
    cases step : t.stepTo parent last with
    | error problem =>
      rw [step] at only
      exact only
    | ok next =>
      rw [step] at only
      cases only
  have placed : parent = front.foldl climb (startOf t.home s) := (foldlM_stepTo_eq_ok walk).1
  have named : placeIn t.home s = climb parent last := by
    rw [placeIn, ← foldl_climb_solid, solid, List.foldl_append, ← placed]
    rfl
  have plainLast := components_plain s last (by simp [split])
  have notDot : isSolid last = true :=
    (List.mem_filter.1 (show last ∈ (Text.fields '/' s).filter isSolid by simp [solid])).2
  obtain ⟨dir, notUp, short, missing⟩ := free_of_missing_step there notDot lastStep
  have proper : IsName last := by
    simp only [isSolid, Bool.and_eq_true, bne_iff_ne] at notDot
    exact ⟨notDot.1, notDot.2, notUp, plainLast.2⟩
  exact ⟨parent, last, rfl, proper, short, dir, missing,
    (Path.climb_name proper parent).symm.trans named.symm⟩

/-- Tidying a text does not change the place that it names. -/
theorem placeIn_tidy (home : List String) (s : String) :
    placeIn home (Path.tidy s) = placeIn home s := by
  obtain ⟨blanks, blank, fields⟩ :=
    Path.fields_textOf (Path.anchorOf s.toList) (components_plain s)
  have solid : (Text.fields '/' s).filter isSolid = Path.components s := rfl
  rw [placeIn, Path.tidy, fields, Path.startOf_textOf home _ (components_plain s),
    ← Path.startOf_eq, List.foldl_append, Path.foldl_climb_blanks blank, ← solid,
    foldl_climb_solid]
  rfl

end FileTree

end UtilityCss
