import UtilityCss.Proofs.Project.Poll

/-! The course of a watch. Whenever the latest attempt to build succeeded, the style sheet is the
one that a first pass over the files makes. A file that only a failed attempt needed is not
watched. -/
namespace UtilityCss.Project.Watch

variable {options : Options} {w w' : Watch} {failed : Option FileTree}

/-- The states of a watch after its polls, with the tree on which the latest attempt to build
failed, if it failed. The output file is not among the files of the style sheet, and there is a
working directory, without which no path can be made absolute. -/
inductive Reached (options : Options) : Watch → Option FileTree → Prop
  | started {tree made w} (sound : tree.Sound) (home : tree.IsDirAt tree.home)
      (begun : start tree options = (made, .ok w))
      (apart : ∀ f ∈ w.session.build.sheet.files, w.IsApart f) : Reached options w none
  | polled {w w' : Watch} {failed events tree} (before : Reached options w failed)
      (paused : pause w.tree events = (tree, .over)) (home : tree.IsDirAt tree.home)
      (told : ({ w with tree } : Watch).poll = (w', none))
      (apart : ∀ f ∈ w'.session.build.sheet.files, w'.IsApart f) :
      Reached options w' (({ w with tree } : Watch).failedAfterPoll failed)

theorem Reached.apart (h : Reached options w failed) :
    ∀ f ∈ w.session.build.sheet.files, w.IsApart f := by
  cases h with
  | started _ _ _ apart => exact apart
  | polled _ _ _ _ apart => exact apart

theorem Reached.tracks (h : Reached options w failed) :
    Tracks options w ∧ w.Current options failed := by
  induction h with
  | started sound home begun apart => exact tracks_of_start sound home begun
  | polled before paused home told apart ih =>
    obtain ⟨tracks, current⟩ := ih
    exact tracks.polled current before.apart (later_pause tracks.sound paused) home told

/-- A course of a watch goes through what is reached. -/
theorem Reached.exists_course (h : Reached options w failed) :
    ∃ tree made first polls trees, start tree options = (made, .ok first) ∧
      ∀ rest, first.run none (polls ++ rest) =
        { w.run none rest with trees := trees ++ (w.run none rest).trees } := by
  induction h with
  | started sound home begun apart => exact ⟨_, _, _, [], [], begun, fun rest => rfl⟩
  | @polled w w' failed events tree before paused home told apart ih =>
    obtain ⟨start, made, first, polls, trees, begun, course⟩ := ih
    refine ⟨start, made, first, polls ++ [events], trees ++ [w.tree], begun, fun rest => ?_⟩
    rw [List.append_assoc, List.singleton_append, course, run, if_neg (by simp), paused]
    dsimp only
    rw [told]
    simp

/-- A poll that finds none of its files changed leaves the style sheet as it is, so what was lost
stays lost. -/
theorem Reached.sheet_of_poll {tree : FileTree} {events : List Event} {watcher : Watcher}
    {changed : List String} (h : Reached options w failed)
    (paused : pause w.tree events = (tree, .over)) (home : tree.IsDirAt tree.home)
    (polled : w.watcher.poll tree = .ok (watcher, changed))
    (others : ∀ path ∈ changed, w.session.build.isDependency tree path = false)
    (told : ({ w with tree } : Watch).poll = (w', none)) :
    w'.session.build.sheet = w.session.build.sheet := by
  have tracks := h.tracks.1
  exact tracks.sheet_of_poll (later_pause tracks.sound paused) home polled others told

section Computed

instance (t : FileTree) (place : List String) : Decidable (t.IsDirAt place) :=
  match found : t.root.descend place with
  | .ok (.dir entries stamp) => isTrue ⟨entries, stamp, found⟩
  | .ok (.file ..) => isFalse fun ⟨_, _, other⟩ => by
    rw [found] at other
    cases other
  | .error _ => isFalse fun ⟨_, _, other⟩ => by
    rw [found] at other
    cases other

instance (w : Watch) (f : String) : Decidable (w.IsApart f) := inferInstanceAs (Decidable (_ ≠ _))

/-- The state after a poll, if it is one that is reached. -/
def next? (state : Watch × Option FileTree) (events : List Event) :
    Option (Watch × Option FileTree) :=
  match pause state.1.tree events with
  | (tree, .over) =>
    match ({ state.1 with tree } : Watch).poll with
    | (w, none) =>
      if tree.IsDirAt tree.home ∧ ∀ f ∈ w.session.build.sheet.files, w.IsApart f then
        some (w, failedAfterPoll state.2 { state.1 with tree })
      else none
    | _ => none
  | _ => none

variable {state state' : Watch × Option FileTree}

theorem Reached.next? {events : List Event} (h : Reached options state.1 state.2)
    (next : Watch.next? state events = some state') : Reached options state'.1 state'.2 := by
  unfold Watch.next? at next
  split at next
  · next tree paused =>
    split at next
    · next w told =>
      split at next
      · next valid =>
        cases next
        exact .polled h paused valid.1 told valid.2
      · cases next
    · cases next
  · cases next

theorem Reached.foldlM {polls : List (List Event)} (h : Reached options state.1 state.2)
    (ends : polls.foldlM Watch.next? state = some state') : Reached options state'.1 state'.2 := by
  induction polls generalizing state with
  | nil =>
    cases ends
    exact h
  | cons events rest ih =>
    rw [List.foldlM_cons] at ends
    cases first : Watch.next? state events with
    | none =>
      rw [first] at ends
      cases ends
    | some next =>
      rw [first] at ends
      exact ih (h.next? first) ends

end Computed

/-- If the latest attempt to build succeeded, the style sheet is the fresh one. If it failed, the
fresh sheet differs only in a way that the watch does not notice: the failed attempt has made that
sheet already, or it has a file that the last good build did not need. -/
theorem freshSheet_of_reached (h : Reached options w failed) :
    (failed = none → freshSheet w.tree options = .ok w.session.build.sheet) ∧
      ∀ tried, failed = some tried → tried.Later w.tree ∧
        (∃ fault, Build.make tried options = .error fault ∧ fault.isMendable = true) ∧
        ∀ sheet, freshSheet w.tree options = .ok sheet →
          freshSheet tried options = .ok sheet ∨
            ∃ f ∈ sheet.files, f ∉ w.session.build.sheet.files := by
  obtain ⟨-, current⟩ := h.tracks
  refine ⟨?_, ?_⟩
  · rintro rfl
    exact current h.apart
  · rintro tried rfl
    obtain ⟨later, unmade, same⟩ : w.Stuck options tried := current
    refine ⟨later, unmade, fun sheet fresh => ?_⟩
    by_cases known : ∀ f ∈ sheet.files, f ∈ w.session.build.sheet.files
    · left
      apply freshSheet_of_same fresh later.home.symm
      intro f hf content stamp there
      exact (same f (known f hf) (h.apart f (known f hf)) content stamp).1 there
    · right
      simpa using known

private def project : FileTree :=
  (FileTree.changeAll {} [.write "index.css" (.text "a\x7b\x7d"), .makeDirectory "src"]).1

private def settings : Options :=
  { cssFile := "index.css", directories := ["src"], outfile := some "o.css", base := some "" }

/-- An import is added before there is the file that it names. -/
private def lateImport : List (List Event) :=
  [[.change (.write "index.css" (.text "@import \"./b.css\";"))],
    [.change (.write "b.css" (.text "c\x7b\x7d"))]]

private theorem lateImport_any :
    ((start project settings).2.toOption.any fun w =>
      decide (∀ f ∈ w.session.build.sheet.files, w.IsApart f) &&
        (lateImport.foldlM Watch.next? (w, none)).any fun state =>
          state.2.isSome && (freshSheet state.1.tree settings).toOption.any fun _ => true) =
      true := by
  simp only [lateImport, List.foldlM, Watch.next?, poll, failedAfterPoll, Watcher.poll,
    Watcher.changedPaths, Text.sortedDistinct_eq_insertionSort]
  decide +kernel

theorem freshSheet_of_reached_stuck :
    ∃ w tried, Reached settings w (some tried) ∧ tried.Later w.tree ∧
      ∃ sheet, freshSheet w.tree settings = .ok sheet ∧
        (freshSheet tried settings = .ok sheet ∨
          ∃ f ∈ sheet.files, f ∉ w.session.build.sheet.files) := by
  obtain ⟨first, begun, facts⟩ := exists_ok_of_any lateImport_any
  rw [Bool.and_eq_true, decide_eq_true_eq, Option.any_eq_true] at facts
  obtain ⟨apart, ⟨w, failed⟩, reached, facts⟩ := facts
  rw [Bool.and_eq_true, Option.isSome_iff_exists] at facts
  obtain ⟨⟨tried, rfl⟩, facts⟩ := facts
  obtain ⟨sheet, made, -⟩ := exists_ok_of_any facts
  have start : Reached settings first none := by
    cases whole : start project settings with
    | mk written result =>
      rw [whole] at begun
      obtain rfl : result = .ok first := begun
      exact .started (FileTree.sound_changeAll _) (by decide +kernel) whole apart
  have last : Reached settings w (some tried) :=
    @Reached.foldlM _ (first, none) _ _ start reached
  obtain ⟨later, -, known⟩ := (freshSheet_of_reached last).2 tried rfl
  exact ⟨w, tried, last, later, sheet, made, known sheet made⟩

/-- The import is lost although the file that it names is there in the end. -/
theorem freshSheet_ne_lateImport :
    ((start project settings).2.toOption.map fun w =>
      let course := w.run none lateImport
      (course.fault.isNone, course.last.session.build.sheet.files,
        course.last.session.build.sheet.css,
        (freshSheet course.last.tree settings).toOption.map (·.css))) =
      some (true, ["index.css"], "a\x7b\x7d", some "@layer \x7bc\x7b\x7d\x7d") := by
  simp only [run, lateImport, poll, Watcher.poll, Watcher.changedPaths,
    Text.sortedDistinct_eq_insertionSort]
  decide +kernel

end UtilityCss.Project.Watch
