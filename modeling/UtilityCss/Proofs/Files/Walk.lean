import UtilityCss.Project.Watcher
import UtilityCss.Proofs.Except
import UtilityCss.Proofs.Files.Sound
import UtilityCss.Proofs.Named

/-! A walk through a directory tells of the files below it, and what it tells of a file is what a
look at the path of the file tells. -/
namespace UtilityCss

namespace Path

/-- The paths that are passed on the way from a directory down some names, the last one among
them. -/
def waypoints (path : String) : List String → List String
  | [] => []
  | name :: rest => joinText path name :: waypoints (joinText path name) rest

theorem dropLast_waypoints_cons (path name : String) {rest : List String} (some : rest ≠ []) :
    (waypoints path (name :: rest)).dropLast =
      joinText path name :: (waypoints (joinText path name) rest).dropLast := by
  cases rest with
  | nil => exact absurd rfl some
  | cons next more => rfl

theorem getLast?_waypoints (path : String) {names : List String} (some : names ≠ []) :
    (waypoints path names).getLast? = .some (names.foldl joinText path) := by
  induction names generalizing path with
  | nil => exact absurd rfl some
  | cons name rest ih =>
    cases rest with
    | nil => rfl
    | cons next more =>
      rw [waypoints, waypoints, List.getLast?_cons_cons]
      exact ih (joinText path name) (List.cons_ne_nil _ _)

private theorem exists_joinText_eq (directory name : String) :
    ∃ more, joinText directory name = directory ++ more := by
  unfold joinText
  split
  · exact ⟨name, rfl⟩
  · exact ⟨"/" ++ name, String.append_assoc⟩

theorem exists_foldl_joinText_eq (path : String) (names : List String) :
    ∃ more, names.foldl joinText path = path ++ more := by
  induction names generalizing path with
  | nil => exact ⟨"", String.append_empty.symm⟩
  | cons name rest ih =>
    obtain ⟨next, first⟩ := exists_joinText_eq path name
    obtain ⟨more, later⟩ := ih (joinText path name)
    exact ⟨next ++ more, by rw [List.foldl_cons, later, first, String.append_assoc]⟩

/-- What is passed on the way is the front of the path at the end of the way. -/
theorem exists_eq_append_of_mem_waypoints {path passed : String} {names : List String}
    (h : passed ∈ waypoints path names) : ∃ more, names.foldl joinText path = passed ++ more := by
  induction names generalizing path with
  | nil => cases h
  | cons name rest ih =>
    rcases List.mem_cons.1 h with rfl | later
    · exact exists_foldl_joinText_eq _ rest
    · exact ih later

theorem getLast?_joinText {directory name : String} (some : name ≠ "") :
    (joinText directory name).toList.getLast? = name.toList.getLast? := by
  have filled : name.toList ≠ [] := mt String.toList_eq_nil_iff.1 some
  have last (front : String) : (front ++ name).toList.getLast? = name.toList.getLast? := by
    rw [String.toList_append, List.getLast?_append, List.getLast?_eq_some_getLast filled]
    rfl
  unfold joinText
  split
  · exact last directory
  · exact last (directory ++ "/")

end Path

namespace FileTree

open Path (climb placeIn startOf joinText)

variable {t : FileTree}

/-- The components of a text lead to a place. -/
def Leads (t : FileTree) (s : String) (place : List String) : Prop :=
  s ≠ "" ∧ (Text.fields '/' s).foldlM t.stepTo (startOf t.home s) = .ok place

theorem leads_of_resolve {s : String} {place : List String} (h : t.resolve s = .ok place) :
    t.Leads s place := by
  rw [resolve] at h
  split at h
  · cases h
  · next sound =>
    refine ⟨?_, h⟩
    rintro rfl
    revert sound
    decide

private theorem startOf_append (home : List String) {s : String} (ne : s ≠ "") (more : String) :
    startOf home (s ++ more) = startOf home s := by
  unfold startOf
  rw [String.toList_append]
  obtain ⟨c, rest, split⟩ := List.exists_cons_of_ne_nil fun none =>
    ne (String.toList_eq_nil_iff.1 none)
  rw [split]
  rfl

/-- A name behind a directory leads to its entry. -/
theorem Leads.join {s name : String} {place : List String} (h : t.Leads s place)
    (proper : IsName name) {n : Node}
    (there : t.root.descend (place ++ [name]) = .ok n) :
    t.Leads (joinText s name) (place ++ [name]) := by
  obtain ⟨ne, walk⟩ := h
  have last : [name].foldlM t.stepTo place = .ok (place ++ [name]) :=
    foldlM_stepTo_names (by simpa using proper) there
  have only : Text.fields '/' name = [name] := Text.fields_of_not_mem proper.no_slash
  have longer (more : String) (some : more ≠ "") : s ++ more ≠ "" := by
    intro none
    exact some (String.append_eq_empty_iff.1 none).2
  have notEmpty : (s = "") = False := by simpa using ne
  rw [joinText]
  split
  · next slash =>
    -- The slash at the end stands for a step that leads nowhere.
    have ends : s.toList.getLast? = some '/' := by simpa [ne] using slash
    obtain ⟨front, split⟩ := List.getLast?_eq_some_iff.1 ends
    have cut : s = String.ofList front ++ "/" := by
      rw [← String.toList_inj, String.toList_append, String.toList_ofList, split]
      rfl
    have fields (more : String) : Text.fields '/' (s ++ more) =
        Text.fields '/' (String.ofList front) ++ Text.fields '/' more := by
      rw [cut]
      exact Text.fields_append _ _
    have before : (Text.fields '/' (String.ofList front)).foldlM t.stepTo (startOf t.home s) =
        .ok place := by
      have all := fields ""
      rw [String.append_empty] at all
      rw [all, List.foldlM_append] at walk
      cases first : (Text.fields '/' (String.ofList front)).foldlM t.stepTo
          (startOf t.home s) with
      | error problem =>
        rw [first] at walk
        cases walk
      | ok above =>
        rw [first] at walk
        have still := (@foldlM_stepTo_eq_ok t (Text.fields '/' "") _ _ walk).1
        rw [still]
        rfl
    refine ⟨longer name proper.ne_empty, ?_⟩
    rw [fields, only, startOf_append t.home ne, List.foldlM_append, before]
    exact last
  · have fields : Text.fields '/' (s ++ "/" ++ name) = Text.fields '/' s ++ [name] := by
      rw [← only]
      exact Text.fields_append s name
    refine ⟨?_, ?_⟩
    · rw [String.append_assoc]
      exact longer _ (by simp)
    · rw [fields, String.append_assoc, startOf_append t.home ne, List.foldlM_append, walk]
      exact last

/-- What a text leads to is what a look at it shows, unless it is too long or no text of a path. -/
theorem stamp?_of_leads {s : String} {place : List String} {n : Node} (h : t.Leads s place)
    (there : t.root.descend place = .ok n) {state : Option Nat}
    (look : t.stamp? s = .ok state) : state = some n.stamp := by
  have sound : textProblem? s = none := by
    cases problem : textProblem? s with
    | none => rfl
    | some problem' =>
      have stuck : t.node? s = .error problem' := by
        rw [node?, resolve, problem]
        rfl
      rw [stamp?, stuck] at look
      cases problem' with
      | notFound =>
        exfalso
        rw [textProblem?] at problem
        split at problem
        · cases problem
        · split at problem
          · next empty => exact h.1 (String.isEmpty_iff.1 empty)
          · split at problem <;> cases problem
      | _ => cases look
  have found : t.node? s = .ok n := by
    have resolved : t.resolve s = .ok place := by
      rw [resolve]
      rw [sound]
      exact h.2
    rw [node?, resolved]
    exact there
  rw [stamp?, found] at look
  cases look
  rfl

/-- Names behind a directory lead down to what they name. -/
theorem Leads.foldl_join {s : String} {place names : List String} (h : t.Leads s place)
    (proper : ∀ name ∈ names, IsName name) {n : Node}
    (there : t.root.descend (place ++ names) = .ok n) :
    t.Leads (names.foldl joinText s) (place ++ names) := by
  induction names generalizing s place with
  | nil => simpa using h
  | cons name rest ih =>
    have split : place ++ name :: rest = place ++ [name] ++ rest := by simp
    rw [split] at there ⊢
    obtain ⟨m, first⟩ := Node.exists_descend_of_append there
    exact ih (h.join (proper name List.mem_cons_self) first)
      (fun n hn => proper n (List.mem_cons_of_mem _ hn)) there

/-- A file below a directory, some names further down. -/
structure HasFile (t : FileTree) (directory : String) (names : List String) (content : Content)
    (stamp : Nat) : Prop where
  some : names ≠ []
  found : ∃ n, t.node? directory = .ok n ∧ n.descend names = .ok (.file content stamp)

/-- The path of a file below a directory leads to the file. -/
theorem HasFile.exists_place (sound : t.root.Sound t.clock) {directory : String}
    {names : List String} {content : Content} {stamp : Nat}
    (h : t.HasFile directory names content stamp) : ∃ place,
      t.Leads (names.foldl joinText directory) place ∧
        t.root.descend place = .ok (.file content stamp) := by
  obtain ⟨n, found, file⟩ := h.found
  rw [node?] at found
  obtain ⟨place, resolved, there⟩ := bind_eq_ok found
  have whole : t.root.descend (place ++ names) = .ok (.file content stamp) := by
    rw [Node.descend_append, there]
    exact file
  exact ⟨place ++ names, (leads_of_resolve resolved).foldl_join
    ((sound.below there).isName file) whole, whole⟩

/-- Two walks that come to one path come to one file. -/
theorem HasFile.unique (sound : t.root.Sound t.clock) {directory directory' : String}
    {names names' : List String} {content content' : Content} {stamp stamp' : Nat}
    (h : t.HasFile directory names content stamp) (h' : t.HasFile directory' names' content' stamp')
    (same : names.foldl joinText directory = names'.foldl joinText directory') :
    content = content' ∧ stamp = stamp' := by
  obtain ⟨place, ⟨-, walk⟩, file⟩ := h.exists_place sound
  obtain ⟨place', ⟨-, walk'⟩, file'⟩ := h'.exists_place sound
  rw [same] at walk
  obtain rfl := Except.ok.inj (walk.symm.trans walk')
  exact Node.file.inj (Except.ok.inj (file.symm.trans file'))

end FileTree

namespace Project.Watcher

open Path (joinText waypoints dropLast_waypoints_cons)

theorem mem_stampsIn {directory s : String} {stamp : Nat} {entries : List (String × Node)} :
    (s, stamp) ∈ stampsIn directory entries ↔
      ∃ e ∈ entries, (s, stamp) ∈ stampsOf (joinText directory e.1) e.2 := by
  induction entries with
  | nil => simp [stampsIn]
  | cons e rest ih => simp [stampsIn, ih]

theorem mem_fileStamps {directory s : String} {stamp : Nat} {entries : List (String × Node)}
    (proper : ∀ e ∈ entries, IsName e.1) :
    (s, stamp) ∈ fileStamps directory entries ↔ ∃ name content,
      (name, Node.file content stamp) ∈ entries ∧ s = joinText directory name ∧
        s.toList.getLast? ≠ some '~' := by
  rw [fileStamps, List.mem_filterMap]
  constructor
  · rintro ⟨⟨name, child⟩, inside, told⟩
    cases child with
    | dir => cases told
    | file content st =>
      dsimp only at told
      split at told
      · cases told
      · next lasting =>
        cases told
        refine ⟨name, content, inside, rfl, ?_⟩
        rw [Path.getLast?_joinText (proper _ inside).ne_empty]
        exact lasting
  · rintro ⟨name, content, inside, rfl, lasting⟩
    rw [Path.getLast?_joinText (proper _ inside).ne_empty] at lasting
    exact ⟨_, inside, if_neg lasting⟩

/-- A walk opens a directory, unless its path is too long, and goes on to its entries. -/
theorem mem_stampsOf_dir {path s : String} {stamp st : Nat} {entries : List (String × Node)} :
    (s, stamp) ∈ stampsOf path (.dir entries st) ↔ Path.isTooLong path = false ∧
      ((s, stamp) ∈ fileStamps path entries ∨
        ∃ e ∈ entries, (s, stamp) ∈ stampsOf (joinText path e.1) e.2) := by
  rw [stampsOf, ← mem_stampsIn, ← List.mem_append]
  cases Path.isTooLong path <;> simp

/-- A walk tells of the files below a directory, apart from backups and from what lies behind a path
that is too long to be opened. -/
theorem mem_stampsOf {now : Nat} {path s : String} {stamp : Nat} {n : Node} (sound : n.Sound now) :
    (s, stamp) ∈ stampsOf path n ↔ ∃ names content, names ≠ [] ∧
      n.descend names = .ok (.file content stamp) ∧ s = names.foldl joinText path ∧
      s.toList.getLast? ≠ some '~' ∧
      ∀ passed ∈ path :: (waypoints path names).dropLast, Path.isTooLong passed = false := by
  match n with
  | .file content st =>
    rw [stampsOf]
    constructor
    · intro none
      cases none
    · rintro ⟨names, _, some, found, -⟩
      obtain ⟨name, rest, rfl⟩ := List.exists_cons_of_ne_nil some
      cases found
  | .dir entries st =>
    have proper (e : String × Node) (inside : e ∈ entries) : IsName e.1 :=
      (sound.entries [] rfl e.1 (List.mem_map_of_mem inside)).proper
    have inner (e : String × Node) (inside : e ∈ entries) :=
      @mem_stampsOf now (joinText path e.1) s stamp e.2
        (sound.child (lookup_of_mem (sound.nodup [] rfl) inside))
    rw [mem_stampsOf_dir, mem_fileStamps proper]
    constructor
    · rintro ⟨short, ⟨name, content, inside, rfl, lasting⟩ | ⟨⟨name, child⟩, inside, found⟩⟩
      · exact ⟨[name], content, List.cons_ne_nil _ _, sound.descend_cons_iff.2 ⟨_, inside, rfl⟩,
          rfl, lasting, List.forall_mem_singleton.2 short⟩
      · obtain ⟨names, content, some, there, rfl, lasting, opened⟩ := (inner _ inside).1 found
        refine ⟨name :: names, content, List.cons_ne_nil _ _,
          sound.descend_cons_iff.2 ⟨child, inside, there⟩, rfl, lasting, ?_⟩
        rw [dropLast_waypoints_cons path name some]
        exact List.forall_mem_cons.2 ⟨short, opened⟩
    · rintro ⟨names, content, some, there, rfl, lasting, opened⟩
      obtain ⟨short, opened⟩ := List.forall_mem_cons.1 opened
      obtain ⟨name, rest, rfl⟩ := List.exists_cons_of_ne_nil some
      obtain ⟨child, inside, there⟩ := sound.descend_cons_iff.1 there
      refine ⟨short, ?_⟩
      by_cases last : rest = []
      · subst last
        cases there
        exact .inl ⟨name, content, inside, rfl, lasting⟩
      · rw [dropLast_waypoints_cons path name last] at opened
        exact .inr ⟨_, inside, (inner _ inside).2
          ⟨rest, content, last, there, rfl, lasting, opened⟩⟩
termination_by sizeOf n
decreasing_by exact Node.sizeOf_lt_of_mem inside st

/-- A walk through a directory comes to a file that is no backup. -/
def Shows (t : FileTree) (directory path : String) (stamp : Nat) : Prop :=
  ∃ names content, t.HasFile directory names content stamp ∧ path = names.foldl joinText directory ∧
    path.toList.getLast? ≠ some '~' ∧
    ∀ passed ∈ directory :: (waypoints directory names).dropLast, Path.isTooLong passed = false

theorem shows_iff {t : FileTree} (sound : t.root.Sound t.clock) {directory path : String}
    {stamp : Nat} : Shows t directory path stamp ↔
      ∃ n, t.node? directory = .ok n ∧ (path, stamp) ∈ stampsOf directory n := by
  constructor
  · rintro ⟨names, content, ⟨some, n, found, file⟩, told⟩
    exact ⟨n, found, (mem_stampsOf (sound.below (FileTree.descend_of_node? found))).2
      ⟨names, content, some, file, told⟩⟩
  · rintro ⟨n, found, inside⟩
    obtain ⟨names, content, some, file, told⟩ :=
      (mem_stampsOf (sound.below (FileTree.descend_of_node? found))).1 inside
    exact ⟨names, content, ⟨some, n, found, file⟩, told⟩

theorem mem_stampsBelow {t : FileTree} (sound : t.root.Sound t.clock) {directory path : String}
    {stamps : List (String × Nat)} {stamp : Nat} (below : stampsBelow t directory = .ok stamps) :
    (path, stamp) ∈ stamps ↔ Shows t directory path stamp := by
  rw [shows_iff sound]
  rw [stampsBelow] at below
  cases found : t.node? directory with
  | error problem =>
    have none : stamps = [] := by
      rw [found] at below
      cases problem <;> cases below <;> rfl
    simp [none]
  | ok n =>
    rw [found] at below
    dsimp only at below
    split at below
    · cases below
    · cases below
      simp

/-- A walk fails on a text that is no path and on a file whose path is too long, and else never. -/
theorem exists_stampsBelow_iff {t : FileTree} (sound : t.root.Sound t.clock) {directory : String} :
    (∃ stamps, stampsBelow t directory = .ok stamps) ↔ t.node? directory ≠ .error .zeroInPath ∧
      ∀ path stamp, Shows t directory path stamp → Path.isTooLong path = false := by
  simp only [shows_iff sound, stampsBelow]
  cases found : t.node? directory with
  | error problem => cases problem <;> simp
  | ok n =>
    dsimp only
    split
    · next path stamp long =>
      have excess := List.find?_some long
      dsimp only at excess
      simp only [reduceCtorEq, exists_false, ne_eq, not_false_eq_true, true_and, false_iff]
      intro short
      rw [short path stamp ⟨n, rfl, List.mem_of_find?_eq_some long⟩] at excess
      cases excess
    · next short =>
      refine ⟨fun _ => ⟨by simp, ?_⟩, fun _ => ⟨_, rfl⟩⟩
      rintro path stamp ⟨m, same, told⟩
      obtain rfl := Except.ok.inj same
      simpa using List.find?_eq_none.1 short _ told

/-- What a walk tells of a path is what a look at the path tells. -/
theorem Shows.stamp?_eq {t : FileTree} (sound : t.root.Sound t.clock) {directory path : String}
    {stamp : Nat} (h : Shows t directory path stamp) {state : Option Nat}
    (look : t.stamp? path = .ok state) : state = some stamp := by
  obtain ⟨names, content, file, rfl, -⟩ := h
  obtain ⟨place, leads, there⟩ := file.exists_place sound
  exact FileTree.stamp?_of_leads leads there look

theorem Shows.unique {t : FileTree} (sound : t.root.Sound t.clock)
    {directory directory' path : String} {stamp stamp' : Nat} (h : Shows t directory path stamp)
    (h' : Shows t directory' path stamp') : stamp = stamp' := by
  obtain ⟨names, content, file, same, -⟩ := h
  obtain ⟨names', content', file', same', -⟩ := h'
  exact (file.unique sound file' (same.symm.trans same')).2

end Project.Watcher

end UtilityCss
