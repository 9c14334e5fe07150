import UtilityCss.Proofs.Files.Walk
import UtilityCss.Proofs.Text.Sorted

/-! What a watcher knows of the files it watches, and what it tells of them. -/
namespace UtilityCss.Project.Watcher

variable {tree : FileTree} {w w' : Watcher}

theorem look_eq_ok {snapshot snapshot' : Snapshot} {path : String}
    (h : look tree snapshot path = .ok snapshot') :
    ∃ state, tree.stamp? path = .ok state ∧ snapshot'[path]? = state ∧
      ∀ other, other ≠ path → snapshot'[other]? = snapshot[other]? := by
  rw [look] at h
  cases found : tree.stamp? path with
  | error fault =>
    rw [found] at h
    cases h
  | ok state =>
    rw [found] at h
    refine ⟨state, rfl, ?_⟩
    cases state with
    | some stamp =>
      cases h
      refine ⟨by simp, fun other differs => ?_⟩
      rw [Std.TreeMap.getElem?_insert, if_neg]
      simpa using fun same => differs same.symm
    | none =>
      cases h
      refine ⟨by simp, fun other differs => ?_⟩
      rw [Std.TreeMap.getElem?_erase, if_neg]
      simpa using fun same => differs same.symm

/-- Listed files are noted as they are. -/
theorem foldlM_look_eq_ok {files : List String} {snapshot snapshot' : Snapshot}
    (h : files.foldlM (look tree) snapshot = .ok snapshot') :
    (∀ f ∈ files, ∃ state, tree.stamp? f = .ok state ∧ snapshot'[f]? = state) ∧
      ∀ f, f ∉ files → snapshot'[f]? = snapshot[f]? := by
  induction files generalizing snapshot with
  | nil =>
    cases h
    exact ⟨fun _ none => absurd none List.not_mem_nil, fun _ _ => rfl⟩
  | cons path rest ih =>
    rw [List.foldlM_cons] at h
    cases first : look tree snapshot path with
    | error fault =>
      rw [first] at h
      cases h
    | ok next =>
      rw [first] at h
      obtain ⟨listed, others⟩ := ih h
      obtain ⟨state, stamp, noted, kept⟩ := look_eq_ok first
      refine ⟨fun f hf => ?_, fun f hf => ?_⟩
      · by_cases later : f ∈ rest
        · exact listed f later
        · obtain rfl : f = path := (List.mem_cons.1 hf).resolve_right later
          exact ⟨state, stamp, (others f later).trans noted⟩
      · rw [List.mem_cons, not_or] at hf
        exact (others f hf.2).trans (kept f hf.1)

private theorem foldl_insert {entries : List (String × Nat)} {snapshot : Snapshot} {f : String}
    {state : Option Nat} (known : snapshot[f]? = state)
    (same : ∀ stamp, (f, stamp) ∈ entries → state = some stamp) :
    (entries.foldl (fun s e => s.insert e.1 e.2) snapshot)[f]? = state := by
  induction entries generalizing snapshot with
  | nil => exact known
  | cons e rest ih =>
    obtain ⟨path, stamp⟩ := e
    refine ih ?_ fun stamp' inside => same stamp' (List.mem_cons_of_mem _ inside)
    rw [Std.TreeMap.getElem?_insert]
    split
    · next equal =>
      obtain rfl : path = f := by simpa using equal
      exact (same stamp List.mem_cons_self).symm
    · exact known

private theorem foldl_insert_of_mem {entries : List (String × Nat)} {snapshot : Snapshot}
    {f : String} {stamp : Nat} (inside : (f, stamp) ∈ entries)
    (same : ∀ stamp', (f, stamp') ∈ entries → stamp' = stamp) :
    (entries.foldl (fun s e => s.insert e.1 e.2) snapshot)[f]? = some stamp := by
  obtain ⟨front, behind, rfl⟩ := List.append_of_mem inside
  rw [List.foldl_append, List.foldl_cons]
  refine foldl_insert (Std.TreeMap.getElem?_insert_self ..) fun stamp' later => ?_
  rw [same stamp' (List.mem_append_right _ (List.mem_cons_of_mem _ later))]

/-- A scan notes the listed files and then what the walks through the directories tell. -/
theorem exists_of_scan {snapshot : Snapshot} (h : w.scan tree = .ok snapshot) :
    ∃ listed below, w.files.foldlM (look tree) ∅ = .ok listed ∧
      w.directories.mapM (stampsBelow tree) = .ok below ∧
      snapshot = below.flatten.foldl (fun s e => s.insert e.1 e.2) listed := by
  obtain ⟨listed, looked, h⟩ := bind_eq_ok h
  obtain ⟨below, walked, h⟩ := bind_eq_ok h
  exact ⟨listed, below, looked, walked, (Except.ok.inj h).symm⟩

private theorem mem_flatten_below (sound : tree.root.Sound tree.clock)
    {below : List (List (String × Nat))}
    (walked : w.directories.mapM (stampsBelow tree) = .ok below) {path : String} {stamp : Nat} :
    (path, stamp) ∈ below.flatten ↔ ∃ d ∈ w.directories, Shows tree d path stamp := by
  obtain ⟨back, forth⟩ := mapM_eq_ok walked
  rw [List.mem_flatten]
  constructor
  · rintro ⟨stamps, member, told⟩
    obtain ⟨d, hd, here⟩ := back stamps member
    exact ⟨d, hd, (mem_stampsBelow sound here).1 told⟩
  · rintro ⟨d, hd, shown⟩
    obtain ⟨stamps, member, here⟩ := forth d hd
    exact ⟨stamps, member, (mem_stampsBelow sound here).2 shown⟩

/-- A scan of a sound tree notes every listed file as a look at it shows it. -/
theorem scan_eq_ok (sound : tree.root.Sound tree.clock) {snapshot : Snapshot}
    (h : w.scan tree = .ok snapshot) :
    ∀ f ∈ w.files, ∃ state, tree.stamp? f = .ok state ∧ snapshot[f]? = state := by
  obtain ⟨listed, below, looked, walked, rfl⟩ := exists_of_scan h
  intro f hf
  obtain ⟨state, stamp, known⟩ := (foldlM_look_eq_ok looked).1 f hf
  refine ⟨state, stamp, foldl_insert known fun found inside => ?_⟩
  obtain ⟨d, -, shown⟩ := (mem_flatten_below sound walked).1 inside
  exact shown.stamp?_eq sound stamp

/-- A scan of a sound tree notes every other file as the walks through the directories show it. -/
theorem scan_of_not_listed (sound : tree.root.Sound tree.clock) {snapshot : Snapshot}
    (h : w.scan tree = .ok snapshot) {path : String} (other : path ∉ w.files) {stamp : Nat} :
    snapshot[path]? = some stamp ↔ ∃ d ∈ w.directories, Shows tree d path stamp := by
  obtain ⟨listed, below, looked, walked, rfl⟩ := exists_of_scan h
  have missing : listed[path]? = none :=
    ((foldlM_look_eq_ok looked).2 path other).trans Std.TreeMap.getElem?_emptyc
  rw [← mem_flatten_below sound walked]
  have noted {stamp : Nat} (told : (path, stamp) ∈ below.flatten) :
      (below.flatten.foldl (fun s e => s.insert e.1 e.2) listed)[path]? = some stamp := by
    refine foldl_insert_of_mem told fun stamp' told' => ?_
    obtain ⟨d, -, here⟩ := (mem_flatten_below sound walked).1 told
    obtain ⟨d', -, there⟩ := (mem_flatten_below sound walked).1 told'
    exact there.unique sound here
  refine ⟨fun known => ?_, noted⟩
  obtain ⟨stamp', told⟩ : ∃ stamp', (path, stamp') ∈ below.flatten := by
    by_contra untold
    have none := foldl_insert missing fun stamp' told => absurd ⟨stamp', told⟩ untold
    rw [none] at known
    cases known
  obtain rfl := Option.some.inj ((noted told).symm.trans known)
  exact told

/-- Files that are added are noted as they are, unless they were listed before. -/
theorem addFiles_eq_ok {paths : List String} (h : w.addFiles tree paths = (w', none)) :
    (∀ f ∈ paths, f ∈ w'.files) ∧ (∀ f ∈ w.files, f ∈ w'.files) ∧
      (∀ f ∈ w.files, w'.snapshot[f]? = w.snapshot[f]?) ∧
      ∀ f ∈ w'.files, f ∈ w.files ∨
        ∃ state, tree.stamp? f = .ok state ∧ w'.snapshot[f]? = state := by
  induction paths generalizing w with
  | nil =>
    cases h
    exact ⟨fun _ none => absurd none List.not_mem_nil, fun _ => id, fun _ _ => rfl,
      fun _ => .inl⟩
  | cons path rest ih =>
    rw [addFiles] at h
    split at h
    · next listed =>
      obtain ⟨added, kept, noted, others⟩ := ih h
      refine ⟨fun f hf => ?_, kept, noted, others⟩
      rcases List.mem_cons.1 hf with rfl | later
      · exact kept f (by simpa using listed)
      · exact added f later
    · next new =>
      dsimp only at h
      cases first : look tree w.snapshot path with
      | error fault =>
        rw [first] at h
        cases h
      | ok snapshot =>
        rw [first] at h
        obtain ⟨state, stamp, known, elsewhere⟩ := look_eq_ok first
        obtain ⟨added, kept, noted, others⟩ := ih h
        have own : path ∈ w'.files := kept path (List.mem_append_right _ List.mem_cons_self)
        have fresh : path ∉ w.files := by simpa using new
        refine ⟨fun f hf => ?_, fun f hf => kept f (List.mem_append_left _ hf), fun f hf => ?_,
          fun f hf => ?_⟩
        · rcases List.mem_cons.1 hf with rfl | later
          · exact own
          · exact added f later
        · rw [noted f (List.mem_append_left _ hf)]
          exact elsewhere f fun same => fresh (same ▸ hf)
        · rcases others f hf with before | now
          · rcases List.mem_append.1 before with old | this
            · exact .inl old
            · obtain rfl := List.mem_singleton.1 this
              exact .inr ⟨state, stamp,
                (noted f (List.mem_append_right _ List.mem_cons_self)).trans known⟩
          · exact .inr now

/-- A watcher that starts lists the files and has noted them as they are. -/
theorem start_eq_ok (sound : tree.root.Sound tree.clock) {files directories : List String}
    (h : start tree files directories = .ok w) :
    (∀ f ∈ files, f ∈ w.files) ∧
      ∀ f ∈ w.files, ∃ state, tree.stamp? f = .ok state ∧ w.snapshot[f]? = state := by
  rw [start] at h
  cases added : addFiles tree { directories : Watcher } files with
  | mk listed fault =>
    rw [added] at h
    cases fault with
    | some fault => cases h
    | none =>
      cases scanned : listed.scan tree with
      | error fault =>
        simp only [scanned, bind, Except.bind] at h
        cases h
      | ok snapshot =>
        simp only [scanned, bind, Except.bind] at h
        cases h
        exact ⟨(addFiles_eq_ok added).1, scan_eq_ok sound scanned⟩

/-- A path is told exactly when its state differs. -/
theorem mem_changedPaths {old new : Snapshot} {path : String} :
    path ∈ changedPaths old new ↔ old[path]? ≠ new[path]? := by
  rw [changedPaths, Text.mem_sortedDistinct, List.mem_filter]
  simp only [bne_iff_ne, and_iff_right_iff_imp]
  intro differs
  rw [List.mem_append, Std.TreeMap.mem_keys, Std.TreeMap.mem_keys]
  apply Decidable.byContradiction
  intro none
  rw [not_or] at none
  rw [Std.TreeMap.getElem?_eq_none none.1, Std.TreeMap.getElem?_eq_none none.2] at differs
  exact differs rfl

end UtilityCss.Project.Watcher
