import Mathlib.Data.List.Nodup
import UtilityCss.Proofs.Text.Sorted
import UtilityCss.Utility.Merge

/-! Merging partitions utilities by breakpoint, specificity and declarations. What a group is merged
into depends on the set of its members only, so the order of the utilities decides nothing but the
order of the groups. -/
namespace UtilityCss.Utility

open Text (sortedDistinct sortedDistinct_congr)

/-- What the members of a group share. -/
def groupKey (u : Utility) : String × Int × String := (u.breakpoint, u.specificity, u.css)

theorem sameGroup_iff {u v : Utility} : u.sameGroup v = true ↔ u.groupKey = v.groupKey := by
  simp [sameGroup, groupKey, and_assoc]

/-- The members of a group. -/
def members (g : Utility × List Utility) : List Utility := g.1 :: g.2

/-- How groups partition utilities. -/
structure Partitions (utilities : List Utility) (groups : List (Utility × List Utility)) :
    Prop where
  members_eq : ∀ g ∈ groups, members g = utilities.filter g.1.sameGroup
  covers : ∀ u ∈ utilities, ∃ g ∈ groups, g.1.groupKey = u.groupKey
  nodup_keys : (groups.map fun g => g.1.groupKey).Nodup

private theorem addToGroups_cases (u : Utility) (groups : List (Utility × List Utility)) :
    ((∀ g ∈ groups, g.1.groupKey ≠ u.groupKey) ∧ addToGroups u groups = groups ++ [(u, [])]) ∨
      ∃ front g back, groups = front ++ g :: back ∧ g.1.groupKey = u.groupKey ∧
        addToGroups u groups = front ++ (g.1, g.2 ++ [u]) :: back := by
  induction groups with
  | nil => exact .inl ⟨by simp, rfl⟩
  | cons first rest ih =>
    obtain ⟨head, more⟩ := first
    rw [addToGroups]
    split
    · next same => exact .inr ⟨[], (head, more), rest, rfl, sameGroup_iff.1 same, rfl⟩
    · next other =>
      rcases ih with ⟨none, he⟩ | ⟨front, g, back, rfl, key, he⟩
      · refine .inl ⟨fun g hg => ?_, by rw [he]; rfl⟩
        rcases List.mem_cons.1 hg with rfl | hg
        · exact fun key => other (sameGroup_iff.2 key)
        · exact none g hg
      · exact .inr ⟨(head, more) :: front, g, back, rfl, key, by rw [he]; rfl⟩

private theorem filter_eq_nil_of_new {utilities : List Utility}
    {groups : List (Utility × List Utility)} (h : Partitions utilities groups) {u : Utility}
    (new : ∀ g ∈ groups, g.1.groupKey ≠ u.groupKey) : utilities.filter u.sameGroup = [] := by
  apply List.filter_eq_nil_iff.2
  intro v hv same
  obtain ⟨g, hg, key⟩ := h.covers v hv
  exact new g hg (key.trans (sameGroup_iff.1 same).symm)

private theorem Partitions.add {utilities : List Utility} {groups : List (Utility × List Utility)}
    (h : Partitions utilities groups) (u : Utility) :
    Partitions (utilities ++ [u]) (addToGroups u groups) := by
  rcases addToGroups_cases u groups with ⟨new, he⟩ | ⟨front, g, back, rfl, key, he⟩
  · rw [he]
    refine ⟨fun g hg => ?_, fun v hv => ?_, ?_⟩
    · rcases List.mem_append.1 hg with hg | hg
      · have apart : ¬ g.1.sameGroup u = true := fun same => new g hg (sameGroup_iff.1 same)
        simp [h.members_eq g hg, apart]
      · obtain rfl := List.mem_singleton.1 hg
        have self : u.sameGroup u = true := sameGroup_iff.2 rfl
        simp [members, self, filter_eq_nil_of_new h new]
    · rcases List.mem_append.1 hv with hv | hv
      · obtain ⟨g, hg, hk⟩ := h.covers v hv
        exact ⟨g, by simp [hg], hk⟩
      · obtain rfl := List.mem_singleton.1 hv
        exact ⟨(v, []), by simp, rfl⟩
    · rw [List.map_append, List.nodup_append]
      refine ⟨h.nodup_keys, by simp, fun a ha b hb => ?_⟩
      obtain ⟨g, hg, rfl⟩ := List.mem_map.1 ha
      obtain rfl : b = u.groupKey := by simpa using hb
      exact new g hg
  · rw [he]
    -- The keys of the groups stay as they are, and only the group of `u` gets a member.
    have keys : (front ++ (g.1, g.2 ++ [u]) :: back).map (fun g => g.1.groupKey) =
        (front ++ g :: back).map fun g => g.1.groupKey := by simp
    have distinct := h.nodup_keys
    simp only [List.map_append, List.map_cons, List.nodup_append, List.nodup_cons] at distinct
    obtain ⟨-, ⟨notBack, -⟩, apart⟩ := distinct
    refine ⟨fun k hk => ?_, fun v hv => ?_, keys ▸ h.nodup_keys⟩
    · have other (hmem : k ∈ front ++ g :: back) (ne : k.1.groupKey ≠ g.1.groupKey) :
          members k = (utilities ++ [u]).filter k.1.sameGroup := by
        have hu : ¬ k.1.sameGroup u = true := fun same => ne ((sameGroup_iff.1 same).trans key.symm)
        simp [h.members_eq k hmem, hu]
      rcases List.mem_append.1 hk with hk | hk
      · refine other (by simp [hk]) (apart _ (List.mem_map_of_mem hk) _ ?_)
        simp
      · rcases List.mem_cons.1 hk with rfl | hk
        · have hg := h.members_eq g (by simp)
          have hu : g.1.sameGroup u = true := sameGroup_iff.2 key
          rw [List.filter_append, ← hg]
          simp [members, hu]
        · refine other (by simp [hk]) fun same => notBack (same ▸ ?_)
          exact List.mem_map_of_mem (f := fun g : Utility × List Utility => g.1.groupKey) hk
    · have find (v : Utility) (hv : ∃ g' ∈ front ++ g :: back, g'.1.groupKey = v.groupKey) :
          ∃ g' ∈ front ++ (g.1, g.2 ++ [u]) :: back, g'.1.groupKey = v.groupKey := by
        obtain ⟨g', hg', hk⟩ := hv
        have hm := List.mem_map_of_mem (f := fun g : Utility × List Utility => g.1.groupKey) hg'
        rw [← keys] at hm
        obtain ⟨g'', hg'', same⟩ := List.mem_map.1 hm
        exact ⟨g'', hg'', same.trans hk⟩
      rcases List.mem_append.1 hv with hv | hv
      · exact find v (h.covers v hv)
      · obtain rfl := List.mem_singleton.1 hv
        exact find v ⟨g, by simp, key⟩

private theorem partitions_foldl (utilities done : List Utility)
    (acc : List (Utility × List Utility)) (h : Partitions done acc) :
    Partitions (done ++ utilities) (utilities.foldl (fun acc u => addToGroups u acc) acc) := by
  induction utilities generalizing done acc with
  | nil => simpa using h
  | cons u rest ih => simpa using ih (done ++ [u]) _ (h.add u)

/-- The groups are a partition. -/
theorem partitions_groups (utilities : List Utility) : Partitions utilities (groups utilities) := by
  have start : Partitions [] [] := ⟨by simp, by simp, by simp⟩
  simpa [groups] using partitions_foldl utilities [] [] start

private theorem foldl_min_spec (l : List Utility) (low : Int) :
    (l.foldl (fun low u => min low u.position) low = low ∨
      ∃ u ∈ l, u.position = l.foldl (fun low u => min low u.position) low) ∧
    l.foldl (fun low u => min low u.position) low ≤ low ∧
    ∀ u ∈ l, l.foldl (fun low u => min low u.position) low ≤ u.position := by
  induction l generalizing low with
  | nil => simp
  | cons v rest ih =>
    obtain ⟨attained, below, all⟩ := ih (min low v.position)
    rw [List.foldl_cons]
    refine ⟨?_, by omega, fun u hu => ?_⟩
    · rcases attained with he | ⟨u, hu, he⟩
      · rcases Int.le_total low v.position with hle | hle
        · exact .inl (by omega)
        · exact .inr ⟨v, by simp, by omega⟩
      · exact .inr ⟨u, by simp [hu], he⟩
    · rcases List.mem_cons.1 hu with rfl | hu
      · omega
      · exact all u hu

theorem mergeGroup_position_mem (g : Utility × List Utility) :
    ∃ u ∈ members g, u.position = (mergeGroup g).position := by
  rcases (foldl_min_spec g.2 g.1.position).1 with he | ⟨u, hu, he⟩
  · exact ⟨g.1, by simp [members], he.symm⟩
  · exact ⟨u, by simp [members, hu], he⟩

theorem mergeGroup_position_le {g : Utility × List Utility} {u : Utility} (h : u ∈ members g) :
    (mergeGroup g).position ≤ u.position := by
  rcases List.mem_cons.1 h with rfl | h
  · exact (foldl_min_spec g.2 g.1.position).2.1
  · exact (foldl_min_spec g.2 g.1.position).2.2 u h

@[simp] theorem groupKey_mergeGroup (g : Utility × List Utility) :
    (mergeGroup g).groupKey = g.1.groupKey := rfl

/-- A group is merged into the same utility whatever the order of its members, their repetitions
and the first of them are. -/
theorem mergeGroup_congr {g g' : Utility × List Utility} (key : g.1.groupKey = g'.1.groupKey)
    (h : ∀ u, u ∈ members g ↔ u ∈ members g') : mergeGroup g = mergeGroup g' := by
  have selectors : sortedDistinct ((members g).map (·.selector)) =
      sortedDistinct ((members g').map (·.selector)) :=
    sortedDistinct_congr fun s => by simp only [List.mem_map, h]
  have siblings : sortedDistinct ((members g).filterMap realSibling?) =
      sortedDistinct ((members g').filterMap realSibling?) :=
    sortedDistinct_congr fun s => by simp only [List.mem_filterMap, h]
  have position : (mergeGroup g).position = (mergeGroup g').position := by
    obtain ⟨u, hu, he⟩ := mergeGroup_position_mem g
    obtain ⟨u', hu', he'⟩ := mergeGroup_position_mem g'
    have := mergeGroup_position_le ((h u').2 hu')
    have := mergeGroup_position_le ((h u).1 hu)
    omega
  obtain ⟨hb, hs, hc⟩ : g.1.breakpoint = g'.1.breakpoint ∧ g.1.specificity = g'.1.specificity ∧
      g.1.css = g'.1.css := by simpa [groupKey] using key
  simp only [mergeGroup, members] at selectors siblings position ⊢
  simp only [selectors, siblings, position, hb, hs, hc]

theorem nodup_keys_merge (utilities : List Utility) :
    ((merge utilities).map groupKey).Nodup := by
  have h := (partitions_groups utilities).nodup_keys
  simpa [merge, Function.comp_def] using h

/-- Merged utilities with one key are one utility. -/
theorem eq_of_mem_merge {utilities : List Utility} {m m' : Utility} (hm : m ∈ merge utilities)
    (hm' : m' ∈ merge utilities) (key : m.groupKey = m'.groupKey) : m = m' :=
  List.inj_on_of_nodup_map (nodup_keys_merge utilities) hm hm' key

/-- A merged utility lies where the first rule of its group lies. -/
theorem exists_lowest_of_mem_merge {utilities : List Utility} {m : Utility}
    (h : m ∈ merge utilities) :
    ∃ u ∈ utilities, u.groupKey = m.groupKey ∧ u.position = m.position := by
  obtain ⟨g, hg, rfl⟩ := List.mem_map.1 h
  obtain ⟨u, hu, he⟩ := mergeGroup_position_mem g
  rw [(partitions_groups utilities).members_eq g hg, List.mem_filter] at hu
  exact ⟨u, hu.1, (sameGroup_iff.1 hu.2).symm, he⟩

private theorem merge_subset_of_same {utilities others : List Utility}
    (h : ∀ u, u ∈ utilities ↔ u ∈ others) {m : Utility} (hm : m ∈ merge utilities) :
    m ∈ merge others := by
  obtain ⟨g, hg, rfl⟩ := List.mem_map.1 hm
  have here := (partitions_groups utilities).members_eq g hg
  have head : g.1 ∈ utilities := by
    have : g.1 ∈ members g := by simp [members]
    rw [here, List.mem_filter] at this
    exact this.1
  obtain ⟨g', hg', key⟩ := (partitions_groups others).covers g.1 ((h g.1).1 head)
  have there := (partitions_groups others).members_eq g' hg'
  refine List.mem_map.2 ⟨g', hg', mergeGroup_congr key fun u => ?_⟩
  rw [here, there, List.mem_filter, List.mem_filter, sameGroup_iff, sameGroup_iff, key, h]

/-- What is merged depends on which utilities there are, up to the order of the groups. -/
theorem merge_perm {utilities others : List Utility} (h : ∀ u, u ∈ utilities ↔ u ∈ others) :
    (merge utilities).Perm (merge others) := by
  have nodup (l : List Utility) : (merge l).Nodup := List.Nodup.of_map groupKey (nodup_keys_merge l)
  refine (List.perm_ext_iff_of_nodup (nodup utilities) (nodup others)).2 fun m => ⟨?_, ?_⟩
  · exact merge_subset_of_same h
  · exact merge_subset_of_same fun u => (h u).symm

end UtilityCss.Utility
