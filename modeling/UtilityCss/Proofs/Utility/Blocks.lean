import UtilityCss.Proofs.Utility.ScanOrder

/-! The blocks of a layer. Utilities of one group share a block, and a block is written by its
specificity first and then by the first rule of its group. -/
namespace UtilityCss

namespace Utility

open Text (sortedDistinct sortedDistinct_congr mem_sortedDistinct pairwise_sortedDistinct)

variable {utilities others : List Utility} {u v m : Utility}

/-- The block of a utility: its whole group in one. -/
def blockOf (utilities : List Utility) (u : Utility) : Utility :=
  mergeGroup (u, utilities.filter u.sameGroup)

/-- The selectors of the block of a utility. -/
def selectorsOf (utilities : List Utility) (u : Utility) : List String :=
  sortedDistinct ((utilities.filter u.sameGroup).map (·.selector))

@[simp] theorem groupKey_blockOf : (blockOf utilities u).groupKey = u.groupKey := rfl

@[simp] theorem breakpoint_blockOf : (blockOf utilities u).breakpoint = u.breakpoint := rfl

@[simp] theorem specificity_blockOf : (blockOf utilities u).specificity = u.specificity := rfl

@[simp] theorem css_blockOf : (blockOf utilities u).css = u.css := rfl

private theorem mem_members_blockOf (hu : u ∈ utilities) :
    v ∈ members (u, utilities.filter u.sameGroup) ↔ v ∈ utilities ∧ v.groupKey = u.groupKey := by
  rw [members, List.mem_cons, List.mem_filter, sameGroup_iff, eq_comm (a := u.groupKey)]
  constructor
  · rintro (rfl | h)
    · exact ⟨hu, rfl⟩
    · exact h
  · exact .inr

theorem selector_blockOf (hu : u ∈ utilities) :
    (blockOf utilities u).selector = String.intercalate "," (selectorsOf utilities u) := by
  refine congrArg (String.intercalate ",") (sortedDistinct_congr fun s => ?_)
  rw [List.mem_map, List.mem_map]
  refine exists_congr fun v => and_congr_left fun _ => ?_
  rw [List.mem_filter, sameGroup_iff, eq_comm (a := u.groupKey)]
  exact mem_members_blockOf hu

/-- A block has the selectors of its group. -/
theorem mem_selectorsOf {selector : String} : selector ∈ selectorsOf utilities u ↔
    ∃ v ∈ utilities, v.groupKey = u.groupKey ∧ v.selector = selector := by
  rw [selectorsOf, mem_sortedDistinct, List.mem_map]
  refine exists_congr fun v => ?_
  rw [List.mem_filter, sameGroup_iff, eq_comm (a := u.groupKey), and_assoc]

/-- The siblings of a group. -/
def siblingsOf (utilities : List Utility) (key : String × Int × String) : List String :=
  sortedDistinct ((utilities.filter (·.groupKey == key)).filterMap realSibling?)

theorem mem_siblingsOf {key : String × Int × String} {s : String} :
    s ∈ siblingsOf utilities key ↔ ∃ v ∈ utilities, v.groupKey = key ∧ v.realSibling? = some s := by
  rw [siblingsOf, mem_sortedDistinct, List.mem_filterMap]
  simp only [List.mem_filter, beq_iff_eq, and_assoc]

theorem realSibling?_ne_empty {s : String} (h : u.realSibling? = some s) : s ≠ "" := by
  have filled := (Option.filter_eq_some_iff.1 h).2
  rintro rfl
  cases filled

/-- What is written behind a block are the siblings of its group, if there are any. -/
theorem realSibling?_blockOf (hu : u ∈ utilities) : (blockOf utilities u).realSibling? =
    if siblingsOf utilities u.groupKey = [] then none
    else some (String.join (siblingsOf utilities u.groupKey)) := by
  have same : sortedDistinct ((members (u, utilities.filter u.sameGroup)).filterMap realSibling?) =
      siblingsOf utilities u.groupKey := by
    refine sortedDistinct_congr fun s => ?_
    rw [List.mem_filterMap, List.mem_filterMap]
    simp only [mem_members_blockOf hu, List.mem_filter, beq_iff_eq]
  have empty : (String.join (siblingsOf utilities u.groupKey)).isEmpty = true ↔
      siblingsOf utilities u.groupKey = [] := by
    cases listed : siblingsOf utilities u.groupKey with
    | nil => exact iff_of_true rfl rfl
    | cons s rest =>
      have inside : s ∈ siblingsOf utilities u.groupKey := listed ▸ List.mem_cons_self
      obtain ⟨v, -, -, own⟩ := mem_siblingsOf.1 inside
      refine iff_of_false (fun none => ?_) (List.cons_ne_nil s rest)
      rw [String.isEmpty_iff, String.join_cons, String.append_eq_empty_iff] at none
      exact realSibling?_ne_empty own none.1
  rw [realSibling?, blockOf, mergeGroup]
  rw [members] at same
  dsimp only
  rw [same]
  by_cases none : siblingsOf utilities u.groupKey = []
  · rw [if_pos (empty.2 none), if_pos none, Option.filter_none]
  · rw [if_neg (mt empty.1 none), if_neg none, Option.filter_some]
    simp [mt empty.1 none]

theorem exists_siblings_blockOf (hu : u ∈ utilities) {text : String}
    (h : (blockOf utilities u).realSibling? = some text) :
    ∃ siblings : List String, text = String.join siblings ∧ siblings.Pairwise (· < ·) ∧
      ∀ s, s ∈ siblings ↔
        ∃ v ∈ utilities, v.groupKey = u.groupKey ∧ v.realSibling? = some s := by
  refine ⟨siblingsOf utilities u.groupKey, ?_, pairwise_sortedDistinct _, fun s => mem_siblingsOf⟩
  rw [realSibling?_blockOf hu] at h
  split at h
  · cases h
  · exact (Option.some.inj h).symm

theorem position_blockOf_le (hu : u ∈ utilities) (hv : v ∈ utilities)
    (key : v.groupKey = u.groupKey) : (blockOf utilities u).position ≤ v.position :=
  mergeGroup_position_le ((mem_members_blockOf hu).2 ⟨hv, key⟩)

/-- A block lies where the rule of one of its utilities lies. -/
theorem exists_position_blockOf (hu : u ∈ utilities) :
    ∃ v ∈ utilities, v.groupKey = u.groupKey ∧ v.position = (blockOf utilities u).position := by
  obtain ⟨v, hv, low⟩ := mergeGroup_position_mem (u, utilities.filter u.sameGroup)
  obtain ⟨inside, key⟩ := (mem_members_blockOf hu).1 hv
  exact ⟨v, inside, key, low⟩

/-- What is merged are the blocks. -/
theorem mem_merge_iff : m ∈ merge utilities ↔ ∃ u ∈ utilities, m = blockOf utilities u := by
  have found {g : Utility × List Utility} (hg : g ∈ groups utilities) {u : Utility}
      (hu : u ∈ utilities) (key : g.1.groupKey = u.groupKey) :
      mergeGroup g = blockOf utilities u := by
    apply mergeGroup_congr key
    intro v
    rw [(partitions_groups utilities).members_eq g hg, mem_members_blockOf hu, List.mem_filter,
      sameGroup_iff, key, eq_comm]
  constructor
  · intro h
    obtain ⟨g, hg, rfl⟩ := List.mem_map.1 h
    have head : g.1 ∈ utilities.filter g.1.sameGroup := by
      rw [← (partitions_groups utilities).members_eq g hg]
      exact List.mem_cons_self
    have inside := (List.mem_filter.1 head).1
    exact ⟨g.1, inside, found hg inside rfl⟩
  · rintro ⟨u, hu, rfl⟩
    obtain ⟨g, hg, key⟩ := (partitions_groups utilities).covers u hu
    exact List.mem_map.2 ⟨g, hg, found hg hu key⟩

theorem before_iff {a b : Utility × Nat} : before a b ↔ a.1.specificity < b.1.specificity ∨
    a.1.specificity = b.1.specificity ∧ (a.1.position < b.1.position ∨
      a.1.position = b.1.position ∧ a.2 ≤ b.2) := by
  rw [before]
  split
  · simp only [decide_eq_true_eq]
    omega
  · split
    · simp only [decide_eq_true_eq]
      omega
    · simp only [decide_eq_true_eq]
      omega

/-- Every rule is written on a line of its own. -/
theorem blocks_sublist_bucketLines (written : List String) (utilities : List Utility) :
    (utilities.map fun u => (u.breakpoint, u.block)).Sublist (bucketLines written utilities) := by
  induction utilities generalizing written with
  | nil => exact .slnil
  | cons u rest ih =>
    rw [List.map_cons, bucketLines]
    split
    · exact (ih written).cons_cons _
    · next s _ =>
      split
      · exact (ih written).cons_cons _
      · exact ((ih (s :: written)).cons _).cons_cons _

end Utility

namespace Text

variable {a b : String} {pieces : List String}

private theorem intercalate_cons_eq (mark a : String) (pieces : List String) :
    ∃ gap, mark.intercalate (a :: pieces) = a ++ gap ++ mark.intercalate pieces := by
  cases pieces with
  | nil => exact ⟨"", by simp⟩
  | cons b rest => exact ⟨mark, String.intercalate_cons_cons⟩

theorem exists_intercalate_of_mem (mark : String) (h : a ∈ pieces) :
    ∃ front behind, mark.intercalate pieces = front ++ a ++ behind := by
  induction pieces with
  | nil => cases h
  | cons p rest ih =>
    obtain ⟨gap, he⟩ := intercalate_cons_eq mark p rest
    rcases List.mem_cons.1 h with rfl | h
    · exact ⟨"", gap ++ mark.intercalate rest, by rw [he, String.empty_append, String.append_assoc]⟩
    · obtain ⟨front, behind, hr⟩ := ih h
      exact ⟨p ++ gap ++ front, behind, by simp only [he, hr, String.append_assoc]⟩

/-- Pieces stand in the text in their order. -/
theorem exists_intercalate_of_sublist (mark : String) (h : [a, b].Sublist pieces) :
    ∃ front between behind, mark.intercalate pieces = front ++ a ++ between ++ b ++ behind := by
  induction pieces with
  | nil => cases h
  | cons p rest ih =>
    obtain ⟨gap, he⟩ := intercalate_cons_eq mark p rest
    cases h with
    | cons _ h =>
      obtain ⟨front, between, behind, hr⟩ := ih h
      exact ⟨p ++ gap ++ front, between, behind, by simp only [he, hr, String.append_assoc]⟩
    | cons_cons _ h =>
      obtain ⟨front, behind, hr⟩ := exists_intercalate_of_mem mark
        (List.singleton_sublist.1 h)
      refine ⟨"", gap ++ front, behind, ?_⟩
      simp only [he, hr, String.append_assoc, String.empty_append]

end Text

namespace Layer

open Utility

variable {layer : Layer} {u v : Utility}

/-- The blocks in the order in which they are written. -/
def blocks (layer : Layer) : List Utility :=
  (((merge layer.utilities).map (withRank (bucketOrder layer.breakpoints))).mergeSort before).map
    (·.1)

theorem arranged_utilities (layer : Layer) :
    arranged layer.utilities layer.breakpoints = .ok layer.blocks := by
  rw [arranged, ranked_eq_map (merge_known layer.known)]
  rfl

/-- The text of a layer, written from its blocks. -/
theorem text_eq (layer : Layer) : layer.text = "@layer utilities\x7b" ++ String.intercalate "\n"
    ((bucketOrder layer.breakpoints).filterMap
      (bucketText layer.breakpoints (bucketLines [] layer.blocks))) ++ "\x7d" := by
  have h := layer.render_utilities
  rw [render, arranged_utilities] at h
  exact (Except.ok.inj h).symm

theorem mem_blocks {m : Utility} :
    m ∈ layer.blocks ↔ ∃ u ∈ layer.utilities, m = blockOf layer.utilities u := by
  rw [← mem_merge_iff, blocks]
  simp [withRank]

/-- The block of one utility is written before the block of another one. -/
def WritesBefore (layer : Layer) (u v : Utility) : Prop :=
  [blockOf layer.utilities u, blockOf layer.utilities v].Sublist layer.blocks

/-- Each group has one block. -/
theorem nodup_keys_blocks (layer : Layer) : (layer.blocks.map groupKey).Nodup := by
  have listed : ((merge layer.utilities).map (withRank (bucketOrder layer.breakpoints))).map (·.1) =
      merge layer.utilities := by simp [withRank, Function.comp_def]
  have same := (List.mergeSort_perm ((merge layer.utilities).map
    (withRank (bucketOrder layer.breakpoints))) before).map (·.1)
  rw [listed] at same
  exact (same.map groupKey).nodup_iff.2 (nodup_keys_merge layer.utilities)

theorem nodup_blocks (layer : Layer) : layer.blocks.Nodup :=
  layer.nodup_keys_blocks.of_map _

private theorem not_sublist_of_nodup {a b : Utility} {blocks : List Utility} (nodup : blocks.Nodup)
    (h : [a, b].Sublist blocks) : ¬ [b, a].Sublist blocks := by
  induction blocks with
  | nil => cases h
  | cons m rest ih =>
    obtain ⟨once, nodup⟩ := List.nodup_cons.1 nodup
    intro h'
    cases h with
    | cons _ h =>
      cases h' with
      | cons _ h' => exact ih nodup h h'
      | cons_cons _ _ => exact once (h.subset (by simp))
    | cons_cons _ h =>
      cases h' with
      | cons _ h' => exact once (h'.subset (by simp))
      | cons_cons _ _ => exact once (List.singleton_sublist.1 h)

/-- No two blocks are each before the other. -/
theorem WritesBefore.asymm (h : layer.WritesBefore u v) : ¬ layer.WritesBefore v u :=
  not_sublist_of_nodup layer.nodup_blocks h

/-- The lines of a bucket. -/
def lines (layer : Layer) (breakpoint : String) : List String :=
  (bucketLines [] layer.blocks).filterMap fun l => if l.1 = breakpoint then some l.2 else none

theorem block_mem_lines (hu : u ∈ layer.utilities) :
    (blockOf layer.utilities u).block ∈ layer.lines u.breakpoint := by
  have inside := List.mem_map_of_mem (f := fun m : Utility => (m.breakpoint, m.block))
    (mem_blocks.2 ⟨u, hu, rfl⟩)
  exact List.mem_filterMap.2
    ⟨_, (blocks_sublist_bucketLines [] layer.blocks).subset inside, if_pos rfl⟩

/-- The lines of a bucket stand in the text one behind the other. -/
theorem exists_text_lines (hu : u ∈ layer.utilities) : ∃ front behind,
    layer.text = front ++ "\n".intercalate (layer.lines u.breakpoint) ++ behind := by
  obtain ⟨before, after, written⟩ : ∃ before after,
      bucketText layer.breakpoints (bucketLines [] layer.blocks) u.breakpoint =
        some (before ++ "\n".intercalate (layer.lines u.breakpoint) ++ after) := by
    have filled := List.ne_nil_of_mem (block_mem_lines hu)
    rw [lines] at filled ⊢
    rw [bucketText, if_neg (by simpa using filled)]
    split
    · exact ⟨"", "", by rw [String.empty_append, String.append_empty]⟩
    · exact ⟨_, "\x7d", rfl⟩
  obtain ⟨start, rest, text⟩ := Text.exists_intercalate_of_mem "\n"
    (List.mem_filterMap.2 ⟨_, layer.known u hu, written⟩)
  refine ⟨"@layer utilities\x7b" ++ (start ++ before), after ++ (rest ++ "\x7d"), ?_⟩
  rw [Layer.text_eq, text]
  simp only [String.append_assoc]

/-- Blocks of one bucket stand in the text in the order of the blocks. -/
theorem WritesBefore.text_eq (h : layer.WritesBefore u v) (hu : u ∈ layer.utilities)
    (bucket : u.breakpoint = v.breakpoint) :
    ∃ front between behind, layer.text = front ++ (blockOf layer.utilities u).block ++ between ++
      (blockOf layer.utilities v).block ++ behind := by
  have lines : [(blockOf layer.utilities u).block, (blockOf layer.utilities v).block].Sublist
      (layer.lines u.breakpoint) := by
    have all := (h.map _).trans (blocks_sublist_bucketLines [] layer.blocks)
    have own := all.filterMap fun l => if l.1 = u.breakpoint then some l.2 else none
    simpa [← bucket, Layer.lines] using own
  obtain ⟨front, between, behind, body⟩ := Text.exists_intercalate_of_sublist "\n" lines
  obtain ⟨start, rest, text⟩ := exists_text_lines hu
  refine ⟨start ++ front, between, behind ++ rest, ?_⟩
  rw [text, body]
  simp only [String.append_assoc]

theorem blocks_sorted (layer : Layer) : layer.blocks.Pairwise fun m m' =>
    before (withRank (bucketOrder layer.breakpoints) m)
      (withRank (bucketOrder layer.breakpoints) m') := by
  rw [blocks, List.pairwise_map]
  refine List.Pairwise.imp_of_mem ?_ (List.pairwise_mergeSort before_trans before_total _)
  intro a b ha hb hab
  obtain ⟨m, -, rfl⟩ := List.mem_map.1 (List.mem_mergeSort.1 ha)
  obtain ⟨m', -, rfl⟩ := List.mem_map.1 (List.mem_mergeSort.1 hb)
  exact hab

private theorem writesBefore_of_not_before (hu : u ∈ layer.utilities) (hv : v ∈ layer.utilities)
    (h : ¬ before (withRank (bucketOrder layer.breakpoints) (blockOf layer.utilities v))
      (withRank (bucketOrder layer.breakpoints) (blockOf layer.utilities u))) :
    layer.WritesBefore u v := by
  have inU := mem_blocks.2 ⟨u, hu, rfl⟩
  have inV := mem_blocks.2 ⟨v, hv, rfl⟩
  obtain ⟨front, behind, split⟩ := List.append_of_mem inU
  have sorted := layer.blocks_sorted
  rw [WritesBefore, split]
  rw [split] at sorted inV
  rcases List.mem_append.1 inV with hf | hb
  · exact absurd ((List.pairwise_append.1 sorted).2.2 _ hf _ List.mem_cons_self) h
  · rcases List.mem_cons.1 hb with same | hb
    · -- No utility stands before itself, so the two blocks are not one.
      have self := before_total (withRank (bucketOrder layer.breakpoints)
        (blockOf layer.utilities u)) (withRank (bucketOrder layer.breakpoints)
        (blockOf layer.utilities u))
      rw [Bool.or_self] at self
      exact absurd self (same ▸ h)
    · exact ((List.singleton_sublist.2 hb).cons_cons _).trans (List.sublist_append_right _ _)

/-- A lower specificity is written first. -/
theorem writesBefore_of_specificity (hu : u ∈ layer.utilities) (hv : v ∈ layer.utilities)
    (h : u.specificity < v.specificity) : layer.WritesBefore u v := by
  apply writesBefore_of_not_before hu hv
  rw [before_iff]
  simp only [withRank, specificity_blockOf]
  omega

/-- At one specificity the block that lies first in the table is written first. -/
theorem writesBefore_of_position (hu : u ∈ layer.utilities) (hv : v ∈ layer.utilities)
    (tie : u.specificity = v.specificity)
    (h : (blockOf layer.utilities u).position < (blockOf layer.utilities v).position) :
    layer.WritesBefore u v := by
  apply writesBefore_of_not_before hu hv
  rw [before_iff]
  simp only [withRank, specificity_blockOf]
  omega

theorem WritesBefore.position_le (h : layer.WritesBefore u v)
    (tie : u.specificity = v.specificity) :
    (blockOf layer.utilities u).position ≤ (blockOf layer.utilities v).position := by
  have ordered := List.pairwise_iff_forall_sublist.1 layer.blocks_sorted h
  rw [before_iff] at ordered
  simp only [withRank, specificity_blockOf] at ordered
  omega

theorem mem_afterScans {table : RuleTable} {breakpoints : Breakpoints}
    {scans : List (List String)} :
    u ∈ (afterScans table breakpoints scans).utilities ↔
      ∃ c ∈ candidates scans, resolve? table breakpoints c = some u :=
  (collected_afterScans table breakpoints scans).mem_utilities u

theorem resolved_afterScans {table : RuleTable} {breakpoints : Breakpoints}
    (scans : List (List String)) :
    ∀ u ∈ (afterScans table breakpoints scans).utilities, IsResolved table breakpoints u :=
  fun _ hu => (mem_afterScans.1 hu).imp fun _ hc => hc.2

/-- A block of the layer has this breakpoint, this selector and these declarations. -/
def Writes (layer : Layer) (breakpoint selector css : String) : Prop :=
  ∃ m ∈ layer.blocks, m.breakpoint = breakpoint ∧ m.css = css ∧
    selector ∈ selectorsOf layer.utilities m

theorem writes_iff {breakpoint selector css : String} : layer.Writes breakpoint selector css ↔
    ∃ u ∈ layer.utilities, u.breakpoint = breakpoint ∧ u.css = css ∧ u.selector = selector := by
  constructor
  · rintro ⟨m, -, rfl, rfl, inside⟩
    obtain ⟨v, hv, key, rfl⟩ := mem_selectorsOf.1 inside
    simp only [groupKey, Prod.mk.injEq] at key
    exact ⟨v, hv, key.1, key.2.2, rfl⟩
  · rintro ⟨u, hu, rfl, rfl, rfl⟩
    exact ⟨_, mem_blocks.2 ⟨u, hu, rfl⟩, rfl, rfl, mem_selectorsOf.2 ⟨u, hu, rfl, rfl⟩⟩

/-- What a layer writes stands in its text. -/
theorem Writes.text_eq {breakpoint selector css : String}
    (h : layer.Writes breakpoint selector css) :
    ∃ selectors front behind, selector ∈ selectors ∧ layer.text =
      front ++ (String.intercalate "," selectors ++ "\x7b" ++ css ++ "\x7d") ++ behind := by
  obtain ⟨u, hu, rfl, rfl, rfl⟩ := writes_iff.1 h
  obtain ⟨front, behind, body⟩ := Text.exists_intercalate_of_mem "\n" (block_mem_lines hu)
  obtain ⟨start, rest, text⟩ := exists_text_lines hu
  refine ⟨selectorsOf layer.utilities u, start ++ front, behind ++ rest,
    mem_selectorsOf.2 ⟨u, hu, rfl, rfl⟩, ?_⟩
  rw [text, body, block, selector_blockOf hu, css_blockOf]
  simp only [String.append_assoc]

/-- Scanning more sources takes nothing back. -/
theorem Writes.update {breakpoint selector css : String}
    (h : layer.Writes breakpoint selector css) (table : RuleTable) (sources : List String) :
    (layer.update table sources).Writes breakpoint selector css := by
  have grown (candidates : List String) (layer : Layer) :
      layer.utilities ⊆ (candidates.foldl (addCandidate table) layer).utilities := by
    induction candidates generalizing layer with
    | nil => exact List.Subset.refl _
    | cons c rest ih =>
      refine List.Subset.trans ?_ (ih (layer.addCandidate table c))
      rw [utilities_addCandidate]
      exact List.subset_append_left _ _
  obtain ⟨u, hu, same⟩ := writes_iff.1 h
  exact writes_iff.2 ⟨u, grown _ layer hu, same⟩

end Layer

end UtilityCss
