import Mathlib.Data.List.Dedup
import UtilityCss.Proofs.Utility.Buckets

/-! How often siblings are written. The siblings of a group are written as one text, and no such
text is written twice; so a sibling is written once for every list of siblings that it belongs
to. -/
namespace UtilityCss

open Utility

/-- The lists of siblings that are written behind the rules of a layer, each as one text. -/
def writtenLists (utilities : List Utility) (breakpoints : Breakpoints)
    (rules : String → List StyleRule) : List (List String) :=
  (bucketOrder breakpoints).flatMap fun name =>
    (rules name).filterMap fun r => r.sibling.map fun _ => siblingsOf utilities (name, r.key)

/-- The lists of siblings of the groups, without repetitions. -/
def siblingLists (utilities : List Utility) : List (List String) :=
  (utilities.map fun u => siblingsOf utilities u.groupKey).dedup

theorem nodup_siblingLists (utilities : List Utility) : (siblingLists utilities).Nodup :=
  List.nodup_dedup _

theorem mem_siblingLists {utilities : List Utility} {siblings : List String} :
    siblings ∈ siblingLists utilities ↔
      ∃ u ∈ utilities, siblingsOf utilities u.groupKey = siblings :=
  List.mem_dedup.trans List.mem_map

/-- Groups whose siblings make up one text have the same siblings. -/
def Unambiguous (utilities : List Utility) : Prop :=
  ∀ u ∈ utilities, ∀ v ∈ utilities,
    String.join (siblingsOf utilities u.groupKey) = String.join (siblingsOf utilities v.groupKey) →
      siblingsOf utilities u.groupKey = siblingsOf utilities v.groupKey

/-- Texts of which none is the beginning of another one are found in what they are joined to. -/
private theorem join_injective {a b : List String} (filled : ∀ s ∈ a ++ b, s ≠ "")
    (apart : ∀ s ∈ a, ∀ t ∈ b, s.toList <+: t.toList ∨ t.toList <+: s.toList → s = t)
    (same : String.join a = String.join b) : a = b := by
  induction a generalizing b with
  | nil =>
    cases b with
    | nil => rfl
    | cons t rest =>
      rw [String.join_nil, String.join_cons, eq_comm, String.append_eq_empty_iff] at same
      exact absurd same.1 (filled t List.mem_cons_self)
  | cons s more ih =>
    cases b with
    | nil =>
      rw [String.join_nil, String.join_cons, String.append_eq_empty_iff] at same
      exact absurd same.1 (filled s List.mem_cons_self)
    | cons t rest =>
      have text := congrArg String.toList same
      rw [String.join_cons, String.join_cons, String.toList_append, String.toList_append] at text
      have beginning : t.toList <+: s.toList ++ (String.join more).toList :=
        ⟨(String.join rest).toList, text.symm⟩
      obtain rfl : s = t := apart s List.mem_cons_self t List.mem_cons_self
        (List.prefix_or_prefix_of_prefix (List.prefix_append _ _) beginning)
      refine congrArg (s :: ·) (ih (fun r hr => filled r ?_) (fun r hr q hq => ?_) ?_)
      · rcases List.mem_append.1 hr with here | there
        · simp [here]
        · simp [there]
      · exact apart r (List.mem_cons_of_mem _ hr) q (List.mem_cons_of_mem _ hq)
      · exact String.toList_inj.1 (List.append_cancel_left text)

/-- No text is ambiguous if no sibling is the beginning of another one. -/
theorem unambiguous_of_prefixFree {utilities : List Utility}
    (apart : ∀ u ∈ utilities, ∀ v ∈ utilities, ∀ s t, u.realSibling? = some s →
      v.realSibling? = some t → s.toList <+: t.toList → s = t) : Unambiguous utilities := by
  intro u _ v _ same
  have carried {w : Utility} {s : String} (h : s ∈ siblingsOf utilities w.groupKey) :
      ∃ w' ∈ utilities, w'.realSibling? = some s := by
    obtain ⟨w', hw, -, own⟩ := mem_siblingsOf.1 h
    exact ⟨w', hw, own⟩
  refine join_injective (fun s hs => ?_) (fun s hs t ht beginning => ?_) same
  · rcases List.mem_append.1 hs with here | there
    · obtain ⟨w, -, own⟩ := carried here
      exact realSibling?_ne_empty own
    · obtain ⟨w, -, own⟩ := carried there
      exact realSibling?_ne_empty own
  · obtain ⟨w, hw, own⟩ := carried hs
    obtain ⟨w', hw', own'⟩ := carried ht
    rcases beginning with before | before
    · exact apart w hw w' hw' s t own own' before
    · exact (apart w' hw' w hw t s own' own before).symm

namespace Utility

variable {utilities : List Utility}

/-- No text is written twice, and none that was written before. -/
private theorem nodup_withSiblings (written : List String) (utilities : List Utility) :
    ((withSiblings written utilities).filterMap (·.2)).Nodup ∧
      ∀ text ∈ (withSiblings written utilities).filterMap (·.2), text ∉ written := by
  induction utilities generalizing written with
  | nil => exact ⟨.nil, List.forall_mem_nil _⟩
  | cons u rest ih =>
    rw [withSiblings]
    split
    · exact ih written
    · next s own =>
      split
      · exact ih written
      · next fresh =>
        obtain ⟨nodup, apart⟩ := ih (s :: written)
        simp only [List.filterMap_cons]
        refine ⟨List.nodup_cons.2 ⟨fun again => apart s again List.mem_cons_self, nodup⟩, ?_⟩
        refine List.forall_mem_cons.2 ⟨by simpa using fresh, fun text later before => ?_⟩
        exact apart text later (List.mem_cons_of_mem _ before)

/-- The text of every utility is written, unless it was before. -/
private theorem mem_withSiblings {u : Utility} (hu : u ∈ utilities) {text : String}
    (own : u.realSibling? = some text) {written : List String} (fresh : text ∉ written) :
    text ∈ (withSiblings written utilities).filterMap (·.2) := by
  induction utilities generalizing written with
  | nil => cases hu
  | cons v rest ih =>
    rw [withSiblings]
    rcases List.mem_cons.1 hu with rfl | later
    · simp [own, fresh]
    · split
      · exact ih later fresh
      · next s _ =>
        split
        · exact ih later fresh
        · simp only [List.filterMap_cons, List.mem_cons]
          by_cases here : text = s
          · exact .inl here
          · exact .inr (ih later (List.not_mem_cons_of_ne_of_not_mem here fresh))

end Utility

/-- Buckets hold what was put into them. -/
private theorem flatMap_filter_perm {α : Type} {names : List String} (nodup : names.Nodup)
    (f : α → String) {entries : List α} (known : ∀ e ∈ entries, f e ∈ names) :
    (names.flatMap fun name => entries.filter (f · == name)).Perm entries := by
  induction names generalizing entries with
  | nil =>
    cases entries with
    | nil => exact .nil
    | cons e rest => exact absurd (known e List.mem_cons_self) List.not_mem_nil
  | cons name more ih =>
    obtain ⟨new, nodup⟩ := List.nodup_cons.1 nodup
    -- The other buckets find all that is theirs in what the first one leaves.
    have others : (more.flatMap fun name' => entries.filter (f · == name')) =
        more.flatMap fun name' =>
          (entries.filter fun e => !(f e == name)).filter (f · == name') := by
      refine List.flatMap_congr fun name' inside => ?_
      rw [List.filter_filter]
      refine List.filter_congr fun e _ => ?_
      have apart : name' ≠ name := fun same => new (same ▸ inside)
      by_cases here : f e = name'
      · simp [here, apart]
      · simp [here]
    have known' : ∀ e ∈ entries.filter fun e => !(f e == name), f e ∈ more := by
      intro e he
      obtain ⟨inside, other⟩ := List.mem_filter.1 he
      exact (List.mem_cons.1 (known e inside)).resolve_left (by simpa using other)
    rw [List.flatMap_cons, others]
    exact ((ih nodup known').append_left _).trans (List.filter_append_perm _ _)

/-- How often a text stands in lists without repetitions. -/
private theorem count_flatten {lists : List (List String)} (nodup : ∀ l ∈ lists, l.Nodup)
    (s : String) : lists.flatten.count s = (lists.filter (s ∈ ·)).length := by
  induction lists with
  | nil => rfl
  | cons l rest ih =>
    obtain ⟨here, later⟩ := List.forall_mem_cons.1 nodup
    rw [List.flatten_cons, List.count_append, ih later]
    by_cases inside : s ∈ l
    · rw [List.filter_cons_of_pos (by simpa using inside), List.length_cons,
        List.count_eq_one_of_mem here inside, Nat.add_comm]
    · rw [List.filter_cons_of_neg (by simpa using inside), List.count_eq_zero_of_not_mem inside,
        Nat.zero_add]

namespace Layer

variable {layer : Layer}

/-- The lists of siblings in the order of the blocks they are written behind. -/
private def lists (layer : Layer) : List (List String) :=
  (withSiblings [] layer.blocks).filterMap fun e =>
    e.2.map fun _ => siblingsOf layer.utilities e.1.groupKey

/-- What is written bucket by bucket is what is written block by block. -/
private theorem writtenLists_perm (layer : Layer) (named : "" ∉ layer.breakpoints.map (·.1))
    (distinct : (layer.breakpoints.map (·.1)).Nodup) :
    (writtenLists layer.utilities layer.breakpoints layer.rules).Perm layer.lists := by
  have known : ∀ e ∈ withSiblings [] layer.blocks,
      e.1.breakpoint ∈ bucketOrder layer.breakpoints := by
    intro e inside
    obtain ⟨u, hu, same⟩ := exists_block_of_mem_withSiblings inside
    rw [same]
    exact layer.known u hu
  have buckets := flatMap_filter_perm (List.nodup_cons.2 ⟨named, distinct⟩)
    (fun e : Utility × Option String => e.1.breakpoint) known
  have listed := buckets.filterMap fun e : Utility × Option String =>
    e.2.map fun _ => siblingsOf layer.utilities e.1.groupKey
  rw [List.filterMap_flatMap] at listed
  refine (List.Perm.of_eq (List.flatMap_congr fun name _ => ?_)).trans listed
  rw [rules, List.filterMap_map]
  refine List.filterMap_congr fun e own => ?_
  obtain rfl : e.1.breakpoint = name := by simpa using (List.mem_filter.1 own).2
  rfl

private theorem exists_of_mem_lists {siblings : List String} (h : siblings ∈ layer.lists) :
    siblings ≠ [] ∧ ∃ u ∈ layer.utilities, siblings = siblingsOf layer.utilities u.groupKey := by
  obtain ⟨e, inside, written⟩ := List.mem_filterMap.1 h
  obtain ⟨text, some, rfl⟩ := Option.map_eq_some_iff.1 written
  obtain ⟨u, hu, same⟩ := exists_block_of_mem_withSiblings inside
  have own := sibling_of_mem_withSiblings inside some
  rw [same, groupKey_blockOf]
  rw [same, realSibling?_blockOf hu] at own
  refine ⟨fun none => ?_, u, hu, rfl⟩
  rw [if_pos none] at own
  cases own

/-- The texts that are written are made of these lists. -/
private theorem map_join_lists (layer : Layer) :
    layer.lists.map String.join = (withSiblings [] layer.blocks).filterMap (·.2) := by
  rw [lists, List.map_filterMap]
  refine List.filterMap_congr fun e inside => ?_
  cases written : e.2 with
  | none => rfl
  | some text =>
    obtain ⟨u, hu, same⟩ := exists_block_of_mem_withSiblings inside
    have own := sibling_of_mem_withSiblings inside written
    rw [same, realSibling?_blockOf hu] at own
    rw [same, groupKey_blockOf]
    split at own
    · cases own
    · exact own

private theorem nodup_join_lists (layer : Layer) : (layer.lists.map String.join).Nodup := by
  rw [map_join_lists]
  exact (nodup_withSiblings [] layer.blocks).1

private theorem join_mem_lists {u : Utility} (hu : u ∈ layer.utilities)
    (carries : siblingsOf layer.utilities u.groupKey ≠ []) :
    String.join (siblingsOf layer.utilities u.groupKey) ∈ layer.lists.map String.join := by
  rw [map_join_lists]
  have own := realSibling?_blockOf hu
  rw [if_neg carries] at own
  exact mem_withSiblings (mem_blocks.2 ⟨u, hu, rfl⟩) own List.not_mem_nil

/-- Without ambiguity every list is written. -/
private theorem lists_filter_perm (clear : Unambiguous layer.utilities) (s : String) :
    (layer.lists.filter (s ∈ ·)).Perm ((siblingLists layer.utilities).filter (s ∈ ·)) := by
  have nodup : layer.lists.Nodup := layer.nodup_join_lists.of_map _
  refine (List.perm_ext_iff_of_nodup (nodup.filter _) ((nodup_siblingLists _).filter _)).2 ?_
  intro siblings
  rw [List.mem_filter, List.mem_filter, mem_siblingLists]
  refine and_congr_left fun inside => ⟨fun written => ?_, ?_⟩
  · obtain ⟨-, u, hu, rfl⟩ := exists_of_mem_lists written
    exact ⟨u, hu, rfl⟩
  · rintro ⟨u, hu, rfl⟩
    -- The text of the list is written; without ambiguity it was written for this very list.
    have filled := List.ne_nil_of_mem (of_decide_eq_true inside)
    obtain ⟨siblings, written, same⟩ := List.mem_map.1 (join_mem_lists hu filled)
    obtain ⟨-, v, hv, rfl⟩ := exists_of_mem_lists written
    exact clear v hv u hu same ▸ written

end Layer

namespace Utility

open StyleRule (body?)

variable {utilities : List Utility}

private theorem length_eq_one_iff {lists : List (List String)} (nodup : lists.Nodup)
    {l : List String} (inside : l ∈ lists) : lists.length = 1 ↔ ∀ l' ∈ lists, l' = l := by
  constructor
  · intro one l' inside'
    obtain ⟨k, rfl⟩ := List.length_eq_one_iff.1 one
    rw [List.mem_singleton.1 inside, List.mem_singleton.1 inside']
  · intro same
    have whole := List.eq_replicate_of_mem same
    have few := List.nodup_replicate.1 (whole ▸ nodup)
    have some := List.length_pos_of_mem inside
    omega

/-- The different lists of siblings that hold a sibling of a utility are one exactly if every
utility with this sibling has the same list. -/
private theorem length_siblingLists_eq_one_iff {u : Utility} (hu : u ∈ utilities) {s : String}
    (own : u.realSibling? = some s) :
    ((siblingLists utilities).filter (s ∈ ·)).length = 1 ↔
      ∀ v ∈ utilities, v.realSibling? = some s →
        siblingsOf utilities v.groupKey = siblingsOf utilities u.groupKey := by
  have mem_iff (l : List String) : l ∈ (siblingLists utilities).filter (s ∈ ·) ↔
      ∃ v ∈ utilities, v.realSibling? = some s ∧ l = siblingsOf utilities v.groupKey := by
    rw [List.mem_filter, mem_siblingLists]
    constructor
    · rintro ⟨⟨w, _, rfl⟩, inside⟩
      obtain ⟨v, hv, key, carried⟩ := mem_siblingsOf.1 (of_decide_eq_true inside)
      exact ⟨v, hv, carried, by rw [key]⟩
    · rintro ⟨v, hv, carried, rfl⟩
      exact ⟨⟨v, hv, rfl⟩, decide_eq_true (mem_siblingsOf.2 ⟨v, hv, rfl, carried⟩)⟩
  rw [length_eq_one_iff ((nodup_siblingLists _).filter _) ((mem_iff _).2 ⟨u, hu, own, rfl⟩)]
  constructor
  · exact fun same v hv carried => same _ ((mem_iff _).2 ⟨v, hv, carried, rfl⟩)
  · rintro same l inside
    obtain ⟨v, hv, carried, rfl⟩ := (mem_iff l).1 inside
    exact same v hv carried

/-- The siblings of a group are written as one text, no such text is written twice, and every group
finds its text written. So, if no text can be taken for another one, a sibling is written once for
every list of siblings that it belongs to: once in all exactly if all the groups that have it have
the same siblings. -/
theorem render_siblings {breakpoints : Breakpoints}
    (known : ∀ u ∈ utilities, u.breakpoint = "" ∨ u.breakpoint ∈ breakpoints.map (·.1))
    (named : "" ∉ breakpoints.map (·.1)) (distinct : (breakpoints.map (·.1)).Nodup) :
    ∃ rules : String → List StyleRule, (∀ name, Fills utilities name (rules name)) ∧
      render utilities breakpoints = .ok ("@layer utilities\x7b" ++ "\n".intercalate
        ((bucketOrder breakpoints).filterMap fun name => (body? (rules name)).map fun body =>
          if name.isEmpty then body
          else (breakpoints.lookup name).getD "" ++ " \x7b" ++ body ++ "\x7d") ++ "\x7d") ∧
      (∀ name, ∀ r ∈ rules name, ∀ text ∈ r.sibling,
        text = String.join (siblingsOf utilities (name, r.key))) ∧
      ((writtenLists utilities breakpoints rules).map String.join).Nodup ∧
      (∀ u ∈ utilities, siblingsOf utilities u.groupKey ≠ [] →
        String.join (siblingsOf utilities u.groupKey) ∈
          (writtenLists utilities breakpoints rules).map String.join) ∧
      (Unambiguous utilities → ∀ s,
        (writtenLists utilities breakpoints rules).flatten.count s =
          ((siblingLists utilities).filter (s ∈ ·)).length ∧
        ∀ u ∈ utilities, u.realSibling? = some s →
          ((writtenLists utilities breakpoints rules).flatten.count s = 1 ↔
            ∀ v ∈ utilities, v.realSibling? = some s →
              siblingsOf utilities v.groupKey = siblingsOf utilities u.groupKey)) := by
  let layer : Layer := ⟨breakpoints, utilities, ∅, fun u hu => List.mem_cons.2 (known u hu)⟩
  -- The buckets change the order in which siblings are written, and nothing else.
  have perm : (writtenLists utilities breakpoints layer.rules).Perm layer.lists :=
    layer.writtenLists_perm named distinct
  refine ⟨layer.rules, layer.fills_rules, ?_, fun name r hr text some => ?_, ?_,
    fun u hu carries => ?_, fun clear s => ?_⟩
  · rw [layer.render_utilities, layer.text_eq]
    have buckets := List.filterMap_congr fun name (_ : name ∈ bucketOrder breakpoints) =>
      layer.bucketText_eq name
    exact congrArg (fun texts => Except.ok ("@layer utilities\x7b" ++ "\n".intercalate texts ++
      "\x7d")) buckets
  · obtain ⟨u, hu, key, -, behind⟩ := layer.exists_block_of_mem_rules hr
    have own := behind text some
    rw [realSibling?_blockOf hu, key] at own
    split at own
    · cases own
    · exact (Option.some.inj own).symm
  · exact (perm.map String.join).nodup_iff.2 layer.nodup_join_lists
  · exact (perm.map String.join).mem_iff.2 (Layer.join_mem_lists hu carries)
  · have count : (writtenLists utilities breakpoints layer.rules).flatten.count s =
        ((siblingLists utilities).filter (s ∈ ·)).length := by
      have ascending : ∀ l ∈ layer.lists, l.Nodup := by
        intro l inside
        obtain ⟨-, u, -, rfl⟩ := Layer.exists_of_mem_lists inside
        exact Text.nodup_sortedDistinct _
      rw [perm.flatten.count_eq, count_flatten ascending]
      exact (Layer.lists_filter_perm clear s).length_eq
    exact ⟨count, fun u hu own => by rw [count, length_siblingLists_eq_one_iff hu own]⟩

private def spin : String := "@keyframes spin\x7b\x7d"

private def fade : String := "@keyframes fade\x7b\x7d"

private def spinning : List Utility := [
  ⟨".spin", "", 0, "x", some spin, 0⟩,
  ⟨".md\\:spin", "md", 0, "x", some spin, 0⟩,
  ⟨".fade", "", 0, "y", some fade, 1⟩]

private def narrow : Breakpoints := [("md", "@media (min-width: 768px)")]

/-- A sibling that two buckets have is written once. -/
theorem render_siblings_spinning :
    (∀ u ∈ spinning, u.breakpoint = "" ∨ u.breakpoint ∈ narrow.map (·.1)) ∧
    "" ∉ narrow.map (·.1) ∧ (narrow.map (·.1)).Nodup ∧ Unambiguous spinning ∧
    ∃ rules : String → List StyleRule, (∀ name, Fills spinning name (rules name)) ∧
      (writtenLists spinning narrow rules).flatten.count spin = 1 := by
  have known : ∀ u ∈ spinning, u.breakpoint = "" ∨ u.breakpoint ∈ narrow.map (·.1) := by decide
  have named : "" ∉ narrow.map (·.1) := by decide
  have distinct : (narrow.map (·.1)).Nodup := by decide
  have clear : Unambiguous spinning := by
    have two : ∀ u ∈ spinning, u.realSibling? = some spin ∨ u.realSibling? = some fade := by decide
    have apart : ¬ spin.toList <+: fade.toList ∧ ¬ fade.toList <+: spin.toList := by decide
    refine unambiguous_of_prefixFree fun u hu v hv s t own own' beginning => ?_
    rcases two u hu with hs | hs <;> rcases two v hv with ht | ht <;>
      cases hs.symm.trans own <;> cases ht.symm.trans own'
    · rfl
    · exact absurd beginning apart.1
    · exact absurd beginning apart.2
    · rfl
  obtain ⟨rules, fills, -, -, -, -, counts⟩ := render_siblings known named distinct
  refine ⟨known, named, distinct, clear, rules, fills, ?_⟩
  have alone : ∀ v ∈ spinning, v.realSibling? = some spin →
      (spinning.filter (·.groupKey == v.groupKey)).filterMap realSibling? = [spin] := by decide
  have own : (spinning[0]).realSibling? = some spin := by decide
  refine ((counts clear spin).2 _ List.mem_cons_self own).2 fun v hv carried => ?_
  rw [siblingsOf, siblingsOf, alone v hv carried, alone _ List.mem_cons_self own]

/-- What is written for utilities whose groups stand in order as they are found. -/
private theorem render_of_merge {utilities merged : List Utility} {breakpoints : Breakpoints}
    (h : merge utilities = merged) {all : List (Utility × Nat)}
    (ranks : ranked (bucketOrder breakpoints) merged = .ok all)
    (sorted : all.Pairwise (before · ·)) :
    render utilities breakpoints = .ok ("@layer utilities\x7b" ++ "\n".intercalate
      ((bucketOrder breakpoints).filterMap
        (bucketText breakpoints (bucketLines [] (all.map (·.1))))) ++ "\x7d") := by
  rw [render, arranged, h, ranks]
  simp only [bind, Except.bind, pure, Except.pure, List.mergeSort_of_pairwise sorted]

/-- A group with two siblings, and another one with one of them. -/
private def overlapping : List Utility := [
  ⟨".a", "", 0, "x", some "@keyframes a\x7b\x7d", 0⟩,
  ⟨".b", "", 0, "x", some "@keyframes b\x7b\x7d", 1⟩,
  ⟨".c", "", 0, "y", some "@keyframes a\x7b\x7d", 2⟩]

/-- A sibling that is the text of the two siblings of another group. -/
private def hidden : List Utility := [
  ⟨".a", "", 0, "x", some "@keyframes a\x7b\x7d@keyframes b\x7b\x7d", 0⟩,
  ⟨".b", "", 0, "y", some "@keyframes a\x7b\x7d", 1⟩,
  ⟨".c", "", 0, "y", some "@keyframes b\x7b\x7d", 2⟩]

/-- The sibling of two groups is written behind each of them when one of them has a further sibling;
and siblings are not written when another one is made up of their text. -/
theorem render_overlapping :
    render overlapping [] = .ok ("@layer utilities\x7b.a,.b\x7bx\x7d\n" ++
      "@keyframes a\x7b\x7d@keyframes b\x7b\x7d\n.c\x7by\x7d\n@keyframes a\x7b\x7d\x7d") ∧
    render hidden [] = .ok ("@layer utilities\x7b.a\x7bx\x7d\n" ++
      "@keyframes a\x7b\x7d@keyframes b\x7b\x7d\n.b,.c\x7by\x7d\x7d") := by
  have twice : merge overlapping = [
      ⟨".a,.b", "", 0, "x", some "@keyframes a\x7b\x7d@keyframes b\x7b\x7d", 0⟩,
      ⟨".c", "", 0, "y", some "@keyframes a\x7b\x7d", 2⟩] := by
    have parts : groups overlapping =
        [(overlapping[0], [overlapping[1]]), (overlapping[2], [])] := by decide
    simp only [merge, parts, List.map_cons, List.map_nil, mergeGroup,
      Text.sortedDistinct_eq_insertionSort]
    decide +kernel
  have never : merge hidden = [
      ⟨".a", "", 0, "x", some "@keyframes a\x7b\x7d@keyframes b\x7b\x7d", 0⟩,
      ⟨".b,.c", "", 0, "y", some "@keyframes a\x7b\x7d@keyframes b\x7b\x7d", 1⟩] := by
    have parts : groups hidden = [(hidden[0], []), (hidden[1], [hidden[2]])] := by decide
    simp only [merge, parts, List.map_cons, List.map_nil, mergeGroup,
      Text.sortedDistinct_eq_insertionSort]
    decide +kernel
  exact ⟨(render_of_merge twice rfl (by decide)).trans (by decide +kernel),
    (render_of_merge never rfl (by decide)).trans (by decide +kernel)⟩
end Utility

end UtilityCss
