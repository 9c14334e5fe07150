import UtilityCss.Proofs.Named
import UtilityCss.Proofs.Utility.Blocks

/-! The text of a layer, bucket by bucket. A bucket has one rule for each specificity and list of
declarations of its utilities, with the selectors of all of them, and no other rule. -/
namespace UtilityCss

/-- A rule of a bucket, with what is written behind it. -/
structure StyleRule where
  selectors : List String
  specificity : Int
  css : String
  sibling : Option String

namespace StyleRule

/-- What sets a rule apart from the others of its bucket. -/
def key (r : StyleRule) : Int × String := (r.specificity, r.css)

/-- The lines of a rule. -/
def lines (r : StyleRule) : List String :=
  (",".intercalate r.selectors ++ "\x7b" ++ r.css ++ "\x7d") :: r.sibling.toList

/-- The text of some rules, if there are any. -/
def body? (rules : List StyleRule) : Option String :=
  if rules.isEmpty then none else some ("\n".intercalate (rules.flatMap lines))

end StyleRule

namespace Utility

variable {utilities : List Utility} {breakpoints : Breakpoints} {name : String}

/-- Rules that say what the utilities of a breakpoint say, in the order of the specificities. -/
structure Fills (utilities : List Utility) (breakpoint : String) (rules : List StyleRule) :
    Prop where
  distinct : (rules.map (·.key)).Nodup
  mem_keys : ∀ key, key ∈ rules.map (·.key) ↔ ∃ u ∈ utilities, u.groupKey = (breakpoint, key)
  selectors : ∀ r ∈ rules, r.selectors.Pairwise (· < ·) ∧ ∀ s, s ∈ r.selectors ↔
    ∃ u ∈ utilities, u.groupKey = (breakpoint, r.key) ∧ u.selector = s
  siblings : ∀ r ∈ rules, ∀ text ∈ r.sibling, ∃ siblings : List String,
    text = String.join siblings ∧ siblings.Pairwise (· < ·) ∧ ∀ s, s ∈ siblings ↔
      ∃ u ∈ utilities, u.groupKey = (breakpoint, r.key) ∧ u.realSibling? = some s
  ascending : rules.Pairwise fun r r' => r.specificity ≤ r'.specificity

/-- The utilities, each with the siblings that are written behind it. -/
def withSiblings : (written : List String) → List Utility → List (Utility × Option String)
  | _, [] => []
  | written, u :: rest =>
    match u.realSibling? with
    | none => (u, none) :: withSiblings written rest
    | some s =>
      if written.contains s then (u, none) :: withSiblings written rest
      else (u, some s) :: withSiblings (s :: written) rest

theorem map_fst_withSiblings (written : List String) (utilities : List Utility) :
    (withSiblings written utilities).map (·.1) = utilities := by
  induction utilities generalizing written with
  | nil => rfl
  | cons u rest ih =>
    rw [withSiblings]
    split
    · rw [List.map_cons, ih]
    · split
      · rw [List.map_cons, ih]
      · rw [List.map_cons, ih]

theorem sibling_of_mem_withSiblings {written : List String} {e : Utility × Option String}
    (h : e ∈ withSiblings written utilities) {text : String} (some : e.2 = some text) :
    e.1.realSibling? = .some text := by
  induction utilities generalizing written with
  | nil => cases h
  | cons u rest ih =>
    rw [withSiblings] at h
    split at h
    · rcases List.mem_cons.1 h with rfl | h
      · cases some
      · exact ih h
    · next s own =>
      split at h
      · rcases List.mem_cons.1 h with rfl | h
        · cases some
        · exact ih h
      · rcases List.mem_cons.1 h with rfl | h
        · exact own.trans some
        · exact ih h

theorem bucketLines_eq (written : List String) (utilities : List Utility) :
    bucketLines written utilities = (withSiblings written utilities).flatMap fun e =>
      (e.1.block :: e.2.toList).map (e.1.breakpoint, ·) := by
  induction utilities generalizing written with
  | nil => rfl
  | cons u rest ih =>
    cases own : u.realSibling? with
    | none =>
      simp only [bucketLines, withSiblings, own, ih]
      rfl
    | some s =>
      simp only [bucketLines, withSiblings, own, ih]
      split <;> rfl

end Utility

namespace Layer

open Utility

variable {layer : Layer} {name : String}

/-- The rules of a bucket in the order in which they are written. -/
def rules (layer : Layer) (name : String) : List StyleRule :=
  ((withSiblings [] layer.blocks).filter (·.1.breakpoint == name)).map fun e =>
    ⟨selectorsOf layer.utilities e.1, e.1.specificity, e.1.css, e.2⟩

theorem exists_block_of_mem_withSiblings {e : Utility × Option String}
    (h : e ∈ withSiblings [] layer.blocks) :
    ∃ u ∈ layer.utilities, e.1 = blockOf layer.utilities u := by
  have block := List.mem_map_of_mem (f := (·.1)) h
  rw [map_fst_withSiblings] at block
  exact mem_blocks.1 block

/-- A rule of a bucket is the block of a utility. -/
theorem exists_block_of_mem_rules {r : StyleRule} (h : r ∈ layer.rules name) :
    ∃ u ∈ layer.utilities, u.groupKey = (name, r.key) ∧
      r.selectors = selectorsOf layer.utilities (blockOf layer.utilities u) ∧
      ∀ text ∈ r.sibling, (blockOf layer.utilities u).realSibling? = some text := by
  obtain ⟨e, own, rfl⟩ := List.mem_map.1 h
  obtain ⟨inside, bucket⟩ := List.mem_filter.1 own
  obtain ⟨u, hu, same⟩ := exists_block_of_mem_withSiblings inside
  obtain rfl : e.1.breakpoint = name := by simpa using bucket
  refine ⟨u, hu, ?_, congrArg (selectorsOf _) same, fun text some => ?_⟩
  · exact groupKey_blockOf.symm.trans (congrArg groupKey same.symm)
  · rw [← same]
    exact sibling_of_mem_withSiblings inside some

theorem map_key_rules (layer : Layer) (name : String) : (layer.rules name).map (·.key) =
    (layer.blocks.filter (·.breakpoint == name)).map fun m => (m.specificity, m.css) := by
  have own := List.filter_map (f := fun e : Utility × Option String => e.1)
    (p := fun m : Utility => m.breakpoint == name) (l := withSiblings [] layer.blocks)
  rw [map_fst_withSiblings] at own
  rw [own, rules, List.map_map, List.map_map]
  rfl

theorem map_groupKey_bucket (layer : Layer) (name : String) :
    ((layer.rules name).map (·.key)).map (name, ·) =
      (layer.blocks.filter (·.breakpoint == name)).map groupKey := by
  rw [map_key_rules, List.map_map]
  refine List.map_congr_left fun m hm => ?_
  obtain rfl : m.breakpoint = name := by simpa using (List.mem_filter.1 hm).2
  rfl

/-- The rules of a bucket say what its utilities say. -/
theorem fills_rules (layer : Layer) (name : String) :
    Fills layer.utilities name (layer.rules name) where
  distinct := by
    have one : ((layer.blocks.filter (·.breakpoint == name)).map groupKey).Nodup :=
      layer.nodup_keys_blocks.sublist (List.filter_sublist.map _)
    rw [← map_groupKey_bucket] at one
    exact one.of_map _
  mem_keys key := by
    have whole : key ∈ (layer.rules name).map (·.key) ↔
        (name, key) ∈ ((layer.rules name).map (·.key)).map (name, ·) := by simp
    rw [whole, map_groupKey_bucket, List.mem_map]
    constructor
    · rintro ⟨m, hm, same⟩
      obtain ⟨u, hu, rfl⟩ := mem_blocks.1 (List.mem_filter.1 hm).1
      exact ⟨u, hu, same⟩
    · rintro ⟨u, hu, same⟩
      refine ⟨_, List.mem_filter.2 ⟨mem_blocks.2 ⟨u, hu, rfl⟩, ?_⟩, same⟩
      exact beq_iff_eq.2 (Prod.mk.inj same).1
  selectors r hr := by
    obtain ⟨u, hu, key, same, -⟩ := exists_block_of_mem_rules hr
    rw [same]
    refine ⟨Text.pairwise_sortedDistinct _, fun s => ?_⟩
    rw [mem_selectorsOf, groupKey_blockOf, key]
  siblings r hr text some := by
    obtain ⟨u, hu, key, -, behind⟩ := exists_block_of_mem_rules hr
    rw [← key]
    exact exists_siblings_blockOf hu (behind text some)
  ascending := by
    have blocks : layer.blocks.Pairwise fun m m' => m.specificity ≤ m'.specificity :=
      layer.blocks_sorted.imp fun {m m'} earlier => by
        rw [before_iff] at earlier
        simp only [withRank] at earlier
        omega
    have keys : ((layer.rules name).map (·.key)).Pairwise fun k k' => k.1 ≤ k'.1 := by
      rw [map_key_rules]
      exact List.pairwise_map.2 (blocks.sublist List.filter_sublist)
    exact List.Pairwise.of_map StyleRule.key (fun _ _ low => low) keys

private theorem flatMap_bucket (entries : List (Utility × Option String)) (name : String)
    (selectors : Utility → List String)
    (written : ∀ e ∈ entries, e.1.selector = ",".intercalate (selectors e.1)) :
    (entries.flatMap fun e => (e.1.block :: e.2.toList).map (e.1.breakpoint, ·)).filterMap
        (fun l => if l.1 = name then some l.2 else none) =
      ((entries.filter (·.1.breakpoint == name)).map fun e =>
        (⟨selectors e.1, e.1.specificity, e.1.css, e.2⟩ : StyleRule)).flatMap StyleRule.lines := by
  induction entries with
  | nil => rfl
  | cons e rest ih =>
    have later := ih fun e he => written e (List.mem_cons_of_mem _ he)
    have own : e.1.block :: e.2.toList =
        StyleRule.lines ⟨selectors e.1, e.1.specificity, e.1.css, e.2⟩ := by
      rw [StyleRule.lines, ← written e List.mem_cons_self]
      rfl
    rw [List.flatMap_cons, List.filterMap_append, later, own, List.filterMap_map]
    by_cases here : e.1.breakpoint = name
    · rw [List.filter_cons_of_pos (by simpa using here), List.map_cons, List.flatMap_cons]
      simp [here]
    · rw [List.filter_cons_of_neg (by simpa using here)]
      simp [here]

/-- The lines of a bucket are those of its rules. -/
theorem lines_eq (layer : Layer) (name : String) :
    layer.lines name = (layer.rules name).flatMap StyleRule.lines := by
  rw [lines, bucketLines_eq]
  refine flatMap_bucket _ name (selectorsOf layer.utilities) fun e inside => ?_
  obtain ⟨u, hu, same⟩ := exists_block_of_mem_withSiblings inside
  rw [same, selector_blockOf hu]
  rfl

theorem bucketText_eq (layer : Layer) (name : String) :
    bucketText layer.breakpoints (bucketLines [] layer.blocks) name =
      (StyleRule.body? (layer.rules name)).map fun body =>
        if name.isEmpty then body
        else (layer.breakpoints.lookup name).getD "" ++ " \x7b" ++ body ++ "\x7d" := by
  have own := layer.lines_eq name
  rw [lines] at own
  rw [bucketText, own, StyleRule.body?]
  cases written : layer.rules name with
  | nil => rfl
  | cons r rest =>
    have filled : ((r :: rest).flatMap StyleRule.lines).isEmpty = false := rfl
    rw [filled]
    simp only [List.isEmpty_cons, Bool.false_eq_true, if_false, Option.map_some]
    split <;> rfl

end Layer

namespace Utility

open StyleRule (body?)

/-- Utilities of configured breakpoints are written bucket by bucket: those outside all breakpoints
first, then each breakpoint in its media query, where empty buckets are left out. The rules of each
bucket say what its utilities say. -/
theorem render_eq_buckets {utilities : List Utility} {breakpoints : Breakpoints}
    (known : ∀ u ∈ utilities, u.breakpoint = "" ∨ u.breakpoint ∈ breakpoints.map (·.1))
    (named : "" ∉ breakpoints.map (·.1)) (distinct : (breakpoints.map (·.1)).Nodup) :
    ∃ rules : String → List StyleRule, (∀ name, Fills utilities name (rules name)) ∧
      render utilities breakpoints = .ok ("@layer utilities\x7b" ++ "\n".intercalate
        ((body? (rules "")).toList ++ breakpoints.filterMap fun e =>
          (body? (rules e.1)).map fun body => e.2 ++ " \x7b" ++ body ++ "\x7d") ++ "\x7d") := by
  let layer : Layer := ⟨breakpoints, utilities, ∅, fun u hu => List.mem_cons.2 (known u hu)⟩
  refine ⟨layer.rules, layer.fills_rules, ?_⟩
  have buckets : (bucketOrder breakpoints).filterMap
      (bucketText breakpoints (bucketLines [] layer.blocks)) =
        (body? (layer.rules "")).toList ++ breakpoints.filterMap fun e =>
          (body? (layer.rules e.1)).map fun body => e.2 ++ " \x7b" ++ body ++ "\x7d" := by
    have later : ∀ e ∈ breakpoints,
        bucketText breakpoints (bucketLines [] layer.blocks) e.1 =
          (body? (layer.rules e.1)).map fun body => e.2 ++ " \x7b" ++ body ++ "\x7d" := by
      intro e he
      have some : e.1 ≠ "" := fun none => named (none ▸ List.mem_map_of_mem he)
      rw [layer.bucketText_eq e.1, lookup_of_mem distinct he]
      simp [some]
    rw [bucketOrder, List.filterMap_cons, List.filterMap_map]
    have first : bucketText breakpoints (bucketLines [] layer.blocks) "" =
        body? (layer.rules "") := (layer.bucketText_eq "").trans Option.map_id'
    have others := List.filterMap_congr later
    rw [first]
    cases body? (layer.rules "") with
    | none => exact others
    | some body => exact congrArg (body :: ·) others
  rw [layer.render_utilities, layer.text_eq]
  exact congrArg (fun texts => Except.ok ("@layer utilities\x7b" ++ "\n".intercalate texts ++
    "\x7d")) buckets

private def spaced : List Utility := [
  ⟨".p-1", "", 0, "padding: 1px;", none, 0⟩,
  ⟨".md\\:p-1", "md", 0, "padding: 1px;", none, 0⟩,
  ⟨".md\\:pad", "md", 0, "padding: 1px;", none, 1⟩]

private def wide : Breakpoints := [("md", "@media (min-width: 768px)")]

/-- Two utilities of one breakpoint with one list of declarations share a rule. -/
theorem render_eq_buckets_wide :
    (∀ u ∈ spaced, u.breakpoint = "" ∨ u.breakpoint ∈ wide.map (·.1)) ∧
    "" ∉ wide.map (·.1) ∧ (wide.map (·.1)).Nodup ∧
    ∃ rules : String → List StyleRule, (∀ name, Fills spaced name (rules name)) ∧
      (∃ r ∈ rules "md", r.key = (0, "padding: 1px;") ∧ ".md\\:p-1" ∈ r.selectors ∧
        ".md\\:pad" ∈ r.selectors) ∧
      render spaced wide = .ok ("@layer utilities\x7b" ++ "\n".intercalate
        ((body? (rules "")).toList ++ wide.filterMap fun e =>
          (body? (rules e.1)).map fun body => e.2 ++ " \x7b" ++ body ++ "\x7d") ++ "\x7d") := by
  have known : ∀ u ∈ spaced, u.breakpoint = "" ∨ u.breakpoint ∈ wide.map (·.1) := by decide
  have named : "" ∉ wide.map (·.1) := by decide
  have distinct : (wide.map (·.1)).Nodup := by decide
  obtain ⟨rules, fills, written⟩ := render_eq_buckets known named distinct
  refine ⟨known, named, distinct, rules, fills, ?_, written⟩
  obtain ⟨r, hr, key⟩ := List.mem_map.1 (((fills "md").mem_keys (0, "padding: 1px;")).2 (by decide))
  have shared := ((fills "md").selectors r hr).2
  rw [key] at shared
  exact ⟨r, hr, key, (shared _).2 (by decide), (shared _).2 (by decide)⟩

end Utility

end UtilityCss
