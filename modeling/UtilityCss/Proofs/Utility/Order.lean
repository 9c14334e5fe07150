import UtilityCss.Proofs.Utility.Blocks

/-! The order of two blocks of one specificity. It is the order of their first rules, and so it
depends on every class in use that shares one of the two blocks, and on no other class. -/
namespace UtilityCss.Layer

open Utility

variable {table : RuleTable} {breakpoints : Breakpoints} {layer : Layer} {u v : Utility}

/-- A class of the block of `u` has its rule before the rules of all classes of the block of `v`. -/
def Leads (layer : Layer) (u v : Utility) : Prop :=
  ∃ a ∈ layer.utilities, a.groupKey = u.groupKey ∧
    ∀ b ∈ layer.utilities, b.groupKey = v.groupKey → a.position < b.position

theorem leads_iff (hu : u ∈ layer.utilities) (hv : v ∈ layer.utilities) : layer.Leads u v ↔
    (blockOf layer.utilities u).position < (blockOf layer.utilities v).position := by
  constructor
  · rintro ⟨a, ha, key, first⟩
    obtain ⟨b, hb, key', low⟩ := exists_position_blockOf hv
    have := position_blockOf_le hu ha key
    have := first b hb key'
    omega
  · intro h
    obtain ⟨a, ha, key, low⟩ := exists_position_blockOf hu
    refine ⟨a, ha, key, fun b hb key' => ?_⟩
    have := position_blockOf_le hv hb key'
    omega

/-- Blocks with different declarations lie at different places. -/
private theorem position_blockOf_ne
    (resolved : ∀ w ∈ layer.utilities, IsResolved table breakpoints w)
    (hu : u ∈ layer.utilities) (hv : v ∈ layer.utilities) (apart : u.css ≠ v.css) :
    (blockOf layer.utilities u).position ≠ (blockOf layer.utilities v).position := by
  intro same
  obtain ⟨a, ha, key, low⟩ := exists_position_blockOf hu
  obtain ⟨b, hb, key', low'⟩ := exists_position_blockOf hv
  have one := (resolved a ha).same_rule (resolved b hb) (low.trans (same.trans low'.symm))
  simp only [groupKey, Prod.mk.injEq] at key key'
  exact apart (key.2.2.symm.trans (one.2.trans key'.2.2))

theorem leads_or_leads (resolved : ∀ w ∈ layer.utilities, IsResolved table breakpoints w)
    (hu : u ∈ layer.utilities) (hv : v ∈ layer.utilities) (apart : u.css ≠ v.css) :
    layer.Leads u v ↔ ¬ layer.Leads v u := by
  rw [leads_iff hu hv, leads_iff hv hu]
  have := position_blockOf_ne resolved hu hv apart
  omega

theorem writesBefore_iff_leads (resolved : ∀ w ∈ layer.utilities, IsResolved table breakpoints w)
    (hu : u ∈ layer.utilities) (hv : v ∈ layer.utilities) (tie : u.specificity = v.specificity)
    (apart : u.css ≠ v.css) : layer.WritesBefore u v ↔ layer.Leads u v := by
  rw [leads_iff hu hv]
  constructor
  · intro h
    have := h.position_le tie
    have := position_blockOf_ne resolved hu hv apart
    omega
  · exact writesBefore_of_position hu hv tie

section Bucket

variable (resolved : ∀ w ∈ layer.utilities, IsResolved table breakpoints w)
  (hu : u ∈ layer.utilities) (hv : v ∈ layer.utilities) (bucket : u.breakpoint = v.breakpoint)
  (apart : u.groupKey ≠ v.groupKey)
include resolved hu hv bucket apart

/-- Two blocks of one bucket come in the order of their specificities, and those of one specificity
in the order of their first rules. -/
theorem writesBefore_iff : layer.WritesBefore u v ↔
    u.specificity < v.specificity ∨ u.specificity = v.specificity ∧ layer.Leads u v := by
  rcases Int.lt_trichotomy u.specificity v.specificity with low | tie | high
  · exact iff_of_true (writesBefore_of_specificity hu hv low) (.inl low)
  · have css : u.css ≠ v.css := fun same => apart (by simp [groupKey, bucket, tie, same])
    rw [writesBefore_iff_leads resolved hu hv tie css]
    exact ⟨fun leads => .inr ⟨tie, leads⟩, fun h => h.elim (fun low => by omega) And.right⟩
  · refine iff_of_false (writesBefore_of_specificity hv hu high).asymm ?_
    rintro (low | ⟨tie, -⟩) <;> omega

/-- One of two blocks of a bucket is written first. -/
theorem writesBefore_or : layer.WritesBefore u v ∨ layer.WritesBefore v u := by
  rw [writesBefore_iff resolved hu hv bucket apart,
    writesBefore_iff resolved hv hu bucket.symm apart.symm]
  rcases Int.lt_trichotomy u.specificity v.specificity with low | tie | high
  · exact .inl (.inl low)
  · have css : u.css ≠ v.css := fun same => apart (by simp [groupKey, bucket, tie, same])
    have order := leads_or_leads resolved hu hv css
    by_cases leads : layer.Leads v u
    · exact .inr (.inr ⟨tie.symm, leads⟩)
    · exact .inl (.inr ⟨tie, order.2 leads⟩)
  · exact .inr (.inl high)

end Bucket

/-- Which block leads depends on the classes that share one of the two blocks. -/
theorem leads_congr {other : Layer} (h : ∀ w, w.groupKey = u.groupKey ∨ w.groupKey = v.groupKey →
    (w ∈ layer.utilities ↔ w ∈ other.utilities)) : layer.Leads u v ↔ other.Leads u v := by
  refine exists_congr fun a => ?_
  constructor
  · rintro ⟨ha, key, first⟩
    exact ⟨(h a (.inl key)).1 ha, key, fun b hb key' => first b ((h b (.inr key')).2 hb) key'⟩
  · rintro ⟨ha, key, first⟩
    exact ⟨(h a (.inl key)).2 ha, key, fun b hb key' => first b ((h b (.inr key')).1 hb) key'⟩

/-- Two classes of one bucket and one specificity with different declarations are written in the
order of their rules, unless a class that shares the block of the later rule has its rule before
those of all classes that share the block of the earlier one. Classes that share neither block have
no say. -/
theorem writesBefore_iff_of_tie (table : RuleTable) (breakpoints : Breakpoints)
    (scans : List (List String)) {x y : String} (hx : x ∈ candidates scans)
    (hy : y ∈ candidates scans) (rx : resolve? table breakpoints x = some u)
    (ry : resolve? table breakpoints y = some v) (bucket : u.breakpoint = v.breakpoint)
    (tie : u.specificity = v.specificity) (apart : u.css ≠ v.css) :
    let layer := afterScans table breakpoints scans
    (layer.WritesBefore u v ↔ ¬ layer.Leads v u) ∧
    (layer.WritesBefore v u ↔ layer.Leads v u) ∧
    (layer.Leads v u → ∃ c ∈ candidates scans, ∃ w, resolve? table breakpoints c = some w ∧
      w.groupKey = v.groupKey ∧ w.position < u.position) ∧
    (layer.WritesBefore u v → ∃ front between behind, layer.text =
      front ++ (blockOf layer.utilities u).block ++ between ++
        (blockOf layer.utilities v).block ++ behind) ∧
    u.selector ∈ selectorsOf layer.utilities u ∧ v.selector ∈ selectorsOf layer.utilities v ∧
    ∀ others, (∀ c w, resolve? table breakpoints c = some w →
        w.groupKey = u.groupKey ∨ w.groupKey = v.groupKey →
        (c ∈ candidates scans ↔ c ∈ candidates others)) →
      (layer.WritesBefore u v ↔ (afterScans table breakpoints others).WritesBefore u v) := by
  intro layer
  have hu : u ∈ layer.utilities := mem_afterScans.2 ⟨x, hx, rx⟩
  have hv : v ∈ layer.utilities := mem_afterScans.2 ⟨y, hy, ry⟩
  have resolved : ∀ w ∈ layer.utilities, IsResolved table breakpoints w :=
    resolved_afterScans scans
  refine ⟨?_, ?_, ?_, fun h => h.text_eq hu bucket, mem_selectorsOf.2 ⟨u, hu, rfl, rfl⟩,
    mem_selectorsOf.2 ⟨v, hv, rfl, rfl⟩, ?_⟩
  · rw [writesBefore_iff_leads resolved hu hv tie apart, leads_or_leads resolved hu hv apart]
  · exact writesBefore_iff_leads resolved hv hu tie.symm apart.symm
  · rintro ⟨w, hw, key, first⟩
    obtain ⟨c, hc, rc⟩ := mem_afterScans.1 hw
    exact ⟨c, hc, w, rc, key, first u hu rfl⟩
  · intro others same
    have used (w : Utility) (key : w.groupKey = u.groupKey ∨ w.groupKey = v.groupKey) :
        w ∈ layer.utilities ↔ w ∈ (afterScans table breakpoints others).utilities := by
      rw [mem_afterScans, mem_afterScans]
      exact exists_congr fun c => and_congr_left fun rc => same c w rc key
    rw [writesBefore_iff_leads resolved hu hv tie apart, leads_congr used]
    exact (writesBefore_iff_leads (resolved_afterScans others) ((used u (.inl rfl)).1 hu)
      ((used v (.inr rfl)).1 hv) tie apart).symm

/-- Two names for one list of declarations, and a rule between them. -/
private def colors : RuleTable :=
  .ofList [("aa", { css := "color:red;" }), ("bb", { css := "color:blue;" }),
    ("cc", { css := "color:red;" })]

private def blue : Utility := ⟨".bb", "", 0, "color:blue;", none, 1⟩

private def red : Utility := ⟨".cc", "", 0, "color:red;", none, 2⟩

/-- Without the first name, the two others are written in the order of their rules. -/
theorem writesBefore_iff_of_tie_colors :
    ("bb" ∈ candidates [["bb cc"]] ∧ "cc" ∈ candidates [["bb cc"]] ∧
      resolve? colors [] "bb" = some blue ∧ resolve? colors [] "cc" = some red ∧
      blue.breakpoint = red.breakpoint ∧ blue.specificity = red.specificity ∧
      blue.css ≠ red.css) ∧
    ((afterScans colors [] [["bb cc"]]).WritesBefore blue red ↔
      ¬ (afterScans colors [] [["bb cc"]]).Leads red blue) := by
  have hb : "bb" ∈ candidates [["bb cc"]] := by decide
  have hc : "cc" ∈ candidates [["bb cc"]] := by decide
  have rb : resolve? colors [] "bb" = some blue := by decide +kernel
  have rc : resolve? colors [] "cc" = some red := by decide +kernel
  have apart : blue.css ≠ red.css := by decide
  exact ⟨⟨hb, hc, rb, rc, rfl, rfl, apart⟩,
    (writesBefore_iff_of_tie colors [] [["bb cc"]] hb hc rb rc rfl rfl apart).1⟩

/-- A third class swaps two classes: it shares the block of the later one and its rule is the first
of all. -/
theorem not_writesBefore_colors :
    "bb" ∈ candidates [["aa bb cc"]] ∧ "cc" ∈ candidates [["aa bb cc"]] ∧
    resolve? colors [] "bb" = some blue ∧ resolve? colors [] "cc" = some red ∧
    blue.breakpoint = red.breakpoint ∧ blue.specificity = red.specificity ∧
    blue.css ≠ red.css ∧ blue.position < red.position ∧
    (afterScans colors [] [["bb cc"]]).WritesBefore blue red ∧
    ¬ (afterScans colors [] [["aa bb cc"]]).WritesBefore blue red := by
  have few : candidates [["bb cc"]] = ["bb", "cc"] := by decide
  have all : candidates [["aa bb cc"]] = ["aa", "bb", "cc"] := by decide
  have ra : resolve? colors [] "aa" = some ⟨".aa", "", 0, "color:red;", none, 0⟩ := by
    decide +kernel
  have rb : resolve? colors [] "bb" = some blue := by decide +kernel
  have rc : resolve? colors [] "cc" = some red := by decide +kernel
  have apart : blue.css ≠ red.css := by decide
  refine ⟨by simp [all], by simp [all], rb, rc, rfl, rfl, apart, by decide, ?_, ?_⟩
  · have hb : blue ∈ (afterScans colors [] [["bb cc"]]).utilities :=
      mem_afterScans.2 ⟨"bb", by simp [few], rb⟩
    have hc : red ∈ (afterScans colors [] [["bb cc"]]).utilities :=
      mem_afterScans.2 ⟨"cc", by simp [few], rc⟩
    refine (writesBefore_iff_leads (resolved_afterScans _) hb hc rfl apart).2 ?_
    refine ⟨blue, hb, rfl, fun w hw key => ?_⟩
    obtain ⟨c, hc, found⟩ := mem_afterScans.1 hw
    rw [few] at hc
    rcases List.mem_pair.1 hc with rfl | rfl
    · obtain rfl := Option.some.inj (rb.symm.trans found)
      exact absurd key (by decide)
    · obtain rfl := Option.some.inj (rc.symm.trans found)
      decide
  · have hb : blue ∈ (afterScans colors [] [["aa bb cc"]]).utilities :=
      mem_afterScans.2 ⟨"bb", by simp [all], rb⟩
    have hc : red ∈ (afterScans colors [] [["aa bb cc"]]).utilities :=
      mem_afterScans.2 ⟨"cc", by simp [all], rc⟩
    rw [writesBefore_iff_leads (resolved_afterScans _) hb hc rfl apart,
      leads_or_leads (resolved_afterScans _) hb hc apart, not_not]
    refine ⟨_, mem_afterScans.2 ⟨"aa", by simp [all], ra⟩, rfl, fun w hw key => ?_⟩
    obtain ⟨c, hc, found⟩ := mem_afterScans.1 hw
    simp only [all, List.mem_cons, List.not_mem_nil, or_false] at hc
    rcases hc with rfl | rfl | rfl
    · obtain rfl := Option.some.inj (ra.symm.trans found)
      exact absurd key (by decide)
    · obtain rfl := Option.some.inj (rb.symm.trans found)
      decide
    · obtain rfl := Option.some.inj (rc.symm.trans found)
      exact absurd key (by decide)

end UtilityCss.Layer
