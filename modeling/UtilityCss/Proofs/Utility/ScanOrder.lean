import UtilityCss.Proofs.Utility.Merge
import UtilityCss.Utility.Layer

/-! The text of a layer depends on which candidates with a rule were scanned, and not on their
order, their repetitions or how they were spread over scans. -/
namespace UtilityCss

namespace Utility

/-- The utility stands for a class in use. -/
def IsResolved (table : RuleTable) (breakpoints : Breakpoints) (u : Utility) : Prop :=
  ∃ className, resolve? table breakpoints className = some u

/-- A class in use lies where its rule lies in the table. -/
theorem IsResolved.rule_at {table : RuleTable} {breakpoints : Breakpoints} {u : Utility}
    (h : IsResolved table breakpoints u) :
    ∃ (i : Nat) (name : String) (rule : Rule), u.position = i ∧
      table.toList[i]? = some (name, rule) ∧ u.specificity = rule.specificity ∧
        u.css = rule.css := by
  obtain ⟨className, h⟩ := h
  simp only [resolve?, bind, Option.bind_eq_some_iff] at h
  obtain ⟨rule, found, i, place, hu⟩ := h
  obtain rfl := Option.some.inj hu
  obtain ⟨other, there⟩ := OrderedMap.position?_eq_some_iff.1 place
  have same : rule = other := by
    have hmem := OrderedMap.get?_eq_some_iff.2 (List.mem_of_getElem? there)
    exact Option.some.inj (found.symm.trans hmem)
  exact ⟨i, _, rule, rfl, same ▸ there, rfl, rfl⟩

/-- A class whose name has a rule stands for it. -/
theorem resolve?_of_rule_at {table : RuleTable} {className : String} {i : Nat} {rule : Rule}
    (h : table.toList[i]? = some ((splitModifiers className).2, rule)) (breakpoints : Breakpoints) :
    let modified := (splitModifiers className).1.foldl (modify breakpoints)
      ("." ++ Candidate.escape className, "")
    resolve? table breakpoints className = some {
      selector := modified.1 ++ rule.suffix.getD ""
      breakpoint := modified.2
      specificity := rule.specificity
      css := rule.css
      sibling := rule.sibling
      position := i } := by
  have found : table.get? (splitModifiers className).2 = some rule :=
    OrderedMap.get?_eq_some_iff.2 (List.mem_of_getElem? h)
  have place : table.position? (splitModifiers className).2 = some i :=
    OrderedMap.position?_eq_some_iff.2 ⟨rule, h⟩
  simp only [resolve?, found, place]
  rfl

/-- One place of the table has one rule, and so one specificity and one list of declarations. -/
theorem IsResolved.same_rule {table : RuleTable} {breakpoints : Breakpoints} {u v : Utility}
    (hu : IsResolved table breakpoints u) (hv : IsResolved table breakpoints v)
    (h : u.position = v.position) : u.specificity = v.specificity ∧ u.css = v.css := by
  obtain ⟨i, _, rule, hi, hrule, hs, hc⟩ := hu.rule_at
  obtain ⟨j, _, rule', hj, hrule', hs', hc'⟩ := hv.rule_at
  obtain rfl : i = j := by omega
  rw [hrule] at hrule'
  obtain rfl : rule = rule' := (Prod.mk.inj (Option.some.inj hrule')).2
  exact ⟨hs.trans hs'.symm, hc.trans hc'.symm⟩

private theorem getElem?_of_rank? {order : List String} {name : String} {i : Nat}
    (h : rank? order name = some i) : order[i]? = some name := by
  obtain ⟨l₁, l₂, hl, -⟩ := List.lookup_eq_some_iff.1 h
  have hm : (name, i) ∈ order.zipIdx.reverse := by simp [hl]
  simpa [List.mem_zipIdx_iff_getElem?] using hm

/-- Different buckets have different ranks. -/
theorem rank?_inj {order : List String} {name other : String} {i : Nat}
    (h : rank? order name = some i) (h' : rank? order other = some i) : name = other :=
  Option.some.inj ((getElem?_of_rank? h).symm.trans (getElem?_of_rank? h'))

/-- A utility with the rank of its bucket. -/
def withRank (order : List String) (u : Utility) : Utility × Nat :=
  (u, (rank? order u.breakpoint).getD 0)

theorem rank?_eq_some_withRank {order : List String} {u : Utility} (h : u.breakpoint ∈ order) :
    rank? order u.breakpoint = some (withRank order u).2 := by
  obtain ⟨r, hr⟩ := Option.isSome_iff_exists.1 (rank?_isSome h)
  simp [withRank, hr]

theorem ranked_eq_map {order : List String} {utilities : List Utility}
    (h : ∀ u ∈ utilities, u.breakpoint ∈ order) :
    ranked order utilities = .ok (utilities.map (withRank order)) := by
  induction utilities with
  | nil => rfl
  | cons u rest ih =>
    rw [ranked, rank?_eq_some_withRank (h u (by simp)), ih fun v hv => h v (by simp [hv])]
    rfl

theorem before_trans (a b c : Utility × Nat) (hab : before a b) (hbc : before b c) :
    before a c := by
  rw [before] at *
  grind

theorem before_total (a b : Utility × Nat) : before a b || before b a := by
  unfold before
  grind

/-- Two utilities that may be written in either order agree in everything that is compared. -/
theorem before_antisymm {a b : Utility × Nat} (hab : before a b) (hba : before b a) :
    a.1.specificity = b.1.specificity ∧ a.1.position = b.1.position ∧ a.2 = b.2 := by
  rw [before] at *
  grind

theorem merge_known {utilities : List Utility} {order : List String}
    (h : ∀ u ∈ utilities, u.breakpoint ∈ order) : ∀ m ∈ merge utilities, m.breakpoint ∈ order := by
  intro m hm
  obtain ⟨u, hu, same⟩ := exists_mem_of_mem_merge hm
  exact same ▸ h u hu

/-- Merged classes in use never tie: in one bucket and at one place of the table there is only one
group. -/
theorem eq_of_before_of_before {table : RuleTable} {breakpoints : Breakpoints}
    {utilities : List Utility} (resolved : ∀ u ∈ utilities, IsResolved table breakpoints u)
    {order : List String} (known : ∀ u ∈ utilities, u.breakpoint ∈ order) {m m' : Utility}
    (hm : m ∈ merge utilities) (hm' : m' ∈ merge utilities)
    (one : before (withRank order m) (withRank order m'))
    (other : before (withRank order m') (withRank order m)) : m = m' := by
  obtain ⟨-, position, rank⟩ := before_antisymm one other
  have bucket : m.breakpoint = m'.breakpoint := by
    refine rank?_inj (rank?_eq_some_withRank (merge_known known m hm)) ?_
    rw [rank]
    exact rank?_eq_some_withRank (merge_known known m' hm')
  obtain ⟨u, hu, key, low⟩ := exists_lowest_of_mem_merge hm
  obtain ⟨u', hu', key', low'⟩ := exists_lowest_of_mem_merge hm'
  have same := (resolved u hu).same_rule (resolved u' hu')
    (low.trans (Eq.trans position low'.symm))
  apply eq_of_mem_merge hm hm'
  have hk := key
  have hk' := key'
  simp only [groupKey, Prod.mk.injEq] at hk hk' ⊢
  exact ⟨bucket, by rw [← hk.2.1, ← hk'.2.1, same.1], by rw [← hk.2.2, ← hk'.2.2, same.2]⟩

/-- The order in which utilities are written depends only on which utilities there are. -/
theorem arranged_congr {table : RuleTable} {breakpoints : Breakpoints}
    {utilities others : List Utility} (resolved : ∀ u ∈ utilities, IsResolved table breakpoints u)
    (known : ∀ u ∈ utilities, u.breakpoint ∈ bucketOrder breakpoints)
    (h : ∀ u, u ∈ utilities ↔ u ∈ others) :
    arranged utilities breakpoints = arranged others breakpoints := by
  have known' : ∀ u ∈ others, u.breakpoint ∈ bucketOrder breakpoints :=
    fun u hu => known u ((h u).2 hu)
  let order := bucketOrder breakpoints
  have perm := (merge_perm h).map (withRank order)
  have sorted (l : List (Utility × Nat)) : (l.mergeSort before).Pairwise (before · ·) :=
    List.pairwise_mergeSort before_trans before_total l
  have same : ((merge utilities).map (withRank order)).mergeSort before =
      ((merge others).map (withRank order)).mergeSort before := by
    refine List.Perm.eq_of_pairwise ?_ (sorted _) (sorted _)
      ((List.mergeSort_perm _ _).trans (perm.trans (List.mergeSort_perm _ _).symm))
    intro a b ha hb hab hba
    obtain ⟨m, hm, rfl⟩ := List.mem_map.1 (List.mem_mergeSort.1 ha)
    obtain ⟨m', hm', rfl⟩ := List.mem_map.1 (List.mem_mergeSort.1 hb)
    have hm' := (merge_perm h).mem_iff.2 hm'
    rw [eq_of_before_of_before resolved known hm hm' hab hba]
  rw [arranged, arranged, ranked_eq_map (merge_known known), ranked_eq_map (merge_known known')]
  exact congrArg (fun l => Except.ok (l.map (·.1))) same

theorem render_congr {table : RuleTable} {breakpoints : Breakpoints}
    {utilities others : List Utility} (resolved : ∀ u ∈ utilities, IsResolved table breakpoints u)
    (known : ∀ u ∈ utilities, u.breakpoint ∈ bucketOrder breakpoints)
    (h : ∀ u, u ∈ utilities ↔ u ∈ others) :
    render utilities breakpoints = render others breakpoints := by
  rw [render, render, arranged_congr resolved known h]

end Utility

namespace Layer

theorem known_nil (breakpoints : Breakpoints) :
    ∀ u ∈ ([] : List Utility), u.breakpoint ∈ Utility.bucketOrder breakpoints :=
  fun _ none => absurd none List.not_mem_nil

/-- The layer after some scans, each of some sources. -/
def afterScans (table : RuleTable) (breakpoints : Breakpoints) (scans : List (List String)) :
    Layer :=
  scans.foldl (Layer.update table) { breakpoints, known := known_nil breakpoints }

/-- The candidates of some scans. -/
def candidates (scans : List (List String)) : List String := scans.flatMap Candidate.ofSources

theorem candidates_flatten (scans : List (List String)) :
    candidates [scans.flatten] = candidates scans := by
  induction scans with
  | nil => rfl
  | cons sources rest ih =>
    simp only [candidates, List.flatMap_cons, List.flatMap_nil, List.append_nil] at ih ⊢
    rw [← ih, List.flatten_cons, Candidate.ofSources, List.flatMap_append]
    rfl

/-- What a layer has collected from the candidates it has seen. -/
structure Collected (table : RuleTable) (breakpoints : Breakpoints) (layer : Layer)
    (seen : List String) : Prop where
  fixed : layer.breakpoints = breakpoints
  mem_seen : ∀ c, layer.seen.contains c ↔ c ∈ seen
  mem_utilities : ∀ u, u ∈ layer.utilities ↔
    ∃ c ∈ seen, Utility.resolve? table breakpoints c = some u

theorem Collected.addCandidate {table : RuleTable} {breakpoints : Breakpoints} {layer : Layer}
    {seen : List String} (h : Collected table breakpoints layer seen) (c : String) :
    Collected table breakpoints (layer.addCandidate table c) (seen ++ [c]) := by
  obtain ⟨rfl, hseen, hutil⟩ := h
  refine ⟨breakpoints_addCandidate table layer c, fun d => ?_, fun u => ?_⟩
  · rw [contains_seen_addCandidate, hseen, List.mem_append, List.mem_singleton]
  · rw [utilities_addCandidate, List.mem_append, hutil]
    split
    · next old =>
      have hc := (hseen c).1 old
      simp only [List.not_mem_nil, or_false, List.mem_append, List.mem_singleton]
      refine exists_congr fun d => and_congr_left fun _ => ⟨.inl, fun hd => hd.elim id (· ▸ hc)⟩
    · simp [or_and_right, exists_or]

theorem Collected.foldl {table : RuleTable} {breakpoints : Breakpoints} {layer : Layer}
    {seen : List String} (h : Collected table breakpoints layer seen) (more : List String) :
    Collected table breakpoints (more.foldl (Layer.addCandidate table) layer) (seen ++ more) := by
  induction more generalizing layer seen with
  | nil => simpa using h
  | cons c rest ih => simpa using ih (h.addCandidate c)

theorem collected_afterScans (table : RuleTable) (breakpoints : Breakpoints)
    (scans : List (List String)) :
    Collected table breakpoints (afterScans table breakpoints scans) (candidates scans) := by
  have start : Collected table breakpoints { breakpoints } [] := ⟨rfl, by simp, by simp⟩
  have run (scans : List (List String)) (layer : Layer) (seen : List String)
      (h : Collected table breakpoints layer seen) :
      Collected table breakpoints (scans.foldl (Layer.update table) layer)
        (seen ++ candidates scans) := by
    induction scans generalizing layer seen with
    | nil => simpa [candidates] using h
    | cons sources rest ih =>
      have tail := ih (layer.update table sources) _ (h.foldl (Candidate.ofSources sources))
      rw [List.append_assoc] at tail
      exact tail
  exact run scans _ [] start

/-- Two layers over one table have the same text if the candidates scanned for them that have a rule
are the same. In particular scans may be taken together, and scans without such a candidate may be
left out. -/
theorem text_afterScans (table : RuleTable) (breakpoints : Breakpoints) :
    (∀ scans others : List (List String),
      (∀ c, (Utility.resolve? table breakpoints c).isSome →
        (c ∈ candidates scans ↔ c ∈ candidates others)) →
      (afterScans table breakpoints scans).text = (afterScans table breakpoints others).text) ∧
    (∀ scans, (afterScans table breakpoints scans).text =
      (afterScans table breakpoints [scans.flatten]).text) ∧
    ∀ scans more, (∀ c ∈ candidates more, Utility.resolve? table breakpoints c = none) →
      (afterScans table breakpoints (scans ++ more)).text =
        (afterScans table breakpoints scans).text := by
  have same (scans others : List (List String))
      (h : ∀ c, (Utility.resolve? table breakpoints c).isSome →
        (c ∈ candidates scans ↔ c ∈ candidates others)) :
      (afterScans table breakpoints scans).text = (afterScans table breakpoints others).text := by
    have here := collected_afterScans table breakpoints scans
    have there := collected_afterScans table breakpoints others
    have one := (afterScans table breakpoints scans).render_utilities
    have two := (afterScans table breakpoints others).render_utilities
    have known := (afterScans table breakpoints scans).known
    rw [here.fixed] at one known
    rw [there.fixed] at two
    have equal : Utility.render (afterScans table breakpoints scans).utilities breakpoints =
        Utility.render (afterScans table breakpoints others).utilities breakpoints :=
      Utility.render_congr
        (fun u hu => (((here.mem_utilities u).1 hu).imp fun _ hc => hc.2)) known fun u => by
        rw [here.mem_utilities, there.mem_utilities]
        refine exists_congr fun c => and_congr_left fun hc => h c ?_
        simp [hc]
    rw [one, two] at equal
    exact Except.ok.inj equal
  refine ⟨same, fun scans => same _ _ fun c _ => ?_, fun scans more none => same _ _ fun c hc => ?_⟩
  · rw [candidates_flatten]
  · have notMore : c ∉ candidates more := fun hm => by simp [none c hm] at hc
    simp only [candidates, List.flatMap_append, List.mem_append] at notMore ⊢
    exact or_iff_left notMore

private def spacing : RuleTable :=
  .ofList [("p-1", { css := "padding: 1px;" }), ("m-1", { css := "margin: 1px;" })]

private def medium : Breakpoints := [("md", "@media (min-width: 768px)")]

/-- Scans in another order, with other words between the classes. -/
theorem text_afterScans_reversed :
    (∀ c, (Utility.resolve? spacing medium c).isSome →
      (c ∈ candidates [["<p-1 m-1>"], ["md:p-1 zz"]] ↔
        c ∈ candidates [["md:p-1", "m-1 nope p-1"]])) ∧
    (afterScans spacing medium [["<p-1 m-1>"], ["md:p-1 zz"]]).text =
      (afterScans spacing medium [["md:p-1", "m-1 nope p-1"]]).text := by
  have one : candidates [["<p-1 m-1>"], ["md:p-1 zz"]] = ["p-1", "m-1", "md:p-1", "zz"] := by decide
  have two : candidates [["md:p-1", "m-1 nope p-1"]] = ["md:p-1", "m-1", "nope", "p-1"] := by decide
  have zz : Utility.resolve? spacing medium "zz" = none := by decide +kernel
  have nope : Utility.resolve? spacing medium "nope" = none := by decide +kernel
  have h : ∀ c, (Utility.resolve? spacing medium c).isSome →
      (c ∈ candidates [["<p-1 m-1>"], ["md:p-1 zz"]] ↔
        c ∈ candidates [["md:p-1", "m-1 nope p-1"]]) := by
    intro c hc
    have notZz : c ≠ "zz" := by rintro rfl; simp [zz] at hc
    have notNope : c ≠ "nope" := by rintro rfl; simp [nope] at hc
    rw [one, two]
    simp only [List.mem_cons, List.not_mem_nil, notZz, notNope, or_false, false_or]
    constructor
    · rintro (rfl | rfl | rfl) <;> simp
    · rintro (rfl | rfl | rfl) <;> simp
  exact ⟨h, (text_afterScans spacing medium).1 _ _ h⟩

end Layer

end UtilityCss
