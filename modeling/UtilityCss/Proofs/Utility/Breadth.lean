import UtilityCss.Proofs.Rule.Breadth
import UtilityCss.Proofs.Rule.Table
import UtilityCss.Proofs.Utility.Order

/-! The order of broad and narrow utilities in the text of a layer. A narrow utility is written
behind the broader one, where it wins, except for two kinds of pairs that come the other way. -/
namespace UtilityCss.Layer

open Utility Rule

variable {table : RuleTable} {breakpoints : Breakpoints} {scans : List (List String)}
  {layer : Layer} {x y : String} {u v : Utility}

/-- A class stands for the rule that is listed with its name. -/
private theorem eq_of_listed {i : Nat} {rule : Rule}
    (h : table.toList[i]? = some ((splitModifiers x).2, rule))
    (rx : resolve? table breakpoints x = some u) :
    u.specificity = rule.specificity ∧ u.css = rule.css ∧ u.position = i := by
  obtain rfl := Option.some.inj (rx.symm.trans (resolve?_of_rule_at h breakpoints))
  exact ⟨rfl, rfl, rfl⟩

private theorem exists_resolve (breakpoints : Breakpoints)
    (h : (splitModifiers x).2 ∈ table.names) :
    ∃ u, resolve? table breakpoints x = some u := by
  obtain ⟨⟨_, rule⟩, inside, rfl⟩ := List.mem_map.1 h
  obtain ⟨i, hi⟩ := List.getElem?_of_mem inside
  exact ⟨_, resolve?_of_rule_at hi breakpoints⟩

/-- A class leads another one if all rules with the declarations of the other one lie behind its
own. -/
private theorem leads_of_fresh {front rest : List (String × Rule)} (hu : u ∈ layer.utilities)
    (resolved : ∀ w ∈ layer.utilities, IsResolved table breakpoints w)
    (listed : table.toList = front ++ rest) (inside : u.position < front.length)
    (fresh : ∀ e ∈ front, e.2.specificity = v.specificity → e.2.css ≠ v.css) : layer.Leads u v := by
  refine ⟨u, hu, rfl, fun b hb key => ?_⟩
  obtain ⟨j, _, rule, hj, there, same, css⟩ := (resolved b hb).rule_at
  simp only [groupKey, Prod.mk.injEq] at key
  by_contra late
  have early : j < front.length := by omega
  rw [listed, List.getElem?_append_left early] at there
  exact fresh _ (List.mem_of_getElem? there) (same.symm.trans key.2.1) (css.symm.trans key.2.2)

/-- One block of a bucket is written before another one, and so it stands before it in the text. -/
structure StandsBefore (layer : Layer) (u v : Utility) : Prop where
  bucket : u.breakpoint = v.breakpoint
  first : u.selector ∈ selectorsOf layer.utilities u
  second : v.selector ∈ selectorsOf layer.utilities v
  order : layer.WritesBefore u v
  text : ∃ front between behind, layer.text = front ++ (blockOf layer.utilities u).block ++
    between ++ (blockOf layer.utilities v).block ++ behind

theorem WritesBefore.standsBefore (h : layer.WritesBefore u v) (hu : u ∈ layer.utilities)
    (hv : v ∈ layer.utilities) (bucket : u.breakpoint = v.breakpoint) : layer.StandsBefore u v where
  bucket := bucket
  first := mem_selectorsOf.2 ⟨u, hu, rfl, rfl⟩
  second := mem_selectorsOf.2 ⟨v, hv, rfl, rfl⟩
  order := h
  text := h.text_eq hu bucket

/-- What precedes in the table is written first. -/
theorem writesBefore_of_precedes
    (h : Precedes table.toList (splitModifiers x).2 (splitModifiers y).2)
    (hx : x ∈ candidates scans) (hy : y ∈ candidates scans)
    (rx : resolve? table breakpoints x = some u) (ry : resolve? table breakpoints y = some v) :
    (afterScans table breakpoints scans).WritesBefore u v := by
  have hu := mem_afterScans.2 ⟨x, hx, rx⟩
  have hv := mem_afterScans.2 ⟨y, hy, ry⟩
  have resolved : ∀ w ∈ (afterScans table breakpoints scans).utilities,
      IsResolved table breakpoints w := resolved_afterScans scans
  obtain ⟨rule, rule', inside, inside', order⟩ := h
  obtain ⟨i, hi⟩ := List.getElem?_of_mem inside'
  obtain ⟨rank', css', -⟩ := eq_of_listed hi ry
  rcases order with low | ⟨tie, front, rest, listed, ahead, fresh⟩
  · obtain ⟨i, hi⟩ := List.getElem?_of_mem inside
    obtain ⟨rank, -⟩ := eq_of_listed hi rx
    exact writesBefore_of_specificity hu hv (by omega)
  · obtain ⟨i, hi⟩ := List.getElem?_of_mem ahead
    have short := (List.getElem?_eq_some_iff.1 hi).1
    obtain ⟨rank, css, place⟩ := eq_of_listed
      (by rw [listed, List.getElem?_append_left short, hi]) rx
    have apart : u.css ≠ v.css := by
      rw [css, css']
      exact fresh _ ahead tie
    refine (writesBefore_iff_leads resolved hu hv (by omega) apart).2
      (leads_of_fresh hu resolved listed (by omega) fun e he same => ?_)
    rw [css']
    exact fresh e he (same.trans rank')

private theorem exists_standsBefore {entries : List (String × Rule)}
    (distinct : (entries.map (·.1)).Nodup) (breakpoints : Breakpoints)
    (hx : x ∈ candidates scans) (hy : y ∈ candidates scans)
    (order : Precedes entries (splitModifiers x).2 (splitModifiers y).2) :
    ∃ u v, resolve? (.ofList entries) breakpoints x = some u ∧
      resolve? (.ofList entries) breakpoints y = some v ∧ (u.breakpoint = v.breakpoint →
        (afterScans (.ofList entries) breakpoints scans).StandsBefore u v) := by
  have listed : (RuleTable.ofList entries).toList = entries := RuleTable.toList_ofList distinct
  rw [← listed] at order
  obtain ⟨u, rx⟩ := exists_resolve breakpoints order.mem_names.1
  obtain ⟨v, ry⟩ := exists_resolve breakpoints order.mem_names.2
  exact ⟨u, v, rx, ry, (writesBefore_of_precedes order hx hy rx ry).standsBefore
    (mem_afterScans.2 ⟨x, hx, rx⟩) (mem_afterScans.2 ⟨y, hy, ry⟩)⟩

/-- In the layer of a theme whose rules have distinct names, the block of a broad utility stands
before the blocks of the narrower ones of its bucket, where these win. It stands behind them for a
side of the border against an axis with an opacity, and for a grid line against a span that is no
shorter than the number of the line. -/
theorem standsBefore_of_narrower {t : Theme} {entries : List (String × Rule)}
    (built : t.entries = .ok entries) (distinct : (entries.map (·.1)).Nodup)
    (breakpoints : Breakpoints) (hx : x ∈ candidates scans) (hy : y ∈ candidates scans)
    (narrower : Narrower t (splitModifiers x).2 (splitModifiers y).2) :
    let table := RuleTable.ofList entries
    let layer := afterScans table breakpoints scans
    ∃ u v, resolve? table breakpoints x = some u ∧ resolve? table breakpoints y = some v ∧
      (u.breakpoint = v.breakpoint →
        (¬ Misordered t (splitModifiers x).2 (splitModifiers y).2 → layer.StandsBefore u v) ∧
        (Misordered t (splitModifiers x).2 (splitModifiers y).2 → layer.StandsBefore v u)) := by
  intro table layer
  by_cases slip : Misordered t (splitModifiers x).2 (splitModifiers y).2
  · obtain ⟨v, u, ry, rx, order⟩ :=
      exists_standsBefore distinct breakpoints hy hx (slip.precedes built)
    exact ⟨u, v, rx, ry, fun bucket =>
      ⟨fun ordered => absurd slip ordered, fun _ => order bucket.symm⟩⟩
  · obtain ⟨u, v, rx, ry, order⟩ :=
      exists_standsBefore distinct breakpoints hx hy (precedes_of_narrower built narrower slip)
    exact ⟨u, v, rx, ry, fun bucket =>
      ⟨fun _ => order bucket, fun misordered => absurd misordered slip⟩⟩

private def reds : Theme := { color := [("red", ⟨"255 0 0", true⟩)] }

private theorem entries_reds :
    ∃ entries, reds.entries = .ok entries ∧ (entries.map (·.1)).Nodup := by
  obtain ⟨entries, built, distinct⟩ := exists_ok_of_any (x := reds.entries) (p := fun entries =>
    Text.distinct 0 ((entries.map (·.1)).map Text.fingerprint)) (by decide +kernel)
  exact ⟨entries, built, Text.nodup_of_distinct distinct⟩

private theorem breakpoint_eq (plain : (splitModifiers x).1 = [])
    (rx : resolve? table breakpoints x = some u) : u.breakpoint = "" := by
  simp only [resolve?, plain, bind, Option.bind_eq_some_iff] at rx
  obtain ⟨_, -, _, -, hu⟩ := rx
  obtain rfl := Option.some.inj hu
  rfl

private theorem begins_of_misordered {t : Theme} {broad narrow : String}
    (h : Misordered t broad narrow) :
    ∃ stem ∈ ["border-t-", "border-r-", "border-b-", "border-l-", "col", "row"],
      stem.toList <+: narrow.toList := by
  cases h with
  | sideColor _ hside _ _ _ _ =>
    exact ⟨_, List.mem_append_left ["col", "row"] hside, _, String.toList_append.symm⟩
  | @gridLine _ edge i _ ht _ _ _ _ =>
    refine ⟨_, List.mem_append_right ["border-t-", "border-r-", "border-b-", "border-l-"] ht,
      (edge ++ toString i).toList, ?_⟩
    simp only [String.append_assoc, String.toList_append]

/-- A border color with an opacity has the specificity of a color for an axis and stands before
it. -/
theorem standsBefore_of_narrower_reds :
    "border-red/50" ∈ candidates [["border-x-red border-red/50"]] ∧
    "border-x-red" ∈ candidates [["border-x-red border-red/50"]] ∧
    Narrower reds "border-red/50" "border-x-red" ∧
    ∃ entries, reds.entries = .ok entries ∧ (entries.map (·.1)).Nodup ∧ ∃ u v,
      resolve? (.ofList entries) [] "border-red/50" = some u ∧
      resolve? (.ofList entries) [] "border-x-red" = some v ∧ u.breakpoint = v.breakpoint ∧
      (afterScans (.ofList entries) [] [["border-x-red border-red/50"]]).StandsBefore u v := by
  have hx : "border-red/50" ∈ candidates [["border-x-red border-red/50"]] := by decide
  have hy : "border-x-red" ∈ candidates [["border-x-red border-red/50"]] := by decide
  have sx : splitModifiers "border-red/50" = ([], "border-red/50") := by decide
  have sy : splitModifiers "border-x-red" = ([], "border-x-red") := by decide
  have narrower : Narrower reds "border-red/50" "border-x-red" :=
    ⟨borderColor, by simp [ladders], _, _, .cons_cons _ (.cons_cons _ (.cons _ .slnil)),
      ⟨1, by decide⟩, ⟨1, by decide⟩⟩
  obtain ⟨entries, built, distinct⟩ := entries_reds
  obtain ⟨u, v, rx, ry, order⟩ := standsBefore_of_narrower built distinct [] hx hy
    (by rwa [sx, sy])
  rw [sx, sy] at order
  have bucket : u.breakpoint = v.breakpoint :=
    (breakpoint_eq (congrArg (·.1) sx) rx).trans (breakpoint_eq (congrArg (·.1) sy) ry).symm
  have ordered : ¬ Misordered reds "border-red/50" "border-x-red" := by
    intro slip
    obtain ⟨stem, hs, begins⟩ := begins_of_misordered slip
    exact absurd begins (by revert stem; decide)
  exact ⟨hx, hy, narrower, entries, built, distinct, u, v, rx, ry, bucket, (order bucket).1 ordered⟩

/-- The color of one side is written before the color with an opacity of the axis that has this
side, and loses against it. -/
theorem not_writesBefore_reds :
    "border-x-red/50" ∈ candidates [["border-l-red border-x-red/50"]] ∧
    "border-l-red" ∈ candidates [["border-l-red border-x-red/50"]] ∧
    Narrower reds "border-x-red/50" "border-l-red" ∧
    ∃ entries, reds.entries = .ok entries ∧ (entries.map (·.1)).Nodup ∧ ∃ u v,
      resolve? (.ofList entries) [] "border-x-red/50" = some u ∧
      resolve? (.ofList entries) [] "border-l-red" = some v ∧ u.breakpoint = v.breakpoint ∧
      ¬ (afterScans (.ofList entries) [] [["border-l-red border-x-red/50"]]).WritesBefore u v := by
  have hx : "border-x-red/50" ∈ candidates [["border-l-red border-x-red/50"]] := by decide
  have hy : "border-l-red" ∈ candidates [["border-l-red border-x-red/50"]] := by decide
  have sx : splitModifiers "border-x-red/50" = ([], "border-x-red/50") := by decide
  have sy : splitModifiers "border-l-red" = ([], "border-l-red") := by decide
  have narrower : Narrower reds "border-x-red/50" "border-l-red" :=
    ⟨borderColor, by simp [ladders], _, _, .cons _ (.cons_cons _ (.cons_cons _ .slnil)),
      ⟨2, by decide⟩, ⟨2, by decide⟩⟩
  have slip : Misordered reds "border-x-red/50" "border-l-red" :=
    @Misordered.sideColor reds "border-x-" "border-l-" ("red", _) ("red", _) 50 (by decide)
      (by decide) List.mem_cons_self rfl (by decide) List.mem_cons_self
  obtain ⟨entries, built, distinct⟩ := entries_reds
  have order : Precedes entries (splitModifiers "border-l-red").2
      (splitModifiers "border-x-red/50").2 := by
    rw [sx, sy]
    exact slip.precedes built
  obtain ⟨v, u, ry, rx, order⟩ := exists_standsBefore distinct [] hy hx order
  have bucket : u.breakpoint = v.breakpoint :=
    (breakpoint_eq (congrArg (·.1) sx) rx).trans (breakpoint_eq (congrArg (·.1) sy) ry).symm
  exact ⟨hx, hy, narrower, entries, built, distinct, u, v, rx, ry, bucket,
    (order bucket.symm).order.asymm⟩

end UtilityCss.Layer
