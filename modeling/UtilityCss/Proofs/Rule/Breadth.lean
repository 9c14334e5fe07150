import Mathlib.Data.List.Flatten
import UtilityCss.Proofs.Rule.Ladder
import UtilityCss.Proofs.Text.Fingerprint

/-! Which of two utilities of a ladder is written first. The specificities of a ladder settle most
pairs; where two rungs meet at one specificity, the order of the rules in their table decides. -/
namespace UtilityCss.Rule

open Catalogue

/-- Wherever both rules are used, the first one is written first: by its lower specificity, or
because every rule that could share a block with the second one lies behind the first one. -/
def Precedes (entries : List (String × Rule)) (first second : String) : Prop :=
  ∃ rule rule', (first, rule) ∈ entries ∧ (second, rule') ∈ entries ∧
    (rule.specificity < rule'.specificity ∨ rule.specificity = rule'.specificity ∧
      ∃ front rest, entries = front ++ rest ∧ (first, rule) ∈ front ∧
        ∀ e ∈ front, e.2.specificity = rule'.specificity → e.2.css ≠ rule'.css)

theorem Precedes.mem_names {entries : List (String × Rule)} {first second : String}
    (h : Precedes entries first second) :
    first ∈ entries.map (·.1) ∧ second ∈ entries.map (·.1) := by
  obtain ⟨rule, rule', inside, inside', -⟩ := h
  exact ⟨List.mem_map_of_mem inside, List.mem_map_of_mem inside'⟩

/-- Pairs in which the narrow rule is written before the broad one. -/
inductive Misordered (t : Theme) : String → String → Prop
  | sideColor {axis side : String} {c c' : String × Theme.Color} {percent : Nat}
      (haxis : axis ∈ ["border-x-", "border-y-"])
      (hside : side ∈ ["border-t-", "border-r-", "border-b-", "border-l-"])
      (hc : c ∈ t.color) (triplet : c.2.isTriplet) (hp : percent ∈ opacitySteps)
      (hc' : c' ∈ t.color) :
      Misordered t (axis ++ (c.1 ++ "/" ++ toString percent)) (side ++ c'.1)
  | gridLine {track edge : String} {i j : Nat} (ht : track ∈ ["col", "row"])
      (he : edge ∈ ["-start-", "-end-"]) (hi : 1 ≤ i) (hij : i ≤ j) (hj : j ≤ 12) :
      Misordered t (track ++ "-span-" ++ toString j) (track ++ edge ++ toString i)

section Grid

/-- No two utilities of the catalogue have the same declarations. -/
theorem css_nodup : (Catalogue.entries.map (·.2.css)).Nodup :=
  Text.nodup_of_distinct (by decide +kernel)

variable {rest : List (String × Rule)} {a b : String × Rule}

/-- At one specificity the catalogue decides by its order. -/
theorem precedes_of_sublist (h : [a, b].Sublist Catalogue.entries)
    (tie : a.2.specificity = b.2.specificity) : Precedes (Catalogue.entries ++ rest) a.1 b.1 := by
  obtain ⟨front, behind, split, ha, hb⟩ := List.cons_sublist_iff.1 h
  have inside {e : String × Rule} (he : e ∈ front ++ behind) : e ∈ Catalogue.entries ++ rest :=
    List.mem_append_left _ (split ▸ he)
  rw [List.singleton_sublist] at hb
  refine ⟨a.2, b.2, inside (List.mem_append_left _ ha), inside (List.mem_append_right _ hb),
    .inr ⟨tie, front, behind ++ rest, ?_, ha, fun e he _ same => ?_⟩⟩
  · rw [split, List.append_assoc]
  · have apart := css_nodup
    rw [split, List.map_append] at apart
    exact List.disjoint_of_nodup_append apart (List.mem_map_of_mem he)
      (same ▸ List.mem_map_of_mem hb)

private theorem mem_lines {i : Nat} : i ∈ List.range' 1 12 ↔ 1 ≤ i ∧ i ≤ 12 := by
  rw [List.mem_range'_1]
  omega

/-- Lines with lower numbers come first. -/
private theorem sublist_of_lt {i j : Nat} (hi : 1 ≤ i) (hij : i < j) (hj : j ≤ 12)
    (ha : a ∈ gridTrack i) (hb : b ∈ gridTrack j) : [a, b].Sublist Catalogue.entries := by
  have numbers : ∀ j ∈ List.range' 1 12, ∀ i < j, 1 ≤ i → [i, j].Sublist (List.range' 1 12) := by
    decide
  have pair := numbers j (mem_lines.2 ⟨by omega, hj⟩) i hij hi
  refine List.Sublist.trans ?_ ((pair.flatMap gridTrack).trans gridTracks_sublist)
  rw [List.flatMap_cons, List.flatMap_singleton]
  exact (List.singleton_sublist.2 ha).append (List.singleton_sublist.2 hb)

/-- For one line the start and the end come before the span. -/
private theorem sublist_of_line {i : Nat} (hi : 1 ≤ i) (hi' : i ≤ 12)
    (ha : a ∈ (gridTrack i).take 6) (hb : b ∈ (gridTrack i).drop 6) :
    [a, b].Sublist Catalogue.entries := by
  have number := List.singleton_sublist.2 (mem_lines.2 ⟨hi, hi'⟩)
  refine List.Sublist.trans ?_ ((number.flatMap gridTrack).trans gridTracks_sublist)
  rw [List.flatMap_singleton, ← List.take_append_drop 6 (gridTrack i)]
  exact (List.singleton_sublist.2 ha).append (List.singleton_sublist.2 hb)

variable {track edge : String}

private theorem span_mem (ht : track ∈ ["col", "row"]) (n : Nat) :
    ∃ rule, (track ++ "-span-" ++ toString n, rule) ∈ (gridTrack n).drop 6 ∧
      rule.specificity = 0 := by
  rw [← mem_ranks]
  rcases List.mem_pair.1 ht with rfl | rfl
  all_goals simp [ranks, gridTrack, named]

private theorem edge_mem (ht : track ∈ ["col", "row"]) (he : edge ∈ ["-start-", "-end-"])
    (n : Nat) :
    ∃ rule, (track ++ edge ++ toString n, rule) ∈ (gridTrack n).take 6 ∧
      rule.specificity = 0 := by
  rw [← mem_ranks]
  rcases List.mem_pair.1 ht with rfl | rfl
  all_goals
    rcases List.mem_pair.1 he with rfl | rfl
    all_goals simp [ranks, gridTrack, named]

theorem precedes_span {i j : Nat} (ht : track ∈ ["col", "row"]) (he : edge ∈ ["-start-", "-end-"])
    (hi : 1 ≤ i) (hij : i ≤ j) (hj : j ≤ 12) : Precedes (Catalogue.entries ++ rest)
      (track ++ edge ++ toString i) (track ++ "-span-" ++ toString j) := by
  obtain ⟨rule, ha, low⟩ := edge_mem ht he i
  obtain ⟨rule', hb, low'⟩ := span_mem ht j
  refine precedes_of_sublist (a := (_, rule)) (b := (_, rule')) ?_ (low.trans low'.symm)
  rcases Nat.lt_or_eq_of_le hij with h | rfl
  · exact sublist_of_lt hi h hj (List.mem_of_mem_take ha) (List.mem_of_mem_drop hb)
  · exact sublist_of_line hi hj ha hb

theorem precedes_edge {i j : Nat} (ht : track ∈ ["col", "row"]) (he : edge ∈ ["-start-", "-end-"])
    (hj : 1 ≤ j) (hij : j < i) (hi : i ≤ 12) : Precedes (Catalogue.entries ++ rest)
      (track ++ "-span-" ++ toString j) (track ++ edge ++ toString i) := by
  obtain ⟨rule, ha, low⟩ := edge_mem ht he i
  obtain ⟨rule', hb, low'⟩ := span_mem ht j
  exact precedes_of_sublist (a := (_, rule')) (b := (_, rule))
    (sublist_of_lt hj hij hi (List.mem_of_mem_drop hb) (List.mem_of_mem_take ha))
    (low'.trans low.symm)

end Grid

section Color

variable {colors : List (String × Theme.Color)} {rest : List (String × Rule)} {e : String × Rule}
  {f g : Family} {c c' : String × Theme.Color} {percent : Nat}

/-- The bytes of the property that is declared first. -/
def firstProperty (css : String) : List UInt8 :=
  css.toByteArray.data.toList.takeWhile (· ≠ ':'.toUInt8)

theorem firstProperty_declaration (property value : String) :
    firstProperty (property ++ ": " ++ value) = firstProperty property := by
  have bytes : (property ++ ": " ++ value).toByteArray.data.toList =
      property.toByteArray.data.toList ++ ':'.toUInt8 :: ' '.toUInt8 ::
        value.toByteArray.data.toList := by
    rw [String.append_assoc, String.toByteArray_append, String.toByteArray_append,
      ByteArray.data_append, ByteArray.data_append, Array.toList_append, Array.toList_append]
    rfl
  rw [firstProperty, firstProperty, bytes, List.takeWhile_append]
  split
  · next whole =>
    rw [(List.takeWhile_sublist _).eq_of_length whole]
    exact List.append_nil _
  · rfl

private theorem Family.mem_entries (he : e ∈ f.entries colors) :
    (∃ name color, e = f.mainRule name color) ∨
    (∃ name color percent, e = f.stepRule name color percent) ∨
      ∃ percent, e = f.opacityRule percent := by
  rcases List.mem_append.1 he with he | he
  · obtain ⟨c, -, he⟩ := List.mem_flatMap.1 he
    rcases List.mem_cons.1 he with rfl | he
    · exact .inl ⟨_, _, rfl⟩
    · split at he
      · obtain ⟨percent, -, rfl⟩ := List.mem_map.1 he
        exact .inr (.inl ⟨_, _, _, rfl⟩)
      · cases he
  · obtain ⟨percent, -, rfl⟩ := List.mem_map.1 he
    exact .inr (.inr ⟨_, rfl⟩)

private theorem firstProperty_mainRule (f : Family) (name : String) (color : Theme.Color) :
    firstProperty (f.mainRule name color).2.css = firstProperty f.opacityProperty := by
  have split : (f.mainRule name color).2.css =
      f.opacityProperty ++ ": " ++ ("1; " ++ f.declare (f.mainColor color)) := by
    have mark : ": 1; " = ": " ++ "1; " := rfl
    simp only [Family.mainRule, named, mark, String.append_assoc]
  rw [split, firstProperty_declaration]

private theorem firstProperty_opacityRule (f : Family) (percent : Nat) :
    firstProperty (f.opacityRule percent).2.css = firstProperty f.opacityProperty := by
  simp only [Family.opacityRule, named]
  rw [String.append_assoc, firstProperty_declaration]

/-- The five families before the sides of the border set one property each. -/
private theorem sets_of_mem (hf : f ∈ families.take 5) : f.specificity = 0 ∧ ∃ property ∈
    ["outline-color", "color", "text-decoration-color", "background-color", "border-color"],
    f.declare = sets property := by
  simp only [families, List.take_succ_cons, List.take_zero, List.mem_cons, List.not_mem_nil,
    or_false] at hf
  rcases hf with rfl | rfl | rfl | rfl | rfl
  · exact ⟨rfl, _, by simp, rfl⟩
  · exact ⟨rfl, _, by simp, rfl⟩
  · exact ⟨rfl, _, by simp, rfl⟩
  · exact ⟨rfl, _, by simp, rfl⟩
  · exact ⟨rfl, _, by simp, rfl⟩

private theorem exists_axis : ∀ axis ∈ ["border-x-", "border-y-"],
    ∃ g ∈ (families.drop 10).take 2, g.stem ++ "-" = axis := by decide

/-- The families for an axis of the border. -/
private theorem axis_of_mem (hg : g ∈ (families.drop 10).take 2) : g.specificity = 1 ∧
    g.opacityProperty ∈ ["--tw-border-x-opacity", "--tw-border-y-opacity"] ∧
    ∀ color, ∃ property ∈ ["border-left-color", "border-top-color"],
      firstProperty (g.declare color) = firstProperty property := by
  simp only [families, List.drop_succ_cons, List.drop_zero, List.take_succ_cons, List.take_zero,
    List.mem_cons, List.not_mem_nil, or_false] at hg
  rcases hg with rfl | rfl
  · refine ⟨rfl, by decide, fun color => ⟨"border-left-color", by simp, ?_⟩⟩
    have mark : "border-left-color: " = "border-left-color" ++ ": " := rfl
    simp only [mark, String.append_assoc]
    rw [← String.append_assoc, firstProperty_declaration]
  · refine ⟨rfl, by decide, fun color => ⟨"border-top-color", by simp, ?_⟩⟩
    have mark : "border-top-color: " = "border-top-color" ++ ": " := rfl
    simp only [mark, String.append_assoc]
    rw [← String.append_assoc, firstProperty_declaration]

private theorem precedes_of_front (k : Nat) {a b : String × Rule}
    (ha : a ∈ (families.take k).flatMap (·.entries colors)) (hb : b ∈ paletteEntries colors)
    (tie : a.2.specificity = b.2.specificity)
    (catalogue : ∀ e ∈ Catalogue.entries, e.2.specificity = b.2.specificity →
      e.2.css ≠ b.2.css)
    (shades : ∀ f ∈ families.take k, ∀ e ∈ f.entries colors, e.2.specificity = b.2.specificity →
      e.2.css ≠ b.2.css) :
    Precedes (Catalogue.entries ++ paletteEntries colors ++ rest) a.1 b.1 := by
  have split : paletteEntries colors = (families.take k).flatMap (·.entries colors) ++
      (families.drop k).flatMap (·.entries colors) := by
    rw [← List.flatMap_append, List.take_append_drop, paletteEntries]
  refine ⟨a.2, b.2, ?_, by simp [hb], .inr ⟨tie,
    Catalogue.entries ++ (families.take k).flatMap (·.entries colors),
    (families.drop k).flatMap (·.entries colors) ++ rest, ?_, by simp [ha], ?_⟩⟩
  · rw [split]
    simp [ha]
  · rw [split]
    simp only [List.append_assoc]
  · intro e he same
    rcases List.mem_append.1 he with he | he
    · exact catalogue e he same
    · obtain ⟨f, hf, he⟩ := List.mem_flatMap.1 he
      exact shades f hf e he same

/-- A border color with an opacity comes before the color of an axis. -/
theorem precedes_axis {axis : String} (haxis : axis ∈ ["border-x-", "border-y-"])
    (hc : c ∈ colors) (triplet : c.2.isTriplet) (hp : percent ∈ opacitySteps) (hc' : c' ∈ colors) :
    Precedes (Catalogue.entries ++ paletteEntries colors ++ rest)
      ("border-" ++ (c.1 ++ "/" ++ toString percent)) (axis ++ c'.1) := by
  obtain ⟨f, hf, stem⟩ : ∃ f ∈ families.take 5, f.stem = "border" := by decide
  obtain ⟨g, hg, rfl⟩ := exists_axis axis haxis
  obtain ⟨one, opacity, -⟩ := axis_of_mem hg
  have inside := List.mem_of_mem_drop (List.mem_of_mem_take hg)
  have first := firstProperty_mainRule g c'.1 c'.2
  have rank : (g.mainRule c'.1 c'.2).2.specificity = 1 := one
  have name : "border-" ++ (c.1 ++ "/" ++ toString percent) = (f.stepRule c.1 c.2 percent).1 := by
    rw [f.name_stepRule, stem]
    rfl
  rw [name]
  refine precedes_of_front 5 (b := g.mainRule c'.1 c'.2)
    (List.mem_flatMap.2 ⟨f, hf, f.stepRule_mem hc triplet hp⟩)
    (List.mem_flatMap.2 ⟨g, inside, g.mainRule_mem hc'⟩) ?_ ?_ ?_
  · rw [rank, Family.stepRule, named, (sets_of_mem hf).1]
    rfl
  · intro e he same css
    have apart : ∀ e ∈ Catalogue.entries, e.2.specificity = 1 →
        ∀ property ∈ ["--tw-border-x-opacity", "--tw-border-y-opacity"],
          firstProperty e.2.css ≠ firstProperty property := by decide +kernel
    rw [← css] at first
    exact apart e he (same.trans rank) _ opacity first
  · intro f hf e he same css
    obtain ⟨zero, property, hproperty, declare⟩ := sets_of_mem hf
    rw [rank] at same
    rw [← css] at first
    rcases Family.mem_entries he with ⟨_, _, rfl⟩ | ⟨_, _, _, rfl⟩ | ⟨_, rfl⟩
    · simp [Family.mainRule, named, zero] at same
    · have apart : ∀ property ∈ ["outline-color", "color", "text-decoration-color",
          "background-color", "border-color"],
          ∀ other ∈ ["--tw-border-x-opacity", "--tw-border-y-opacity"],
            firstProperty property ≠ firstProperty other := by decide +kernel
      simp only [Family.stepRule, named, declare, sets] at first
      rw [String.append_assoc, firstProperty_declaration] at first
      exact apart property hproperty _ opacity first
    · simp [Family.opacityRule, named, zero] at same

/-- The color of a side of the border comes before the color of an axis with an opacity. -/
theorem precedes_shade {axis side : String} (haxis : axis ∈ ["border-x-", "border-y-"])
    (hside : side ∈ ["border-t-", "border-r-", "border-b-", "border-l-"])
    (hc : c ∈ colors) (triplet : c.2.isTriplet) (hp : percent ∈ opacitySteps) (hc' : c' ∈ colors) :
    Precedes (Catalogue.entries ++ paletteEntries colors ++ rest) (side ++ c'.1)
      (axis ++ (c.1 ++ "/" ++ toString percent)) := by
  have sides : ∀ side ∈ ["border-t-", "border-r-", "border-b-", "border-l-"],
    ∃ f ∈ families.take 10, f.stem ++ "-" = side ∧ f.specificity = 2 := by decide
  obtain ⟨f, hf, rfl, two⟩ := sides side hside
  obtain ⟨g, hg, rfl⟩ := exists_axis axis haxis
  obtain ⟨one, -, step⟩ := axis_of_mem hg
  obtain ⟨property, hproperty, first⟩ :
      ∃ property ∈ ["border-left-color", "border-top-color"],
        firstProperty (g.stepRule c.1 c.2 percent).2.css = firstProperty property := step _
  have inside := List.mem_of_mem_drop (List.mem_of_mem_take hg)
  have rank : (g.stepRule c.1 c.2 percent).2.specificity = 2 := by
    rw [Family.stepRule, named, one]
    rfl
  rw [← g.name_stepRule c.1 c.2]
  refine precedes_of_front 10 (a := f.mainRule c'.1 c'.2) (b := g.stepRule c.1 c.2 percent)
    (List.mem_flatMap.2 ⟨f, hf, f.mainRule_mem hc'⟩)
    (List.mem_flatMap.2 ⟨g, inside, g.stepRule_mem hc triplet hp⟩) (two.trans rank.symm) ?_ ?_
  · intro e he same css
    have apart : ∀ e ∈ Catalogue.entries, e.2.specificity = 2 →
        ∀ property ∈ ["border-left-color", "border-top-color"],
          firstProperty e.2.css ≠ firstProperty property := by decide +kernel
    rw [← css] at first
    exact apart e he (same.trans rank) _ hproperty first
  · intro f hf e he same css
    have apart : ∀ f ∈ families, ∀ property ∈ ["border-left-color", "border-top-color"],
        firstProperty f.opacityProperty ≠ firstProperty property := by decide +kernel
    have even : ∀ f ∈ families.take 10, f.specificity + 1 ≠ 2 := by decide
    rw [← css] at first
    rcases Family.mem_entries he with ⟨_, _, rfl⟩ | ⟨_, _, _, rfl⟩ | ⟨_, rfl⟩
    · rw [firstProperty_mainRule] at first
      exact apart f (List.mem_of_mem_take hf) property hproperty first
    · exact even f hf (same.trans rank)
    · rw [firstProperty_opacityRule] at first
      exact apart f (List.mem_of_mem_take hf) property hproperty first

end Color

section Theme

variable {t : Theme} {entries : List (String × Rule)} {l : Ladder} {r r' : Rung}
  {broad narrow : String} {s s' : Int}

private theorem precedes_of_lt (built : t.entries = .ok entries) (hl : l ∈ ladders)
    (order : [r, r'].Sublist l.rungs) (hs : (broad, s) ∈ r.names (l.endings t))
    (hs' : (narrow, s') ∈ r'.names (l.endings t)) (h : s < s') :
    Precedes entries broad narrow := by
  have hr : r ∈ l.rungs := order.subset List.mem_cons_self
  have hr' : r' ∈ l.rungs := order.subset (by simp)
  obtain ⟨rule, inside, rfl⟩ := mem_ranks.1 (names_subset hl hr built hs)
  obtain ⟨rule', inside', rfl⟩ := mem_ranks.1 (names_subset hl hr' built hs')
  exact ⟨rule, rule', inside, inside', .inl h⟩

/-- On most ladders the specificities rise from rung to rung, whatever the endings are. -/
private theorem precedes_of_rising (built : t.entries = .ok entries) (hl : l ∈ ladders)
    (rising : l.rungs.Pairwise fun r r' => r.specificity < r'.specificity)
    (plain : ∀ e ∈ l.endings t, e.2 = 0) (h : l.Narrows t broad narrow) :
    Precedes entries broad narrow := by
  obtain ⟨r, r', order, ⟨s, hs⟩, s', hs'⟩ := h
  refine precedes_of_lt built hl order hs hs' ?_
  obtain ⟨_, _, e, he, -, rfl⟩ := Rung.mem_names.1 hs
  obtain ⟨_, _, e', he', -, rfl⟩ := Rung.mem_names.1 hs'
  rw [plain e he, plain e' he', Int.add_zero, Int.add_zero]
  exact List.pairwise_iff_forall_sublist.1 rising order

private theorem precedes_of_borderColor (built : t.entries = .ok entries)
    (h : borderColor.Narrows t broad narrow) (ordered : ¬ Misordered t broad narrow) :
    Precedes entries broad narrow := by
  obtain ⟨r, r', order, ⟨s, hs⟩, s', hs'⟩ := h
  have lower := precedes_of_lt built (by simp [ladders]) order hs hs'
  obtain ⟨stem, hstem, e, he, rfl, rfl⟩ := Rung.mem_names.1 hs
  obtain ⟨stem', hstem', e', he', rfl, rfl⟩ := Rung.mem_names.1 hs'
  have rising : borderColor.rungs.Pairwise fun r r' => r.specificity < r'.specificity := by decide
  have rise := List.pairwise_iff_forall_sublist.1 rising order
  obtain ⟨c, hc, rfl | ⟨triplet, percent, hp, rfl⟩⟩ := mem_colorEndings.1 he
  · obtain ⟨c', -, rfl | ⟨-, _, -, rfl⟩⟩ := mem_colorEndings.1 he'
    · exact lower (by simpa using rise)
    · exact lower (by simp; omega)
  · obtain ⟨c', hc', rfl | ⟨-, _, -, rfl⟩⟩ := mem_colorEndings.1 he'
    · -- Only the opacity of the broader color can make up for a rung.
      by_cases next : r'.specificity = r.specificity + 1
      · have meet : ∀ r ∈ borderColor.rungs, ∀ r' ∈ borderColor.rungs,
            r'.specificity = r.specificity + 1 →
            r.stems = ["border-"] ∧ r'.stems = ["border-x-", "border-y-"] ∨
            r.stems = ["border-x-", "border-y-"] ∧
              r'.stems = ["border-t-", "border-r-", "border-b-", "border-l-"] := by decide
        rcases meet r (order.subset (by simp)) r' (order.subset (by simp)) next with
          ⟨all, axes⟩ | ⟨axes, sides⟩
        · obtain ⟨_, _, _, _, rfl⟩ := entries_eq built
          rw [all, List.mem_singleton] at hstem
          rw [hstem, ← List.append_assoc]
          exact precedes_axis (axes ▸ hstem') hc triplet hp hc'
        · exact absurd (.sideColor (axes ▸ hstem) (sides ▸ hstem') hc triplet hp hc') ordered
      · exact lower (by simp; omega)
    · exact lower (by simpa using rise)

private theorem precedes_of_gridLines {track : String} (ht : track ∈ ["col", "row"])
    (built : t.entries = .ok entries) (h : (gridLines track).Narrows t broad narrow)
    (ordered : ¬ Misordered t broad narrow) : Precedes entries broad narrow := by
  obtain ⟨r, r', order, ⟨s, hs⟩, s', hs'⟩ := h
  have pair := order.eq_of_length rfl
  obtain ⟨stem, hstem, e, he, rfl, rfl⟩ := Rung.mem_names.1 hs
  obtain ⟨stem', hstem', e', he', rfl, rfl⟩ := Rung.mem_names.1 hs'
  obtain ⟨j, hj, rfl⟩ := List.mem_map.1 he
  obtain ⟨i, hi, rfl⟩ := List.mem_map.1 he'
  simp only [gridLines, List.cons.injEq, and_true] at pair
  obtain ⟨rfl, rfl⟩ := pair
  obtain rfl := List.mem_singleton.1 hstem
  obtain ⟨edge, hedge, rfl⟩ : ∃ edge ∈ ["-start-", "-end-"], stem' = track ++ edge := by
    simpa using hstem'
  rw [mem_lines] at hi hj
  obtain ⟨_, _, _, _, rfl⟩ := entries_eq built
  by_cases hij : i ≤ j
  · exact absurd (.gridLine ht hedge hi.1 hij hj.2) ordered
  · exact precedes_edge ht hedge hj.1 (by omega) hi.2

/-- The broader utility is written first, but for the two slips. -/
theorem precedes_of_narrower (built : t.entries = .ok entries) (h : Narrower t broad narrow)
    (ordered : ¬ Misordered t broad narrow) : Precedes entries broad narrow := by
  obtain ⟨l, hl, h⟩ := h
  have mem := hl
  simp only [ladders, List.mem_cons, List.not_mem_nil, or_false] at mem
  rcases mem with rfl | rfl | rfl | rfl | rfl | rfl | rfl | rfl | rfl | rfl
  · exact precedes_of_rising built hl (by decide) (fun _ => eq_zero_of_mem_keyEndings) h
  · exact precedes_of_rising built hl (by decide) (fun _ => eq_zero_of_mem_keyEndings) h
  · exact precedes_of_rising built hl (by decide) (fun _ => eq_zero_of_mem_keyEndings) h
  · exact precedes_of_rising built hl (by decide) (fun _ => eq_zero_of_mem_keyEndings) h
  · refine precedes_of_rising built hl (by decide) (fun e he => ?_) h
    rcases List.mem_append.1 he with he | he
    · exact eq_zero_of_mem_keyEndings he
    · rw [List.mem_singleton.1 he]
  · exact precedes_of_rising built hl (by decide) (fun _ => eq_zero_of_mem_keyEndings) h
  · exact precedes_of_rising built hl (by decide) (fun _ => eq_zero_of_mem_keyEndings) h
  · exact precedes_of_borderColor built h ordered
  · exact precedes_of_gridLines (by decide) built h ordered
  · exact precedes_of_gridLines (by decide) built h ordered

/-- The narrower utility is written first. -/
theorem Misordered.precedes (h : Misordered t broad narrow) (built : t.entries = .ok entries) :
    Precedes entries narrow broad := by
  obtain ⟨_, _, _, _, rfl⟩ := entries_eq built
  cases h with
  | sideColor haxis hside hc triplet hp hc' =>
    rw [← List.append_assoc]
    exact precedes_shade haxis hside hc triplet hp hc'
  | gridLine ht he hi hij hj => exact precedes_span ht he hi hij hj

end Theme

end UtilityCss.Rule
