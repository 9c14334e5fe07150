import Mathlib.Data.List.Basic
import UtilityCss.Proofs.Except
import UtilityCss.Rule.Generate

/-! Ladders of utilities, from the shorthand of a property down to the utilities that set one part
of it, and the specificities that their rules are given. -/
namespace UtilityCss

namespace Rule

open Catalogue
open Json (Value)

/-- Names with the specificities of their rules. -/
def ranks (entries : List (String × Rule)) : List (String × Int) :=
  entries.map fun e => (e.1, e.2.specificity)

theorem mem_ranks {entries : List (String × Rule)} {name : String} {s : Int} :
    (name, s) ∈ ranks entries ↔ ∃ rule, (name, rule) ∈ entries ∧ rule.specificity = s := by
  constructor
  · intro h
    obtain ⟨⟨_, rule⟩, he, same⟩ := List.mem_map.1 h
    cases same
    exact ⟨rule, he, rfl⟩
  · rintro ⟨rule, he, rfl⟩
    exact List.mem_map.2 ⟨_, he, rfl⟩

/-- One rung of a ladder: what its names begin with, and the specificity of its rules. -/
structure Rung where
  specificity : Int
  stems : List String

/-- The names of a rung with the specificities of their rules. What an ending adds to the
specificity stands beside it. -/
def Rung.names (r : Rung) (endings : List (String × Int)) : List (String × Int) :=
  r.stems.flatMap fun stem => endings.map fun e => (stem ++ e.1, r.specificity + e.2)

/-- The utilities that set a property or a part of it, the broadest on the first rung. Every name is
a stem with one of the endings that the theme gives. -/
structure Ladder where
  rungs : List Rung
  endings : Theme → List (String × Int)

/-- Both names stand on the ladder, the broad one on an earlier rung than the narrow one. -/
def Ladder.Narrows (l : Ladder) (t : Theme) (broad narrow : String) : Prop :=
  ∃ r r', [r, r'].Sublist l.rungs ∧
    (∃ s, (broad, s) ∈ r.names (l.endings t)) ∧ ∃ s, (narrow, s) ∈ r'.names (l.endings t)

/-- Endings from the keys of a scale. They add nothing to the specificity. -/
def keyEndings (ending : String → String) (scale : List (String × Value)) : List (String × Int) :=
  scale.map fun e => (ending e.1, 0)

theorem eq_zero_of_mem_keyEndings {ending : String → String} {scale : List (String × Value)}
    {e : String × Int} (he : e ∈ keyEndings ending scale) : e.2 = 0 := by
  obtain ⟨_, -, rfl⟩ := List.mem_map.1 he
  rfl

def padding : Ladder where
  rungs := [⟨0, ["p-"]⟩, ⟨1, ["px-", "py-"]⟩, ⟨2, ["pt-", "pr-", "pb-", "pl-"]⟩]
  endings t := keyEndings id t.spacing

def margin : Ladder where
  rungs := [⟨0, ["m-", "-m-"]⟩, ⟨1, ["mx-", "my-", "-mx-", "-my-"]⟩,
    ⟨2, ["mt-", "mr-", "mb-", "ml-", "-mt-", "-mr-", "-mb-", "-ml-"]⟩]
  endings t := keyEndings id t.spacing

def gap : Ladder where
  rungs := [⟨0, ["gap-"]⟩, ⟨1, ["gap-x-", "gap-y-"]⟩]
  endings t := keyEndings id t.spacing

def inset : Ladder where
  rungs := [⟨0, ["inset-", "-inset-"]⟩,
    ⟨1, ["inset-x-", "inset-y-", "-inset-x-", "-inset-y-"]⟩,
    ⟨2, ["top-", "right-", "bottom-", "left-", "-top-", "-right-", "-bottom-", "-left-"]⟩]
  endings t := keyEndings id t.size

def size : Ladder where
  rungs := [⟨0, ["size-"]⟩, ⟨1, ["w-", "h-"]⟩]
  endings t := keyEndings id t.size ++ [("screen", 0)]

def rounded : Ladder where
  rungs := [⟨0, ["rounded"]⟩, ⟨1, ["rounded-t", "rounded-r", "rounded-b", "rounded-l"]⟩,
    ⟨2, ["rounded-tl", "rounded-tr", "rounded-br", "rounded-bl"]⟩]
  endings t := keyEndings keySuffix t.borderRadius

def borderWidth : Ladder where
  rungs := [⟨0, ["border"]⟩, ⟨2, ["border-x", "border-y"]⟩,
    ⟨4, ["border-t", "border-r", "border-b", "border-l"]⟩]
  endings t := keyEndings keySuffix t.borderWidth

/-- The names of colors, and colors with a fixed opacity, which adds to the specificity. -/
def colorEndings (colors : List (String × Theme.Color)) : List (String × Int) :=
  colors.flatMap fun c => (c.1, 0) :: if c.2.isTriplet then
    opacitySteps.map fun percent => (c.1 ++ "/" ++ toString percent, 1)
  else []

def borderColor : Ladder where
  rungs := [⟨0, ["border-"]⟩, ⟨1, ["border-x-", "border-y-"]⟩,
    ⟨2, ["border-t-", "border-r-", "border-b-", "border-l-"]⟩]
  endings t := colorEndings t.color

/-- The lines of a grid. Spans and the lines at which they start or end share one specificity. -/
def gridLines (track : String) : Ladder where
  rungs := [⟨0, [track ++ "-span-"]⟩, ⟨0, [track ++ "-start-", track ++ "-end-"]⟩]
  endings _ := (List.range' 1 12).map fun i => (toString i, 0)

/-- All ladders. -/
def ladders : List Ladder := [
  padding, margin, gap, inset, size, rounded, borderWidth, borderColor, gridLines "col",
  gridLines "row"]

/-- The narrow name sets a part of what the broad one sets. -/
def Narrower (t : Theme) (broad narrow : String) : Prop :=
  ∃ l ∈ ladders, l.Narrows t broad narrow

section Generated

variable {t : Theme} {entries : List (String × Rule)} {r : Rung} {name : String} {s : Int}
  {endings : List (String × Int)}

theorem Rung.mem_names : (name, s) ∈ r.names endings ↔
    ∃ stem ∈ r.stems, ∃ e ∈ endings, name = stem ++ e.1 ∧ s = r.specificity + e.2 := by
  simp only [names, List.mem_flatMap, List.mem_map, Prod.mk.injEq, eq_comm]

theorem ranks_append (entries others : List (String × Rule)) :
    ranks (entries ++ others) = ranks entries ++ ranks others := List.map_append

private theorem names_subset_flatMap {α : Type} {ending : α → String} {items : List α}
    {rules : α → List (String × Rule)}
    (h : ∀ stem ∈ r.stems, ∀ item, (stem ++ ending item, r.specificity) ∈ ranks (rules item)) :
    r.names (items.map fun item => (ending item, 0)) ⊆ ranks (items.flatMap rules) := by
  rintro ⟨name, s⟩ hn
  obtain ⟨stem, hs, _, he, rfl, rfl⟩ := Rung.mem_names.1 hn
  obtain ⟨item, hi, rfl⟩ := List.mem_map.1 he
  rw [ranks, List.map_flatMap, Int.add_zero]
  exact List.mem_flatMap.2 ⟨item, hi, h stem hs item⟩

private theorem names_subset_spacing (hr : r ∈ padding.rungs ++ margin.rungs ++ gap.rungs) :
    r.names (keyEndings id t.spacing) ⊆ ranks (spacingEntries t.spacing) := by
  rw [spacingEntries, ranks_append]
  refine List.subset_append_of_subset_left _ (names_subset_flatMap ?_)
  simp only [padding, margin, gap, List.cons_append, List.nil_append, List.mem_cons,
    List.not_mem_nil, or_false] at hr
  rcases hr with rfl | rfl | rfl | rfl | rfl | rfl | rfl | rfl
  all_goals simp [ranks, boxRules, gapRules, named]

private theorem names_subset_size (hr : r ∈ size.rungs) :
    r.names (size.endings t) ⊆ ranks (sizingEntries t.size) := by
  rw [sizingEntries, ranks_append, ranks_append]
  refine List.subset_append_of_subset_left _ ?_
  rintro ⟨name, s⟩ hn
  obtain ⟨stem, hs, e, he, rfl, rfl⟩ := Rung.mem_names.1 hn
  simp only [size, List.mem_cons, List.not_mem_nil, or_false] at hr
  rcases List.mem_append.1 he with he | he
  · refine List.mem_append_left _ (names_subset_flatMap (r := r) ?_
      (Rung.mem_names.2 ⟨stem, hs, e, he, rfl, rfl⟩))
    rcases hr with rfl | rfl
    all_goals simp [ranks, sizeRules, named]
  · refine List.mem_append_right _ ?_
    rw [List.mem_singleton.1 he]
    rcases hr with rfl | rfl
    · rw [List.mem_singleton.1 hs]
      decide
    · rcases List.mem_pair.1 hs with rfl | rfl
      · decide
      · decide

private theorem names_subset_inset (hr : r ∈ inset.rungs) :
    r.names (inset.endings t) ⊆ ranks (sizingEntries t.size) := by
  rw [sizingEntries, ranks_append]
  refine List.subset_append_of_subset_right _ (names_subset_flatMap ?_)
  simp only [inset, List.mem_cons, List.not_mem_nil, or_false] at hr
  rcases hr with rfl | rfl | rfl
  all_goals simp [ranks, offsetRules, named]

private theorem names_subset_rounded (hr : r ∈ rounded.rungs) :
    r.names (rounded.endings t) ⊆ ranks (borderEntries t.borderWidth t.borderRadius) := by
  rw [borderEntries, ranks_append]
  refine List.subset_append_of_subset_right _ (names_subset_flatMap ?_)
  simp only [rounded, List.mem_cons, List.not_mem_nil, or_false] at hr
  rcases hr with rfl | rfl | rfl
  all_goals simp [ranks, cornerRules, named]

private theorem names_subset_borderWidth (hr : r ∈ borderWidth.rungs) :
    r.names (borderWidth.endings t) ⊆ ranks (borderEntries t.borderWidth t.borderRadius) := by
  rw [borderEntries, ranks_append]
  refine List.subset_append_of_subset_left _ (names_subset_flatMap ?_)
  simp only [borderWidth, List.mem_cons, List.not_mem_nil, or_false] at hr
  rcases hr with rfl | rfl | rfl
  all_goals simp [ranks, borderRules, named]

/-- The catalogue has the utilities of every grid line. -/
theorem gridTracks_sublist :
    ((List.range' 1 12).flatMap gridTrack).Sublist Catalogue.entries :=
  (List.sublist_append_right _ _).trans (List.sublist_append_left _ _)

private theorem names_subset_gridLines {track : String} (ht : track ∈ ["col", "row"])
    (hr : r ∈ (gridLines track).rungs) :
    r.names ((gridLines track).endings t) ⊆ ranks Catalogue.entries := by
  refine List.Subset.trans (names_subset_flatMap ?_) (gridTracks_sublist.map _).subset
  simp only [gridLines, List.mem_cons, List.not_mem_nil, or_false] at hr
  rcases List.mem_pair.1 ht with rfl | rfl
  all_goals
    rcases hr with rfl | rfl
    all_goals simp [ranks, gridTrack, named]

namespace Family

variable {f : Family} {colors : List (String × Theme.Color)} {c : String × Theme.Color}

theorem mainRule_mem (hc : c ∈ colors) : f.mainRule c.1 c.2 ∈ f.entries colors :=
  List.mem_append_left _ (List.mem_flatMap.2 ⟨c, hc, List.mem_cons_self⟩)

theorem stepRule_mem {percent : Nat} (hc : c ∈ colors) (triplet : c.2.isTriplet)
    (hp : percent ∈ opacitySteps) : f.stepRule c.1 c.2 percent ∈ f.entries colors := by
  refine List.mem_append_left _ (List.mem_flatMap.2 ⟨c, hc, List.mem_cons_of_mem _ ?_⟩)
  rw [if_pos triplet]
  exact List.mem_map_of_mem hp

theorem name_stepRule (f : Family) (name : String) (color : Theme.Color) (percent : Nat) :
    (f.stepRule name color percent).1 = f.stem ++ "-" ++ (name ++ "/" ++ toString percent) := by
  simp only [stepRule, named, String.append_assoc]

end Family

/-- What may follow a stem: a color, or a color with a fixed opacity. -/
theorem mem_colorEndings {colors : List (String × Theme.Color)} {e : String × Int} :
    e ∈ colorEndings colors ↔ ∃ c ∈ colors, e = (c.1, 0) ∨ c.2.isTriplet ∧
      ∃ percent ∈ opacitySteps, e = (c.1 ++ "/" ++ toString percent, 1) := by
  rw [colorEndings, List.mem_flatMap]
  refine exists_congr fun c => and_congr_right fun _ => ?_
  rw [List.mem_cons]
  refine or_congr Iff.rfl ?_
  by_cases triplet : c.2.isTriplet
  · simp only [triplet, if_true, true_and, List.mem_map, eq_comm]
  · simp [triplet]

private theorem names_subset_borderColor (hr : r ∈ borderColor.rungs) :
    r.names (borderColor.endings t) ⊆ ranks (paletteEntries t.color) := by
  rintro ⟨name, s⟩ hn
  obtain ⟨stem, hs, e, he, rfl, rfl⟩ := Rung.mem_names.1 hn
  have family : ∀ r ∈ borderColor.rungs, ∀ stem ∈ r.stems,
      ∃ f ∈ families, f.stem ++ "-" = stem ∧ f.specificity = r.specificity := by decide
  obtain ⟨f, hf, rfl, same⟩ := family r hr stem hs
  rw [mem_ranks, ← same]
  obtain ⟨c, hc, rfl | ⟨triplet, percent, hp, rfl⟩⟩ := mem_colorEndings.1 he
  · exact ⟨_, List.mem_flatMap.2 ⟨f, hf, f.mainRule_mem hc⟩, (Int.add_zero _).symm⟩
  · rw [← f.name_stepRule c.1 c.2]
    exact ⟨_, List.mem_flatMap.2 ⟨f, hf, f.stepRule_mem hc triplet hp⟩, rfl⟩

/-- The rules of a theme: the catalogue, the palette, and the scales among other rules. -/
theorem entries_eq (built : t.entries = .ok entries) : ∃ typography cursors columns shadows,
    entries = Catalogue.entries ++ (paletteEntries t.color ++ (typography ++
      (sizingEntries t.size ++ (cursors ++ (borderEntries t.borderWidth t.borderRadius ++
        (columns ++ (spacingEntries t.spacing ++ shadows))))))) := by
  obtain ⟨typography, -, built⟩ := bind_eq_ok built
  obtain ⟨shadows, -, built⟩ := bind_eq_ok built
  have flat := Except.ok.inj built
  simp only [List.append_assoc] at flat
  exact ⟨_, _, _, _, flat.symm⟩

/-- The names of a ladder have rules, of the specificities that the ladder gives. -/
theorem names_subset {l : Ladder} (hl : l ∈ ladders) (hr : r ∈ l.rungs)
    (built : t.entries = .ok entries) : r.names (l.endings t) ⊆ ranks entries := by
  obtain ⟨_, _, _, _, rfl⟩ := entries_eq built
  simp only [ranks_append]
  simp only [ladders, List.mem_cons, List.not_mem_nil, or_false] at hl
  intro e he
  rcases hl with rfl | rfl | rfl | rfl | rfl | rfl | rfl | rfl | rfl | rfl
  · simp [names_subset_spacing (by simp [hr]) he]
  · simp [names_subset_spacing (by simp [hr]) he]
  · simp [names_subset_spacing (by simp [hr]) he]
  · simp [names_subset_inset hr he]
  · simp [names_subset_size hr he]
  · simp [names_subset_rounded hr he]
  · simp [names_subset_borderWidth hr he]
  · simp [names_subset_borderColor hr he]
  · simp [names_subset_gridLines (by decide) hr he]
  · simp [names_subset_gridLines (by decide) hr he]

end Generated

end Rule

end UtilityCss
