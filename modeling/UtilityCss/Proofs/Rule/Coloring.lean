import Mathlib.Data.List.Flatten
import UtilityCss.Proofs.Rule.Ladder
import UtilityCss.Proofs.Rule.Table
import UtilityCss.Proofs.Theme.Hexadecimal
import UtilityCss.Proofs.Theme.Projection

/-! A color that is added to a theme. Its utilities are set apart from all others by their names, so
that each family has for it what it would have in a theme of this color alone. Whether it can be
given an opacity is settled by a space in its text, which every triplet has, and some other colors
too. -/
namespace UtilityCss

namespace Rule

open Catalogue
open Theme (Color)

/-- What may follow the name of a color: nothing, or a step of opacity. -/
def colorSuffixes : List String := "" :: opacitySteps.map fun percent => "/" ++ toString percent

namespace Family

/-- The name of the utility that sets a color. -/
def colorName (f : Family) (name : String) : String := f.stem ++ "-" ++ name

/-- The name of the utility that sets a color with a fixed opacity. -/
def stepName (f : Family) (name : String) (percent : Nat) : String :=
  f.colorName name ++ "/" ++ toString percent

/-- The names that a family may have for a color. -/
def colorNames (f : Family) (name : String) : List String :=
  colorSuffixes.map (f.colorName name ++ ·)

/-- The utility of the family sets the color in `rgb()`, with the opacity that another utility sets,
and there is one more for each step of opacity. -/
structure Wraps (f : Family) (table : RuleTable) (name color : String) : Prop where
  base : table.get? (f.colorName name) = some {
    css := f.opacityProperty ++ ": 1; " ++
      f.declare ("rgb(" ++ color ++ " / var(" ++ f.opacityProperty ++ "))")
    specificity := f.specificity }
  steps : ∀ percent ∈ opacitySteps, table.get? (f.stepName name percent) = some {
    css := f.declare ("rgb(" ++ color ++ " / " ++ opacityText percent ++ ")")
    specificity := f.specificity + 1 }

/-- The utility of the family sets the color as it is, and it is the only one. -/
structure Keeps (f : Family) (table : RuleTable) (name color : String) : Prop where
  base : table.get? (f.colorName name) = some {
    css := f.opacityProperty ++ ": 1; " ++ f.declare color
    specificity := f.specificity }
  steps : ∀ percent ∈ opacitySteps, table.get? (f.stepName name percent) = none

end Family

section Names

variable {f f' : Family} {name suffix suffix' : String}

/-- A stem with its hyphen begins another one only if that one has more hyphens. -/
private theorem stem_eq_of_begins : ∀ f ∈ families, ∀ f' ∈ families,
    (f.stem ++ "-").toList <+: (f'.stem ++ "-").toList →
      (f.stem ++ "-").toList.count '-' = (f'.stem ++ "-").toList.count '-' → f.stem = f'.stem := by
  decide +kernel

private theorem count_suffix : ∀ suffix ∈ colorSuffixes, suffix.toList.count '-' = 0 := by
  decide +kernel

/-- The stem and the suffix can be read off from a name, whatever the color is called: of two stems
that begin the same name, the longer one has a hyphen more. -/
theorem colorName_inj (hf : f ∈ families) (hf' : f' ∈ families) (hs : suffix ∈ colorSuffixes)
    (hs' : suffix' ∈ colorSuffixes)
    (same : f.colorName name ++ suffix = f'.colorName name ++ suffix') :
    f.stem = f'.stem ∧ suffix = suffix' := by
  have texts : (f.stem ++ "-").toList ++ (name ++ suffix).toList =
      (f'.stem ++ "-").toList ++ (name ++ suffix').toList := by
    rw [← String.toList_append, ← String.toList_append, ← String.append_assoc,
      ← String.append_assoc]
    exact congrArg String.toList same
  have hyphens : (f.stem ++ "-").toList.count '-' = (f'.stem ++ "-").toList.count '-' := by
    have counts := congrArg (List.count '-') texts
    simp only [List.count_append, String.toList_append, count_suffix _ hs,
      count_suffix _ hs'] at counts
    simp only [List.count_append, String.toList_append]
    omega
  have stems : f.stem = f'.stem := by
    rcases List.prefix_or_prefix_of_prefix (List.prefix_append _ _) ⟨_, texts.symm⟩ with h | h
    · exact stem_eq_of_begins f hf f' hf' h hyphens
    · exact (stem_eq_of_begins f' hf' f hf h hyphens.symm).symm
  rw [Family.colorName, Family.colorName, stems] at same
  exact ⟨stems, String.append_right_inj _ |>.1 same⟩

theorem mem_colorNames {n : String} :
    n ∈ f.colorNames name ↔ n = f.colorName name ∨ ∃ percent ∈ opacitySteps,
      n = f.stepName name percent := by
  simp only [Family.colorNames, colorSuffixes, Family.stepName, List.map_cons, List.mem_cons,
    String.append_empty, List.map_map, List.mem_map, Function.comp_apply, String.append_assoc,
    eq_comm]

/-- All names that the families may have for a color are distinct. -/
theorem nodup_colorNames (name : String) : (families.flatMap (·.colorNames name)).Nodup := by
  have suffixes : colorSuffixes.Nodup := by decide +kernel
  have stems : families.Pairwise fun f f' => f.stem ≠ f'.stem := by decide
  rw [List.nodup_flatMap]
  refine ⟨fun f _ => suffixes.map fun _ _ => (String.append_right_inj _).1, ?_⟩
  refine stems.imp_of_mem fun hf hf' apart => ?_
  rintro n inside inside'
  obtain ⟨suffix, hs, rfl⟩ := List.mem_map.1 inside
  obtain ⟨suffix', hs', same⟩ := List.mem_map.1 inside'
  exact apart (colorName_inj hf hf' hs hs' same.symm).1

theorem names_colorRules (f : Family) (name : String) (color : Color) :
    (f.colorRules name color).map (·.1) =
      if color.isTriplet then f.colorNames name else [f.colorName name] := by
  rw [Family.colorRules, Family.colorNames, colorSuffixes, List.map_cons, List.map_cons]
  cases color.isTriplet
  · rfl
  · simp only [if_true, List.map_map, String.append_empty]
    refine congrArg _ (List.map_congr_left fun percent _ => ?_)
    rw [Function.comp_apply, Function.comp_apply, f.name_stepRule, Family.colorName]
    simp only [String.append_assoc]

theorem names_colorRules_sublist (f : Family) (name : String) (color : Color) :
    ((f.colorRules name color).map (·.1)).Sublist (f.colorNames name) := by
  rw [names_colorRules]
  split
  · exact List.Sublist.refl _
  · rw [Family.colorNames, colorSuffixes, List.map_cons, String.append_empty]
    exact List.singleton_sublist.2 List.mem_cons_self

end Names

section Addition

variable {t : Theme} {name n : String} {color : Color} {front behind : List (String × Color)}
  {entries : List (String × Rule)}

/-- The names that the families may have for a color. -/
def namesOfColor (name : String) : List String := families.flatMap (·.colorNames name)

/-- The rules of a color. -/
def rulesOfColor (name : String) (color : Color) : List (String × Rule) :=
  families.flatMap fun f => f.colorRules name color

theorem names_rulesOfColor_sublist (name : String) (color : Color) :
    ((rulesOfColor name color).map (·.1)).Sublist (namesOfColor name) := by
  rw [rulesOfColor, List.map_flatMap]
  exact List.Sublist.flatMap_right _ fun f _ => names_colorRules_sublist f name color

/-- The rules of a theme, with the palette among them: no other rule depends on colors. -/
theorem entries_of_colors (built : t.entries = .ok entries) : ∃ before after, ∀ colors,
    ({ t with color := colors } : Theme).entries =
      .ok (before ++ (paletteEntries colors ++ after)) := by
  obtain ⟨typography, fonts, built⟩ := bind_eq_ok built
  obtain ⟨shadows, texts, -⟩ := bind_eq_ok built
  refine ⟨Catalogue.entries, ?_⟩
  apply Exists.intro
  intro colors
  have fonts : ({ t with color := colors } : Theme).typographyEntries = .ok typography := fonts
  rw [Theme.entries, fonts]
  change Theme.mapNamed _ t.shadow >>= _ = _
  rw [texts]
  change Except.ok _ = _
  simp only [List.append_assoc]
  rfl

private theorem filter_others {α : Type} {p : α → Bool} {l : List α}
    (h : ∀ e ∈ l, p e = false) : l.filter p = [] ∧ l.filter (!p ·) = l :=
  ⟨List.filter_eq_nil_iff.2 fun e he => by simp [h e he],
    List.filter_eq_self.2 fun e he => by simp [h e he]⟩

private theorem filter_between {α : Type} {p : α → Bool} {before inner after : List α}
    (inside : ∀ e ∈ inner, p e = true) (outside : ∀ e ∈ before ++ after, p e = false) :
    (before ++ (inner ++ after)).filter p = inner ∧
      (before ++ (inner ++ after)).filter (!p ·) = before ++ after := by
  have kept : inner.filter p = inner ∧ inner.filter (!p ·) = [] :=
    ⟨List.filter_eq_self.2 inside, List.filter_eq_nil_iff.2 fun e he => by simp [inside e he]⟩
  obtain ⟨first, last⟩ := List.forall_mem_append.1 outside
  simp only [List.filter_append, filter_others first, filter_others last, kept, List.nil_append,
    List.append_nil, and_self]

/-- Whether a utility has one of the names of a color. -/
def isNamedAfter (name : String) (e : String × Rule) : Bool := e.1 ∈ namesOfColor name

theorem isNamedAfter_of_mem {f : Family} {e : String × Rule} (hf : f ∈ families)
    (he : e ∈ f.colorRules name color) : isNamedAfter name e = true :=
  decide_eq_true (List.mem_flatMap.2
    ⟨f, hf, (names_colorRules_sublist f name color).subset (List.mem_map_of_mem he)⟩)

/-- The palette to which a color was added: what is named after the color are its own rules, and the
others are those that were there before. -/
theorem filter_paletteEntries (color : Color)
    (free : ∀ e ∈ paletteEntries (front ++ behind), isNamedAfter name e = false) :
    (paletteEntries (front ++ (name, color) :: behind)).filter (isNamedAfter name) =
        rulesOfColor name color ∧
      (paletteEntries (front ++ (name, color) :: behind)).filter (!isNamedAfter name ·) =
        paletteEntries (front ++ behind) := by
  have family : ∀ f ∈ families,
      (f.entries (front ++ (name, color) :: behind)).filter (isNamedAfter name) =
          f.colorRules name color ∧
        (f.entries (front ++ (name, color) :: behind)).filter (!isNamedAfter name ·) =
          f.entries (front ++ behind) := by
    intro f hf
    have outside : ∀ e ∈ f.entries (front ++ behind), isNamedAfter name e = false := fun e he =>
      free e (List.mem_flatMap.2 ⟨f, hf, he⟩)
    simp only [Family.entries, List.flatMap_append, List.flatMap_cons,
      List.append_assoc] at outside ⊢
    exact filter_between (fun e he => isNamedAfter_of_mem hf he) outside
  rw [paletteEntries, List.filter_flatMap, List.filter_flatMap]
  exact ⟨List.flatMap_congr fun f hf => (family f hf).1,
    List.flatMap_congr fun f hf => (family f hf).2⟩

/-- The rules of a theme to which a color was added. -/
theorem exists_entries_added {entries₀ : List (String × Rule)} (built : t.entries = .ok entries₀)
    (split : t.color = front ++ behind) (free : ∀ e ∈ entries₀, isNamedAfter name e = false)
    (color : Color) :
    ∃ entries,
      ({ t with color := front ++ (name, color) :: behind } : Theme).entries = .ok entries ∧
        entries.filter (isNamedAfter name) = rulesOfColor name color ∧
        entries.filter (!isNamedAfter name ·) = entries₀ := by
  obtain ⟨before, after, made⟩ := entries_of_colors built
  have old : entries₀ = before ++ (paletteEntries (front ++ behind) ++ after) := by
    rw [← split]
    exact Except.ok.inj (built.symm.trans (made t.color))
  rw [old] at free ⊢
  obtain ⟨first, free⟩ := List.forall_mem_append.1 free
  obtain ⟨palette, last⟩ := List.forall_mem_append.1 free
  obtain ⟨own, others⟩ := filter_paletteEntries color palette
  refine ⟨_, made _, ?_, ?_⟩
  · simp only [List.filter_append, filter_others first, filter_others last, own, List.nil_append,
      List.append_nil]
  · simp only [List.filter_append, filter_others first, filter_others last, others]

/-- What is found under a name once a color was added: under the names of the color what its own
rules say, and otherwise what was there before. -/
theorem exists_rules_added {table₀ : RuleTable} (built : t.rules = .ok table₀)
    (split : t.color = front ++ behind) (free : ∀ n ∈ namesOfColor name, n ∉ table₀.names)
    (color : Color) :
    ∃ table, ({ t with color := front ++ (name, color) :: behind } : Theme).rules = .ok table ∧
      (∀ n ∈ namesOfColor name,
        table.get? n = (RuleTable.ofList (rulesOfColor name color)).get? n) ∧
      ∀ n, n ∉ namesOfColor name → table.get? n = table₀.get? n := by
  obtain ⟨entries₀, made, same⟩ := bind_eq_ok built
  obtain rfl := Except.ok.inj same
  have apart : ∀ e ∈ entries₀, isNamedAfter name e = false := fun e he =>
    decide_eq_false fun own => free e.1 own
      (RuleTable.mem_names_ofList.2 (List.mem_map_of_mem he))
  obtain ⟨entries, added, own, others⟩ := exists_entries_added made split apart color
  refine ⟨.ofList entries, ?_, fun n inside => ?_, fun n outside => ?_⟩
  · rw [Theme.rules, added]
    rfl
  · rw [← own]
    exact (RuleTable.get?_ofList_filter entries (· ∈ namesOfColor name)
      (decide_eq_true inside)).symm
  · rw [← others]
    exact (RuleTable.get?_ofList_filter entries (fun n => !decide (n ∈ namesOfColor name))
      (by simp [outside])).symm

section Families

variable {table : RuleTable} {f : Family} (hf : f ∈ families)
  (own : ∀ n ∈ namesOfColor name,
    table.get? n = (RuleTable.ofList (rulesOfColor name color)).get? n)
include hf own

private theorem get?_of_mem_colorRules {rule : Rule} (h : (n, rule) ∈ f.colorRules name color) :
    table.get? n = some rule := by
  have inside : (n, rule) ∈ rulesOfColor name color := List.mem_flatMap.2 ⟨f, hf, h⟩
  have names := names_rulesOfColor_sublist name color
  rw [own n (names.subset (List.mem_map_of_mem inside)),
    ← List.nil_append (rulesOfColor name color)]
  exact RuleTable.get?_ofList_of_mem (names.nodup (nodup_colorNames name)) inside

theorem Family.wraps_of_triplet (triplet : color.isTriplet = true) :
    f.Wraps table name color.text where
  base := by
    refine get?_of_mem_colorRules hf own (List.mem_cons.2 (.inl ?_))
    rw [Family.mainRule, Family.mainColor, if_pos triplet]
    rfl
  steps percent hp := by
    refine get?_of_mem_colorRules hf own (List.mem_cons_of_mem _ ?_)
    rw [if_pos triplet]
    exact List.mem_map_of_mem hp

theorem Family.keeps_of_plain (plain : color.isTriplet = false) :
    f.Keeps table name color.text where
  base := by
    refine get?_of_mem_colorRules hf own (List.mem_cons.2 (.inl ?_))
    rw [Family.mainRule, Family.mainColor, plain]
    rfl
  steps percent hp := by
    have known : f.stepName name percent ∈ namesOfColor name :=
      List.mem_flatMap.2 ⟨f, hf, mem_colorNames.2 (.inr ⟨percent, hp, rfl⟩)⟩
    rw [own _ known, RuleTable.get?_eq_none_iff, RuleTable.mem_names_ofList, rulesOfColor,
      List.map_flatMap]
    intro inside
    obtain ⟨f', hf', inside⟩ := List.mem_flatMap.1 inside
    rw [names_colorRules, plain, if_neg Bool.false_ne_true, List.mem_singleton] at inside
    have suffix : "/" ++ toString percent ∈ colorSuffixes :=
      List.mem_cons_of_mem _ (List.mem_map_of_mem hp)
    have same : f.colorName name ++ ("/" ++ toString percent) = f'.colorName name ++ "" := by
      rw [← String.append_assoc, String.append_empty]
      exact inside
    have filled : ∀ percent ∈ opacitySteps, "/" ++ toString percent ≠ "" := by decide
    exact filled percent hp (colorName_inj hf hf' suffix List.mem_cons_self same).2

end Families

end Addition

end Rule

namespace Theme

open Json (Value)
open Rule (families namesOfColor)

section Overrides

variable {overrides back own tokens : List (String × Value)} {name v : String} {t : Theme}

/-- The value of a category without one of its names. -/
def dropName (name : String) : Value → Value
  | .map own => .map (own.filter (·.1 != name))
  | v => v

/-- Overrides without a color. -/
def withoutColor (name : String) (overrides : List (String × Value)) : List (String × Value) :=
  overrides.map fun e => (e.1, if e.1 = Category.color.name then dropName name e.2 else e.2)

theorem lookup_withoutColor (field : String) : (withoutColor name overrides).lookup field =
    (overrides.lookup field).map fun v =>
      if field = Category.color.name then dropName name v else v := by
  induction overrides with
  | nil => rfl
  | cons e rest ih =>
    change List.lookup field ((e.1, _) :: withoutColor name rest) = _
    rw [List.lookup_cons, List.lookup_cons]
    by_cases here : field = e.1
    · rw [here, beq_self_eq_true]
      rfl
    · rw [beq_eq_false_iff_ne.2 here]
      exact ih

theorem overrideOf_withoutColor {c : Category} (other : c ≠ .color) :
    overrideOf (withoutColor name overrides) c = overrideOf overrides c := by
  have named : c.name ≠ Category.color.name ∧ c.alias ≠ Category.color.name := by
    cases c
    case color => exact absurd rfl other
    all_goals decide
  simp only [overrideOf, Value.field?, lookup_withoutColor, named.1, named.2, if_false,
    Option.map_id']

theorem overrideOf_withoutColor_color (given : overrideOf overrides .color = .map own) :
    overrideOf (withoutColor name overrides) .color = .map (own.filter (·.1 != name)) := by
  unfold overrideOf at given ⊢
  simp only [Value.field?, lookup_withoutColor] at given ⊢
  cases found : overrides.lookup Category.color.name with
  | some v =>
    rw [found] at given
    cases given
    rfl
  | none =>
    -- a color has one spelling only, so that no colors are given
    rw [found] at given
    have again : overrides.lookup Category.color.alias = none := found
    rw [again] at given
    cases given

/-- A new entry has a place among the entries of a category, and the others stay where they are. -/
theorem exists_split_putAll {base own : List (String × Value)} {e : String × Value}
    (distinct : (own.map (·.1)).Nodup) (configured : e ∈ own) (new : e.1 ∉ base.map (·.1)) :
    ∃ front behind, putAll base own = front ++ e :: behind ∧
      putAll base (own.filter (·.1 != e.1)) = front ++ behind := by
  obtain ⟨first, last, rfl⟩ := List.append_of_mem configured
  rw [List.map_append, List.map_cons] at distinct
  obtain ⟨before, after, apart⟩ := List.nodup_append.1 distinct
  have early : e.1 ∉ first.map (·.1) := fun h => apart _ h _ List.mem_cons_self rfl
  have late := (List.nodup_cons.1 after).1
  have kept {l : List (String × Value)} (h : e.1 ∉ l.map (·.1)) :
      l.filter (·.1 != e.1) = l := List.filter_eq_self.2 fun e' he' =>
    bne_iff_ne.2 fun same => h (same ▸ List.mem_map_of_mem he')
  have others : (first ++ e :: last).filter (·.1 != e.1) = first ++ last := by
    rw [List.filter_append, kept early, List.filter_cons_of_neg (by simp), kept late]
  have fresh : e.1 ∉ (putAll base first).map (·.1) := by
    apply not_mem_names_of_lookup
    rw [lookup_putAll base before, lookup_of_not_mem_names early, lookup_of_not_mem_names new]
    rfl
  have put : putAll base (first ++ e :: last) = putAll (putAll base first ++ [e]) last := by
    rw [putAll, List.foldl_append, List.foldl_cons]
    exact congrArg (putAll · last) (OrderedMap.putNamed_append fun e' he' same =>
      fresh (same ▸ List.mem_map_of_mem he'))
  have put' : putAll base (first ++ last) = putAll (putAll base first ++ []) last := by
    rw [putAll, List.foldl_append, List.append_nil]
    rfl
  rw [others, put, put']
  exact putAll_insert _ [] late

/-- The colors are compiled apart from all other categories. -/
theorem compileNamed_of_color (compiled : compileNamed back = .ok t)
    (same : ∀ c, c ≠ .color → overrideOf overrides c = overrideOf back c)
    (tokensOf : merged overrides .color = .ok tokens) : compileNamed overrides =
      (mapNamed colorText tokens).map fun colors =>
        { t with color := colors.map fun e => (e.1, .ofText e.2) } := by
  have parts := compileNamed_eq_ok_iff.1 compiled
  have others (c : Category) (other : c ≠ .color) : merged overrides c = merged back c := by
    rw [merged, merged, same c other]
  have cursors : mergedCursors overrides = mergedCursors back := by
    rw [mergedCursors, mergedCursors, same .cursor (by decide)]
  obtain ⟨⟨_, _, -, -, -⟩, fontFamily, ⟨_, fontSize, fontSizes⟩, fontWeight,
    ⟨_, breakpoint, breakpoints⟩, borderRadius, borderWidth, ⟨_, size, sizes⟩, spacing, shadow,
    column, cursor⟩ := parts
  rw [compileNamed, tokensOf, others .fontFamily (by decide), fontFamily,
    others .fontSize (by decide), fontSize, others .fontWeight (by decide), fontWeight,
    others .breakpoint (by decide), breakpoint, others .borderRadius (by decide), borderRadius,
    others .borderWidth (by decide), borderWidth, others .size (by decide), size,
    others .spacing (by decide), spacing, others .shadow (by decide), shadow,
    others .column (by decide), column, cursors, cursor]
  simp only [bind, Except.bind, pure, Except.pure, breakpoints, fontSizes, ← sizes]
  cases mapNamed colorText tokens
  · rfl
  · rfl

theorem compile_map (entries : List (String × Value)) :
    compile (.map entries) = compileNamed entries := by
  have given : namedOverrides (.map entries) = .ok entries := by cases entries <;> rfl
  rw [compile, given]
  exact pure_bind entries compileNamed

/-- Overrides with a new color are compiled as without it, and then the color, at its place. -/
theorem exists_color_added (given : overrideOf overrides .color = .map own)
    (distinct : (own.map (·.1)).Nodup) (configured : (name, .text v) ∈ own)
    (new : name ∉ Category.color.defaults.map (·.1))
    (compiled : compile (.map (withoutColor name overrides)) = .ok t) :
    ∃ front behind, t.color = front ++ behind ∧
      compile (.map overrides) = (colorText name (.text v)).map fun color =>
        { t with color := front ++ (name, .ofText color) :: behind } := by
  rw [compile_map] at compiled ⊢
  obtain ⟨tokens, colors, tokensOf, converted, texts⟩ := (compileNamed_eq_ok_iff.1 compiled).color
  obtain ⟨front, behind, inserted, without⟩ := exists_split_putAll distinct configured new
  rw [merged_of_map (overrideOf_withoutColor_color given), without] at tokensOf
  obtain rfl := Except.ok.inj tokensOf
  rw [mapNamed_append] at converted
  obtain ⟨first, early, h⟩ := bind_eq_ok converted
  obtain ⟨last, late, h⟩ := bind_eq_ok h
  obtain rfl := Except.ok.inj h
  have added := (merged_of_map given).trans (congrArg Except.ok inserted)
  rw [compileNamed_of_color compiled (fun c other => (overrideOf_withoutColor other).symm) added,
    mapNamed_append, mapNamed, early, late, texts, List.map_append]
  refine ⟨_, _, rfl, ?_⟩
  cases colorText name (.text v) with
  | error fault => rfl
  | ok color =>
    refine congrArg Except.ok ?_
    simp

end Overrides

/-- A color of the theme has a utility in each family. -/
theorem colorName_mem_names {t : Theme} {table : RuleTable} {name : String} {f : Rule.Family}
    (made : t.rules = .ok table) (known : name ∈ t.color.map (·.1)) (hf : f ∈ families) :
    f.colorName name ∈ table.names := by
  obtain ⟨entries, built, same⟩ := bind_eq_ok made
  obtain rfl := Except.ok.inj same
  obtain ⟨c, hc, rfl⟩ := List.mem_map.1 known
  obtain ⟨_, _, _, _, rfl⟩ := Rule.entries_eq built
  have inside : f.mainRule c.1 c.2 ∈ Rule.paletteEntries t.color :=
    List.mem_flatMap.2 ⟨f, hf, f.mainRule_mem hc⟩
  exact RuleTable.mem_names_ofList.2 (List.mem_map.2
    ⟨_, List.mem_append_right _ (List.mem_append_left _ inside), rfl⟩)

/-- A theme has all built-in colors. -/
theorem defaults_subset_colors {overrides : List (String × Value)} {t : Theme}
    (compiled : compile (.map overrides) = .ok t) :
    Category.color.defaults.map (·.1) ⊆ t.color.map (·.1) := by
  rw [compile_map] at compiled
  obtain ⟨tokens, colors, tokensOf, converted, texts⟩ := (compileNamed_eq_ok_iff.1 compiled).color
  have names : t.color.map (·.1) = tokens.map (·.1) := by
    rw [texts, ← names_mapNamed converted, List.map_map]
    rfl
  rw [names]
  exact (complete_of_merged tokensOf).begins.subset

section Added

variable {overrides own : List (String × Value)} {name v : String} {t₀ : Theme}
  {table₀ : RuleTable} (given : overrideOf overrides .color = .map own)
  (distinct : (own.map (·.1)).Nodup) (configured : (name, .text v) ∈ own)
  (compiled : compile (.map (withoutColor name overrides)) = .ok t₀)
  (made : t₀.rules = .ok table₀) (free : ∀ n ∈ namesOfColor name, n ∉ table₀.names)
include given distinct configured compiled made free

/-- Overrides with a color under a new name are compiled if its text can be read. -/
theorem exists_compile_eq : ∃ front behind, t₀.color = front ++ behind ∧
    compile (.map overrides) = (colorText name (.text v)).map fun color =>
      { t₀ with color := front ++ (name, .ofText color) :: behind } := by
  refine exists_color_added given distinct configured (fun old => ?_) compiled
  -- a built-in color has utilities in the theme, which would have their names from it
  have known := colorName_mem_names made (defaults_subset_colors compiled old) List.mem_cons_self
  exact free _ (List.mem_flatMap.2 ⟨_, List.mem_cons_self, Rule.mem_colorNames.2 (.inl rfl)⟩) known

theorem exists_rules_of_color {color : String} (converted : hexToRgb v = .ok color) :
    ∃ t table, compile (.map overrides) = .ok t ∧ t.rules = .ok table ∧
      (∀ n ∈ namesOfColor name, table.get? n =
        (RuleTable.ofList (Rule.rulesOfColor name (.ofText color))).get? n) ∧
      ∀ n, n ∉ namesOfColor name → table.get? n = table₀.get? n := by
  obtain ⟨front, behind, split, added⟩ :=
    exists_compile_eq given distinct configured compiled made free
  obtain ⟨table, rules, own, others⟩ := Rule.exists_rules_added made split free (.ofText color)
  refine ⟨_, table, ?_, rules, own, others⟩
  rw [added, colorText, converted]
  rfl

/-- A color under a new name is added to what the theme and its rules are without it, if its text
can be read. A text with a space is wrapped by every family and has a utility for each step of
opacity; every triplet is such a text, but some other texts are too. A text without a space stands
as it is in the only utility of every family. -/
theorem color_rules :
    (hexToRgb v = .error .brokenShortForm →
      compile (.map overrides) = .error (.brokenColor name)) ∧
    ∀ color, hexToRgb v = .ok color → ∃ t table,
      compile (.map overrides) = .ok t ∧ t.rules = .ok table ∧
      (∀ n, n ∉ namesOfColor name → table.get? n = table₀.get? n) ∧
      (∀ rgb, IsTriplet color rgb → ' ' ∈ color.toList) ∧
      (' ' ∈ color.toList → ∀ f ∈ families, f.Wraps table name color) ∧
      (' ' ∉ color.toList → color = v ∧ ∀ f ∈ families, f.Keeps table name v) := by
  refine ⟨fun broken => ?_, fun color converted => ?_⟩
  · obtain ⟨front, behind, -, added⟩ :=
      exists_compile_eq given distinct configured compiled made free
    rw [added, colorText, broken]
    rfl
  · obtain ⟨t, table, added, rules, own, others⟩ :=
      exists_rules_of_color given distinct configured compiled made free converted
    refine ⟨t, table, added, rules, others, fun rgb => IsTriplet.space_mem, fun space f hf => ?_,
      fun plain => ?_⟩
    · exact Rule.Family.wraps_of_triplet hf own (List.contains_iff_mem.2 space)
    · obtain rfl : color = v := by
        refine (eq_or_isTriplet converted).resolve_right ?_
        rintro ⟨rgb, triplet⟩
        exact plain triplet.space_mem
      refine ⟨rfl, fun f hf => Rule.Family.keeps_of_plain hf own ?_⟩
      exact Bool.eq_false_iff.2 fun space => plain (List.contains_iff_mem.1 space)

end Added

section Sky

/-- A name longer than that of any other utility. -/
def sky : String := "the-evening-sky-behind-the-hills-in-winter"

/-- Overrides with one color. -/
def tinted (v : String) : List (String × Value) := [("color", .map [(sky, .text v)])]

private theorem size_paletteEntries {colors : List (String × Color)} {e : String × Rule}
    (short : ∀ c ∈ colors, c.1.utf8ByteSize ≤ 20) (he : e ∈ Rule.paletteEntries colors) :
    e.1.utf8ByteSize ≤ 40 := by
  obtain ⟨f, hf, he⟩ := List.mem_flatMap.1 he
  have stems : ∀ f ∈ families, f.stem.utf8ByteSize ≤ 10 := by decide +kernel
  have stem := stems f hf
  have hyphen : "-".utf8ByteSize = 1 := rfl
  rcases List.mem_append.1 he with he | he
  · obtain ⟨c, hc, he⟩ := List.mem_flatMap.1 he
    have named := (Rule.names_colorRules_sublist f c.1 c.2).subset (List.mem_map_of_mem he)
    obtain ⟨suffix, hs, same⟩ := List.mem_map.1 named
    have suffixes : ∀ suffix ∈ Rule.colorSuffixes, suffix.utf8ByteSize ≤ 4 := by decide +kernel
    have ending := suffixes suffix hs
    have name := short c hc
    rw [← same, Rule.Family.colorName]
    simp only [String.utf8ByteSize_append]
    omega
  · obtain ⟨percent, hp, rfl⟩ := List.mem_map.1 he
    have numbers : ∀ percent ∈ Rule.Catalogue.opacitySteps,
        (toString percent).utf8ByteSize ≤ 3 := by decide +kernel
    have number := numbers percent hp
    have word : "-opacity-".utf8ByteSize = 9 := rfl
    change (f.stem ++ "-opacity-" ++ toString percent).utf8ByteSize ≤ 40
    simp only [String.utf8ByteSize_append]
    omega

/-- No utility of the built-in theme is named after the evening sky. -/
private theorem exists_untinted : ∃ t table, compile (.map [("color", .map [])]) = .ok t ∧
    t.rules = .ok table ∧ ∀ n ∈ namesOfColor sky, n ∉ table.names := by
  have checked : (compile (.map [("color", .map [])])).toOption.any (fun t =>
      ({ t with color := [] } : Theme).entries.toOption.any fun entries =>
        (t.color.all fun c => c.1.utf8ByteSize ≤ 20) &&
          entries.all fun e => e.1.utf8ByteSize ≤ 40) = true := by
    decide +kernel
  obtain ⟨t, compiled, checked⟩ := exists_ok_of_any checked
  obtain ⟨entries, built, checked⟩ := exists_ok_of_any checked
  simp only [Bool.and_eq_true, List.all_eq_true, decide_eq_true_eq] at checked
  obtain ⟨colors, others⟩ := checked
  obtain ⟨before, after, made⟩ := Rule.entries_of_colors built
  obtain rfl := Except.ok.inj (built.symm.trans (made []))
  have whole : t.entries = .ok (before ++ (Rule.paletteEntries t.color ++ after)) := made t.color
  have rules : t.rules = .ok (.ofList (before ++ (Rule.paletteEntries t.color ++ after))) := by
    rw [rules, whole]
    rfl
  refine ⟨t, _, compiled, rules, fun n named inside => ?_⟩
  have short : n.utf8ByteSize ≤ 40 := by
    obtain ⟨e, he, rfl⟩ := List.mem_map.1 (RuleTable.mem_names_ofList.1 inside)
    rcases List.mem_append.1 he with he | he
    · exact others e (List.mem_append_left _ he)
    · rcases List.mem_append.1 he with he | he
      · exact size_paletteEntries colors he
      · exact others e (List.mem_append_right _ (List.mem_append_right _ he))
  obtain ⟨f, -, named⟩ := List.mem_flatMap.1 named
  obtain ⟨suffix, -, rfl⟩ := List.mem_map.1 named
  have long : sky.utf8ByteSize = 42 := rfl
  rw [Rule.Family.colorName] at short
  simp only [String.utf8ByteSize_append] at short
  omega

private theorem withoutColor_tinted (v : String) :
    withoutColor sky (tinted v) = [("color", .map [])] := by
  simp [withoutColor, tinted, dropName, Category.name]

private theorem nodup_tinted (v : String) : ([(sky, Value.text v)].map (·.1)).Nodup :=
  List.nodup_singleton _

theorem color_rules_sky : ∃ t table, compile (.map (tinted "#0a0b0c")) = .ok t ∧
    t.rules = .ok table ∧ ∀ f ∈ families, f.Wraps table sky "10 11 12" := by
  obtain ⟨t₀, table₀, compiled, made, free⟩ := exists_untinted
  rw [← withoutColor_tinted "#0a0b0c"] at compiled
  obtain ⟨t, table, added, rules, -, -, wraps, -⟩ :=
    (color_rules rfl (nodup_tinted _) List.mem_cons_self compiled made free).2 "10 11 12" rfl
  exact ⟨t, table, added, rules, wraps (by decide)⟩

/-- A color that is written with `rgb()` is no triplet, but it is wrapped once more. -/
theorem wraps_function : ∃ t table, (∀ rgb, ¬ IsTriplet "rgb(1 2 3)" rgb) ∧
    compile (.map (tinted "rgb(1 2 3)")) = .ok t ∧ t.rules = .ok table ∧
    (table.get? ("text-" ++ sky)).map (·.css) =
      some "--tw-text-opacity: 1; color: rgb(rgb(1 2 3) / var(--tw-text-opacity));" ∧
    (table.get? ("text-" ++ sky ++ "/50")).map (·.css) = some "color: rgb(rgb(1 2 3) / 0.5);" := by
  obtain ⟨t₀, table₀, compiled, made, free⟩ := exists_untinted
  rw [← withoutColor_tinted "rgb(1 2 3)"] at compiled
  have kept : hexToRgb "rgb(1 2 3)" = .ok "rgb(1 2 3)" := rfl
  obtain ⟨t, table, added, rules, own, -⟩ := exists_rules_of_color rfl (nodup_tinted _)
    List.mem_cons_self compiled made free kept
  have text : Rule.Family.mk "text" (Rule.sets "color") 0 ∈ families :=
    List.mem_cons_of_mem _ List.mem_cons_self
  have wraps := Rule.Family.wraps_of_triplet text own rfl
  refine ⟨t, table, ?_, added, rules, ?_, ?_⟩
  · rintro rgb ⟨red, green, blue, decimal, -, -, same⟩
    obtain ⟨c, rest, first⟩ := List.exists_cons_of_ne_nil
      (mt String.toList_eq_nil_iff.1 decimal.filled)
    have head := congrArg (fun s => s.toList.head?) same
    simp only [String.toList_append, first, List.cons_append, List.head?_cons] at head
    obtain rfl : 'r' = c := Option.some.inj head
    have digit := decimal.digits 'r' (first ▸ List.mem_cons_self)
    cases digit
  · exact congrArg (Option.map (·.css)) wraps.base
  · exact congrArg (Option.map (·.css)) (wraps.steps 50 (by decide))

end Sky

end Theme

end UtilityCss
