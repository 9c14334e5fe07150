import UtilityCss.Proofs.Rule.Table
import UtilityCss.Proofs.Theme.Merging
import UtilityCss.Rule.Generate

/-! Token values never influence the cascade. What a rule table says apart from its declarations is
settled by the keys of the theme: two themes with the same keys have tables with the same names at
the same places and with the same specificities, suffixes and siblings. -/
namespace UtilityCss

open Json (Value)

/-- What a rule says apart from its declarations: its specificity, its suffix and its sibling. -/
def Rule.frame (rule : Rule) : Int × Option String × Option String :=
  (rule.specificity, rule.suffix, rule.sibling)

namespace Rule

open Catalogue

/-- Named rules without their declarations. -/
def frames (entries : List (String × Rule)) :
    List (String × (Int × Option String × Option String)) :=
  entries.map fun e => (e.1, e.2.frame)

theorem frames_append (entries others : List (String × Rule)) :
    frames (entries ++ others) = frames entries ++ frames others := List.map_append

theorem frames_cons (e : String × Rule) (rest : List (String × Rule)) :
    frames (e :: rest) = (e.1, e.2.frame) :: frames rest := rfl

/-- The declarations of a named rule do not show. -/
theorem frames_named (name css : String) (specificity : Int) (rest : List (String × Rule)) :
    frames (named name css specificity :: rest) =
      (name, (specificity, none, none)) :: frames rest := rfl

theorem names_eq_of_frames {entries others : List (String × Rule)}
    (same : frames others = frames entries) : others.map (·.1) = entries.map (·.1) := by
  have names (entries : List (String × Rule)) :
      (frames entries).map (·.1) = entries.map (·.1) := by
    rw [frames, List.map_map]
    rfl
  rw [← names, same, names]

section Loops

variable {α κ : Type} {key : α → κ} {items items' : List α}

/-- A loop over a scale has the frames that its keys settle, if this is so for each step. -/
theorem frames_flatMap {rules : α → List (String × Rule)}
    (settled : ∀ a b, key a = key b → frames (rules a) = frames (rules b))
    (keys : items'.map key = items.map key) :
    frames (items'.flatMap rules) = frames (items.flatMap rules) := by
  induction items generalizing items' with
  | nil =>
    rw [List.map_nil, List.map_eq_nil_iff] at keys
    rw [keys]
  | cons a rest ih =>
    obtain ⟨a', rest', rfl, here, later⟩ := List.map_eq_cons_iff.1 keys
    rw [List.flatMap_cons, List.flatMap_cons, frames_append, frames_append,
      settled a' a here, ih later]

theorem frames_map {rule : α → String × Rule}
    (settled : ∀ a b, key a = key b → frames [rule a] = frames [rule b])
    (keys : items'.map key = items.map key) :
    frames (items'.map rule) = frames (items.map rule) := by
  rw [List.map_eq_flatMap, List.map_eq_flatMap]
  exact frames_flatMap settled keys

/-- The same for a loop that stops at the first item of which it cannot make a rule. -/
theorem frames_mapM {ε : Type} {rule : α → Except ε (String × Rule)}
    (settled : ∀ a b r s, key a = key b → rule a = .ok r → rule b = .ok s →
      frames [r] = frames [s])
    (keys : items'.map key = items.map key) {rules rules' : List (String × Rule)}
    (h : items.mapM rule = .ok rules) (h' : items'.mapM rule = .ok rules') :
    frames rules' = frames rules := by
  induction items generalizing items' rules rules' with
  | nil =>
    rw [List.map_nil, List.map_eq_nil_iff] at keys
    rw [keys] at h'
    cases h
    cases h'
    rfl
  | cons a rest ih =>
    obtain ⟨a', rest', rfl, here, later⟩ := List.map_eq_cons_iff.1 keys
    rw [List.mapM_cons] at h h'
    obtain ⟨r, first, h⟩ := bind_eq_ok h
    obtain ⟨more, others, h⟩ := bind_eq_ok h
    obtain ⟨r', first', h'⟩ := bind_eq_ok h'
    obtain ⟨more', others', h'⟩ := bind_eq_ok h'
    cases h
    cases h'
    exact congrArg₂ (· ++ ·) (settled a' a r' r here first' first) (ih later others others')

end Loops

section Scales

variable {scale scale' radii radii' : List (String × Value)}

theorem frames_sizingEntries (keys : scale'.map (·.1) = scale.map (·.1)) :
    frames (sizingEntries scale') = frames (sizingEntries scale) := by
  simp only [sizingEntries, frames_append]
  refine congrArg₂ (· ++ ·) (congrArg (· ++ _) (frames_flatMap ?_ keys)) (frames_flatMap ?_ keys)
  all_goals rintro ⟨key, v⟩ ⟨_, w⟩ rfl
  · simp only [sizeRules, frames_named]
  · simp only [frames_append, offsetRules, frames_named]

theorem frames_borderEntries (keys : scale'.map (·.1) = scale.map (·.1))
    (keys' : radii'.map (·.1) = radii.map (·.1)) :
    frames (borderEntries scale' radii') = frames (borderEntries scale radii) := by
  simp only [borderEntries, frames_append]
  refine congrArg₂ (· ++ ·) (frames_flatMap ?_ keys) (frames_flatMap ?_ keys')
  all_goals rintro ⟨key, v⟩ ⟨_, w⟩ rfl
  · simp only [borderRules, frames_named]
  · simp only [cornerRules, frames_named]

theorem frames_spacingEntries (keys : scale'.map (·.1) = scale.map (·.1)) :
    frames (spacingEntries scale') = frames (spacingEntries scale) := by
  simp only [spacingEntries, frames_append]
  refine congrArg₂ (· ++ ·) (frames_flatMap ?_ keys) (frames_flatMap ?_ keys)
  all_goals rintro ⟨key, v⟩ ⟨_, w⟩ rfl
  · simp only [frames_append, boxRules, gapRules, frames_named]
  · simp only [frames_cons, betweenRule, frame]

theorem frames_shadowEntries {shadows shadows' : List (String × String)}
    (keys : shadows'.map (·.1) = shadows.map (·.1)) :
    frames (shadowEntries shadows') = frames (shadowEntries shadows) := by
  refine frames_map ?_ keys
  rintro ⟨key, v⟩ ⟨_, w⟩ rfl
  exact (frames_named _ _ _ []).trans (frames_named _ _ _ []).symm

theorem frames_steps (f : Family) (name : String) (color : Theme.Color) :
    frames (opacitySteps.map (f.stepRule name color)) = opacitySteps.map fun percent =>
      (f.stem ++ "-" ++ name ++ "/" ++ toString percent, (f.specificity + 1, none, none)) := by
  rw [frames, List.map_map]
  rfl

/-- A color counts by its key and by whether it is a triplet: only a triplet has rules with a fixed
opacity. -/
theorem frames_paletteEntries {colors colors' : List (String × Theme.Color)}
    (keys : (colors'.map fun e => (e.1, e.2.isTriplet)) =
      colors.map fun e => (e.1, e.2.isTriplet)) :
    frames (paletteEntries colors') = frames (paletteEntries colors) := by
  have family (f : Family) : frames (f.entries colors') = frames (f.entries colors) := by
    rw [Family.entries, Family.entries, frames_append, frames_append]
    refine congrArg (· ++ _) (frames_flatMap ?_ keys)
    rintro ⟨name, text, triplet⟩ ⟨_, text', _⟩ same
    cases same
    rw [Family.colorRules, Family.colorRules, Family.mainRule, Family.mainRule, frames_named,
      frames_named]
    cases triplet
    · rfl
    · exact congrArg (_ :: ·) ((frames_steps f name _).trans (frames_steps f name _).symm)
  simp only [paletteEntries, frames, List.map_flatMap]
  exact congrArg families.flatMap (funext family)

end Scales

end Rule

namespace Theme

open Rule (frames frames_append frames_map frames_mapM frames_named)

variable {t t' : Theme}

/-- Two themes with the same keys in the same order, whatever the values: the same cursors, which
are keys themselves, and triplets under the same colors. Breakpoints make no rules. -/
structure SameKeys (t t' : Theme) : Prop where
  color : (t'.color.map fun e => (e.1, e.2.isTriplet)) = t.color.map fun e => (e.1, e.2.isTriplet)
  fontFamily : t'.fontFamily.map (·.1) = t.fontFamily.map (·.1)
  fontSize : t'.fontSize.map (·.1) = t.fontSize.map (·.1)
  fontWeight : t'.fontWeight.map (·.1) = t.fontWeight.map (·.1)
  borderRadius : t'.borderRadius.map (·.1) = t.borderRadius.map (·.1)
  borderWidth : t'.borderWidth.map (·.1) = t.borderWidth.map (·.1)
  size : t'.size.map (·.1) = t.size.map (·.1)
  spacing : t'.spacing.map (·.1) = t.spacing.map (·.1)
  shadow : t'.shadow.map (·.1) = t.shadow.map (·.1)
  column : t'.column.map (·.1) = t.column.map (·.1)
  cursor : t'.cursor = t.cursor

theorem frames_typographyEntries (same : t.SameKeys t') {rules rules' : List (String × Rule)}
    (h : t.typographyEntries = .ok rules) (h' : t'.typographyEntries = .ok rules') :
    frames rules' = frames rules := by
  obtain ⟨sizes, made, h⟩ := bind_eq_ok h
  obtain ⟨sizes', made', h'⟩ := bind_eq_ok h'
  cases h
  cases h'
  have fontSize : frames sizes' = frames sizes := by
    refine frames_mapM ?_ same.fontSize made made'
    rintro ⟨key, parts⟩ ⟨_, parts'⟩ r s rfl hr hs
    match parts, parts', hr, hs with
    | [_, _], [_, _], hr, hs =>
      cases hr
      cases hs
      rw [frames_named, frames_named]
  simp only [frames_append]
  refine congrArg₂ (· ++ ·)
    (congrArg₂ (· ++ ·) fontSize (frames_map ?_ same.fontFamily))
    (frames_map ?_ same.fontWeight)
  all_goals
    rintro ⟨key, v⟩ ⟨_, w⟩ rfl
    rw [frames_named, frames_named]

theorem frames_entries (same : t.SameKeys t') {entries entries' : List (String × Rule)}
    (h : t.entries = .ok entries) (h' : t'.entries = .ok entries') :
    frames entries' = frames entries := by
  obtain ⟨typography, fonts, h⟩ := bind_eq_ok h
  obtain ⟨shadows, made, h⟩ := bind_eq_ok h
  obtain ⟨typography', fonts', h'⟩ := bind_eq_ok h'
  obtain ⟨shadows', made', h'⟩ := bind_eq_ok h'
  cases h
  cases h'
  have shadow : shadows'.map (·.1) = shadows.map (·.1) := by
    rw [names_mapNamed made, names_mapNamed made', same.shadow]
  simp only [frames_append, frames_typographyEntries same fonts fonts',
    Rule.frames_paletteEntries same.color, Rule.frames_sizingEntries same.size,
    Rule.frames_borderEntries same.borderWidth same.borderRadius, same.cursor,
    Rule.frames_spacingEntries same.spacing, Rule.frames_shadowEntries shadow]
  refine congrArg (· ++ _) (congrArg (· ++ _) (congrArg (_ ++ ·) (frames_map ?_ same.column)))
  rintro ⟨key, v⟩ ⟨_, w⟩ rfl
  exact (frames_named _ _ _ []).trans (frames_named _ _ _ []).symm

end Theme

namespace RuleTable

open Rule (frames)

/-- What a list of rules makes of a table, apart from declarations, is settled by its frames. -/
theorem frame_ofList {named named' : List (String × Rule)}
    (same : frames named' = frames named) (name : String) :
    ((ofList named').get? name).map Rule.frame = ((ofList named).get? name).map Rule.frame := by
  induction named using List.reverseRecOn generalizing named' with
  | nil =>
    obtain rfl : named' = [] := List.map_eq_nil_iff.1 same
    rfl
  | append_singleton before e ih =>
    rw [Rule.frames_append] at same
    obtain ⟨before', last, rfl, old, new⟩ := List.map_eq_append_iff.1 same
    obtain ⟨e', rfl, here⟩ := List.map_eq_singleton_iff.1 new
    obtain ⟨n, rule⟩ := e
    obtain ⟨n', rule'⟩ := e'
    simp only [Prod.mk.injEq] at here
    obtain ⟨rfl, here⟩ := here
    rw [ofList_concat, ofList_concat, get?_put, get?_put]
    split
    · exact congrArg some here
    · exact ih old

end RuleTable

namespace Theme

variable {t t' : Theme}

/-- Token values never influence the cascade: the tables of two themes with the same keys have the
same names at the same places, and each name has the same frame in both. -/
theorem rules_frame {table table' : RuleTable} (same : t.SameKeys t')
    (h : t.rules = .ok table) (h' : t'.rules = .ok table') :
    table'.names = table.names ∧ (∀ name, table'.position? name = table.position? name) ∧
      ∀ name, (table'.get? name).map Rule.frame = (table.get? name).map Rule.frame := by
  obtain ⟨entries, made, h⟩ := bind_eq_ok h
  obtain ⟨entries', made', h'⟩ := bind_eq_ok h'
  cases h
  cases h'
  have framed := frames_entries same made made'
  have names : (RuleTable.ofList entries').names = (RuleTable.ofList entries).names := by
    rw [RuleTable.names_ofList, RuleTable.names_ofList, Rule.names_eq_of_frames framed]
  refine ⟨names, fun name => Option.ext fun i => ?_, RuleTable.frame_ofList framed⟩
  rw [RuleTable.position?_eq_some_iff, RuleTable.position?_eq_some_iff, names]

/-- A theme in which names collide: a gap with the key `x-1` and one in a single direction, a color
and a font size, a font family and a font weight. -/
def day : Theme where
  color := [("ink", .ofText "0 0 0"), ("paper", .ofText "white")]
  fontFamily := [("bold", .text "serif")]
  fontSize := [("ink", [.text "1rem", .text "1.5rem"])]
  fontWeight := [("bold", .text "700")]
  spacing := [("1", .text "4px"), ("x-1", .text "8px")]
  shadow := [("", .text "0 1px rgb(0 0 0)"), ("none", .text "none")]
  cursor := [.text "grab"]

/-- The same keys with other values. -/
def night : Theme where
  color := [("ink", .ofText "255 255 255"), ("paper", .ofText "black")]
  fontFamily := [("bold", .text "monospace")]
  fontSize := [("ink", [.text "2rem", .text "2.5rem"])]
  fontWeight := [("bold", .integer 900)]
  spacing := [("1", .text "0"), ("x-1", .text "0")]
  shadow := [("", .text "none"), ("none", .text "0 1px rgb(9 9 9)")]
  cursor := [.text "grab"]

theorem rules_frame_day_night : ∃ table table',
    day.rules = .ok table ∧ night.rules = .ok table' ∧ table'.names = table.names ∧
      (∀ name, table'.position? name = table.position? name) ∧
      ∀ name, (table'.get? name).map Rule.frame = (table.get? name).map Rule.frame := by
  obtain ⟨table, made, -⟩ := exists_ok_of_any (x := day.rules) (p := fun _ => true)
    (by decide +kernel)
  obtain ⟨table', made', -⟩ := exists_ok_of_any (x := night.rules) (p := fun _ => true)
    (by decide +kernel)
  have same : day.SameKeys night := by
    constructor
    all_goals rfl
  exact ⟨table, table', made, made', rules_frame same made made'⟩

end Theme

end UtilityCss
