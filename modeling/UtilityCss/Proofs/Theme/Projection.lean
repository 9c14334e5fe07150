import UtilityCss.Proofs.Text.Fingerprint
import UtilityCss.Proofs.Theme.Merging

/-! Compiling a theme a second time. The fields of a compiled theme, taken as overrides, are compiled
to the same fields: every name is at its place already and every value has its final form. -/
namespace UtilityCss.Theme

open Json (Value)

section Fields

variable {β : Type} {c : Category} {overrides back : List (String × Value)} {t : Theme}

/-- The names that were given to a category: no name twice, and the built-in ones first. -/
structure Category.Complete (c : Category) (names : List String) : Prop where
  nodup : names.Nodup
  begins : c.defaults.map (·.1) <+: names

theorem Category.nodup_defaults (c : Category) : (c.defaults.map (·.1)).Nodup := by
  apply Text.nodup_of_distinct
  cases c
  all_goals decide +kernel

theorem complete_of_merged {entries : List (String × Value)}
    (h : merged overrides c = .ok entries) : c.Complete (entries.map (·.1)) := by
  dsimp only [merged] at h
  split at h
  · cases h
    exact ⟨c.nodup_defaults, List.prefix_rfl⟩
  · split at h
    · next own _ =>
      cases h
      exact ⟨nodup_names_putAll own c.nodup_defaults, prefix_names_putAll _ own⟩
    · cases h

theorem merged_of_map {entries : List (String × Value)}
    (given : overrideOf back c = .map entries) : merged back c = .ok (putAll c.defaults entries) := by
  rw [merged, given]
  cases entries <;> rfl

/-- A field that holds all built-in names at their places is merged to itself. -/
theorem merged_again {entries entries' : List (String × Value)}
    (h : merged overrides c = .ok entries) (names : entries'.map (·.1) = entries.map (·.1))
    (given : overrideOf back c = .map entries') : merged back c = .ok entries' := by
  have complete := complete_of_merged h
  rw [← names] at complete
  rw [merged_of_map given, putAll_eq_self complete.nodup complete.begins]

/-- What a theme is compiled of, field by field. -/
structure Compiled (overrides : List (String × Value)) (t : Theme) : Prop where
  color : ∃ tokens colors, merged overrides .color = .ok tokens ∧
    mapNamed colorText tokens = .ok colors ∧ t.color = colors.map fun e => (e.1, .ofText e.2)
  fontFamily : merged overrides .fontFamily = .ok t.fontFamily
  fontSize : ∃ tokens, merged overrides .fontSize = .ok tokens ∧
    mapNamed fontSizeItems tokens = .ok t.fontSize
  fontWeight : merged overrides .fontWeight = .ok t.fontWeight
  breakpoint : ∃ tokens, merged overrides .breakpoint = .ok tokens ∧
    mapNamed breakpointText tokens = .ok t.breakpoint
  borderRadius : merged overrides .borderRadius = .ok t.borderRadius
  borderWidth : merged overrides .borderWidth = .ok t.borderWidth
  size : ∃ tokens, merged overrides .size = .ok tokens ∧ t.size = putAll t.spacing tokens
  spacing : merged overrides .spacing = .ok t.spacing
  shadow : merged overrides .shadow = .ok t.shadow
  column : merged overrides .column = .ok t.column
  cursor : mergedCursors overrides = .ok t.cursor

theorem compileNamed_eq_ok_iff : compileNamed overrides = .ok t ↔ Compiled overrides t := by
  constructor
  · intro h
    obtain ⟨_, color, h⟩ := bind_eq_ok h
    obtain ⟨_, fontFamily, h⟩ := bind_eq_ok h
    obtain ⟨_, fontSize, h⟩ := bind_eq_ok h
    obtain ⟨_, fontWeight, h⟩ := bind_eq_ok h
    obtain ⟨_, breakpoint, h⟩ := bind_eq_ok h
    obtain ⟨_, borderRadius, h⟩ := bind_eq_ok h
    obtain ⟨_, borderWidth, h⟩ := bind_eq_ok h
    obtain ⟨_, size, h⟩ := bind_eq_ok h
    obtain ⟨_, spacing, h⟩ := bind_eq_ok h
    obtain ⟨_, shadow, h⟩ := bind_eq_ok h
    obtain ⟨_, column, h⟩ := bind_eq_ok h
    obtain ⟨_, cursor, h⟩ := bind_eq_ok h
    obtain ⟨_, colors, h⟩ := bind_eq_ok h
    obtain ⟨_, breakpoints, h⟩ := bind_eq_ok h
    obtain ⟨_, fontSizes, h⟩ := bind_eq_ok h
    cases h
    exact ⟨⟨_, _, color, colors, rfl⟩, fontFamily, ⟨_, fontSize, fontSizes⟩, fontWeight,
      ⟨_, breakpoint, breakpoints⟩, borderRadius, borderWidth, ⟨_, size, rfl⟩, spacing, shadow,
      column, cursor⟩
  · rintro ⟨⟨_, _, color, colors, same⟩, fontFamily, ⟨_, fontSize, fontSizes⟩, fontWeight,
      ⟨_, breakpoint, breakpoints⟩, borderRadius, borderWidth, ⟨_, size, sizes⟩, spacing, shadow,
      column, cursor⟩
    rw [compileNamed, color, fontFamily, fontSize, fontWeight, breakpoint, borderRadius,
      borderWidth, size, spacing, shadow, column, cursor]
    simp only [bind, Except.bind, pure, Except.pure, colors, breakpoints, fontSizes, ← same,
      ← sizes]

theorem colorText_again {name rgb : String} {v : Value} (h : colorText name v = .ok rgb) :
    colorText name (.text rgb) = .ok rgb := by
  unfold colorText at h
  split at h
  · split at h
    · next converted =>
      cases h
      rw [colorText, hexToRgb_hexToRgb converted]
    · cases h
  · cases h

theorem breakpointText_again {name query : String} {v : Value}
    (h : breakpointText name v = .ok query) : breakpointText name (.text query) = .ok query := by
  cases v with
  | text s =>
    cases h
    rw [breakpointText, mediaQuery_mediaQuery]
  | _ => cases h

/-- A field whose values were converted is merged and converted to itself. -/
theorem converted_again {f : String → Value → Except Fault β} {g : β → Value}
    (settled : ∀ name v w, f name v = .ok w → f name (g w) = .ok w)
    {tokens : List (String × Value)} {made : List (String × β)}
    (h : merged overrides c = .ok tokens) (converted : mapNamed f tokens = .ok made)
    (given : overrideOf back c = .map (made.map fun e => (e.1, g e.2))) :
    ∃ tokens', merged back c = .ok tokens' ∧ mapNamed f tokens' = .ok made := by
  refine ⟨_, merged_again h ?_ given, mapNamed_again settled converted⟩
  rw [List.map_map, ← names_mapNamed converted]
  rfl

/-- Overrides that give the fields of a compiled theme and no cursors are compiled to these
fields. -/
theorem Compiled.again (compiled : Compiled overrides t)
    (given : ∀ c, c ≠ .cursor → overrideOf back c = t.field c)
    (cursor : (overrideOf back .cursor).isVoid = true) :
    Compiled back { t with cursor := Defaults.cursor.map .text } where
  color := by
    obtain ⟨tokens, colors, tokensOf, converted, same⟩ := compiled.color
    have field : overrideOf back .color = .map (colors.map fun e => (e.1, .text e.2)) := by
      rw [given .color (by decide), field, same, List.map_map]
      rfl
    obtain ⟨tokens', again, convertedAgain⟩ :=
      converted_again (fun _ _ _ => colorText_again) tokensOf converted field
    exact ⟨tokens', colors, again, convertedAgain, same⟩
  fontFamily := merged_again compiled.fontFamily rfl (given .fontFamily (by decide))
  fontSize := by
    obtain ⟨tokens, tokensOf, converted⟩ := compiled.fontSize
    exact converted_again (g := .list) (fun _ _ _ _ => rfl) tokensOf converted
      (given .fontSize (by decide))
  fontWeight := merged_again compiled.fontWeight rfl (given .fontWeight (by decide))
  breakpoint := by
    obtain ⟨tokens, tokensOf, converted⟩ := compiled.breakpoint
    exact converted_again (fun _ _ _ => breakpointText_again) tokensOf converted
      (given .breakpoint (by decide))
  borderRadius := merged_again compiled.borderRadius rfl (given .borderRadius (by decide))
  borderWidth := merged_again compiled.borderWidth rfl (given .borderWidth (by decide))
  size := by
    -- the spacing scale is among the sizes now, and they are merged onto it once more
    obtain ⟨tokens, tokensOf, sizes⟩ := compiled.size
    have complete := complete_of_merged tokensOf
    refine ⟨_, merged_of_map (given .size (by decide)), ?_⟩
    rw [sizes]
    exact (putAll_putAll_putAll (complete_of_merged compiled.spacing).nodup complete.nodup
      complete.begins).symm
  spacing := merged_again compiled.spacing rfl (given .spacing (by decide))
  shadow := merged_again compiled.shadow rfl (given .shadow (by decide))
  column := merged_again compiled.column rfl (given .column (by decide))
  cursor := by
    rw [mergedCursors, if_pos cursor]

end Fields

section Projection

variable {spelling : Category → String} {categories : List Category} {t : Theme}

/-- The spellings of a category in overrides. -/
def Category.Spelled (c : Category) (name : String) : Prop := name = c.name ∨ name = c.alias

theorem Category.Spelled.find?_eq_some {c : Category} {name : String} (h : c.Spelled name) :
    Category.all.find? (fun c' => name == c'.name || name == c'.alias) = some c := by
  rcases h with rfl | rfl
  all_goals cases c
  all_goals rfl

/-- No spelling belongs to two categories. -/
theorem Category.Spelled.unique {c c' : Category} {name : String} (h : c.Spelled name)
    (h' : c'.Spelled name) : c = c' :=
  Option.some.inj (h.find?_eq_some.symm.trans h'.find?_eq_some)

/-- Fields of a theme as overrides. -/
def asOverrides (t : Theme) (spelling : Category → String) (categories : List Category) :
    List (String × Value) :=
  categories.map fun c => (spelling c, t.field c)

variable (spelled : ∀ c : Category, c.Spelled (spelling c))
include spelled

/-- A category is found under its own spelling. -/
theorem lookup_asOverrides {c : Category} {name : String} (h : c.Spelled name) :
    (t.asOverrides spelling categories).lookup name =
      if c ∈ categories ∧ spelling c = name then some (t.field c) else none := by
  induction categories with
  | nil => simp [asOverrides]
  | cons c' rest ih =>
    change List.lookup name ((spelling c', t.field c') :: t.asOverrides spelling rest) = _
    rw [List.lookup_cons]
    by_cases here : name = spelling c'
    · obtain rfl : c = c' := h.unique (here ▸ spelled c')
      rw [if_pos ⟨List.mem_cons_self, here.symm⟩, here, beq_self_eq_true]
    · have others : (c ∈ c' :: rest ∧ spelling c = name) ↔ (c ∈ rest ∧ spelling c = name) := by
        refine and_congr_left fun own => ?_
        rw [List.mem_cons, or_iff_right]
        rintro rfl
        exact here own.symm
      rw [beq_eq_false_iff_ne.2 here, if_congr others rfl rfl]
      exact ih

theorem overrideOf_asOverrides (c : Category) :
    overrideOf (t.asOverrides spelling categories) c =
      if c ∈ categories then t.field c else .null := by
  rw [overrideOf, Value.field?, Value.field?, lookup_asOverrides spelled (.inl rfl),
    lookup_asOverrides spelled (.inr rfl)]
  by_cases there : c ∈ categories
  · rw [if_pos there]
    by_cases own : spelling c = c.name
    · rw [if_pos ⟨there, own⟩]
    · have other : spelling c = c.alias := (spelled c).resolve_left own
      rw [if_neg fun h => own h.2, if_pos ⟨there, other⟩]
      rfl
  · rw [if_neg fun h => there h.1, if_neg fun h => there h.1, if_neg there]
    rfl

/-- Compiling is a projection: the map fields of a compiled theme, given back as overrides in any
order and under either spelling, are compiled to the same fields. Only the further cursors are not
among them. -/
theorem compile_asOverrides {overrides : Value} (compiled : compile overrides = .ok t)
    (listed : ∀ c, c ∈ categories ↔ c ≠ .cursor) :
    compile (.map (t.asOverrides spelling categories)) =
      .ok { t with cursor := Defaults.cursor.map .text } := by
  obtain ⟨named, -, compiled⟩ := bind_eq_ok compiled
  have back (c : Category) : overrideOf (t.asOverrides spelling categories) c =
      if c ∈ categories then t.field c else .null := overrideOf_asOverrides spelled c
  have again : compileNamed (t.asOverrides spelling categories) =
      .ok { t with cursor := Defaults.cursor.map .text } := by
    refine compileNamed_eq_ok_iff.2 ((compileNamed_eq_ok_iff.1 compiled).again ?_ ?_)
    · intro c other
      rw [back, if_pos ((listed c).2 other)]
    · rw [back, if_neg fun there => (listed .cursor).1 there rfl]
      rfl
  have given : namedOverrides (.map (t.asOverrides spelling categories)) =
      .ok (t.asOverrides spelling categories) := by
    have some : Category.color ∈ categories := (listed .color).2 (by decide)
    have filled : (Value.map (t.asOverrides spelling categories)).isVoid = false := by
      cases categories with
      | nil => cases some
      | cons c rest => rfl
    rw [namedOverrides, if_neg (by simp [filled])]
  change namedOverrides _ >>= compileNamed = _
  rw [given]
  exact again

end Projection

/-- Overrides with colors, a breakpoint, a font size, sizes that are in the spacing scale too, and a
further cursor. -/
def branded : List (String × Value) := [
  ("color", .map [("brand", .text "#abc"), ("black", .text "#0a0b0c")]),
  ("size", .map [("tight", .text "3px"), ("huge", .text "99rem")]),
  ("spacing", .map [("tight", .text "2px"), ("4", .text "17px")]),
  ("breakpoint", .map [("3xl", .text "1800px")]),
  ("fontSize", .map [("xs", .list [.text "1px", .text "2px"])]),
  ("cursor", .list [.text "grab"])]

theorem compile_asOverrides_branded :
    ∃ t, compile (.map branded) = .ok t ∧
      t.breakpoint.lookup "3xl" = some "@media (min-width: 1800px)" ∧
      compile (.map (t.asOverrides Category.alias Category.all.dropLast)) =
        .ok { t with cursor := Defaults.cursor.map .text } := by
  have checked : (compile (.map branded)).toOption.any
      (fun t => t.breakpoint.lookup "3xl" == some "@media (min-width: 1800px)") = true := by
    decide +kernel
  obtain ⟨t, compiled, query⟩ := exists_ok_of_any checked
  refine ⟨t, compiled, beq_iff_eq.1 query, compile_asOverrides (fun c => .inr rfl) compiled ?_⟩
  rintro ⟨⟩
  all_goals decide

end UtilityCss.Theme
