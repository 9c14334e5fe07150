import UtilityCss.OrderedMap

/-! Looking up names in lists of named values. -/
namespace UtilityCss

universe u

variable {α : Type u} {name other : String} {value : α} {entries : List (String × α)}

theorem lookup_putNamed_self : (putNamed name value entries).lookup name = some value := by
  induction entries with
  | nil => simp [putNamed]
  | cons e rest ih =>
    rw [putNamed]
    split
    · simp
    · next differs =>
      have unequal : (name == e.1) = false := by simpa using fun h => differs h.symm
      rw [List.lookup_cons, unequal]
      exact ih

theorem lookup_putNamed_of_ne (h : other ≠ name) :
    (putNamed name value entries).lookup other = entries.lookup other := by
  have unequal : (other == name) = false := by simpa using h
  induction entries with
  | nil => simp [putNamed, List.lookup_cons, unequal]
  | cons e rest ih =>
    rw [putNamed]
    split
    · next same =>
      rw [List.lookup_cons, List.lookup_cons, same, unequal]
    · rw [List.lookup_cons, List.lookup_cons, ih]

theorem mem_names_of_lookup (h : entries.lookup name = some value) :
    name ∈ entries.map (·.1) := by
  obtain ⟨before, behind, rfl, _⟩ := List.lookup_eq_some_iff.1 h
  simp

theorem not_mem_names_of_lookup (h : entries.lookup name = none) :
    name ∉ entries.map (·.1) := by
  intro inside
  obtain ⟨e, he, rfl⟩ := List.mem_map.1 inside
  simpa using List.lookup_eq_none_iff.1 h e he

theorem lookup_of_not_mem_names (h : name ∉ entries.map (·.1)) : entries.lookup name = none := by
  apply List.lookup_eq_none_iff.2
  intro e he
  have differs : e.1 ≠ name := fun same => h (same ▸ List.mem_map_of_mem he)
  simpa using fun same => differs same.symm

theorem lookup_isSome_iff : (entries.lookup name).isSome = true ↔ name ∈ entries.map (·.1) := by
  constructor
  · intro found
    obtain ⟨value, h⟩ := Option.isSome_iff_exists.1 found
    exact mem_names_of_lookup h
  · intro inside
    refine Option.isSome_iff_ne_none.2 fun none => ?_
    exact not_mem_names_of_lookup none inside

theorem lookup_of_mem (nodup : (entries.map (·.1)).Nodup) (h : (name, value) ∈ entries) :
    entries.lookup name = some value := by
  induction entries with
  | nil => cases h
  | cons e rest ih =>
    obtain ⟨first, more⟩ := List.nodup_cons.1 nodup
    rw [List.lookup_cons]
    rcases List.mem_cons.1 h with rfl | later
    · simp
    · have differs : (name == e.1) = false :=
        beq_eq_false_iff_ne.2 fun same => first (List.mem_map.2 ⟨(name, value), later, same⟩)
      rw [differs]
      exact ih more later

/-- A name that is there keeps its place, another one comes last. -/
theorem names_putNamed : (putNamed name value entries).map (·.1) =
    if name ∈ entries.map (·.1) then entries.map (·.1) else entries.map (·.1) ++ [name] := by
  induction entries with
  | nil => simp [putNamed]
  | cons e rest ih =>
    rw [putNamed]
    split
    · next same => simp [same]
    · next differs =>
      have other : name ≠ e.1 := fun h => differs h.symm
      rw [List.map_cons, ih, List.map_cons]
      simp only [List.mem_cons, other, false_or]
      split <;> rfl

theorem lookup_filter_self : (entries.filter (·.1 != name)).lookup name = none := by
  apply List.lookup_eq_none_iff.2
  intro e he
  have differs : e.1 ≠ name := by simpa using (List.mem_filter.1 he).2
  simpa using fun h => differs h.symm

/-- Entries under other names may be left out. -/
theorem lookup_filter (keep : String → Bool) (kept : keep name = true) :
    (entries.filter (keep ·.1)).lookup name = entries.lookup name := by
  induction entries with
  | nil => rfl
  | cons e rest ih =>
    cases here : keep e.1 with
    | true =>
      rw [List.filter_cons_of_pos (by simp [here]), List.lookup_cons, List.lookup_cons, ih]
    | false =>
      have unequal : (name == e.1) = false :=
        beq_eq_false_iff_ne.2 fun same => by simp [← same, kept] at here
      rw [List.filter_cons_of_neg (by simp [here]), List.lookup_cons, unequal]
      exact ih

theorem lookup_filter_of_ne (h : other ≠ name) :
    (entries.filter (·.1 != name)).lookup other = entries.lookup other :=
  lookup_filter (· != name) (bne_iff_ne.2 h)

/-- Lists of distinct names are told apart by their order and by what they hold. -/
theorem eq_of_lookup_eq {entries entries' : List (String × α)}
    (nodup : (entries.map (·.1)).Nodup) (names : entries'.map (·.1) = entries.map (·.1))
    (same : ∀ name, entries'.lookup name = entries.lookup name) : entries' = entries := by
  induction entries generalizing entries' with
  | nil => simpa using names
  | cons e rest ih =>
    obtain ⟨e', rest', rfl⟩ : ∃ e' rest', entries' = e' :: rest' :=
      List.exists_cons_of_ne_nil (by rintro rfl; cases names)
    obtain ⟨n, v⟩ := e
    obtain ⟨n', v'⟩ := e'
    simp only [List.map_cons, List.cons.injEq] at names
    obtain ⟨rfl, names⟩ := names
    rw [List.map_cons, List.nodup_cons] at nodup
    have first := same n'
    simp only [List.lookup_cons, beq_self_eq_true, Option.some.injEq] at first
    subst first
    refine congrArg _ (ih nodup.2 names fun name => ?_)
    by_cases here : name = n'
    · subst here
      rw [lookup_of_not_mem_names (names ▸ nodup.1), lookup_of_not_mem_names nodup.1]
    · have behind := same name
      rw [List.lookup_cons, List.lookup_cons, beq_eq_false_iff_ne.2 here] at behind
      exact behind

end UtilityCss
