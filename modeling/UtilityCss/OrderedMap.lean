import Std.Data.TreeMap

/-! Maps from names to values that keep the order in which names first came.
Every operation is described by the list view; the index only makes look-ups fast. -/
namespace UtilityCss

universe u

/-- A list of named values in which `name` gets `value`: at its place if it is there, else last. -/
def putNamed {α : Type u} (name : String) (value : α) : List (String × α) → List (String × α)
  | [] => [(name, value)]
  | (n, v) :: rest =>
    if n = name then (name, value) :: rest else (n, v) :: putNamed name value rest

/-- The index holds exactly the place of every name. -/
def Indexes {α : Type u} (entries : Array (String × α)) (index : Std.TreeMap String Nat) : Prop :=
  ∀ (name : String) (i : Nat), index[name]? = some i ↔ ∃ v : α, entries[i]? = some (name, v)

/-- A map in order of first insertion. -/
structure OrderedMap (α : Type u) where
  entries : Array (String × α)
  index : Std.TreeMap String Nat
  indexes : Indexes entries index

namespace OrderedMap

variable {α : Type u}

/-- The map without names. -/
def empty : OrderedMap α := ⟨#[], ∅, by simp [Indexes]⟩

instance : Inhabited (OrderedMap α) := ⟨empty⟩

/-- The number of names. -/
def size (m : OrderedMap α) : Nat := m.entries.size

/-- The view: names and values in order. -/
def toList (m : OrderedMap α) : List (String × α) := m.entries.toList

/-- The names in order. -/
def names (m : OrderedMap α) : List String := m.toList.map (·.1)

/-- The place of a name, counted from zero. -/
def position? (m : OrderedMap α) (name : String) : Option Nat := m.index[name]?

/-- The value of a name. -/
def get? (m : OrderedMap α) (name : String) : Option α :=
  (m.position? name).bind fun i => m.entries[i]?.map (·.2)

/-- Whether the name is there. -/
def contains (m : OrderedMap α) (name : String) : Bool := (m.position? name).isSome

private theorem indexes_set {entries : Array (String × α)} {index : Std.TreeMap String Nat}
    {name : String} {i : Nat} (old : Indexes entries index) (h : index[name]? = some i)
    (value : α) : Indexes (entries.setIfInBounds i (name, value)) index := by
  intro n j
  obtain ⟨w, hw⟩ := (old name i).1 h
  have hi : i < entries.size := by
    by_cases hlt : i < entries.size
    · exact hlt
    · simp [Array.getElem?_eq_none (Nat.le_of_not_lt hlt)] at hw
  by_cases hj : i = j
  · subst hj
    rw [Array.getElem?_setIfInBounds_self_of_lt hi]
    constructor
    · intro hn
      obtain ⟨v, hv⟩ := (old n i).1 hn
      rw [hw] at hv
      simp only [Option.some.injEq, Prod.mk.injEq] at hv
      exact ⟨value, by rw [hv.1]⟩
    · rintro ⟨v, hv⟩
      simp only [Option.some.injEq, Prod.mk.injEq] at hv
      rw [← hv.1]
      exact h
  · rw [Array.getElem?_setIfInBounds_ne hj]
    exact old n j

private theorem indexes_push {entries : Array (String × α)} {index : Std.TreeMap String Nat}
    {name : String} (old : Indexes entries index) (h : index[name]? = none) (value : α) :
    Indexes (entries.push (name, value)) (index.insert name entries.size) := by
  intro n j
  rw [Std.TreeMap.getElem?_insert, Array.getElem?_push]
  simp only [Std.LawfulEqCmp.compare_eq_iff_eq]
  by_cases hn : name = n
  · subst hn
    simp only [if_true, Option.some.injEq]
    constructor
    · rintro rfl
      exact ⟨value, by simp⟩
    · rintro ⟨v, hv⟩
      split at hv
      · omega
      · have := (old name j).2 ⟨v, hv⟩
        simp [h] at this
  · simp only [hn, if_false]
    rw [old n j]
    constructor
    · rintro ⟨v, hv⟩
      have : j < entries.size := by
        by_cases hlt : j < entries.size
        · exact hlt
        · simp [Array.getElem?_eq_none (Nat.le_of_not_lt hlt)] at hv
      exact ⟨v, by rw [if_neg (by omega)]; exact hv⟩
    · rintro ⟨v, hv⟩
      split at hv
      · simp only [Option.some.injEq, Prod.mk.injEq] at hv
        exact absurd hv.1 hn
      · exact ⟨v, hv⟩

/-- Gives `name` a value: at its place if it is there, else last. -/
def insert (m : OrderedMap α) (name : String) (value : α) : OrderedMap α :=
  match m with
  | ⟨entries, index, old⟩ =>
    match h : index[name]? with
    | some i =>
      ⟨entries.setIfInBounds i (name, value), index, indexes_set old h value⟩
    | none =>
      let n := entries.size
      ⟨entries.push (name, value), index.insert name n, indexes_push old h value⟩

/-- The map made of a list of named values, read from left to right. -/
def ofList (named : List (String × α)) : OrderedMap α :=
  named.foldl (fun m e => m.insert e.1 e.2) empty

/-- A new name comes last. -/
theorem putNamed_append {name : String} {value : α} {l : List (String × α)}
    (h : ∀ e ∈ l, e.1 ≠ name) : putNamed name value l = l ++ [(name, value)] := by
  induction l with
  | nil => rfl
  | cons e rest ih =>
    obtain ⟨n, v⟩ := e
    have hn : n ≠ name := h (n, v) (by simp)
    simp only [putNamed, hn, if_false, List.cons_append, List.cons.injEq, true_and]
    exact ih fun e he => h e (by simp [he])

private theorem putNamed_set {name : String} {value w : α} {l : List (String × α)} {i : Nat}
    (h : l[i]? = some (name, w)) (only : ∀ j v, l[j]? = some (name, v) → j = i) :
    putNamed name value l = l.set i (name, value) := by
  induction l generalizing i with
  | nil => simp at h
  | cons e rest ih =>
    obtain ⟨n, v⟩ := e
    cases i with
    | zero =>
      simp only [List.getElem?_cons_zero, Option.some.injEq, Prod.mk.injEq] at h
      simp [putNamed, h.1]
    | succ i =>
      have hn : n ≠ name := by
        rintro rfl
        have := only 0 v (by simp)
        omega
      simp only [putNamed, hn, if_false, List.set_cons_succ, List.cons.injEq, true_and]
      refine ih (by simpa using h) fun j v hj => ?_
      have := only (j + 1) v (by simpa using hj)
      omega

/-- Inserting is putting into the list view. -/
@[simp] theorem toList_insert (m : OrderedMap α) (name : String) (value : α) :
    (m.insert name value).toList = putNamed name value m.toList := by
  obtain ⟨entries, index, old⟩ := m
  simp only [insert]
  split
  · next i h =>
    obtain ⟨w, hw⟩ := (old name i).1 h
    simp only [toList, Array.toList_setIfInBounds]
    refine (putNamed_set (w := w) (by simpa using hw) fun j v hj => ?_).symm
    have := (old name j).2 ⟨v, by simpa using hj⟩
    rw [h] at this
    exact (Option.some.inj this).symm
  · next h =>
    simp only [toList, Array.toList_push]
    refine (putNamed_append fun e he => ?_).symm
    rintro rfl
    obtain ⟨j, hj⟩ := List.getElem?_of_mem he
    have := (old e.1 j).2 ⟨e.2, by simpa using hj⟩
    rw [h] at this
    cases this

theorem position?_eq_some_iff {m : OrderedMap α} {name : String} {i : Nat} :
    m.position? name = some i ↔ ∃ v, m.toList[i]? = some (name, v) := by
  simpa [toList, position?] using m.indexes name i

theorem get?_eq_some_iff {m : OrderedMap α} {name : String} {v : α} :
    m.get? name = some v ↔ (name, v) ∈ m.toList := by
  constructor
  · intro h
    simp only [get?, Option.bind_eq_some_iff, Option.map_eq_some_iff] at h
    obtain ⟨i, hi, e, he, rfl⟩ := h
    obtain ⟨w, hw⟩ := position?_eq_some_iff.1 hi
    rw [toList, Array.getElem?_toList, he] at hw
    have : e = (name, w) := Option.some.inj hw
    subst this
    exact List.mem_of_getElem? (by rw [toList, Array.getElem?_toList]; exact he)
  · intro h
    obtain ⟨i, hi⟩ := List.getElem?_of_mem h
    have hp := position?_eq_some_iff.2 ⟨v, hi⟩
    rw [toList, Array.getElem?_toList] at hi
    simp [get?, hp, hi]

/-- No name stands twice in the view. -/
theorem nodup_names (m : OrderedMap α) : m.names.Nodup := by
  rw [List.Nodup, List.pairwise_iff_getElem]
  intro i j hi hj hij hsame
  simp only [names, List.length_map, List.getElem_map] at hi hj hsame
  have one : m.position? m.toList[i].1 = some i :=
    position?_eq_some_iff.2 ⟨_, List.getElem?_eq_getElem hi⟩
  have two : m.position? m.toList[j].1 = some j :=
    position?_eq_some_iff.2 ⟨_, List.getElem?_eq_getElem hj⟩
  rw [hsame, two] at one
  have := Option.some.inj one
  omega

end OrderedMap

end UtilityCss
