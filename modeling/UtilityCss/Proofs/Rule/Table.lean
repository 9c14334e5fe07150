import Mathlib.Data.List.Induction
import Mathlib.Data.List.Nodup
import UtilityCss.Proofs.Named
import UtilityCss.Rule.Basic

/-! Rule tables: what is found under a name after another rule was set, and in which order names
stand. -/
namespace UtilityCss

namespace OrderedMap

theorem get?_eq_lookup {α : Type} (m : OrderedMap α) (name : String) :
    m.get? name = m.toList.lookup name := by
  cases found : m.toList.lookup name with
  | some value =>
    obtain ⟨before, behind, split, _⟩ := List.lookup_eq_some_iff.1 found
    exact get?_eq_some_iff.2 (by simp [split])
  | none =>
    cases got : m.get? name with
    | none => rfl
    | some value =>
      have inside := List.mem_map_of_mem (f := (·.1)) (get?_eq_some_iff.1 got)
      exact absurd inside (not_mem_names_of_lookup found)

end OrderedMap

namespace RuleTable

variable {t t' : RuleTable} {name : String} {rule : Rule}

@[simp] theorem get?_empty (name : String) : empty.get? name = none :=
  OrderedMap.get?_eq_lookup .empty name

theorem get?_put (t : RuleTable) (name : String) (rule : Rule) (other : String) :
    (t.put name rule).get? other = if other = name then some rule else t.get? other := by
  rw [get?, get?, OrderedMap.get?_eq_lookup, OrderedMap.get?_eq_lookup]
  change (t.put name rule).toList.lookup other = if _ then _ else t.toList.lookup other
  rw [toList_put]
  split
  · next same => rw [same, lookup_putNamed_self]
  · next differs => exact lookup_putNamed_of_ne differs

/-- What has a rule has it at a place of the table. -/
theorem exists_rule_at (h : name ∈ t.names) :
    ∃ (i : Nat) (rule : Rule), t.toList[i]? = some (name, rule) := by
  obtain ⟨⟨_, rule⟩, inside, rfl⟩ := List.mem_map.1 h
  obtain ⟨i, found⟩ := List.getElem?_of_mem inside
  exact ⟨i, rule, found⟩

/-- The names of a table after one more was given a rule. -/
def addName (names : List String) (name : String) : List String :=
  if name ∈ names then names else names ++ [name]

/-- The names of a table after others were given rules one by one. -/
def addNames (names registered : List String) : List String := registered.foldl addName names

theorem names_put (t : RuleTable) (name : String) (rule : Rule) :
    (t.put name rule).names = addName t.names name := by
  change (t.put name rule).toList.map (·.1) = _
  rw [toList_put, names_putNamed]
  rfl

theorem addNames_concat (names registered : List String) (name : String) :
    addNames names (registered ++ [name]) = addName (addNames names registered) name := by
  rw [addNames, List.foldl_append]
  rfl

theorem addNames_of_subset {names registered : List String} (h : registered ⊆ names) :
    addNames names registered = names := by
  induction registered with
  | nil => rfl
  | cons name rest ih =>
    obtain ⟨here, later⟩ := List.cons_subset.1 h
    rw [addNames, List.foldl_cons, addName, if_pos here]
    exact ih later

theorem subset_addNames (names registered : List String) :
    registered ⊆ addNames names registered := by
  induction registered using List.reverseRecOn with
  | nil => exact List.nil_subset _
  | append_singleton before name ih =>
    rw [addNames_concat, addName]
    split
    · next known => exact List.append_subset.2 ⟨ih, List.cons_subset.2 ⟨known, List.nil_subset _⟩⟩
    · exact List.append_subset.2
        ⟨List.Subset.trans ih (List.subset_append_left _ _), List.subset_append_right _ _⟩

/-- Names that were added stand behind the others, in the order in which they first came. -/
theorem addNames_eq (names registered : List String) :
    addNames names registered =
      names ++ (registered.filter fun name => name ∉ names).eraseDups := by
  induction registered using List.reverseRecOn with
  | nil => exact (List.append_nil _).symm
  | append_singleton before name ih =>
    rw [addNames_concat, ih, addName, List.filter_append, List.eraseDups_append]
    by_cases old : name ∈ names
    · simp [old]
    · by_cases known : name ∈ before
      · simp [old, known, List.removeAll]
      · simp [old, known, List.removeAll, List.eraseDups_cons]

theorem position?_eq_some_iff {i : Nat} :
    t.position? name = some i ↔ t.names[i]? = some name := by
  have names : t.names = t.rules.toList.map (·.1) := rfl
  rw [position?, OrderedMap.position?_eq_some_iff, names, List.getElem?_map,
    Option.map_eq_some_iff]
  constructor
  · rintro ⟨rule, found⟩
    exact ⟨_, found, rfl⟩
  · rintro ⟨⟨_, rule⟩, found, rfl⟩
    exact ⟨rule, found⟩

theorem position?_put_of_ne {other : String} (h : other ≠ name) :
    (t.put name rule).position? other = t.position? other := by
  refine Option.ext fun i => ?_
  rw [position?_eq_some_iff, position?_eq_some_iff, names_put, addName]
  split
  · exact Iff.rfl
  · rw [List.getElem?_append]
    split
    · exact Iff.rfl
    · next outside =>
      rw [List.getElem?_eq_none (Nat.not_lt.1 outside)]
      simp only [List.getElem?_singleton]
      split <;> simp [h.symm]

theorem exists_position?_put : ∃ i, (t.put name rule).position? name = some i := by
  have inside : name ∈ (t.put name rule).names := by
    rw [names_put, addName]
    split <;> simp [*]
  obtain ⟨i, found⟩ := List.getElem?_of_mem inside
  exact ⟨i, position?_eq_some_iff.2 found⟩

theorem ofList_concat (named : List (String × Rule)) (e : String × Rule) :
    ofList (named ++ [e]) = (ofList named).put e.1 e.2 := by
  rw [ofList, List.foldl_append]
  rfl

theorem names_ofList (named : List (String × Rule)) :
    (ofList named).names = addNames [] (named.map (·.1)) := by
  induction named using List.reverseRecOn with
  | nil => rfl
  | append_singleton before e ih =>
    rw [ofList_concat, names_put, ih, List.map_append, List.map_cons, List.map_nil,
      addNames_concat]

/-- A list of rules with distinct names is a table as it stands. -/
theorem toList_ofList {named : List (String × Rule)} (distinct : (named.map (·.1)).Nodup) :
    (ofList named).toList = named := by
  have onto (t : RuleTable) (rest : List (String × Rule))
      (distinct : ((t.toList ++ rest).map (·.1)).Nodup) :
      (rest.foldl (fun t e => t.put e.1 e.2) t).toList = t.toList ++ rest := by
    induction rest generalizing t with
    | nil => exact (List.append_nil _).symm
    | cons e rest ih =>
      have fresh : e.1 ∉ t.toList.map (·.1) := by
        intro known
        rw [List.map_append] at distinct
        exact List.disjoint_of_nodup_append distinct known (List.mem_map_of_mem List.mem_cons_self)
      have put : (t.put e.1 e.2).toList = t.toList ++ [e] :=
        (toList_put t e.1 e.2).trans (OrderedMap.putNamed_append fun e' he' same =>
          fresh (same ▸ List.mem_map_of_mem he'))
      rw [List.foldl_cons, ih, put, List.append_assoc]
      · rfl
      · rw [put, List.append_assoc]
        exact distinct
  exact onto empty named distinct

/-- Of the rules of one name the last one counts. -/
theorem get?_ofList_of_last {before behind : List (String × Rule)}
    (last : name ∉ behind.map (·.1)) :
    (ofList (before ++ (name, rule) :: behind)).get? name = some rule := by
  induction behind using List.reverseRecOn with
  | nil => rw [ofList_concat, get?_put, if_pos rfl]
  | append_singleton behind e ih =>
    rw [List.map_append, List.mem_append, not_or, List.map_singleton, List.mem_singleton] at last
    rw [← List.cons_append, ← List.append_assoc, ofList_concat, get?_put, if_neg last.2]
    exact ih last.1

theorem get?_ofList_of_mem {before named : List (String × Rule)}
    (distinct : (named.map (·.1)).Nodup) (h : (name, rule) ∈ named) :
    (ofList (before ++ named)).get? name = some rule := by
  obtain ⟨front, behind, rfl⟩ := List.append_of_mem h
  rw [List.map_append, List.map_cons] at distinct
  rw [← List.append_assoc]
  exact get?_ofList_of_last (List.nodup_cons.1 distinct.of_append_right).1

/-- Rules of other names may be left out. -/
theorem get?_ofList_filter (named : List (String × Rule)) (keep : String → Bool)
    (kept : keep name = true) :
    (ofList (named.filter (keep ·.1))).get? name = (ofList named).get? name := by
  induction named using List.reverseRecOn with
  | nil => rfl
  | append_singleton before e ih =>
    rw [List.filter_append, ofList_concat, get?_put, ← ih]
    cases here : keep e.1 with
    | true =>
      rw [List.filter_cons_of_pos (by simp [here]), List.filter_nil, ofList_concat, get?_put]
    | false =>
      have other : name ≠ e.1 := by
        rintro rfl
        rw [kept] at here
        cases here
      rw [List.filter_cons_of_neg (by simp [here]), List.filter_nil, List.append_nil, if_neg other]

theorem mem_names_ofList {named : List (String × Rule)} :
    name ∈ (ofList named).names ↔ name ∈ named.map (·.1) := by
  rw [names_ofList, addNames_eq, List.nil_append, List.mem_eraseDups]
  simp

theorem get?_eq_none_iff : t.get? name = none ↔ name ∉ t.names := by
  rw [get?, OrderedMap.get?_eq_lookup]
  exact ⟨not_mem_names_of_lookup, lookup_of_not_mem_names⟩

/-- Two tables with the same names in the same order and the same rules are the same list. -/
theorem toList_eq (names : t'.names = t.names) (rules : ∀ name, t'.get? name = t.get? name) :
    t'.toList = t.toList := by
  refine eq_of_lookup_eq t.rules.nodup_names names fun name => ?_
  have same := rules name
  rwa [get?, get?, OrderedMap.get?_eq_lookup, OrderedMap.get?_eq_lookup] at same

end RuleTable

end UtilityCss
