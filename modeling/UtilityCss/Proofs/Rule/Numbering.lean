import UtilityCss.Proofs.Rule.Table

/-! The positions of a rule table number its names, whatever is set in it and however many of the
calls fail. Names are read from the stored rules, positions from the index beside them. -/
namespace UtilityCss

namespace RuleTable

/-- A name that no rule can have. -/
def IsDotted (name : String) : Prop := name.toList.head? = some '.'

instance : DecidablePred IsDotted := fun name =>
  inferInstanceAs (Decidable (name.toList.head? = some '.'))

theorem set_of_isDotted {name : String} (dotted : IsDotted name) (t : RuleTable) (rule : Rule) :
    t.set name rule = .error ⟨name⟩ := if_pos dotted

theorem set_of_not_isDotted {name : String} (allowed : ¬ IsDotted name) (t : RuleTable)
    (rule : Rule) : t.set name rule = .ok (t.put name rule) := if_neg allowed

/-- A call that is to give a name a rule. -/
inductive Call where
  | set (name : String) (rule : Rule)
  | add (name css : String) (specificity : Int) (suffix sibling : Option String)
  deriving DecidableEq, Repr

namespace Call

def name : Call → String
  | .set name _ => name
  | .add name _ _ _ _ => name

def rule : Call → Rule
  | .set _ rule => rule
  | .add _ css specificity suffix sibling => { css, specificity, suffix, sibling }

/-- The table that the call makes of another one. -/
def on (t : RuleTable) : Call → Except DottedName RuleTable
  | .set name rule => t.set name rule
  | .add name css specificity suffix sibling => t.add name css specificity suffix sibling

/-- The call on a table that is kept in place. What was written before a fault would stay. -/
def perform (call : Call) : ExceptT DottedName (StateM RuleTable) Unit := do
  if IsDotted call.name then throw ⟨call.name⟩
  modify fun t => t.put call.name call.rule

theorem on_of_isDotted {call : Call} (dotted : IsDotted call.name) (t : RuleTable) :
    call.on t = .error ⟨call.name⟩ := by
  cases call <;> exact set_of_isDotted dotted t _

theorem on_of_not_isDotted {call : Call} (allowed : ¬ IsDotted call.name) (t : RuleTable) :
    call.on t = .ok (t.put call.name call.rule) := by
  cases call <;> exact set_of_not_isDotted allowed t _

/-- Kept in place, a table becomes what the call makes of it, and stays what it is if it fails. -/
theorem run_perform (call : Call) (t : RuleTable) :
    call.perform.run.run t =
      match call.on t with
      | .ok next => (.ok (), next)
      | .error fault => (.error fault, t) := by
  by_cases dotted : IsDotted call.name
  · rw [on_of_isDotted dotted, perform, if_pos dotted]
    rfl
  · rw [on_of_not_isDotted dotted, perform, if_neg dotted]
    rfl

end Call

/-- The table that a call leaves, with or without a fault. -/
def after (t : RuleTable) (call : Call) : RuleTable := (call.perform.run.run t).2

/-- The table that calls leave which are made one by one. -/
def afterCalls (t : RuleTable) (calls : List Call) : RuleTable := calls.foldl after t

/-- The rule that the last of the calls for a name gives it. For a dotted name every call fails. -/
def lastRule? (calls : List Call) (name : String) : Option Rule :=
  if IsDotted name then none else (calls.filter (·.name = name)).getLast?.map Call.rule

/-- What holds of a table at any time. -/
structure IsNumbering (t : RuleTable) : Prop where
  nodup : t.names.Nodup
  undotted : ∀ name ∈ t.names, ¬ IsDotted name
  length : t.names.length = t.size
  position : ∀ (i : Nat) (inside : i < t.names.length), t.position? t.names[i] = some i
  contains : ∀ name, t.contains name = true ↔ name ∈ t.names
  positioned : ∀ name, t.contains name = true ↔ ∃ i, t.position? name = some i
  found : ∀ name, t.contains name = true ↔ ∃ rule, t.get? name = some rule

/-- What a call does with the table it is made on. -/
structure IsStableUnder (t : RuleTable) (call : Call) : Prop where
  refuses : IsDotted call.name →
    call.on t = .error ⟨call.name⟩ ∧ call.perform.run.run t = (.error ⟨call.name⟩, t)
  grows : ¬ IsDotted call.name → ∃ next,
    call.on t = .ok next ∧ call.perform.run.run t = (.ok (), next) ∧ t.names <+: next.names ∧
      ∀ name i, t.position? name = some i → next.position? name = some i
  overwrites : t.contains call.name = true → ∃ next,
    call.on t = .ok next ∧ next.names = t.names ∧ ∀ name, next.position? name = t.position? name

variable {t : RuleTable} {name : String} {rule : Rule}

theorem contains_iff : t.contains name = true ↔ name ∈ t.names := by
  rw [List.mem_iff_getElem?]
  exact Option.isSome_iff_exists.trans (exists_congr fun _ => position?_eq_some_iff)

theorem isNumbering_of_undotted (undotted : ∀ name ∈ t.names, ¬ IsDotted name) :
    t.IsNumbering where
  nodup := t.rules.nodup_names
  undotted := undotted
  length := (List.length_map _).trans Array.length_toList
  position := fun _ inside => position?_eq_some_iff.2 (List.getElem?_eq_getElem inside)
  contains := fun _ => contains_iff
  positioned := fun _ => Option.isSome_iff_exists
  found := fun _ => by
    rw [contains_iff, ← Option.ne_none_iff_exists', Ne, get?_eq_none_iff, not_not]

theorem names_prefix_put (t : RuleTable) (name : String) (rule : Rule) :
    t.names <+: (t.put name rule).names := by
  rw [names_put, addName]
  split
  · exact List.prefix_rfl
  · exact List.prefix_append _ _

theorem position?_put_of_position? {other : String} {i : Nat} (h : t.position? other = some i) :
    (t.put name rule).position? other = some i := by
  obtain ⟨rest, behind⟩ := names_prefix_put t name rule
  have here := position?_eq_some_iff.1 h
  obtain ⟨inside, _⟩ := List.getElem?_eq_some_iff.1 here
  exact position?_eq_some_iff.2 (by rw [← behind, List.getElem?_append_left inside, here])

theorem position?_eq_of_names {t' : RuleTable} (same : t'.names = t.names) (name : String) :
    t'.position? name = t.position? name :=
  Option.ext fun i => by rw [position?_eq_some_iff, position?_eq_some_iff, same]

theorem isStableUnder (undotted : ∀ name ∈ t.names, ¬ IsDotted name) (call : Call) :
    t.IsStableUnder call where
  refuses := fun dotted => by
    rw [call.run_perform, Call.on_of_isDotted dotted]
    exact ⟨rfl, rfl⟩
  grows := fun allowed => by
    rw [call.run_perform, Call.on_of_not_isDotted allowed]
    exact ⟨_, rfl, rfl, names_prefix_put t _ _, fun _ _ => position?_put_of_position?⟩
  overwrites := fun known => by
    have inside := contains_iff.1 known
    have same : (t.put call.name call.rule).names = t.names := by
      rw [names_put, addName, if_pos inside]
    exact ⟨_, Call.on_of_not_isDotted (undotted _ inside) t, same, position?_eq_of_names same⟩

theorem after_eq (t : RuleTable) (call : Call) :
    t.after call = if IsDotted call.name then t else t.put call.name call.rule := by
  rw [after, call.run_perform]
  by_cases dotted : IsDotted call.name
  · rw [Call.on_of_isDotted dotted, if_pos dotted]
  · rw [Call.on_of_not_isDotted dotted, if_neg dotted]

theorem afterCalls_concat (t : RuleTable) (calls : List Call) (call : Call) :
    t.afterCalls (calls ++ [call]) = (t.afterCalls calls).after call := by
  rw [afterCalls, List.foldl_append]
  rfl

theorem lastRule?_concat (calls : List Call) (call : Call) (name : String) :
    lastRule? (calls ++ [call]) name =
      if ¬ IsDotted call.name ∧ name = call.name then some call.rule
      else lastRule? calls name := by
  by_cases same : call.name = name
  · rw [lastRule?, lastRule?, List.filter_append, List.filter_singleton, decide_eq_true same,
      cond_true, List.getLast?_concat, same]
    by_cases dotted : IsDotted name <;> simp [dotted]
  · rw [lastRule?, lastRule?, List.filter_append, List.filter_singleton, decide_eq_false same,
      cond_false, List.append_nil]
    exact (if_neg fun set => same set.2.symm).symm

/-- What calls have set in an empty table, in the order of the calls. -/
theorem afterCalls_empty (calls : List Call) :
    (∀ name ∈ (empty.afterCalls calls).names, ¬ IsDotted name) ∧
      ∀ name, (empty.afterCalls calls).get? name = lastRule? calls name := by
  -- From the last call backwards, since it is the last one that counts.
  induction calls using List.reverseRecOn with
  | nil =>
    refine ⟨fun _ none => absurd none List.not_mem_nil, fun name => ?_⟩
    rw [lastRule?]
    split <;> exact get?_empty name
  | append_singleton calls call ih =>
    obtain ⟨undotted, last⟩ := ih
    rw [afterCalls_concat, after_eq]
    simp only [lastRule?_concat, ← last]
    by_cases dotted : IsDotted call.name
    · simpa [dotted] using undotted
    · rw [if_neg dotted, names_put, addName]
      refine ⟨fun name inside => ?_, fun name => ?_⟩
      · split at inside
        · exact undotted name inside
        · rcases List.mem_append.1 inside with old | new
          · exact undotted name old
          · rwa [List.mem_singleton.1 new]
      · simp [get?_put, dotted]

/-- The calls that make a table of a list. -/
def callsOf (named : List (String × Rule)) : List Call := named.map fun e => .set e.1 e.2

/-- A table is made of a list unless one of the names is dotted; the first such name is the fault. -/
theorem setAll_eq (t : RuleTable) (named : List (String × Rule)) :
    t.setAll named =
      match (named.map (·.1)).find? IsDotted with
      | some name => .error ⟨name⟩
      | none => .ok (t.afterCalls (callsOf named)) := by
  induction named generalizing t with
  | nil => rfl
  | cons e rest ih =>
    rw [setAll, List.foldlM_cons, List.map_cons, List.find?_cons]
    by_cases dotted : IsDotted e.1
    · rw [decide_eq_true dotted, set_of_isDotted dotted]
      rfl
    · have here : t.after (.set e.1 e.2) = t.put e.1 e.2 := by
        rw [after_eq]
        exact if_neg dotted
      rw [decide_eq_false dotted, set_of_not_isDotted dotted]
      refine (ih (t.put e.1 e.2)).trans ?_
      rw [← here]
      rfl

/-- Whatever list a table is made of and whatever calls follow, its positions number its names from
zero on, every name has the rule that was set last, and no call moves a name. -/
theorem stable_numbering (named : List (String × Rule)) :
    (∃ name, (named.map (·.1)).find? IsDotted = some name ∧
      empty.setAll named = .error ⟨name⟩) ∨
    ∃ made, empty.setAll named = .ok made ∧ ∀ calls : List Call,
      (made.afterCalls calls).IsNumbering ∧
      (∀ name, (made.afterCalls calls).get? name = lastRule? (callsOf named ++ calls) name) ∧
      ∀ call, (made.afterCalls calls).IsStableUnder call := by
  rw [setAll_eq]
  cases (named.map (·.1)).find? IsDotted with
  | some name => exact .inl ⟨name, rfl, rfl⟩
  | none =>
    refine .inr ⟨_, rfl, fun calls => ?_⟩
    have history : (empty.afterCalls (callsOf named)).afterCalls calls =
        empty.afterCalls (callsOf named ++ calls) := List.foldl_append.symm
    rw [history]
    obtain ⟨undotted, last⟩ := afterCalls_empty (callsOf named ++ calls)
    exact ⟨isNumbering_of_undotted undotted, last, isStableUnder undotted⟩

/-- Neither the call that fails nor the one that overwrites a rule takes a place of its own. -/
example :
    (empty.afterCalls [.add "b" "x:1;" 0 none none, .add ".c" "y:2;" 0 none none,
      .add "b" "z:3;" 4 none none, .add "a" "" 0 none none]).names = ["b", "a"] := by
  decide +kernel

end RuleTable

end UtilityCss
