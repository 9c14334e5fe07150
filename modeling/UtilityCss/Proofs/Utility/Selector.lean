import Mathlib.Data.List.Induction
import UtilityCss.Proofs.Named
import UtilityCss.Proofs.Rule.Table
import UtilityCss.Proofs.Text.Split
import UtilityCss.Proofs.Utility.Blocks
import UtilityCss.Rule.Scale

/-! The selector of a class in use: its modifiers go in front of the class and behind it, and the
class can be read back from it. -/
namespace UtilityCss

namespace Candidate

/-- Reads an escaped name up to a colon that is not escaped. -/
def unescape : List Char → List Char
  | [] => []
  | '\\' :: c :: rest => c :: unescape rest
  | c :: rest => if c = ':' then [] else c :: unescape rest

/-- An escaped name is read back, whatever follows the colon behind it. -/
theorem unescape_escape {name : String} (parts : ∀ c ∈ name.toList, isPart c = true)
    {behind : List Char} (colon : ∀ c ∈ behind.head?, c = ':') :
    unescape ((escape name).toList ++ behind) = name.toList := by
  rw [escape, String.toList_ofList]
  generalize name.toList = characters at parts ⊢
  induction characters with
  | nil =>
    cases behind with
    | nil => rfl
    | cons c rest =>
      obtain rfl := colon c rfl
      rfl
  | cons c rest ih =>
    obtain ⟨part, more⟩ := List.forall_mem_cons.1 parts
    have later := ih more
    rw [List.flatMap_cons]
    split
    · exact congrArg (c :: ·) later
    · next plain =>
      have noBackslash : c ≠ '\\' := by
        rintro rfl
        exact absurd part (by decide)
      simp_all [unescape]

end Candidate

namespace Utility

variable {table : RuleTable} {breakpoints : Breakpoints} {className : String}

/-- The modifiers that name a breakpoint. -/
def queries (breakpoints : Breakpoints) (modifiers : List String) : List String :=
  modifiers.filter (· ∈ breakpoints.map (·.1))

/-- The modifiers that name no breakpoint. -/
def variants (breakpoints : Breakpoints) (modifiers : List String) : List String :=
  modifiers.filter (· ∉ breakpoints.map (·.1))

/-- What stands in front of the class: one ancestor for each `dark`. -/
def ancestors (breakpoints : Breakpoints) (modifiers : List String) : String :=
  String.join (List.replicate ((variants breakpoints modifiers).count "dark") ".dark ")

/-- What stands behind the class: the states of the element. -/
def states (breakpoints : Breakpoints) (modifiers : List String) : String :=
  String.join (((variants breakpoints modifiers).filter (· ≠ "dark")).map (":" ++ ·))

theorem foldl_modify (modifiers : List String) (selector breakpoint : String) :
    modifiers.foldl (modify breakpoints) (selector, breakpoint) =
      (ancestors breakpoints modifiers ++ selector ++ states breakpoints modifiers,
        (queries breakpoints modifiers).getLast?.getD breakpoint) := by
  induction modifiers using List.reverseRecOn with
  | nil => simp [ancestors, states, queries, variants]
  | append_singleton before m ih =>
    rw [List.foldl_append, ih, List.foldl_cons, List.foldl_nil]
    by_cases configured : m ∈ breakpoints.map (·.1)
    · have last : queries breakpoints (before ++ [m]) = queries breakpoints before ++ [m] := by
        simp [queries, configured]
      have same : variants breakpoints (before ++ [m]) = variants breakpoints before := by
        simp [variants, configured]
      rw [modify, if_pos (lookup_isSome_iff.2 configured)]
      simp [ancestors, states, last, same]
    · have same : queries breakpoints (before ++ [m]) = queries breakpoints before := by
        simp [queries, configured]
      have last : variants breakpoints (before ++ [m]) = variants breakpoints before ++ [m] := by
        simp [variants, configured]
      rw [modify, if_neg (mt lookup_isSome_iff.1 configured)]
      split
      · next dark =>
        subst dark
        simp [ancestors, states, same, last, List.replicate_succ, String.append_assoc]
      · next other =>
        simp [ancestors, states, same, last, other, String.append_assoc]

variable {modifiers : List String} {name : String}

theorem splitModifiers_intercalate (whole : ∀ field ∈ modifiers ++ [name], ':' ∉ field.toList) :
    splitModifiers (":".intercalate (modifiers ++ [name])) = (modifiers, name) := by
  have fields : Text.fields ':' (":".intercalate (modifiers ++ [name])) = modifiers ++ [name] :=
    Text.fields_intercalate whole (by simp)
  rw [splitModifiers, fields]
  simp

/-- Every class name is a list of modifiers with a name behind them. -/
theorem exists_intercalate (className : String) :
    ∃ modifiers name, (∀ field ∈ modifiers ++ [name], ':' ∉ field.toList) ∧
      className = ":".intercalate (modifiers ++ [name]) := by
  obtain ⟨modifiers, name, split⟩ :=
    List.eq_nil_or_concat (Text.fields ':' className) |>.resolve_left (Text.fields_ne_nil _)
  rw [List.concat_eq_append] at split
  refine ⟨modifiers, name, fun field inside => ?_, ?_⟩
  · rw [← split] at inside
    exact Text.not_mem_of_mem_fields inside
  · rw [← split]
    exact (Text.intercalate_fields className).symm

/-- The utility of a class whose name has a rule. -/
theorem resolve?_intercalate (whole : ∀ field ∈ modifiers ++ [name], ':' ∉ field.toList)
    {i : Nat} {rule : Rule} (h : table.toList[i]? = some (name, rule)) (breakpoints : Breakpoints) :
    let className := ":".intercalate (modifiers ++ [name])
    resolve? table breakpoints className = some {
      selector := ancestors breakpoints modifiers ++ ("." ++ Candidate.escape className) ++
        states breakpoints modifiers ++ rule.suffix.getD ""
      breakpoint := (queries breakpoints modifiers).getLast?.getD ""
      specificity := rule.specificity
      css := rule.css
      sibling := rule.sibling
      position := i } := by
  intro className
  have split : splitModifiers className = (modifiers, name) := splitModifiers_intercalate whole
  have there : table.toList[i]? = some ((splitModifiers className).2, rule) := by
    rw [split]
    exact h
  have resolved := resolve?_of_rule_at there breakpoints
  simp only [split, foldl_modify] at resolved
  exact resolved

theorem resolve?_eq_none_iff (whole : ∀ field ∈ modifiers ++ [name], ':' ∉ field.toList) :
    resolve? table breakpoints (":".intercalate (modifiers ++ [name])) = none ↔
      name ∉ table.names := by
  constructor
  · intro none inside
    obtain ⟨i, rule, found⟩ := RuleTable.exists_rule_at inside
    exact Option.some_ne_none _ ((resolve?_intercalate whole found breakpoints).symm.trans none)
  · refine fun outside => Option.eq_none_iff_forall_ne_some.2 fun u resolved => outside ?_
    simp only [resolve?, splitModifiers_intercalate whole, bind, Option.bind_eq_some_iff]
      at resolved
    obtain ⟨rule, found, -⟩ := resolved
    exact List.mem_map_of_mem (f := (·.1)) (OrderedMap.get?_eq_some_iff.1 found)

/-- The class of a selector: the name in the last of its parts that begins with a dot. -/
def subject (selector : String) : String :=
  let classes := (Text.fields ' ' selector).filter (·.toList.head? = some '.')
  String.ofList (Candidate.unescape ((classes.getLast?.getD "").toList.drop 1))

theorem fields_ancestors (breakpoints : Breakpoints) (modifiers : List String) (behind : String) :
    ∃ n, Text.fields ' ' (ancestors breakpoints modifiers ++ behind) =
      List.replicate n ".dark" ++ Text.fields ' ' behind := by
  refine ⟨(variants breakpoints modifiers).count "dark", ?_⟩
  rw [ancestors]
  induction (variants breakpoints modifiers).count "dark" with
  | zero => simp
  | succ n ih =>
    have apart : String.join (List.replicate (n + 1) ".dark ") ++ behind =
        ".dark" ++ String.singleton ' ' ++ (String.join (List.replicate n ".dark ") ++ behind) := by
      rw [List.replicate_succ, String.join_cons, String.append_assoc]
      rfl
    rw [apart, Text.fields_append, ih, Text.fields_of_not_mem (by decide)]
    rfl

theorem mem_states {c : Char} (h : c ∈ (states breakpoints modifiers).toList) :
    c = ':' ∨ ∃ m ∈ modifiers, c ∈ m.toList := by
  rw [states, String.toList_join, List.mem_flatMap] at h
  obtain ⟨_, state, inside⟩ := h
  obtain ⟨m, kept, rfl⟩ := List.mem_map.1 state
  rw [String.toList_append, List.mem_append] at inside
  rcases inside with colon | inside
  · exact .inl (List.mem_singleton.1 colon)
  · exact .inr ⟨m, List.mem_of_mem_filter (List.mem_of_mem_filter kept), inside⟩

/-- The states begin with a colon. -/
theorem head?_states : ∀ c ∈ (states breakpoints modifiers).toList.head?, c = ':' := by
  rw [states]
  cases (variants breakpoints modifiers).filter (· ≠ "dark") with
  | nil => simp
  | cons m rest => simp

/-- No blank stands in the part of a selector that has the class. -/
theorem blank_not_mem (parts : ∀ c ∈ className.toList, Candidate.isPart c = true)
    (more : ∀ m ∈ modifiers, ∀ c ∈ m.toList, c ∈ className.toList) :
    ' ' ∉ ("." ++ Candidate.escape className ++ states breakpoints modifiers).toList := by
  have outside : ' ' ∉ className.toList := fun inside => absurd (parts ' ' inside) (by decide)
  intro inside
  rw [String.toList_append, String.toList_append, List.mem_append, List.mem_append] at inside
  rcases inside with (dot | escaped) | state
  · exact absurd dot (by decide)
  · exact outside ((Candidate.mem_escape escaped).resolve_left (by decide))
  · obtain ⟨m, hm, inside⟩ := (mem_states state).resolve_left (by decide)
    exact outside (more m hm ' ' inside)

theorem fields_compound {compound : String} (solid : ' ' ∉ compound.toList) (suffix : Option String)
    (known : suffix = none ∨ suffix = some Rule.betweenChildren) :
    ∃ more, Text.fields ' ' (compound ++ suffix.getD "") = compound :: more ∧
      ∀ field ∈ more, field.toList.head? ≠ some '.' := by
  rcases known with rfl | rfl
  · exact ⟨[], by simpa using Text.fields_of_not_mem solid, by simp⟩
  · have apart : compound ++ Rule.betweenChildren =
        compound ++ String.singleton ' ' ++ "> :not([hidden]) ~ :not([hidden])" := by
      rw [String.append_assoc]
      rfl
    refine ⟨Text.fields ' ' "> :not([hidden]) ~ :not([hidden])", ?_, by decide⟩
    rw [Option.getD_some, apart, Text.fields_append, Text.fields_of_not_mem solid]
    rfl

/-- The class of a selector is read back from it. -/
theorem subject_eq (parts : ∀ c ∈ className.toList, Candidate.isPart c = true)
    (more : ∀ m ∈ modifiers, ∀ c ∈ m.toList, c ∈ className.toList) {suffix : Option String}
    (known : suffix = none ∨ suffix = some Rule.betweenChildren) :
    subject (ancestors breakpoints modifiers ++ ("." ++ Candidate.escape className) ++
      states breakpoints modifiers ++ suffix.getD "") = className := by
  obtain ⟨compound, named⟩ : ∃ compound,
      compound = "." ++ Candidate.escape className ++ states breakpoints modifiers := ⟨_, rfl⟩
  have solid : ' ' ∉ compound.toList := by
    rw [named]
    exact blank_not_mem parts more
  have front : compound.toList =
      '.' :: ((Candidate.escape className).toList ++ (states breakpoints modifiers).toList) := by
    simp [named]
  obtain ⟨behind, fields, plain⟩ := fields_compound solid suffix known
  obtain ⟨n, whole⟩ := fields_ancestors breakpoints modifiers (compound ++ suffix.getD "")
  have text : ancestors breakpoints modifiers ++ ("." ++ Candidate.escape className) ++
      states breakpoints modifiers ++ suffix.getD "" =
        ancestors breakpoints modifiers ++ (compound ++ suffix.getD "") := by
    simp only [named, String.append_assoc]
  have last : (Text.fields ' ' (ancestors breakpoints modifiers ++
      (compound ++ suffix.getD ""))).filter (·.toList.head? = some '.') =
        List.replicate n ".dark" ++ [compound] := by
    rw [whole, fields, List.filter_append, List.filter_replicate_of_pos (by decide),
      List.filter_cons_of_pos (by simp [front]), List.filter_eq_nil_iff.2 (by simpa using plain)]
  rw [text, subject, last]
  simp [front, Candidate.unescape_escape parts head?_states]

theorem subject_of_resolve? {u : Utility}
    (known : ∀ e ∈ table.toList, e.2.suffix = none ∨ e.2.suffix = some Rule.betweenChildren)
    (parts : ∀ c ∈ className.toList, Candidate.isPart c = true)
    (h : resolve? table breakpoints className = some u) : subject u.selector = className := by
  obtain ⟨modifiers, name, whole, rfl⟩ := exists_intercalate className
  have registered : name ∈ table.names := by
    by_contra outside
    exact absurd h (by simp [(resolve?_eq_none_iff whole).2 outside])
  obtain ⟨i, rule, found⟩ := RuleTable.exists_rule_at registered
  obtain rfl := Option.some.inj (h.symm.trans (resolve?_intercalate whole found breakpoints))
  refine subject_eq parts (fun m hm c hc => ?_) (known _ (List.mem_of_getElem? found))
  obtain ⟨front, behind, split⟩ := Text.exists_intercalate_of_mem ":"
    (List.mem_append_left _ hm : m ∈ modifiers ++ [_])
  rw [split]
  simp [hc]

/-- What a class name stands for. Its modifiers may stand in any order: each `dark` asks for one
more ancestor, the last breakpoint counts, and the others are states as they are written. No other
class has the same selector, if the table has no other suffix than the one of generated rules. -/
theorem resolve?_composed (table : RuleTable) (breakpoints : Breakpoints) :
    (∀ className, ∃ modifiers name, (∀ field ∈ modifiers ++ [name], ':' ∉ field.toList) ∧
      className = ":".intercalate (modifiers ++ [name])) ∧
    (∀ modifiers name, (∀ field ∈ modifiers ++ [name], ':' ∉ field.toList) →
      let className := ":".intercalate (modifiers ++ [name])
      (resolve? table breakpoints className = none ↔ name ∉ table.names) ∧
      ∀ (i : Nat) rule, table.toList[i]? = some (name, rule) →
        resolve? table breakpoints className = some {
          selector := ancestors breakpoints modifiers ++ ("." ++ Candidate.escape className) ++
            states breakpoints modifiers ++ rule.suffix.getD ""
          breakpoint := (queries breakpoints modifiers).getLast?.getD ""
          specificity := rule.specificity
          css := rule.css
          sibling := rule.sibling
          position := i }) ∧
    ((∀ e ∈ table.toList, e.2.suffix = none ∨ e.2.suffix = some Rule.betweenChildren) →
      ∀ a b u v, (∀ c ∈ a.toList, Candidate.isPart c = true) →
        (∀ c ∈ b.toList, Candidate.isPart c = true) →
        resolve? table breakpoints a = some u → resolve? table breakpoints b = some v →
        a ≠ b → u.selector ≠ v.selector) := by
  refine ⟨exists_intercalate, fun modifiers name whole => ⟨resolve?_eq_none_iff whole,
    fun i rule found => resolve?_intercalate whole found breakpoints⟩,
    fun known a b u v ha hb hu hv differ same => differ ?_⟩
  rw [← subject_of_resolve? known ha hu, same, subject_of_resolve? known hb hv]

private def between : Rule :=
  { css := "margin-left: 2px;", suffix := some Rule.betweenChildren }

private def parted : List (String × Rule) := [("p-4", { css := "padding: 4px;" }), ("m-x", between)]

private def small : Breakpoints := [("sm", "@media (min-width: 640px)")]

/-- A class with a breakpoint, `dark` and a state in front of a rule with a suffix, and another one
without them. -/
theorem resolve?_composed_dark :
    (∀ field ∈ ["hover", "sm", "dark"] ++ ["m-x"], ':' ∉ field.toList) ∧
    (RuleTable.ofList parted).toList[1]? = some ("m-x", between) ∧
    resolve? (.ofList parted) small "hover:sm:dark:m-x" = some {
      selector := ".dark .hover\\:sm\\:dark\\:m-x:hover > :not([hidden]) ~ :not([hidden])"
      breakpoint := "sm", specificity := 0, css := "margin-left: 2px;", position := 1 } ∧
    (∀ e ∈ (RuleTable.ofList parted).toList,
      e.2.suffix = none ∨ e.2.suffix = some Rule.betweenChildren) ∧
    ∃ u v, resolve? (.ofList parted) small "hover:sm:dark:m-x" = some u ∧
      resolve? (.ofList parted) small "hover:m-x" = some v ∧ u.selector ≠ v.selector := by
  have whole : ∀ field ∈ ["hover", "sm", "dark"] ++ ["m-x"], ':' ∉ field.toList := by decide
  have table : (RuleTable.ofList parted).toList = parted := RuleTable.toList_ofList (by decide)
  have found : (RuleTable.ofList parted).toList[1]? = some ("m-x", between) := by rw [table]; rfl
  have known : ∀ e ∈ (RuleTable.ofList parted).toList,
      e.2.suffix = none ∨ e.2.suffix = some Rule.betweenChildren := by
    rw [table]
    decide
  obtain ⟨-, composed, apart⟩ := resolve?_composed (.ofList parted) small
  have one := (composed _ _ whole).2 1 between found
  have two := (composed ["hover"] "m-x" (by decide)).2 1 between found
  have differ := apart known _ _ _ _ (List.all_eq_true.1 (by decide))
    (List.all_eq_true.1 (by decide)) one two (by decide)
  refine ⟨whole, found, ?_, known, _, _, one, two, differ⟩
  exact one

end Utility

end UtilityCss
