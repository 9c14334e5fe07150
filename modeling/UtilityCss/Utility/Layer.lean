import Std.Data.TreeSet
import UtilityCss.Utility.Merge

/-! The utilities layer: collected from sources and written as one block. -/
namespace UtilityCss

/-- The fault of a utility whose breakpoint is not configured. -/
structure UnknownBreakpoint where
  name : String
  deriving DecidableEq, Repr

namespace Utility

/-- The order of the buckets: outside all breakpoints first, then the breakpoints as configured. -/
def bucketOrder (breakpoints : Breakpoints) : List String := "" :: breakpoints.map (·.1)

/-- The last place of a name in the order of the buckets. -/
def rank? (order : List String) (name : String) : Option Nat :=
  (order.zipIdx.reverse.lookup name)

/-- Whether a utility may be written before another one: by specificity, then by position, then by
the rank of the breakpoint. -/
def before (a b : Utility × Nat) : Bool :=
  if a.1.specificity ≠ b.1.specificity then decide (a.1.specificity < b.1.specificity)
  else if a.1.position ≠ b.1.position then decide (a.1.position < b.1.position)
  else decide (a.2 ≤ b.2)

/-- A rule as it is written. -/
def block (u : Utility) : String := u.selector ++ "\x7b" ++ u.css ++ "\x7d"

/-- The lines of the utilities, each with the name of its bucket. A sibling is written behind the
first rule that brings it. -/
def bucketLines : (written : List String) → List Utility → List (String × String)
  | _, [] => []
  | written, u :: rest =>
    match u.realSibling? with
    | none => (u.breakpoint, u.block) :: bucketLines written rest
    | some s =>
      if written.contains s then (u.breakpoint, u.block) :: bucketLines written rest
      else (u.breakpoint, u.block) :: (u.breakpoint, s) :: bucketLines (s :: written) rest

/-- One bucket, in its media query if it has one. -/
def bucketText (breakpoints : Breakpoints) (lines : List (String × String)) (name : String) :
    Option String :=
  let own := lines.filterMap fun l => if l.1 = name then some l.2 else none
  if own.isEmpty then none
  else
    let body := String.intercalate "\n" own
    if name.isEmpty then some body
    else some ((breakpoints.lookup name).getD "" ++ " \x7b" ++ body ++ "\x7d")

/-- Gives every utility the rank of its bucket. -/
def ranked (order : List String) : List Utility → Except UnknownBreakpoint (List (Utility × Nat))
  | [] => .ok []
  | u :: rest =>
    match rank? order u.breakpoint with
    | none => .error ⟨u.breakpoint⟩
    | some r => do
      let tail ← ranked order rest
      return (u, r) :: tail

/-- The merged utilities in the order in which they are written. -/
def arranged (utilities : List Utility) (breakpoints : Breakpoints) :
    Except UnknownBreakpoint (List Utility) := do
  let all ← ranked (bucketOrder breakpoints) (merge utilities)
  return (all.mergeSort before).map (·.1)

/-- The utilities as the text of one layer. -/
def render (utilities : List Utility) (breakpoints : Breakpoints) :
    Except UnknownBreakpoint String := do
  let lines := bucketLines [] (← arranged utilities breakpoints)
  let buckets := (bucketOrder breakpoints).filterMap (bucketText breakpoints lines)
  return "@layer utilities\x7b" ++ String.intercalate "\n" buckets ++ "\x7d"

theorem modify_breakpoint_mem {breakpoints : Breakpoints} {done : String × String}
    (h : done.2 ∈ bucketOrder breakpoints) (modifier : String) :
    (modify breakpoints done modifier).2 ∈ bucketOrder breakpoints := by
  unfold modify
  split
  · next found =>
    obtain ⟨value, hv⟩ := Option.isSome_iff_exists.1 found
    obtain ⟨l₁, l₂, hl, -⟩ := List.lookup_eq_some_iff.1 hv
    simp [bucketOrder, hl]
  · split <;> exact h

/-- A class stands outside all breakpoints or in a configured one. -/
theorem resolve?_breakpoint_mem {table : RuleTable} {breakpoints : Breakpoints}
    {className : String} {u : Utility} (h : resolve? table breakpoints className = some u) :
    u.breakpoint ∈ bucketOrder breakpoints := by
  have fold (modifiers : List String) (done : String × String)
      (hd : done.2 ∈ bucketOrder breakpoints) :
      (modifiers.foldl (modify breakpoints) done).2 ∈ bucketOrder breakpoints := by
    induction modifiers generalizing done with
    | nil => exact hd
    | cons m rest ih => exact ih _ (modify_breakpoint_mem hd m)
  simp only [resolve?, bind, Option.bind_eq_some_iff] at h
  obtain ⟨rule, -, position, -, hu⟩ := h
  obtain rfl := Option.some.inj hu
  exact fold _ _ (by simp [bucketOrder])

private theorem lookup_isSome_of_mem {name : String} {i : Nat} {l : List (String × Nat)}
    (h : (name, i) ∈ l) : (l.lookup name).isSome := by
  induction l with
  | nil => cases h
  | cons e rest ih =>
    rw [List.lookup_cons]
    split
    · rfl
    · next hne =>
      rcases List.mem_cons.1 h with rfl | h
      · simp at hne
      · exact ih h

/-- Every bucket has a rank. -/
theorem rank?_isSome {order : List String} {name : String} (h : name ∈ order) :
    (rank? order name).isSome := by
  obtain ⟨i, hi, rfl⟩ := List.mem_iff_getElem.1 h
  exact lookup_isSome_of_mem (i := i) (by simp [List.mem_zipIdx_iff_getElem?])

theorem ranked_eq_ok {order : List String} {utilities : List Utility}
    (h : ∀ u ∈ utilities, u.breakpoint ∈ order) : ∃ all, ranked order utilities = .ok all := by
  induction utilities with
  | nil => exact ⟨[], rfl⟩
  | cons u rest ih =>
    obtain ⟨tail, ht⟩ := ih fun v hv => h v (by simp [hv])
    obtain ⟨r, hr⟩ := Option.isSome_iff_exists.1 (rank?_isSome (h u (by simp)))
    exact ⟨(u, r) :: tail, by simp [ranked, hr, ht, bind, Except.bind, pure, Except.pure]⟩

/-- Utilities can be written if their breakpoints are configured. -/
theorem render_eq_ok {utilities : List Utility} {breakpoints : Breakpoints}
    (h : ∀ u ∈ utilities, u.breakpoint ∈ bucketOrder breakpoints) :
    ∃ css, render utilities breakpoints = .ok css := by
  have known : ∀ m ∈ merge utilities, m.breakpoint ∈ bucketOrder breakpoints := by
    intro m hm
    obtain ⟨u, hu, same⟩ := exists_mem_of_mem_merge hm
    exact same ▸ h u hu
  obtain ⟨all, ha⟩ := ranked_eq_ok known
  simp [render, arranged, ha, bind, Except.bind, pure, Except.pure]

end Utility

/-- The utilities collected so far. Every candidate is resolved when it is first seen and never
again, so the breakpoints are fixed from the start. -/
structure Layer where
  breakpoints : Breakpoints
  utilities : List Utility := []
  seen : Std.TreeSet String := ∅
  known : ∀ u ∈ utilities, u.breakpoint ∈ Utility.bucketOrder breakpoints := by simp

namespace Layer

/-- Resolves a candidate that was not seen before. -/
def addCandidate (table : RuleTable) (layer : Layer) (className : String) : Layer :=
  if layer.seen.contains className then layer
  else
    match h : Utility.resolve? table layer.breakpoints className with
    | none => { layer with seen := layer.seen.insert className }
    | some u =>
      { layer with
        seen := layer.seen.insert className
        utilities := layer.utilities ++ [u]
        known := fun v hv => by
          rcases List.mem_append.1 hv with hv | hv
          · exact layer.known v hv
          · rw [List.mem_singleton.1 hv]
            exact Utility.resolve?_breakpoint_mem h }

/-- Resolves the candidates of some sources. -/
def update (table : RuleTable) (layer : Layer) (sources : List String) : Layer :=
  (Candidate.ofSources sources).foldl (addCandidate table) layer

/-- Resolves a candidate and counts what it adds. -/
def addCounted (table : RuleTable) (done : Layer × Nat) (className : String) : Layer × Nat :=
  if done.1.seen.contains className then done
  else
    (done.1.addCandidate table className,
      if (Utility.resolve? table done.1.breakpoints className).isSome then done.2 + 1 else done.2)

/-- Resolves the candidates of some sources and returns how many utilities are new. -/
def updateCounted (table : RuleTable) (layer : Layer) (sources : List String) : Layer × Nat :=
  (Candidate.ofSources sources).foldl (addCounted table) (layer, 0)

/-- The text of the layer. -/
def text (layer : Layer) : String :=
  match h : Utility.render layer.utilities layer.breakpoints with
  | .ok css => css
  | .error _ => absurd (Utility.render_eq_ok layer.known) (by simp [h])

/-- The text is what is written for the collected utilities. -/
theorem render_utilities (layer : Layer) :
    Utility.render layer.utilities layer.breakpoints = .ok layer.text := by
  unfold text
  split
  · assumption
  · next h => exact absurd (Utility.render_eq_ok layer.known) (by simp [h])

@[simp] theorem breakpoints_addCandidate (table : RuleTable) (layer : Layer) (className : String) :
    (layer.addCandidate table className).breakpoints = layer.breakpoints := by
  rw [addCandidate]
  split
  · rfl
  · split <;> rfl

theorem contains_seen_addCandidate {table : RuleTable} {layer : Layer} {className other : String} :
    (layer.addCandidate table className).seen.contains other ↔
      layer.seen.contains other ∨ other = className := by
  have inserted : (layer.seen.insert className).contains other ↔
      layer.seen.contains other ∨ other = className := by
    rw [Std.TreeSet.contains_insert, Bool.or_eq_true, beq_iff_eq,
      Std.LawfulEqCmp.compare_eq_iff_eq, or_comm]
    exact or_congr_right eq_comm
  rw [addCandidate]
  split
  · next old => exact ⟨.inl, fun h => h.elim id (· ▸ old)⟩
  · split <;> exact inserted

/-- A candidate adds its utility, if it is new and has a rule. -/
theorem utilities_addCandidate (table : RuleTable) (layer : Layer) (className : String) :
    (layer.addCandidate table className).utilities = layer.utilities ++
      if layer.seen.contains className then []
      else (Utility.resolve? table layer.breakpoints className).toList := by
  rw [addCandidate]
  split
  · exact (List.append_nil _).symm
  · split <;> simp [*]

theorem fst_addCounted (table : RuleTable) (done : Layer × Nat) (className : String) :
    (addCounted table done className).1 = done.1.addCandidate table className := by
  rw [addCounted]
  split
  · next old => rw [addCandidate, if_pos old]
  · rfl

/-- Counting changes nothing in the layer. -/
theorem fst_updateCounted (table : RuleTable) (layer : Layer) (sources : List String) :
    (layer.updateCounted table sources).1 = layer.update table sources := by
  have fold (more : List String) (done : Layer × Nat) :
      (more.foldl (addCounted table) done).1 = more.foldl (addCandidate table) done.1 := by
    induction more generalizing done with
    | nil => rfl
    | cons c rest ih => rw [List.foldl_cons, List.foldl_cons, ih, fst_addCounted]
  exact fold _ _

end Layer

end UtilityCss
