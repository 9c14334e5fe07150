import Mathlib.Algebra.Ring.Nat
import Mathlib.Data.List.Induction
import UtilityCss.Proofs.Named
import UtilityCss.Proofs.Utility.ScanOrder

/-! The history of a layer whose rule table and whose caller's breakpoints change. A candidate is
resolved in the update that first sights it, and what came of it stays. -/
namespace UtilityCss.Layer

/-- What can happen to a layer and to what it was made of. -/
inductive Event
  | update (sources : List String)
  | table (now : RuleTable)
  | breakpoints (now : Breakpoints)

/-- A layer with the table it reads, the breakpoints of its caller, and the counts that its updates
have returned. -/
structure Shared where
  table : RuleTable
  breakpoints : Breakpoints
  layer : Layer
  counts : List Nat := []

namespace Shared

/-- A new layer has the breakpoints for its own. -/
def start (table : RuleTable) (breakpoints : Breakpoints) : Shared :=
  { table, breakpoints, layer := { breakpoints, known := known_nil breakpoints } }

def step (s : Shared) : Event → Shared
  | .update sources =>
    let (layer, added) := s.layer.updateCounted s.table sources
    { s with layer, counts := s.counts ++ [added] }
  | .table now => { s with table := now }
  | .breakpoints now => { s with breakpoints := now }

def run (s : Shared) (events : List Event) : Shared := events.foldl step s

end Shared

/-- The candidates of the updates in order, each with the table at that time. -/
def sightings : (table : RuleTable) → List Event → List (String × RuleTable)
  | _, [] => []
  | table, .update sources :: rest =>
    (Candidate.ofSources sources).map (·, table) ++ sightings table rest
  | _, .table now :: rest => sightings now rest
  | table, .breakpoints _ :: rest => sightings table rest

/-- The utilities of the distinct candidates in order, each by the table of the first sighting. -/
def resolutions (breakpoints : Breakpoints) (sighted : List (String × RuleTable)) : List Utility :=
  (sighted.map (·.1)).eraseDups.filterMap fun className =>
    (sighted.lookup className).bind fun table => Utility.resolve? table breakpoints className

variable {table : RuleTable} {breakpoints : Breakpoints} {layer : Layer}
  {sighted : List (String × RuleTable)}

theorem map_fst_filter_sighted (names : List String) (more : List (String × RuleTable)) :
    (more.filter (·.1 ∉ names)).map (·.1) = (more.map (·.1)).removeAll names := by
  simp [List.removeAll, List.filter_map, Function.comp_def]

/-- Later sightings add what the candidates give that are new then, and change nothing else. -/
theorem resolutions_append (breakpoints : Breakpoints) (sighted more : List (String × RuleTable)) :
    resolutions breakpoints (sighted ++ more) = resolutions breakpoints sighted ++
      resolutions breakpoints (more.filter (·.1 ∉ sighted.map (·.1))) := by
  rw [resolutions, List.map_append, List.eraseDups_append, List.filterMap_append, resolutions,
    resolutions, map_fst_filter_sighted]
  congr 1
  · refine List.filterMap_congr fun c hc => ?_
    obtain ⟨table, first⟩ := Option.isSome_iff_exists.1
      (lookup_isSome_iff.2 (List.mem_eraseDups.1 hc))
    rw [List.lookup_append, first, Option.some_or]
  · refine List.filterMap_congr fun c hc => ?_
    have new : c ∉ sighted.map (·.1) := by
      obtain ⟨-, outside⟩ := List.mem_filter.1 (List.mem_eraseDups.1 hc)
      simpa using outside
    rw [List.lookup_append, lookup_of_not_mem_names new, Option.none_or,
      lookup_filter (· ∉ sighted.map (·.1)) (by simpa using new)]

@[simp] theorem resolutions_nil : resolutions breakpoints [] = [] := rfl

@[simp] theorem resolutions_singleton (className : String) (table : RuleTable) :
    resolutions breakpoints [(className, table)] =
      (Utility.resolve? table breakpoints className).toList := by
  cases resolved : Utility.resolve? table breakpoints className <;>
    simp [resolutions, List.eraseDups_cons, resolved]

/-- What a layer remembers of the candidates it has sighted. -/
structure Recorded (breakpoints : Breakpoints) (sighted : List (String × RuleTable))
    (layer : Layer) : Prop where
  fixed : layer.breakpoints = breakpoints
  mem_seen : ∀ c, layer.seen.contains c ↔ c ∈ sighted.map (·.1)
  utilities : layer.utilities = resolutions breakpoints sighted

theorem Recorded.addCandidate (h : Recorded breakpoints sighted layer) (table : RuleTable)
    (c : String) : Recorded breakpoints (sighted ++ [(c, table)]) (layer.addCandidate table c) := by
  obtain ⟨rfl, seen, utilities⟩ := h
  refine ⟨breakpoints_addCandidate table layer c, fun d => ?_, ?_⟩
  · rw [contains_seen_addCandidate, seen, List.map_append, List.mem_append, List.map_singleton,
      List.mem_singleton]
  · rw [utilities_addCandidate, utilities, resolutions_append]
    congr 1
    split
    · next old => simp [(seen c).1 old]
    · next new => simp [mt (seen c).2 new]

theorem Recorded.update (h : Recorded breakpoints sighted layer) (table : RuleTable)
    (sources : List String) : Recorded breakpoints
      (sighted ++ (Candidate.ofSources sources).map (·, table)) (layer.update table sources) := by
  rw [Layer.update]
  induction Candidate.ofSources sources generalizing layer sighted with
  | nil => simpa using h
  | cons c rest ih => simpa using ih (h.addCandidate table c)

theorem length_utilities_addCounted (table : RuleTable) (done : Layer × Nat) (className : String) :
    (addCounted table done className).1.utilities.length + done.2 =
      done.1.utilities.length + (addCounted table done className).2 := by
  rw [fst_addCounted, utilities_addCandidate, addCounted]
  split
  · simp
  · cases found : Utility.resolve? table done.1.breakpoints className with
    | none => simp
    | some u =>
      simp only [Option.toList_some, List.length_append, List.length_singleton,
        Option.isSome_some, if_true]
      omega

/-- An update returns by how many utilities the layer has grown. -/
theorem length_utilities_update (table : RuleTable) (layer : Layer) (sources : List String) :
    (layer.update table sources).utilities.length =
      layer.utilities.length + (layer.updateCounted table sources).2 := by
  have fold (candidates : List String) (done : Layer × Nat) :
      (candidates.foldl (addCounted table) done).1.utilities.length + done.2 =
        done.1.utilities.length + (candidates.foldl (addCounted table) done).2 := by
    induction candidates generalizing done with
    | nil => rfl
    | cons c rest ih =>
      have here := length_utilities_addCounted table done c
      have later := ih (addCounted table done c)
      rw [List.foldl_cons]
      omega
  rw [← fst_updateCounted]
  exact fold _ (layer, 0)

namespace Shared

variable {s : Shared}

theorem sightings_cons (s : Shared) (event : Event) (rest : List Event) :
    sightings s.table (event :: rest) =
      sightings s.table [event] ++ sightings (s.step event).table rest := by
  cases event <;> simp [sightings, step]

theorem sightings_append (s : Shared) (earlier later : List Event) :
    sightings s.table (earlier ++ later) =
      sightings s.table earlier ++ sightings (s.run earlier).table later := by
  induction earlier generalizing s with
  | nil => rfl
  | cons event rest ih =>
    rw [List.cons_append, sightings_cons, ih, sightings_cons s event rest, List.append_assoc]
    rfl

/-- What holds at every time. -/
structure Holds (breakpoints : Breakpoints) (sighted : List (String × RuleTable)) (s : Shared) :
    Prop where
  recorded : Recorded breakpoints sighted s.layer
  counted : s.counts.sum = s.layer.utilities.length

theorem holds_start (table : RuleTable) (breakpoints : Breakpoints) :
    Holds breakpoints [] (start table breakpoints) :=
  ⟨⟨rfl, by simp [start], rfl⟩, rfl⟩

/-- Only an update sights candidates, and nothing else touches the layer. -/
theorem Holds.step (h : Holds breakpoints sighted s) (event : Event) :
    Holds breakpoints (sighted ++ sightings s.table [event]) (s.step event) := by
  cases event with
  | update sources =>
    have grown := length_utilities_update s.table s.layer sources
    have recorded := h.recorded.update s.table sources
    rw [← fst_updateCounted] at grown recorded
    rw [sightings, sightings, List.append_nil]
    refine ⟨recorded, ?_⟩
    change (s.counts ++ [_]).sum = _
    rw [List.sum_append, h.counted, List.sum_singleton]
    exact grown.symm
  | table now => simpa [sightings] using ⟨h.recorded, h.counted⟩
  | breakpoints now => simpa [sightings] using ⟨h.recorded, h.counted⟩

theorem Holds.run (h : Holds breakpoints sighted s) (events : List Event) :
    Holds breakpoints (sighted ++ sightings s.table events) (s.run events) := by
  induction events generalizing s sighted with
  | nil =>
    rw [sightings, List.append_nil]
    exact h
  | cons event rest ih =>
    rw [sightings_cons, ← List.append_assoc]
    exact ih (h.step event)

/-- Whatever becomes of the table and of the breakpoints of the caller, a layer has the utilities of
the candidates it has sighted, each by the table of its first sighting and by the breakpoints from
the start. What happens later only adds the utilities of candidates that are new then. The counts of
the updates add up to the number of utilities. -/
theorem utilities_run (table : RuleTable) (breakpoints : Breakpoints) :
    (∀ events, let s := (start table breakpoints).run events
      s.layer.utilities = resolutions breakpoints (sightings table events) ∧
        s.counts.sum = s.layer.utilities.length) ∧
    ∀ earlier later, let s := (start table breakpoints).run earlier
      ((start table breakpoints).run (earlier ++ later)).layer.utilities = s.layer.utilities ++
        resolutions breakpoints ((sightings s.table later).filter
          (·.1 ∉ (sightings table earlier).map (·.1))) := by
  have always (events : List Event) :
      Holds breakpoints (sightings table events) ((start table breakpoints).run events) :=
    (holds_start table breakpoints).run events
  refine ⟨fun events => ⟨(always events).recorded.utilities, (always events).counted⟩,
    fun earlier later => ?_⟩
  intro s
  rw [(always (earlier ++ later)).recorded.utilities, (always earlier).recorded.utilities,
    ← resolutions_append]
  exact congrArg _ (sightings_append (start table breakpoints) earlier later)

/-- A candidate that had no rule stays without one, but not with a modifier in front of it. -/
example : ((start .empty []).run [.update ["p-4"],
    .table (.ofList [("p-4", { css := "padding: 4px;" })]), .update ["p-4 hover:p-4"]]).counts =
      [0, 1] := by
  decide +kernel

end Shared

end UtilityCss.Layer
