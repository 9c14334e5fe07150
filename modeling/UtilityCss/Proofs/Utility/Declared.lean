import Mathlib.Data.List.Chain
import UtilityCss.Proofs.Sheet.Document
import UtilityCss.Proofs.Text.Split
import UtilityCss.Proofs.Utility.Breadth

/-! In which order authored utilities are written. The place of an entry in its layer of utilities
is its specificity, so the entries of one layer come in the order in which they are declared. The
places begin anew in every layer, and entries of two layers are compared by them all the same. -/
namespace UtilityCss

namespace Sheet

variable {between behind : List (Entry × Nat)} {a b : Entry × Nat}

/-- From one entry to the next the place goes up by one, or a layer begins. -/
def Follows (e e' : Entry × Nat) : Prop := e'.2 = e.2 + 1 ∨ e'.2 = 1

private theorem isChain_zipIdx (entries : List Entry) (place : Nat) :
    (entries.zipIdx place).IsChain Follows := by
  induction entries generalizing place with
  | nil => exact .nil
  | cons e rest ih =>
    rw [List.zipIdx_cons, List.isChain_cons]
    refine ⟨fun e' he' => ?_, ih (place + 1)⟩
    cases rest with
    | nil => cases he'
    | cons e'' rest =>
      cases he'
      exact .inl rfl

private theorem head?_zipIdx_one {entries : List Entry} {e : Entry × Nat}
    (h : e ∈ (entries.zipIdx 1).head?) : e.2 = 1 := by
  cases entries with
  | nil => cases h
  | cons e' rest =>
    cases h
    rfl

private theorem isChain_layers (items : List Item) (last : List Entry) :
    let entries := (items.flatMap fun item => item.entries.zipIdx 1) ++ last.zipIdx 1
    entries.IsChain Follows ∧ ∀ e ∈ entries.head?, e.2 = 1 := by
  induction items with
  | nil => exact ⟨isChain_zipIdx last 1, fun _ => head?_zipIdx_one⟩
  | cons item items ih =>
    obtain ⟨later, starts⟩ := ih
    rw [List.flatMap_cons, List.append_assoc]
    refine ⟨List.isChain_append.2 ⟨isChain_zipIdx _ 1, later, fun _ _ e he => .inr (starts e he)⟩,
      fun e he => ?_⟩
    rw [List.head?_append, Option.mem_def, Option.or_eq_some_iff] at he
    rcases he with here | ⟨-, behind⟩
    · exact head?_zipIdx_one here
    · exact starts e behind

theorem isChain_ledger (d : Document) : d.ledger.IsChain Follows :=
  (isChain_layers d.items d.tail.entries).1

/-- No layer begins behind an entry up to a later one, so that the two lie in one layer. -/
def OneLayer (between : List (Entry × Nat)) (b : Entry × Nat) : Prop :=
  ∀ e ∈ between ++ [b], e.2 ≠ 1

instance (between : List (Entry × Nat)) (b : Entry × Nat) : Decidable (OneLayer between b) :=
  inferInstanceAs (Decidable (∀ e ∈ between ++ [b], e.2 ≠ 1))

theorem OneLayer.place_lt (h : OneLayer between b)
    (chain : (a :: (between ++ b :: behind)).IsChain Follows) : a.2 < b.2 := by
  induction between generalizing a with
  | nil =>
    obtain ⟨follows, -⟩ := List.isChain_cons_cons.1 chain
    rcases follows with next | begins
    · omega
    · exact absurd begins (h b (by simp))
  | cons e rest ih =>
    obtain ⟨follows, chain⟩ := List.isChain_cons_cons.1 chain
    obtain ⟨inside, later⟩ := List.forall_mem_cons.1 h
    have := ih later chain
    rcases follows with next | begins
    · omega
    · exact absurd begins inside

/-- Two entries of a ledger, the first one in front, each the last one for its name. -/
structure LastEntries (ledger before : List (Entry × Nat)) (a : Entry × Nat)
    (between : List (Entry × Nat)) (b : Entry × Nat) (behind : List (Entry × Nat)) : Prop where
  split : ledger = before ++ a :: (between ++ b :: behind)
  first : a.1.name ∉ registeredNames (between ++ b :: behind)
  second : b.1.name ∉ registeredNames behind

end Sheet

namespace Layer

open Sheet Utility

variable {table first : RuleTable} {breakpoints : Breakpoints} {scans : List (List String)}
  {ledger before between behind : List (Entry × Nat)} {a b e : Entry × Nat} {u v : Utility}

/-- A utility is the class of an entry, used without modifiers. -/
structure IsClassOf (table : RuleTable) (breakpoints : Breakpoints) (e : Entry × Nat)
    (u : Utility) : Prop where
  resolved : resolve? table breakpoints e.1.name = some u
  selector : u.selector = "." ++ Candidate.escape e.1.name
  breakpoint : u.breakpoint = ""
  specificity : u.specificity = e.2

theorem IsClassOf.mem_utilities (h : IsClassOf table breakpoints e u)
    (used : e.1.name ∈ candidates scans) :
    u ∈ (afterScans table breakpoints scans).utilities :=
  mem_afterScans.2 ⟨_, used, h.resolved⟩

/-- The last entry for a name gives its class. -/
private theorem exists_isClassOf (explains : table.toList = (replay first ledger).toList)
    (split : ledger = before ++ e :: behind) (last : e.1.name ∉ registeredNames behind)
    (plain : ':' ∉ e.1.name.toList) (breakpoints : Breakpoints) :
    ∃ u, IsClassOf table breakpoints e u := by
  have name : splitModifiers e.1.name = ([], e.1.name) := by
    rw [splitModifiers, Text.fields_of_not_mem plain]
    rfl
  have found : (replay first ledger).get? e.1.name =
      some { css := e.1.css (replay first before), specificity := e.2 } := by
    rw [split]
    exact get?_replay_last last
  obtain ⟨i, there⟩ := List.getElem?_of_mem (OrderedMap.get?_eq_some_iff.1 found)
  have listed : table.toList[i]? = some ((splitModifiers e.1.name).2,
      { css := e.1.css (replay first before), specificity := e.2 }) := by
    rw [explains, name]
    exact there
  have resolved := resolve?_of_rule_at listed breakpoints
  rw [name] at resolved
  exact ⟨_, resolved, String.append_empty, rfl, rfl⟩

/-- Two authored utilities that are used without modifiers are written by their places, and those of
one place by their first rules. Within one layer this is the order of their last entries. -/
theorem standsBefore_of_declared (files : SheetFiles) (root : Path) (base : String)
    (first : RuleTable) (breakpoints : Breakpoints) (scans : List (List String)) :
    let table := (run files root base first).1.table
    let layer := afterScans table breakpoints scans
    (∃ (n : Nat) (d : Document),
      course files root base first n = .ended d.tokens (run files root base first) ∧
      table.toList = (replay first d.ledger).toList) ∧
    ∀ d : Document, table.toList = (replay first d.ledger).toList →
      ∀ before a between b behind, LastEntries d.ledger before a between b behind →
      ':' ∉ a.1.name.toList → ':' ∉ b.1.name.toList →
      a.1.name ∈ candidates scans → b.1.name ∈ candidates scans →
      ∃ u v, IsClassOf table breakpoints a u ∧ IsClassOf table breakpoints b v ∧
        (OneLayer between b → layer.StandsBefore u v) ∧
        (u.groupKey ≠ v.groupKey →
          (layer.StandsBefore u v ∨ layer.StandsBefore v u) ∧
          (layer.StandsBefore u v ↔ a.2 < b.2 ∨ a.2 = b.2 ∧ layer.Leads u v)) := by
  intro table layer
  constructor
  · obtain ⟨n, met, ends⟩ := exists_course_eq_ended files root base first
    obtain ⟨d, mode, tokens, accounts⟩ := exists_document files root base first n
    rw [ends] at tokens accounts
    obtain rfl : met = d.tokens := tokens
    exact ⟨n, d, ends, congrArg RuleTable.toList accounts.table⟩
  · intro d explains before a between b behind last plain plain' used used'
    obtain ⟨u, hu⟩ := exists_isClassOf explains last.split last.first plain breakpoints
    have later : d.ledger = (before ++ a :: between) ++ b :: behind := by
      rw [last.split, List.append_assoc, List.cons_append]
    obtain ⟨v, hv⟩ := exists_isClassOf explains later last.second plain' breakpoints
    have resolved : ∀ w ∈ layer.utilities, IsResolved table breakpoints w :=
      resolved_afterScans scans
    have one : u ∈ layer.utilities := hu.mem_utilities used
    have two : v ∈ layer.utilities := hv.mem_utilities used'
    have bucket : u.breakpoint = v.breakpoint := hu.breakpoint.trans hv.breakpoint.symm
    refine ⟨u, v, hu, hv, fun together => ?_, fun apart => ⟨?_, ?_⟩⟩
    · have chain := isChain_ledger d
      rw [last.split] at chain
      have := together.place_lt chain.right_of_append
      refine (writesBefore_of_specificity one two ?_).standsBefore one two bucket
      rw [hu.specificity, hv.specificity]
      omega
    · exact (writesBefore_or resolved one two bucket apart).imp
        (fun order => order.standsBefore one two bucket)
        fun order => order.standsBefore two one bucket.symm
    · have order := writesBefore_iff resolved one two bucket apart
      rw [hu.specificity, hv.specificity, Int.ofNat_lt, Int.ofNat_inj] at order
      rw [← order]
      exact ⟨StandsBefore.order, fun order => order.standsBefore one two bucket⟩

private def redEntry : Entry := ⟨".aa", ["color:red;"], "\x7d", by decide, by decide⟩

private def blueEntry : Entry := ⟨".bb", ["color:blue;"], "\x7d", by decide, by decide⟩

private def greenEntry : Entry := ⟨".cc", ["color:green;"], "\x7d", by decide, by decide⟩

private def colorsText : String :=
  "@layer utilities\x7b.aa\x7bcolor:red;\x7d.bb\x7bcolor:blue;\x7d\x7d" ++
    "@layer utilities\x7b.cc\x7bcolor:green;\x7d\x7d"

private def colorsFiles : SheetFiles := .ofList [(.ofText "index.css", colorsText)]

private def twoLayers : Document := ⟨[.layer [redEntry, blueEntry], .layer [greenEntry]], .none⟩

private def colorsTable : RuleTable := (run colorsFiles (.ofText "index.css") "" .empty).1.table

private theorem explains_twoLayers :
    colorsTable.toList = (replay .empty twoLayers.ledger).toList := by
  decide +kernel

theorem standsBefore_of_declared_twoLayers :
    let layer := afterScans colorsTable [] [["aa bb"]]
    (colorsTable.toList = (replay .empty twoLayers.ledger).toList ∧
      LastEntries twoLayers.ledger [] (redEntry, 1) [] (blueEntry, 2) [(greenEntry, 1)] ∧
      OneLayer [] (blueEntry, 2) ∧
      "aa" ∈ candidates [["aa bb"]] ∧ "bb" ∈ candidates [["aa bb"]]) ∧
    ∃ u v, IsClassOf colorsTable [] (redEntry, 1) u ∧ IsClassOf colorsTable [] (blueEntry, 2) v ∧
      layer.StandsBefore u v ∧ u.groupKey ≠ v.groupKey ∧
      (layer.StandsBefore u v ↔ 1 < 2 ∨ 1 = 2 ∧ layer.Leads u v) := by
  intro layer
  have last : LastEntries twoLayers.ledger [] (redEntry, 1) [] (blueEntry, 2) [(greenEntry, 1)] :=
    ⟨rfl, by decide, by decide⟩
  have together : OneLayer [] (blueEntry, 2) := by decide
  have used : "aa" ∈ candidates [["aa bb"]] := by decide
  have used' : "bb" ∈ candidates [["aa bb"]] := by decide
  obtain ⟨u, v, hu, hv, ascending, compared⟩ :=
    (standsBefore_of_declared colorsFiles (.ofText "index.css") "" .empty [] [["aa bb"]]).2
      twoLayers explains_twoLayers _ _ _ _ _ last (by decide) (by decide) used used'
  have apart : u.groupKey ≠ v.groupKey := by
    intro same
    have places : u.specificity = v.specificity := congrArg (·.2.1) same
    rw [hu.specificity, hv.specificity] at places
    cases places
  exact ⟨⟨explains_twoLayers, last, together, used, used'⟩, u, v, hu, hv, ascending together, apart,
    (compared apart).2⟩

/-- The second entry of a layer is written behind the first one of a later layer. -/
theorem not_writesBefore_twoLayers :
    Css.tokens colorsText = twoLayers.tokens ∧
    (run colorsFiles (.ofText "index.css") "" .empty).2.toOption.isSome ∧
    colorsTable.toList = (replay .empty twoLayers.ledger).toList ∧
    LastEntries twoLayers.ledger [(redEntry, 1)] (blueEntry, 2) [] (greenEntry, 1) [] ∧
    "bb" ∈ candidates [["bb cc"]] ∧ "cc" ∈ candidates [["bb cc"]] ∧
    ∃ u v, IsClassOf colorsTable [] (blueEntry, 2) u ∧ IsClassOf colorsTable [] (greenEntry, 1) v ∧
      u.groupKey ≠ v.groupKey ∧
      (afterScans colorsTable [] [["bb cc"]]).StandsBefore v u ∧
      ¬ (afterScans colorsTable [] [["bb cc"]]).WritesBefore u v := by
  have last : LastEntries twoLayers.ledger [(redEntry, 1)] (blueEntry, 2) [] (greenEntry, 1) [] :=
    ⟨rfl, by decide, by decide⟩
  have used : "bb" ∈ candidates [["bb cc"]] := by decide
  have used' : "cc" ∈ candidates [["bb cc"]] := by decide
  let u : Utility := ⟨".bb", "", 2, "color:blue;", none, 1⟩
  let v : Utility := ⟨".cc", "", 1, "color:green;", none, 2⟩
  have hu : IsClassOf colorsTable [] (blueEntry, 2) u := ⟨by decide +kernel, by decide, rfl, rfl⟩
  have hv : IsClassOf colorsTable [] (greenEntry, 1) v := ⟨by decide +kernel, by decide, rfl, rfl⟩
  have order : (afterScans colorsTable [] [["bb cc"]]).WritesBefore v u :=
    writesBefore_of_specificity (hv.mem_utilities used') (hu.mem_utilities used) (by decide)
  exact ⟨by decide +kernel, by decide +kernel, explains_twoLayers, last, used, used', u, v, hu, hv,
    by decide, order.standsBefore (hv.mem_utilities used') (hu.mem_utilities used) rfl, order.asymm⟩

end Layer

end UtilityCss
