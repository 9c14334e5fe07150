import UtilityCss.Proofs.Sheet.Position
import UtilityCss.Proofs.Sheet.SecondPass

/-! The entries of layers of utilities, and what registering them one behind another makes of a
table. -/
namespace UtilityCss.Sheet

/-- An entry of a layer of utilities: the selector of a class, the tokens of its block, and the one
that closes the block. -/
structure Entry where
  selector : String
  body : List String
  closing : String
  dot : selector.toList.head? = some '.'
  single : (entryName selector).toList.head? ≠ some '.'

namespace Entry

/-- The name that the entry registers. -/
def name (e : Entry) : String := entryName e.selector

def tokens (e : Entry) : List String := e.selector :: "\x7b" :: e.body ++ [e.closing]

/-- The declarations of the entry, with the rules of a table filled in. -/
def css (e : Entry) (table : RuleTable) : String := String.join (e.body.map (expandApply table))

/-- The block of the entry is closed at its last token and not before, once the rules of a table are
filled in. -/
def Closes (e : Entry) (table : RuleTable) : Prop :=
  nest? 0 (e.body.map (expandApply table)) = some 0 ∧ expandApply table e.closing = "\x7d"

/-- The block of the entry is closed at its last token and not before. -/
def Balanced (e : Entry) : Prop := nest? 0 e.body = some 0 ∧ e.closing = "\x7d"

end Entry

/-- Registers an entry at its place in its layer. -/
def record (table : RuleTable) (e : Entry × Nat) : RuleTable :=
  table.put e.1.name { css := e.1.css table, specificity := e.2 }

/-- Registers entries one behind another. -/
def replay (table : RuleTable) (ledger : List (Entry × Nat)) : RuleTable :=
  ledger.foldl record table

/-- The names that are registered. -/
def registeredNames (ledger : List (Entry × Nat)) : List String := ledger.map (·.1.name)

/-- Each entry closes in the table that those in front of it leave. -/
def Closed (table : RuleTable) (ledger : List (Entry × Nat)) : Prop :=
  ∀ before e behind, ledger = before ++ e :: behind → e.1.Closes (replay table before)

variable {table : RuleTable} {ledger before behind : List (Entry × Nat)}

theorem replay_concat (table : RuleTable) (ledger : List (Entry × Nat)) (e : Entry × Nat) :
    replay table (ledger ++ [e]) = record (replay table ledger) e := by
  rw [replay, List.foldl_append]
  rfl

theorem Closed.nil (table : RuleTable) : Closed table [] := by
  intro before e behind split
  cases before <;> cases split

theorem Closed.concat (h : Closed table ledger) {e : Entry × Nat}
    (closes : e.1.Closes (replay table ledger)) : Closed table (ledger ++ [e]) := by
  intro before e' behind split
  rcases List.eq_nil_or_concat behind with rfl | ⟨behind', last, rfl⟩
  · obtain ⟨rfl, rfl⟩ := List.append_singleton_inj.1 split
    exact closes
  · rw [List.concat_eq_append, ← List.cons_append, ← List.append_assoc] at split
    exact h before e' behind' (List.append_singleton_inj.1 split).1

theorem get?_record (table : RuleTable) (e : Entry × Nat) (name : String) :
    (record table e).get? name =
      if name = e.1.name then some { css := e.1.css table, specificity := e.2 }
      else table.get? name :=
  RuleTable.get?_put _ _ _ _

/-- A name that no entry registers keeps its rule. -/
theorem get?_replay_of_not_mem {name : String} (h : name ∉ registeredNames ledger) :
    (replay table ledger).get? name = table.get? name := by
  induction ledger using List.reverseRecOn with
  | nil => rfl
  | append_singleton before e ih =>
    rw [registeredNames, List.map_append, List.mem_append, not_or] at h
    rw [replay_concat, get?_record, if_neg (by simpa using h.2), ih h.1]

/-- The last entry for a name decides. -/
theorem get?_replay_last {e : Entry} {place : Nat} (last : e.name ∉ registeredNames behind) :
    (replay table (before ++ (e, place) :: behind)).get? e.name =
      some { css := e.css (replay table before), specificity := place } := by
  have split : replay table (before ++ (e, place) :: behind) =
      replay (record (replay table before) (e, place)) behind := by
    rw [replay, List.foldl_append]
    rfl
  rw [split, get?_replay_of_not_mem last, get?_record, if_pos rfl]

theorem names_replay (table : RuleTable) (ledger : List (Entry × Nat)) :
    (replay table ledger).names =
      table.names ++
        ((registeredNames ledger).filter fun name => name ∉ table.names).eraseDups := by
  rw [← RuleTable.addNames_eq]
  induction ledger using List.reverseRecOn with
  | nil => rfl
  | append_singleton before e ih =>
    rw [replay_concat, record, RuleTable.names_put, ih, registeredNames, registeredNames,
      List.map_append, List.map_singleton, RuleTable.addNames_concat]

theorem position?_replay {name : String} {i : Nat} (h : table.position? name = some i)
    (ledger : List (Entry × Nat)) : (replay table ledger).position? name = some i := by
  rw [RuleTable.position?_eq_some_iff] at h ⊢
  have inside : i < table.names.length := (List.getElem?_eq_some_iff.1 h).1
  rw [names_replay, List.getElem?_append_left inside, h]

/-! Braces are found where the text has them, unless a rule is a single brace. -/

theorem nest?_concat (depth : Nat) (texts : List String) (text : String) :
    nest? depth (texts ++ [text]) = (nest? depth texts).bind (nestNext? · text) := by
  simp [nest?, List.foldlM_append]

theorem blockText_of_nest? {depth : Nat} {texts : List String} (h : nest? 0 texts = some depth) :
    BlockText depth (String.join texts) := by
  induction texts using List.reverseRecOn generalizing depth with
  | nil =>
    obtain rfl : 0 = depth := by simpa [nest?] using h
    exact ⟨fun _ => rfl, by decide, by decide⟩
  | append_singleton before text ih =>
    rw [nest?_concat, Option.bind_eq_some_iff] at h
    obtain ⟨outer, nested, next⟩ := h
    rw [String.join_append, String.join_cons, String.join_nil, String.append_empty]
    rw [nestNext?] at next
    split at next
    · next closing =>
      rw [closing]
      split at next
      · cases next
      · next positive =>
        cases next
        obtain ⟨depth, rfl⟩ := Nat.exists_eq_succ_of_ne_zero positive
        exact (ih nested).append_closing
    · next notClosing =>
      split at next
      · next opening =>
        cases next
        rw [opening]
        exact (ih nested).append_opening
      · next notOpening =>
        cases next
        exact (ih nested).append ⟨notOpening, notClosing⟩

theorem declarationsOf_record (table : RuleTable) (e : Entry × Nat) (name : String) :
    declarationsOf (record table e) name =
      if name = e.1.name then e.1.css table else declarationsOf table name := by
  by_cases same : name = e.1.name
  · simp [declarationsOf, get?_record, same]
  · simp [declarationsOf, get?_record, same]

/-- Entries that close leave no rule that is a single brace. -/
theorem Closed.notBrace (h : Closed table ledger)
    (whole : ∀ name, NotBrace (declarationsOf table name)) (name : String) :
    NotBrace (declarationsOf (replay table ledger) name) := by
  induction ledger using List.reverseRecOn generalizing name with
  | nil => exact whole name
  | append_singleton before e ih =>
    have former : Closed table before := fun front e' behind split =>
      h front e' (behind ++ [e]) (by simp [split])
    rw [replay_concat, declarationsOf_record]
    split
    · exact (blockText_of_nest? (h before e [] rfl).1).notBrace
    · exact ih former name

theorem notBrace_join {texts : List String} (h : ∀ text ∈ texts, NotBrace text) :
    NotBrace (String.join texts) := by
  induction texts with
  | nil => exact ⟨by decide, by decide⟩
  | cons text rest ih =>
    obtain ⟨here, later⟩ := List.forall_mem_cons.1 h
    rw [String.join_cons]
    exact here.append (ih later)

/-- No brace is filled in when no rule is one. -/
theorem notBrace_expandApply (whole : ∀ name, NotBrace (declarationsOf table name)) {t : String}
    (h : NotBrace t) : NotBrace (expandApply table t) := by
  cases found : behindApply? t with
  | none => rwa [expandApply, found]
  | some names =>
    rw [expandApply, found]
    refine notBrace_join fun text member => ?_
    obtain ⟨name, _, rfl⟩ := List.mem_map.1 member
    exact whole name

/-- Blocks open and close where they are written, as far as no brace is filled in. -/
theorem nestNext?_expandApply {t : String} (fills : NotBrace t → NotBrace (expandApply table t))
    (depth : Nat) : nestNext? depth (expandApply table t) = nestNext? depth t := by
  by_cases opening : t = "\x7b"
  · rw [expandApply_of_head (by rw [opening]; decide)]
  by_cases closing : t = "\x7d"
  · rw [expandApply_of_head (by rw [closing]; decide)]
  obtain ⟨notOpening, notClosing⟩ := fills ⟨opening, closing⟩
  rw [nestNext?, nestNext?, if_neg notClosing, if_neg notOpening, if_neg closing, if_neg opening]

theorem nest?_expandApply {ts : List String}
    (fills : ∀ t ∈ ts, NotBrace t → NotBrace (expandApply table t)) (depth : Nat) :
    nest? depth (ts.map (expandApply table)) = nest? depth ts := by
  induction ts generalizing depth with
  | nil => rfl
  | cons t rest ih =>
    obtain ⟨here, later⟩ := List.forall_mem_cons.1 fills
    rw [List.map_cons, nest?_cons, nest?_cons, nestNext?_expandApply here]
    exact Option.bind_congr fun depth' _ => ih later depth'

/-- An entry that closes is balanced as it was written. -/
theorem Entry.Closes.balanced {e : Entry} (h : e.Closes table)
    (whole : ∀ name, NotBrace (declarationsOf table name)) : e.Balanced := by
  obtain ⟨nested, closing⟩ := h
  refine ⟨?_, ?_⟩
  · rw [← nested, nest?_expandApply fun t _ => notBrace_expandApply whole]
  · by_contra other
    by_cases opening : e.closing = "\x7b"
    · rw [expandApply_of_head (by rw [opening]; decide), opening] at closing
      revert closing
      decide
    · exact (notBrace_expandApply whole ⟨opening, other⟩).2 closing

/-- An entry that is balanced as it was written closes. -/
theorem Entry.Balanced.closes {e : Entry} (h : e.Balanced)
    (whole : ∀ name, NotBrace (declarationsOf table name)) : e.Closes table := by
  refine ⟨?_, ?_⟩
  · rw [nest?_expandApply fun t _ => notBrace_expandApply whole, h.1]
  · rw [h.2]
    exact expandApply_of_head (by decide) table

end UtilityCss.Sheet
