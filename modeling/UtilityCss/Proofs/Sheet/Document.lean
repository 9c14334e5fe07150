import UtilityCss.Proofs.Sheet.Course
import UtilityCss.Proofs.Sheet.Ledger

/-! The tokens that a pass has processed, read as one document of statements and layers of
utilities. The entries that are complete in it are all that the pass has done to its table. -/
namespace UtilityCss.Sheet

/-- A part of a document that is complete. -/
inductive Item
  | statement (t : String) (plain : t ≠ "@layer utilities")
  | layer (entries : List Entry)

/-- The layer of utilities that is being read, as far as it goes. -/
inductive Tail
  | none
  | word
  | layer (entries : List Entry)
  | opening (entries : List Entry) (selector : String) (dot : selector.toList.head? = some '.')
  | block (entries : List Entry) (selector : String) (dot : selector.toList.head? = some '.')
    (body : List String)

/-- The complete items of a document and the layer behind them. -/
structure Document where
  items : List Item
  tail : Tail

def Item.entries : Item → List Entry
  | .statement .. => []
  | .layer entries => entries

/-- The complete entries of the layer that is being read. -/
def Tail.entries : Tail → List Entry
  | .none | .word => []
  | .layer entries | .opening entries .. | .block entries .. => entries

/-- The beginning of a layer. -/
def layerTokens (entries : List Entry) : List String :=
  "@layer utilities" :: "\x7b" :: entries.flatMap Entry.tokens

def Item.tokens : Item → List String
  | .statement t _ => [t]
  | .layer entries => layerTokens entries ++ ["\x7d"]

def Tail.tokens : Tail → List String
  | .none => []
  | .word => ["@layer utilities"]
  | .layer entries => layerTokens entries
  | .opening entries selector _ => layerTokens entries ++ [selector]
  | .block entries selector _ body => layerTokens entries ++ selector :: "\x7b" :: body

namespace Document

variable {d : Document} {first now : RuleTable}

def tokens (d : Document) : List String := d.items.flatMap Item.tokens ++ d.tail.tokens

/-- The complete entries in document order, each with its place in its layer, counted from one. -/
def ledger (d : Document) : List (Entry × Nat) :=
  (d.items.flatMap fun item => item.entries.zipIdx 1) ++ d.tail.entries.zipIdx 1

end Document

/-- The mode in which a layer that is being read leaves a file, when the rules of a table are filled
in. -/
inductive Tail.Leaves (table : RuleTable) : Tail → Mode → Prop
  | none : Leaves table .none .statements
  | word : Leaves table .word .layerOpening
  | layer {entries : List Entry} : Leaves table (.layer entries) (.entries entries.length)
  | opening {entries : List Entry} {selector : String} {dot : selector.toList.head? = some '.'} :
    Leaves table (.opening entries selector dot) (.bodyOpening (entries.length + 1) selector)
  | block {entries : List Entry} {selector : String} {dot : selector.toList.head? = some '.'}
    {body : List String} {depth : Nat}
    (nested : nest? 0 (body.map (expandApply table)) = some depth) :
    Leaves table (.block entries selector dot body)
      (.body (entries.length + 1) selector depth (String.join (body.map (expandApply table))))

/-- The document accounts for what has become of the table `first` and for the present mode. -/
structure Document.Accounts (d : Document) (first now : RuleTable) (mode : Mode) : Prop where
  table : now = replay first d.ledger
  closed : Closed first d.ledger
  tail : d.tail.Leaves now mode

namespace Document.Accounts

variable {d : Document} {first now : RuleTable} {mode mode' : Mode} {t : String}

/-- One more token in a layer that completes no entry. -/
private theorem exists_tail (h : d.Accounts first now mode) (tail : Tail)
    (entries : tail.entries = d.tail.entries) (tokens : tail.tokens = d.tail.tokens ++ [t])
    (leaves : tail.Leaves now mode') :
    ∃ d' : Document, d'.tokens = d.tokens ++ [t] ∧ d'.Accounts first now mode' := by
  have ledger : ledger ⟨d.items, tail⟩ = d.ledger := by rw [ledger, ledger, entries]
  refine ⟨⟨d.items, tail⟩, ?_, ledger ▸ h.table, ledger ▸ h.closed, leaves⟩
  rw [Document.tokens, tokens, Document.tokens, List.append_assoc]

/-- One more token that completes an item. -/
private theorem exists_item (h : d.Accounts first now mode) (item : Item)
    (entries : item.entries = d.tail.entries) (tokens : item.tokens = d.tail.tokens ++ [t]) :
    ∃ d' : Document, d'.tokens = d.tokens ++ [t] ∧ d'.Accounts first now .statements := by
  have ledger : ledger ⟨d.items ++ [item], .none⟩ = d.ledger := by
    simp [Document.ledger, Tail.entries, entries]
  refine ⟨⟨d.items ++ [item], .none⟩, ?_, ledger ▸ h.table, ledger ▸ h.closed, .none⟩
  simp [Document.tokens, Tail.tokens, tokens]

/-- One more token inside the block of an entry. -/
private theorem exists_block {entries : List Entry} {selector : String}
    {dot : selector.toList.head? = some '.'} {body : List String} {items : List Item}
    {count depth depth' : Nat} {css : String}
    (h : Accounts ⟨items, .block entries selector dot body⟩ first now
      (.body count selector depth css))
    (next : nestNext? depth (expandApply now t) = some depth') :
    ∃ d' : Document, d'.tokens = tokens ⟨items, .block entries selector dot body⟩ ++ [t] ∧
      d'.Accounts first now (.body count selector depth' (css ++ expandApply now t)) := by
  have stands := h.tail
  cases stands with
  | block nested =>
    refine h.exists_tail (.block entries selector dot (body ++ [t])) rfl ?_ ?_
    · simp [Tail.tokens]
    · have texts : (body ++ [t]).map (expandApply now) =
          body.map (expandApply now) ++ [expandApply now t] := List.map_append
      have css : String.join ((body ++ [t]).map (expandApply now)) =
          String.join (body.map (expandApply now)) ++ expandApply now t := by
        simp [texts, String.join_append]
      refine css ▸ .block ?_
      rw [texts, nest?_concat, nested]
      exact next

/-- One more token that completes an entry. -/
private theorem exists_entry (h : d.Accounts first now mode) (tail : Tail) (e : Entry)
    (entries : tail.entries = d.tail.entries ++ [e]) (tokens : tail.tokens = d.tail.tokens ++ [t])
    (closes : e.Closes now)
    (leaves : tail.Leaves (record now (e, d.tail.entries.length + 1)) mode') :
    ∃ d' : Document, d'.tokens = d.tokens ++ [t] ∧
      d'.Accounts first (record now (e, d.tail.entries.length + 1)) mode' := by
  have ledger : ledger ⟨d.items, tail⟩ = d.ledger ++ [(e, d.tail.entries.length + 1)] := by
    simp [Document.ledger, entries, List.zipIdx_append, Nat.add_comm]
  refine ⟨⟨d.items, tail⟩, ?_, ?_, ?_, leaves⟩
  · rw [Document.tokens, tokens, Document.tokens, List.append_assoc]
  · rw [ledger, replay_concat, h.table]
  · rw [ledger]
    exact h.closed.concat (h.table ▸ closes)

theorem start (first : RuleTable) : Accounts ⟨[], .none⟩ first first .statements :=
  ⟨rfl, .nil first, .none⟩

theorem exists_statement (h : d.Accounts first now .statements) (plain : t ≠ "@layer utilities") :
    ∃ d' : Document, d'.tokens = d.tokens ++ [t] ∧ d'.Accounts first now .statements := by
  obtain ⟨items, tail⟩ := d
  cases h.tail
  exact h.exists_item (.statement t plain) rfl rfl

/-- A step over one token is a step of the document. -/
theorem exists_stepped {file : Path} {text : String} {pass after : Pass}
    (stepped : Stepped file t mode pass after (.ok (mode', text)))
    (h : d.Accounts first pass.table mode) :
    ∃ d' : Document, d'.tokens = d.tokens ++ [t] ∧ d'.Accounts first after.table mode' := by
  obtain ⟨items, tail⟩ := d
  have stands := h.tail
  cases stepped with
  | base token =>
    rw [baseLayer_table]
    exact h.exists_statement (by rw [token]; decide)
  | layer token =>
    cases stands
    exact h.exists_tail .word rfl (by rw [token]; rfl) .word
  | statement notBase notLayer => exact h.exists_statement notLayer
  | layerOpens token =>
    cases stands
    exact h.exists_tail (.layer []) rfl (by rw [token]; rfl) .layer
  | layerCloses token =>
    cases stands with
    | @layer entries => exact h.exists_item (.layer entries) rfl (by rw [token]; rfl)
  | entry stays dot =>
    cases stands with
    | @layer entries => exact h.exists_tail (.opening entries t dot) rfl rfl .opening
  | @bodyOpens _ _ selector token =>
    cases stands with
    | @opening entries _ dot =>
      exact h.exists_tail (.block entries selector dot []) rfl
        (by simp [Tail.tokens, token]) (.block rfl)
  | @registers _ _ selector _ token dotless =>
    cases stands with
    | @block entries _ dot body _ nested =>
      let e : Entry := ⟨selector, body, t, dot, dotless⟩
      refine h.exists_entry (.layer (entries ++ [e])) e rfl ?_ ⟨nested, token⟩ ?_
      · simp [Tail.tokens, layerTokens, Entry.tokens, e]
      · have count : (entries ++ [e]).length = entries.length + 1 := List.length_append
        exact count ▸ .layer
  | @blockCloses _ _ depth _ _ token =>
    cases stands with
    | block nested =>
      have next : nestNext? (depth + 1) (expandApply pass.table t) = some depth := by
        simp [nestNext?, token]
      have moved := h.exists_block next
      rw [token] at moved
      exact moved
  | @blockOpens _ _ depth _ _ token =>
    cases stands with
    | block nested =>
      have next : nestNext? depth (expandApply pass.table t) = some (depth + 1) := by
        simp [nestNext?, token]
      have moved := h.exists_block next
      rw [token] at moved
      exact moved
  | text notOpening notClosing =>
    cases stands with
    | block nested =>
      exact h.exists_block (by rw [nestNext?, if_neg notClosing, if_neg notOpening])

end Document.Accounts

/-- The tokens that were processed up to a stage. -/
def Stage.met : Stage → List String
  | .going m => m.met
  | .ended met _ => met

/-- The pass at a stage. -/
def Stage.pass : Stage → Pass
  | .going m => m.pass
  | .ended _ outcome => outcome.1

/-- A document accounts for a moment. Only the file that is read can stand inside a layer. -/
structure Moment.Accounted (first : RuleTable) (m : Moment) : Prop where
  document : ∃ d : Document, m.met = d.tokens ∧ d.Accounts first m.pass.table m.top.mode
  waiting : ∀ f ∈ m.waiting, f.mode = .statements

variable {files : SheetFiles} {root : Path} {base : String} {first : RuleTable} {m : Moment}

private theorem plain_of_inlined? {mode : Mode} {t relative : String}
    (path : inlined? mode t = some relative) : mode = .statements ∧ t ≠ "@layer utilities" := by
  obtain ⟨statements, found⟩ := inlined?_eq_some_iff.1 path
  refine ⟨statements, ?_⟩
  rintro rfl
  have none : importPath? "@layer utilities" = none := by decide
  cases none.symm.trans found

/-- An import is a statement of the document. -/
private theorem Moment.Accounted.exists_import (h : m.Accounted first) {t relative : String}
    (path : inlined? m.top.mode t = some relative) :
    ∃ d : Document, m.met ++ [t] = d.tokens ∧ d.Accounts first m.pass.table .statements := by
  obtain ⟨⟨d, met, accounts⟩, _⟩ := h
  obtain ⟨mode, plain⟩ := plain_of_inlined? path
  rw [mode] at accounts
  obtain ⟨d', tokens, accounts'⟩ := accounts.exists_statement plain
  exact ⟨d', by rw [met, tokens], accounts'⟩

theorem Moment.Accounted.moves {m' : Moment} (h : m.Accounted first) (moves : Moves files m m') :
    m'.Accounted first := by
  cases moves with
  | token plain stepped =>
    obtain ⟨⟨d, met, accounts⟩, waiting⟩ := h
    obtain ⟨d', tokens, accounts'⟩ := accounts.exists_stepped (stepped_of_step stepped)
    exact ⟨⟨d', by rw [tokens, ← met], accounts'⟩, waiting⟩
  | enters path fresh found =>
    exact ⟨h.exists_import path, List.forall_mem_cons.2 ⟨rfl, h.waiting⟩⟩
  | @leaves _ _ _ mode caller _ _ closed =>
    obtain ⟨⟨d, met, accounts⟩, waiting⟩ := h
    obtain ⟨back, waiting⟩ := List.forall_mem_cons.1 waiting
    have mode : mode = .statements := by
      cases mode <;> first | rfl | cases closed
    refine ⟨⟨d, met, ?_⟩, waiting⟩
    rw [mode] at accounts
    exact back ▸ accounts

theorem accounted_of_course {n : Nat} (h : course files root base first n = .going m) :
    m.Accounted first :=
  course_invariant (I := Moment.Accounted first)
    (fun _ => ⟨⟨_, rfl, .start first⟩, List.forall_mem_nil _⟩)
    Moment.Accounted.moves h

/-- The last move of a pass leaves the table as it is; at most an import is noted. -/
private theorem next_eq_ended {met : List String} {outcome : Outcome String}
    (h : m.next files = .ended met outcome) :
    outcome.1.table = m.pass.table ∧
      (met = m.met ∨ ∃ t relative, inlined? m.top.mode t = some relative ∧ met = m.met ++ [t]) := by
  cases ends_of_next h with
  | finished | unclosed | circular => exact ⟨rfl, .inl rfl⟩
  | @unreadable _ t relative _ _ _ _ _ _ _ path => exact ⟨rfl, .inr ⟨t, relative, path, rfl⟩⟩
  | failed plain stepped =>
    refine ⟨?_, .inl rfl⟩
    cases stepped_of_step stepped <;> rfl

/-- At every stage of a pass, its last one included, a document accounts for the table. -/
theorem exists_document (files : SheetFiles) (root : Path) (base : String) (first : RuleTable)
    (n : Nat) : ∃ (d : Document) (mode : Mode),
      (course files root base first n).met = d.tokens ∧
      d.Accounts first (course files root base first n).pass.table mode := by
  cases stage : course files root base first n with
  | going m =>
    obtain ⟨d, met, accounts⟩ := (accounted_of_course stage).document
    exact ⟨d, m.top.mode, met, accounts⟩
  | ended met outcome =>
    rcases course_eq_ended stage with ⟨problem, _, rfl, rfl⟩ | ⟨k, m, reached, last⟩
    · exact ⟨_, _, rfl, .start first⟩
    · have accounted := accounted_of_course reached
      obtain ⟨table, rfl | ⟨t, relative, path, rfl⟩⟩ := next_eq_ended last
      · obtain ⟨d, met, accounts⟩ := accounted.document
        exact ⟨d, m.top.mode, met, by rw [Stage.pass, table]; exact accounts⟩
      · obtain ⟨d, met, accounts⟩ := accounted.exists_import path
        exact ⟨d, .statements, met, by rw [Stage.pass, table]; exact accounts⟩

/-- At every stage of a pass, and so at its end, be it a success or a failure: the tokens that were
processed are a document, and the table is what the complete entries in it make of the first one.
No name is lost or moved, new names stand behind the others in the order of their first entries, a
name without entry keeps its rule, and every other name has the rule of its last entry. Its
declarations are those of the block, with the rules filled in of the table that the entries in front
have left. No entry ends elsewhere than its own block does, unless a rule is a single brace. -/
theorem table_of_course (files : SheetFiles) (root : Path) (base : String) (first : RuleTable) :
    (∃ n met, course files root base first n = .ended met (run files root base first)) ∧
    ∀ n, ∃ d : Document,
      (course files root base first n).met = d.tokens ∧
      let after := (course files root base first n).pass.table
      after = replay first d.ledger ∧ (∃ mode, d.tail.Leaves after mode) ∧
      (∀ before e place behind, d.ledger = before ++ (e, place) :: behind →
        e.Closes (replay first before)) ∧
      after.names = first.names ++
        ((registeredNames d.ledger).filter fun name => name ∉ first.names).eraseDups ∧
      (∀ name i, first.position? name = some i → after.position? name = some i) ∧
      (∀ name, name ∉ registeredNames d.ledger → after.get? name = first.get? name) ∧
      (∀ before e place behind, d.ledger = before ++ (e, place) :: behind →
        e.name ∉ registeredNames behind →
        after.get? e.name = some
          { css := String.join (e.body.map (expandApply (replay first before)))
            specificity := place
            suffix := none
            sibling := none }) ∧
      ((∀ name, NotBrace (declarationsOf first name)) → ∀ e ∈ d.ledger, e.1.Balanced) := by
  refine ⟨exists_course_eq_ended files root base first, fun n => ?_⟩
  obtain ⟨d, mode, met, table, closed, tail⟩ := exists_document files root base first n
  refine ⟨d, met, table, ⟨mode, tail⟩, fun before e place behind split =>
    closed before (e, place) behind split, ?_, ?_, ?_, ?_, ?_⟩
  · rw [table, names_replay]
  · intro name i found
    rw [table]
    exact position?_replay found d.ledger
  · intro name unnamed
    rw [table]
    exact get?_replay_of_not_mem unnamed
  · intro before e place behind split last
    rw [table, split]
    exact get?_replay_last last
  · rintro whole e member
    obtain ⟨before, behind, split⟩ := List.append_of_mem member
    have former : Closed first before := by
      intro front e' rest split'
      exact closed front e' (rest ++ e :: behind) (by simp [split, split'])
    exact (closed before e behind split).balanced (former.notBrace whole)

/-- A rule that is a single brace. -/
private def braced : RuleTable := .ofList [("b", { css := "\x7d" })]

private def applying : SheetFiles := .ofList
  [(.ofText "index.css", "@layer utilities\x7b.a\x7b@apply b;\x7d\x7d")]

/-- The block of the entry is `@apply b;`, for which a closing brace is filled in. It is taken for
the end of the block, and nothing is left of the declarations. -/
theorem table_braced :
    Css.tokens "@layer utilities\x7b.a\x7b@apply b;\x7d\x7d" =
        ["@layer utilities", "\x7b", ".a", "\x7b", "@apply b;", "\x7d", "\x7d"] ∧
      expandApply braced "@apply b;" = "\x7d" ∧
      (run applying (.ofText "index.css") "" braced).1.table.get? "a" =
        some { css := "", specificity := 1 } := by
  refine ⟨?_, ?_, ?_⟩
  · decide +kernel
  · decide +kernel
  · decide +kernel

end UtilityCss.Sheet
