import UtilityCss.Proofs.Sheet.Ledger

/-! Layers of utilities and their grammar: a block of entries, each a selector with a block of its
own. Reading a layer finds just the layer that stands there, or the first place where none can. -/
namespace UtilityCss.Sheet

/-- Whether a mode is one inside a layer of utilities. -/
def Mode.inLayer : Mode → Bool
  | .statements => false
  | _ => true

/-- Reads the layer of utilities behind its word, up to where the statements go on. The tokens
behind the layer are left. -/
def readLayer (file : Path) : List String → Mode → Pass → Outcome (List String)
  | rest, .statements, pass => (pass, .ok rest)
  | [], mode, pass =>
    match mode.endFault? with
    | none => (pass, .ok [])
    | some cause => (pass, .error (.faulty ⟨cause, some file.text⟩))
  | t :: rest, mode, pass =>
    match step file t mode pass with
    | (pass, .ok (mode, _)) => readLayer file rest mode pass
    | (pass, .error failure) => (pass, .error failure)

variable {file : Path} {t : String} {rest : List String} {mode mode' : Mode} {pass after : Pass}

theorem readLayer_statements (rest : List String) (pass : Pass) :
    readLayer file rest .statements pass = (pass, .ok rest) := by
  cases rest <;> rfl

theorem readLayer_ended {cause : Cause} (inside : mode.endFault? = some cause) (pass : Pass) :
    readLayer file [] mode pass = (pass, .error (.faulty ⟨cause, some file.text⟩)) := by
  cases mode with
  | statements => cases inside
  | _ => cases inside; rfl

private theorem readLayer_cons (inside : mode.inLayer = true) (rest : List String) (pass : Pass) :
    readLayer file (t :: rest) mode pass =
      match step file t mode pass with
      | (pass, .ok (mode, _)) => readLayer file rest mode pass
      | (pass, .error failure) => (pass, .error failure) := by
  cases mode with
  | statements => cases inside
  | _ => rfl

theorem readLayer_stepped {text : String}
    (h : Stepped file t mode pass after (.ok (mode', text))) (inside : mode.inLayer = true)
    (rest : List String) :
    readLayer file (t :: rest) mode pass = readLayer file rest mode' after := by
  rw [readLayer_cons inside, h.step_eq]

theorem readLayer_failed {failure : Failure}
    (h : Stepped file t mode pass after (.error failure)) (inside : mode.inLayer = true)
    (rest : List String) :
    readLayer file (t :: rest) mode pass = (after, .error failure) := by
  rw [readLayer_cons inside, h.step_eq]

/-- A file goes on behind the layer that is read, and nothing is written for it. -/
theorem runTokens_readLayer (inside : mode.inLayer = true)
    (importSheet : String → Path → Pass → Outcome String) (ts : List String) (out : String)
    (pass : Pass) :
    runTokens file importSheet ts mode out pass =
      match readLayer file ts mode pass with
      | (pass, .ok rest) => runTokens file importSheet rest .statements out pass
      | (pass, .error failure) => (pass, .error failure) := by
  induction ts generalizing mode pass with
  | nil =>
    cases mode with
    | statements => cases inside
    | _ => rfl
  | cons t rest ih =>
    have plain : inlined? mode t = none := by
      cases mode with
      | statements => cases inside
      | _ => rfl
    rw [runTokens_step plain, readLayer_cons inside]
    cases moved : step file t mode pass with
    | mk after result =>
      cases result with
      | error failure => rfl
      | ok reached =>
        obtain ⟨mode', text⟩ := reached
        have silent : text = "" := by
          cases stepped_of_step moved <;> first | rfl | cases inside
        subst silent
        simp only [String.append_empty]
        cases mode' with
        | statements => rw [readLayer_statements]
        | _ => exact ih rfl after

/-! The grammar. -/

/-- The tokens of a layer behind its word. -/
def layerBlock (entries : List Entry) : List String :=
  "\x7b" :: entries.flatMap Entry.tokens ++ ["\x7d"]

/-- The pass with some entries registered, the first of them at a place of its layer. -/
def Pass.recorded (pass : Pass) (place : Nat) (entries : List Entry) : Pass :=
  { pass with table := replay pass.table (entries.zipIdx place) }

/-- Why no entry stands where one is expected, nor the end of the layer. -/
inductive EntryFault (file : Path) : List String → Failure → Prop
  | ended : EntryFault file [] (.faulty ⟨.openLayer, some file.text⟩)
  | notAClass {t : String} {rest : List String} (stays : t ≠ "\x7d")
    (dotless : t.toList.head? ≠ some '.') :
    EntryFault file (t :: rest) (.faulty ⟨.notAClass t, some file.text⟩)
  | unopened {selector : String} {rest : List String} (dot : selector.toList.head? = some '.')
    (missing : rest.head? ≠ some "\x7b") :
    EntryFault file (selector :: rest)
      (.faulty ⟨.braceExpected (rest.head?.getD ""), some file.text⟩)
  | unclosed {selector : String} {body : List String} (dot : selector.toList.head? = some '.')
    (goesOn : (nest? 0 body).isSome = true) :
    EntryFault file (selector :: "\x7b" :: body) (.faulty ⟨.openBlock, some file.text⟩)
  | dotted {selector : String} {body rest : List String}
    (double : (entryName selector).toList.head? = some '.')
    (dot : selector.toList.head? = some '.') (nested : nest? 0 body = some 0) :
    EntryFault file (selector :: "\x7b" :: body ++ "\x7d" :: rest) (.dotted ⟨entryName selector⟩)

/-- The first place where a layer cannot go on, behind the entries that are complete. -/
inductive LayerFault (file : Path) : List String → List Entry → Failure → Prop
  | unopened {ts : List String} (missing : ts.head? ≠ some "\x7b") :
    LayerFault file ts [] (.faulty ⟨.braceExpected (ts.head?.getD ""), some file.text⟩)
  | entry {entries : List Entry} {rest : List String} {failure : Failure}
    (fault : EntryFault file rest failure) :
    LayerFault file ("\x7b" :: entries.flatMap Entry.tokens ++ rest) entries failure

/-- Some tokens leave a block open, or the block is closed behind a balanced part of them. -/
theorem isSome_nest?_or_closed (depth : Nat) (ts : List String) :
    (nest? depth ts).isSome = true ∨
      ∃ body rest, ts = body ++ "\x7d" :: rest ∧ nest? depth body = some 0 := by
  induction ts generalizing depth with
  | nil => exact .inl rfl
  | cons t rest ih =>
    cases next : nestNext? depth t with
    | none =>
      obtain ⟨rfl, rfl⟩ : t = "\x7d" ∧ depth = 0 := by
        rw [nestNext?] at next
        split at next
        · next closing =>
          split at next
          · next outer => exact ⟨closing, outer⟩
          · cases next
        · split at next <;> cases next
      exact .inr ⟨[], rest, rfl, rfl⟩
    | some depth' =>
      rcases ih depth' with goesOn | ⟨body, behind, rfl, nested⟩
      · exact .inl (by rwa [nest?_cons, next])
      · exact .inr ⟨t :: body, behind, rfl, by rw [nest?_cons, next]; exact nested⟩

/-- A complete entry stands at the beginning of some tokens, or the layer ends there, or there is a
fault. -/
private theorem entry_or_end (file : Path) (ts : List String) :
    (∃ (e : Entry) (rest : List String), e.Balanced ∧ ts = e.tokens ++ rest) ∨
      (∃ rest, ts = "\x7d" :: rest) ∨ ∃ failure, EntryFault file ts failure := by
  -- The faults come in the order in which they are found: a name with a second dot is refused only
  -- when its block is complete.
  cases ts with
  | nil => exact .inr (.inr ⟨_, .ended⟩)
  | cons t rest =>
    by_cases closes : t = "\x7d"
    · exact .inr (.inl ⟨rest, by rw [closes]⟩)
    by_cases dot : t.toList.head? = some '.'
    swap
    · exact .inr (.inr ⟨_, .notAClass closes dot⟩)
    by_cases opens : rest.head? = some "\x7b"
    swap
    · exact .inr (.inr ⟨_, .unopened dot opens⟩)
    obtain ⟨inner, rfl⟩ := List.head?_eq_some_iff.1 opens
    rcases isSome_nest?_or_closed 0 inner with goesOn | ⟨body, behind, rfl, nested⟩
    · exact .inr (.inr ⟨_, .unclosed dot goesOn⟩)
    by_cases double : (entryName t).toList.head? = some '.'
    · exact .inr (.inr ⟨_, .dotted double dot nested⟩)
    · exact .inl ⟨⟨t, body, "\x7d", dot, double⟩, behind, ⟨nested, rfl⟩, by simp [Entry.tokens]⟩

/-- Complete entries stand at the beginning of any tokens, and behind them the end of the layer or a
fault. -/
private theorem exists_entries (file : Path) (ts : List String) :
    ∃ (entries : List Entry) (rest : List String), (∀ e ∈ entries, e.Balanced) ∧
      ts = entries.flatMap Entry.tokens ++ rest ∧
      ((∃ behind, rest = "\x7d" :: behind) ∨ ∃ failure, EntryFault file rest failure) := by
  -- An entry takes tokens away, and what follows it is read in the same way.
  induction length : ts.length using Nat.strongRecOn generalizing ts with
  | ind n ih =>
    rcases entry_or_end file ts with ⟨e, behind, here, rfl⟩ | last
    · have shorter : behind.length < n := by
        simp only [← length, Entry.tokens, List.length_append, List.length_cons]
        omega
      obtain ⟨entries, rest, balanced, split, last⟩ := ih behind.length shorter behind rfl
      exact ⟨e :: entries, rest, List.forall_mem_cons.2 ⟨here, balanced⟩, by simp [split], last⟩
    · exact ⟨[], ts, List.forall_mem_nil _, rfl, last⟩

/-- Either a layer stands at the beginning of some tokens, or there is a fault. -/
theorem layer_or_fault (file : Path) (ts : List String) :
    ∃ entries : List Entry, (∀ e ∈ entries, e.Balanced) ∧
      ((∃ rest, ts = layerBlock entries ++ rest) ∨
        ∃ failure, LayerFault file ts entries failure) := by
  by_cases opens : ts.head? = some "\x7b"
  · obtain ⟨inner, rfl⟩ := List.head?_eq_some_iff.1 opens
    obtain ⟨entries, rest, balanced, rfl, ⟨behind, rfl⟩ | ⟨failure, fault⟩⟩ :=
      exists_entries file inner
    · exact ⟨entries, balanced, .inl ⟨behind, by simp [layerBlock]⟩⟩
    · exact ⟨entries, balanced, .inr ⟨failure, .entry fault⟩⟩
  · exact ⟨[], List.forall_mem_nil _, .inr ⟨_, .unopened opens⟩⟩

/-! What reading does with complete entries, with the end of the layer and at a fault. -/

variable {entries : List Entry}

private theorem notBrace_declarationsOf {table : RuleTable}
    (whole : ∀ name rule, table.get? name = some rule → NotBrace rule.css) (name : String) :
    NotBrace (declarationsOf table name) := by
  rw [declarationsOf]
  cases found : table.get? name with
  | none => exact ⟨by decide, by decide⟩
  | some rule => exact whole name rule found

private theorem nest?_filled {table : RuleTable}
    (whole : ∀ name, NotBrace (declarationsOf table name)) (body : List String) :
    nest? 0 (body.map (expandApply table)) = nest? 0 body :=
  nest?_expandApply (fun _ _ => notBrace_expandApply whole) 0

/-- Tokens inside a block that do not close it. -/
private theorem readLayer_block {body : List String} {depth depth' : Nat}
    (nested : nest? depth (body.map (expandApply pass.table)) = some depth') (count : Nat)
    (selector css : String) (rest : List String) :
    readLayer file (body ++ rest) (.body count selector depth css) pass =
      readLayer file rest (.body count selector depth'
        (css ++ String.join (body.map (expandApply pass.table)))) pass := by
  induction body generalizing depth css with
  | nil =>
    cases nested
    simp
  | cons t more ih =>
    rw [List.map_cons, nest?_cons, Option.bind_eq_some_iff] at nested
    obtain ⟨between, next, later⟩ := nested
    rw [List.cons_append, readLayer_stepped (.block next count selector css) rfl, ih later,
      List.map_cons, String.join_cons, String.append_assoc]

private theorem ne_closing {selector : String} (dot : selector.toList.head? = some '.') :
    selector ≠ "\x7d" := by
  rintro rfl
  exact absurd dot (by decide)

/-- The selector of an entry and the tokens of its block. -/
private theorem readLayer_opening (file : Path) {selector : String}
    (dot : selector.toList.head? = some '.') {body : List String} {depth : Nat}
    (nested : nest? 0 (body.map (expandApply pass.table)) = some depth) (count : Nat)
    (rest : List String) :
    readLayer file (selector :: "\x7b" :: body ++ rest) (.entries count) pass =
      readLayer file rest (.body (count + 1) selector depth
        (String.join (body.map (expandApply pass.table)))) pass := by
  rw [List.cons_append, readLayer_stepped (.entry (ne_closing dot) dot) rfl, List.cons_append,
    readLayer_stepped (.bodyOpens rfl) rfl, readLayer_block nested, String.empty_append]

/-- A complete entry is registered. -/
private theorem readLayer_entry {e : Entry} (balanced : e.Balanced)
    (whole : ∀ name, NotBrace (declarationsOf pass.table name)) (count : Nat)
    (rest : List String) :
    readLayer file (e.tokens ++ rest) (.entries count) pass =
      readLayer file rest (.entries (count + 1)) (pass.recorded (count + 1) [e]) := by
  obtain ⟨nested, closing⟩ := balanced.closes whole
  rw [Entry.tokens, List.append_assoc, readLayer_opening file e.dot nested, List.singleton_append,
    readLayer_stepped (.registers closing e.single) rfl]
  rfl

/-- No entry that is balanced makes a rule of a single brace. -/
private theorem notBrace_recorded {e : Entry} (balanced : e.Balanced)
    (whole : ∀ name, NotBrace (declarationsOf pass.table name)) (place : Nat) (name : String) :
    NotBrace (declarationsOf (pass.recorded place [e]).table name) := by
  have closed : Closed pass.table [(e, place)] :=
    (Closed.nil pass.table).concat (balanced.closes whole)
  exact closed.notBrace whole name

/-- Complete entries are registered one behind another. -/
private theorem readLayer_entries (file : Path) (balanced : ∀ e ∈ entries, e.Balanced)
    (whole : ∀ name, NotBrace (declarationsOf pass.table name)) (count : Nat)
    (rest : List String) :
    readLayer file (entries.flatMap Entry.tokens ++ rest) (.entries count) pass =
        readLayer file rest (.entries (count + entries.length))
          (pass.recorded (count + 1) entries) ∧
      ∀ name, NotBrace (declarationsOf (pass.recorded (count + 1) entries).table name) := by
  -- The table that an entry leaves holds no single brace either, so the next entry closes where its
  -- own brace stands.
  induction entries generalizing pass count with
  | nil => exact ⟨rfl, whole⟩
  | cons e more ih =>
    obtain ⟨here, later⟩ := List.forall_mem_cons.1 balanced
    obtain ⟨reads, whole'⟩ := ih later (notBrace_recorded here whole (count + 1)) (count + 1)
    refine ⟨?_, whole'⟩
    rw [List.flatMap_cons, List.append_assoc, readLayer_entry here whole, reads, List.length_cons,
      Nat.add_right_comm, Nat.add_assoc]
    rfl

/-- Reading fails at the fault, and nothing is registered any more. -/
private theorem readLayer_fault {ts : List String} {failure : Failure}
    (fault : EntryFault file ts failure)
    (whole : ∀ name, NotBrace (declarationsOf pass.table name)) (count : Nat) :
    readLayer file ts (.entries count) pass = (pass, .error failure) := by
  cases fault with
  | ended => exact readLayer_ended rfl pass
  | notAClass stays dotless => exact readLayer_failed (.notAClass stays dotless) rfl _
  | @unopened selector rest dot missing =>
    rw [readLayer_stepped (.entry (ne_closing dot) dot) rfl]
    cases rest with
    | nil => exact readLayer_ended rfl pass
    | cons t rest =>
      exact readLayer_failed (.bodyStuck fun same => missing (by rw [same]; rfl)) rfl _
  | @unclosed selector body dot goesOn =>
    obtain ⟨depth, open'⟩ := Option.isSome_iff_exists.1 goesOn
    have opening := readLayer_opening file dot ((nest?_filled whole body).trans open') count []
    rw [List.append_nil] at opening
    rw [opening]
    exact readLayer_ended rfl pass
  | @dotted selector body rest double dot nested =>
    have closing : expandApply pass.table "\x7d" = "\x7d" := expandApply_of_head (by decide) _
    rw [readLayer_opening file dot ((nest?_filled whole body).trans nested)]
    exact readLayer_failed (.dotted closing double) rfl _

private theorem readLayer_layerBlock (balanced : ∀ e ∈ entries, e.Balanced)
    (whole : ∀ name, NotBrace (declarationsOf pass.table name)) (rest : List String) :
    readLayer file (layerBlock entries ++ rest) .layerOpening pass =
      (pass.recorded 1 entries, .ok rest) := by
  have reads := (readLayer_entries file balanced whole 0 ("\x7d" :: rest)).1
  rw [layerBlock, List.cons_append, List.cons_append, List.append_assoc, List.singleton_append,
    readLayer_stepped (.layerOpens rfl) rfl, reads,
    readLayer_stepped (.layerCloses rfl) rfl, readLayer_statements]

private theorem readLayer_layerFault {ts : List String} {failure : Failure}
    (balanced : ∀ e ∈ entries, e.Balanced) (fault : LayerFault file ts entries failure)
    (whole : ∀ name, NotBrace (declarationsOf pass.table name)) :
    readLayer file ts .layerOpening pass = (pass.recorded 1 entries, .error failure) := by
  cases fault with
  | unopened missing =>
    cases ts with
    | nil => exact readLayer_ended rfl pass
    | cons t rest =>
      exact readLayer_failed (.layerStuck fun same => missing (by rw [same]; rfl)) rfl _
  | @entry _ rest _ fault =>
    obtain ⟨reads, whole'⟩ := readLayer_entries file balanced whole 0 rest
    rw [List.cons_append, readLayer_stepped (.layerOpens rfl) rfl, reads]
    exact readLayer_fault fault whole' _

/-- A layer of utilities is read by its grammar. Behind its word stand a brace, entries whose
selectors start with one dot and whose blocks are balanced, and a closing brace: these tokens are
read, no others, and every entry is registered in its turn. Without such a layer the first fault is
reported, and what is registered are the entries in front of it. Nothing but the layer is read
before the statements of the file go on. -/
theorem readLayer_grammar (file : Path) (ts : List String) (pass : Pass)
    (whole : ∀ name rule, pass.table.get? name = some rule → NotBrace rule.css) :
    (∀ after rest, readLayer file ts .layerOpening pass = (after, .ok rest) ↔
      ∃ entries : List Entry, (∀ e ∈ entries, e.Balanced) ∧ ts = layerBlock entries ++ rest ∧
        after = pass.recorded 1 entries) ∧
    (∀ after failure, readLayer file ts .layerOpening pass = (after, .error failure) ↔
      ∃ entries : List Entry, (∀ e ∈ entries, e.Balanced) ∧ LayerFault file ts entries failure ∧
        after = pass.recorded 1 entries) ∧
    ∀ importSheet out,
      runTokens file importSheet ("@layer utilities" :: ts) .statements out pass =
        match readLayer file ts .layerOpening pass with
        | (pass, .ok rest) => runTokens file importSheet rest .statements out pass
        | (pass, .error failure) => (pass, .error failure) := by
  have filled := notBrace_declarationsOf whole
  -- Reading has one result, and every text is a layer with a rest or has a fault.
  refine ⟨fun after rest => ⟨fun reads => ?_, ?_⟩, fun after failure => ⟨fun fails => ?_, ?_⟩,
    fun importSheet out => ?_⟩
  · obtain ⟨entries, balanced, ⟨rest', rfl⟩ | ⟨failure, fault⟩⟩ := layer_or_fault file ts
    · cases (readLayer_layerBlock balanced filled rest').symm.trans reads
      exact ⟨entries, balanced, rfl, rfl⟩
    · cases (readLayer_layerFault balanced fault filled).symm.trans reads
  · rintro ⟨entries, balanced, rfl, rfl⟩
    exact readLayer_layerBlock balanced filled rest
  · obtain ⟨entries, balanced, ⟨rest, rfl⟩ | ⟨failure', fault⟩⟩ := layer_or_fault file ts
    · cases (readLayer_layerBlock balanced filled rest).symm.trans fails
    · cases (readLayer_layerFault balanced fault filled).symm.trans fails
      exact ⟨entries, balanced, fault, rfl⟩
  · rintro ⟨entries, balanced, fault, rfl⟩
    exact readLayer_layerFault balanced fault filled
  · have plain : inlined? .statements "@layer utilities" = none := by decide
    have opens : step file "@layer utilities" .statements pass =
        (pass, .ok (.layerOpening, "")) := (Stepped.layer rfl).step_eq
    have inside : Mode.layerOpening.inLayer = true := rfl
    rw [runTokens_step plain, opens, ← runTokens_readLayer inside importSheet]
    simp only [String.append_empty]

/-- An entry with a block inside its block. -/
private def hovering : Entry where
  selector := ".a"
  body := ["x: y;", "&:hover", "\x7b", "z: w;", "\x7d"]
  closing := "\x7d"
  dot := by decide
  single := by decide

/-- The entry is complete, and a selector without dot follows it. -/
theorem readLayer_grammar_hovering :
    ∃ after : Pass,
      readLayer (.ofText "index.css") ["\x7b", ".a", "\x7b", "x: y;", "&:hover", "\x7b", "z: w;",
          "\x7d", "\x7d", "b", "\x7b"] .layerOpening { table := .ofList [], base := none } =
        (after, .error (.faulty ⟨.notAClass "b", some "index.css"⟩)) ∧
      after.table.get? "a" = some { css := "x: y;&:hover\x7bz: w;\x7d", specificity := 1 } := by
  have whole : ∀ name rule, (RuleTable.ofList []).get? name = some rule → NotBrace rule.css := by
    intro name rule found
    cases found
  have fault : EntryFault (.ofText "index.css") ["b", "\x7b"]
      (.faulty ⟨.notAClass "b", some "index.css"⟩) := .notAClass (by decide) (by decide)
  have balanced : ∀ e ∈ [hovering], e.Balanced :=
    List.forall_mem_singleton.2 ⟨by decide, rfl⟩
  have stands := (readLayer_grammar (.ofText "index.css")
    ("\x7b" :: [hovering].flatMap Entry.tokens ++ ["b", "\x7b"])
    { table := .ofList [], base := none } whole).2.1
  exact ⟨_, (stands _ _).2 ⟨[hovering], balanced, .entry fault, rfl⟩, by decide +kernel⟩

end UtilityCss.Sheet
