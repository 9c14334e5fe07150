import UtilityCss.Proofs.Rule.Table
import UtilityCss.Proofs.Sheet.Step

/-! Positions inside a file, and the runs between them that meet no failure. -/
namespace UtilityCss.Sheet

/-- What the processing of the tokens of a file has come to. -/
structure Position where
  mode : Mode
  out : String
  pass : Pass

/-- Where a file is begun. -/
def Position.start (pass : Pass) : Position := ⟨.statements, "", pass⟩

/-- The position behind one more token, if it is no failure. -/
def Position.next? (file : Path) (importSheet : String → Path → Pass → Outcome String)
    (p : Position) (t : String) : Option Position :=
  match inlined? p.mode t with
  | some relative =>
    match importSheet t (file.beside relative) p.pass with
    | (pass, .ok text) => some ⟨.statements, p.out ++ "@layer \x7b" ++ text ++ "\x7d", pass⟩
    | (_, .error _) => none
  | none =>
    match step file t p.mode p.pass with
    | (pass, .ok (mode, text)) => some ⟨mode, p.out ++ text, pass⟩
    | (_, .error _) => none

/-- The position behind some more tokens. -/
def Position.run? (file : Path) (importSheet : String → Path → Pass → Outcome String)
    (p : Position) (tokens : List String) : Option Position :=
  tokens.foldlM (next? file importSheet) p

variable {file : Path} {importSheet : String → Path → Pass → Outcome String} {p q : Position}

/-- The processing of a file goes on from every position that it reaches. -/
theorem runTokens_of_run? {tokens : List String} (h : p.run? file importSheet tokens = some q)
    (rest : List String) :
    runTokens file importSheet (tokens ++ rest) p.mode p.out p.pass =
      runTokens file importSheet rest q.mode q.out q.pass := by
  induction tokens generalizing p with
  | nil =>
    obtain rfl : p = q := by simpa [Position.run?] using h
    rfl
  | cons t more ih =>
    obtain ⟨between, first, behind⟩ : ∃ between, p.next? file importSheet t = some between ∧
        between.run? file importSheet more = some q := by
      simpa [Position.run?, List.foldlM_cons, Option.bind_eq_some_iff] using h
    rw [List.cons_append, ← ih behind]
    cases path : inlined? p.mode t with
    | some relative =>
      rw [runTokens_import path]
      cases loaded : importSheet t (file.beside relative) p.pass with
      | mk pass result =>
        cases result with
        | error failure => simp [Position.next?, path, loaded] at first
        | ok text =>
          simp only [Position.next?, path, loaded, Option.some.injEq] at first
          subst first
          rfl
    | none =>
      rw [runTokens_step path]
      cases moved : step file t p.mode p.pass with
      | mk pass result =>
        cases result with
        | error failure => simp [Position.next?, path, moved] at first
        | ok reached =>
          simp only [Position.next?, path, moved, Option.some.injEq] at first
          subst first
          rfl

theorem Position.run?_append (before behind : List String) :
    p.run? file importSheet (before ++ behind) =
      (p.run? file importSheet before).bind fun between =>
        between.run? file importSheet behind := by
  rw [run?, List.foldlM_append]
  rfl

theorem Position.run?_cons (t : String) (rest : List String) :
    p.run? file importSheet (t :: rest) =
      (p.next? file importSheet t).bind fun between => between.run? file importSheet rest := by
  rw [run?, List.foldlM_cons]
  rfl

@[simp] theorem Position.run?_nil : p.run? file importSheet [] = some p := rfl

/-! Tokens that do not start with an at sign stand for themselves. -/

private theorem head?_of_isPrefix {word s : List Char} {c : Char} (h : word.isPrefixOf s = true)
    (first : word.head? = some c) : s.head? = some c := by
  obtain ⟨rest, rfl⟩ := List.isPrefixOf_iff_prefix.1 h
  rw [List.head?_append, first]
  rfl

variable {t : String}

theorem importPath?_of_head (h : t.toList.head? ≠ some '@') : importPath? t = none := by
  dsimp only [importPath?]
  rw [if_neg fun word => h (head?_of_isPrefix word rfl)]

theorem behindApply?_of_head (h : t.toList.head? ≠ some '@') : behindApply? t = none := by
  dsimp only [behindApply?]
  rw [if_neg fun word => h (head?_of_isPrefix word rfl)]

theorem expandApply_of_head (h : t.toList.head? ≠ some '@') (table : RuleTable) :
    expandApply table t = t := by
  rw [expandApply, behindApply?_of_head h]

theorem Position.next?_statement (h : t.toList.head? ≠ some '@') (out : String) (pass : Pass) :
    next? file importSheet ⟨.statements, out, pass⟩ t = some ⟨.statements, out ++ t, pass⟩ := by
  have notBase : t ≠ "@layer base;" := by
    rintro rfl
    exact h rfl
  have notLayer : t ≠ "@layer utilities" := by
    rintro rfl
    exact h rfl
  simp only [next?, inlined?, importPath?_of_head h, step, if_neg notBase, if_neg notLayer,
    expandApply_of_head h]

/-- A token of a block that is neither a rule of its own nor a brace. -/
structure IsContent (t : String) : Prop where
  noRule : t.toList.head? ≠ some '@'
  notOpening : t ≠ "\x7b"
  notClosing : t ≠ "\x7d"

/-- How deep blocks are open behind one more text; none closes that is not open. -/
def nestNext? (depth : Nat) (text : String) : Option Nat :=
  if text = "\x7d" then if depth = 0 then none else some (depth - 1)
  else if text = "\x7b" then some (depth + 1)
  else some depth

/-- How deep blocks are open behind some texts. -/
def nest? (depth : Nat) (texts : List String) : Option Nat := texts.foldlM nestNext? depth

theorem nest?_cons (depth : Nat) (text : String) (texts : List String) :
    nest? depth (text :: texts) = (nestNext? depth text).bind (nest? · texts) := by
  rw [nest?, List.foldlM_cons]
  rfl

/-- Content opens and closes no block, and nothing is filled in for it. -/
theorem nest?_content {ts : List String} (h : ∀ t ∈ ts, IsContent t) (table : RuleTable)
    (depth : Nat) :
    ts.map (expandApply table) = ts ∧ nest? depth ts = some depth := by
  induction ts with
  | nil => exact ⟨rfl, rfl⟩
  | cons t rest ih =>
    obtain ⟨here, later⟩ := List.forall_mem_cons.1 h
    obtain ⟨same, nested⟩ := ih later
    refine ⟨by rw [List.map_cons, expandApply_of_head here.noRule, same], ?_⟩
    rw [nest?_cons, nestNext?, if_neg here.notClosing, if_neg here.notOpening]
    exact nested

/-- A token inside a block, at the depth behind which the block is still open. -/
theorem Stepped.block {pass : Pass} {depth depth' : Nat}
    (next : nestNext? depth (expandApply pass.table t) = some depth') (count : Nat)
    (selector css : String) :
    Stepped file t (.body count selector depth css) pass pass
      (.ok (.body count selector depth' (css ++ expandApply pass.table t), "")) := by
  rw [nestNext?] at next
  split at next
  · next closing =>
    split at next
    · cases next
    · next inner =>
      cases next
      obtain ⟨outer, rfl⟩ := Nat.exists_eq_succ_of_ne_zero inner
      rw [closing]
      exact .blockCloses closing
  · next notClosing =>
    split at next
    · next opening =>
      cases next
      rw [opening]
      exact .blockOpens opening
    · next notOpening =>
      cases next
      exact .text notOpening notClosing

theorem Position.next?_block {pass : Pass} {depth depth' : Nat}
    (next : nestNext? depth (expandApply pass.table t) = some depth') (count : Nat)
    (selector css out : String) :
    next? file importSheet ⟨.body count selector depth css, out, pass⟩ t =
      some ⟨.body count selector depth' (css ++ expandApply pass.table t), out, pass⟩ := by
  simp only [next?, inlined?, (Stepped.block next count selector css).step_eq, String.append_empty]

/-- Tokens inside a block that do not close it. -/
theorem Position.run?_block {ts : List String} {pass : Pass} {depth depth' : Nat}
    (nested : nest? depth (ts.map (expandApply pass.table)) = some depth') (count : Nat)
    (selector css out : String) :
    run? file importSheet ⟨.body count selector depth css, out, pass⟩ ts =
      some ⟨.body count selector depth' (css ++ String.join (ts.map (expandApply pass.table))), out,
        pass⟩ := by
  induction ts generalizing depth css with
  | nil =>
    cases nested
    simp
  | cons t rest ih =>
    rw [List.map_cons, nest?_cons, Option.bind_eq_some_iff] at nested
    obtain ⟨between, next, later⟩ := nested
    rw [run?_cons, next?_block next, Option.bind_some, ih later, List.map_cons, String.join_cons,
      String.append_assoc]

theorem Position.run?_statements {ts : List String} (h : ∀ t ∈ ts, t.toList.head? ≠ some '@')
    (out : String) (pass : Pass) :
    run? file importSheet ⟨.statements, out, pass⟩ ts =
      some ⟨.statements, out ++ String.join ts, pass⟩ := by
  induction ts generalizing out with
  | nil => simp
  | cons t rest ih =>
    obtain ⟨here, later⟩ := List.forall_mem_cons.1 h
    rw [run?_cons, next?_statement here, Option.bind_some, ih later, String.join_cons,
      String.append_assoc]

theorem Position.run?_layerOpening (out : String) (pass : Pass) :
    run? file importSheet ⟨.statements, out, pass⟩ ["@layer utilities", "\x7b"] =
      some ⟨.entries 0, out, pass⟩ := by
  have notImport : importPath? "@layer utilities" = none := by decide
  simp [run?_cons, next?, inlined?, notImport, step]

theorem Position.run?_layerClosing (count : Nat) (out : String) (pass : Pass) :
    run? file importSheet ⟨.entries count, out, pass⟩ ["\x7d"] =
      some ⟨.statements, out, pass⟩ := by
  simp [run?_cons, next?, inlined?, step]

/-- The entry of a utility registers it with the text of its block, unless the name starts with a
dot. -/
theorem Position.run?_entry {ts : List String} {closing : String} {pass : Pass}
    (nested : nest? 0 (ts.map (expandApply pass.table)) = some 0)
    (closes : expandApply pass.table closing = "\x7d") (name : String) (count : Nat)
    (out : String) :
    run? file importSheet ⟨.entries count, out, pass⟩
        (("." ++ name) :: "\x7b" :: ts ++ [closing]) =
      if name.toList.head? = some '.' then none
      else some ⟨.entries (count + 1), out, { pass with
        table := pass.table.put name
          { css := String.join (ts.map (expandApply pass.table)), specificity := ↑(count + 1) } }⟩
          := by
  have dot : ("." ++ name).toList = '.' :: name.toList := by simp
  have notClosing : "." ++ name ≠ "\x7d" := by
    intro same
    have := congrArg String.toList same
    simp [dot] at this
  have opened : next? file importSheet ⟨.entries count, out, pass⟩ ("." ++ name) =
      some ⟨.bodyOpening (count + 1) ("." ++ name), out, pass⟩ := by
    simp [next?, inlined?, step, notClosing, dot]
  have entered : next? file importSheet ⟨.bodyOpening (count + 1) ("." ++ name), out, pass⟩
      "\x7b" = some ⟨.body (count + 1) ("." ++ name) 0 "", out, pass⟩ := by
    simp [next?, inlined?, step]
  rw [List.cons_append, List.cons_append, run?_cons, opened, Option.bind_some, run?_cons, entered,
    Option.bind_some, run?_append, run?_block nested, Option.bind_some, run?_cons, next?]
  simp only [inlined?, step, closes, if_true, register_eq, entryName_dot, String.empty_append]
  by_cases dotted : name.toList.head? = some '.'
  · simp only [if_pos dotted, Option.bind_none]
  · simp only [if_neg dotted, Option.bind_some, run?_nil, String.append_empty]

end UtilityCss.Sheet
