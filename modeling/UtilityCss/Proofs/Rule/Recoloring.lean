import Mathlib.Data.List.TakeWhile
import UtilityCss.Proofs.Rule.Table
import UtilityCss.Proofs.Theme.Projection
import UtilityCss.Rule.Generate

/-! Shadows whose color is set by another utility. Their declaration is the shadow with something
else in the place of its color terms. A color term ends at the parenthesis that closes it, but what
is replaced ends at the first closing parenthesis, so a term with parentheses of its own leaves
surplus ones behind. -/
namespace UtilityCss

namespace Rule

open Theme (mem_mapNamed names_mapNamed)

/-- The number of open parentheses behind a character. None may be closed that is not open. -/
def parenNext? (depth : Nat) (c : Char) : Option Nat :=
  if c = '(' then some (depth + 1)
  else if c = ')' then if depth = 0 then none else some (depth - 1)
  else some depth

/-- The number of open parentheses behind a text. -/
def parens? (depth : Nat) (s : List Char) : Option Nat := s.foldlM parenNext? depth

/-- Every parenthesis of the text is closed in it. -/
def Balanced (s : List Char) : Prop := parens? 0 s = some 0

instance (s : List Char) : Decidable (Balanced s) :=
  inferInstanceAs (Decidable (parens? 0 s = some 0))

/-- The beginning of a color term. -/
def colorStart : List Char := ['r', 'g', 'b', '(']

/-- The text `out` is `s` with `shadowColor` in the place of each color term. A term goes on to the
parenthesis that closes it; `contents` are what the terms hold, in their order. -/
inductive Recolored : List Char → List (List Char) → List Char → Prop
  | nil : Recolored [] [] []
  | term {content rest : List Char} {contents : List (List Char)} {out : List Char}
      (filled : content ≠ []) (balanced : Balanced content) (others : Recolored rest contents out) :
      Recolored (colorStart ++ (content ++ ')' :: rest)) (content :: contents)
        (shadowColor.toList ++ out)
  | other {c : Char} {rest : List Char} {contents : List (List Char)} {out : List Char}
      (plain : ¬ colorStart <+: c :: rest) (others : Recolored rest contents out) :
      Recolored (c :: rest) contents (c :: out)

section Parentheses

variable {s s' front behind : List Char} {depth depth' : Nat}

theorem parens?_append (depth : Nat) (s s' : List Char) :
    parens? depth (s ++ s') = (parens? depth s).bind (parens? · s') := List.foldlM_append

theorem parens?_cons (depth : Nat) (c : Char) (s : List Char) :
    parens? depth (c :: s) = (parenNext? depth c).bind (parens? · s) := List.foldlM_cons

/-- Parentheses that were open before do not matter to what is closed behind them. -/
theorem parens?_add (h : parens? depth s = some depth') (more : Nat) :
    parens? (depth + more) s = some (depth' + more) := by
  induction s generalizing depth with
  | nil =>
    cases h
    rfl
  | cons c rest ih =>
    rw [parens?_cons] at h ⊢
    obtain ⟨next, step, h⟩ := Option.bind_eq_some_iff.1 h
    have shifted : parenNext? (depth + more) c = some (next + more) := by
      unfold parenNext? at step ⊢
      grind
    rw [shifted]
    exact ih h

theorem Balanced.parens? (h : Balanced s) (depth : Nat) : parens? depth s = some depth := by
  have shifted := parens?_add h depth
  rwa [Nat.zero_add] at shifted

theorem count_of_parens? (h : parens? depth s = some depth') :
    depth + s.count '(' = depth' + s.count ')' := by
  induction s generalizing depth with
  | nil =>
    cases h
    rfl
  | cons c rest ih =>
    rw [parens?_cons] at h
    obtain ⟨next, step, h⟩ := Option.bind_eq_some_iff.1 h
    have later := ih h
    unfold parenNext? at step
    grind

theorem Balanced.count_eq (h : Balanced s) : s.count '(' = s.count ')' := by
  have counted := count_of_parens? h
  omega

/-- A balanced text without an opening parenthesis has no closing one either. -/
theorem Balanced.not_mem (h : Balanced s) (flat : '(' ∉ s) : ')' ∉ s := by
  rw [← List.count_eq_zero, ← h.count_eq, List.count_eq_zero]
  exact flat

/-- What stands before the first closing parenthesis of a balanced text has an opening one. -/
theorem Balanced.mem_of_split (h : Balanced (front ++ ')' :: behind)) : '(' ∈ front := by
  by_contra flat
  rw [Balanced, parens?_append] at h
  obtain ⟨depth, before, h⟩ := Option.bind_eq_some_iff.1 h
  have none := count_of_parens? before
  rw [List.count_eq_zero.2 flat] at none
  obtain rfl : depth = 0 := by omega
  cases h

end Parentheses

section Terms

variable {s rest front behind content out : List Char} {contents : List (List Char)}

/-- What is replaced: a beginning of a color term, with all up to the first closing parenthesis. -/
theorem behindColor?_eq_some_iff : behindColor? s = some rest ↔
    ∃ inside, inside ≠ [] ∧ ')' ∉ inside ∧ s = colorStart ++ (inside ++ ')' :: rest) := by
  constructor
  · intro h
    unfold behindColor? at h
    split at h
    · next inside =>
      split at h
      · cases h
      · next c more found =>
        split at h
        · cases h
        · next first =>
          cases h
          have split := List.takeWhile_append_dropWhile (p := (· != ')')) (l := inside)
          have stop : c = ')' := by
            have last := List.head?_dropWhile_not (· != ')') inside
            rw [found] at last
            simpa using last
          rw [found, stop] at split
          refine ⟨_, fun none => first ?_, fun inside => ?_, congrArg (colorStart ++ ·) split.symm⟩
          · rw [← split, none]
            rfl
          · simpa using List.mem_takeWhile_imp inside
    · cases h
  · rintro ⟨inside, filled, unclosed, rfl⟩
    have kept : ∀ c ∈ inside, (c != ')') = true := by
      intro c within
      exact bne_iff_ne.2 fun same => unclosed (same ▸ within)
    obtain ⟨c, more, rfl⟩ := List.exists_cons_of_ne_nil filled
    have first : c ≠ ')' := bne_iff_ne.1 (kept c List.mem_cons_self)
    simp only [behindColor?, colorStart, List.cons_append, List.nil_append]
    rw [← List.cons_append, List.dropWhile_append_of_pos kept]
    simp [first]

theorem recolor_of_behind (h : behindColor? s = some rest) :
    recolor s = shadowColor.toList ++ recolor rest := by
  cases s with
  | nil => cases h
  | cons c more =>
    rw [recolor]
    split
    · next found =>
      rw [h] at found
      cases found
      rfl
    · next found =>
      rw [h] at found
      cases found

theorem recolor_of_none {c : Char} (h : behindColor? (c :: rest) = none) :
    recolor (c :: rest) = c :: recolor rest := by
  rw [recolor]
  split
  · next found =>
    rw [h] at found
    cases found
  · rfl

theorem recolor_of_plain {c : Char} (plain : ¬ colorStart <+: c :: rest) :
    recolor (c :: rest) = c :: recolor rest := by
  refine recolor_of_none (Option.eq_none_iff_forall_ne_some.2 fun behind found => ?_)
  obtain ⟨inside, -, -, split⟩ := behindColor?_eq_some_iff.1 found
  exact plain ⟨_, split.symm⟩

/-- The closing parentheses that have no opening one, less the opening ones that are not closed. -/
def surplus (s : List Char) : Int := s.count ')' - s.count '('

theorem surplus_append (s s' : List Char) : surplus (s ++ s') = surplus s + surplus s' := by
  simp only [surplus, List.count_append]
  omega

theorem surplus_cons (c : Char) (s : List Char) : surplus (c :: s) = surplus [c] + surplus s :=
  surplus_append [c] s

theorem Balanced.surplus_eq_zero (h : Balanced s) : surplus s = 0 := by
  rw [surplus, h.count_eq]
  omega

theorem surplus_shadowColor (s : List Char) : surplus (shadowColor.toList ++ s) = surplus s := by
  have color : surplus shadowColor.toList = 0 := by decide
  rw [surplus_append, color]
  omega

/-- What is replaced takes its opening parentheses along, but one closing parenthesis only. -/
theorem surplus_term (unclosed : ')' ∉ front) :
    surplus (colorStart ++ (front ++ ')' :: rest)) = surplus rest - front.count '(' := by
  have start : surplus colorStart = -1 := by decide
  have stop : surplus [')'] = 1 := by decide
  have inside : surplus front = -(front.count '(' : Int) := by
    rw [surplus, List.count_eq_zero.2 unclosed]
    omega
  rw [surplus_append, surplus_append, surplus_cons, start, stop, inside]
  omega

theorem surplus_le_recolor (s : List Char) : surplus s ≤ surplus (recolor s) := by
  induction s using recolor.induct with
  | case1 => exact Int.le_of_eq (by rw [recolor])
  | case2 c rest behind found ih =>
    obtain ⟨inside, -, unclosed, split⟩ := behindColor?_eq_some_iff.1 found
    rw [recolor_of_behind found, surplus_shadowColor, split, surplus_term unclosed]
    omega
  | case3 c rest found ih =>
    rw [recolor_of_none found, surplus_cons, surplus_cons c (recolor rest)]
    omega

/-- A term with no parentheses of its own is replaced as a whole. -/
theorem recolor_flat (filled : content ≠ []) (balanced : Balanced content) (flat : '(' ∉ content) :
    recolor (colorStart ++ (content ++ ')' :: rest)) = shadowColor.toList ++ recolor rest :=
  recolor_of_behind (behindColor?_eq_some_iff.2 ⟨_, filled, balanced.not_mem flat, rfl⟩)

/-- A term with parentheses of its own is cut at the first one that is closed. -/
theorem surplus_lt_recolor (rest : List Char) (balanced : Balanced content)
    (nested : '(' ∈ content) :
    surplus (colorStart ++ (content ++ ')' :: rest)) <
      surplus (recolor (colorStart ++ (content ++ ')' :: rest))) := by
  have closed : ')' ∈ content := by
    rw [← List.count_pos_iff] at nested ⊢
    rwa [← balanced.count_eq]
  obtain ⟨front, behind, rfl, unclosed⟩ := List.eq_append_cons_of_mem closed
  have opens := balanced.mem_of_split
  have cut : recolor (colorStart ++ ((front ++ ')' :: behind) ++ ')' :: rest)) =
      shadowColor.toList ++ recolor (behind ++ ')' :: rest) := by
    rw [List.append_assoc]
    exact recolor_of_behind
      (behindColor?_eq_some_iff.2 ⟨front, List.ne_nil_of_mem opens, unclosed, rfl⟩)
  have more := surplus_le_recolor (behind ++ ')' :: rest)
  have lost : 0 < front.count '(' := List.count_pos_iff.2 opens
  rw [cut, surplus_shadowColor, List.append_assoc, List.cons_append, surplus_term unclosed]
  omega

/-- Where no term has parentheses of its own, each is replaced as a whole. -/
theorem Recolored.recolor_eq (h : Recolored s contents out)
    (flat : ∀ content ∈ contents, '(' ∉ content) : recolor s = out := by
  induction h with
  | nil => rw [recolor]
  | term filled balanced _ ih =>
    obtain ⟨here, later⟩ := List.forall_mem_cons.1 flat
    rw [recolor_flat filled balanced here, ih later]
  | other plain _ ih => rw [recolor_of_plain plain, ih flat]

/-- Where a term has parentheses of its own, closing ones are left over. -/
theorem Recolored.flat_of_surplus_eq (h : Recolored s contents out)
    (even : surplus (recolor s) = surplus s) : ∀ content ∈ contents, '(' ∉ content := by
  induction h with
  | nil => exact fun _ none => absurd none List.not_mem_nil
  | @term content rest _ _ filled balanced _ ih =>
    have flat : '(' ∉ content := by
      intro nested
      have more := surplus_lt_recolor rest balanced nested
      omega
    refine List.forall_mem_cons.2 ⟨flat, ih ?_⟩
    rw [recolor_flat filled balanced flat, surplus_shadowColor,
      surplus_term (balanced.not_mem flat), List.count_eq_zero.2 flat] at even
    omega
  | @other c rest _ _ plain _ ih =>
    refine ih ?_
    rw [recolor_of_plain plain, surplus_cons, surplus_cons c rest] at even
    omega

/-- Terms are replaced by something balanced. -/
theorem Recolored.parens?_eq (h : Recolored s contents out) (depth : Nat) :
    parens? depth out = parens? depth s := by
  induction h generalizing depth with
  | nil => rfl
  | term _ balanced _ ih =>
    have start : parens? depth colorStart = some (depth + 1) := rfl
    have color : Balanced shadowColor.toList := by decide
    rw [parens?_append, color.parens?, parens?_append, start, Option.bind_some, Option.bind_some,
      parens?_append, balanced.parens?, Option.bind_some, ih]
    rfl
  | other _ _ ih =>
    rw [parens?_cons, parens?_cons]
    exact congrArg _ (funext ih)

/-- What is made of a balanced shadow is right, and balanced at all, if and only if no color term
has parentheses of its own. -/
theorem Recolored.iff_flat (h : Recolored s contents out) (balanced : Balanced s) :
    Balanced out ∧ (recolor s = out ↔ ∀ content ∈ contents, '(' ∉ content) ∧
      (Balanced (recolor s) ↔ ∀ content ∈ contents, '(' ∉ content) := by
  have right : Balanced out := (h.parens?_eq 0).trans balanced
  have flat (even : Balanced (recolor s)) : ∀ content ∈ contents, '(' ∉ content :=
    h.flat_of_surplus_eq (even.surplus_eq_zero.trans balanced.surplus_eq_zero.symm)
  refine ⟨right, ⟨fun same => flat (same ▸ right), h.recolor_eq⟩, flat, fun all => ?_⟩
  rw [h.recolor_eq all]
  exact right

end Terms

/-- The name of a shadow's utility. The empty key stands for the plain one. -/
def shadowName (key : String) : String := if key.isEmpty then "shadow" else "shadow-" ++ key

/-- The declarations of a shadow, with the form whose color can be set. -/
def shadowDeclarations (value colored : String) : String :=
  "--tw-shadow-y: 1;--tw-shadow-x: -1;--tw-shadow: " ++ value ++ ";--tw-shadow-colored: " ++
    colored ++ ";box-shadow:var(--tw-ring-offset-shadow, 0 0 #0000)," ++
    "var(--tw-ring-shadow, 0 0 #0000), var(--tw-shadow);"

theorem shadowName_injective {key key' : String} (same : shadowName key = shadowName key') :
    key = key' := by
  have apart (key : String) : "shadow" ≠ "shadow-" ++ key := by
    intro h
    have lengths := congrArg String.length h
    rw [String.length_append] at lengths
    have short : "shadow".length = 6 := rfl
    have long : "shadow-".length = 7 := rfl
    omega
  unfold shadowName at same
  split at same <;> split at same
  · next empty empty' => rw [String.isEmpty_iff.1 empty, String.isEmpty_iff.1 empty']
  · exact absurd same (apart key')
  · exact absurd same.symm (apart key)
  · exact String.append_right_inj _ |>.1 same

/-- The rule of a shadow. -/
def shadowRuleOf (key value : String) : Rule where
  css := shadowDeclarations value (String.ofList (recolor value.toList))
  specificity := if key = "none" then 1 else 0

theorem shadowEntries_eq (shadows : List (String × String)) :
    shadowEntries shadows = shadows.map fun e => (shadowName e.1, shadowRuleOf e.1 e.2) := rfl

/-- The rules of shadows come last, so that each is found under its name. -/
theorem get?_shadowName {t : Theme} {table : RuleTable} {key value : String}
    (distinct : (t.shadow.map (·.1)).Nodup) (built : t.rules = .ok table)
    (configured : (key, .text value) ∈ t.shadow) :
    table.get? (shadowName key) = some (shadowRuleOf key value) := by
  obtain ⟨entries, made, built⟩ := bind_eq_ok built
  obtain rfl := Except.ok.inj built
  obtain ⟨typography, -, made⟩ := bind_eq_ok made
  obtain ⟨shadows, texts, made⟩ := bind_eq_ok made
  obtain rfl := Except.ok.inj made
  obtain ⟨text, same, inside⟩ := mem_mapNamed texts configured
  obtain rfl := Except.ok.inj same
  have names : (shadowEntries shadows).map (·.1) = (shadows.map (·.1)).map shadowName := by
    rw [shadowEntries_eq, List.map_map, List.map_map]
    rfl
  have apart : ((shadowEntries shadows).map (·.1)).Nodup := by
    rw [names, names_mapNamed texts]
    exact distinct.map fun _ _ => shadowName_injective
  have rule : (shadowName key, shadowRuleOf key value) ∈ shadowEntries shadows := by
    rw [shadowEntries_eq]
    exact List.mem_map.2 ⟨_, inside, rfl⟩
  exact RuleTable.get?_ofList_of_mem apart rule

end Rule

namespace Theme

open Json (Value)
open Rule (Balanced Recolored shadowName shadowDeclarations)

/-- The form of a shadow whose color can be set: it is the shadow with something balanced in the
place of each color term, and balanced itself, if and only if no color term has parentheses of its
own. -/
theorem shadow_iff_flat {overrides : Value} {t : Theme} {table : RuleTable} {key value : String}
    {contents : List (List Char)} {out : List Char} (compiled : compile overrides = .ok t)
    (built : t.rules = .ok table) (configured : (key, .text value) ∈ t.shadow)
    (balanced : Balanced value.toList) (colors : Recolored value.toList contents out) :
    ∃ rule colored, table.get? (shadowName key) = some rule ∧
      rule.css = shadowDeclarations value colored ∧ Balanced out ∧
      (colored.toList = out ↔ ∀ content ∈ contents, '(' ∉ content) ∧
      (Balanced colored.toList ↔ ∀ content ∈ contents, '(' ∉ content) := by
  obtain ⟨named, -, compiled⟩ := bind_eq_ok compiled
  have complete := complete_of_merged (compileNamed_eq_ok_iff.1 compiled).shadow
  refine ⟨_, _, Rule.get?_shadowName complete.nodup built configured, rfl, ?_⟩
  rw [String.toList_ofList]
  exact colors.iff_flat balanced

/-- Two shadows with a color each. The second color is taken from a variable. -/
def shaded : Value := .map [("shadow", .map [
  ("soft", .text "rgb(0 0 0 / 0.5) 0 1px"), ("tinted", .text "0 0 rgb(var(--c))")])]

private theorem exists_shaded : ∃ t table, compile shaded = .ok t ∧ t.rules = .ok table ∧
    ("soft", .text "rgb(0 0 0 / 0.5) 0 1px") ∈ t.shadow ∧
    ("tinted", .text "0 0 rgb(var(--c))") ∈ t.shadow := by
  have checked : (compile shaded).toOption.any (fun t => t.rules.toOption.any fun _ =>
      (t.shadow.any fun e => e.1 == "soft" && isText "rgb(0 0 0 / 0.5) 0 1px" e.2) &&
        t.shadow.any fun e => e.1 == "tinted" && isText "0 0 rgb(var(--c))" e.2) = true := by
    decide +kernel
  obtain ⟨t, compiled, checked⟩ := exists_ok_of_any checked
  obtain ⟨table, built, checked⟩ := exists_ok_of_any checked
  have inside (key value : String)
      (h : t.shadow.any (fun e => e.1 == key && isText value e.2) = true) :
      (key, .text value) ∈ t.shadow := by
    obtain ⟨⟨key', v⟩, inside, same⟩ := List.any_eq_true.1 h
    rw [Bool.and_eq_true, beq_iff_eq] at same
    obtain ⟨rfl, same⟩ := same
    cases v with
    | text s =>
      obtain rfl := beq_iff_eq.1 same
      exact inside
    | _ => cases same
  rw [Bool.and_eq_true] at checked
  exact ⟨t, table, compiled, built, inside _ _ checked.1, inside _ _ checked.2⟩

theorem shadow_iff_flat_soft : ∃ t table rule, compile shaded = .ok t ∧ t.rules = .ok table ∧
    table.get? "shadow-soft" = some rule ∧
      rule.css = shadowDeclarations "rgb(0 0 0 / 0.5) 0 1px" "var(--tw-shadow-color) 0 1px" := by
  obtain ⟨t, table, compiled, built, configured, -⟩ := exists_shaded
  have colors : Recolored "rgb(0 0 0 / 0.5) 0 1px".toList ["0 0 0 / 0.5".toList]
      "var(--tw-shadow-color) 0 1px".toList := by
    refine @Recolored.term "0 0 0 / 0.5".toList _ _ _ (by decide) (by decide) ?_
    repeat refine .other (by decide) ?_
    exact .nil
  obtain ⟨rule, colored, found, css, -, right, -⟩ :=
    shadow_iff_flat compiled built configured (by decide) colors
  refine ⟨t, table, rule, compiled, built, found, ?_⟩
  rw [css, ← String.toList_inj.1 (right.2 (by decide))]

/-- The color taken from a variable ends behind the parenthesis of the variable, and its own one is
left over. -/
theorem shadow_tinted : ∃ t table rule, compile shaded = .ok t ∧ t.rules = .ok table ∧
    Balanced "0 0 rgb(var(--c))".toList ∧
    Recolored "0 0 rgb(var(--c))".toList ["var(--c)".toList] "0 0 var(--tw-shadow-color)".toList ∧
    table.get? "shadow-tinted" = some rule ∧
      rule.css = shadowDeclarations "0 0 rgb(var(--c))" "0 0 var(--tw-shadow-color))" ∧
      ¬ Balanced "0 0 var(--tw-shadow-color))".toList := by
  obtain ⟨t, table, compiled, built, -, configured⟩ := exists_shaded
  obtain ⟨named, -, merged⟩ := bind_eq_ok compiled
  have complete := complete_of_merged (compileNamed_eq_ok_iff.1 merged).shadow
  have colors : Recolored "0 0 rgb(var(--c))".toList ["var(--c)".toList]
      "0 0 var(--tw-shadow-color)".toList := by
    refine .other (by decide) (.other (by decide) (.other (by decide) (.other (by decide) ?_)))
    exact @Recolored.term "var(--c)".toList _ _ _ (by decide) (by decide) .nil
  refine ⟨t, table, _, compiled, built, by decide, colors,
    Rule.get?_shadowName complete.nodup built configured, ?_, by decide⟩
  have left : Rule.recolor "0 0 rgb(var(--c))".toList = "0 0 var(--tw-shadow-color))".toList := by
    decide +kernel
  rw [Rule.shadowRuleOf, left, String.ofList_toList]

end Theme

end UtilityCss
