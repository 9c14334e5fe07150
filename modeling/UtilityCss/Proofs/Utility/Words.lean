import UtilityCss.Proofs.Rule.Ladder
import UtilityCss.Proofs.Rule.Table
import UtilityCss.Proofs.Utility.Blocks
import UtilityCss.Proofs.Utility.Runs
import UtilityCss.Proofs.Utility.Selector

/-! Words of a source that name a class of a breakpoint. The class is written in the media query of
the breakpoint, provided that the name of the breakpoint begins as a candidate may begin. No source
has a word for the other classes. -/
namespace UtilityCss

namespace Candidate

/-- A word that begins as a candidate is found if no part of one stands right before or behind
it. -/
theorem mem_scan_of_word {front word behind : List Char} (parts : ∀ c ∈ word, isPart c = true)
    (first : ∀ c ∈ word.head?, isStart c = true) (long : 2 ≤ word.length)
    (before : front.getLast?.any isPart = false) (after : behind.head?.any isPart = false) :
    word ∈ scan (front ++ word ++ behind) := by
  rw [scan_word parts first long before after]
  exact List.mem_append_right _ List.mem_cons_self

/-- A source has a word with nothing around it that could belong to a candidate. -/
def HasWord (source word : String) : Prop :=
  ∃ front behind : List Char, source.toList = front ++ word.toList ++ behind ∧
    front.getLast?.any isPart = false ∧ behind.head?.any isPart = false

theorem HasWord.mem_ofSources {source word : String} {sources : List String}
    (h : HasWord source word) (scanned : source ∈ sources)
    (parts : ∀ c ∈ word.toList, isPart c = true)
    (first : ∀ c ∈ word.toList.head?, isStart c = true) (long : 2 ≤ word.length) :
    word ∈ ofSources sources := by
  obtain ⟨front, behind, split, before, after⟩ := h
  refine List.mem_flatMap.2 ⟨source, scanned,
    List.mem_map.2 ⟨word.toList, ?_, String.ofList_toList⟩⟩
  rw [split]
  exact mem_scan_of_word parts first (String.length_toList ▸ long) before after

/-- A character of the names of rules and breakpoints: one that may stand in a candidate, but no
colon. -/
def isNamePart (c : Char) : Bool := isPart c && c != ':'

theorem isPart_of_isNamePart {c : Char} (h : isNamePart c = true) : isPart c = true :=
  (Bool.and_eq_true _ _ ▸ h).1

theorem colon_not_mem {name : String} (parts : name.toList.all isNamePart = true) :
    ':' ∉ name.toList :=
  fun inside => absurd (List.all_eq_true.1 parts ':' inside) (by decide)

/-- A name in a selector begins as a candidate does if the name does. -/
theorem exists_toList_escape {className : String} {c : Char} {rest : List Char}
    (split : className.toList = c :: rest) :
    ∃ d more, (escape className).toList = d :: more ∧ isStart d = isStart c := by
  rw [escape, String.toList_ofList, split, List.flatMap_cons]
  split
  · next escaped =>
    refine ⟨'\\', _, rfl, ?_⟩
    obtain (rfl | rfl) | rfl : (c = ':' ∨ c = '/') ∨ c = '.' := by simpa using escaped
    all_goals decide
  · exact ⟨c, _, rfl, rfl⟩

end Candidate

namespace Utility

variable {table : RuleTable} {breakpoints : Breakpoints} {breakpoint name query : String}

theorem splitModifiers_pair (hb : ':' ∉ breakpoint.toList) (hn : ':' ∉ name.toList) :
    splitModifiers (breakpoint ++ ":" ++ name) = ([breakpoint], name) := by
  have whole : ∀ field ∈ [breakpoint] ++ [name], ':' ∉ field.toList := by simp [hb, hn]
  simpa [String.append_assoc] using splitModifiers_intercalate whole

/-- A name behind a breakpoint stands for its rule in the bucket of the breakpoint. -/
theorem exists_resolve_pair (hb : ':' ∉ breakpoint.toList) (hn : ':' ∉ name.toList)
    (configured : breakpoints.lookup breakpoint = some query) (known : name ∈ table.names) :
    ∃ rule u, table.get? name = some rule ∧
      resolve? table breakpoints (breakpoint ++ ":" ++ name) = some u ∧
      u.breakpoint = breakpoint ∧ u.css = rule.css ∧
      u.selector = "." ++ Candidate.escape (breakpoint ++ ":" ++ name) ++ rule.suffix.getD "" := by
  obtain ⟨i, rule, hi⟩ := RuleTable.exists_rule_at known
  have split := splitModifiers_pair hb hn
  have modified (selector : String) :
      modify breakpoints (selector, "") breakpoint = (selector, breakpoint) :=
    if_pos (by rw [configured]; rfl)
  refine ⟨rule, _, OrderedMap.get?_eq_some_iff.2 (List.mem_of_getElem? hi),
    resolve?_of_rule_at (by rw [split]; exact hi) breakpoints, ?_⟩
  simp only [split, List.foldl_cons, List.foldl_nil, modified, and_self]

/-- A selector begins with the dot of a class, followed by what may begin a candidate. -/
def StartsAsClass (selector : String) : Prop :=
  ∃ c rest, selector.toList = '.' :: c :: rest ∧ Candidate.isStart c = true

theorem StartsAsClass.append {selector : String} (h : StartsAsClass selector) (behind : String) :
    StartsAsClass (selector ++ behind) := by
  obtain ⟨c, rest, split, start⟩ := h
  exact ⟨c, rest ++ behind.toList, by rw [String.toList_append, split]; rfl, start⟩

/-- No modifier takes the class from the front of a selector; an ancestor is a class itself. -/
theorem StartsAsClass.modify {done : String × String} (h : StartsAsClass done.1)
    (modifier : String) : StartsAsClass (modify breakpoints done modifier).1 := by
  unfold Utility.modify
  split
  · exact h
  · split
    · exact ⟨'d', "ark ".toList ++ done.1.toList, by simp, by decide⟩
    · exact (h.append ":").append modifier

/-- The selector of a class that begins as a candidate does. -/
theorem startsAsClass_of_resolve? {className : String} {u : Utility}
    (h : resolve? table breakpoints className = some u) {c : Char} {rest : List Char}
    (split : className.toList = c :: rest) (start : Candidate.isStart c = true) :
    StartsAsClass u.selector := by
  have plain : StartsAsClass ("." ++ Candidate.escape className) := by
    obtain ⟨d, more, escaped, same⟩ := Candidate.exists_toList_escape split
    exact ⟨d, more, by rw [String.toList_append, escaped]; rfl, same.trans start⟩
  have fold (modifiers : List String) (done : String × String) (hd : StartsAsClass done.1) :
      StartsAsClass (modifiers.foldl (Utility.modify breakpoints) done).1 := by
    induction modifiers generalizing done with
    | nil => exact hd
    | cons m rest ih => exact ih _ (hd.modify m)
  simp only [resolve?, bind, Option.bind_eq_some_iff] at h
  obtain ⟨_, -, _, -, hu⟩ := h
  obtain rfl := Option.some.inj hu
  exact (fold _ _ plain).append _

end Utility

namespace Layer

open Candidate (isStart isPart isNamePart HasWord)
open Utility

variable {table : RuleTable} {breakpoints : Breakpoints} {scans : List (List String)}
  {layer : Layer} {breakpoint name selector css query className : String}

/-- What a layer writes in a named bucket stands on a line of the media query of that bucket. -/
theorem Writes.text_query (h : layer.Writes breakpoint selector css) (named : breakpoint ≠ "")
    (configured : layer.breakpoints.lookup breakpoint = some query) :
    ∃ selectors front behind, selector ∈ selectors ∧
      ",".intercalate selectors ++ "\x7b" ++ css ++ "\x7d" ∈ layer.lines breakpoint ∧
      layer.text = front ++
        (query ++ " \x7b" ++ "\n".intercalate (layer.lines breakpoint) ++ "\x7d") ++ behind := by
  obtain ⟨u, hu, rfl, rfl, rfl⟩ := writes_iff.1 h
  have line := block_mem_lines hu
  have bucket : bucketText layer.breakpoints (bucketLines [] layer.blocks) u.breakpoint =
      some (query ++ " \x7b" ++ "\n".intercalate (layer.lines u.breakpoint) ++ "\x7d") := by
    have filled := List.ne_nil_of_mem line
    rw [lines] at filled ⊢
    rw [bucketText, if_neg (by simpa using filled), if_neg (by simpa using named), configured]
    rfl
  obtain ⟨front, behind, text⟩ := Text.exists_intercalate_of_mem "\n"
    (List.mem_filterMap.2 ⟨_, layer.known u hu, bucket⟩)
  refine ⟨selectorsOf layer.utilities u, "@layer utilities\x7b" ++ front, behind ++ "\x7d",
    mem_selectorsOf.2 ⟨u, hu, rfl, rfl⟩, ?_, ?_⟩
  · rw [block, selector_blockOf hu, css_blockOf] at line
    exact line
  · rw [Layer.text_eq, text]
    simp only [String.append_assoc]

/-- What a scan finds begins as a candidate does. -/
theorem exists_start_of_mem_candidates (h : className ∈ candidates scans) :
    ∃ c rest, className.toList = c :: rest ∧ isStart c = true := by
  obtain ⟨sources, -, h⟩ := List.mem_flatMap.1 h
  obtain ⟨source, -, h⟩ := List.mem_flatMap.1 h
  obtain ⟨word, found, rfl⟩ := List.mem_map.1 h
  rw [String.toList_ofList]
  exact Candidate.exists_start_of_mem_scan found

/-- All selectors of a layer begin with a class that begins as a candidate does. -/
theorem Writes.startsAsClass
    (h : (afterScans table breakpoints scans).Writes breakpoint selector css) :
    StartsAsClass selector := by
  obtain ⟨u, hu, -, -, rfl⟩ := writes_iff.1 h
  obtain ⟨className, found, resolved⟩ := mem_afterScans.1 hu
  obtain ⟨c, rest, split, start⟩ := exists_start_of_mem_candidates found
  exact startsAsClass_of_resolve? resolved split start

/-- A class that begins as no candidate does is written for no scan. -/
theorem not_writes_of_not_start {c : Char} {rest : List Char} (split : className.toList = c :: rest)
    (start : isStart c = false) (suffix : String) :
    ¬ (afterScans table breakpoints scans).Writes breakpoint
      ("." ++ Candidate.escape className ++ suffix) css := by
  intro h
  obtain ⟨d, more, there, first⟩ := h.startsAsClass
  obtain ⟨e, after, escaped, same⟩ := Candidate.exists_toList_escape split
  rw [String.toList_append, String.toList_append, escaped] at there
  obtain ⟨-, next⟩ := List.cons.inj there
  obtain ⟨rfl, -⟩ := List.cons.inj next
  exact absurd first (by simp [same, start])

/-- A class under a breakpoint, where both names are made of what may stand in a candidate. If the
breakpoint begins as a candidate may begin, then every source with this word has the class written
in the media query of the breakpoint. If it does not, then no source has the class written. -/
theorem writes_of_hasWord (table : RuleTable) (breakpoints : Breakpoints)
    (configured : breakpoint ∈ breakpoints.map (·.1)) (known : name ∈ table.names)
    (someBreakpoint : breakpoint ≠ "")
    (breakpointParts : breakpoint.toList.all isNamePart = true)
    (nameParts : name.toList.all isNamePart = true) :
    ∃ rule query first rest, table.get? name = some rule ∧
      breakpoints.lookup breakpoint = some query ∧ breakpoint.toList = first :: rest ∧
      let className := breakpoint ++ ":" ++ name
      let selector := "." ++ Candidate.escape className ++ rule.suffix.getD ""
      (isStart first = true → ∀ scans, ∀ sources ∈ scans, ∀ source ∈ sources,
        HasWord source className →
          let layer := afterScans table breakpoints scans
          layer.Writes breakpoint selector rule.css ∧ ∃ selectors front behind,
            selector ∈ selectors ∧
            ",".intercalate selectors ++ "\x7b" ++ rule.css ++ "\x7d" ∈ layer.lines breakpoint ∧
            layer.text = front ++
              (query ++ " \x7b" ++ "\n".intercalate (layer.lines breakpoint) ++ "\x7d") ++
                behind) ∧
      (isStart first = false → ∀ scans, className ∉ candidates scans ∧ ∀ bucket css,
        ¬ (afterScans table breakpoints scans).Writes bucket selector css) := by
  obtain ⟨query, found⟩ : ∃ query, breakpoints.lookup breakpoint = some query :=
    Option.ne_none_iff_exists'.1 fun none => not_mem_names_of_lookup none configured
  obtain ⟨rule, u, got, resolved, rfl, css, selector⟩ := exists_resolve_pair
    (Candidate.colon_not_mem breakpointParts) (Candidate.colon_not_mem nameParts) found known
  obtain ⟨first, rest, split⟩ := List.exists_cons_of_ne_nil
    (mt String.toList_eq_nil_iff.1 someBreakpoint)
  have begins : (u.breakpoint ++ ":" ++ name).toList =
      first :: (rest ++ ":".toList ++ name.toList) := by simp [split]
  refine ⟨rule, query, first, rest, got, found, split, fun start scans sources scanned source
    inside word => ?_, fun start scans => ⟨fun h => ?_, fun bucket css =>
      not_writes_of_not_start begins start _⟩⟩
  · -- The colon may stand in a candidate too, so the word is not cut there.
    have parts : ∀ c ∈ (u.breakpoint ++ ":" ++ name).toList, isPart c = true := by
      intro c hc
      simp only [String.toList_append, List.mem_append] at hc
      rcases hc with (hc | hc) | hc
      · exact Candidate.isPart_of_isNamePart (List.all_eq_true.1 breakpointParts c hc)
      · obtain rfl : c = ':' := by simpa using hc
        decide
      · exact Candidate.isPart_of_isNamePart (List.all_eq_true.1 nameParts c hc)
    have long : 2 ≤ (u.breakpoint ++ ":" ++ name).length := by
      rw [← String.length_toList, begins]
      simp only [List.length_cons, List.length_append, String.reduceToList]
      omega
    have candidate := word.mem_ofSources inside parts
      (by rw [begins]; simpa using start) long
    have written : (afterScans table breakpoints scans).Writes u.breakpoint u.selector u.css :=
      writes_iff.2 ⟨u, mem_afterScans.2
        ⟨_, List.mem_flatMap.2 ⟨sources, scanned, candidate⟩, resolved⟩, rfl, rfl, rfl⟩
    rw [selector, css] at written
    refine ⟨written, written.text_query someBreakpoint ?_⟩
    rw [(collected_afterScans table breakpoints scans).fixed]
    exact found
  · obtain ⟨d, more, there, begun⟩ := exists_start_of_mem_candidates h
    obtain ⟨rfl, -⟩ := List.cons.inj (begins.symm.trans there)
    exact absurd begun (by simp [start])

private def flexible : RuleTable := .ofList [("flex", { css := "display: flex;" })]

private def middle : Breakpoints := [("md", "@media (min-width: 768px)")]

/-- A class between angle brackets, under a breakpoint that begins with a letter. -/
theorem writes_of_hasWord_middle :
    "md" ∈ middle.map (·.1) ∧ "flex" ∈ flexible.names ∧
    "md".toList.all isNamePart = true ∧ "flex".toList.all isNamePart = true ∧
    HasWord "<md:flex>" "md:flex" ∧
    (afterScans flexible middle [["<md:flex>"]]).Writes "md" ".md\\:flex" "display: flex;" := by
  have known : "flex" ∈ flexible.names := by
    rw [flexible, RuleTable.names_ofList]
    decide
  have partsB : "md".toList.all isNamePart = true := by decide
  have partsN : "flex".toList.all isNamePart = true := by decide
  have word : HasWord "<md:flex>" "md:flex" := ⟨['<'], ['>'], by decide, by decide, by decide⟩
  refine ⟨by decide, known, partsB, partsN, word, ?_⟩
  obtain ⟨rule, query, first, rest, got, -, split, written, -⟩ :=
    writes_of_hasWord flexible middle (by decide) known (by decide) partsB partsN
  obtain rfl : first = 'm' := (List.cons.inj split).1.symm
  have same : flexible.get? "flex" = some { css := "display: flex;" } := by
    rw [flexible, RuleTable.ofList]
    simp [RuleTable.get?_put]
  obtain rfl := Option.some.inj (got.symm.trans same)
  have selector : "." ++ Candidate.escape ("md" ++ ":" ++ "flex") ++ "" = ".md\\:flex" := by decide
  rw [← selector]
  exact (written (by decide) [["<md:flex>"]] ["<md:flex>"] List.mem_cons_self "<md:flex>"
    List.mem_cons_self word).1

/-- Of the built-in breakpoints the widest begins with a digit. No class is ever written for its
word, although the rule is in the table. -/
theorem not_writes_widest : ∃ theme table, Theme.compile .null = .ok theme ∧
    theme.rules = .ok table ∧ "2xl" ∈ theme.breakpoint.map (·.1) ∧ "flex" ∈ table.names ∧
    "2xl".toList.all isNamePart = true ∧ "flex".toList.all isNamePart = true ∧
    HasWord " 2xl:flex " "2xl:flex" ∧ ∀ bucket css suffix,
      ¬ (afterScans table theme.breakpoint [[" 2xl:flex "]]).Writes bucket
        (".2xl\\:flex" ++ suffix) css := by
  obtain ⟨theme, compiled, facts⟩ := exists_ok_of_any (x := Theme.compile .null) (p := fun theme =>
    (theme.breakpoint.map (·.1)).contains "2xl" && theme.entries.toOption.isSome)
    (by decide +kernel)
  obtain ⟨configured, generated⟩ := Bool.and_eq_true _ _ ▸ facts
  obtain ⟨entries, some⟩ := Option.isSome_iff_exists.1 generated
  have built := eq_ok_of_toOption some
  refine ⟨theme, .ofList entries, compiled, ?_, by simpa using configured, ?_, by decide,
    by decide, ⟨[' '], [' '], by decide, by decide, by decide⟩, fun bucket css suffix => ?_⟩
  · rw [Theme.rules, built]
    rfl
  · obtain ⟨_, _, _, _, rfl⟩ := Rule.entries_eq built
    rw [RuleTable.names_ofList, List.map_append]
    refine RuleTable.subset_addNames _ _ (List.mem_append_left _ ?_)
    decide +kernel
  · have selector : "." ++ Candidate.escape "2xl:flex" = ".2xl\\:flex" := by decide
    have split : "2xl:flex".toList = '2' :: "xl:flex".toList := by decide
    rw [← selector]
    exact not_writes_of_not_start split (by decide) suffix

end Layer

end UtilityCss
