import UtilityCss.Utility.Candidate

/-! Candidates are read off the maximal runs of the characters that may stand in one: a run gives
what stands from its first start on, unless that is one character alone. This is what the longest
matches of the pattern of candidates give, taken from left to right. -/
namespace UtilityCss.Candidate

variable {s front gap run word behind : List Char} {found words : List (List Char)}

/-- The runs are all the maximal runs of parts in a text, in order. -/
inductive MaximalRuns : (s : List Char) → (found : List (List Char)) → Prop
  | nil {gap : List Char} (outside : ∀ c ∈ gap, isPart c = false) : MaximalRuns gap []
  | cons (gap run behind : List Char) {found : List (List Char)}
      (outside : ∀ c ∈ gap, isPart c = false) (some : run ≠ []) (parts : ∀ c ∈ run, isPart c = true)
      (ends : behind.head?.any isPart = false) (more : MaximalRuns behind found) :
      MaximalRuns (gap ++ run ++ behind) (run :: found)

/-- The runs of parts: the pieces between the other characters, as far as there is anything. -/
def runs (s : List Char) : List (List Char) := (s.splitOnP (!isPart ·)).filter (!·.isEmpty)

/-- What a run gives. -/
def word? (run : List Char) : Option (List Char) :=
  let word := run.dropWhile (!isStart ·)
  if word.length < 2 then none else some word

/-- The pattern of candidates matches: a start with one part or more behind it. -/
def IsMatch (word : List Char) : Prop :=
  ∃ c rest, word = c :: rest ∧ isStart c = true ∧ rest ≠ [] ∧ ∀ d ∈ rest, isPart d = true

/-- The words are matched from left to right, each as long as can be, where the last one ended. -/
inductive LongestMatches : (s : List Char) → (words : List (List Char)) → Prop
  | nil : LongestMatches [] []
  | skip {c : Char} {rest : List Char} {words : List (List Char)}
      (no : ∀ word, word <+: c :: rest → ¬ IsMatch word) (more : LongestMatches rest words) :
      LongestMatches (c :: rest) words
  | take {word behind : List Char} {words : List (List Char)} (matched : IsMatch word)
      (longest : ∀ other, other <+: word ++ behind → IsMatch other → other.length ≤ word.length)
      (more : LongestMatches behind words) : LongestMatches (word ++ behind) (word :: words)

@[simp] theorem scan_nil : scan [] = [] := rfl

/-- What is no part of a candidate gives nothing. -/
theorem scan_gap (outside : ∀ c ∈ gap, isPart c = false) (behind : List Char) :
    scan (gap ++ behind) = scan behind := by
  induction gap with
  | nil => rfl
  | cons c rest ih =>
    obtain ⟨here, later⟩ := List.forall_mem_cons.1 outside
    rw [List.cons_append, scan_cons_of_not_start (isStart_eq_false here), ih later]

/-- No candidate goes over the end of a run. -/
theorem scan_ended (ends : behind.head?.any isPart = false) (front : List Char) :
    scan (front ++ behind) = scan front ++ scan behind := by
  cases behind with
  | nil => rw [scan_nil, List.append_nil, List.append_nil]
  | cons c rest =>
    have outside : isPart c = false := by simpa using ends
    rw [scan_append outside, scan_cons_of_not_start (isStart_eq_false outside)]

theorem scan_run (parts : ∀ c ∈ run, isPart c = true) : scan run = (word? run).toList := by
  rw [scan_parts parts, word?]
  dsimp only
  split <;> rfl

theorem MaximalRuns.scan_eq {s : List Char} {found : List (List Char)} (h : MaximalRuns s found) :
    scan s = found.filterMap word? := by
  induction h with
  | nil outside => simpa using scan_gap outside []
  | @cons gap run behind found outside _ parts ends _ ih =>
    rw [List.append_assoc, scan_gap outside, scan_ended ends, scan_run parts, ih]
    cases written : word? run <;> simp [written]

theorem runs_gap (outside : ∀ c ∈ gap, isPart c = false) (behind : List Char) :
    runs (gap ++ behind) = runs behind := by
  induction gap with
  | nil => rfl
  | cons c rest ih =>
    obtain ⟨here, later⟩ := List.forall_mem_cons.1 outside
    rw [← ih later, runs, List.cons_append, List.splitOnP_cons_eq_if_modifyHead]
    simp [here, runs]

theorem runs_append (some : run ≠ []) (parts : ∀ c ∈ run, isPart c = true)
    (ends : behind.head?.any isPart = false) : runs (run ++ behind) = run :: runs behind := by
  have inside : ∀ c ∈ run, (!isPart c) = false := fun c hc => by simp [parts c hc]
  cases behind with
  | nil =>
    rw [List.append_nil, runs, List.splitOnP_eq_singleton inside]
    simp [some, runs]
  | cons c rest =>
    have outside : isPart c = false := by simpa using ends
    rw [runs, List.splitOnP_append_cons_of_forall_mem inside c (by simp [outside])]
    have later : runs ([c] ++ rest) = runs rest := runs_gap (by simpa using outside) rest
    rw [List.singleton_append] at later
    rw [later, List.filter_cons_of_pos (by simpa using some), runs]

theorem MaximalRuns.eq_runs {s : List Char} {found : List (List Char)} (h : MaximalRuns s found) :
    found = runs s := by
  induction h with
  | @nil gap outside => simpa [runs] using (runs_gap outside []).symm
  | cons _ _ _ outside some parts ends _ ih =>
    rw [List.append_assoc, runs_gap outside, runs_append some parts ends, ih]

/-- Every text has its runs: one more character in front widens the first gap or the first run, or
is a run of its own. -/
theorem exists_maximalRuns (s : List Char) : ∃ found, MaximalRuns s found := by
  induction s with
  | nil => exact ⟨[], .nil (List.forall_mem_nil _)⟩
  | cons c rest ih =>
    obtain ⟨found, h⟩ := ih
    cases part : isPart c with
    | false =>
      cases h with
      | nil outside => exact ⟨[], .nil (List.forall_mem_cons.2 ⟨part, outside⟩)⟩
      | @cons gap run behind found outside some parts ends more =>
        exact ⟨run :: found, .cons (c :: gap) run behind
          (List.forall_mem_cons.2 ⟨part, outside⟩) some parts ends more⟩
    | true =>
      have alone (ends : rest.head?.any isPart = false) : ∃ found, MaximalRuns (c :: rest) found :=
        ⟨[c] :: found, .cons [] [c] rest (List.forall_mem_nil _)
          (List.cons_ne_nil _ _) (by simpa using part) ends h⟩
      cases h with
      | nil outside => exact alone (by cases rest <;> simp_all)
      | @cons gap run behind found outside some parts ends more =>
        cases gap with
        | nil => exact ⟨(c :: run) :: found, .cons [] (c :: run) behind
            (List.forall_mem_nil _) (List.cons_ne_nil _ _)
            (List.forall_mem_cons.2 ⟨part, parts⟩) ends more⟩
        | cons d gap => exact alone (by simpa using outside d List.mem_cons_self)

theorem maximalRuns_iff : MaximalRuns s found ↔ found = runs s := by
  constructor
  · exact MaximalRuns.eq_runs
  · rintro rfl
    obtain ⟨found, h⟩ := exists_maximalRuns s
    exact h.eq_runs ▸ h

/-- The candidates of a text are what its runs give. -/
theorem scan_eq_runs (s : List Char) : scan s = (runs s).filterMap word? :=
  (maximalRuns_iff.2 rfl).scan_eq

/-- A word between characters that are no parts is found at its place. -/
theorem scan_word (parts : ∀ c ∈ word, isPart c = true) (first : ∀ c ∈ word.head?, isStart c = true)
    (long : 2 ≤ word.length) (before : front.getLast?.any isPart = false)
    (after : behind.head?.any isPart = false) :
    scan (front ++ word ++ behind) = scan front ++ word :: scan behind := by
  have alone : scan word = [word] := by
    obtain ⟨c, rest, rfl⟩ := List.exists_cons_of_length_pos (Nat.lt_of_lt_of_le Nat.two_pos long)
    have whole : (c :: rest).dropWhile (!isStart ·) = c :: rest :=
      List.dropWhile_cons_of_neg (by simp [first c rfl])
    rw [scan_parts parts, whole]
    exact if_neg (Nat.not_lt.2 long)
  rw [scan_ended after]
  rcases List.eq_nil_or_concat front with rfl | ⟨rest, c, rfl⟩
  · simp [alone]
  · have outside : isPart c = false := by simpa using before
    rw [List.concat_eq_append, List.append_assoc, List.singleton_append, scan_append outside,
      scan_append outside, alone]
    simp

theorem IsMatch.parts (h : IsMatch word) : ∀ c ∈ word, isPart c = true := by
  obtain ⟨c, rest, rfl, start, -, parts⟩ := h
  exact List.forall_mem_cons.2 ⟨isPart_of_isStart start, parts⟩

theorem IsMatch.longer (h : IsMatch word) {c : Char} (part : isPart c = true) :
    IsMatch (word ++ [c]) := by
  obtain ⟨d, rest, rfl, start, -, parts⟩ := h
  refine ⟨d, rest ++ [c], rfl, start, by simp, fun e he => ?_⟩
  rcases List.mem_append.1 he with he | he
  · exact parts e he
  · rwa [List.mem_singleton.1 he]

/-- The longest match ends with the run. -/
theorem IsMatch.ends_of_longest (h : IsMatch word)
    (longest : ∀ other, other <+: word ++ behind → IsMatch other → other.length ≤ word.length) :
    behind.head?.any isPart = false := by
  cases behind with
  | nil => rfl
  | cons c rest =>
    refine Bool.eq_false_iff.2 fun part => ?_
    have more := longest (word ++ [c]) ⟨rest, by simp⟩ (h.longer part)
    rw [List.length_append] at more
    exact absurd more (Nat.not_succ_le_self _)

/-- No match goes over the end of a run. -/
theorem IsMatch.length_le_of_ends (h : IsMatch word) (ends : behind.head?.any isPart = false)
    (begins : word <+: run ++ behind) : word.length ≤ run.length := by
  rcases List.prefix_or_prefix_of_prefix begins (List.prefix_append run behind) with within | beyond
  · exact within.length_le
  · obtain ⟨more, rfl⟩ := beyond
    cases more with
    | nil => simp
    | cons c more =>
      obtain ⟨rest, rfl⟩ := (List.prefix_append_right_inj run).1 begins
      have part : isPart c = true := h.parts c (by simp)
      simp [part] at ends

theorem LongestMatches.eq_scan (h : LongestMatches s words) : words = scan s := by
  induction h with
  | nil => rfl
  | @skip c rest words no _ ih =>
    rw [ih]
    cases start : isStart c with
    | false => exact (scan_cons_of_not_start start rest).symm
    | true =>
      have ends : rest.head?.any isPart = false := by
        refine Bool.eq_false_iff.2 fun part => ?_
        obtain ⟨d, more, rfl⟩ : ∃ d more, rest = d :: more := by cases rest <;> simp_all
        exact no [c, d] ⟨more, rfl⟩ ⟨c, [d], rfl, start, by simp, by simpa using part⟩
      have alone : scan [c] = [] := by
        rw [scan_parts (by simpa using isPart_of_isStart start)]
        simp [start]
      have apart := scan_ended ends [c]
      rw [alone] at apart
      exact apart.symm
  | @take word behind words matched longest _ ih =>
    obtain ⟨c, rest, rfl, start, some, parts⟩ := id matched
    have found : scan ([] ++ (c :: rest) ++ behind) = scan [] ++ (c :: rest) :: scan behind :=
      scan_word matched.parts (by simpa using start) (by cases rest <;> simp_all) rfl
        (matched.ends_of_longest longest)
    rw [List.nil_append] at found
    rw [found, ih]
    rfl

/-- Every match can be read on to the end of its run. -/
theorem IsMatch.exists_ends (h : IsMatch word) (behind : List Char) :
    ∃ whole rest, word ++ behind = whole ++ rest ∧ IsMatch whole ∧
      rest.head?.any isPart = false := by
  induction behind generalizing word with
  | nil => exact ⟨word, [], rfl, h, rfl⟩
  | cons c rest ih =>
    cases part : isPart c with
    | false => exact ⟨word, c :: rest, rfl, h, part⟩
    | true => simpa using ih (h.longer part)

/-- Every text can be matched to its end. -/
theorem exists_longestMatches (s : List Char) : ∃ words, LongestMatches s words := by
  induction n : s.length using Nat.strongRecOn generalizing s with
  | ind n ih =>
    subst n
    by_cases matched : ∃ word, word <+: s ∧ IsMatch word
    · obtain ⟨word, ⟨behind, rfl⟩, begun⟩ := matched
      obtain ⟨whole, rest, split, longest, ends⟩ := begun.exists_ends behind
      have shorter : rest.length < (word ++ behind).length := by
        obtain ⟨c, parts, rfl, -⟩ := longest
        rw [split, List.length_append]
        exact Nat.lt_add_of_pos_left (Nat.succ_pos _)
      obtain ⟨words, more⟩ := ih _ shorter rest rfl
      rw [split]
      exact ⟨whole :: words,
        .take longest (fun _ begins h => h.length_le_of_ends ends begins) more⟩
    · cases s with
      | nil => exact ⟨[], .nil⟩
      | cons c rest =>
        obtain ⟨words, more⟩ := ih rest.length (Nat.lt_succ_self _) rest rfl
        exact ⟨words, .skip (fun word begins h => matched ⟨word, begins, h⟩) more⟩

theorem longestMatches_iff : LongestMatches s words ↔ words = scan s := by
  constructor
  · exact LongestMatches.eq_scan
  · rintro rfl
    obtain ⟨words, h⟩ := exists_longestMatches s
    exact h.eq_scan ▸ h

theorem ofSources_append (sources more : List String) :
    ofSources (sources ++ more) = ofSources sources ++ ofSources more :=
  List.flatMap_append

theorem ofSources_singleton (source : String) :
    ofSources [source] = (scan source.toList).map String.ofList :=
  List.flatMap_singleton _ _

/-- The candidates of some sources are what the maximal runs of each source give, in order. They are
the longest matches of the pattern from left to right, and a word between characters that are no
parts is among them as a whole. -/
theorem ofSources_eq_runs :
    (∀ sources, ofSources sources = sources.flatMap fun source =>
      ((runs source.toList).filterMap word?).map String.ofList) ∧
    (∀ s found, MaximalRuns s found ↔ found = runs s) ∧
    (∀ s words, LongestMatches s words ↔ words = scan s) ∧
    (∀ sources more, ofSources (sources ++ more) = ofSources sources ++ ofSources more) ∧
    ∀ front word behind : String, (∀ c ∈ word.toList, isPart c = true) →
      (∀ c ∈ word.toList.head?, isStart c = true) → 2 ≤ word.length →
      front.toList.getLast?.any isPart = false → behind.toList.head?.any isPart = false →
        ofSources [front ++ word ++ behind] =
          ofSources [front] ++ word :: ofSources [behind] := by
  refine ⟨fun sources => ?_, fun _ _ => maximalRuns_iff, fun _ _ => longestMatches_iff,
    ofSources_append, fun front word behind parts first long before after => ?_⟩
  · simp only [ofSources, scan_eq_runs]
  · have found := scan_word parts first (String.length_toList ▸ long) before after
    simp only [ofSources_singleton, String.toList_append, found, List.map_append, List.map_cons,
      String.ofList_toList]

/-- A class with a modifier between quotation marks. -/
theorem ofSources_eq_runs_quoted :
    (∀ c ∈ "md:p-4".toList, isPart c = true) ∧ (∀ c ∈ "md:p-4".toList.head?, isStart c = true) ∧
    2 ≤ "md:p-4".length ∧ "<p class='".toList.getLast?.any isPart = false ∧
    "'>".toList.head?.any isPart = false ∧
    ofSources ["<p class='" ++ "md:p-4" ++ "'>"] = ["class", "md:p-4"] := by
  have parts : ∀ c ∈ "md:p-4".toList, isPart c = true := List.all_eq_true.1 (by decide)
  have first : ∀ c ∈ "md:p-4".toList.head?, isStart c = true := by
    rintro c ⟨⟩
    decide
  have long : 2 ≤ "md:p-4".length := by decide
  have before : "<p class='".toList.getLast?.any isPart = false := by decide
  have after : "'>".toList.head?.any isPart = false := by decide
  refine ⟨parts, first, long, before, after, ?_⟩
  obtain ⟨-, -, -, -, found⟩ := ofSources_eq_runs
  rw [found "<p class='" "md:p-4" "'>" parts first long before after]
  decide

/-- A run may begin with characters that begin no candidate, and leave one character alone. -/
example : ofSources ["<2xl:flex> a 1b :p-4"] = ["xl:flex", "p-4"] := by decide

end UtilityCss.Candidate
