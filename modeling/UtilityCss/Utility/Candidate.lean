/-! Class candidates: the words of a source that look like class names. -/
namespace UtilityCss.Candidate

/-- A character that may begin a candidate. -/
def isStart (c : Char) : Bool := ('a' ≤ c && c ≤ 'z') || c == '-'

/-- A character that may stand in a candidate. -/
def isPart (c : Char) : Bool :=
  isStart c || ('0' ≤ c && c ≤ '9') || c == ':' || c == '/' || c == '.'

/-- Reads on with the reversed candidate begun so far, if any. One character alone is none. -/
private def scanFrom : (begun : List Char) → List Char → List (List Char)
  | begun, [] => if begun.length < 2 then [] else [begun.reverse]
  | [], c :: rest => scanFrom (if isStart c then [c] else []) rest
  | b :: begun, c :: rest =>
    if isPart c then scanFrom (c :: b :: begun) rest
    else if begun.isEmpty then scanFrom [] rest
    else (b :: begun).reverse :: scanFrom [] rest

/-- The candidates of a text in order. -/
def scan (source : List Char) : List (List Char) := scanFrom [] source

/-- The candidates of some sources in order. -/
def ofSources (sources : List String) : List String :=
  sources.flatMap fun source => (scan source.toList).map String.ofList

/-- A class name as it stands in a selector: colons, slashes and dots follow a backslash. -/
def escape (className : String) : String :=
  String.ofList <| className.toList.flatMap fun c =>
    if c = ':' || c = '/' || c = '.' then ['\\', c] else [c]

theorem isPart_of_isStart {c : Char} (h : isStart c = true) : isPart c = true := by
  simp [isPart, h]

theorem isStart_eq_false {c : Char} (h : isPart c = false) : isStart c = false :=
  Bool.eq_false_iff.2 fun start => by simp [isPart_of_isStart start] at h

theorem mem_escape {name : String} {c : Char} (h : c ∈ (escape name).toList) :
    c = '\\' ∨ c ∈ name.toList := by
  rw [escape, String.toList_ofList, List.mem_flatMap] at h
  obtain ⟨d, member, inside⟩ := h
  split at inside
  · rcases List.mem_cons.1 inside with backslash | same
    · exact .inl backslash
    · exact .inr (List.mem_singleton.1 same ▸ member)
  · exact .inr (List.mem_singleton.1 inside ▸ member)

/-- What is no part of a candidate ends the one before it. -/
private theorem scanFrom_append {c : Char} (h : isPart c = false) (begun a b : List Char) :
    scanFrom begun (a ++ c :: b) = scanFrom begun a ++ scanFrom [] b := by
  induction a generalizing begun with
  | nil =>
    cases begun with
    | nil => simp [scanFrom, isStart_eq_false h]
    | cons d begun =>
      rw [List.nil_append, scanFrom, scanFrom, if_neg (by simp [h])]
      cases begun with
      | nil => simp
      | cons e more => simp [Nat.not_lt.2 (Nat.le_add_left 2 more.length)]
  | cons d rest ih =>
    cases begun with
    | nil =>
      rw [List.cons_append, scanFrom, scanFrom]
      exact ih _
    | cons e begun =>
      rw [List.cons_append, scanFrom, scanFrom]
      split
      · exact ih _
      · split
        · exact ih []
        · rw [ih [], List.cons_append]

theorem scan_append {c : Char} (h : isPart c = false) (a b : List Char) :
    scan (a ++ c :: b) = scan a ++ scan b :=
  scanFrom_append h [] a b

/-- A candidate begins with a start only. -/
theorem scan_cons_of_not_start {c : Char} (h : isStart c = false) (rest : List Char) :
    scan (c :: rest) = scan rest := by
  rw [scan, scanFrom, if_neg (by simp [h])]
  rfl

private theorem scanFrom_parts {run : List Char} (parts : ∀ c ∈ run, isPart c = true)
    {begun : List Char} (some : begun ≠ []) :
    scanFrom begun run =
      if (begun.reverse ++ run).length < 2 then [] else [begun.reverse ++ run] := by
  induction run generalizing begun with
  | nil => simp [scanFrom]
  | cons c rest ih =>
    obtain ⟨d, more, rfl⟩ := List.exists_cons_of_ne_nil some
    rw [scanFrom, if_pos (parts c List.mem_cons_self),
      ih (fun e he => parts e (List.mem_cons_of_mem _ he)) (List.cons_ne_nil _ _)]
    simp

/-- A run of parts is a candidate from its first start on, if that is not its last character. -/
theorem scan_parts {run : List Char} (parts : ∀ c ∈ run, isPart c = true) :
    scan run =
      let word := run.dropWhile (!isStart ·)
      if word.length < 2 then [] else [word] := by
  induction run with
  | nil => rfl
  | cons c rest ih =>
    have more : ∀ d ∈ rest, isPart d = true := fun d hd => parts d (List.mem_cons_of_mem _ hd)
    rw [scan, scanFrom]
    cases first : isStart c with
    | false =>
      rw [List.dropWhile_cons_of_pos (by simp [first])]
      exact ih more
    | true =>
      rw [List.dropWhile_cons_of_neg (by simp [first])]
      exact scanFrom_parts more (List.cons_ne_nil _ _)

private theorem exists_start_of_mem_scanFrom {begun s word : List Char}
    (first : ∀ c ∈ begun.getLast?, isStart c = true) (h : word ∈ scanFrom begun s) :
    ∃ c rest, word = c :: rest ∧ isStart c = true := by
  have reversed {begun : List Char} (ne : begun ≠ [])
      (first : ∀ c ∈ begun.getLast?, isStart c = true) :
      ∃ c rest, begun.reverse = c :: rest ∧ isStart c = true := by
    obtain ⟨front, c, rfl⟩ := List.eq_nil_or_concat begun |>.resolve_left ne
    exact ⟨c, front.reverse, by simp, first c (by simp)⟩
  induction s generalizing begun with
  | nil =>
    rw [scanFrom] at h
    split at h
    · cases h
    · next long =>
      obtain rfl := List.mem_singleton.1 h
      exact reversed (by rintro rfl; simp at long) first
  | cons c rest ih =>
    cases begun with
    | nil =>
      rw [scanFrom] at h
      refine ih (fun d hd => ?_) h
      split at hd
      · next start => simpa using (by simpa using hd : c = d) ▸ start
      · cases hd
    | cons d more =>
      rw [scanFrom] at h
      split at h
      · exact ih (by simpa using first) h
      · split at h
        · exact ih (by simp) h
        · rcases List.mem_cons.1 h with rfl | h
          · exact reversed (List.cons_ne_nil _ _) first
          · exact ih (by simp) h

/-- A candidate begins as one may begin. -/
theorem exists_start_of_mem_scan {s word : List Char} (h : word ∈ scan s) :
    ∃ c rest, word = c :: rest ∧ isStart c = true :=
  exists_start_of_mem_scanFrom (by simp) h

end UtilityCss.Candidate
