import UtilityCss.Files.Path
import UtilityCss.Proofs.Text.Split

/-! Normal paths: their texts, and the places below the root that they stand for. -/
namespace UtilityCss

/-- A name of a file or of a directory, as it can stand between slashes. -/
structure IsName (name : String) : Prop where
  ne_empty : name ≠ ""
  ne_dot : name ≠ "."
  ne_up : name ≠ ".."
  no_slash : '/' ∉ name.toList

namespace Path

/-- Only names stand behind the steps to the parent, and the root has no such steps. -/
structure Normal (p : Path) : Prop where
  names : ∀ name ∈ p.names, IsName name
  ups : p.anchor = .here ∨ p.ups = 0

variable {p : Path} {component : String}

theorem Normal.push (h : p.Normal) (noSlash : '/' ∉ component.toList) :
    (p.push component).Normal := by
  rw [Path.push]
  split
  · exact h
  · next solid =>
    split
    · split
      · split
        · next here => exact ⟨h.names, .inl here⟩
        · exact h
      · exact ⟨fun name hn => h.names name (List.dropLast_subset _ hn), h.ups⟩
    · next notUp =>
      have proper : IsName component := by
        simp only [Bool.or_eq_true, decide_eq_true_eq, not_or] at solid
        exact ⟨solid.1, solid.2, notUp, noSlash⟩
      refine ⟨fun name hn => ?_, h.ups⟩
      rcases List.mem_append.1 hn with old | new
      · exact h.names name old
      · rw [List.mem_singleton.1 new]
        exact proper

private theorem Normal.foldl_push (h : p.Normal) {components : List String}
    (noSlash : ∀ c ∈ components, '/' ∉ c.toList) : (components.foldl Path.push p).Normal := by
  induction components generalizing p with
  | nil => exact h
  | cons c rest ih =>
    exact ih (h.push (noSlash c List.mem_cons_self)) fun d hd =>
      noSlash d (List.mem_cons_of_mem _ hd)

theorem Normal.pushAll (h : p.Normal) (s : String) : (p.pushAll s).Normal :=
  h.foldl_push fun _ hc => Text.not_mem_of_mem_fields hc

theorem normal_ofText (s : String) : (ofText s).Normal :=
  Normal.pushAll ⟨by simp, .inr rfl⟩ s

theorem Normal.parent (h : p.Normal) : p.parent.Normal := by
  rw [Path.parent]
  split
  · exact ⟨h.names, h.ups.imp_right fun zero => by simp [zero]⟩
  · exact ⟨fun name hn => h.names name (List.dropLast_subset _ hn), h.ups⟩

theorem Normal.beside (h : p.Normal) (s : String) : (p.beside s).Normal := by
  rw [Path.beside]
  split
  · exact normal_ofText s
  · exact h.parent.pushAll s

/-- The place one component further; the root is its own parent. -/
def climb (place : List String) (component : String) : List String :=
  if component = "" || component = "." then place
  else if component = ".." then place.dropLast
  else place ++ [component]

/-- Where a text starts from. -/
def startOf (home : List String) (s : String) : List String :=
  if s.toList.head? = some '/' then [] else home

/-- The place that a text names, as far as its components say. -/
def placeIn (home : List String) (s : String) : List String :=
  (Text.fields '/' s).foldl climb (startOf home s)

theorem push_absolute {anchor : Anchor} (h : anchor ≠ .here) (place : List String)
    (component : String) :
    push ⟨anchor, 0, place⟩ component = ⟨anchor, 0, climb place component⟩ := by
  unfold push climb
  split
  · rfl
  · split
    · cases place with
      | nil => simp
      | cons name rest => simp
    · rfl

private theorem foldl_push_absolute {anchor : Anchor} (h : anchor ≠ .here) (place : List String)
    (components : List String) :
    components.foldl push ⟨anchor, 0, place⟩ = ⟨anchor, 0, components.foldl climb place⟩ := by
  induction components generalizing place with
  | nil => rfl
  | cons c rest ih => rw [List.foldl_cons, push_absolute h, ih, List.foldl_cons]

private theorem anchorOf_ne_here {s : List Char} (h : s.head? = some '/') : anchorOf s ≠ .here := by
  cases s with
  | nil => cases h
  | cons c rest =>
    obtain rfl : c = '/' := by simpa using h
    rw [anchorOf, List.takeWhile_cons]
    cases rest.takeWhile (· == '/') with
    | nil => simp
    | cons d more => cases more <;> simp

private theorem anchorOf_eq_here {s : List Char} (h : s.head? ≠ some '/') : anchorOf s = .here := by
  cases s with
  | nil => rfl
  | cons c rest =>
    have other : (c == '/') = false := by simpa using h
    rw [anchorOf, List.takeWhile_cons, other]
    rfl

theorem startOf_eq (home : List String) (s : String) :
    startOf home s = if anchorOf s.toList = .here then home else [] := by
  rw [startOf]
  split
  · next slash => rw [if_neg (anchorOf_ne_here slash)]
  · next noSlash => rw [if_pos (anchorOf_eq_here noSlash)]

/-- The names of an absolute path are those of its place. -/
theorem names_absolute (home : List String) (s : String) :
    (absolute home s).names = placeIn home s := by
  unfold absolute placeIn startOf
  split
  · next slash => rw [ofText, pushAll, foldl_push_absolute (anchorOf_ne_here slash)]
  · rw [pushAll, foldl_push_absolute (by simp)]

theorem climb_name {name : String} (h : IsName name) (place : List String) :
    climb place name = place ++ [name] := by
  simp [climb, h.ne_empty, h.ne_dot, h.ne_up]

theorem foldl_climb_names {names : List String} (h : ∀ name ∈ names, IsName name)
    (place : List String) : names.foldl climb place = place ++ names := by
  induction names generalizing place with
  | nil => simp
  | cons name rest ih =>
    rw [List.foldl_cons, climb_name (h name List.mem_cons_self),
      ih fun n hn => h n (List.mem_cons_of_mem _ hn)]
    simp

private theorem foldl_climb_ups (home : List String) (ups : Nat) :
    (List.replicate ups "..").foldl climb home = home.take (home.length - ups) := by
  induction ups generalizing home with
  | zero => simp
  | succ ups ih =>
    have up : climb home ".." = home.dropLast := by simp [climb]
    rw [List.replicate_succ, List.foldl_cons, up, ih, List.dropLast_eq_take, List.take_take]
    congr 1
    rw [List.length_take]
    omega

/-- The place of a normal path. -/
def place (home : List String) (p : Path) : List String :=
  match p.anchor with
  | .here => home.take (home.length - p.ups) ++ p.names
  | .root | .doubleRoot => p.names

/-- The components of a path that starts at the working directory. -/
def steps (p : Path) : List String := List.replicate p.ups ".." ++ p.names

/-- No step is lost between slashes. -/
def Plain (p : Path) : Prop := ∀ c ∈ p.steps, c ≠ "" ∧ '/' ∉ c.toList

theorem Normal.plain (h : p.Normal) : p.Plain := by
  intro c hc
  rcases List.mem_append.1 hc with up | name
  · rw [List.eq_of_mem_replicate up]
    decide
  · exact ⟨(h.names c name).ne_empty, (h.names c name).no_slash⟩

private theorem head_intercalate {c : String} {rest : List String} (ne : c ≠ "")
    (noSlash : '/' ∉ c.toList) :
    ("/".intercalate (c :: rest)).toList.head? ≠ some '/' := by
  have whole : ∃ more, "/".intercalate (c :: rest) = c ++ more := by
    cases rest with
    | nil => exact ⟨"", by simp⟩
    | cons next more => exact ⟨"/" ++ "/".intercalate (next :: more), by
        rw [String.intercalate_cons_cons, String.append_assoc]⟩
  obtain ⟨more, whole⟩ := whole
  rw [whole, String.toList_append]
  cases hc : c.toList with
  | nil => exact absurd (String.toList_eq_nil_iff.1 hc) ne
  | cons d tail =>
    rintro same
    obtain rfl : d = '/' := by simpa using same
    exact noSlash (hc ▸ List.mem_cons_self)

private theorem text_here (here : p.anchor = .here) :
    p.text = if p.steps = [] then "." else "/".intercalate p.steps := by
  cases hs : p.steps with
  | nil =>
    have none : List.replicate p.ups ".." ++ p.names = [] := hs
    simp [text, here, none]
  | cons c rest =>
    have steps : List.replicate p.ups ".." ++ p.names = c :: rest := hs
    simp [text, here, steps, Anchor.text]

private theorem text_absolute (absolute : p.anchor ≠ .here) :
    p.text = Anchor.text p.anchor ++ "/".intercalate p.steps := by
  simp [text, absolute, steps]

/-- A text starts with a slash when its path does. -/
theorem Plain.startOf_text (h : p.Plain) (home : List String) :
    startOf home p.text = if p.anchor = .here then home else [] := by
  rw [startOf]
  split
  · next slash =>
    rw [if_neg]
    intro here
    rw [text_here here] at slash
    cases hs : p.steps with
    | nil =>
      rw [hs, if_pos rfl] at slash
      revert slash
      decide
    | cons c rest =>
      have first : c ∈ p.steps := hs ▸ List.mem_cons_self
      rw [hs, if_neg (List.cons_ne_nil _ _)] at slash
      exact head_intercalate (h c first).1 (h c first).2 slash
  · next noSlash =>
    rw [if_pos]
    apply Decidable.byContradiction
    intro absolute
    rw [text_absolute absolute, String.toList_append] at noSlash
    cases anchor : p.anchor with
    | here => exact absolute anchor
    | root => exact noSlash (by simp [anchor, Anchor.text])
    | doubleRoot => exact noSlash (by simp [anchor, Anchor.text])

private theorem Plain.fields_steps (h : p.Plain) :
    ∃ blanks, (∀ c ∈ blanks, c = "" ∨ c = ".") ∧
      Text.fields '/' ("/".intercalate p.steps) = blanks ++ p.steps := by
  cases hs : p.steps with
  | nil => exact ⟨[""], by simp, by decide⟩
  | cons c rest =>
    refine ⟨[], by simp, ?_⟩
    rw [← hs]
    exact @Text.fields_intercalate '/' _ (fun d hd => (h d hd).2) (by simp [hs])

/-- The components of the text of a path are its steps, behind some that lead nowhere. -/
theorem Plain.fields_text (h : p.Plain) :
    ∃ blanks, (∀ c ∈ blanks, c = "" ∨ c = ".") ∧
      Text.fields '/' p.text = blanks ++ p.steps := by
  by_cases here : p.anchor = .here
  · rw [text_here here]
    split
    · next none => exact ⟨["."], by simp, by rw [none]; decide⟩
    · exact h.fields_steps
  · obtain ⟨blanks, blank, split⟩ := h.fields_steps
    have one (s : String) : Text.fields '/' ("/" ++ s) = "" :: Text.fields '/' s :=
      @Text.fields_append '/' "" s
    rw [text_absolute here]
    cases anchor : p.anchor with
    | here => exact absurd anchor here
    | root =>
      refine ⟨"" :: blanks, by simpa using blank, ?_⟩
      rw [show Anchor.text .root = "/" from rfl, one, split, List.cons_append]
    | doubleRoot =>
      refine ⟨"" :: "" :: blanks, by simpa using blank, ?_⟩
      have two : Anchor.text .doubleRoot = "/" ++ "/" := by decide
      rw [two, String.append_assoc, one, one, split, List.cons_append, List.cons_append]

private theorem Plain.anchorOf_text (h : p.Plain) : anchorOf p.text.toList = p.anchor := by
  have rest : ("/".intercalate p.steps).toList.head? ≠ some '/' := by
    cases hs : p.steps with
    | nil => simp
    | cons c more =>
      have first : c ∈ p.steps := hs ▸ List.mem_cons_self
      exact head_intercalate (h c first).1 (h c first).2
  have behind (slashes : List Char) (all : ∀ c ∈ slashes, c = '/') :
      (slashes ++ ("/".intercalate p.steps).toList).takeWhile (· == '/') = slashes := by
    rw [List.takeWhile_append_of_pos fun c hc => by simp [all c hc]]
    cases hs : ("/".intercalate p.steps).toList with
    | nil => simp
    | cons c more =>
      have other : (c == '/') = false := by simpa [hs] using rest
      rw [List.takeWhile_cons, other]
      simp
  cases anchor : p.anchor with
  | here =>
    apply anchorOf_eq_here
    intro slash
    have start := h.startOf_text [""]
    rw [startOf, if_pos slash, if_pos anchor] at start
    cases start
  | root =>
    rw [text_absolute (by simp [anchor]), String.toList_append, anchor, anchorOf,
      behind _ (by simp [Anchor.text])]
    rfl
  | doubleRoot =>
    rw [text_absolute (by simp [anchor]), String.toList_append, anchor, anchorOf,
      behind _ (by simp [Anchor.text])]
    rfl

private theorem foldl_push_blanks {blanks : List String} (h : ∀ c ∈ blanks, c = "" ∨ c = ".")
    (p : Path) : blanks.foldl push p = p := by
  induction blanks with
  | nil => rfl
  | cons c rest ih =>
    have still : p.push c = p := by
      rcases h c List.mem_cons_self with rfl | rfl <;> simp [push]
    rw [List.foldl_cons, still]
    exact ih fun d hd => h d (List.mem_cons_of_mem _ hd)

private theorem foldl_push_ups (ups up : Nat) :
    (List.replicate ups "..").foldl push ⟨.here, up, []⟩ = ⟨.here, up + ups, []⟩ := by
  induction ups generalizing up with
  | zero => rfl
  | succ ups ih =>
    have one : push ⟨.here, up, []⟩ ".." = ⟨.here, up + 1, []⟩ := by simp [push]
    rw [List.replicate_succ, List.foldl_cons, one, ih, Nat.add_assoc, Nat.add_comm 1]

private theorem foldl_push_names {names : List String} (h : ∀ name ∈ names, IsName name)
    (p : Path) : names.foldl push p = { p with names := p.names ++ names } := by
  induction names generalizing p with
  | nil => simp
  | cons name rest ih =>
    obtain ⟨here, later⟩ := List.forall_mem_cons.1 h
    have one : p.push name = { p with names := p.names ++ [name] } := by
      simp [push, here.ne_empty, here.ne_dot, here.ne_up]
    rw [List.foldl_cons, one, ih later, List.append_assoc]
    rfl

/-- The text of a normal path is read as that path. -/
theorem Normal.ofText_text (h : p.Normal) : ofText p.text = p := by
  obtain ⟨blanks, blank, split⟩ := h.plain.fields_text
  rw [ofText, Path.pushAll, split, List.foldl_append, foldl_push_blanks blank,
    h.plain.anchorOf_text, steps, List.foldl_append]
  have ups : (List.replicate p.ups "..").foldl Path.push ⟨p.anchor, 0, []⟩ =
      ⟨p.anchor, p.ups, []⟩ := by
    rcases h.ups with here | none
    · rw [here, foldl_push_ups, Nat.zero_add]
    · rw [none]
      rfl
  rw [ups, foldl_push_names h.names, List.nil_append]

/-- Normal paths that have the same text are the same. -/
theorem Normal.eq_of_text_eq {q : Path} (hp : p.Normal) (hq : q.Normal) (same : p.text = q.text) :
    p = q := by
  rw [← hp.ofText_text, same, hq.ofText_text]

theorem foldl_climb_blanks {blanks : List String} (h : ∀ c ∈ blanks, c = "" ∨ c = ".")
    (place : List String) : blanks.foldl climb place = place := by
  induction blanks with
  | nil => rfl
  | cons c rest ih =>
    have still : climb place c = place := by
      rcases h c List.mem_cons_self with rfl | rfl <;> simp [climb]
    rw [List.foldl_cons, still]
    exact ih fun d hd => h d (List.mem_cons_of_mem _ hd)

/-- The text of a normal path names the place of the path. -/
theorem Normal.placeIn_text (h : p.Normal) (home : List String) :
    placeIn home p.text = p.place home := by
  obtain ⟨blanks, blank, split⟩ := h.plain.fields_text
  rw [placeIn, split, List.foldl_append, foldl_climb_blanks blank, h.plain.startOf_text, steps,
    List.foldl_append, foldl_climb_ups, foldl_climb_names h.names]
  rw [place]
  cases anchor : p.anchor with
  | here => simp
  | root => simp
  | doubleRoot => simp

/-- The components behind an anchor are found again in their text. -/
theorem fields_textOf (anchor : Anchor) {components : List String}
    (plain : ∀ c ∈ components, c ≠ "" ∧ '/' ∉ c.toList) :
    ∃ blanks, (∀ c ∈ blanks, c = "" ∨ c = ".") ∧
      Text.fields '/' (textOf anchor components) = blanks ++ components := by
  have h : Plain ⟨anchor, 0, components⟩ := by simpa [Plain, steps] using plain
  simpa [steps, text, textOf] using h.fields_text

/-- One more component comes behind the text of the others. -/
theorem exists_textOf_concat (anchor : Anchor) (front : List String) (last : String) :
    ∃ before, textOf anchor (front ++ [last]) = before ++ last ∧
      (front ≠ [] → before = textOf anchor front ++ "/") := by
  have whole : textOf anchor (front ++ [last]) =
      Anchor.text anchor ++ "/".intercalate (front ++ [last]) := by
    simp [textOf]
  by_cases none : front = []
  · subst none
    exact ⟨Anchor.text anchor, by simpa using whole, fun some => absurd rfl some⟩
  · have above : textOf anchor front = Anchor.text anchor ++ "/".intercalate front := by
      simp [textOf, none]
    refine ⟨textOf anchor front ++ "/", ?_, fun _ => rfl⟩
    rw [whole, above, String.intercalate_append_of_ne_nil none (List.cons_ne_nil _ _)]
    simp [String.append_assoc]

theorem textOf_ne_empty {anchor : Anchor} {components : List String} (some : components ≠ [])
    (plain : ∀ c ∈ components, c ≠ "" ∧ '/' ∉ c.toList) : textOf anchor components ≠ "" := by
  obtain ⟨before, whole, -⟩ :=
    exists_textOf_concat anchor components.dropLast (components.getLast some)
  rw [List.dropLast_concat_getLast some] at whole
  rw [whole]
  intro empty
  exact (plain _ (List.getLast_mem some)).1 (String.append_eq_empty_iff.1 empty).2

/-- A text that does not end with a slash has none to be dropped. -/
theorem withoutSlashes_append {before last : String} (some : last ≠ "")
    (noSlash : '/' ∉ last.toList) :
    String.ofList (withoutSlashes (before ++ last).toList) = before ++ last := by
  have letters : last.toList ≠ [] := fun none => some (String.toList_eq_nil_iff.1 none)
  obtain ⟨front, final, split⟩ : ∃ front final, last.toList = front ++ [final] :=
    ⟨_, _, (List.dropLast_concat_getLast letters).symm⟩
  have other : (final == '/') = false := by
    rw [beq_eq_false_iff_ne]
    rintro rfl
    exact noSlash (by simp [split])
  have kept : (before ++ last).toList.reverse.dropWhile (· == '/') =
      (before ++ last).toList.reverse := by
    rw [String.toList_append, split, List.reverse_append, List.reverse_append]
    simp [other]
  rw [withoutSlashes, kept]
  split
  · exact String.ofList_toList
  · rw [List.reverse_reverse, String.ofList_toList]

theorem startOf_textOf (home : List String) (anchor : Anchor) {components : List String}
    (plain : ∀ c ∈ components, c ≠ "" ∧ '/' ∉ c.toList) :
    startOf home (textOf anchor components) = if anchor = .here then home else [] := by
  have h : Plain ⟨anchor, 0, components⟩ := by simpa [Plain, steps] using plain
  simpa [text, textOf] using h.startOf_text home

end Path

end UtilityCss
