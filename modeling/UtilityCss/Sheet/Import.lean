/-! Imports that are inlined: `@import`, one relative path in quotes, and nothing else. -/
namespace UtilityCss.Sheet

/-- The quoted text up to the closing mark with its escapes resolved, and the text behind the mark.
A backslash guards every character but a line break. -/
def unquote? (mark : Char) : List Char → Option (List Char × List Char)
  | [] => none
  | [c] => if c = mark then some ([], []) else none
  | c :: d :: rest =>
    if c = mark then some ([], d :: rest)
    else if c = '\\' then
      if d = '\n' then none else (unquote? mark rest).map fun p => (d :: p.1, p.2)
    else (unquote? mark (d :: rest)).map fun p => (c :: p.1, p.2)

/-- The path between the marks, if it starts with a dot, goes on, and the statement ends behind
it. -/
private def relativePath? (mark : Char) (s : List Char) : Option (List Char) :=
  match s with
  | '.' :: rest =>
    match unquote? mark rest with
    | some (c :: path, [';']) => some ('.' :: c :: path)
    | _ => none
  | _ => none

/-- The path of an import that is inlined. -/
def importPath? (token : String) : Option String :=
  let word := "@import ".toList
  if word.isPrefixOf token.toList then
    match token.toList.drop word.length with
    | mark :: rest =>
      if mark = '"' || mark = '\'' then
        match relativePath? mark rest with
        | some path => if ".css".toList.isSuffixOf path then some (String.ofList path) else none
        | none => none
      else none
    | [] => none
  else none

private theorem relativePath?_eq_some_iff {mark : Char} {s path : List Char} :
    relativePath? mark s = some path ↔ ∃ rest c more, s = '.' :: rest ∧
      unquote? mark rest = some (c :: more, [';']) ∧ path = '.' :: c :: more := by
  constructor
  · intro h
    unfold relativePath? at h
    split at h
    · next rest =>
      split at h
      · next c more found => exact ⟨rest, c, more, rfl, found, (Option.some.inj h).symm⟩
      · cases h
    · cases h
  · rintro ⟨rest, c, more, rfl, found, rfl⟩
    simp only [relativePath?, found]

/-- What an import that is inlined is made of. -/
theorem importPath?_eq_some_iff {token path : String} : importPath? token = some path ↔
    ∃ mark rest c more, (mark = '"' ∨ mark = '\'') ∧
      token.toList = "@import ".toList ++ mark :: '.' :: rest ∧
      unquote? mark rest = some (c :: more, [';']) ∧
      ".css".toList <:+ '.' :: c :: more ∧ path = String.ofList ('.' :: c :: more) := by
  constructor
  · intro h
    dsimp only [importPath?] at h
    split at h
    · next word =>
      obtain ⟨behind, text⟩ := List.isPrefixOf_iff_prefix.1 word
      rw [← text, List.drop_left] at h
      split at h
      · next mark s =>
        split at h
        · next quote =>
          split at h
          · next found relative =>
            split at h
            · next ending =>
              obtain ⟨rest, c, more, rfl, read, rfl⟩ := relativePath?_eq_some_iff.1 relative
              exact ⟨mark, rest, c, more, by simpa using quote, text.symm, read,
                List.isSuffixOf_iff_suffix.1 ending, (Option.some.inj h).symm⟩
            · cases h
          · cases h
        · cases h
      · cases h
    · cases h
  · rintro ⟨mark, rest, c, more, quote, text, read, ending, rfl⟩
    have relative := relativePath?_eq_some_iff.2 ⟨rest, c, more, rfl, read, rfl⟩
    have word : "@import ".toList.isPrefixOf token.toList = true :=
      List.isPrefixOf_iff_prefix.2 ⟨_, text.symm⟩
    have suffix := List.isSuffixOf_iff_suffix.2 ending
    dsimp only [importPath?]
    rw [if_pos word, text, List.drop_left]
    simp only [relative, suffix, if_true]
    rw [if_pos (by simpa using quote)]

end UtilityCss.Sheet
