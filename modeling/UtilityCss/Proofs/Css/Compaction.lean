import UtilityCss.Proofs.Css.Pending

/-! Reading the tokens of a style sheet, written one behind the other, once more. Trimming cuts an
escaped blank in half at the end of a fragment; where that happens in front of a brace, and only
there, the tokens are read differently. The text itself is compact in any case. -/
namespace UtilityCss.Css
open Text

variable {pending kept : List Char} {begun : Bool} {held : Held}

/-- The pending text when the settled lexemes are read. -/
private theorem Pending.settled (h : Pending pending kept begun held) :
    Pending ((textOf held.kept).reverse ++ kept) kept begun held :=
  ⟨⟨[], by simp, by simp⟩, h.first, h.last, h.begun_iff, h.space, h.guarded⟩

private theorem Pending.group_kept (h : Pending pending kept begun held) (ls : List Lexeme) :
    group kept (held.kept ++ ls) = group ((textOf held.kept).reverse ++ kept) ls := by
  cases held with
  | nothing => rfl
  | space =>
    obtain ⟨c, more, rfl⟩ := List.exists_cons_of_ne_nil (h.space rfl)
    have ink : isBlank c = false := h.last (by simp) c rfl
    simp [Held.kept, group, foldBlank, ink, Lexeme.text]
  | guarded c => rfl

private theorem Pending.endsOpen_kept (h : Pending pending kept begun held)
    (shut : endsOpen kept = false) : endsOpen ((textOf held.kept).reverse ++ kept) = false := by
  cases held with
  | nothing => exact shut
  | space => rfl
  | guarded c =>
    have hc : c ≠ '\\' := by
      rintro rfl
      simpa [isBlank] using h.guarded _ rfl
    exact endsOpen_of_ne hc _

private theorem Pending.trim_kept
    (h : Pending pending kept begun held) (open? : ∀ c, held ≠ .guarded c) :
    trim kept.reverse = kept.reverse := by
  simpa using trim_reverse_append [] [] (by simp) (by simp) h.first
    (h.last open?)

private theorem Pending.group_atEnd
    (h : Pending pending kept begun held) : group kept held.atEnd = group pending [] := by
  cases begun with
  | false =>
    obtain ⟨rfl, rfl⟩ := h.not_begun
    rw [group, h.all_isBlank]
    rfl
  | true =>
    cases held with
    | guarded c =>
      have trimmed : trim ('\\' :: kept).reverse = kept.reverse ++ ['\\'] := by
        simpa using trim_reverse_append [] [] (by simp) (by simp)
          (first_backslash h.first) (by simp [isBlank])
      have same : trim pending.reverse = kept.reverse ++ ['\\'] := h.trim_eq
      rw [group_nil same (by simp)]
      exact group_nil trimmed (by simp)
    | _ =>
      have ne : kept ≠ [] := by simpa using h.begun_iff
      have same := h.trim_eq
      simp only [Held.atEnd, textOf_nil, List.append_nil] at same
      rw [group_nil same (by simpa using ne)]
      exact group_nil (h.trim_kept (by simp)) (by simpa using ne)

/-- A begun token keeps what it begins with. -/
private theorem prefix_trim {kept : List Char} (ne : kept ≠ [])
    (first : ∀ c ∈ kept.getLast?, isBlank c = false) (last : ∀ c ∈ kept.head?, isBlank c = false)
    (more : List Char) : kept.reverse <+: trim (more ++ kept).reverse := by
  have blank : ∀ c ∈ more.takeWhile isBlank, isBlank c = true := fun c hc =>
    List.mem_takeWhile_imp hc
  have firstAll : ∀ c ∈ (more.dropWhile isBlank ++ kept).getLast?, isBlank c = false := by
    obtain ⟨d, hd⟩ := Option.isSome_iff_exists.1 (List.getLast?_isSome.2 ne)
    intro c hc
    rw [List.getLast?_append, hd, Option.some_or] at hc
    exact first c (hd.trans hc)
  have lastAll : ∀ c ∈ (more.dropWhile isBlank ++ kept).head?, isBlank c = false := by
    have stop := List.head?_dropWhile_not isBlank more
    cases hm : more.dropWhile isBlank with
    | nil => exact last
    | cons d l =>
      rw [hm] at stop
      simpa using stop
  have trimmed := trim_reverse_append _ [] blank (by simp) firstAll lastAll
  rw [List.append_nil, ← List.append_assoc, List.takeWhile_append_dropWhile] at trimmed
  exact ⟨(more.dropWhile isBlank).reverse, by rw [trimmed, List.reverse_append]⟩

private theorem exists_foldBlank (pending kept : List Char) (ne : kept ≠ []) :
    ∃ more, foldBlank (pending ++ kept) = more ++ kept := by
  cases h : pending ++ kept with
  | nil => simp [ne] at h
  | cons c rest =>
    rw [foldBlank]
    split
    · exact ⟨pending, h.symm⟩
    · exact ⟨' ' :: pending, by simp [h]⟩

/-- The next token goes on with what was read. -/
private theorem prefix_group (kept : List Char) (ne : kept ≠ [])
    (first : ∀ c ∈ kept.getLast?, isBlank c = false) (last : ∀ c ∈ kept.head?, isBlank c = false)
    (more : List Char) (ls : List Lexeme) :
    ∃ t rest, group (more ++ kept) ls = t :: rest ∧ kept.reverse <+: t := by
  have some (more : List Char) : trim (more ++ kept).reverse ≠ [] := by
    intro none
    have := prefix_trim ne first last more
    rw [none, List.prefix_nil, List.reverse_eq_nil_iff] at this
    exact ne this
  induction ls generalizing more with
  | nil => exact ⟨_, [], group_nil rfl (some more), prefix_trim ne first last more⟩
  | cons l rest ih =>
    have gap : ∃ t tail,
        group (foldBlank (more ++ kept)) rest = t :: tail ∧ kept.reverse <+: t := by
      obtain ⟨more', he⟩ := exists_foldBlank more kept ne
      rw [he]
      exact ih more'
    rcases l.kinds with rfl | ⟨opening, rfl⟩ | ⟨c, rfl⟩ | ⟨body, rfl⟩ | ⟨c, rfl, hc⟩ | ink
    · exact ⟨_, group [] rest, by rw [group]; rfl, prefix_trim ne first last (';' :: more)⟩
    · exact ⟨_, _, group_brace rfl (some more) opening rest, prefix_trim ne first last more⟩
    · exact gap
    · exact gap
    · exact ih (c :: '\\' :: more)
    · rw [group_ink ink, ← List.append_assoc]
      exact ih _

private theorem forall_dropLast_cons {t : List Char} (ht : endsOpen t.reverse = false)
    (ts : List (List Char)) : (∀ x ∈ (t :: ts).dropLast, endsOpen x.reverse = false) ↔
      ∀ x ∈ ts.dropLast, endsOpen x.reverse = false := by
  cases ts with
  | nil => simp
  | cons u us => simp [ht]

/-- The settled lexemes have the same tokens unless one token in front of another ends open. -/
theorem group_settle_iff {ls : List Lexeme}
    (h : Pending pending kept begun held) (readable : Readable ls)
    (closed : ls ≠ [] → endsOpen kept = false) :
    group kept (settle begun held ls) = group pending ls ↔
      ∀ t ∈ (group pending ls).dropLast, endsOpen t.reverse = false := by
  induction ls generalizing pending kept begun held with
  | nil =>
    rw [settle, h.group_atEnd]
    refine iff_of_true rfl ?_
    rw [group]
    split <;> simp
  | cons l rest ih =>
    obtain ⟨heads, tail⟩ := readable
    have shut := closed (by simp)
    have fresh := ih Pending.start tail fun _ => rfl
    rcases l.kinds with rfl | ⟨opening, rfl⟩ | ⟨c, rfl⟩ | ⟨body, rfl⟩ | ⟨c, rfl, hc⟩ | ink
    · rw [settle, h.group_kept, group, group, h.trim_semicolon, h.settled.trim_semicolon,
        List.cons.injEq, forall_dropLast_cons (by simp [endsOpen])]
      simpa using fresh
    · have brace : endsOpen [braceChar opening].reverse = false := by cases opening <;> rfl
      cases begun with
      | false =>
        have all : pending.all isBlank = true := h.all_isBlank
        obtain ⟨rfl, rfl⟩ := h.not_begun
        rw [settle, group, if_pos all, forall_dropLast_cons brace]
        simpa [Held.atBrace, group] using fresh
      | true =>
        cases held with
        | guarded c =>
          -- The backslash that is left guards the brace, so the first tokens differ.
          have same : trim pending.reverse = kept.reverse ++ ['\\'] := h.trim_eq
          rw [group_brace same (by simp)]
          refine iff_of_false (fun equal => ?_) fun all => ?_
          · obtain ⟨t, ts, ht, hp⟩ := prefix_group (braceChar opening :: '\\' :: kept) (by simp)
              (fun d hd => first_backslash h.first d (by simpa using hd))
              (by cases opening <;> simp [braceChar, isBlank]) [] (settle false .nothing rest)
            have step : group kept (settle true (.guarded c) (.brace opening :: rest)) =
                group ([] ++ braceChar opening :: '\\' :: kept) (settle false .nothing rest) := rfl
            rw [step, ht, List.cons.injEq] at equal
            have := hp.length_le
            rw [equal.1] at this
            simp at this
          · have := all (kept.reverse ++ ['\\']) (by simp)
            simp [endsOpen, shut] at this
        | _ =>
          have ne : kept.reverse ≠ [] := by simpa using h.begun_iff
          have same : trim pending.reverse = kept.reverse := by simpa [Held.atEnd] using h.trim_eq
          rw [group_brace same ne, forall_dropLast_cons (by simpa using shut),
            forall_dropLast_cons brace, ← fresh]
          have again := group_brace (h.trim_kept (by simp)) ne opening (settle false .nothing rest)
          simp only [settle, Held.atBrace, again, List.cons.injEq, true_and]
    · exact ih h.addBlank tail fun _ => shut
    · exact ih h.addBlank tail fun _ => shut
    · rw [settle, if_pos hc, h.group_kept, group_escape]
      exact ih (h.guard hc) tail fun _ => h.endsOpen_kept shut
    · rw [settle_ink ink, h.group_kept, group_ink (isInk_cropped ink), group_ink ink]
      by_cases more : rest = []
      · subst more
        have cut := heads_cropped ink heads tail
        have again := h.settled.group_ink_nil (isInk_cropped ink) cut
        rw [h.group_ink_nil ink heads]
        simp [settle, Held.atEnd, again, cropped_cropped]
      · obtain ⟨same, keeps⟩ := ink.closed heads (textOf_ne_nil more)
        rw [same, ← List.append_assoc]
        refine ih (h.ink ink heads more) tail fun _ => ?_
        rw [List.append_assoc]
        exact keeps _ (h.endsOpen_kept shut)

private theorem toList_compact (css : String) :
    (compact css).toList = textOf (settle false .nothing (lexemes css.toList)) := by
  have joined (ts : List (List Char)) :
      (String.join (ts.map String.ofList)).toList = ts.flatten := by
    induction ts with
    | nil => rfl
    | cons t ts ih => simp [ih]
  rw [compact, tokens, joined, flatten_group Pending.start (readable_lexemes _)]
  rfl

theorem lexemes_compact (css : String) :
    lexemes (compact css).toList = settle false .nothing (lexemes css.toList) := by
  rw [toList_compact, (readable_settle (readable_lexemes _) false .nothing).lexemes_textOf]

/-- Whether a token ends in a backslash that guards nothing: it ends in an odd number of them. -/
def isOpenToken (token : String) : Bool := endsOpen token.toList.reverse

/-- The compact text has the tokens of the style sheet exactly if no token but the last one ends in
a backslash that guards nothing. Such a token is left of a fragment with an escaped blank in front
of a brace. To compact a compact text changes nothing. -/
theorem tokens_compact_iff (css : String) :
    (tokens (compact css) = tokens css ↔ ∀ t ∈ (tokens css).dropLast, isOpenToken t = false) ∧
      compact (compact css) = compact css := by
  constructor
  · have same := group_settle_iff Pending.start (readable_lexemes css.toList) fun _ => rfl
    have inj (s t : List Char) (h : String.ofList s = String.ofList t) : s = t := by
      simpa using congrArg String.toList h
    rw [tokens, tokens, lexemes_compact, List.map_inj_right inj, same, ← List.map_dropLast,
      List.forall_mem_map]
    simp only [isOpenToken, String.toList_ofList]
  · rw [← String.toList_inj, toList_compact, lexemes_compact, toList_compact,
      settle_settle id (by simp) (by simp)]

/-- An escaped blank in front of a brace: the fragment is cut to its backslash, which then guards
the brace. -/
theorem tokens_compact_ne :
    tokens "a\\ \x7bb\x7d" = ["a\\", "\x7b", "b", "\x7d"] ∧
      tokens (compact "a\\ \x7bb\x7d") = ["a\\\x7bb", "\x7d"] ∧
      tokens (compact "a\\ \x7bb\x7d") ≠ tokens "a\\ \x7bb\x7d" := by
  decide +kernel

end UtilityCss.Css
