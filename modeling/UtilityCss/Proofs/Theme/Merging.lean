import Mathlib.Data.List.Nodup
import UtilityCss.Proofs.Except
import UtilityCss.Proofs.Named
import UtilityCss.Theme.Compile

/-! Lists of named values: what merging does to names, places and values, and what is left of a list
whose values are changed. -/
namespace UtilityCss.Theme

section Merging

variable {α : Type} {base extra : List (String × α)}

theorem putAll_cons_right (base : List (String × α)) (e : String × α) (rest : List (String × α)) :
    putAll base (e :: rest) = putAll (putNamed e.1 e.2 base) rest := rfl

/-- An entry whose name does not come again stays in front. -/
theorem putAll_cons_left {e : String × α} (fresh : e.1 ∉ extra.map (·.1)) :
    putAll (e :: base) extra = e :: putAll base extra := by
  induction extra generalizing base with
  | nil => rfl
  | cons f rest ih =>
    rw [List.map_cons, List.mem_cons, not_or] at fresh
    have behind : putNamed f.1 f.2 (e :: base) = e :: putNamed f.1 f.2 base := by
      obtain ⟨name, value⟩ := e
      rw [putNamed, if_neg fresh.1]
    rw [putAll_cons_right, putAll_cons_right, behind]
    exact ih fresh.2

private theorem putNamed_insert {name : String} {value : α} {e : String × α}
    {front behind : List (String × α)} (other : e.1 ≠ name) : ∃ front' behind',
      putNamed name value (front ++ e :: behind) = front' ++ e :: behind' ∧
        putNamed name value (front ++ behind) = front' ++ behind' := by
  induction front with
  | nil => exact ⟨[], putNamed name value behind, by simp [putNamed, other], rfl⟩
  | cons first front ih =>
    obtain ⟨front', behind', inserted, without⟩ := ih
    by_cases here : first.1 = name
    · exact ⟨(name, value) :: front, behind, by simp [putNamed, here], by simp [putNamed, here]⟩
    · exact ⟨first :: front', behind', by simp [putNamed, here, inserted],
        by simp [putNamed, here, without]⟩

/-- An entry whose name does not come again keeps its place and does not matter to the others. -/
theorem putAll_insert {e : String × α} (front behind : List (String × α))
    (fresh : e.1 ∉ extra.map (·.1)) : ∃ front' behind',
      putAll (front ++ e :: behind) extra = front' ++ e :: behind' ∧
        putAll (front ++ behind) extra = front' ++ behind' := by
  induction extra generalizing front behind with
  | nil => exact ⟨front, behind, rfl, rfl⟩
  | cons f rest ih =>
    rw [List.map_cons, List.mem_cons, not_or] at fresh
    obtain ⟨front', behind', inserted, without⟩ := putNamed_insert fresh.1
    rw [putAll_cons_right, putAll_cons_right, inserted, without]
    exact ih front' behind' fresh.2

/-- Entries that begin with the names of the base, in their order, take its place. -/
theorem putAll_eq_self (nodup : (extra.map (·.1)).Nodup)
    (begins : base.map (·.1) <+: extra.map (·.1)) : putAll base extra = extra := by
  induction extra generalizing base with
  | nil =>
    have none : base = [] := by simpa using begins
    rw [none]
    rfl
  | cons e rest ih =>
    obtain ⟨fresh, nodup⟩ := List.nodup_cons.1 nodup
    rw [putAll_cons_right]
    cases base with
    | nil =>
      have first : putNamed e.1 e.2 [] = [e] := rfl
      have behind : putAll [] rest = rest := ih nodup List.nil_prefix
      rw [first, putAll_cons_left fresh, behind]
    | cons b base =>
      rw [List.map_cons, List.map_cons, List.cons_prefix_cons] at begins
      have replaced : putNamed e.1 e.2 (b :: base) = e :: base := by
        rw [putNamed, if_pos begins.1]
      rw [replaced, putAll_cons_left fresh, ih nodup begins.2]

theorem prefix_names_putAll (base extra : List (String × α)) :
    base.map (·.1) <+: (putAll base extra).map (·.1) := by
  induction extra generalizing base with
  | nil => exact List.prefix_rfl
  | cons e rest ih =>
    rw [putAll_cons_right]
    refine List.IsPrefix.trans ?_ (ih (putNamed e.1 e.2 base))
    rw [names_putNamed]
    split
    · exact List.prefix_rfl
    · exact List.prefix_append _ _

theorem nodup_names_putAll (extra : List (String × α)) (nodup : (base.map (·.1)).Nodup) :
    ((putAll base extra).map (·.1)).Nodup := by
  induction extra generalizing base with
  | nil => exact nodup
  | cons e rest ih =>
    rw [putAll_cons_right]
    apply ih
    rw [names_putNamed]
    split
    · exact nodup
    · next fresh =>
      rw [← List.concat_eq_append]
      exact nodup.concat fresh

/-- The names of the base come first, and then the others in their order. -/
theorem names_putAll (base : List (String × α)) (nodup : (extra.map (·.1)).Nodup) :
    (putAll base extra).map (·.1) =
      base.map (·.1) ++ (extra.map (·.1)).filter fun name => name ∉ base.map (·.1) := by
  induction extra generalizing base with
  | nil => exact (List.append_nil _).symm
  | cons e rest ih =>
    obtain ⟨fresh, nodup⟩ := List.nodup_cons.1 nodup
    rw [putAll_cons_right, ih _ nodup, names_putNamed]
    by_cases known : e.1 ∈ base.map (·.1)
    · rw [if_pos known, List.map_cons, List.filter_cons_of_neg (by simpa using known)]
    · have others : (rest.map (·.1)).filter (fun name => name ∉ base.map (·.1) ++ [e.1]) =
          (rest.map (·.1)).filter fun name => name ∉ base.map (·.1) := by
        refine List.filter_congr fun name inside => ?_
        have apart : name ≠ e.1 := by
          rintro rfl
          exact fresh inside
        simp [apart]
      rw [if_neg known, others, List.map_cons, List.filter_cons_of_pos (by simpa using known),
        List.append_assoc]
      rfl

/-- The value that was put last counts. -/
theorem lookup_putAll (base : List (String × α)) (nodup : (extra.map (·.1)).Nodup)
    (name : String) :
    (putAll base extra).lookup name = (extra.lookup name).or (base.lookup name) := by
  induction extra generalizing base with
  | nil => rfl
  | cons e rest ih =>
    obtain ⟨fresh, nodup⟩ := List.nodup_cons.1 nodup
    rw [putAll_cons_right, ih _ nodup, List.lookup_cons]
    by_cases same : name = e.1
    · rw [same, lookup_of_not_mem_names fresh, lookup_putNamed_self, beq_self_eq_true]
      rfl
    · rw [lookup_putNamed_of_ne same, beq_eq_false_iff_ne.2 same]

/-- Names that are added behind others a second time come in the order of the first time. -/
private theorem names_again {first second others : List String}
    (apart : ∀ name ∈ others, name ∉ second) :
    let all := first ++ (second ++ others).filter fun name => name ∉ first
    first ++ (second ++ all.filter fun name => name ∉ second).filter (fun name => name ∉ first) =
      all := by
  intro all
  have old : (first.filter fun name => name ∉ second).filter (fun name => name ∉ first) = [] := by
    rw [List.filter_eq_nil_iff]
    intro name inside
    simpa using List.mem_of_mem_filter inside
  have gone : ((second.filter fun name => name ∉ first).filter fun name => name ∉ second) = [] := by
    rw [List.filter_eq_nil_iff]
    intro name inside
    simpa using List.mem_of_mem_filter inside
  have new : ((others.filter fun name => name ∉ first).filter fun name => name ∉ second) =
      others.filter fun name => name ∉ first := by
    rw [List.filter_eq_self]
    intro name inside
    simpa using apart name (List.mem_of_mem_filter inside)
  have kept : (others.filter fun name => name ∉ first).filter (fun name => name ∉ first) =
      others.filter fun name => name ∉ first := by
    simp only [List.filter_filter, Bool.and_self]
  simp only [all, List.filter_append, old, gone, new, kept, List.nil_append]

/-- The sizes are merged onto the spacing scale. Merged once more onto the built-in sizes they come
in another order, which is undone when they are merged onto the spacing scale again. -/
theorem putAll_putAll_putAll {spacing builtIn sizes : List (String × α)}
    (scale : (spacing.map (·.1)).Nodup) (nodup : (sizes.map (·.1)).Nodup)
    (begins : builtIn.map (·.1) <+: sizes.map (·.1)) :
    putAll spacing (putAll builtIn (putAll spacing sizes)) = putAll spacing sizes := by
  have merged : ((putAll spacing sizes).map (·.1)).Nodup := nodup_names_putAll sizes scale
  have again : ((putAll builtIn (putAll spacing sizes)).map (·.1)).Nodup :=
    nodup_names_putAll _ (begins.sublist.nodup nodup)
  have names := names_putAll spacing nodup
  obtain ⟨others, split⟩ := begins
  rw [← split] at names nodup
  refine eq_of_lookup_eq merged ?_ fun name => ?_
  · have apart : ∀ name ∈ others, name ∉ builtIn.map (·.1) := fun name inside known =>
      List.disjoint_of_nodup_append nodup known inside
    rw [names_putAll spacing again, names_putAll builtIn merged, names]
    exact names_again apart
  · have known (scale : List (String × α))
        (inside : scale.map (·.1) ⊆ (putAll spacing sizes).map (·.1)) :
        ((putAll spacing sizes).lookup name).or (scale.lookup name) =
          (putAll spacing sizes).lookup name := by
      cases found : (putAll spacing sizes).lookup name with
      | some value => rfl
      | none =>
        exact lookup_of_not_mem_names fun here => not_mem_names_of_lookup found (inside here)
    rw [lookup_putAll spacing again, lookup_putAll builtIn merged, known builtIn, known spacing]
    · exact (prefix_names_putAll spacing sizes).subset
    · intro name inside
      rw [names, List.mem_append, List.mem_filter, List.mem_append]
      by_cases old : name ∈ spacing.map (·.1)
      · exact .inl old
      · exact .inr ⟨.inl inside, by simpa using old⟩

end Merging

section Mapping

variable {α β : Type}

theorem names_mapNamed {f : String → α → Except Fault β} {entries : List (String × α)}
    {made : List (String × β)} (h : mapNamed f entries = .ok made) :
    made.map (·.1) = entries.map (·.1) := by
  induction entries generalizing made with
  | nil =>
    cases h
    rfl
  | cons e rest ih =>
    obtain ⟨w, -, h⟩ := bind_eq_ok h
    obtain ⟨tail, others, h⟩ := bind_eq_ok h
    cases h
    rw [List.map_cons, List.map_cons, ih others]

theorem mapNamed_append {f : String → α → Except Fault β} (front behind : List (String × α)) :
    mapNamed f (front ++ behind) = do
      return (← mapNamed f front) ++ (← mapNamed f behind) := by
  induction front with
  | nil =>
    change _ = mapNamed f behind >>= fun made => pure made
    rw [bind_pure]
    rfl
  | cons e rest ih =>
    rw [List.cons_append, mapNamed, mapNamed, ih]
    simp only [bind_assoc, pure_bind, List.cons_append]

theorem mem_mapNamed {f : String → α → Except Fault β} {entries : List (String × α)}
    {made : List (String × β)} (h : mapNamed f entries = .ok made) {name : String} {v : α}
    (inside : (name, v) ∈ entries) : ∃ w, f name v = .ok w ∧ (name, w) ∈ made := by
  induction entries generalizing made with
  | nil => cases inside
  | cons e rest ih =>
    obtain ⟨w, here, h⟩ := bind_eq_ok h
    obtain ⟨tail, others, h⟩ := bind_eq_ok h
    cases h
    rcases List.mem_cons.1 inside with rfl | later
    · exact ⟨w, here, List.mem_cons_self⟩
    · obtain ⟨w', made, inside⟩ := ih others later
      exact ⟨w', made, List.mem_cons_of_mem _ inside⟩

/-- What was made of some entries is made of itself, if that is so for each value. -/
theorem mapNamed_again {f : String → α → Except Fault β} {g : β → α}
    (settled : ∀ name v w, f name v = .ok w → f name (g w) = .ok w)
    {entries : List (String × α)} {made : List (String × β)}
    (h : mapNamed f entries = .ok made) :
    mapNamed f (made.map fun e => (e.1, g e.2)) = .ok made := by
  induction entries generalizing made with
  | nil =>
    cases h
    rfl
  | cons e rest ih =>
    obtain ⟨w, here, h⟩ := bind_eq_ok h
    obtain ⟨tail, others, h⟩ := bind_eq_ok h
    cases h
    rw [List.map_cons, mapNamed, settled _ _ _ here, ih others]
    rfl

end Mapping

end UtilityCss.Theme
