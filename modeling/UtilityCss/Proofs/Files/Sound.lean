import UtilityCss.Proofs.Files.Resolve
import UtilityCss.Proofs.Named

/-! Trees as file systems have them: a directory holds one entry of a name, and no stamp lies in the
future. Every change keeps a tree so, and gives what it touches a new stamp. -/
namespace UtilityCss

/-- A name that an entry of a directory can have. -/
structure IsEntry (name : String) : Prop where
  proper : IsName name
  short : name.utf8ByteSize ≤ 255

namespace Node

/-- The content of a file. -/
def content? : Node → Option Content
  | .file content _ => some content
  | .dir .. => none

/-- The names of the entries of a directory. -/
def names : Node → List String
  | .file .. => []
  | .dir entries _ => entries.map (·.1)

/-- What a look at a node shows, without going into it. -/
def face (n : Node) : Nat × Option Content × List String := (n.stamp, n.content?, n.names)

theorem eq_file_of_face {n : Node} {content : Content} {stamp : Nat}
    (h : n.face = (Node.file content stamp).face) : n = .file content stamp := by
  cases n with
  | file c s =>
    simp only [face, Node.stamp, content?, names, Prod.mk.injEq, Option.some.injEq] at h
    rw [h.1, h.2.1]
  | dir entries s => simp [face, content?] at h

theorem sizeOf_lt_of_mem {entries : List (String × Node)} {e : String × Node} (h : e ∈ entries)
    (stamp : Nat) : sizeOf e.2 < sizeOf (Node.dir entries stamp) := by
  have smaller := List.sizeOf_lt_of_mem h
  obtain ⟨name, child⟩ := e
  simp only [Prod.mk.sizeOf_spec] at smaller
  simp only [Node.dir.sizeOf_spec]
  omega

/-- No stamp is later than `now`, and the entries of every directory have different names. -/
structure Sound (now : Nat) (n : Node) : Prop where
  stamp : ∀ place {m}, n.descend place = .ok m → m.stamp ≤ now
  nodup : ∀ place {m}, n.descend place = .ok m → m.names.Nodup
  entries : ∀ place {m}, n.descend place = .ok m → ∀ name ∈ m.names, IsEntry name

/-- Everything in the second node was there already or has the stamp `now`. -/
def Aged (now : Nat) (n n' : Node) : Prop :=
  ∀ place m', n'.descend place = .ok m' →
    (∃ m, n.descend place = .ok m ∧ m.face = m'.face) ∨
      (m'.stamp = now ∧ m'.names.Nodup ∧ ∀ name ∈ m'.names, IsEntry name)

theorem Aged.sound {now : Nat} {n n' : Node} (aged : Aged (now + 1) n n') (h : n.Sound now) :
    n'.Sound (now + 1) := by
  refine ⟨fun place m' found => ?_, fun place m' found => ?_, fun place m' found => ?_⟩
  · rcases aged place m' found with ⟨m, old, same⟩ | new
    · have stamp : m.stamp = m'.stamp := congrArg Prod.fst same
      have := h.stamp place old
      omega
    · exact Nat.le_of_eq new.1
  · rcases aged place m' found with ⟨m, old, same⟩ | new
    · have names : m.names = m'.names := congrArg (fun f => f.2.2) same
      exact names ▸ h.nodup place old
    · exact new.2.1
  · rcases aged place m' found with ⟨m, old, same⟩ | new
    · have names : m.names = m'.names := congrArg (fun f => f.2.2) same
      exact names ▸ h.entries place old
    · exact new.2.2

theorem Sound.mono {now later : Nat} {n : Node} (h : n.Sound now) (le : now ≤ later) :
    n.Sound later :=
  ⟨fun place _ found => Nat.le_trans (h.stamp place found) le, h.nodup, h.entries⟩

theorem descend_dir_cons {entries : List (String × Node)} {stamp : Nat} {name : String}
    {rest : List String} {m : Node}
    (h : (Node.dir entries stamp).descend (name :: rest) = .ok m) :
    name.utf8ByteSize ≤ 255 ∧ ∃ child, entries.lookup name = some child ∧
      child.descend rest = .ok m := by
  rw [descend] at h
  split at h
  · cases h
  · next short =>
    refine ⟨by omega, ?_⟩
    cases found : entries.lookup name with
    | none =>
      rw [found] at h
      cases h
    | some child =>
      rw [found] at h
      exact ⟨child, rfl, h⟩

theorem descend_dir_of_lookup {entries : List (String × Node)} {stamp : Nat} {name : String}
    {child : Node} (short : name.utf8ByteSize ≤ 255) (found : entries.lookup name = some child)
    (rest : List String) :
    (Node.dir entries stamp).descend (name :: rest) = child.descend rest := by
  rw [descend, if_neg (by omega), found]

theorem Sound.child {now stamp : Nat} {entries : List (String × Node)} {name : String}
    {child : Node} (h : (Node.dir entries stamp).Sound now)
    (found : entries.lookup name = some child) : child.Sound now := by
  have entry := h.entries [] rfl name (mem_names_of_lookup found)
  have below (place : List String) :
      (Node.dir entries stamp).descend (name :: place) = child.descend place :=
    descend_dir_of_lookup entry.short found place
  exact ⟨fun place _ there => h.stamp _ ((below place).trans there),
    fun place _ there => h.nodup _ ((below place).trans there),
    fun place _ there => h.entries _ ((below place).trans there)⟩

/-- A descent into a sound directory goes through one of its entries. -/
theorem Sound.descend_cons_iff {now stamp : Nat} {entries : List (String × Node)} {name : String}
    {rest : List String} {m : Node} (h : (Node.dir entries stamp).Sound now) :
    (Node.dir entries stamp).descend (name :: rest) = .ok m ↔
      ∃ child, (name, child) ∈ entries ∧ child.descend rest = .ok m := by
  constructor
  · intro found
    obtain ⟨-, child, lookup, below⟩ := descend_dir_cons found
    obtain ⟨front, behind, rfl, -⟩ := List.lookup_eq_some_iff.1 lookup
    exact ⟨child, by simp, below⟩
  · rintro ⟨child, inside, below⟩
    have lookup := lookup_of_mem (h.nodup [] rfl) inside
    rw [descend_dir_of_lookup (h.entries [] rfl name (mem_names_of_lookup lookup)).short lookup]
    exact below

theorem Sound.isName {now : Nat} {n m : Node} (h : n.Sound now) {names : List String}
    (found : n.descend names = .ok m) : ∀ name ∈ names, IsName name := by
  induction names generalizing n with
  | nil => exact fun _ none => absurd none List.not_mem_nil
  | cons first rest ih =>
    cases n with
    | file => cases found
    | dir entries stamp =>
      obtain ⟨-, child, lookup, below⟩ := descend_dir_cons found
      intro name inside
      rcases List.mem_cons.1 inside with rfl | later
      · exact (h.entries [] rfl name (mem_names_of_lookup lookup)).proper
      · exact ih (h.child lookup) below name later

/-- What is found in a sound tree is sound. -/
theorem Sound.below {now : Nat} {n m : Node} (h : n.Sound now) {place : List String}
    (there : n.descend place = .ok m) : m.Sound now := by
  have inner {more : List String} {d : Node} (found : m.descend more = .ok d) :
      n.descend (place ++ more) = .ok d := by
    rw [descend_append, there]
    exact found
  exact ⟨fun _ _ found => h.stamp _ (inner found), fun _ _ found => h.nodup _ (inner found),
    fun _ _ found => h.entries _ (inner found)⟩

theorem aged_self {now : Nat} {n : Node} : Aged now n n :=
  fun _ m' found => .inl ⟨m', found, rfl⟩

/-- Everything in the node has the stamp `now`. -/
def Fresh (now : Nat) (n : Node) : Prop :=
  ∀ place m, n.descend place = .ok m →
    m.stamp = now ∧ m.names.Nodup ∧ ∀ name ∈ m.names, IsEntry name

theorem fresh_file (now : Nat) (content : Content) : Fresh now (.file content now) := by
  intro place m found
  cases place with
  | nil =>
    cases found
    exact ⟨rfl, List.nodup_nil, fun _ h => absurd h List.not_mem_nil⟩
  | cons name rest => cases found

theorem fresh_dir (now : Nat) : Fresh now (.dir [] now) := by
  intro place m found
  cases place with
  | nil =>
    cases found
    exact ⟨rfl, List.nodup_nil, fun _ h => absurd h List.not_mem_nil⟩
  | cons name rest =>
    obtain ⟨-, child, none, -⟩ := descend_dir_cons found
    cases none

variable {now before stamp : Nat} {entries : List (String × Node)} {name : String}

private theorem aged_replace {child child' : Node} (found : entries.lookup name = some child)
    (aged : Aged now child child') :
    Aged now (.dir entries stamp) (.dir (putNamed name child' entries) stamp) := by
  intro place m' there
  cases place with
  | nil =>
    cases there
    have same : (putNamed name child' entries).map (·.1) = entries.map (·.1) := by
      rw [names_putNamed, if_pos (mem_names_of_lookup found)]
    exact .inl ⟨_, rfl, by simp [face, Node.stamp, content?, names, same]⟩
  | cons first rest =>
    obtain ⟨short, inner, lookup, below⟩ := descend_dir_cons there
    by_cases same : first = name
    · subst same
      rw [lookup_putNamed_self] at lookup
      obtain rfl := Option.some.inj lookup
      rcases aged rest m' below with ⟨m, old, face⟩ | new
      · refine .inl ⟨m, ?_, face⟩
        rw [descend_dir_of_lookup short found]
        exact old
      · exact .inr new
    · rw [lookup_putNamed_of_ne same] at lookup
      exact .inl ⟨m', by rw [descend_dir_of_lookup short lookup]; exact below, rfl⟩

private theorem aged_add {new : Node} (h : (Node.dir entries stamp).Sound before)
    (free : entries.lookup name = none) (entry : IsEntry name) (fresh : Fresh now new) :
    Aged now (.dir entries stamp) (.dir (putNamed name new entries) now) := by
  intro place m' there
  cases place with
  | nil =>
    cases there
    have notThere := not_mem_names_of_lookup free
    have added : (putNamed name new entries).map (·.1) = entries.map (·.1) ++ [name] := by
      rw [names_putNamed, if_neg notThere]
    refine .inr ⟨rfl, ?_, ?_⟩
    · have old : (entries.map (·.1)).Nodup := h.nodup [] rfl
      rw [names, added, List.nodup_append]
      refine ⟨old, by simp, fun a ha b hb same => ?_⟩
      rw [List.mem_singleton.1 hb] at same
      exact notThere (same ▸ ha)
    · intro n hn
      rw [names, added] at hn
      rcases List.mem_append.1 hn with old | last
      · exact h.entries [] rfl n old
      · exact List.mem_singleton.1 last ▸ entry
  | cons first rest =>
    obtain ⟨short, inner, lookup, below⟩ := descend_dir_cons there
    by_cases same : first = name
    · subst same
      rw [lookup_putNamed_self] at lookup
      obtain rfl := Option.some.inj lookup
      exact .inr (fresh rest m' below)
    · rw [lookup_putNamed_of_ne same] at lookup
      exact .inl ⟨m', by rw [descend_dir_of_lookup short lookup]; exact below, rfl⟩

private theorem aged_drop (h : (Node.dir entries stamp).Sound before) :
    Aged now (.dir entries stamp) (.dir (entries.filter (·.1 != name)) now) := by
  intro place m' there
  cases place with
  | nil =>
    cases there
    have fewer : ((entries.filter (·.1 != name)).map (·.1)).Sublist (entries.map (·.1)) :=
      List.filter_sublist.map _
    have old : (entries.map (·.1)).Nodup := h.nodup [] rfl
    exact .inr ⟨rfl, fewer.nodup old,
      fun n hn => h.entries [] rfl n (fewer.subset hn)⟩
  | cons first rest =>
    obtain ⟨short, inner, lookup, below⟩ := descend_dir_cons there
    by_cases same : first = name
    · subst same
      rw [lookup_filter_self] at lookup
      cases lookup
    · rw [lookup_filter_of_ne same] at lookup
      exact .inl ⟨m', by rw [descend_dir_of_lookup short lookup]; exact below, rfl⟩

/-- Putting a node where one can be put. -/
theorem aged_put {n new : Node} {place : List String} (h : n.Sound before)
    (old : ∀ m, n.descend place = .ok m → Aged now m new)
    (free : (∀ m, n.descend place ≠ .ok m) →
      Fresh now new ∧ ∀ last ∈ place.getLast?, IsEntry last) :
    Aged now n (put now new place n) := by
  induction place generalizing n with
  | nil => exact old n rfl
  | cons name rest ih =>
    cases n with
    | file => exact aged_self
    | dir entries stamp =>
      rw [put]
      cases found : entries.lookup name with
      | some child =>
        have entry := h.entries [] rfl name (mem_names_of_lookup found)
        have below := @descend_dir_of_lookup entries stamp name child entry.short found
        refine aged_replace found (ih (h.child found) (fun m hm => old m ?_) fun none => ?_)
        · rw [below]
          exact hm
        · obtain ⟨fresh, last⟩ := free fun m hm => none m (by rw [← below]; exact hm)
          refine ⟨fresh, fun l hl => last l ?_⟩
          cases rest with
          | nil => cases hl
          | cons next more => exact hl
      | none =>
        have absent (m : Node) : (Node.dir entries stamp).descend (name :: rest) ≠ .ok m := by
          intro hm
          obtain ⟨-, child, some, -⟩ := descend_dir_cons hm
          rw [found] at some
          cases some
        obtain ⟨fresh, last⟩ := free absent
        dsimp only
        split
        · next done =>
          obtain rfl := List.isEmpty_iff.1 done
          exact aged_add h found (last name rfl) fresh
        · exact aged_self

theorem aged_erase {n : Node} {place : List String} (h : n.Sound before) :
    Aged now n (erase now place n) := by
  induction place generalizing n with
  | nil => exact aged_self
  | cons name rest ih =>
    cases n with
    | file => exact aged_self
    | dir entries stamp =>
      rw [erase]
      cases found : entries.lookup name with
      | none => exact aged_self
      | some child =>
        dsimp only
        split
        · exact aged_drop h
        · exact aged_replace found (ih (h.child found))

end Node

end UtilityCss
