import UtilityCss.Files.Change
import UtilityCss.Proofs.Files.Sound

/-! What a change leaves of a tree. Whatever has an old stamp afterwards is what it was. -/
namespace UtilityCss.FileTree

open Node (Aged)
open Path (placeIn)

/-- The tree is one as file systems have them. -/
def Sound (t : FileTree) : Prop := t.root.Sound t.clock

/-- The second tree has come from the first one: what it shows with a stamp that the first tree
could have is there in the first tree too. -/
structure Later (t t' : FileTree) : Prop where
  home : t'.home = t.home
  clock : t.clock ≤ t'.clock
  sound : t'.Sound
  aged : ∀ place m', t'.root.descend place = .ok m' →
    t.clock < m'.stamp ∨ ∃ m, t.root.descend place = .ok m ∧ m.face = m'.face

variable {t t' t'' : FileTree}

theorem Later.refl (h : t.Sound) : t.Later t :=
  ⟨rfl, Nat.le_refl _, h, fun _ m found => .inr ⟨m, found, rfl⟩⟩

theorem Later.trans (h : t.Later t') (h' : t'.Later t'') : t.Later t'' := by
  refine ⟨h'.home.trans h.home, Nat.le_trans h.clock h'.clock, h'.sound, fun place m'' found => ?_⟩
  rcases h'.aged place m'' found with new | ⟨m', found', same'⟩
  · exact .inl (Nat.lt_of_le_of_lt h.clock new)
  · have stamp : m'.stamp = m''.stamp := congrArg Prod.fst same'
    rcases h.aged place m' found' with new | ⟨m, old, same⟩
    · exact .inl (stamp ▸ new)
    · exact .inr ⟨m, old, same.trans same'⟩

private theorem later_of_aged (h : t.Sound) {root : Node} (aged : Aged (t.clock + 1) t.root root) :
    t.Later { t with root, clock := t.clock + 1 } := by
  refine ⟨rfl, Nat.le_succ _, aged.sound h, fun place m' found => ?_⟩
  rcases aged place m' found with old | new
  · exact .inr old
  · left
    rw [new.1]
    exact Nat.lt_succ_self _

private theorem later_put_free (h : t.Sound) {s : String} {place : List String}
    (free : t.freePlace s = .ok place) {new : Node} (fresh : Node.Fresh (t.clock + 1) new) :
    t.Later { t with root := Node.put (t.clock + 1) new place t.root, clock := t.clock + 1 } := by
  obtain ⟨parent, last, rfl, proper, short, -, missing, -⟩ := freePlace_eq_ok free
  refine later_of_aged h (Node.aged_put h (fun m there => ?_) fun _ => ⟨fresh, fun l hl => ?_⟩)
  · rw [missing] at there
    cases there
  · obtain rfl : last = l := by simpa using hl
    exact ⟨proper, short⟩

private theorem later_put_over (h : t.Sound) {place : List String} {old new : Node}
    (there : t.root.descend place = .ok old) (aged : Aged (t.clock + 1) old new) :
    t.Later { t with root := Node.put (t.clock + 1) new place t.root, clock := t.clock + 1 } := by
  refine later_of_aged h (Node.aged_put h (fun m found => ?_) fun none => absurd there (none old))
  rw [there] at found
  cases found
  exact aged

theorem makeDirectory_eq_ok {s : String} {made : FileTree} (h : t.makeDirectory s = .ok made) :
    ∃ text place, t.freePlace text = .ok place ∧ made = { t with
      root := Node.put (t.clock + 1) (.dir [] (t.clock + 1)) place t.root,
      clock := t.clock + 1 } := by
  rw [makeDirectory] at h
  cases free : t.freePlace (String.ofList (Path.withoutSlashes s.toList)) with
  | error problem =>
    rw [free] at h
    cases h
  | ok place =>
    rw [free] at h
    cases h
    exact ⟨_, place, free, rfl⟩

/-- A file is put in the place of another one or at a free place, which the text names. -/
theorem put_eq_ok {s : String} {content : Content} {written : FileTree}
    (h : t.put s content = .ok written) :
    written = { t with
      root := Node.put (t.clock + 1) (.file content (t.clock + 1)) (placeIn t.home s) t.root,
      clock := t.clock + 1 } ∧
    (t.freePlace s = .ok (placeIn t.home s) ∨
      ∃ c stamp, t.root.descend (placeIn t.home s) = .ok (.file c stamp)) := by
  rw [put] at h
  split at h
  · cases h
  · next c stamp place found resolved =>
    cases h
    obtain ⟨-, rfl, -⟩ := resolve_eq_ok resolved
    exact ⟨rfl, .inr ⟨c, stamp, descend_of_node? found⟩⟩
  · split at h
    · next place free =>
      cases h
      obtain ⟨-, -, -, -, -, -, -, rfl⟩ := freePlace_eq_ok free
      exact ⟨rfl, .inl free⟩
    · cases h

theorem later_makeDirectory (h : t.Sound) {s : String} (made : t.makeDirectory s = .ok t') :
    t.Later t' := by
  obtain ⟨text, place, free, rfl⟩ := makeDirectory_eq_ok made
  exact later_put_free h free (Node.fresh_dir _)

theorem later_put (h : t.Sound) {s : String} {content : Content}
    (written : t.put s content = .ok t') : t.Later t' := by
  obtain ⟨rfl, free | ⟨c, stamp, there⟩⟩ := put_eq_ok written
  · exact later_put_free h free (Node.fresh_file _ _)
  · exact later_put_over h there fun place m found => .inr (Node.fresh_file _ _ place m found)

theorem later_settleDirectory (h : t.Sound) (s : String) : t.Later (t.settleDirectory s).1 := by
  rw [settleDirectory]
  split
  · next made => exact later_makeDirectory h made
  · split <;> exact .refl h

theorem later_makeDirectories (h : t.Sound) (paths : List (String × String)) :
    t.Later (t.makeDirectories paths).1 := by
  induction paths with
  | nil => exact .refl h
  | cons first above ih =>
    obtain ⟨path, last⟩ := first
    cases above with
    | nil => exact later_settleDirectory h path
    | cons next rest =>
      rw [makeDirectories]
      split
      · exact later_settleDirectory h path
      · dsimp only
        split
        · split
          · exact ih
          · exact ih.trans (later_settleDirectory ih.sound path)
        · exact ih

theorem later_remove (h : t.Sound) {s : String} (removed : t.remove s = .ok t') : t.Later t' := by
  rw [remove] at removed
  split at removed
  · cases removed
    exact later_of_aged h (Node.aged_erase h)
  · cases removed

theorem later_touch (h : t.Sound) {s : String} (touched : t.touch s = .ok t') : t.Later t' := by
  rw [touch] at touched
  split at touched
  · next place content stamp resolved found =>
    cases touched
    obtain ⟨-, rfl, -⟩ := resolve_eq_ok resolved
    exact later_put_over h (descend_of_node? found) fun place m there =>
      .inr (Node.fresh_file _ _ place m there)
  · next place entries stamp resolved found =>
    cases touched
    obtain ⟨-, rfl, -⟩ := resolve_eq_ok resolved
    have there := descend_of_node? found
    have nodup := h.nodup _ there
    have names := h.entries _ there
    apply later_put_over h there
    intro place m below
    cases place with
    | nil =>
      cases below
      exact .inr ⟨rfl, nodup, names⟩
    | cons name rest => exact .inl ⟨m, below, rfl⟩
  · cases touched
  · cases touched

private theorem later_orFault (h : t.Sound) {result : Except FileFault FileTree}
    (later : ∀ changed, result = .ok changed → t.Later changed) :
    t.Later (t.orFault result).1 := by
  cases result with
  | ok changed => exact later changed rfl
  | error fault => exact .refl h

/-- A change brings a tree to a later one, also when it fails. -/
theorem later_change (h : t.Sound) (c : Change) : t.Later (t.change c).1 := by
  cases c with
  | write path content =>
    have wrote {made : FileTree} (sound : made.Sound) :
        made.Later (made.orFault (made.put path content)).1 :=
      later_orFault sound fun _ => later_put sound
    have above : t.Later (if (Path.directoryText path).isEmpty then (t, none)
        else t.makeDirectories (Path.ancestors (Path.directoryText path))).1 := by
      split
      · exact .refl h
      · exact later_makeDirectories h _
    simp only [change]
    generalize (if (Path.directoryText path).isEmpty then (t, none)
        else t.makeDirectories (Path.ancestors (Path.directoryText path))) = result at above ⊢
    obtain ⟨made, fault⟩ := result
    cases fault with
    | none => exact above.trans (wrote above.sound)
    | some fault => exact above
  | makeDirectory path => exact later_makeDirectories h _
  | remove path => exact later_orFault h fun _ => later_remove h
  | touch path => exact later_orFault h fun _ => later_touch h

theorem later_changeAll (h : t.Sound) (changes : List Change) :
    t.Later (t.changeAll changes).1 := by
  induction changes generalizing t with
  | nil => exact .refl h
  | cons c rest ih =>
    have first := later_change h c
    rw [changeAll]
    split
    · next changed done =>
      rw [done] at first
      exact first.trans (ih first.sound)
    · exact first

/-- Files written into an empty directory make a sound tree. -/
theorem sound_changeAll (changes : List Change) : (changeAll {} changes).1.Sound := by
  have empty : ({} : FileTree).Sound := by
    have fresh := Node.fresh_dir 0
    exact ⟨fun place m there => Nat.le_of_eq (fresh place m there).1,
      fun place m there => (fresh place m there).2.1,
      fun place m there => (fresh place m there).2.2⟩
  exact (later_changeAll empty changes).sound

end UtilityCss.FileTree
