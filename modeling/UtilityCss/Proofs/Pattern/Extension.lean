import UtilityCss.Pattern.Basic

/-! A pattern that never asks for the end of a text is still found when the text goes on. -/
namespace UtilityCss.Pattern

/-- Whether a pattern asks for the end of a text somewhere. -/
def asksForFinish : Pattern → Bool
  | .finish => true
  | .seq first second => first.asksForFinish || second.asksForFinish
  | .alt one other => one.asksForFinish || other.asksForFinish
  | .star inner => inner.asksForFinish
  | _ => false

namespace Marked

/-- Whether a pattern on the way asks for the end of a text somewhere. -/
def asksForFinish : Marked → Bool
  | .finish => true
  | .seq first second => first.asksForFinish || second.asksForFinish
  | .alt one other => one.asksForFinish || other.asksForFinish
  | .star inner => inner.asksForFinish
  | _ => false

variable {r : Marked} {atStart : Bool}

theorem isEmptyAt_congr (h : r.asksForFinish = false) (f f' : Bool) :
    r.isEmptyAt ⟨atStart, f⟩ = r.isEmptyAt ⟨atStart, f'⟩ := by
  induction r with
  | finish => cases h
  | seq first second one two =>
    obtain ⟨h₁, h₂⟩ := Bool.or_eq_false_iff.1 h
    rw [isEmptyAt, isEmptyAt, one h₁, two h₂]
  | alt first second one two =>
    obtain ⟨h₁, h₂⟩ := Bool.or_eq_false_iff.1 h
    rw [isEmptyAt, isEmptyAt, one h₁, two h₂]
  | _ => rfl

theorem isDoneAt_congr (h : r.asksForFinish = false) (f f' : Bool) :
    r.isDoneAt ⟨atStart, f⟩ = r.isDoneAt ⟨atStart, f'⟩ := by
  induction r with
  | seq first second one two =>
    obtain ⟨h₁, h₂⟩ := Bool.or_eq_false_iff.1 h
    rw [isDoneAt, isDoneAt, one h₁, two h₂, isEmptyAt_congr h₂ f f']
  | alt first second one two =>
    obtain ⟨h₁, h₂⟩ := Bool.or_eq_false_iff.1 h
    rw [isDoneAt, isDoneAt, one h₁, two h₂]
  | star inner ih => rw [isDoneAt, isDoneAt, ih h]
  | _ => rfl

theorem shift_congr (h : r.asksForFinish = false) (f f' : Bool) (c : Char) (entered : Bool) :
    r.shift ⟨atStart, f⟩ c entered = r.shift ⟨atStart, f'⟩ c entered := by
  induction r generalizing entered with
  | seq first second one two =>
    obtain ⟨h₁, h₂⟩ := Bool.or_eq_false_iff.1 h
    rw [shift, shift, isDoneAt_congr h₁ f f', isEmptyAt_congr h₁ f f', one h₁, two h₂]
  | alt first second one two =>
    obtain ⟨h₁, h₂⟩ := Bool.or_eq_false_iff.1 h
    rw [shift, shift, one h₁, two h₂]
  | star inner ih =>
    have free : inner.asksForFinish = false := h
    rw [shift, shift, isDoneAt_congr free f f', ih free]
  | _ => rfl

@[simp] theorem asksForFinish_shift (around : Surroundings) (c : Char) (entered : Bool) :
    (r.shift around c entered).asksForFinish = r.asksForFinish := by
  induction r generalizing entered with
  | seq first second one two => rw [shift, asksForFinish, asksForFinish, one, two]
  | alt first second one two => rw [shift, asksForFinish, asksForFinish, one, two]
  | star inner ih => rw [shift, asksForFinish, asksForFinish, ih]
  | _ => rfl

theorem matchesIn_append (h : r.asksForFinish = false) {s : List Char}
    (found : r.matchesIn atStart s = true) (more : List Char) :
    r.matchesIn atStart (s ++ more) = true := by
  induction s generalizing r atStart with
  | nil =>
    cases more with
    | nil => exact found
    | cons c rest =>
      -- What was matched at the end of the text is matched before the first new character.
      rw [matchesIn, isDoneAt_congr h true, isEmptyAt_congr h true (c == '\n' && rest.isEmpty)]
        at found
      rw [List.nil_append, matchesIn, found, Bool.true_or]
  | cons c rest ih =>
    rw [matchesIn] at found
    rw [List.cons_append, matchesIn, isDoneAt_congr h _ (c == '\n' && rest.isEmpty),
      isEmptyAt_congr h _ (c == '\n' && rest.isEmpty),
      shift_congr h _ (c == '\n' && rest.isEmpty)]
    rcases Bool.or_eq_true_iff.1 found with here | later
    · exact Bool.or_eq_true_iff.2 (.inl here)
    · exact Bool.or_eq_true_iff.2 (.inr (ih ((asksForFinish_shift ..).trans h) later))

end Marked

theorem asksForFinish_unmarked (r : Pattern) : r.unmarked.asksForFinish = r.asksForFinish := by
  induction r with
  | seq first second one two => rw [unmarked, Marked.asksForFinish, asksForFinish, one, two]
  | alt first second one two => rw [unmarked, Marked.asksForFinish, asksForFinish, one, two]
  | star inner ih => rw [unmarked, Marked.asksForFinish, asksForFinish, ih]
  | _ => rfl

theorem finds_append {r : Pattern} (h : r.asksForFinish = false) {s : String}
    (found : r.finds s = true) (more : String) : r.finds (s ++ more) = true := by
  rw [finds, String.toList_append]
  exact Marked.matchesIn_append (r.asksForFinish_unmarked.trans h) found more.toList

end UtilityCss.Pattern
