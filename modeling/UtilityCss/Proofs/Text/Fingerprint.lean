import Mathlib.Data.List.Nodup

/-! Fingerprints: numbers by which many texts are told apart at once. -/
namespace UtilityCss.Text

/-- A number made of the bytes of a text. -/
def fingerprint (s : String) : Nat :=
  s.toByteArray.data.toList.foldl (fun n b => (n * 37 + b.toNat) % 262144) 7

/-- No number comes twice, and none is a bit of the numbers seen before. -/
def distinct (seen : Nat) : List Nat → Bool
  | [] => true
  | n :: rest => !seen.testBit n && distinct (seen ||| 1 <<< n) rest

private theorem nodup_of_distinct_from {numbers : List Nat} {seen : Nat}
    (h : distinct seen numbers = true) :
    (∀ n ∈ numbers, seen.testBit n = false) ∧ numbers.Nodup := by
  induction numbers generalizing seen with
  | nil => exact ⟨fun _ hn => absurd hn List.not_mem_nil, List.nodup_nil⟩
  | cons first rest ih =>
    rw [distinct, Bool.and_eq_true, Bool.not_eq_true'] at h
    obtain ⟨fresh, nodup⟩ := ih h.2
    have later {n : Nat} (hn : n ∈ rest) : seen.testBit n = false ∧ n ≠ first := by
      have apart := fresh n hn
      rw [Nat.testBit_or, Bool.or_eq_false_iff] at apart
      refine ⟨apart.1, ?_⟩
      rintro rfl
      simp at apart
    refine ⟨fun n hn => ?_, List.nodup_cons.2 ⟨fun again => (later again).2 rfl, nodup⟩⟩
    rcases List.mem_cons.1 hn with rfl | hn
    · exact h.1
    · exact (later hn).1

/-- Texts are distinct if their fingerprints are. -/
theorem nodup_of_distinct {texts : List String}
    (h : distinct 0 (texts.map fingerprint) = true) : texts.Nodup :=
  (nodup_of_distinct_from h).2.of_map _

end UtilityCss.Text
