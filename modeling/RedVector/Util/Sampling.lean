import Mathlib.Order.Interval.Finset.Nat

/-!
# Sampling without repetition

Samples are drawn until enough of them are different.  The loop ends with a
number of samples exactly when that many samples hold enough different values.
-/

namespace RedVector.Util

section

variable {α : Type} [DecidableEq α] {samples : Nat → α} {wanted : Nat}

/-- Draws from the sample at an index on until enough different values were
seen, which takes `fuel` samples at most. -/
def distinct (samples : Nat → α) (wanted : Nat) :
    Nat → Nat → Finset α → Option (Finset α)
  | 0, _, seen => if seen.card < wanted then none else some seen
  | fuel + 1, index, seen =>
      if seen.card < wanted then
        distinct samples wanted fuel (index + 1) (insert (samples index) seen)
      else some seen

/-- The values are as many as wanted, and each of them is a sample. -/
theorem distinct_spec
    {fuel index : Nat} {seen all : Finset α} (few : seen.card ≤ wanted)
    (ended : distinct samples wanted fuel index seen = some all) :
    all.card = wanted ∧
      ∀ value ∈ all, value ∈ seen ∨ ∃ drawn, samples drawn = value := by
  induction fuel generalizing index seen with
  | zero =>
      unfold distinct at ended
      split at ended
      · cases ended
      · cases ended
        exact ⟨by omega, fun _ known => .inl known⟩
  | succ fuel ih =>
      unfold distinct at ended
      split at ended
      · rename_i missing
        have next := Finset.card_insert_le (samples index) seen
        obtain ⟨enough, drawn⟩ := ih (by omega) ended
        refine ⟨enough, ?_⟩
        intro value among
        rcases drawn value among with known | sampled
        · rcases Finset.mem_insert.mp known with rfl | known
          · exact .inr ⟨index, rfl⟩
          · exact .inl known
        · exact .inr sampled
      · cases ended
        exact ⟨by omega, fun _ known => .inl known⟩

/-- The loop ends when the samples hold enough different values. -/
theorem distinct_isSome_iff {fuel index : Nat} {seen : Finset α} :
    (distinct samples wanted fuel index seen).isSome ↔
      wanted ≤ (seen ∪
        (Finset.Ico index (index + fuel)).image samples).card := by
  induction fuel generalizing index seen with
  | zero =>
      unfold distinct
      rw [Nat.add_zero, Finset.Ico_self, Finset.image_empty,
        Finset.union_empty]
      split
      · exact iff_of_false nofun (by omega)
      · exact iff_of_true rfl (by omega)
  | succ fuel ih =>
      unfold distinct
      split
      · have span : Finset.Ico index (index + (fuel + 1)) =
            insert index (Finset.Ico (index + 1) (index + 1 + fuel)) := by
          ext drawn
          simp only [Finset.mem_Ico, Finset.mem_insert]
          omega
        rw [ih, span, Finset.image_insert, Finset.insert_union,
          Finset.union_insert]
      · rename_i enough
        exact iff_of_true rfl ((Nat.le_of_not_lt enough).trans
          (Finset.card_le_card Finset.subset_union_left))

end

end RedVector.Util
