import Mathlib.Algebra.Order.BigOperators.Group.Finset

/-!
# Totals

A counter that should be the sum of the weights of everything that is held.
Finitely many keys hold something.
-/

namespace RedVector.Effect

variable {κ α : Type} {weigh : κ → α → Nat} {held after : κ → Option α}
  {key : κ} {total changed : Nat}

/-- The weight of what a key holds. -/
def weightAt (weigh : κ → α → Nat) (held : κ → Option α) (key : κ) : Nat :=
  ((held key).map (weigh key)).getD 0

/-- The total is the sum of the weights of what is held. -/
def Totals (weigh : κ → α → Nat) (held : κ → Option α) (total : Nat) :
    Prop :=
  ∃ keys : Finset κ, (∀ key, key ∈ keys ↔ held key ≠ none) ∧
    total = keys.sum (weightAt weigh held)

theorem weightAt_none (nothing : held key = none) :
    weightAt weigh held key = 0 := by
  unfold weightAt
  rw [nothing]
  rfl

theorem weightAt_some {value : α} (holds : held key = some value) :
    weightAt weigh held key = weigh key value := by
  unfold weightAt
  rw [holds]
  rfl

theorem weightAt_congr (same : after key = held key) :
    weightAt weigh after key = weightAt weigh held key := by
  unfold weightAt
  rw [same]

namespace Totals

theorem nothing (weigh : κ → α → Nat) :
    Totals weigh (fun _ => none) 0 := by
  refine ⟨∅, ?_, rfl⟩
  intro key
  simp

theorem unique (totals : Totals weigh held total)
    (others : Totals weigh held changed) : total = changed := by
  obtain ⟨keys, isHeld, rfl⟩ := totals
  obtain ⟨again, isHeldAgain, rfl⟩ := others
  have same : keys = again := by
    ext key
    rw [isHeld, isHeldAgain]
  rw [same]

theorem le (totals : Totals weigh held total) (key : κ) :
    weightAt weigh held key ≤ total := by
  obtain ⟨keys, isHeld, rfl⟩ := totals
  by_cases holds : key ∈ keys
  · exact Finset.single_le_sum
      (fun _ _ => Nat.zero_le _) holds
  · have nothing : held key = none := by
      by_contra something
      exact holds ((isHeld key).mpr something)
    rw [weightAt_none nothing]
    exact Nat.zero_le _

/-- A key that holds something else changes the total by the difference. -/
theorem replace [DecidableEq κ] (totals : Totals weigh held total)
    (others : ∀ other, other ≠ key → after other = held other) :
    ∃ changed, Totals weigh after changed ∧
      changed + weightAt weigh held key =
        total + weightAt weigh after key := by
  obtain ⟨keys, isHeld, rfl⟩ := totals
  have rest : (keys.erase key).sum (weightAt weigh after) =
      (keys.erase key).sum (weightAt weigh held) := by
    refine Finset.sum_congr rfl ?_
    intro other member
    exact weightAt_congr (others other (Finset.ne_of_mem_erase member))
  have before : (keys.erase key).sum (weightAt weigh held) +
      weightAt weigh held key = keys.sum (weightAt weigh held) := by
    by_cases holds : key ∈ keys
    · exact Finset.sum_erase_add keys _ holds
    · have nothing : held key = none := by
        by_contra something
        exact holds ((isHeld key).mpr something)
      rw [Finset.erase_eq_of_notMem holds, weightAt_none nothing]
      rfl
  rw [← before]
  by_cases holds : after key = none
  · refine ⟨(keys.erase key).sum (weightAt weigh after), ?_, ?_⟩
    · refine ⟨keys.erase key, ?_, rfl⟩
      intro other
      rw [Finset.mem_erase]
      by_cases here : other = key
      · subst here
        simp [holds]
      · rw [others other here]
        simp [here, isHeld]
    · rw [rest, weightAt_none holds]
      omega
  · refine ⟨(insert key keys).sum (weightAt weigh after), ?_, ?_⟩
    · refine ⟨insert key keys, ?_, rfl⟩
      intro other
      rw [Finset.mem_insert]
      by_cases here : other = key
      · subst here
        simp [holds]
      · rw [others other here]
        simp [here, isHeld]
    · have split : (keys.erase key).sum (weightAt weigh after) +
          weightAt weigh after key =
          (insert key keys).sum (weightAt weigh after) := by
        rw [← Finset.erase_insert_eq_erase]
        exact Finset.sum_erase_add _ _ (Finset.mem_insert_self key keys)
      omega

theorem replace_iff [DecidableEq κ] (totals : Totals weigh held total)
    (others : ∀ other, other ≠ key → after other = held other) :
    Totals weigh after changed ↔
      changed + weightAt weigh held key =
        total + weightAt weigh after key := by
  obtain ⟨found, is, sum⟩ := totals.replace others
  constructor
  · intro holds
    rw [holds.unique is]
    exact sum
  · intro same
    have equal : changed = found := by omega
    rw [equal]
    exact is

/-- Where everything weighs something, what is let go counts. -/
theorem release_iff (totals : Totals weigh held total)
    (positive : ∀ key value, 0 < weigh key value)
    (released : ∀ key, after key = held key ∨ after key = none) :
    Totals weigh after total ↔ ∀ key, after key = held key := by
  constructor
  · intro remains key
    rcases released key with kept | gone
    · exact kept
    by_contra different
    obtain ⟨keys, isHeld, isSum⟩ := totals
    obtain ⟨left, isLeft, leftSum⟩ := remains
    have something : held key ≠ none := by
      intro nothing
      exact different (gone.trans nothing.symm)
    have part : left ⊆ keys := by
      intro other member
      have holds := (isLeft other).mp member
      rcases released other with kept | lost
      · rw [kept] at holds
        exact (isHeld other).mpr holds
      · exact absurd lost holds
    have same : left.sum (weightAt weigh after) =
        left.sum (weightAt weigh held) := by
      refine Finset.sum_congr rfl ?_
      intro other member
      rcases released other with kept | lost
      · exact weightAt_congr kept
      · exact absurd lost ((isLeft other).mp member)
    have outside : key ∉ left := fun member => (isLeft key).mp member gone
    have less : left.sum (weightAt weigh held) <
        keys.sum (weightAt weigh held) := by
      refine Finset.sum_lt_sum_of_subset part ((isHeld key).mpr something)
        outside ?_ fun _ _ _ => Nat.zero_le _
      obtain ⟨value, holds⟩ := Option.ne_none_iff_exists'.mp something
      rw [weightAt_some holds]
      exact positive key value
    omega
  · intro same
    have equal : after = held := funext same
    rw [equal]
    exact totals

end Totals

end RedVector.Effect
