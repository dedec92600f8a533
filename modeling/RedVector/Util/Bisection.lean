import Mathlib.Data.Nat.Basic

/-!
# Bisection

A search that probes the middle of what is left.  Among equal places it stops
at the one that the halving of the range reaches first.
-/

namespace RedVector.Util

/-- The middle of a range. -/
def middle (left right : Nat) : Nat :=
  left + (right - left) / 2

theorem middle_within {left right : Nat} (proper : left < right) :
    left ≤ middle left right ∧ middle left right < right := by
  unfold middle
  omega

/-- `order place` is how what stands there compares with what is sought. -/
def bisect (order : Nat → Ordering) (left right : Nat) : Option Nat :=
  if _ : left < right then
    match order (middle left right) with
    | .eq => some (middle left right)
    | .lt => bisect order (middle left right + 1) right
    | .gt => bisect order left (middle left right)
  else none
termination_by right - left
decreasing_by
  all_goals
    have within := middle_within ‹left < right›
    omega

/-- How often the range is halved before a place is its middle. -/
def level (left right place : Nat) : Nat :=
  if proper : left < right then
    if place < middle left right then
      level left (middle left right) place + 1
    else if middle left right < place then
      level (middle left right + 1) right place + 1
    else 0
  else 0
termination_by right - left
decreasing_by
  all_goals
    have within := middle_within proper
    omega

variable {left right place : Nat}

theorem level_middle (proper : left < right) :
    level left right (middle left right) = 0 := by
  rw [level]
  simp [proper]

theorem level_below (proper : left < right)
    (below : place < middle left right) :
    level left right place = level left (middle left right) place + 1 := by
  rw [level, dif_pos proper, if_pos below]

theorem level_above (proper : left < right)
    (above : middle left right < place) :
    level left right place =
      level (middle left right + 1) right place + 1 := by
  rw [level, dif_pos proper, if_neg (Nat.not_lt_of_lt above), if_pos above]

/-- What is less stands below and what is greater above. -/
structure Ascends (order : Nat → Ordering) (right : Nat) : Prop where
  less : ∀ low high, low ≤ high → high < right →
    order high = .lt → order low = .lt
  greater : ∀ low high, low ≤ high → high < right →
    order low = .gt → order high = .gt

variable {order : Nat → Ordering}

theorem Ascends.mono {limit : Nat} (ascends : Ascends order limit)
    (less : right ≤ limit) : Ascends order right where
  less low high among inside :=
    ascends.less low high among (Nat.lt_of_lt_of_le inside less)
  greater low high among inside :=
    ascends.greater low high among (Nat.lt_of_lt_of_le inside less)

/-- The place that is found is halved to before every other one. -/
theorem bisect_first (ascends : Ascends order right)
    (found : bisect order left right = some place) :
    left ≤ place ∧ place < right ∧ order place = .eq ∧
      ∀ other, left ≤ other → other < right → order other = .eq →
        other ≠ place →
          level left right place < level left right other := by
  fun_induction bisect order left right with
  | case1 left right proper equal =>
      cases found
      obtain ⟨low, high⟩ := middle_within proper
      refine ⟨low, high, equal, ?_⟩
      intro other _ _ _ different
      rw [level_middle proper]
      rcases Nat.lt_or_gt_of_ne different with below | above
      · rw [level_below proper below]
        exact Nat.succ_pos _
      · rw [level_above proper above]
        exact Nat.succ_pos _
  | case2 left right proper less ih =>
      obtain ⟨low, high⟩ := middle_within proper
      obtain ⟨above, inside, equal, first⟩ := ih ascends found
      refine ⟨by omega, inside, equal, ?_⟩
      intro other _ among same different
      have beyond : middle left right < other := by
        refine Nat.lt_of_not_le fun before => ?_
        have smaller := ascends.less other _ before high less
        rw [same] at smaller
        cases smaller
      rw [level_above proper (by omega), level_above proper beyond]
      exact Nat.succ_lt_succ (first other beyond among same different)
  | case3 left right proper greater ih =>
      obtain ⟨low, high⟩ := middle_within proper
      obtain ⟨above, inside, equal, first⟩ :=
        ih (ascends.mono (Nat.le_of_lt high)) found
      refine ⟨above, by omega, equal, ?_⟩
      intro other among inside' same different
      have before : other < middle left right := by
        refine Nat.lt_of_not_le fun beyond => ?_
        have larger := ascends.greater _ other beyond inside' greater
        rw [same] at larger
        cases larger
      rw [level_below proper inside, level_below proper before]
      exact Nat.succ_lt_succ (first other among before same different)
  | case4 left right improper => cases found

theorem bisect_none (ascends : Ascends order right)
    (missing : bisect order left right = none) (low : left ≤ place)
    (high : place < right) : order place ≠ .eq := by
  intro equal
  fun_induction bisect order left right with
  | case1 left right proper same => cases missing
  | case2 left right proper less ih =>
      have beyond : middle left right < place := by
        refine Nat.lt_of_not_le fun before => ?_
        have smaller := ascends.less place _ before
          (middle_within proper).2 less
        rw [equal] at smaller
        cases smaller
      exact ih ascends missing beyond high
  | case3 left right proper greater ih =>
      have before : place < middle left right := by
        refine Nat.lt_of_not_le fun beyond => ?_
        have larger := ascends.greater _ place beyond high greater
        rw [equal] at larger
        cases larger
      have lower := Nat.le_of_lt (middle_within proper).2
      exact ih (ascends.mono lower) missing low before
  | case4 left right improper => omega

end RedVector.Util
