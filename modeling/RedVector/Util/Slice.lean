import RedVector.Value.Error
import Mathlib.Data.List.TakeDrop

/-!
# Slices

The part of a list between two signed places, both of them included.
-/

namespace RedVector.Util

/-- Where a position is; negative ones count from the end. -/
def place (position : Int) (length : Nat) : Int :=
  if position < 0 then position + length else position

/-- The elements at the places from `start`, or the first one, to `stop`, or
the last one. -/
def slice {α : Type} (list : List α) (start stop : Int) : List α :=
  let first := max 0 (place start list.length)
  let last := min ((list.length : Int) - 1) (place stop list.length)
  (list.drop first.toNat).take (last + 1 - first).toNat

/-- A position, told by its place. -/
theorem normalizePosition_place (position : Int) (length : Nat) :
    place position length < 0 ∧
        normalizePosition position length = .error false ∨
      0 ≤ place position length ∧ (length : Int) ≤ place position length ∧
        normalizePosition position length = .error true ∨
      ∃ inside : Nat, place position length = inside ∧ inside < length ∧
        normalizePosition position length = .ok inside := by
  have unfolded : normalizePosition position length =
      if place position length < 0 then .error false
      else if place position length ≥ length then .error true
      else .ok (place position length).toNat := rfl
  rw [unfolded]
  by_cases negative : place position length < 0
  · rw [if_pos negative]
    exact .inl ⟨negative, rfl⟩
  rw [if_neg negative]
  by_cases outside : place position length ≥ length
  · rw [if_pos outside]
    exact .inr (.inl ⟨Int.not_lt.mp negative, outside, rfl⟩)
  · rw [if_neg outside]
    refine .inr (.inr ⟨(place position length).toNat, ?_, ?_, rfl⟩)
    · omega
    · omega

/-- The first position of a range: it is after the list, or the range begins
at its place or at the start of the list. -/
theorem normalizePosition_start (position : Int) (length : Nat) :
    0 ≤ place position length ∧ (length : Int) ≤ place position length ∧
        normalizePosition position length = .error true ∨
      ∃ first : Nat, (first : Int) = max 0 (place position length) ∧
        (place position length < 0 ∨ place position length < length) ∧
        normalizePosition position length ≠ .error true ∧
        (normalizePosition position length).toOption.getD 0 = first := by
  rcases normalizePosition_place position length with
    ⟨before, started⟩ | after | ⟨first, isFirst, inside, started⟩
  · rw [started]
    exact .inr ⟨0, by omega, .inl before, by simp, rfl⟩
  · exact .inl after
  · rw [started]
    exact .inr ⟨first, by omega, .inr (by omega), by simp, rfl⟩

section

variable {α : Type} {list : List α}

/-- A slice that ends before it starts is empty. -/
theorem slice_eq_nil
    {start stop : Int}
    (empty : (list.length : Int) ≤ place start list.length ∨
      place stop list.length < 0 ∨
      place stop list.length < place start list.length) :
    slice list start stop = [] := by
  unfold slice
  apply List.eq_nil_of_length_eq_zero
  simp only [List.length_take, List.length_drop]
  omega

/-- A slice is what is left from its first place on, up to a number of
elements that reaches to its last place. -/
theorem slice_eq
    (start stop : Int) {first count : Nat}
    (starts : (first : Int) = max 0 (place start list.length))
    (counts : (count : Int) = place stop list.length + 1 - first ∨
      (list.length : Int) ≤ first + count ∧
        (list.length : Int) ≤ place stop list.length + 1) :
    slice list start stop = (list.drop first).take count := by
  unfold slice
  dsimp only
  rw [← starts, Int.toNat_natCast, List.take_eq_take_iff, List.length_drop]
  omega

/-- The elements between two positions are a slice, if these are the positions
between its places. -/
theorem slice_of_positions
    {start stop : Int} {first last : Nat}
    (positions : ∀ position : Nat, first ≤ position ∧ position ≤ last ↔
      position < list.length ∧ place start list.length ≤ position ∧
        position ≤ place stop list.length) :
    (list.drop first).take (last + 1 - first) = slice list start stop := by
  by_cases empty : last < first
  · rw [Nat.sub_eq_zero_of_le (by omega), List.take_zero]
    symm
    by_contra nonempty
    have none := positions (max 0 (place start list.length)).toNat
    apply nonempty
    by_cases nothing : list.length = 0
    · rw [List.eq_nil_of_length_eq_zero nothing]
      simp [slice]
    · exact slice_eq_nil (by omega)
  · have firstIn := (positions first).mp (by omega)
    have lastIn := (positions last).mp (by omega)
    have least := positions (max 0 (place start list.length)).toNat
    have most := positions (min ((list.length : Int) - 1)
      (place stop list.length)).toNat
    symm
    apply slice_eq start stop
    · omega
    · omega

theorem place_reverse (position : Int) (length : Nat) :
    place (-position - 1) length = length - 1 - place position length := by
  unfold place
  split
  · split
    · omega
    · omega
  · split
    · omega
    · omega

/-- A slice from behind is one of the reversed list. -/
theorem slice_reverse (list : List α) (start stop : Int) :
    (slice list (-stop - 1) (-start - 1)).reverse =
      slice list.reverse start stop := by
  by_cases empty : min ((list.length : Int) - 1) (place stop list.length) <
      max 0 (place start list.length)
  · have front : slice list (-stop - 1) (-start - 1) = [] := by
      apply List.eq_nil_of_length_eq_zero
      unfold slice
      rw [place_reverse, place_reverse]
      simp only [List.length_take, List.length_drop]
      omega
    have back : slice list.reverse start stop = [] := by
      apply List.eq_nil_of_length_eq_zero
      unfold slice
      rw [List.length_reverse]
      simp only [List.length_take, List.length_drop, List.length_reverse]
      omega
    rw [front, back]
    rfl
  · unfold slice
    dsimp only
    rw [place_reverse, place_reverse, List.length_reverse, List.drop_reverse,
      List.take_reverse, List.take_drop, List.length_take]
    have reach : (max 0 ((list.length : Int) - 1 -
          place stop list.length)).toNat +
        (min ((list.length : Int) - 1) (list.length - 1 -
          place start list.length) + 1 - max 0 (list.length - 1 -
            place stop list.length)).toNat =
        list.length - (max 0 (place start list.length)).toNat := by
      omega
    rw [reach]
    refine congrArg (fun first => (List.drop first _).reverse) ?_
    omega

end

end RedVector.Util
