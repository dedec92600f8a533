import RedVector.Util.Slice
import RedVector.Value.List
import RedVector.Value.String

/-!
# Ranges of lists and strings

Where LRANGE, LTRIM and GETRANGE give the slice between two positions, and
where their arithmetic leaves the range of `usize` instead.
-/

namespace RedVector

open Util

/-- Both positions are in the list, and the first is after the last. -/
def Crossed (length : Nat) (start stop : Int) : Prop :=
  0 ≤ place stop length ∧ place stop length < place start length ∧
    place start length < length

/-- A range of an empty list that begins before its start and does not end
there. -/
def Underflows (length : Nat) (start stop : Int) : Prop :=
  length = 0 ∧ start < 0 ∧ 0 ≤ stop

/-- Without overflow checks the number before 0 is the largest one, and the
one after that is 0. -/
theorem usize_wraps [Platform] (unchecked : ¬ Platform.overflowChecks = true) :
    usize (-1) = some usizeMax ∧ usize ((usizeMax : Int) + 1) = some 0 := by
  unfold usize
  constructor
  · rw [if_neg (by decide), if_neg unchecked]
    rfl
  · rw [if_neg (by decide), if_neg unchecked]
    rfl

/-- The last place of nothing wraps around without overflow checks. -/
theorem bind_last_empty [Platform] {α : Type} {part : Nat → Option (List α)}
    (wraps : usize ((usizeMax : Int) + 1) = some 0 →
      part usizeMax = some []) :
    (usize ((([] : List α).length : Int) - 1)).bind part = some [] ↔
      ¬ Platform.overflowChecks = true := by
  by_cases checks : Platform.overflowChecks = true
  · rw [usize_below (by simp), if_pos checks]
    simp [checks]
  · obtain ⟨last, finish⟩ := usize_wraps checks
    apply iff_of_true
    · apply Option.bind_eq_some_iff.mpr
      exact ⟨usizeMax, last, wraps finish⟩
    · exact checks

namespace ValueList

section Platform

variable [Platform] {list : ValueList} {start stop : Int}

/-- The elements that LRANGE takes between two places. -/
private def taken (list : ValueList) (first last : Nat) :
    Option (List Bytes) := do
  let difference ← usize ((last : Int) - first)
  let count ← usize ((difference : Int) + 1)
  pure ((list.drop first).take count)

private theorem taken_ordered
    {first last : Nat} (fits : (list.length : Int) ≤ i64Max)
    (ordered : first ≤ last) (inside : last ≤ list.length) :
    taken list first last =
      some ((list.drop first).take (last - first + 1)) := by
  have small : last - first + 1 ≤ usizeMax := by
    unfold i64Max at fits
    unfold usizeMax
    omega
  have difference : usize ((last : Int) - first) = some (last - first) :=
    usize_of (by omega) (by omega)
  have count : usize (((last - first : Nat) : Int) + 1) =
      some (last - first + 1) := usize_of (by omega) small
  unfold taken
  apply Option.bind_eq_some_iff.mpr
  refine ⟨last - first, difference, ?_⟩
  apply Option.bind_eq_some_iff.mpr
  exact ⟨last - first + 1, count, rfl⟩

/-- Between crossed places nothing is taken only if they are next to each
other and the difference wraps around to the largest number. -/
private theorem taken_crossed
    {first last : Nat} (fits : (list.length : Int) ≤ i64Max)
    (crossed : last < first) (inside : first < list.length) :
    taken list first last = some [] ↔
      Platform.overflowChecks = false ∧ first = last + 1 := by
  have below : (last : Int) - first < 0 := by omega
  constructor
  · intro nothing
    obtain ⟨difference, computed, nothing⟩ :=
      Option.bind_eq_some_iff.mp nothing
    obtain ⟨count, counted, nothing⟩ := Option.bind_eq_some_iff.mp nothing
    rw [usize_below below] at computed
    split at computed
    · cases computed
    rename_i checks
    refine ⟨by simpa using checks, ?_⟩
    have difference_eq := Option.some.inj computed
    have lengths := congrArg List.length (Option.some.inj nothing)
    simp only [List.length_take, List.length_drop, List.length_nil]
      at lengths
    by_contra apart
    unfold i64Max at fits
    have small : difference + 1 ≤ usizeMax := by
      unfold usizeMax
      omega
    cases (usize_of rfl small).symm.trans counted
    omega
  · rintro ⟨unchecked, next⟩
    obtain ⟨difference, count⟩ := usize_wraps (by simp [unchecked])
    have adjacent : (last : Int) - first = -1 := by omega
    rw [← adjacent] at difference
    unfold taken
    apply Option.bind_eq_some_iff.mpr
    refine ⟨usizeMax, difference, ?_⟩
    apply Option.bind_eq_some_iff.mpr
    exact ⟨0, count, rfl⟩

/-- LRANGE gives the slice unless the positions are crossed; without overflow
checks it still does if nothing is between them. -/
theorem lrange_eq_slice_iff (fits : (list.length : Int) ≤ i64Max) :
    list.lrange start stop = some (slice list start stop) ↔
      ¬ Crossed list.length start stop ∨
        Platform.overflowChecks = false ∧
          place start list.length = place stop list.length + 1 := by
  unfold Crossed
  unfold lrange
  rcases normalizePosition_place start list.length with
    ⟨before, started⟩ | ⟨-, after, started⟩ | ⟨first, isFirst, inside, started⟩
  · rw [started]
    dsimp only
    rcases normalizePosition_place stop list.length with
      ⟨early, stopped⟩ | ⟨-, late, stopped⟩ | ⟨last, isLast, within, stopped⟩
    · rw [stopped, slice_eq_nil (.inr (.inl early))]
      exact iff_of_true rfl (.inl (by omega))
    · rw [stopped]
      have all := taken_ordered fits (Nat.zero_le list.length) (Nat.le_refl _)
      rw [← slice_eq start stop (by omega) (.inr (by omega))] at all
      exact iff_of_true all (.inl (by omega))
    · rw [stopped]
      have some := taken_ordered fits (Nat.zero_le last) (Nat.le_of_lt within)
      rw [← slice_eq start stop (by omega) (.inl (by omega))] at some
      exact iff_of_true some (.inl (by omega))
  · rw [started, slice_eq_nil (.inl after)]
    exact iff_of_true rfl (.inl (by omega))
  · rw [started]
    dsimp only
    rcases normalizePosition_place stop list.length with
      ⟨early, stopped⟩ | ⟨-, late, stopped⟩ | ⟨last, isLast, within, stopped⟩
    · rw [stopped, slice_eq_nil (.inr (.inl early))]
      exact iff_of_true rfl (.inl (by omega))
    · rw [stopped]
      have all := taken_ordered fits (Nat.le_of_lt inside) (Nat.le_refl _)
      rw [← slice_eq start stop (by omega) (.inr (by omega))] at all
      exact iff_of_true all (.inl (by omega))
    · rw [stopped]
      by_cases ordered : first ≤ last
      · have some := taken_ordered fits ordered (Nat.le_of_lt within)
        rw [← slice_eq start stop (by omega) (.inl (by omega))] at some
        exact iff_of_true some (.inl (by omega))
      · have crossed := taken_crossed fits (Nat.not_le.mp ordered) inside
        rw [slice_eq_nil (.inr (.inr (by omega)))]
        rw [isFirst, isLast, or_iff_right (by omega)]
        apply crossed.trans
        apply and_congr_right
        intro _
        omega

/-- In a build with overflow checks and in one without, LRANGE gives the
slice exactly if the positions are not crossed. -/
theorem lrange_iff (list : ValueList) (start stop : Int)
    (fits : (list.length : Int) ≤ i64Max) :
    (∀ checks, @lrange (.built checks) list start stop =
        some (slice list start stop)) ↔
      ¬ Crossed list.length start stop := by
  constructor
  · intro slices crossed
    have checked := (@lrange_eq_slice_iff (.built true) list start stop
      fits).mp (slices true)
    rcases checked with straight | ⟨unchecked, -⟩
    · exact straight crossed
    · cases unchecked
  · intro straight checks
    exact (@lrange_eq_slice_iff (.built checks) list start stop fits).mpr
      (.inl straight)

end Platform

section

attribute [local instance] Platform.integral

/-- A whole list. -/
theorem lrange_whole :
    @lrange (.built false) [text "a", text "b"] 0 (-1) =
        some (slice [text "a", text "b"] 0 (-1)) ∧
      @lrange (.built true) [text "a", text "b"] 0 (-1) =
        some (slice [text "a", text "b"] 0 (-1)) := by
  have sliced := (lrange_iff [text "a", text "b"] 0 (-1) (by decide)).mpr
    (by simp [Crossed, place])
  exact ⟨sliced false, sliced true⟩

/-- From the last of three elements to the first one. -/
theorem lrange_not_slice :
    ¬ ∀ (list : ValueList) (start stop : Int),
      (list.length : Int) ≤ i64Max →
      ∀ checks, @lrange (.built checks) list start stop =
        some (slice list start stop) := by
  intro slices
  cases slices [text "a", text "b", text "c"] 2 0 (by decide) true

end

/-! ## Trimming -/

section Platform

variable [Platform] {list : ValueList} {start stop : Int}

/-- What LTRIM leaves of a list between two places. -/
private def kept (list : ValueList) (first last : Nat) :
    Option ValueList := do
  let finish ← usize ((last : Int) + 1)
  if list.length < finish then none
  else if finish < first then none
  else pure ((list.take finish).drop first)

private theorem kept_inside
    {first last : Nat} (fits : (list.length : Int) ≤ i64Max)
    (inside : last < list.length) (start stop : Int)
    (starts : (first : Int) = max 0 (place start list.length))
    (stops : (last : Int) = place stop list.length ∨
      last + 1 = list.length ∧
        (list.length : Int) ≤ place stop list.length) :
    kept list first last = some (slice list start stop) ↔
      first ≤ last + 1 := by
  have small : last + 1 ≤ usizeMax := by
    unfold i64Max at fits
    unfold usizeMax
    omega
  have computed : kept list first last =
      (usize ((last : Int) + 1)).bind fun finish =>
        if list.length < finish then none
        else if finish < first then none
        else some ((list.take finish).drop first) := rfl
  have finish : usize ((last : Int) + 1) = some (last + 1) :=
    usize_of (by omega) small
  rw [computed, finish, Option.bind_some, if_neg (by omega)]
  split
  · rename_i beyond
    apply iff_of_false
    · simp
    · exact Nat.not_le.mpr beyond
  · rename_i ordered
    apply iff_of_true
    · rw [List.drop_take, slice_eq start stop starts]
      omega
    · exact Nat.not_lt.mp ordered

/-- LTRIM from a place that is not after the list to one that is not before
it. -/
private theorem ltrim_kept
    {stopped : Except Bool Nat}
    (begins : normalizePosition start list.length ≠ .error true)
    (isStopped : normalizePosition stop list.length = stopped)
    (ends : stopped ≠ .error false) :
    list.ltrim start stop =
      (match stopped with
        | .ok position => some position
        | .error _ => usize ((list.length : Int) - 1)).bind
      (kept list
        ((normalizePosition start list.length).toOption.getD 0)) := by
  unfold ltrim
  rw [isStopped]
  split
  · rename_i started
    exact absurd started begins
  · cases stopped with
    | ok last => rfl
    | error isAfter =>
        cases isAfter with
        | false => exact absurd rfl ends
        | true => rfl

/-- Nothing is left where LTRIM ends before the list. -/
private theorem ltrim_before
    (ends : normalizePosition stop list.length = .error false) :
    list.ltrim start stop = some [] := by
  unfold ltrim
  rw [ends]
  split
  · rfl
  · rfl

/-- The last place of an empty list wraps around twice without overflow
checks, and nothing is left. -/
private theorem kept_underflow (first : Nat) (isFirst : first = 0) :
    (usize ((([] : ValueList).length : Int) - 1)).bind (kept [] first) =
        some [] ↔
      ¬ Platform.overflowChecks = true := by
  subst isFirst
  apply bind_last_empty
  intro finish
  apply Option.bind_eq_some_iff.mpr
  exact ⟨0, finish, rfl⟩

/-- LTRIM leaves the slice unless the positions are crossed with something
between them, or the list is empty and its last place is computed by a checked
subtraction. -/
theorem ltrim_eq_slice_iff (fits : (list.length : Int) ≤ i64Max) :
    list.ltrim start stop = some (slice list start stop) ↔
      ¬ (Crossed list.length start stop ∧
          place stop list.length + 1 < place start list.length) ∧
        ¬ (Underflows list.length start stop ∧
          Platform.overflowChecks = true) := by
  have small : list.length ≤ usizeMax := by
    unfold i64Max at fits
    unfold usizeMax
    omega
  have places : list.length = 0 → place start list.length = start ∧
      place stop list.length = stop := by
    unfold place
    omega
  unfold Crossed Underflows
  rcases normalizePosition_start start list.length with
    ⟨-, after, started⟩ | ⟨first, isFirst, reach, begins, started⟩
  · rw [slice_eq_nil (.inl after)]
    unfold ltrim
    rw [started]
    exact iff_of_true rfl ⟨by omega, by omega⟩
  rcases normalizePosition_place stop list.length with
    ⟨early, stopped⟩ | ⟨-, late, stopped⟩ | ⟨last, isLast, within, stopped⟩
  · rw [slice_eq_nil (.inr (.inl early)), ltrim_before stopped]
    exact iff_of_true rfl ⟨by omega, by omega⟩
  · rw [ltrim_kept begins stopped (by simp), started]
    dsimp only
    by_cases empty : list.length = 0
    · cases List.eq_nil_of_length_eq_zero empty
      have nothing : slice ([] : ValueList) start stop = [] :=
        List.eq_nil_of_length_eq_zero (by simp [slice])
      rw [nothing, kept_underflow first (by omega)]
      obtain ⟨startPlace, stopPlace⟩ := places rfl
      have starts : start < 0 := by omega
      have stops : 0 ≤ stop := by omega
      constructor
      · intro unchecked
        exact ⟨by omega, fun both => unchecked both.2⟩
      · rintro ⟨-, unfit⟩ checks
        exact unfit ⟨⟨rfl, starts, stops⟩, checks⟩
    · have last : usize ((list.length : Int) - 1) = some (list.length - 1) :=
        usize_of (by omega) (by omega)
      rw [last, Option.bind_some]
      refine (kept_inside fits (by omega) start stop isFirst
        (.inr ⟨by omega, late⟩)).trans ?_
      omega
  · rw [ltrim_kept begins stopped (by simp), started]
    dsimp only
    rw [Option.bind_some]
    refine (kept_inside fits within start stop isFirst
      (.inl isLast.symm)).trans ?_
    omega

end Platform

end ValueList

namespace ValueString

section Platform

variable [Platform] {value : ValueString} {start stop : Int}

/-- The bytes that GETRANGE copies between two places. -/
private def copied (bytes : Bytes) (first last : Nat) : Option Bytes := do
  if last < first then pure []
  else
    let capacity ← usize ((last : Int) - first + 1)
    let _ ← usize ((last : Int) + 1)
    pure ((bytes.drop first).take capacity)

private theorem copied_inside
    {bytes : Bytes} {first last : Nat}
    (fits : (bytes.length : Int) ≤ i64Max) (inside : last < bytes.length)
    (start stop : Int)
    (starts : (first : Int) = max 0 (place start bytes.length))
    (stops : (last : Int) = place stop bytes.length ∨
      last + 1 = bytes.length ∧
        (bytes.length : Int) ≤ place stop bytes.length) :
    copied bytes first last = some (slice bytes start stop) := by
  have small : last + 1 ≤ usizeMax := by
    unfold i64Max at fits
    unfold usizeMax
    omega
  unfold copied
  split
  · rename_i crossed
    have length : (slice bytes start stop).length = 0 := by
      unfold slice
      simp only [List.length_take, List.length_drop]
      omega
    rw [List.eq_nil_of_length_eq_zero length]
    rfl
  · rename_i ordered
    have capacity : usize ((last : Int) - first + 1) =
        some (last + 1 - first) := usize_of (by omega) (by omega)
    have finish : usize ((last : Int) + 1) = some (last + 1) :=
      usize_of (by omega) small
    apply Option.bind_eq_some_iff.mpr
    refine ⟨last + 1 - first, capacity, ?_⟩
    apply Option.bind_eq_some_iff.mpr
    refine ⟨last + 1, finish, ?_⟩
    rw [slice_eq start stop starts]
    · rfl
    · omega

/-- The last place of an empty string wraps around twice without overflow
checks, and nothing is copied. -/
private theorem copied_underflow (first : Nat) (isFirst : first = 0) :
    (usize ((([] : Bytes).length : Int) - 1)).bind (copied [] first) =
        some [] ↔
      ¬ Platform.overflowChecks = true := by
  subst isFirst
  apply bind_last_empty
  intro wraps
  apply Option.bind_eq_some_iff.mpr
  refine ⟨0, ?_, ?_⟩
  · rw [Nat.cast_zero, Int.sub_zero]
    exact wraps
  · apply Option.bind_eq_some_iff.mpr
    exact ⟨0, wraps, rfl⟩

private theorem getrange_copied
    {stopped : Except Bool Nat}
    (begins : normalizePosition start value.toVec.length ≠ .error true)
    (isStopped : normalizePosition stop value.toVec.length = stopped)
    (ends : stopped ≠ .error false) :
    value.getrange start stop =
      (match stopped with
        | .ok position => some position
        | .error _ => usize ((value.toVec.length : Int) - 1)).bind
      (copied value.toVec
        ((normalizePosition start value.toVec.length).toOption.getD 0)) := by
  unfold getrange
  dsimp only
  rw [isStopped]
  split
  · rename_i started
    exact absurd started begins
  · cases stopped with
    | ok last => rfl
    | error isAfter =>
        cases isAfter with
        | false => exact absurd rfl ends
        | true => rfl

private theorem getrange_before
    (ends : normalizePosition stop value.toVec.length = .error false) :
    value.getrange start stop = some [] := by
  unfold getrange
  dsimp only
  rw [ends]
  split
  · rfl
  · rfl

/-- GETRANGE copies the slice unless the string is empty and its last place
is computed by a checked subtraction. -/
theorem getrange_eq_slice_iff (fits : (value.toVec.length : Int) ≤ i64Max) :
    value.getrange start stop = some (slice value.toVec start stop) ↔
      ¬ (Underflows value.toVec.length start stop ∧
        Platform.overflowChecks = true) := by
  have small : value.toVec.length ≤ usizeMax := by
    unfold i64Max at fits
    unfold usizeMax
    omega
  have places : value.toVec.length = 0 →
      place start value.toVec.length = start ∧
      place stop value.toVec.length = stop := by
    unfold place
    omega
  unfold Underflows
  rcases normalizePosition_start start value.toVec.length with
    ⟨-, after, started⟩ | ⟨first, isFirst, reach, begins, started⟩
  · rw [slice_eq_nil (.inl after)]
    unfold getrange
    dsimp only
    rw [started]
    exact iff_of_true rfl (by omega)
  rcases normalizePosition_place stop value.toVec.length with
    ⟨early, stopped⟩ | ⟨-, late, stopped⟩ | ⟨last, isLast, within, stopped⟩
  · rw [slice_eq_nil (.inr (.inl early)), getrange_before stopped]
    exact iff_of_true rfl (by omega)
  · rw [getrange_copied begins stopped (by simp), started]
    dsimp only
    by_cases empty : value.toVec.length = 0
    · obtain ⟨startPlace, stopPlace⟩ := places empty
      have starts : start < 0 := by omega
      have stops : 0 ≤ stop := by omega
      have isEmpty := List.eq_nil_of_length_eq_zero empty
      have nothing : slice ([] : Bytes) start stop = [] :=
        List.eq_nil_of_length_eq_zero (by simp [slice])
      rw [isEmpty, nothing, copied_underflow first (by omega)]
      simp [starts, stops]
    · have last : usize ((value.toVec.length : Int) - 1) =
          some (value.toVec.length - 1) := usize_of (by omega) (by omega)
      rw [last, Option.bind_some]
      exact iff_of_true
        (copied_inside fits (by omega) start stop isFirst
          (.inr ⟨by omega, late⟩))
        (by omega)
  · rw [getrange_copied begins stopped (by simp), started]
    dsimp only
    rw [Option.bind_some]
    exact iff_of_true
      (copied_inside fits within start stop isFirst (.inl isLast.symm))
      (by omega)

/-- In a build with overflow checks and in one without, GETRANGE copies the
slice exactly if the last place of the string can be computed. -/
theorem getrange_iff (value : ValueString) (start stop : Int)
    (fits : (value.toVec.length : Int) ≤ i64Max) :
    (∀ checks, @getrange (.built checks) value start stop =
        some (slice value.toVec start stop)) ↔
      ¬ Underflows value.toVec.length start stop := by
  constructor
  · intro slices underflows
    have checked := (@getrange_eq_slice_iff (.built true) value start stop
      fits).mp (slices true)
    exact checked ⟨underflows, rfl⟩
  · intro straight checks
    exact (@getrange_eq_slice_iff (.built checks) value start stop fits).mpr
      fun both => straight both.1

end Platform

section

attribute [local instance] Platform.integral

/-- The last two bytes of a number. -/
theorem getrange_number :
    @getrange (.built false) (.integer (-123)) (-2) 100 =
        some (slice (intToString (-123)) (-2) 100) ∧
      @getrange (.built true) (.integer (-123)) (-2) 100 =
        some (slice (intToString (-123)) (-2) 100) := by
  have sliced := (getrange_iff (.integer (-123)) (-2) 100 (by decide)).mpr
    (fun underflows => absurd underflows.1 (by decide))
  exact ⟨sliced false, sliced true⟩

/-- The whole of an empty string. -/
theorem getrange_not_slice :
    ¬ ∀ (value : ValueString) (start stop : Int),
      (value.toVec.length : Int) ≤ i64Max →
      ∀ checks, @getrange (.built checks) value start stop =
        some (slice value.toVec start stop) := by
  intro slices
  cases slices (.data []) (-1) 0 (by decide) true

end

end ValueString

end RedVector
