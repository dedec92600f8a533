import RedVector.Command.Forward
import RedVector.Command.Reissue
import RedVector.Value.Ranges

/-!
# Integers at the ends of their range

Handlers negate, multiply and add the integers of their callers before any
check.  For each of these commands the arithmetic stands apart here, so that
the command is what its exact results make of it, and the arguments are named
for which a build with overflow checks and one without compute them.
-/

namespace RedVector

open Util Effect Database

namespace Command

/-! ## The arithmetic -/

section Reckoning

variable [Platform]

/-- Seconds from now, as EXPIRE computes them. -/
def expireDeadline (now seconds : Int) : Option Int := do
  i64 (now + (← i64 (seconds * 1000)))

/-- Seconds from now, as SETEX and SET compute them. -/
def setDeadline (now seconds : Int) : Option Int := do
  i64 ((← i64 (seconds * 1000)) + now)

/-- The absolute value of a count, as LREM and SRANDMEMBER compute it. -/
def magnitude (count : Int) : Option Nat := do
  pure (asUsize (← i64 (if count < 0 then -count else count)))

/-- A rank from the other end. -/
def reversedPlace (rank : Int) : Option Int := do
  i64 ((← i64 (-rank)) - 1)

/-- The ranks from a first one on. -/
def ranksFrom (length first : Nat) (start : Int) : Option (Nat × Nat) := do
  match normalizePosition (← reversedPlace start) length with
  | .error false => pure (1, 0)
  | .error true => pure (first, ← usize ((length : Int) - 1))
  | .ok last => pure (first, last)

/-- The ranks that ZREVRANGE lists in a set of so many members. -/
def reversedRanks (length : Nat) (start stop : Int) :
    Option (Nat × Nat) := do
  match normalizePosition (← reversedPlace stop) length with
  | .error true => pure (1, 0)
  | first => ranksFrom length (first.toOption.getD 0) start

/-- How many members ZREVRANGEBYSCORE takes behind an offset. -/
def reversedCount (length offset count : Nat) : Option Nat := do
  pure (if (← usize (count + offset)) > length then length - offset
    else count)

end Reckoning

def exactRanksFrom (length first : Nat) (start : Int) : Nat × Nat :=
  match normalizePosition (-start - 1) length with
  | .error false => (1, 0)
  | .error true => (first, length - 1)
  | .ok last => (first, last)

/-- The ranks of ZREVRANGE, computed with integers of any size. -/
def exactRanks (length : Nat) (start stop : Int) : Nat × Nat :=
  match normalizePosition (-stop - 1) length with
  | .error true => (1, 0)
  | first => exactRanksFrom length (first.toOption.getD 0) start

def exactCount (length offset count : Nat) : Nat :=
  if count + offset > length then length - offset else count

section Exact

variable {number : Int}

theorem expireDeadline_exactly [Platform] (now seconds : Int) :
    Exactly (fun platform => @expireDeadline platform now seconds)
        (now + seconds * 1000) ↔
      inI64 (seconds * 1000) = true ∧ inI64 (now + seconds * 1000) = true := by
  constructor
  · intro exact
    obtain ⟨scaled, multiplied, added⟩ :=
      Option.bind_eq_some_iff.mp (exact true)
    obtain ⟨first, rfl⟩ := checked_i64 multiplied
    exact ⟨first, (checked_i64 added).1⟩
  · rintro ⟨first, second⟩ checks
    simp only [expireDeadline, i64_of first, Option.bind_eq_bind,
      Option.bind_some, i64_of second]

theorem setDeadline_exactly [Platform] (now seconds : Int) :
    Exactly (fun platform => @setDeadline platform now seconds)
        (seconds * 1000 + now) ↔
      inI64 (seconds * 1000) = true ∧ inI64 (seconds * 1000 + now) = true := by
  constructor
  · intro exact
    obtain ⟨scaled, multiplied, added⟩ :=
      Option.bind_eq_some_iff.mp (exact true)
    obtain ⟨first, rfl⟩ := checked_i64 multiplied
    exact ⟨first, (checked_i64 added).1⟩
  · rintro ⟨first, second⟩ checks
    simp only [setDeadline, i64_of first, Option.bind_eq_bind,
      Option.bind_some, i64_of second]

theorem negation_exactly [Platform] {number : Int}
    (fits : inI64 number = true) :
    Exactly (fun platform => @i64 platform (-number)) (-number) ↔
      number ≠ i64Min := by
  rw [inI64_iff] at fits
  have negated : inI64 (-number) = true ↔ number ≠ i64Min := by
    rw [inI64_iff, i64Min]
    omega
  rw [← negated]
  exact ⟨fun exact => (checked_i64 (exact true)).1, fun fits _ => i64_of fits⟩

theorem magnitude_exactly [Platform] {count : Int}
    (fits : inI64 count = true) :
    Exactly (fun platform => @magnitude platform count) count.natAbs ↔
      count ≠ i64Min := by
  rw [inI64_iff] at fits
  have turned : inI64 (if count < 0 then -count else count) = true ↔
      count ≠ i64Min := by
    rw [inI64_iff, i64Min]
    split <;> omega
  rw [← turned]
  constructor
  · intro exact
    obtain ⟨amount, computed, -⟩ := Option.bind_eq_some_iff.mp (exact true)
    exact (checked_i64 computed).1
  · intro inside checks
    have same : asUsize (if count < 0 then -count else count) =
        count.natAbs := by
      unfold asUsize
      split <;> omega
    simp only [magnitude, i64_of inside, Option.bind_eq_bind,
      Option.bind_some, same]
    rfl

theorem reversedCount_exactly [Platform] (length offset count : Nat) :
    Exactly (fun platform => @reversedCount platform length offset count)
        (exactCount length offset count) ↔ count + offset ≤ usizeMax := by
  constructor
  · intro exact
    obtain ⟨sum, computed, -⟩ := Option.bind_eq_some_iff.mp (exact true)
    have inside := (checked_usize computed).2.1
    omega
  · intro inside checks
    have summed : @usize (.built checks) ((count : Int) + offset) =
        some (count + offset) :=
      @usize_of (.built checks) _ _ (Int.natCast_add _ _).symm inside
    simp only [reversedCount, summed, Option.bind_eq_bind, Option.bind_some]
    rfl

theorem checked_place [platform : Platform] {place : Int}
    (computed : @reversedPlace (platform.built true) number = some place) :
    number ≠ i64Min ∧ place = -number - 1 := by
  obtain ⟨negated, isNegated, isPlace⟩ := Option.bind_eq_some_iff.mp computed
  obtain ⟨fits, rfl⟩ := checked_i64 isNegated
  obtain ⟨-, rfl⟩ := checked_i64 isPlace
  refine ⟨?_, rfl⟩
  rintro rfl
  exact absurd fits (by decide)

theorem reversedPlace_of {platform : Platform} (fits : inI64 number = true)
    (above : number ≠ i64Min) :
    @reversedPlace platform number = some (-number - 1) := by
  unfold inI64 i64Min i64Max at fits
  unfold i64Min at above
  simp only [Bool.and_eq_true, decide_eq_true_eq] at fits
  have first : inI64 (-number) = true := by
    rw [inI64_iff]
    omega
  have second : inI64 (-number - 1) = true := by
    rw [inI64_iff]
    omega
  simp only [reversedPlace, i64_of first, Option.bind_eq_bind,
    Option.bind_some, i64_of second]

theorem checked_ranksFrom [platform : Platform] {length first : Nat}
    {start : Int} {ranks : Nat × Nat}
    (computed : @ranksFrom (platform.built true) length first start =
      some ranks) : start ≠ i64Min ∧ ¬(length = 0 ∧ start < 0) := by
  obtain ⟨place, isPlace, computed⟩ := Option.bind_eq_some_iff.mp computed
  obtain ⟨above, rfl⟩ := checked_place isPlace
  refine ⟨above, ?_⟩
  rintro ⟨empty, before⟩
  have high := normalizePosition_spec (-start - 1) length
  cases second : normalizePosition (-start - 1) length with
  | ok last =>
      rw [second] at high
      omega
  | error after =>
      rw [second] at high computed
      cases after with
      | false =>
          dsimp only at high
          omega
      | true =>
          obtain ⟨last, isLast, -⟩ := Option.bind_eq_some_iff.mp computed
          have inside := (checked_usize isLast).1
          omega

theorem ranksFrom_of {platform : Platform} {length : Nat} (first : Nat)
    {start : Int} (fits : (length : Int) ≤ i64Max)
    (startFits : inI64 start = true) (above : start ≠ i64Min)
    (straight : ¬(length = 0 ∧ start < 0)) :
    @ranksFrom platform length first start =
      some (exactRanksFrom length first start) := by
  have high := normalizePosition_spec (-start - 1) length
  have place : @reversedPlace platform start = some (-start - 1) :=
    reversedPlace_of startFits above
  unfold ranksFrom exactRanksFrom
  rw [place, Option.bind_eq_bind, Option.bind_some]
  cases second : normalizePosition (-start - 1) length with
  | ok last => rfl
  | error after =>
      cases after with
      | false => rfl
      | true =>
          rw [second] at high
          have last : @usize platform ((length : Int) - 1) =
              some (length - 1) := by
            unfold i64Max at fits
            refine @usize_of platform _ _ ?_ ?_
            · dsimp only at high
              omega
            · unfold usizeMax
              omega
          simp only [last, Option.bind_eq_bind, Option.bind_some]
          rfl

theorem reversedRanks_exactly [Platform] {length : Nat} {start stop : Int}
    (fits : (length : Int) ≤ i64Max) (startFits : inI64 start = true)
    (stopFits : inI64 stop = true) :
    Exactly (fun platform => @reversedRanks platform length start stop)
        (exactRanks length start stop) ↔
      stop ≠ i64Min ∧ ((length : Int) ≤ -stop - 1 ∨
        start ≠ i64Min ∧ ¬(length = 0 ∧ start < 0)) := by
  have low := normalizePosition_spec (-stop - 1) length
  constructor
  · intro exact
    obtain ⟨place, isPlace, computed⟩ :=
      Option.bind_eq_some_iff.mp (exact true)
    obtain ⟨stopAbove, rfl⟩ := checked_place isPlace
    refine ⟨stopAbove, ?_⟩
    cases first : normalizePosition (-stop - 1) length with
    | ok place =>
        rw [first] at computed
        exact .inr (checked_ranksFrom computed)
    | error after =>
        rw [first] at low computed
        cases after with
        | true => exact .inl low
        | false => exact .inr (checked_ranksFrom computed)
  · rintro ⟨stopAbove, startAbove⟩ checks
    have place : @reversedPlace (.built checks) stop = some (-stop - 1) :=
      reversedPlace_of stopFits stopAbove
    show @reversedRanks (.built checks) length start stop = _
    unfold reversedRanks exactRanks
    rw [place, Option.bind_eq_bind, Option.bind_some]
    cases first : normalizePosition (-stop - 1) length with
    | ok place =>
        rw [first] at low
        obtain ⟨above, straight⟩ := startAbove.resolve_left (by omega)
        exact ranksFrom_of place fits startFits above straight
    | error after =>
        rw [first] at low
        cases after with
        | true => rfl
        | false =>
            obtain ⟨above, straight⟩ := startAbove.resolve_left (by
              dsimp only at low
              omega)
            exact ranksFrom_of 0 fits startFits above straight

end Exact

end Command

end RedVector
