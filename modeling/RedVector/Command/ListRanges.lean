import RedVector.Command.Present
import RedVector.Util.Occurrences
import RedVector.Value.Ranges

/-!
# LTRIM and LREM

What the two commands leave of a list that is stored under their key, next to
the slice and to the removal of occurrences that they stand for.
-/

namespace RedVector.Command

open Util Effect Database

section

variable [Platform] {env : Env} {db : Database} {argv : Arguments}
  {dbindex : Nat} {key : Bytes} {list : ValueList}

/-! ## LTRIM -/

/-- LTRIM ends, and the slice is what is left under the key. -/
def Trims (env : Env) (db : Database) (argv : Arguments) (dbindex : Nat)
    (key : Bytes) (list : ValueList) (start stop : Int) : Prop :=
  ∃ after, (ltrim argv dbindex).run (machine env) db =
      some (.ok .ok, after) ∧
    after.value (dbindex, key) = (Value.list (slice list start stop)).stored

/-- LTRIM on a list that is there leaves the slice unless the positions are
crossed with something between them, or the list is empty and its last place is
computed by a checked subtraction. -/
theorem ltrim_iff
    {start stop : Int} (arity : argv.length = 4)
    (named : argv.getVec 1 = .ok key) (starts : argv.getI64 2 = .ok start)
    (stops : argv.getI64 3 = .ok stop)
    (present : Present env db dbindex key (.list list))
    (fits : (list.length : Int) ≤ i64Max) :
    Trims env db argv dbindex key list start stop ↔
      ¬ (Crossed list.length start stop ∧
          place stop list.length + 1 < place start list.length) ∧
        ¬ (Underflows list.length start stop ∧
          Platform.overflowChecks = true) := by
  rw [← ValueList.ltrim_eq_slice_iff fits]
  have handles : ltrim argv dbindex = mutAndUpdate dbindex key
      (fun value => value.ltrim start stop) (fun () => .ok) .ok := by
    unfold ltrim
    simp only [validateArgumentsExact, if_pos arity, named, starts, stops]
    rfl
  unfold Trims
  rw [handles]
  cases trimmed : list.ltrim start stop with
  | none =>
      have panics : (Value.list list).ltrim start stop = none := by
        simp [Value.ltrim, trimmed]
      rw [mutAndUpdate_panics present panics]
      simp
  | some left =>
      have called : (Value.list list).ltrim start stop =
          some (.ok (), .list left) := by
        simp [Value.ltrim, trimmed]
      obtain ⟨after, ran, stays⟩ :=
        mutAndUpdate_runs present called (fun () => .ok) .ok
      rw [ran, Option.some_inj, ← Value.stored_list, ← stays]
      constructor
      · rintro ⟨other, same, isSlice⟩
        cases same
        exact isSlice
      · intro isSlice
        exact ⟨after, rfl, isSlice⟩

/-! ## LREM -/

omit [Platform] in
theorem lremFront_zero (element : Bytes) (list : ValueList) (count : Nat) :
    ValueList.lremFront element 0 list count =
      (count + list.count element,
        list.filter fun other => other ≠ element) := by
  induction list generalizing count with
  | nil => rfl
  | cons head tail ih =>
      unfold ValueList.lremFront
      rw [if_pos (.inl rfl)]
      split
      · rename_i same
        subst same
        rw [ih, List.count_cons_self]
        simp [Nat.add_comm, Nat.add_left_comm]
      · rename_i different
        rw [ih, List.count_cons_of_ne different]
        simp [different]

omit [Platform] in
theorem lremFront_positive
    {limit : Nat} (positive : 0 < limit) (element : Bytes)
    (list : ValueList) {count : Nat} (below : count ≤ limit) :
    ValueList.lremFront element limit list count =
      (count + min (limit - count) (list.count element),
        eraseFirst element (limit - count) list) := by
  induction list generalizing count with
  | nil => simp [ValueList.lremFront]
  | cons head tail ih =>
      unfold ValueList.lremFront
      by_cases full : count = limit
      · subst full
        rw [if_neg (by omega), Nat.sub_self]
        simp
      rw [if_pos (.inr (by omega))]
      split
      · rename_i same
        subst same
        have left : limit - count = (limit - (count + 1)) + 1 := by omega
        rw [ih (by omega), left, eraseFirst_head, List.count_cons_self]
        congr 1
        omega
      · rename_i different
        rw [ih below, eraseFirst_skip different,
          List.count_cons_of_ne different]

/-- What LREM leaves of a list: the first occurrences go for a positive count,
the last ones for a negative one, all of them for 0. -/
def remaining (list : ValueList) (count : Int) (element : Bytes) :
    ValueList :=
  if count = 0 then list.filter fun other => other ≠ element
  else if 0 < count then eraseFirst element count.natAbs list
  else eraseLast element count.natAbs list

/-- How many occurrences LREM removes. -/
def removals (list : ValueList) (count : Int) (element : Bytes) : Nat :=
  if count = 0 then list.count element
  else min count.natAbs (list.count element)

omit [Platform] in
/-- The method removes from the other end than LREM. -/
theorem lrem_swapped (list : ValueList) (count : Int) (element : Bytes) :
    list.lrem (count < 0) count.natAbs element =
      (removals list count element,
        if count = 0 then list.filter fun other => other ≠ element
        else if 0 < count then eraseLast element count.natAbs list
        else eraseFirst element count.natAbs list) := by
  unfold ValueList.lrem removals
  rcases Int.lt_trichotomy count 0 with negative | zero | positive
  · have front := lremFront_positive (show 0 < count.natAbs by omega) element
      list (Nat.zero_le _)
    rw [if_pos (by simpa using negative), if_neg (by omega),
      if_neg (by omega), if_neg (by omega), front]
    simp
  · subst zero
    simp [lremFront_zero, List.filter_reverse]
  · have back := lremFront_positive (show 0 < count.natAbs by omega) element
      list.reverse (Nat.zero_le _)
    rw [if_neg (by simp; omega), if_neg (by omega), if_neg (by omega),
      if_pos positive, back]
    simp [eraseLast]

/-- The magnitude of a count, whose negation may overflow. -/
theorem magnitude_eq
    {count : Int} (fits : inI64 count = true) :
    (i64 (if count < 0 then -count else count)).map asUsize =
      if count = i64Min ∧ Platform.overflowChecks = true then none
      else some count.natAbs := by
  have same : (if count < 0 then -count else count) =
      (count.natAbs : Int) := by
    split
    · omega
    · omega
  rw [inI64_iff] at fits
  obtain ⟨least, most⟩ := fits
  rw [same]
  by_cases lowest : count = i64Min
  · have outside : inI64 (count.natAbs : Int) = false := by
      subst lowest
      decide
    unfold i64
    by_cases checks : Platform.overflowChecks = true
    · rw [outside, if_neg (by decide), if_pos checks, if_pos ⟨lowest, checks⟩]
      rfl
    · subst lowest
      simp only [outside, checks]
      decide
  · have inside : inI64 (count.natAbs : Int) = true := by
      unfold i64Min at lowest
      rw [inI64_iff]
      omega
    have whole : asUsize (count.natAbs : Int) = count.natAbs := by
      unfold asUsize
      omega
    unfold i64
    rw [if_pos inside, if_neg (fun both => lowest both.1), Option.map_some,
      whole]

/-- The method that LREM calls, with the direction and the number that it
takes from the count. -/
private def lremBy (count : Int) (element : Bytes) (value : Value) :
    Option (Value.Change Nat) := do
  let limit ← i64 (if count < 0 then -count else count)
  pure (value.lrem (count < 0) (asUsize limit) element)

/-- LREM ends, with the number of occurrences that it removes, and the other
elements are what is left under the key. -/
def RemovesOccurrences (env : Env) (db : Database) (argv : Arguments)
    (dbindex : Nat) (key : Bytes) (list : ValueList) (count : Int)
    (element : Bytes) : Prop :=
  ∃ after, (lrem argv dbindex).run (machine env) db =
      some (.ok (.integer (removals list count element)), after) ∧
    after.value (dbindex, key) =
      (Value.list (remaining list count element)).stored

/-- LREM on a list that is there removes from the wrong end.  It is right
where this makes no difference: all occurrences go, or they stand next to each
other.  Besides, a build with overflow checks cannot negate the lowest
count. -/
theorem lrem_iff
    {count : Int} {element : Bytes} (arity : argv.length = 4)
    (named : argv.getVec 1 = .ok key) (counts : argv.getI64 2 = .ok count)
    (given : argv.getVec 3 = .ok element)
    (present : Present env db dbindex key (.list list)) :
    RemovesOccurrences env db argv dbindex key list count element ↔
      (count = 0 ∨ list.count element ≤ count.natAbs ∨
          Adjacent element list) ∧
        ¬ (count = i64Min ∧ Platform.overflowChecks = true) := by
  have magnitude := magnitude_eq (Arguments.getI64_fits counts)
  have handles : lrem argv dbindex =
      mutAndUpdate dbindex key (lremBy count element)
        (fun removed => .integer removed) (.array []) := by
    unfold lrem
    simp only [validateArgumentsExact, if_pos arity, named, counts, given]
    rfl
  unfold RemovesOccurrences
  rw [handles]
  by_cases lowest : count = i64Min ∧ Platform.overflowChecks = true
  · rw [if_pos lowest] at magnitude
    have panics : lremBy count element (.list list) = none := by
      unfold lremBy
      rw [Option.map_eq_none_iff.mp magnitude]
      rfl
    rw [mutAndUpdate_panics present panics]
    simp [lowest]
  · rw [if_neg lowest] at magnitude
    obtain ⟨limit, computed, isLimit⟩ := Option.map_eq_some_iff.mp magnitude
    have swapped := lrem_swapped list count element
    generalize left : (if count = 0 then list.filter fun other =>
        other ≠ element
      else if 0 < count then eraseLast element count.natAbs list
      else eraseFirst element count.natAbs list) = rest at swapped
    have called : lremBy count element (.list list) =
        some (.ok (removals list count element), .list rest) := by
      unfold lremBy Value.lrem
      rw [computed]
      dsimp only [Option.bind_eq_bind, Option.bind_some]
      rw [isLimit, swapped]
      rfl
    obtain ⟨after, ran, stays⟩ := mutAndUpdate_runs present called
      (fun removed => .integer removed) (.array [])
    rw [ran]
    have same : (rest = remaining list count element) ↔
        count = 0 ∨ list.count element ≤ count.natAbs ∨
          Adjacent element list := by
      rw [← left]
      unfold remaining
      rcases Int.lt_trichotomy count 0 with negative | zero | positive
      · rw [if_neg (by omega), if_neg (by omega), if_neg (by omega),
          if_neg (by omega), erase_iff (by omega)]
        exact (or_iff_right (show ¬ count = 0 by omega)).symm
      · simp [zero]
      · rw [if_neg (by omega), if_pos positive, if_neg (by omega),
          if_pos positive, eq_comm, erase_iff (by omega)]
        exact (or_iff_right (show ¬ count = 0 by omega)).symm
    rw [and_iff_left lowest, ← same, ← Value.stored_list, ← stays]
    constructor
    · rintro ⟨other, isAfter, isRest⟩
      cases isAfter
      exact isRest
    · intro isRest
      exact ⟨after, rfl, isRest⟩

end

/-! ## Lists that are told apart -/

section

attribute [local instance] Platform.integral

/-- A database with a list under a key. -/
def storedList (list : ValueList) : Database :=
  (Database.new {} none).put 0 (text "k") (.list list)

theorem storedList_present (list : ValueList) :
    Present (.still 0) (storedList list) 0 (text "k") (.list list) :=
  ⟨rfl, rfl, (put_sets (Database.new {} none) 0 (text "k")
    (.list list)).value_self⟩

/-- The first two of three elements. -/
theorem ltrim_front :
    Trims (.still 0) (storedList [text "a", text "b", text "c"])
      [text "LTRIM", text "k", text "0", text "1"] 0 (text "k")
      [text "a", text "b", text "c"] 0 1 :=
  (ltrim_iff rfl rfl (by decide) (by decide) (storedList_present _)
    (by decide)).mpr (by simp [Crossed, Underflows, place])

/-- From the last of three elements to the first one. -/
theorem ltrim_not_slice :
    ¬ ∀ (env : Env) (db : Database) (argv : Arguments) (dbindex : Nat)
      (key : Bytes) (list : ValueList) (start stop : Int),
      argv.length = 4 → argv.getVec 1 = .ok key →
      argv.getI64 2 = .ok start → argv.getI64 3 = .ok stop →
      Present env db dbindex key (.list list) →
      (list.length : Int) ≤ i64Max →
      Trims env db argv dbindex key list start stop := by
  intro trims
  let list : ValueList := [text "a", text "b", text "c"]
  let argv := [text "LTRIM", text "k", text "2", text "0"]
  have panics : ((ltrim argv 0).run (machine (.still 0))
      (storedList list)).isNone = true := by
    decide +kernel
  obtain ⟨after, ran, -⟩ := trims (.still 0) (storedList list) argv 0
    (text "k") list 2 0 rfl rfl (by decide) (by decide)
    (storedList_present list) (by decide)
  rw [ran] at panics
  cases panics

/-- All occurrences, counted from the front. -/
theorem lrem_all :
    RemovesOccurrences (.still 0) (storedList [text "a", text "b", text "a"])
      [text "LREM", text "k", text "2", text "a"] 0 (text "k")
      [text "a", text "b", text "a"] 2 (text "a") :=
  (lrem_iff rfl rfl (by decide) rfl (storedList_present _)).mpr
    ⟨.inr (.inl (by decide)), by decide⟩

/-- The first one of two occurrences. -/
theorem lrem_not_first :
    ¬ ∀ (env : Env) (db : Database) (argv : Arguments) (dbindex : Nat)
      (key : Bytes) (list : ValueList) (count : Int) (element : Bytes),
      argv.length = 4 → argv.getVec 1 = .ok key →
      argv.getI64 2 = .ok count → argv.getVec 3 = .ok element →
      Present env db dbindex key (.list list) →
      RemovesOccurrences env db argv dbindex key list count element := by
  intro removes
  let list : ValueList := [text "a", text "b", text "a"]
  let argv := [text "LREM", text "k", text "1", text "a"]
  have leaves : ((lrem argv 0).run (machine (.still 0))
      (storedList list)).bind (fun ended =>
        (ended.2.value (0, text "k")).map fun value =>
          (value.lindex 0).toOption) = some (some (some (text "a"))) := by
    decide +kernel
  obtain ⟨after, ran, left⟩ := removes (.still 0) (storedList list) argv 0
    (text "k") list 1 (text "a") rfl rfl (by decide) rfl
    (storedList_present list)
  rw [ran, Option.bind_some, left] at leaves
  revert leaves
  decide

end

end RedVector.Command
