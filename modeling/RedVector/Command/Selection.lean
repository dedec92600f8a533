import RedVector.Command.Draws
import RedVector.Command.Present

/-!
# Random selection

SPOP with a count takes that many members out of a set, and SRANDMEMBER with a
count lists that many.  A negative count makes SPOP take everything, an empty
set leaves SRANDMEMBER no range to draw from, and the least count has no
absolute value.
-/

namespace RedVector.Command

open Util Effect Database

section

variable [Platform] {env : Env} {db : Database} {dbindex : Nat} {key : Bytes}
  {set : ValueSet} {count : Int}

/-- Different members are taken out of a set, as many as are asked for or all
of them, and the others are left. -/
structure Popped (set : ValueSet) (count : Int) (popped : List Bytes)
    (left : ValueSet) : Prop where
  apart : popped.Nodup
  members : ∀ element ∈ popped, element ∈ set.members
  amount : (popped.length : Int) = min count set.scard
  left : left.members = set.members \ popped.toFinset

/-- Members of a set are listed, different ones up to all of them when the
count is not negative, and exactly as many as its absolute value otherwise. -/
structure Listed (set : ValueSet) (count : Int) (drawn : List Bytes) :
    Prop where
  members : ∀ element ∈ drawn, element ∈ set.members
  amount : (drawn.length : Int) =
    if count < 0 then -count else min count set.scard
  apart : 0 ≤ count → drawn.Nodup

omit [Platform] in
theorem asUsize_of
    {number : Int} (least : 0 ≤ number) (most : number < 18446744073709551616) :
    (asUsize number : Int) = number := by
  unfold asUsize
  omega

/-- SPOP of a count that can be read. -/
theorem spop_eq (word number : Bytes) :
    spop [word, key, number] dbindex = (do
      match ← Db.getMut dbindex key with
      | none => pure (.array [])
      | some value => do
          let count ← tryValidate
            (Arguments.getI64 [word, key, number] 2) "Invalid count"
          let (popped, after) ← spopOf value (asUsize count)
          Db.put dbindex key after
          Db.keyUpdated dbindex key
          pure (respond popped dataArray)) :=
  rfl

theorem run_spop
    (present : Present env db dbindex key (.set set)) {word number : Bytes}
    (asks : Arguments.getI64 [word, key, number] 2 = .ok count) :
    ∃ popped after,
      (spop [word, key, number] dbindex).run (machine env) db =
          some (.ok (dataArray popped), after) ∧
        after.value (dbindex, key) =
          (Value.set (set.removeAll popped)).stored ∧
        popped.Nodup ∧ (∀ element ∈ popped, element ∈ set.members) ∧
        popped.length = min (asUsize count) set.scard := by
  have read := present.kept (updateLru_kept env db dbindex key)
  obtain ⟨popped, draws, apart, members, amount⟩ :=
    run_drawMembers env (db.updateLru env dbindex key) set (asUsize count)
  obtain ⟨after, updated, left⟩ :=
    (read.put (.set (set.removeAll popped))).keyUpdated
  refine ⟨popped, after, ?_, left, apart, members, amount⟩
  rw [spop_eq]
  refine (run_op present.getMut _).trans ?_
  dsimp only
  rw [asks]
  have ran : ((spopOf (.set set) (asUsize count)).lift readInclusion).run
      (machine env) (db.updateLru env dbindex key) =
        some (.ok (.ok popped, .set (set.removeAll popped)),
          db.updateLru env dbindex key) := by
    rw [spopOf, Program.lift_bind, Program.run_bind, draws]
    rfl
  change Program.run (machine env)
    ((spopOf (.set set) (asUsize count)).lift readInclusion >>= fun drawn =>
      Db.put dbindex key drawn.2 >>= fun _ =>
        Db.keyUpdated dbindex key >>= fun _ =>
          pure (respond drawn.1 dataArray)) _ = _
  rw [Program.run_bind, ran]
  refine (run_op (read.performPut (.set (set.removeAll popped))) _).trans ?_
  exact run_op updated _

/-- SRANDMEMBER of a count that can be read. -/
theorem srandmember_eq (word number : Bytes) :
    srandmember [word, key, number] dbindex = (do
      match ← Db.get dbindex key with
      | none => pure (.array [])
      | some value => do
          let count ← tryValidate
            (Arguments.getI64 [word, key, number] 2) "Invalid count"
          let amount ← orPanic (i64 (if count < 0 then -count else count))
          pure (respond (← srandmemberOf value (asUsize amount) (count < 0))
            dataArray)) :=
  rfl

theorem run_srandmember
    (present : Present env db dbindex key (.set set)) {word number : Bytes}
    (asks : Arguments.getI64 [word, key, number] 2 = .ok count) :
    ((srandmember [word, key, number] dbindex).lift readInclusion).run
        (machine env) db =
      (i64 (if count < 0 then -count else count)).bind fun amount =>
        (((srandmemberOf (.set set) (asUsize amount) (count < 0)).lift
          readInclusion).run (machine env) db).map fun (drawn, after) =>
            (drawn.map fun drawn => respond drawn dataArray, after) := by
  rw [srandmember_eq, run_get present]
  dsimp only
  rw [asks]
  change Program.run (machine env) (Program.lift readInclusion (do
    let amount ← orPanic (i64 (if count < 0 then -count else count))
    pure (respond (← srandmemberOf (.set set) (asUsize amount) (count < 0))
      dataArray))) db = _
  cases i64 (if count < 0 then -count else count) with
  | none => rfl
  | some amount =>
      change Program.run (machine env) (Program.lift readInclusion
        (srandmemberOf (.set set) (asUsize amount) (count < 0) >>= fun drawn =>
          pure (respond drawn dataArray))) db = _
      rw [Program.lift_bind, Program.run_bind, Option.bind_some]
      cases ((srandmemberOf (.set set) (asUsize amount) (count < 0)).lift
        readInclusion).run (machine env) db with
      | none => rfl
      | some ran =>
          obtain ⟨drawn, after⟩ := ran
          cases drawn with
          | error reply => rfl
          | ok drawn => rfl

/-- The absolute value of a count; that of the least one overflows. -/
theorem i64_magnitude (fits : inI64 count = true) :
    if Platform.overflowChecks = true ∧ count = i64Min then
      i64 (if count < 0 then -count else count) = none
    else ∃ amount, i64 (if count < 0 then -count else count) = some amount ∧
      (asUsize amount : Int) = if count < 0 then -count else count := by
  unfold inI64 at fits
  simp only [Bool.and_eq_true, decide_eq_true_eq] at fits
  obtain ⟨least, most⟩ := fits
  by_cases lowest : count = i64Min
  · subst lowest
    have negated : (if i64Min < 0 then -i64Min else i64Min) =
        9223372036854775808 := by
      decide
    have outside : ¬ inI64 9223372036854775808 = true := by decide
    rw [negated]
    cases checks : Platform.overflowChecks with
    | true =>
        rw [if_pos ⟨rfl, rfl⟩]
        unfold i64
        rw [if_neg outside, checks, if_pos rfl]
    | false =>
        rw [if_neg (by simp)]
        unfold i64
        rw [if_neg outside, checks, if_neg Bool.false_ne_true]
        exact ⟨_, rfl, by decide⟩
  · rw [if_neg (fun both => lowest both.2)]
    have inside : inI64 (if count < 0 then -count else count) = true := by
      unfold inI64 i64Min i64Max at *
      simp only [Bool.and_eq_true, decide_eq_true_eq]
      split <;> omega
    refine ⟨_, if_pos inside, asUsize_of ?_ ?_⟩
    · split <;> omega
    · unfold i64Min i64Max at *
      split <;> omega

/-- SPOP takes as many different members out as it is asked for, or all, unless
the count is negative; SRANDMEMBER lists as many as it is asked for unless the
set is empty or the count is the least one and overflows panic. -/
theorem random_selection
    (present : Present env db dbindex key (.set set)) {word number : Bytes}
    (asks : Arguments.getI64 [word, key, number] 2 = .ok count) :
    ((∃ popped left after,
        (spop [word, key, number] dbindex).run (machine env) db =
          some (.ok (dataArray popped), after) ∧
        after.value (dbindex, key) = (Value.set left).stored ∧
        Popped set count popped left) ↔ 0 ≤ count) ∧
    ((∃ drawn,
        ((srandmember [word, key, number] dbindex).lift readInclusion).run
          (machine env) db = some (.ok (dataArray drawn), db) ∧
        Listed set count drawn) ↔
      set.scard ≠ 0 ∧
        ¬(Platform.overflowChecks = true ∧ count = i64Min)) := by
  have fits := Arguments.getI64_fits asks
  constructor
  · constructor
    · rintro ⟨popped, left, after, -, -, pops⟩
      have amount := pops.amount
      omega
    · intro least
      obtain ⟨popped, after, ran, held, apart, members, amount⟩ :=
        run_spop present asks
      refine ⟨popped, _, after, ran, held, apart, members, ?_,
        ValueSet.removeAll_members set popped⟩
      have most : count ≤ i64Max := by
        unfold inI64 at fits
        simp only [Bool.and_eq_true, decide_eq_true_eq] at fits
        exact fits.2
      have same := asUsize_of least (by unfold i64Max at most; omega)
      rw [amount]
      omega
  · rw [run_srandmember present asks]
    have isAmount := i64_magnitude fits
    by_cases panics : Platform.overflowChecks = true ∧ count = i64Min
    · rw [if_pos panics] at isAmount
      rw [isAmount]
      refine iff_of_false ?_ (fun both => both.2 panics)
      rintro ⟨drawn, ran, -⟩
      cases ran
    · rw [if_neg panics] at isAmount
      obtain ⟨amount, isAmount, magnitude⟩ := isAmount
      rw [isAmount, Option.bind_some]
      by_cases empty : set.scard = 0
      · rw [run_srandmemberOf_empty env db empty]
        refine iff_of_false ?_ (fun both => both.1 empty)
        rintro ⟨drawn, ran, -⟩
        cases ran
      · refine iff_of_true ?_ ⟨empty, panics⟩
        obtain ⟨drawn, ran, members, length, apart⟩ :=
          run_srandmemberOf env db empty (asUsize amount) (count < 0)
        refine ⟨drawn, ?_, members, ?_, ?_⟩
        · rw [ran]
          rfl
        · rw [length]
          by_cases negative : count < 0
          · rw [if_pos negative] at magnitude ⊢
            rw [if_pos (by simpa using negative)]
            exact magnitude
          · rw [if_neg negative] at magnitude ⊢
            rw [if_neg (by simpa using negative)]
            omega
        · intro least
          exact apart (by simpa using least)

end

section

attribute [local instance] Platform.integral

/-- A database with one set. -/
def oneSet : Database :=
  (Database.new {} none).put 0 (text "k") (.set (.data {text "m"}))

theorem oneSet_present :
    Present (.still 0) oneSet 0 (text "k") (.set (.data {text "m"})) :=
  ⟨rfl, rfl, (put_sets (Database.new {} none) 0 (text "k")
    (.set (.data {text "m"}))).value_self⟩

/-- Two members are asked for and there is one. -/
theorem random_selection_two :
    (∃ popped left after,
      (spop [text "SPOP", text "k", text "2"] 0).run (machine (.still 0))
        oneSet = some (.ok (dataArray popped), after) ∧
      after.value (0, text "k") = (Value.set left).stored ∧
      Popped (.data {text "m"}) 2 popped left) ∧
    ∃ drawn,
      ((srandmember [text "SRANDMEMBER", text "k", text "2"] 0).lift
        readInclusion).run (machine (.still 0)) oneSet =
          some (.ok (dataArray drawn), oneSet) ∧
      Listed (.data {text "m"}) 2 drawn :=
  ⟨(random_selection oneSet_present rfl).1.mpr (by decide),
    (random_selection oneSet_present rfl).2.mpr
      ⟨by decide, fun both => absurd both.2 (by decide)⟩⟩

/-- The least count is negated. -/
theorem random_selection_panics :
    ((srandmember [text "SRANDMEMBER", text "k",
      text "-9223372036854775808"] 0).lift readInclusion).run
        (machine (.still 0)) oneSet = none := by
  have asks : Arguments.getI64 [text "SRANDMEMBER", text "k",
      text "-9223372036854775808"] 2 = .ok i64Min := rfl
  rw [run_srandmember oneSet_present asks]
  rfl

end

end RedVector.Command
