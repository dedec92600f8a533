import RedVector.Command.Present
import RedVector.Command.Strings
import RedVector.Value.Lossless

/-!
# The INCR family

The four commands on a string that spells a number, in either of its
representations.
-/

namespace RedVector

open Util Effect Database

namespace ValueString

/-- The only number that is not read from the bytes it is written as is 0. -/
theorem parseUtf8I64_intToString
    {number : Int} (fits : inI64 number = true) :
    parseUtf8I64 (intToString number) =
      if number = 0 then none else some number := by
  have parsed := parseI64_intToString fits
  have utf8 := parseInteger_utf8 (parseInteger_intToString number)
  unfold parseUtf8I64
  by_cases zero : number = 0
  · subst zero
    rfl
  · have leading : (intToString number).head? ≠ some 48 := by
      cases number with
      | ofNat count =>
          apply natToString_head
          apply Nat.pos_of_ne_zero
          rintro rfl
          exact zero rfl
      | negSucc count => simp [intToString]
    rw [if_neg leading, if_pos utf8, parsed, if_neg zero]

/-- A number is incremented in either representation, but for a 0 that is
stored as bytes. -/
theorem incr_eq
    {value : ValueString} {number : Int} (fits : inI64 number = true)
    (spells : value.toVec = intToString number) (increment : Int) :
    value = .data [48] ∧ number = 0 ∧
        (∃ error, value.incr increment = .error error) ∨
      value ≠ .data [48] ∧ value.incr increment =
        if inI64 (number + increment) then
          .ok (number + increment, .integer (number + increment))
        else .error .overflowError := by
  cases value with
  | integer stored =>
      right
      have same : stored = number := by
        have read := parseInteger_intToString stored
        have spelled : intToString stored = intToString number := spells
        rw [spelled, parseInteger_intToString] at read
        exact (Option.some.inj read).symm
      subst same
      exact ⟨nofun, rfl⟩
  | data bytes =>
      have spelled : bytes = intToString number := spells
      have read := parseUtf8I64_intToString fits
      rw [← spelled] at read
      by_cases zero : number = 0
      · left
        subst zero
        subst spelled
        rw [if_pos rfl] at read
        refine ⟨rfl, rfl,
          .valueError ⟨text "ERR value is not a valid integer", by decide⟩, ?_⟩
        simp only [incr, read]
        rfl
      · right
        rw [if_neg zero] at read
        constructor
        · rintro ⟨⟩
          cases read
        · simp only [incr, read]
          rfl

end ValueString

namespace Command

section

variable [Platform]

/-- A command of the family with the delta that it asks for. -/
inductive Increments :
    (Arguments → Nat → Writer Response) → Arguments → Int → Prop where
  | incr {argv : Arguments} (arity : argv.length = 2) :
      Increments incr argv 1
  | decr {argv : Arguments} (arity : argv.length = 2) :
      Increments decr argv (-1)
  | incrby {argv : Arguments} {increment : Int} (arity : argv.length = 3)
      (given : argv.getI64 2 = .ok increment) :
      Increments incrby argv increment
  | decrby {argv : Arguments} {decrement : Int} (arity : argv.length = 3)
      (given : argv.getI64 2 = .ok decrement)
      (fits : inI64 (-decrement) = true) :
      Increments decrby argv (-decrement)

variable {env : Env} {db : Database} {argv : Arguments} {dbindex : Nat}
  {key : Bytes} {handle : Arguments → Nat → Writer Response} {delta : Int}

theorem Increments.fits (increments : Increments handle argv delta) :
    inI64 delta = true := by
  cases increments with
  | incr => decide
  | decr => decide
  | incrby arity given => exact Arguments.getI64_fits given
  | decrby arity given fits => exact fits

theorem Increments.handles
    (increments : Increments handle argv delta) (dbindex : Nat) :
    handle argv dbindex = genericIncr argv dbindex delta := by
  cases increments with
  | incr arity =>
      simp only [Command.incr, validateArgumentsExact, if_pos arity]
      rfl
  | decr arity =>
      simp only [Command.decr, validateArgumentsExact, if_pos arity]
      rfl
  | incrby arity given =>
      simp only [Command.incrby, validateArgumentsExact, if_pos arity, given]
      rfl
  | decrby arity given fits =>
      simp only [Command.decrby, validateArgumentsExact, if_pos arity, given,
        i64, if_pos fits]
      rfl

/-- The string under a key spells a number from which every delta can be
added again. -/
def Readable (value : ValueString) (number : Int) : Prop :=
  value.toVec = intToString number ∧ ∀ increment,
    value.incr increment =
      if inI64 (number + increment) then
        .ok (number + increment, .integer (number + increment))
      else .error .overflowError

/-- The command adds the delta and replies with the sum, which can be read
again; a sum that does not fit is an error and changes nothing. -/
def Adds (env : Env) (db : Database)
    (handle : Arguments → Nat → Writer Response) (argv : Arguments)
    (dbindex : Nat) (key : Bytes) (value : ValueString)
    (number delta : Int) : Prop :=
  ∃ reply after, (handle argv dbindex).run (machine env) db =
      some (.ok reply, after) ∧
    if inI64 (number + delta) then
      reply = .integer (number + delta) ∧
        ∃ sum, after.value (dbindex, key) = some (.string sum) ∧
          Readable sum (number + delta)
    else
      (∃ message, reply = .error message) ∧
        after.value (dbindex, key) = some (.string value)

/-- The family adds to every string that spells a number, but for a 0 that is
stored as bytes. -/
theorem increments_iff
    {value : ValueString} {number : Int}
    (increments : Increments handle argv delta)
    (named : argv.getVec 1 = .ok key)
    (present : Present env db dbindex key (.string value))
    (fits : inI64 number = true)
    (spells : value.toVec = intToString number) :
    Adds env db handle argv dbindex key value number delta ↔
      value ≠ .data [48] := by
  have handles : handle argv dbindex = (do
      let r ← createThen dbindex key fun value => some (value.incr delta)
      Db.keyUpdated dbindex key
      pure (respond r .integer)) := by
    rw [increments.handles]
    unfold genericIncr
    simp only [named]
    rfl
  unfold Adds
  rw [handles]
  have runs : ∀ {answer : Operation Int} {changed : Value},
      (Value.string value).incr delta = (answer, changed) → ∃ after,
        (do
          let r ← createThen dbindex key fun value => some (value.incr delta)
          Db.keyUpdated dbindex key
          pure (respond r .integer)).run (machine env) db =
            some (.ok (respond answer .integer), after) ∧
          after.value (dbindex, key) = changed.stored := by
    intro answer changed called
    exact createThen_runs present (congrArg some called)
      (fun r => respond r .integer)
  rcases ValueString.incr_eq fits spells delta with
    ⟨isZero, zero, error, failed⟩ | ⟨notZero, added⟩
  · have called : (Value.string value).incr delta =
        (.error error, .string value) := by
      simp only [Value.incr, failed]
      rfl
    obtain ⟨after, ran, -⟩ := runs called
    have fitting : inI64 (number + delta) = true := by
      rw [zero, Int.zero_add]
      exact increments.fits
    rw [ran]
    apply iff_of_false
    · rintro ⟨reply, other, same, outcome⟩
      rw [if_pos fitting] at outcome
      cases same
      cases outcome.1
    · exact fun notZero => notZero isZero
  · apply iff_of_true _ notZero
    by_cases fitting : inI64 (number + delta) = true
    · rw [if_pos fitting] at added
      have called : (Value.string value).incr delta =
          (.ok (number + delta), .string (.integer (number + delta))) := by
        simp only [Value.incr, added]
      obtain ⟨after, ran, left⟩ := runs called
      refine ⟨_, after, ran, ?_⟩
      rw [if_pos fitting]
      exact ⟨rfl, _, left, rfl, fun _ => rfl⟩
    · rw [if_neg fitting] at added
      have called : (Value.string value).incr delta =
          (.error .overflowError, .string value) := by
        simp only [Value.incr, added]
        rfl
      obtain ⟨after, ran, left⟩ := runs called
      refine ⟨_, after, ran, ?_⟩
      rw [if_neg fitting]
      exact ⟨⟨_, rfl⟩, left⟩

end

section

attribute [local instance] Platform.integral

/-- A database with a string under a key. -/
def storedString (value : ValueString) : Database :=
  (Database.new {} none).put 0 (text "k") (.string value)

theorem storedString_present (value : ValueString) :
    Present (.still 0) (storedString value) 0 (text "k") (.string value) :=
  ⟨rfl, rfl, (put_sets (Database.new {} none) 0 (text "k")
    (.string value)).value_self⟩

/-- A decrement of what SET stores for 41. -/
theorem increments_number :
    Adds (.still 0) (storedString (.new (text "41"))) decrby
      [text "DECRBY", text "k", text "42"] 0 (text "k") (.new (text "41"))
      41 (-42) :=
  (increments_iff (.decrby rfl (by decide) (by decide)) rfl
    (storedString_present _) (by decide) (by decide)).mpr nofun

/-- An increment of what SET stores for 0. -/
theorem increments_not_zero :
    ¬ ∀ (env : Env) (db : Database)
      (handle : Arguments → Nat → Writer Response) (argv : Arguments)
      (dbindex : Nat) (key : Bytes) (value : ValueString)
      (number delta : Int), Increments handle argv delta →
      argv.getVec 1 = .ok key →
      Present env db dbindex key (.string value) →
      inI64 number = true → value.toVec = intToString number →
      Adds env db handle argv dbindex key value number delta := by
  intro adds
  let value := ValueString.new (text "0")
  let argv := [text "INCR", text "k"]
  have replied : ((incr argv 0).run (machine (.still 0))
      (storedString value)).map Prod.fst =
      some (.ok (.fail "ERR value is not a valid integer")) :=
    rfl
  obtain ⟨reply, after, ran, outcome⟩ := adds (.still 0) (storedString value)
    incr argv 0 (text "k") value 0 1 (.incr rfl) rfl
    (storedString_present value) (by decide) (by decide)
  rw [if_pos (by decide)] at outcome
  rw [ran, outcome.1] at replied
  cases replied

end

end Command

end RedVector
