import RedVector.Command.Hashes
import RedVector.Command.Present
import RedVector.Value.Empty

/-!
# Numbers in hashes

HINCRBY and HINCRBYFLOAT take a field that holds no number for a field that is
missing, and write the increment over it.
-/

namespace RedVector

open Util Effect Database

namespace ValueHash

variable {α : Type}

/-- The sum of what a field holds and an increment: a missing field holds zero,
and a text that is no number has no sum. -/
def sum (hash : ValueHash) (parse : Bytes → Option α) (add : α → α → α)
    (field : Bytes) (increment : α) : Option α :=
  match hash.hget field with
  | none => some increment
  | some value =>
      if isUtf8 value then (parse value).map fun number => add number increment
      else none

/-- A field holds a text that is no number. -/
def Garbled (hash : ValueHash) (parse : Bytes → Option α) (field : Bytes) :
    Prop :=
  ∃ value, hash.hget field = some value ∧
    (isUtf8 value = true → parse value = none)

theorem garbled_iff (hash : ValueHash) (parse : Bytes → Option α)
    (add : α → α → α) (field : Bytes) (increment : α) :
    hash.Garbled parse field ↔ hash.sum parse add field increment = none := by
  unfold Garbled sum
  cases held : hash.hget field with
  | none =>
      simp
  | some value =>
      by_cases utf8 : isUtf8 value = true
      · simp [utf8]
      · simp [utf8]

/-- What the code adds up is the sum, or the increment over a garbled field. -/
theorem current_sum (hash : ValueHash) (parse : Bytes → Option α)
    (add : α → α → α) (field : Bytes) (increment : α) :
    (match hash.current parse field with
      | some number => add number increment
      | none => increment) =
      (hash.sum parse add field increment).getD increment := by
  unfold current sum hget
  cases held : hash.fields.lookup field with
  | none =>
      rfl
  | some value =>
      by_cases utf8 : isUtf8 value = true
      · cases parsed : parse value <;> simp [utf8, parsed]
      · simp [utf8]

theorem hincrby_eq (hash : ValueHash) (field : Bytes) {increment : Int}
    (fits : inI64 increment = true) :
    let number := (hash.sum parseI64 (fun old delta => old + delta) field
      increment).getD increment
    hash.hincrby field increment =
      if inI64 number then
        .ok (number,
          .hashMap (hash.fields.insert field (intToString number)))
      else .error .overflowError := by
  dsimp only
  rw [← current_sum]
  unfold hincrby
  cases hash.current parseI64 field with
  | none =>
      simp only [fits, if_true]
      rfl
  | some number =>
      dsimp only
      split <;> rfl

theorem hincrbyfloat_eq [Platform] (hash : ValueHash) (field : Bytes)
    (increment : F64) :
    let number := (hash.sum Platform.f64Parse Platform.f64Add field
      increment).getD increment
    hash.hincrbyfloat field increment =
      if Platform.f64IsNan number || Platform.f64IsInfinite number then
        .error .notANumberError
      else
        .ok (number, .hashMap
          (hash.fields.insert field (Platform.f64ToString number))) := by
  dsimp only
  rw [← current_sum]
  unfold hincrbyfloat
  cases hash.current Platform.f64Parse field with
  | none => rfl
  | some number => rfl

end ValueHash

namespace Command

section

variable [Platform]

variable {env : Env} {db : Database} {argv : Arguments} {dbindex : Nat}
  {key field : Bytes} {hash : ValueHash}

/-- Given the reply and the text of a sum, the field is set to it; without a
sum the reply is an error and the hash is left. -/
def Counts (env : Env) (db : Database) (program : Writer Response)
    (slot : Slot) (hash : ValueHash) (field : Bytes)
    (sum : Option (Response × Bytes)) : Prop :=
  ∃ outcome after, program.run (machine env) db = some (outcome, after) ∧
    match sum with
    | some (reply, number) =>
        outcome = .ok reply ∧ after.value slot =
          some (.hash (.hashMap (hash.fields.insert field number)))
    | none =>
        (∃ message, outcome = .ok (.error message) ∨
          outcome = .error (.error message)) ∧
        after.value slot = some (.hash hash)

theorem stored_insert (fields : HashMap Bytes Bytes)
    (field number : Bytes) :
    (Value.hash (.hashMap (fields.insert field number))).stored =
      some (.hash (.hashMap (fields.insert field number))) := by
  have full : (Value.hash (.hashMap (fields.insert field number))).isEmpty =
      false := by
    have set : (Value.hash (.hashMap fields)).hset field number =
        (.ok _, .hash (.hashMap (fields.insert field number))) := rfl
    exact Value.hset_stays set
  rw [Value.stored, if_neg (by rw [full]; exact Bool.false_ne_true)]

/-- A method that writes what the code adds up counts unless it writes over a
garbled field. -/
theorem counts_iff
    {α : Type} {parse : Bytes → Option α} {add : α → α → α}
    {increment : α} {error : OperationError} (fits : α → Bool)
    (shown : α → Bytes) (method : Value → Value.Change α) (ok : α → Response)
    (present : Present env db dbindex key (.hash hash))
    (called : let number :=
        (hash.sum parse add field increment).getD increment
      method (.hash hash) =
        if fits number then
          (.ok number,
            .hash (.hashMap (hash.fields.insert field (shown number))))
        else (.error error, .hash hash))
    (plain : ∀ number, (ok number).isError = false) :
    Counts env db
        (do
          let r ← createThen dbindex key fun el => some (method el)
          updateOnSuccess dbindex key r ok)
        (dbindex, key) hash field
        ((hash.sum parse add field increment).bind fun number =>
          if fits number then some (ok number, shown number) else none) ↔
      ¬(hash.Garbled parse field ∧ fits increment = true) := by
  dsimp only at called
  rw [hash.garbled_iff parse add field increment]
  cases summed : hash.sum parse add field increment with
  | none =>
      rw [summed, Option.getD_none] at called
      rw [Option.bind_none]
      by_cases fitting : fits increment = true
      · rw [if_pos fitting] at called
        obtain ⟨after, ran, -⟩ :=
          createThen_succeeds (fun el => some (method el)) present
            (congrArg some called) ok
        refine iff_of_false ?_ fun whole => whole ⟨rfl, fitting⟩
        rintro ⟨outcome, other, same, ⟨message, failed⟩, -⟩
        rw [ran] at same
        cases same
        rcases failed with failed | failed
        · injection failed with failed
          have replied := plain increment
          rw [failed] at replied
          cases replied
        · cases failed
      · rw [if_neg fitting] at called
        obtain ⟨after, ran, left⟩ :=
          createThen_fails (fun el => some (method el)) present
            (congrArg some called) ok
        exact iff_of_true
          ⟨_, after, ran, ⟨_, .inl rfl⟩, left⟩
          fun spoiled => fitting spoiled.2
  | some number =>
      rw [summed, Option.getD_some] at called
      refine iff_of_true ?_ fun spoiled => by cases spoiled.1
      rw [Option.bind_some]
      by_cases fitting : fits number = true
      · rw [if_pos fitting] at called ⊢
        obtain ⟨after, ran, left⟩ :=
          createThen_succeeds (fun el => some (method el)) present
            (congrArg some called) ok
        rw [stored_insert] at left
        exact ⟨_, after, ran, rfl, left⟩
      · rw [if_neg fitting] at called ⊢
        obtain ⟨after, ran, left⟩ :=
          createThen_fails (fun el => some (method el)) present
            (congrArg some called) ok
        exact ⟨_, after, ran, ⟨_, .inl rfl⟩, left⟩

/-- The two commands that add to a field. -/
inductive HashCounter where
  | integer
  | float

namespace HashCounter

def handle : HashCounter → Arguments → Nat → Writer Response
  | .integer => hincrby
  | .float => hincrbyfloat

/-- The reply and the text of the sum, if the argument is a number and the sum
can be represented. -/
def sum (hash : ValueHash) (argv : Arguments) (field : Bytes) :
    HashCounter → Option (Response × Bytes)
  | .integer => (argv.getI64 3).toOption.bind fun increment =>
      (hash.sum parseI64 (fun old delta => old + delta) field increment).bind
        fun number =>
          if inI64 number then some (.integer number, intToString number)
          else none
  | .float => (argv.getF64 3).toOption.bind fun increment =>
      (hash.sum Platform.f64Parse Platform.f64Add field increment).bind
        fun number =>
          if !(Platform.f64IsNan number || Platform.f64IsInfinite number) then
            some (.data (Platform.f64ToString number),
              Platform.f64ToString number)
          else none

/-- The field is garbled, and the argument is a number that can be stored. -/
def Overwrites (hash : ValueHash) (argv : Arguments) (field : Bytes) :
    HashCounter → Prop
  | .integer => hash.Garbled parseI64 field ∧
      ∃ increment, argv.getI64 3 = .ok increment
  | .float => hash.Garbled Platform.f64Parse field ∧
      ∃ increment, argv.getF64 3 = .ok increment ∧
        Platform.f64IsInfinite increment = false

theorem refused_counts {ε α : Type} {read : Except ε α} {error : ε}
    {message : String} {rest : α → Writer Response}
    (present : Present env db dbindex key (.hash hash))
    (refused : read = .error error) :
    Counts env db (liftM (tryValidate read message) >>= rest)
      (dbindex, key) hash field none := by
  subst refused
  exact ⟨_, db, rfl, ⟨_, .inr rfl⟩, present.held⟩

theorem hash_counters_iff
    (counter : HashCounter) (arity : argv.length = 4)
    (named : argv.getVec 1 = .ok key) (given : argv.getVec 2 = .ok field)
    (present : Present env db dbindex key (.hash hash)) :
    Counts env db (counter.handle argv dbindex) (dbindex, key) hash field
        (counter.sum hash argv field) ↔
      ¬counter.Overwrites hash argv field := by
  cases counter with
  | integer =>
      have handles : handle .integer argv dbindex = (do
          let increment ← liftM (tryValidate (argv.getI64 3)
            "ERR value is not an integer or out of range")
          let r ← createThen dbindex key fun el =>
            some (el.hincrby field increment)
          updateOnSuccess dbindex key r .integer) := by
        simp only [handle, hincrby, validateArgumentsExact, if_pos arity,
          named, given]
        rfl
      rw [handles]
      cases read : argv.getI64 3 with
      | error error =>
          refine iff_of_true ?_ ?_
          · simp only [sum, read]
            exact refused_counts present rfl
          · rintro ⟨-, increment, valid⟩
            rw [read] at valid
            cases valid
      | ok increment =>
          have fits := Arguments.getI64_fits read
          have called : let number := (hash.sum parseI64
                (fun old delta => old + delta) field increment).getD increment
              (Value.hash hash).hincrby field increment =
                if inI64 number then
                  (.ok number, .hash (.hashMap
                    (hash.fields.insert field (intToString number))))
                else (.error .overflowError, .hash hash) := by
            have does := hash.hincrby_eq field fits
            dsimp only at does ⊢
            rw [Value.hincrby, does]
            split_ifs <;> rfl
          have counted := counts_iff inI64 intToString
            (fun el => el.hincrby field increment) .integer present called
            fun _ => rfl
          simp only [sum, read, Except.toOption, Option.bind_some]
          refine counted.trans (not_congr (and_congr_right fun _ => ?_))
          exact iff_of_true fits ⟨increment, read⟩
  | float =>
      have handles : handle .float argv dbindex = (do
          let increment ← liftM (tryValidate (argv.getF64 3)
            "ERR value is not a valid float")
          let r ← createThen dbindex key fun el =>
            some (el.hincrbyfloat field increment)
          updateOnSuccess dbindex key r fun number =>
            .data (Platform.f64ToString number)) := by
        simp only [handle, hincrbyfloat, validateArgumentsExact, if_pos arity,
          named, given]
        rfl
      rw [handles]
      cases read : argv.getF64 3 with
      | error error =>
          refine iff_of_true ?_ ?_
          · simp only [sum, read]
            exact refused_counts present rfl
          · rintro ⟨-, increment, valid, -⟩
            rw [read] at valid
            cases valid
      | ok increment =>
          have called : let number := (hash.sum Platform.f64Parse
                Platform.f64Add field increment).getD increment
              (Value.hash hash).hincrbyfloat field increment =
                if !(Platform.f64IsNan number ||
                    Platform.f64IsInfinite number) then
                  (.ok number, .hash (.hashMap (hash.fields.insert field
                    (Platform.f64ToString number))))
                else (.error .notANumberError, .hash hash) := by
            have does := hash.hincrbyfloat_eq field increment
            dsimp only at does ⊢
            rw [Value.hincrbyfloat, does]
            cases Platform.f64IsNan _ || Platform.f64IsInfinite _ <;> rfl
          have counted := counts_iff
            (fun number => !(Platform.f64IsNan number ||
              Platform.f64IsInfinite number))
            Platform.f64ToString
            (fun el => el.hincrbyfloat field increment)
            (fun number => .data (Platform.f64ToString number))
            present called fun _ => rfl
          simp only [sum, read, Except.toOption, Option.bind_some]
          refine counted.trans (not_congr (and_congr_right fun _ => ?_))
          rw [Arguments.getF64_number read, Bool.false_or,
            Bool.not_eq_true']
          constructor
          · exact fun finite => ⟨increment, read, finite⟩
          · rintro ⟨other, valid, finite⟩
            rw [read] at valid
            cases valid
            exact finite

end HashCounter

end

section

attribute [local instance] Platform.integral

/-- A hash with one field. -/
def oneField (value : Bytes) : ValueHash :=
  .hashMap (Finmap.singleton (text "f") value)

/-- A database with a hash under a key. -/
def storedHash (hash : ValueHash) : Database :=
  (Database.new {} none).put 0 (text "k") (.hash hash)

theorem storedHash_present (hash : ValueHash) :
    Present (.still 0) (storedHash hash) 0 (text "k") (.hash hash) :=
  ⟨rfl, rfl, (put_sets (Database.new {} none) 0 (text "k")
    (.hash hash)).value_self⟩

/-- An increment of a field that holds 41. -/
theorem hash_counters_number :
    Counts (.still 0) (storedHash (oneField (text "41")))
      (HashCounter.integer.handle
        [text "HINCRBY", text "k", text "f", text "1"] 0)
      (0, text "k") (oneField (text "41")) (text "f")
      (HashCounter.integer.sum (oneField (text "41"))
        [text "HINCRBY", text "k", text "f", text "1"] (text "f")) := by
  refine (HashCounter.hash_counters_iff .integer rfl rfl rfl
    (storedHash_present _)).mpr ?_
  rintro ⟨⟨value, held, garbled⟩, -⟩
  cases held
  cases garbled (by decide)

/-- An increment of a field that holds a word. -/
theorem hash_counters_garbled :
    ¬∀ (env : Env) (db : Database) (argv : Arguments) (dbindex : Nat)
      (key field : Bytes) (hash : ValueHash) (counter : HashCounter),
      argv.length = 4 → argv.getVec 1 = .ok key →
      argv.getVec 2 = .ok field →
      Present env db dbindex key (.hash hash) →
      Counts env db (counter.handle argv dbindex) (dbindex, key) hash field
        (counter.sum hash argv field) := by
  intro counts
  let hash := oneField (text "word")
  let argv := [text "HINCRBY", text "k", text "f", text "5"]
  have replied : ((hincrby argv 0).run (machine (.still 0))
      (storedHash hash)).map Prod.fst = some (.ok (.integer 5)) :=
    rfl
  have noSum : HashCounter.integer.sum hash argv (text "f") = none :=
    rfl
  obtain ⟨outcome, after, ran, failed⟩ := counts (.still 0) (storedHash hash)
    argv 0 (text "k") (text "f") hash .integer rfl rfl rfl
    (storedHash_present hash)
  rw [noSum] at failed
  obtain ⟨⟨message, failed⟩, -⟩ := failed
  rw [show (hincrby argv 0).run (machine (.still 0)) (storedHash hash) =
    some (outcome, after) from ran] at replied
  rcases failed with failed | failed
  · rw [failed] at replied
    cases replied
  · rw [failed] at replied
    cases replied

end

end Command

end RedVector
