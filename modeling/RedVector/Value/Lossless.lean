import RedVector.Value.Members
import RedVector.Value.Value

/-!
# The two representations of a string

A string that is read as a number is stored as that number.  It comes back
unless it is not how the number is written, and no other operation tells the
two representations apart.
-/

namespace RedVector

namespace Util

/-- How a number is read: behind a sign or without one. -/
theorem parseInteger_cases
    {bytes : Bytes} {number : Int} (parsed : parseInteger bytes = some number) :
    ∃ digits, digits ≠ [] ∧ digits.all isDigit = true ∧
      (bytes = 45 :: digits ∧ number = -(digitsValue digits : Int) ∨
        (bytes = 43 :: digits ∨ bytes = digits) ∧
          number = digitsValue digits) := by
  have read : ∀ {digits : Bytes} {value : Nat},
      parseDigits digits = some value →
      digits ≠ [] ∧ digits.all isDigit = true ∧
        value = digitsValue digits := by
    intro digits value parsed
    unfold parseDigits at parsed
    split at parsed
    · rename_i spelled
      cases parsed
      simpa using spelled
    · cases parsed
  unfold parseInteger at parsed
  split at parsed
  · rename_i digits
    obtain ⟨signed, coerced, isNumber⟩ := Option.map_eq_some_iff.mp parsed
    obtain ⟨value, found, isSigned⟩ := Option.bind_eq_some_iff.mp coerced
    cases isSigned
    obtain ⟨nonempty, allDigits, rfl⟩ := read found
    exact ⟨digits, nonempty, allDigits, .inl ⟨rfl, isNumber.symm⟩⟩
  · rename_i digits
    obtain ⟨value, found, isNumber⟩ := Option.map_eq_some_iff.mp parsed
    obtain ⟨nonempty, allDigits, rfl⟩ := read found
    exact ⟨digits, nonempty, allDigits, .inr ⟨.inl rfl, isNumber.symm⟩⟩
  · obtain ⟨value, found, isNumber⟩ := Option.map_eq_some_iff.mp parsed
    obtain ⟨nonempty, allDigits, rfl⟩ := read found
    exact ⟨bytes, nonempty, allDigits, .inr ⟨.inr rfl, isNumber.symm⟩⟩

/-- What is read as a number is a text. -/
theorem parseInteger_utf8
    {bytes : Bytes} {number : Int}
    (parsed : parseInteger bytes = some number) : isUtf8 bytes = true := by
  obtain ⟨digits, -, allDigits, spelled⟩ := parseInteger_cases parsed
  have ascii : ∀ byte ∈ digits, byte < 128 := by
    intro byte member
    exact (isDigit_ascii (List.all_eq_true.mp allDigits byte member)).1
  apply isUtf8_of_ascii
  intro byte member
  rcases spelled with ⟨rfl, -⟩ | ⟨rfl | rfl, -⟩
  · rcases List.mem_cons.mp member with rfl | among
    · decide
    · exact ascii byte among
  · rcases List.mem_cons.mp member with rfl | among
    · decide
    · exact ascii byte among
  · exact ascii byte member

/-- A plus sign in front, or a minus sign in front of a zero. -/
def Decorated (bytes : Bytes) : Prop :=
  bytes.head? = some 43 ∨ ∃ rest, bytes = 45 :: 48 :: rest

theorem intToString_natCast (number : Nat) :
    intToString (number : Int) = natToString number :=
  rfl

theorem intToString_neg {number : Nat} (positive : 0 < number) :
    intToString (-(number : Int)) = 45 :: natToString number := by
  cases number with
  | zero => cases positive
  | succ number => rfl

/-- Digits without a leading zero stand for a positive number. -/
theorem digitsValue_positive
    {digits : Bytes} (nonempty : digits ≠ [])
    (allDigits : digits.all isDigit = true)
    (leading : digits.head? ≠ some 48) : 0 < digitsValue digits := by
  apply Nat.pos_of_ne_zero
  intro zero
  have written := natToString_digitsValue nonempty allDigits
    (fun _ => leading)
  rw [zero] at written
  rw [← written] at leading
  exact leading rfl

/-- No number is written with a plus sign, or with a zero behind a minus
sign. -/
theorem intToString_undecorated (number : Int) (rest : Bytes) :
    ¬ Decorated (intToString number ++ rest) := by
  have first : ∀ count : Nat, ∃ digit digits,
      natToString count = digit :: digits ∧ isDigit digit = true := by
    intro count
    have digits := List.all_eq_true.mp (natToString_isDigit count)
    cases written : natToString count with
    | nil => exact absurd written (natToString_ne_nil count)
    | cons digit others =>
        refine ⟨digit, others, rfl, digits digit ?_⟩
        rw [written]
        exact List.mem_cons_self
  rintro (plus | ⟨others, minus⟩)
  · cases number with
    | ofNat count =>
        obtain ⟨digit, digits, written, isDigit⟩ := first count
        unfold intToString at plus
        dsimp only at plus
        rw [written] at plus
        cases plus
        cases isDigit
    | negSucc count => cases plus
  · cases number with
    | ofNat count =>
        obtain ⟨digit, digits, written, isDigit⟩ := first count
        unfold intToString at minus
        dsimp only at minus
        rw [written] at minus
        cases (List.cons.inj minus).1
        cases isDigit
    | negSucc count =>
        have leading := natToString_head (Nat.succ_pos count)
        have tails := (List.cons.inj minus).2
        cases written : natToString (count + 1) with
        | nil => exact natToString_ne_nil _ written
        | cons digit digits =>
            rw [written] at leading tails
            cases (List.cons.inj tails).1
            exact leading rfl

/-- A number without a leading zero is written as it was read unless it is
decorated. -/
theorem intToString_eq_iff
    {bytes : Bytes} {number : Int}
    (parsed : parseInteger bytes = some number)
    (leading : bytes.head? ≠ some 48) :
    intToString number = bytes ↔ ¬ Decorated bytes := by
  constructor
  · intro written
    have undecorated := intToString_undecorated number []
    rw [List.append_nil, written] at undecorated
    exact undecorated
  · intro undecorated
    obtain ⟨digits, nonempty, allDigits, spelled⟩ := parseInteger_cases parsed
    rcases spelled with ⟨rfl, rfl⟩ | ⟨rfl | rfl, rfl⟩
    · have unpadded : digits.head? ≠ some 48 := by
        intro zero
        cases digits with
        | nil => cases zero
        | cons digit rest =>
            cases zero
            exact undecorated (.inr ⟨rest, rfl⟩)
      rw [intToString_neg (digitsValue_positive nonempty allDigits unpadded),
        natToString_digitsValue nonempty allDigits (fun _ => unpadded)]
    · exact absurd (.inl rfl) undecorated
    · rw [intToString_natCast,
        natToString_digitsValue nonempty allDigits (fun _ => leading)]

end Util

open Util

namespace ValueString

/-- Bytes that are read as a number which is not written like them. -/
def Misread (bytes : Bytes) : Prop :=
  (parseI64 bytes).isSome = true ∧ Decorated bytes

/-- A string comes back as it was exactly if it is not misread. -/
theorem toVec_new_iff (bytes : Bytes) :
    (new bytes).toVec = bytes ↔ ¬ Misread bytes := by
  unfold new parseUtf8I64 Misread
  by_cases leading : bytes.head? = some 48
  · rw [if_pos leading]
    apply iff_of_true rfl
    rintro ⟨-, plus | ⟨rest, rfl⟩⟩
    · cases leading.symm.trans plus
    · cases leading
  rw [if_neg leading]
  cases read : parseI64 bytes with
  | none =>
      rw [ite_self]
      exact iff_of_true rfl (by simp)
  | some number =>
      have parsed : parseInteger bytes = some number :=
        (Option.filter_eq_some_iff.mp read).1
      rw [if_pos (parseInteger_utf8 parsed)]
      refine (intToString_eq_iff parsed leading).trans ?_
      simp

/-- Appending to either representation appends to the bytes. -/
theorem toVec_append (value : ValueString) (bytes : Bytes) :
    (value.append bytes).toVec = value.toVec ++ bytes := by
  cases value with
  | data old => rfl
  | integer number =>
      apply (toVec_new_iff _).mpr
      rintro ⟨-, decorated⟩
      exact intToString_undecorated number bytes decorated

/-- Bytes with others written over them from an index on. -/
def overwritten (bytes : Bytes) (index : Nat) (data : Bytes) : Bytes :=
  bytes.take index ++ data ++ bytes.drop (index + data.length)

theorem setrangeAux_eq
    {bytes : Bytes} {index : Nat} (inside : index ≤ bytes.length)
    (data : Bytes) :
    setrangeAux bytes index data = overwritten bytes index data := by
  unfold overwritten
  induction data generalizing bytes index with
  | nil => simp [setrangeAux]
  | cons byte rest ih =>
      unfold setrangeAux
      by_cases within : index < bytes.length
      · have front : (bytes.set index byte).take (index + 1) =
            bytes.take index ++ [byte] := by
          rw [List.take_add_one, List.take_set_of_le (Nat.le_refl index)]
          simp [within]
        have back : (bytes.set index byte).drop (index + 1 + rest.length) =
            bytes.drop (index + (rest.length + 1)) := by
          rw [List.drop_set_of_lt (by omega), Nat.add_assoc,
            Nat.add_comm 1 rest.length]
        rw [if_pos within, ih (by rw [List.length_set]; omega), front, back]
        simp
      · rw [if_neg within, ih (by simp; omega), List.take_of_length_le
          (by simp; omega), List.take_of_length_le (by omega),
          List.drop_of_length_le (by simp; omega),
          List.drop_of_length_le (by simp; omega)]
        simp

theorem setrange_plain (value : ValueString) (index : Nat) (data : Bytes) :
    let after :=
      if data = [] then value.toVec
      else overwritten (padTo value.toVec index) index data
    (value.setrange index data).1 = after.length ∧
      (value.setrange index data).2.toVec = after := by
  unfold setrange
  by_cases empty : data = []
  · subst empty
    exact ⟨rfl, rfl⟩
  · have nonempty : ¬ data.isEmpty = true := by simpa using empty
    have padded : index ≤ (padTo value.toVec index).length := by
      unfold padTo
      simp only [List.length_append, List.length_replicate]
      omega
    simp only [if_neg empty, if_neg nonempty, setrangeAux_eq padded]
    exact ⟨trivial, rfl⟩

end ValueString

/-! ## Runs of string commands -/

/-- A command on one string. -/
inductive StringOp where
  | set (val : Bytes)
  | append (val : Bytes)
  | setrange (index : Nat) (data : Bytes)
  | setbit (bitoffset : Nat) (on : Bool)
  | getrange (start stop : Int)
  | strlen

inductive StringAnswer where
  | ok
  | length (length : Nat)
  | bit (bit : Bool)
  | bytes (bytes : Bytes)

namespace StringOp

section

variable [Platform]

/-- What a command answers and leaves; `none` is a panic. -/
def perform (value : Value) :
    StringOp → Option (Operation StringAnswer × Value)
  | set val => some (.ok .ok, .setString val)
  | append val =>
      let (length, after) := value.append val
      some (length.map .length, after)
  | setrange index data =>
      let (length, after) := value.setrange index data
      some (length.map .length, after)
  | setbit bitoffset on =>
      let (old, after) := value.setbit bitoffset on
      some (old.map .bit, after)
  | getrange start stop =>
      (value.getrange start stop).map fun bytes => (bytes.map .bytes, value)
  | strlen => some (value.strlen.map .length, value)

/-- The same on plain bytes; `none` is a key that is missing. -/
def plain (stored : Option Bytes) :
    StringOp → Option (StringAnswer × Option Bytes)
  | set val => some (.ok, some val)
  | append val =>
      let after := stored.getD [] ++ val
      some (.length after.length, some after)
  | setrange index data =>
      let bytes := stored.getD []
      let after :=
        if data = [] then bytes
        else
          ValueString.overwritten (ValueString.padTo bytes index) index data
      some (.length after.length, some after)
  | setbit bitoffset on =>
      let (old, after) :=
        (ValueString.data (stored.getD [])).setbit bitoffset on
      some (.bit old, some after.toVec)
  | getrange start stop =>
      match stored with
      | none => some (.bytes [], none)
      | some bytes => do
          let found ← (ValueString.data bytes).getrange start stop
          some (.bytes found, some bytes)
  | strlen => some (.length (stored.getD []).length, stored)

/-- A command does not store a string from bytes that are misread: it neither
sets them nor appends them to nothing. -/
def Legible (value : Value) : StringOp → Prop
  | set val => ¬ ValueString.Misread val
  | append val => value = .nil → ¬ ValueString.Misread val
  | _ => True

/-- The bytes that a value of a key stands for. -/
inductive Shows : Value → Option Bytes → Prop where
  | nil : Shows .nil none
  | string (value : ValueString) : Shows (.string value) (some value.toVec)

/-- One command panics on both sides, or answers the same as on plain bytes
and leaves them. -/
theorem perform_plain
    {value : Value} {stored : Option Bytes} (shows : Shows value stored)
    (op : StringOp) (legible : op.Legible value) :
    perform value op = none ∧ plain stored op = none ∨
      ∃ answer after left, perform value op = some (.ok answer, after) ∧
        plain stored op = some (answer, left) ∧ Shows after left := by
  cases op with
  | set val =>
      have same := (ValueString.toVec_new_iff val).mpr legible
      have set := Shows.string (.new val)
      rw [same] at set
      exact .inr ⟨_, _, _, rfl, rfl, set⟩
  | append val =>
      right
      cases shows with
      | nil =>
          have same := (ValueString.toVec_new_iff val).mpr (legible rfl)
          have created := Shows.string (.new val)
          rw [same] at created
          exact ⟨_, _, _, rfl, rfl, created⟩
      | string string =>
          have same := string.toVec_append val
          have appended := Shows.string (string.append val)
          rw [same] at appended
          refine ⟨_, _, _, ?_, rfl, appended⟩
          rw [Option.getD_some, ← same]
          rfl
  | setrange index data =>
      right
      cases shows with
      | nil =>
          obtain ⟨length, left⟩ :=
            ValueString.setrange_plain (.data []) index data
          have written :=
            Shows.string ((ValueString.data []).setrange index data).2
          rw [left] at written
          refine ⟨.length ((ValueString.data []).setrange index data).1, _, _,
            rfl, ?_, written⟩
          rw [length]
          rfl
      | string string =>
          obtain ⟨length, left⟩ := string.setrange_plain index data
          have written := Shows.string (string.setrange index data).2
          rw [left] at written
          refine ⟨.length (string.setrange index data).1, _, _, rfl, ?_,
            written⟩
          rw [length]
          rfl
  | setbit bitoffset on =>
      right
      cases shows with
      | nil => exact ⟨_, _, _, rfl, rfl, .string _⟩
      | string string => exact ⟨_, _, _, rfl, rfl, .string _⟩
  | getrange start stop =>
      cases shows with
      | nil => exact .inr ⟨_, _, _, rfl, rfl, .nil⟩
      | string string =>
          have same : string.getrange start stop =
              (ValueString.data string.toVec).getrange start stop := rfl
          unfold perform plain Value.getrange
          dsimp only
          rw [← same]
          cases found : string.getrange start stop with
          | none => exact .inl ⟨rfl, rfl⟩
          | some bytes => exact .inr ⟨_, _, _, rfl, rfl, .string string⟩
  | strlen =>
      right
      cases shows with
      | nil => exact ⟨_, _, _, rfl, rfl, .nil⟩
      | string string => exact ⟨_, _, _, rfl, rfl, .string string⟩

/-- The answers to a sequence of commands. -/
def run (value : Value) :
    List StringOp → Option (List (Operation StringAnswer) × Value)
  | [] => some ([], value)
  | op :: rest => do
      let (answer, after) ← perform value op
      let (answers, last) ← run after rest
      some (answer :: answers, last)

def runPlain (stored : Option Bytes) :
    List StringOp → Option (List StringAnswer × Option Bytes)
  | [] => some ([], stored)
  | op :: rest => do
      let (answer, after) ← plain stored op
      let (answers, last) ← runPlain after rest
      some (answer :: answers, last)

/-- Every command of a sequence is legible where it comes. -/
def AllLegible (value : Value) : List StringOp → Prop
  | [] => True
  | op :: rest => op.Legible value ∧
      ∀ answer after, perform value op = some (answer, after) →
        AllLegible after rest

/-- A run panics on both sides, or answers the same as on plain bytes. -/
theorem run_plain
    {value : Value} {stored : Option Bytes} (shows : Shows value stored)
    (ops : List StringOp) (legible : AllLegible value ops) :
    run value ops = none ∧ runPlain stored ops = none ∨
      ∃ answers after left,
        run value ops = some (answers.map .ok, after) ∧
          runPlain stored ops = some (answers, left) ∧ Shows after left := by
  induction ops generalizing value stored with
  | nil => exact .inr ⟨[], value, stored, rfl, rfl, shows⟩
  | cons op rest ih =>
      obtain ⟨now, later⟩ := legible
      unfold run runPlain
      rcases perform_plain shows op now with
        ⟨panics, also⟩ | ⟨answer, after, left, performed, plainly, shown⟩
      · rw [panics, also]
        exact .inl ⟨rfl, rfl⟩
      · rw [performed, plainly]
        rcases ih shown (later _ _ performed) with
          ⟨panics, also⟩ | ⟨answers, last, final, ran, ranPlain, ends⟩
        · simp only [Option.bind_eq_bind, Option.bind_some, panics, also]
          exact .inl ⟨rfl, rfl⟩
        · simp only [Option.bind_eq_bind, Option.bind_some, ran, ranPlain]
          exact .inr ⟨answer :: answers, last, final, rfl, rfl, ends⟩

end

section

attribute [local instance] Platform.integral

end

end StringOp

end RedVector
