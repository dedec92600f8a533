import Mathlib.Data.Finmap
import RedVector.Platform
import RedVector.Value.Error

/-!
# Hash values
-/

namespace RedVector

open Util

/-- A hash map of the source. -/
abbrev HashMap (α β : Type) := Finmap fun _ : α => β

/-- The ziplist encoding is never given an entry; only a new hash has it. -/
inductive ValueHash where
  | zipList (bytes : Bytes)
  | hashMap (fields : HashMap Bytes Bytes)

namespace ValueHash

def new : ValueHash :=
  .zipList []

/-- The map that a writing operation works on. -/
def fields : ValueHash → HashMap Bytes Bytes
  | .hashMap fields => fields
  | .zipList _ => ∅

def hset (hash : ValueHash) (field value : Bytes) : Bool × ValueHash :=
  (decide (field ∉ hash.fields), .hashMap (hash.fields.insert field value))

def hget (hash : ValueHash) (field : Bytes) : Option Bytes :=
  hash.fields.lookup field

def hdelAux : HashMap Bytes Bytes → Nat → List Bytes →
    Nat × HashMap Bytes Bytes
  | fields, count, [] => (count, fields)
  | fields, count, field :: rest =>
      if field ∈ fields then hdelAux (fields.erase field) (count + 1) rest
      else hdelAux fields count rest

def hdel (hash : ValueHash) (names : List Bytes) : Nat × ValueHash :=
  let (count, fields) := hdelAux hash.fields 0 names
  (count, .hashMap fields)

def hexists (hash : ValueHash) (field : Bytes) : Bool :=
  decide (field ∈ hash.fields)

def hlen (hash : ValueHash) : Nat :=
  hash.fields.keys.card

def hstrlen (hash : ValueHash) (field : Bytes) : Nat :=
  match hash.fields.lookup field with
  | some value => value.length
  | none => 0

/-- The number stored in a field; what is not a number counts as absent. -/
def current {α : Type} (hash : ValueHash) (parse : Bytes → Option α)
    (field : Bytes) : Option α := do
  let value ← hash.fields.lookup field
  if isUtf8 value then parse value else none

def hincrby (hash : ValueHash) (field : Bytes) (increment : Int) :
    Operation (Int × ValueHash) := do
  let newValue ←
    match hash.current parseI64 field with
    | some value =>
        if inI64 (value + increment) then pure (value + increment)
        else throw .overflowError
    | none => pure increment
  pure (newValue,
    .hashMap (hash.fields.insert field (intToString newValue)))

def hincrbyfloat [Platform] (hash : ValueHash) (field : Bytes)
    (increment : F64) : Operation (F64 × ValueHash) := do
  let newValue :=
    match hash.current Platform.f64Parse field with
    | some value => Platform.f64Add value increment
    | none => increment
  if Platform.f64IsNan newValue || Platform.f64IsInfinite newValue then
    throw .notANumberError
  else
    pure (newValue,
      .hashMap (hash.fields.insert field (Platform.f64ToString newValue)))

def isEmpty : ValueHash → Bool
  | .hashMap fields => fields.keys.card == 0
  | .zipList bytes => bytes.isEmpty

end ValueHash

end RedVector
