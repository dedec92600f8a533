import Mathlib.Order.Lattice.Nat
import RedVector.Codec.Reads
import RedVector.Value.Value

/-!
# Serialized values

What DUMP writes, and what DEBUG OBJECT tells about a value.  The order in which
a hash map or hash set lists its keys is a parameter.
-/

namespace RedVector

open Util

/-! ## The format -/

namespace Rdb

def version : Nat := 7

def bitlen6 : UInt8 := 0
def bitlen14 : UInt8 := 1
def bitlen32 : UInt8 := 2
def encval : UInt8 := 3

def encInt8 : UInt8 := 0
def encInt16 : UInt8 := 1
def encInt32 : UInt8 := 2

def typeString : UInt8 := 0
def typeList : UInt8 := 1
def typeSet : UInt8 := 2
def typeZset : UInt8 := 3
def typeHash : UInt8 := 4
def typeSetIntset : UInt8 := 11

def u32Max : Nat := 4294967295

/-- `(value >> (8 * index)) & 0xff`. -/
def byteAt (value : Int) (index : Nat) : UInt8 :=
  (value / 256 ^ index % 256).toNat.toUInt8

/-- The bytes of a number from the lowest on. -/
def lowBytes (count : Nat) (value : Int) : Bytes :=
  (List.range count).map (byteAt value)

/-- A short integer in the place of a string; `none` is an overflow. -/
def encodeI64 (value : Int) : Option Bytes :=
  if -2 ^ 7 ≤ value ∧ value < 2 ^ 7 then
    some (((encval <<< 6) ||| encInt8) :: lowBytes 1 value)
  else if -2 ^ 15 ≤ value ∧ value < 2 ^ 15 then
    some (((encval <<< 6) ||| encInt16) :: lowBytes 2 value)
  else if -2 ^ 31 ≤ value ∧ value < 2 ^ 31 then
    some (((encval <<< 6) ||| encInt32) :: lowBytes 4 value)
  else none

/-- `htonl`. -/
def htonl (number : Nat) : Bytes :=
  [byteAt number 3, byteAt number 2, byteAt number 1, byteAt number 0]

/-- A length; it panics when the length does not fit in four bytes. -/
def encodeLen (len : Nat) : Option Bytes :=
  if u32Max < len then none
  else if len < 2 ^ 6 then some [byteAt len 0 ||| (bitlen6 <<< 6)]
  else if len < 2 ^ 14 then
    some [byteAt len 1 ||| (bitlen14 <<< 6), byteAt len 0]
  else some ((bitlen32 <<< 6) :: htonl len)

/-- The integer that is written in the place of a short string. -/
def shortcut (data : Bytes) : Option Bytes :=
  if data.length ≤ 11 ∧ isUtf8 data then (parseI64 data).bind encodeI64
  else none

def encodeSlice (data : Bytes) (asInt : Bool) : Option Bytes :=
  match if asInt then shortcut data else none with
  | some encoded => some encoded
  | none => (encodeLen data.length).map fun len => len ++ data

/-- The type of a value in front of it and the version behind it. -/
def framed (type : UInt8) (v : Bytes) : Bytes :=
  type :: v ++ lowBytes 2 version

end Rdb

open Rdb Codec

/-! ## The values -/

section

variable [Platform]

def ValueString.dump (value : ValueString) : Option Bytes := do
  let v ←
    match value with
    | .integer number =>
        match encodeI64 number with
        | some encoded => pure encoded
        | none => encodeSlice value.toVec false
    | .data bytes => encodeSlice bytes true
  pure (framed typeString v)

def ValueList.dump (list : ValueList) : Option Bytes := do
  let len ← encodeLen list.length
  let items ← encodeAll (fun item => encodeSlice item true) list
  pure (framed typeList (len ++ items))

/-- The largest of the numbers; there has to be one. -/
def ValueSet.largest (numbers : Finset Nat) : Option Nat :=
  if numbers.card = 0 then none else some (numbers.sup id)

/-- How many bytes the members of a set of numbers are written in. -/
def ValueSet.intsetEncoding (max : Nat) : Option Nat :=
  if max ≤ 0xff then some 2
  else if max ≤ 0xffff then some 4
  else if max ≤ 0xffffffff then some 8
  else none

def ValueSet.dump (order : Finset Bytes → List Bytes)
    (idOrder : Finset Nat → List Nat) : ValueSet → Option Bytes
  | .integer numbers => do
      let encoding ← (largest numbers).bind intsetEncoding
      let tmp := lowBytes 4 encoding ++ lowBytes 4 numbers.card ++
        (idOrder numbers).flatMap fun item : Nat => lowBytes encoding item
      let len ← encodeLen tmp.length
      pure (framed typeSetIntset (len ++ tmp))
  | .data elements => do
      let len ← encodeLen elements.card
      let items ← encodeAll (fun item => encodeSlice item true)
        (order elements)
      pure (framed typeSet (len ++ items))

def ValueSortedSet.encodeScore (score : F64) : Option Bytes :=
  if Platform.f64IsNan score then some [253]
  else if Platform.f64IsInfinite score then
    if Platform.f64IsSignPositive score then some [254] else some [255]
  else encodeSlice (Platform.f64ToString (Platform.f64Abs score)) false

/-- The entries of a hash map. -/
def entriesOf {β : Type} (order : Finset Bytes → List Bytes)
    (map : HashMap Bytes β) : List (Bytes × β) :=
  (order map.keys).filterMap fun key =>
    (map.lookup key).map fun value => (key, value)

omit [Platform] in
/-- Every key has one entry. -/
theorem entriesOf_nodup
    {β : Type} {order : Finset Bytes → List Bytes} {map : HashMap Bytes β}
    (nodup : (order map.keys).Nodup) :
    ((entriesOf order map).map Prod.fst).Nodup := by
  unfold entriesOf
  rw [List.map_filterMap]
  refine nodup.filterMap ?_
  intro left right name inLeft inRight
  simp only [Option.mem_def, Option.map_map, Option.map_eq_some_iff]
    at inLeft inRight
  obtain ⟨_, -, rfl⟩ := inLeft
  obtain ⟨_, -, same⟩ := inRight
  exact same.symm

def ValueSortedSet.dump (order : Finset Bytes → List Bytes)
    (zset : ValueSortedSet) : Option Bytes := do
  let len ← encodeLen zset.hmap.keys.card
  let items ← encodeAll (fun entry => do
      let value ← encodeSlice entry.1 true
      let score ← encodeScore entry.2
      pure (value ++ score)) (entriesOf order zset.hmap)
  pure (framed typeZset (len ++ items))

/-- The ziplist encoding is never given an entry. -/
def ValueHash.dump (order : Finset Bytes → List Bytes) :
    ValueHash → Option Bytes
  | .hashMap map => do
      let len ← encodeLen map.keys.card
      let items ← encodeAll (fun entry => do
          let key ← encodeSlice entry.1 true
          let value ← encodeSlice entry.2 true
          pure (key ++ value)) (entriesOf order map)
      pure (framed typeHash (len ++ items))
  | .zipList _ => do
      let len ← encodeLen 0
      pure (framed typeHash len)

/-- The checksum of what was written, behind it. -/
def checksummed (data : Bytes) : Bytes :=
  data ++ lowBytes 8 (Platform.crc64 data).toNat

/-- The payload of DUMP; an outer `none` is a panic. -/
def Value.dump (order : Finset Bytes → List Bytes)
    (idOrder : Finset Nat → List Nat) : Value → Option (Operation Bytes)
  | .nil => some (.ok [])
  | .string value => value.dump.map fun data => .ok (checksummed data)
  | .list value => value.dump.map fun data => .ok (checksummed data)
  | .set value =>
      (value.dump order idOrder).map fun data => .ok (checksummed data)
  | .sortedSet value =>
      (value.dump order).map fun data => .ok (checksummed data)
  | .hash value => (value.dump order).map fun data => .ok (checksummed data)
  | .bloom _ => some (.error
      (.valueError ⟨text "ERR DUMP is not supported for bloom filters", by decide⟩))

/-! ## DEBUG OBJECT -/

/-- The text about a value that is serialized for its length. -/
def aboutSerialized (encoding : String) (serialized : Bytes) : Bytes :=
  text "Value at:0x0000000000 refcount:1 encoding:" ++ text encoding ++
    text " serializedlength:" ++ natToString serialized.length ++
    text " lru:0 lru_seconds_idle:0"

def ValueBloom.debugObject (bloom : ValueBloom) : Bytes :=
  text "Value at:0x0000000000 refcount:0 encoding:bloom capacity:" ++
    natToString bloom.capacity ++ text " error_rate:" ++
    Platform.f64ToString bloom.errorRate ++ text " insertions:" ++
    natToString bloom.insertions ++ text " bits:" ++
    natToString (Platform.bloomBits bloom.filter) ++ text " hashes:" ++
    natToString (Platform.bloomHashes bloom.filter)

def Value.debugObject (order : Finset Bytes → List Bytes)
    (idOrder : Finset Nat → List Nat) : Value → Option Bytes
  | .nil => some (text ("Value at:0x0000000000 refcount:0 encoding:nil "
      ++ "serializedlength:0 lru:0 lru_seconds_idle:0"))
  | .string value => value.dump.map (aboutSerialized
      (match value with
      | .integer _ => "int"
      | .data _ => "raw"))
  | .list value => value.dump.map (aboutSerialized "linkedlist")
  | .set value => (value.dump order idOrder).map (aboutSerialized
      (match value with
      | .integer _ => "intset"
      | .data _ => "hashtable"))
  | .sortedSet value => (value.dump order).map (aboutSerialized "skiplist")
  | .hash value => (value.dump order).map (aboutSerialized
      (match value with
      | .zipList _ => "ziplist"
      | .hashMap _ => "hashtable"))
  | .bloom value => some value.debugObject

end

end RedVector
