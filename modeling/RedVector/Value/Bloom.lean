import RedVector.Platform
import RedVector.Value.Error

/-!
# Bloom filter values
-/

namespace RedVector

structure ValueBloom [Platform] where
  filter : Platform.BloomFilter
  errorRate : F64
  capacity : Nat
  insertions : Nat

namespace ValueBloom

variable [Platform]

def defaultCapacity : Nat := 100

def new (errorRate : F64) (capacity : Nat) : Operation ValueBloom :=
  if !(Platform.f64Lt Platform.f64Zero errorRate &&
      Platform.f64Lt errorRate Platform.f64One) || capacity == 0 then
    .error (.valueError ⟨text "ERR invalid bloom filter parameters", by decide⟩)
  else .ok
    { filter := Platform.bloomNew errorRate capacity
      errorRate := errorRate
      capacity := capacity
      insertions := 0 }

/-- The filter for a key that was not reserved; its parameters are valid. -/
def defaultFilter : ValueBloom :=
  { filter := Platform.bloomNew Platform.bloomDefaultRate defaultCapacity
    errorRate := Platform.bloomDefaultRate
    capacity := defaultCapacity
    insertions := 0 }

def add (bloom : ValueBloom) (item : Bytes) : Bool × ValueBloom :=
  let (mayHaveExisted, filter) := Platform.bloomInsert bloom.filter item
  (!mayHaveExisted,
    { bloom with
      filter := filter
      insertions :=
        if mayHaveExisted then bloom.insertions else bloom.insertions + 1 })

def exists' (bloom : ValueBloom) (item : Bytes) : Bool :=
  Platform.bloomContains bloom.filter item

def memoryBytes (bloom : ValueBloom) : Nat :=
  Platform.bloomWords bloom.filter * 8

end ValueBloom

end RedVector
