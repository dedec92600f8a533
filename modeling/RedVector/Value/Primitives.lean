import RedVector.Value.Rdb

/-!
# Lengths and integers

A length and a short integer are told apart by the first two bits, so each is
read back by its own decoder and refused by the other.
-/

namespace RedVector.Rdb

open Util Codec

/-- A short integer in the place of a string. -/
def readI64 : Decoder UInt8 Int := do
  match ← readPrefix with
  | .length _ => ofOption none
  | .special kind => do
      let width ← ofOption (intWidth kind)
      let bytes ← symbols width
      pure (signed bytes)

/-- Nothing is read of the input, whatever follows it. -/
def Refuses {α : Type} (decoder : Decoder UInt8 α) (input : Bytes) : Prop :=
  ∀ rest, decoder.run (input ++ rest) = none

/-- A length is read back and is no integer. -/
theorem encodeLen_spec
    {len : Nat} {bytes : Bytes} (encoded : encodeLen len = some bytes) :
    Reads readLen bytes len ∧ Refuses readI64 bytes := by
  refine ⟨reads_len encoded, ?_⟩
  intro rest
  unfold readI64
  rw [StateT.run_bind, reads_encodeLen encoded rest]
  rfl

/-- An integer is read back and is no length. -/
theorem encodeI64_spec
    {value : Int} {bytes : Bytes} (encoded : encodeI64 value = some bytes) :
    Reads readI64 bytes value ∧ Refuses readLen bytes := by
  obtain ⟨kind, width, special, rfl⟩ := encodeI64_special encoded
  constructor
  · exact special.reads_prefix.bind
      (special.reads_bytes pure (reads_pure value))
  · intro rest
    have isPrefix := special.reads_prefix (lowBytes width value ++ rest)
    unfold readLen
    rw [StateT.run_bind, List.cons_append, ← List.singleton_append, isPrefix]
    rfl

/-- What is read is not refused. -/
theorem Refuses.not_reads
    {α : Type} {decoder : Decoder UInt8 α} {input : Bytes}
    (refuses : Refuses decoder input) (value : α) :
    ¬Reads decoder input value := by
  intro reads
  cases (refuses []).symm.trans (reads [])

/-- What one decoder reads of an input is one value. -/
theorem reads_unique
    {α : Type} {decoder : Decoder UInt8 α} {input : Bytes} {value other : α}
    (reads : Reads decoder input value) (also : Reads decoder input other) :
    value = other := by
  cases (reads []).symm.trans (also [])
  rfl

/-- A string is read back as it was exactly if it is written and not in the
disguise of an integer. -/
theorem encodeSlice_iff (data : Bytes) (asInt : Bool) :
    (∃ bytes, encodeSlice data asInt = some bytes ∧
        Reads readString bytes data) ↔
      data.length ≤ u32Max ∧ (asInt = true → ¬Disguised data) := by
  rw [← encodeSlice_isSome data asInt, Option.isSome_iff_exists]
  cases asInt with
  | false =>
      constructor
      · rintro ⟨bytes, encoded, -⟩
        exact ⟨⟨bytes, encoded⟩, nofun⟩
      · rintro ⟨⟨bytes, encoded⟩, -⟩
        exact ⟨bytes, encoded, (reads_plain encoded).2⟩
  | true =>
      constructor
      · rintro ⟨bytes, encoded, reads⟩
        refine ⟨⟨bytes, encoded⟩, fun _ => ?_⟩
        rw [← returned_iff]
        exact reads_unique (reads_slice encoded) reads
      · rintro ⟨⟨bytes, encoded⟩, plain⟩
        have same := (returned_iff data).mpr (plain rfl)
        have reads := reads_slice encoded
        rw [same] at reads
        exact ⟨bytes, encoded, reads⟩

/-- What the codecs of lengths, integers and strings are for. -/
structure Decodable (len : Nat) (value : Int) (data : Bytes)
    (asInt : Bool) : Prop where
  length : len ≤ u32Max → ∃ bytes, encodeLen len = some bytes ∧
    Reads readLen bytes len ∧ Refuses readI64 bytes
  integer : ∀ bytes, encodeI64 value = some bytes →
    Reads readI64 bytes value ∧ Refuses readLen bytes
  apart : ∀ bytes, encodeLen len = some bytes →
    encodeI64 value ≠ some bytes
  string : ∃ bytes, encodeSlice data asInt = some bytes ∧
    Reads readString bytes data

theorem primitives_decodable
    (len : Nat) (value : Int) (data : Bytes) (asInt : Bool) :
    Decodable len value data asInt ↔
      data.length ≤ u32Max ∧ (asInt = true → ¬Disguised data) := by
  rw [← encodeSlice_iff]
  constructor
  · exact Decodable.string
  · intro string
    refine ⟨?_, fun _ => encodeI64_spec, ?_, string⟩
    · intro fits
      obtain ⟨bytes, encoded⟩ :=
        Option.isSome_iff_exists.mp ((encodeLen_isSome len).mpr fits)
      exact ⟨bytes, encoded, encodeLen_spec encoded⟩
    · intro bytes isLength isInteger
      exact (encodeI64_spec isInteger).2.not_reads len (reads_len isLength)

/-- A number with a plus sign comes back without it. -/
theorem primitives_disguised :
    ¬Decodable 0 0 (text "+5") true := by
  intro decodable
  obtain ⟨bytes, encoded, reads⟩ := decodable.string
  have written : encodeSlice (text "+5") true = some [192, 5] := by decide
  cases encoded.symm.trans written
  have read : readString.run [192, 5] = some (text "5", []) := by decide
  cases (reads []).symm.trans read

end RedVector.Rdb
