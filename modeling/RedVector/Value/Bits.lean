import RedVector.Value.Lossless

/-!
# Bits and overlays of strings

SETRANGE writes bytes over a string and SETBIT one bit.  Both pad it with
zeros, and everything else stays as it was.
-/

namespace RedVector

open Util

/-- The bit at an index, the most significant bit of the first byte first.
There are zeros behind the last byte. -/
def bitAt (bytes : Bytes) (bit : Nat) : Bool :=
  (bytes.getD (bit / 8) 0).toBitVec.getMsbD (bit % 8)

/-- All bits of a byte string. -/
def bits (bytes : Bytes) : List Bool :=
  (List.range (8 * bytes.length)).map (bitAt bytes)

theorem bits_cons (byte : UInt8) (rest : Bytes) :
    bits (byte :: rest) =
      (List.range 8).map byte.toBitVec.getMsbD ++ bits rest := by
  unfold bits
  rw [List.length_cons, Nat.mul_succ, Nat.add_comm, List.range_add,
    List.map_append, List.map_map]
  refine congrArg₂ (· ++ ·) ?_ ?_
  · apply List.map_congr_left
    intro bit small
    have small := List.mem_range.mp small
    unfold bitAt
    rw [Nat.div_eq_of_lt small, Nat.mod_eq_of_lt small]
    rfl
  · apply List.map_congr_left
    intro bit _
    change bitAt (byte :: rest) (8 + bit) = bitAt rest bit
    unfold bitAt
    rw [Nat.add_comm, Nat.add_div_right bit (by omega), Nat.add_mod_right]
    rfl

theorem bits_append (front back : Bytes) :
    bits (front ++ back) = bits front ++ bits back := by
  induction front with
  | nil => rfl
  | cons byte rest ih =>
      rw [List.cons_append, bits_cons, ih, bits_cons, List.append_assoc]

/-- A byte is zero if none of its bits is set. -/
theorem byte_eq_zero {byte : UInt8} :
    byte = 0 ↔ true ∉ (List.range 8).map byte.toBitVec.getMsbD := by
  constructor
  · rintro rfl
    decide
  · intro clear
    rw [← UInt8.toBitVec_inj]
    apply BitVec.eq_of_getMsbD_eq
    intro bit small
    have member := List.mem_map_of_mem (f := byte.toBitVec.getMsbD)
      (List.mem_range.mpr small)
    cases set : byte.toBitVec.getMsbD bit with
    | true => exact absurd (set ▸ member) clear
    | false => simp

theorem true_notMem_bits {bytes : Bytes} :
    true ∉ bits bytes ↔ ∀ byte ∈ bytes, byte = 0 := by
  induction bytes with
  | nil => simp [bits]
  | cons byte rest ih =>
      rw [bits_cons, List.mem_append, not_or, ih, ← byte_eq_zero,
        List.forall_mem_cons]

namespace ValueString

/-! ## One byte -/

theorem bitMask_toBitVec (bit : Nat) :
    (bitMask bit).toBitVec = BitVec.twoPow 8 (7 - bit % 8) := by
  have small : bit % 8 < 8 := Nat.mod_lt bit (by omega)
  unfold bitMask
  generalize bit % 8 = index at small
  interval_cases index
  all_goals rfl

/-- A mask selects one bit of a byte. -/
theorem and_bitMask (byte : UInt8) (bit : Nat) :
    (byte &&& bitMask bit != 0) = byte.toBitVec.getMsbD (bit % 8) := by
  have small : bit % 8 < 8 := Nat.mod_lt bit (by omega)
  have selected : (byte &&& bitMask bit).toBitVec =
      if byte.toBitVec.getLsbD (7 - bit % 8) then
        BitVec.twoPow 8 (7 - bit % 8)
      else 0#8 := by
    rw [UInt8.toBitVec_and, bitMask_toBitVec, BitVec.and_twoPow]
  have nonzero : BitVec.twoPow 8 (7 - bit % 8) ≠ 0#8 := by
    intro zero
    have bits := congrArg (fun bits => bits.getLsbD (7 - bit % 8)) zero
    simp at bits
    omega
  rw [BitVec.getMsbD_eq_getLsbD, Bool.eq_iff_iff, bne_iff_ne, ne_eq,
    ← UInt8.toBitVec_inj, selected]
  simp only [small, decide_true, Bool.true_and]
  split
  · rename_i set
    exact iff_of_true nonzero set
  · rename_i clear
    exact iff_of_false (fun differs => differs rfl) clear

/-- Writing through a mask sets one bit of a byte. -/
theorem getMsbD_write (byte : UInt8) (bit other : Nat) (on : Bool)
    (inside : other < 8) :
    let cleared := byte &&& ~~~bitMask bit
    (if on then cleared ||| bitMask bit else cleared).toBitVec.getMsbD other =
      if other = bit % 8 then on else byte.toBitVec.getMsbD other := by
  have small : bit % 8 < 8 := Nat.mod_lt bit (by omega)
  have places : 7 - bit % 8 = 7 - other ↔ other = bit % 8 := by omega
  intro cleared
  by_cases here : other = bit % 8
  · rw [if_pos here]
    cases on with
    | true =>
        simp [cleared, BitVec.getMsbD_eq_getLsbD, bitMask_toBitVec, here]
        omega
    | false =>
        simp [cleared, BitVec.getMsbD_eq_getLsbD, bitMask_toBitVec, here]
  · have elsewhere : 7 - bit % 8 ≠ 7 - other := fun same =>
      here (places.mp same)
    rw [if_neg here]
    cases on with
    | true =>
        simp [cleared, BitVec.getMsbD_eq_getLsbD, bitMask_toBitVec, inside,
          elsewhere]
        omega
    | false =>
        simp [cleared, BitVec.getMsbD_eq_getLsbD, bitMask_toBitVec, inside,
          elsewhere]
        omega

theorem getbit_eq (value : ValueString) (bit : Nat) :
    value.getbit bit = bitAt value.toVec bit := by
  unfold getbit bitAt
  rw [List.getD_eq_getElem?_getD]
  cases value.toVec[bit / 8]? with
  | none =>
      show false = BitVec.getMsbD 0#8 (bit % 8)
      simp
  | some byte => exact and_bitMask byte bit

theorem getD_padTo (bytes : Bytes) (length position : Nat) :
    (padTo bytes length).getD position 0 = bytes.getD position 0 := by
  unfold padTo
  rw [List.getD_eq_getElem?_getD, List.getD_eq_getElem?_getD,
    List.getElem?_append]
  split
  · rfl
  · rename_i outside
    rw [List.getElem?_eq_none (by omega : bytes.length ≤ position),
      List.getElem?_replicate]
    split
    · rfl
    · rfl

theorem setbit_spec (value : ValueString) (bit : Nat) (on : Bool) :
    (value.setbit bit on).1 = value.getbit bit ∧
      ∀ other, (value.setbit bit on).2.getbit other =
        if other = bit then on else value.getbit other := by
  constructor
  · rw [getbit_eq]
    unfold setbit bitAt
    dsimp only
    rw [getD_padTo, and_bitMask]
  · intro other
    have small : other % 8 < 8 := Nat.mod_lt other (by omega)
    have padded : bit / 8 < (padTo value.toVec (bit / 8 + 1)).length := by
      unfold padTo
      simp only [List.length_append, List.length_replicate]
      omega
    rw [getbit_eq, getbit_eq]
    unfold setbit bitAt
    change ((List.set (padTo value.toVec (bit / 8 + 1)) (bit / 8)
      _).getD (other / 8) 0).toBitVec.getMsbD (other % 8) = _
    rw [List.getD_eq_getElem?_getD, List.getElem?_set]
    by_cases here : bit / 8 = other / 8
    · rw [if_pos here, ← here, if_pos padded, Option.getD_some,
        getMsbD_write _ bit (other % 8) on small, getD_padTo]
      have same : other = bit ↔ other % 8 = bit % 8 := by omega
      simp only [same]
    · have different : other ≠ bit := by
        rintro rfl
        exact here rfl
      rw [if_neg here, if_neg different, ← List.getD_eq_getElem?_getD,
        getD_padTo]

/-! ## Overlays -/

theorem padTo_length (bytes : Bytes) (length : Nat) :
    (padTo bytes length).length = max bytes.length length := by
  unfold padTo
  simp only [List.length_append, List.length_replicate]
  omega

theorem setrange_spec (value : ValueString) (offset : Nat) {data : Bytes}
    (nonempty : data ≠ []) :
    let after := (value.setrange offset data).2
    (value.setrange offset data).1 = after.strlen ∧
      after.strlen = max value.strlen (offset + data.length) ∧
      (after.toVec.drop offset).take data.length = data ∧
      ∀ position, (position < offset ∨ offset + data.length ≤ position) →
        after.toVec.getD position 0 = value.toVec.getD position 0 := by
  obtain ⟨length, overlaid⟩ := setrange_plain value offset data
  rw [if_neg nonempty] at length overlaid
  have front : (padTo value.toVec offset).length =
      max value.toVec.length offset := padTo_length _ _
  have taken : ((padTo value.toVec offset).take offset).length =
      offset := by
    rw [List.length_take]
    omega
  intro after
  have isAfter : after.toVec =
      overwritten (padTo value.toVec offset) offset data := overlaid
  unfold overwritten at isAfter length
  refine ⟨?_, ?_, ?_, ?_⟩
  · unfold strlen
    rw [isAfter]
    exact length
  · unfold strlen
    rw [isAfter]
    simp only [List.length_append, List.length_drop, taken, front]
    omega
  · rw [isAfter, List.append_assoc, List.drop_append_of_le_length
      (by omega), List.drop_of_length_le (by omega), List.nil_append,
      List.take_left]
  · intro position outside
    rw [isAfter, ← getD_padTo value.toVec offset position,
      List.getD_eq_getElem?_getD, List.getD_eq_getElem?_getD]
    rcases outside with before | behind
    · rw [List.append_assoc, List.getElem?_append_left (by omega),
        List.getElem?_take_of_lt before]
    · rw [List.getElem?_append_right
        (by simp only [List.length_append, taken]; omega),
        List.getElem?_drop, List.length_append, taken]
      have same : offset + data.length +
          (position - (offset + data.length)) = position := by omega
      rw [same]

/-- SETRANGE overlays a string with bytes, SETBIT with one bit, and GETBIT
reads the bits, the most significant one of the first byte first. -/
theorem overlays (value : ValueString) :
    (∀ (offset : Nat) (data : Bytes), data ≠ [] →
      let after := (value.setrange offset data).2
      (value.setrange offset data).1 = after.strlen ∧
        after.strlen = max value.strlen (offset + data.length) ∧
        (after.toVec.drop offset).take data.length = data ∧
        ∀ position, (position < offset ∨ offset + data.length ≤ position) →
          after.toVec.getD position 0 = value.toVec.getD position 0) ∧
    (∀ (bit : Nat) (on : Bool),
      (value.setbit bit on).1 = value.getbit bit ∧
        (value.setbit bit on).2.getbit bit = on ∧
        ∀ other, other ≠ bit →
          (value.setbit bit on).2.getbit other = value.getbit other) ∧
    ∀ bit, value.getbit bit =
      match value.toVec[bit / 8]? with
      | some byte => byte.toBitVec.getMsbD (bit % 8)
      | none => false := by
  refine ⟨?_, ?_, ?_⟩
  · intro offset data nonempty
    exact setrange_spec value offset nonempty
  · intro bit on
    obtain ⟨old, bits⟩ := setbit_spec value bit on
    refine ⟨old, ?_, ?_⟩
    · rw [bits, if_pos rfl]
    · intro other different
      rw [bits, if_neg different]
  · intro bit
    unfold getbit
    cases value.toVec[bit / 8]? with
    | none => rfl
    | some byte => exact and_bitMask byte bit

/-- A number is overlaid as its digits. -/
theorem overlays_number :
    let after := ((ValueString.integer 5).setrange 2 (text "xy")).2
    ((ValueString.integer 5).setrange 2 (text "xy")).1 = after.strlen ∧
      after.strlen = max (ValueString.integer 5).strlen (2 + 2) ∧
      (after.toVec.drop 2).take 2 = text "xy" ∧
      ∀ position, (position < 2 ∨ 2 + 2 ≤ position) →
        after.toVec.getD position 0 =
          (ValueString.integer 5).toVec.getD position 0 :=
  (overlays (.integer 5)).1 2 (text "xy") (by decide)

end ValueString

end RedVector
