import RedVector.Util.Digits

/-!
# What the repository takes from outside

Double-precision arithmetic, the `basichll`, `fastbloom` and `crc64` crates and
the build profile are parameters of the model.  Where a crate indexes into data of
the caller its answer is an `Option`, and `none` is a panic.
-/

namespace RedVector

open Util

class Platform where
  /-- Whether the build panics on an arithmetic overflow instead of wrapping. -/
  overflowChecks : Bool
  F64 : Type
  /-- `str::parse::<f64>`. -/
  f64Parse : Bytes → Option F64
  /-- `format!("{}", x)`. -/
  f64ToString : F64 → Bytes
  f64OfI64 : Int → F64
  f64Add : F64 → F64 → F64
  f64Mul : F64 → F64 → F64
  f64Lt : F64 → F64 → Bool
  f64Eq : F64 → F64 → Bool
  f64SameBits : F64 → F64 → Bool
  f64IsNan : F64 → Bool
  f64IsInfinite : F64 → Bool
  f64IsSignPositive : F64 → Bool
  f64Abs : F64 → F64
  /-- Whether `Duration::from_secs_f64` accepts the number. -/
  f64IsDuration : F64 → Bool
  f64Zero : F64
  f64One : F64
  f64Infinity : F64
  f64NegInfinity : F64
  Hll : Type
  /-- `HLL::new(HLL_ERROR)`. -/
  hllNew : Hll
  hllFromVec : Bytes → Option Hll
  hllInsert : Hll → Bytes → Option (Bool × Hll)
  hllAdd : Hll → Hll → Option Hll
  /-- `count().round() as usize`. -/
  hllCount : Hll → Option Nat
  hllIntoVec : Hll → Bytes
  BloomFilter : Type
  /-- `with_false_pos(error_rate).expected_items(capacity)`. -/
  bloomNew : F64 → Nat → BloomFilter
  bloomDefaultRate : F64
  bloomInsert : BloomFilter → Bytes → Bool × BloomFilter
  bloomContains : BloomFilter → Bytes → Bool
  /-- `as_slice().len()`. -/
  bloomWords : BloomFilter → Nat
  bloomBits : BloomFilter → Nat
  bloomHashes : BloomFilter → Nat
  /-- `crc64(0, data)`. -/
  crc64 : Bytes → UInt64
  /-- Outside of NaN, `<` is a strict order whose ties are `==`. -/
  f64_lt_irrefl : ∀ a, f64Lt a a = false
  f64_lt_trans : ∀ a b c, f64Lt a b → f64Lt b c → f64Lt a c
  f64_lt_of_not_lt : ∀ a b c, f64IsNan a = false → f64IsNan b = false →
    f64IsNan c = false → f64Lt a c → f64Lt a b ∨ f64Lt b c
  f64_zero_not_nan : f64IsNan f64Zero = false
  f64_infinity_not_nan : f64IsNan f64Infinity = false
  f64_negInfinity_not_nan : f64IsNan f64NegInfinity = false
  /-- There is one infinity of each sign. -/
  f64_infinite : ∀ a, f64IsInfinite a →
    a = if f64IsSignPositive a then f64Infinity else f64NegInfinity
  f64_abs_not_nan : ∀ a, f64IsNan (f64Abs a) = f64IsNan a
  /-- A number is read back from what it is displayed as, which is one line. -/
  f64_parse_toString : ∀ a, f64IsNan a = false →
    f64Parse (f64ToString a) = some a
  f64_toString_line : ∀ a, ∀ byte ∈ f64ToString a, byte ≠ 13 ∧ byte ≠ 10

export Platform (F64)

/-! ## Machine arithmetic

The exact result of an operation goes through the range of its type. -/

section Arithmetic

variable [Platform]

/-- The exact result `number` of an `i64` operation as the build computes it. -/
def i64 (number : Int) : Option Int :=
  if Util.inI64 number then some number
  else if Platform.overflowChecks then none
  else some (number.bmod 18446744073709551616)

/-- The exact result `number` of a `usize` operation as the build computes
it. -/
def usize (number : Int) : Option Nat :=
  if 0 ≤ number && number ≤ Util.usizeMax then some number.toNat
  else if Platform.overflowChecks then none
  else some (number % 18446744073709551616).toNat

/-- A number that fits is not changed, and every result fits. -/
theorem usize_spec {number : Int} {result : Nat}
    (computed : usize number = some result) :
    result ≤ Util.usizeMax ∧
      (0 ≤ number → number ≤ Util.usizeMax → (result : Int) = number) := by
  unfold usize at computed
  split at computed
  · rename_i fits
    simp only [Bool.and_eq_true, decide_eq_true_eq] at fits
    cases computed
    omega
  · rename_i outside
    simp only [Bool.and_eq_true, decide_eq_true_eq] at outside
    split at computed
    · cases computed
    · cases computed
      unfold Util.usizeMax at outside ⊢
      omega

theorem usize_of
    {exact : Int} {number : Nat} (same : exact = number)
    (fits : number ≤ Util.usizeMax) : usize exact = some number := by
  unfold usize
  rw [same, if_pos (by simpa using fits), Int.toNat_natCast]

/-- A number below zero panics or wraps around. -/
theorem usize_below {number : Int} (below : number < 0) :
    usize number = if Platform.overflowChecks then none
      else some (number % 18446744073709551616).toNat := by
  unfold usize
  apply if_neg
  simp [below]

end Arithmetic

/-- `number as usize`. -/
def asUsize (number : Int) : Nat :=
  (number % 18446744073709551616).toNat

/-- `number as i64`. -/
def asI64 (number : Int) : Int :=
  number.bmod 18446744073709551616

/-- The same platform in a build with or without overflow checks. -/
@[reducible] def Platform.built [platform : Platform] (checks : Bool) :
    Platform :=
  { platform with overflowChecks := checks }

/-! ## Concrete platforms -/

/-- One bit of the CRC-64 of Jones. -/
def crc64Bit (crc : UInt64) : UInt64 :=
  if crc &&& 1 = 1 then (crc >>> 1) ^^^ 0x95AC9329AC4BC9B5 else crc >>> 1

def crc64Byte (crc : UInt64) (byte : UInt8) : UInt64 :=
  crc64Bit (crc64Bit (crc64Bit (crc64Bit (crc64Bit (crc64Bit (crc64Bit
    (crc64Bit (crc ^^^ byte.toUInt64))))))))

/-- The checksum of the `crc64` crate. -/
def crc64Jones (data : Bytes) : UInt64 :=
  data.foldl crc64Byte 0

/-- A platform with 64-bit checks whose numbers are integers and whose sketches
are the elements they were given. -/
@[reducible] def Platform.integral : Platform where
  overflowChecks := true
  F64 := Int
  f64Parse := fun input =>
    if input = text "inf" then some (2 ^ 1024) else Util.parseInteger input
  f64ToString := Util.intToString
  f64OfI64 := id
  f64Add := fun a b => a + b
  f64Mul := fun a b => a * b
  f64Lt := fun a b => decide (a < b)
  f64Eq := fun a b => decide (a = b)
  f64SameBits := fun a b => decide (a = b)
  f64IsNan := fun _ => false
  f64IsInfinite := fun a => decide (a.natAbs = 2 ^ 1024)
  f64IsSignPositive := fun a => decide (0 ≤ a)
  f64Abs := fun a => a.natAbs
  f64IsDuration := fun a => decide (0 ≤ a ∧ a < 2 ^ 64)
  f64Zero := 0
  f64One := 1
  f64Infinity := 2 ^ 1024
  f64NegInfinity := -2 ^ 1024
  Hll := List Bytes
  hllNew := []
  hllFromVec := fun _ => some []
  hllInsert := fun sketch element =>
    some (!sketch.contains element, sketch.insert element)
  hllAdd := fun sketch other => some (other.foldr List.insert sketch)
  hllCount := fun sketch => some sketch.length
  hllIntoVec := List.flatten
  BloomFilter := List Bytes
  bloomNew := fun _ _ => []
  bloomDefaultRate := 0
  bloomInsert := fun filter element =>
    (filter.contains element, filter.insert element)
  bloomContains := fun filter element => filter.contains element
  bloomWords := List.length
  bloomBits := List.length
  bloomHashes := fun _ => 1
  crc64 := crc64Jones
  f64_lt_irrefl := by simp
  f64_lt_trans := by
    intro a b c first second
    simp only [decide_eq_true_eq] at first second ⊢
    omega
  f64_lt_of_not_lt := by
    intro a b c _ _ _ less
    simp only [decide_eq_true_eq] at less ⊢
    omega
  f64_zero_not_nan := rfl
  f64_infinity_not_nan := rfl
  f64_negInfinity_not_nan := rfl
  f64_infinite := by
    intro a infinite
    simp only [decide_eq_true_eq] at infinite ⊢
    split
    · omega
    · omega
  f64_abs_not_nan := fun _ => rfl
  f64_parse_toString := by
    intro a _
    rw [if_neg (Util.intToString_ne a (by decide))]
    exact Util.parseInteger_intToString a
  f64_toString_line := fun _ _ => Util.intToString_line

/-- The sum of two integers with infinities, of which those of opposite signs
have none. -/
def Platform.extendedAdd : Option Int → Option Int → Option Int
  | some a, some b =>
      if 2 ^ 128 ≤ a then if b ≤ -2 ^ 128 then none else some (2 ^ 128)
      else if a ≤ -2 ^ 128 then
        if 2 ^ 128 ≤ b then none else some (-2 ^ 128)
      else some (max (-2 ^ 128) (min (2 ^ 128) (a + b)))
  | _, _ => none

/-- The product of two integers with infinities; zero has none with an
infinity. -/
def Platform.extendedMul : Option Int → Option Int → Option Int
  | some a, some b =>
      if (2 ^ 128 ≤ a.natAbs ∧ b = 0) ∨ (a = 0 ∧ 2 ^ 128 ≤ b.natAbs) then
        none
      else some (max (-2 ^ 128) (min (2 ^ 128) (a * b)))
  | _, _ => none

/-- A platform like the integral one, with infinities and NaN. -/
@[reducible] def Platform.extended : Platform where
  overflowChecks := true
  F64 := Option Int
  f64Parse := fun input =>
    if input = text "inf" then some (some (2 ^ 128))
    else if input = text "-inf" then some (some (-2 ^ 128))
    else if input = text "NaN" then some none
    else (Util.parseInteger input).map some
  f64ToString := fun number => (number.map Util.intToString).getD (text "NaN")
  f64OfI64 := some
  f64Add := extendedAdd
  f64Mul := extendedMul
  f64Lt := fun
    | some a, some b => decide (a < b)
    | _, _ => false
  f64Eq := fun
    | some a, some b => decide (a = b)
    | _, _ => false
  f64SameBits := fun a b => decide (a = b)
  f64IsNan := Option.isNone
  f64IsInfinite := fun number => number.any fun a => a.natAbs = 2 ^ 128
  f64IsSignPositive := fun number => number.any fun a => 0 ≤ a
  f64Abs := fun number => number.map fun a => a.natAbs
  f64IsDuration := fun number => number.any fun a => 0 ≤ a && a < 2 ^ 64
  f64Zero := some 0
  f64One := some 1
  f64Infinity := some (2 ^ 128)
  f64NegInfinity := some (-2 ^ 128)
  Hll := List Bytes
  hllNew := []
  hllFromVec := fun _ => some []
  hllInsert := fun sketch element =>
    some (!sketch.contains element, sketch.insert element)
  hllAdd := fun sketch other => some (other.foldr List.insert sketch)
  hllCount := fun sketch => some sketch.length
  hllIntoVec := List.flatten
  BloomFilter := List Bytes
  bloomNew := fun _ _ => []
  bloomDefaultRate := some 0
  bloomInsert := fun filter element =>
    (filter.contains element, filter.insert element)
  bloomContains := fun filter element => filter.contains element
  bloomWords := List.length
  bloomBits := List.length
  bloomHashes := fun _ => 1
  crc64 := crc64Jones
  f64_lt_irrefl := by
    intro a
    cases a with
    | none => rfl
    | some a => simp
  f64_lt_trans := by
    intro a b c first second
    cases a with
    | none => cases first
    | some a =>
        cases b with
        | none => cases first
        | some b =>
            cases c with
            | none => cases second
            | some c =>
                simp only [decide_eq_true_eq] at first second ⊢
                omega
  f64_lt_of_not_lt := by
    intro a b c first second third less
    cases a with
    | none => cases first
    | some a =>
        cases b with
        | none => cases second
        | some b =>
            cases c with
            | none => cases third
            | some c =>
                simp only [decide_eq_true_eq] at less ⊢
                omega
  f64_zero_not_nan := rfl
  f64_infinity_not_nan := rfl
  f64_negInfinity_not_nan := rfl
  f64_infinite := by
    intro a infinite
    cases a with
    | none => cases infinite
    | some a =>
        simp only [Option.any_some, decide_eq_true_eq] at infinite ⊢
        split
        · congr 1
          omega
        · congr 1
          omega
  f64_abs_not_nan := by
    intro a
    cases a with
    | none => rfl
    | some a => rfl
  f64_parse_toString := by
    intro a number
    cases a with
    | none => cases number
    | some a =>
        simp only [Option.map_some, Option.getD_some]
        rw [if_neg (Util.intToString_ne a (by decide)),
          if_neg (Util.intToString_ne a (by decide)),
          if_neg (Util.intToString_ne a (by decide)),
          Util.parseInteger_intToString]
        rfl
  f64_toString_line := by
    intro a byte member
    cases a with
    | none =>
        have letters : ∀ byte ∈ text "NaN", byte ≠ 13 ∧ byte ≠ 10 := by
          simp [text]
        exact letters byte member
    | some a => exact Util.intToString_line member

/-- A bound of a range. -/
inductive Bound (α : Type) where
  | included (limit : α)
  | excluded (limit : α)
  | unbounded

/-!
## Exact arithmetic

What a build with overflow checks computes is exact, and a result is exact in
both builds where it fits.
-/

section

/-- Both builds compute a result. -/
def Exactly {α : Type} [Platform] (reckon : Platform → Option α)
    (exact : α) : Prop :=
  ∀ checks, reckon (.built checks) = some exact

variable {number : Int}

theorem i64_of {platform : Platform} (fits : inI64 number = true) :
    @i64 platform number = some number :=
  if_pos fits

theorem checked_i64 [platform : Platform] {result : Int}
    (computed : @i64 (platform.built true) number = some result) :
    inI64 number = true ∧ result = number := by
  unfold i64 at computed
  split at computed
  · rename_i fits
    cases computed
    exact ⟨fits, rfl⟩
  · cases computed

theorem checked_usize [platform : Platform] {result : Nat}
    (computed : @usize (platform.built true) number = some result) :
    0 ≤ number ∧ number ≤ usizeMax ∧ (result : Int) = number := by
  unfold usize at computed
  split at computed
  · rename_i fits
    simp only [Bool.and_eq_true, decide_eq_true_eq] at fits
    cases computed
    omega
  · cases computed

end

end RedVector
