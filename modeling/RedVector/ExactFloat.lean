import RedVector.Platform

/-!
# Infinities and NaN

What holds of doubles at their ends, and a platform of exact integers of which
it holds: the infinities bound all numbers, and what has no result is NaN.
-/

namespace RedVector

/-- Every number lies between the infinities, which differ. -/
structure Platform.Infinities [Platform] : Prop where
  greatest : ∀ score, Platform.f64IsNan score = false →
    Platform.f64Lt Platform.f64Infinity score = false
  least : ∀ score, Platform.f64IsNan score = false →
    Platform.f64Lt score Platform.f64NegInfinity = false
  apart : Platform.f64Lt Platform.f64NegInfinity Platform.f64Infinity = true

/-- NaN is in no order and spreads through sums, and the operands of an
operation with a result can be swapped. -/
structure Platform.Arithmetic [Platform] : Prop where
  lt_number : ∀ a b, Platform.f64Lt a b = true →
    Platform.f64IsNan a = false ∧ Platform.f64IsNan b = false
  add_number : ∀ a b, Platform.f64IsNan (Platform.f64Add a b) = false →
    Platform.f64IsNan a = false ∧ Platform.f64IsNan b = false
  add_comm : ∀ a b, Platform.f64IsNan (Platform.f64Add a b) = false →
    Platform.f64Add b a = Platform.f64Add a b
  mul_comm : ∀ a b, Platform.f64IsNan (Platform.f64Mul a b) = false →
    Platform.f64Mul b a = Platform.f64Mul a b

/-- Doubles with the same bits are the same ones. -/
def Platform.Bits [Platform] : Prop :=
  ∀ a b, Platform.f64SameBits a b = true ↔ a = b

inductive ExactFloat where
  | number (number : Int)
  | infinity
  | negInfinity
  | nan
  deriving DecidableEq

namespace ExactFloat

def sign : ExactFloat → Int
  | number a => a.sign
  | infinity => 1
  | negInfinity => -1
  | nan => 0

def isNan : ExactFloat → Bool
  | nan => true
  | _ => false

def isInfinite : ExactFloat → Bool
  | infinity | negInfinity => true
  | _ => false

/-- An infinity of a sign. -/
def signed (sign : Int) : ExactFloat :=
  if 0 < sign then infinity else if sign < 0 then negInfinity else nan

def add : ExactFloat → ExactFloat → ExactFloat
  | number a, number b => number (a + b)
  | nan, _ | _, nan => nan
  | infinity, negInfinity | negInfinity, infinity => nan
  | infinity, _ | _, infinity => infinity
  | negInfinity, _ | _, negInfinity => negInfinity

def mul : ExactFloat → ExactFloat → ExactFloat
  | number a, number b => number (a * b)
  | a, b => signed (a.sign * b.sign)

def lt : ExactFloat → ExactFloat → Bool
  | number a, number b => decide (a < b)
  | negInfinity, number _ | negInfinity, infinity | number _, infinity => true
  | _, _ => false

def parse (input : Bytes) : Option ExactFloat :=
  if input = text "inf" then some infinity
  else if input = text "-inf" then some negInfinity
  else if input = text "NaN" then some nan
  else (Util.parseInteger input).map number

def display : ExactFloat → Bytes
  | number a => Util.intToString a
  | infinity => text "inf"
  | negInfinity => text "-inf"
  | nan => text "NaN"

theorem parse_display (a : ExactFloat) : parse (display a) = some a := by
  cases a with
  | number a =>
      unfold parse display
      rw [if_neg (Util.intToString_ne a (by decide)),
        if_neg (Util.intToString_ne a (by decide)),
        if_neg (Util.intToString_ne a (by decide)),
        Util.parseInteger_intToString]
      rfl
  | infinity => rfl
  | negInfinity => rfl
  | nan => rfl

theorem display_line (a : ExactFloat) :
    ∀ byte ∈ display a, byte ≠ 13 ∧ byte ≠ 10 := by
  cases a with
  | number a => exact fun _ => Util.intToString_line
  | infinity => simp [display, text]
  | negInfinity => simp [display, text]
  | nan => simp [display, text]

theorem lt_irrefl (a : ExactFloat) : lt a a = false := by
  cases a with
  | number a => simp [lt]
  | infinity => rfl
  | negInfinity => rfl
  | nan => rfl

theorem lt_trans
    {a b c : ExactFloat} (first : lt a b = true) (second : lt b c = true) :
    lt a c = true := by
  cases b with
  | number b =>
      cases a with
      | number a =>
          cases c with
          | number c =>
              simp only [lt, decide_eq_true_eq] at first second ⊢
              omega
          | infinity => rfl
          | negInfinity => cases second
          | nan => cases second
      | negInfinity =>
          cases c with
          | number c => rfl
          | infinity => rfl
          | negInfinity => cases second
          | nan => cases second
      | infinity => cases first
      | nan => cases first
  | infinity => cases c <;> cases second
  | negInfinity => cases a <;> cases first
  | nan => cases a <;> cases first

/-- Between two numbers in order there is no gap for a third one. -/
theorem lt_of_not_lt
    {a b c : ExactFloat} (second : isNan b = false) (less : lt a c = true) :
    lt a b = true ∨ lt b c = true := by
  cases b with
  | nan => cases second
  | infinity =>
      cases a with
      | number a => exact .inl rfl
      | negInfinity => exact .inl rfl
      | infinity => cases less
      | nan => cases less
  | negInfinity =>
      cases c with
      | number c => exact .inr rfl
      | infinity => exact .inr rfl
      | negInfinity => cases a <;> cases less
      | nan => cases a <;> cases less
  | number b =>
      cases a with
      | negInfinity => exact .inl rfl
      | infinity => cases less
      | nan => cases less
      | number a =>
          cases c with
          | number c =>
              simp only [lt, decide_eq_true_eq] at less ⊢
              omega
          | infinity => exact .inr rfl
          | negInfinity => cases less
          | nan => cases less

end ExactFloat

/-- The integral platform with infinities and NaN. -/
@[reducible] def Platform.exact : Platform :=
  { Platform.integral with
    F64 := ExactFloat
    f64Parse := ExactFloat.parse
    f64ToString := ExactFloat.display
    f64OfI64 := .number
    f64Add := ExactFloat.add
    f64Mul := ExactFloat.mul
    f64Lt := ExactFloat.lt
    f64Eq := fun a b => decide (a = b) && !a.isNan
    f64SameBits := fun a b => decide (a = b)
    f64IsNan := ExactFloat.isNan
    f64IsInfinite := ExactFloat.isInfinite
    f64IsSignPositive := fun a => decide (0 ≤ a.sign)
    f64Abs := fun
      | .number a => .number a.natAbs
      | .nan => .nan
      | _ => .infinity
    f64IsDuration := fun
      | .number a => 0 ≤ a && a < 2 ^ 64
      | _ => false
    f64Zero := .number 0
    f64One := .number 1
    f64Infinity := .infinity
    f64NegInfinity := .negInfinity
    bloomNew := fun _ _ => []
    bloomDefaultRate := .number 0
    f64_lt_irrefl := ExactFloat.lt_irrefl
    f64_lt_trans := fun _ _ _ => ExactFloat.lt_trans
    f64_lt_of_not_lt := fun _ _ _ _ second _ => ExactFloat.lt_of_not_lt second
    f64_zero_not_nan := rfl
    f64_infinity_not_nan := rfl
    f64_negInfinity_not_nan := rfl
    f64_infinite := by
      intro a infinite
      cases a with
      | number a => cases infinite
      | infinity => rfl
      | negInfinity => rfl
      | nan => cases infinite
    f64_abs_not_nan := by
      intro a
      cases a with
      | number a => rfl
      | infinity => rfl
      | negInfinity => rfl
      | nan => rfl
    f64_parse_toString := fun a _ => ExactFloat.parse_display a
    f64_toString_line := ExactFloat.display_line }

section

attribute [local instance] Platform.exact

theorem Platform.exact_infinities : Platform.Infinities where
  greatest := by
    intro score number
    cases score with
    | number a => rfl
    | infinity => rfl
    | negInfinity => rfl
    | nan => rfl
  least := by
    intro score number
    cases score with
    | number a => rfl
    | infinity => rfl
    | negInfinity => rfl
    | nan => rfl
  apart := rfl

theorem Platform.exact_bits : Platform.Bits :=
  fun _ _ => decide_eq_true_iff

theorem Platform.exact_arithmetic : Platform.Arithmetic where
  lt_number := by
    intro a b less
    cases a with
    | number a =>
        cases b with
        | number b => exact ⟨rfl, rfl⟩
        | infinity => exact ⟨rfl, rfl⟩
        | negInfinity => cases less
        | nan => cases less
    | negInfinity =>
        cases b with
        | number b => exact ⟨rfl, rfl⟩
        | infinity => exact ⟨rfl, rfl⟩
        | negInfinity => cases less
        | nan => cases less
    | infinity => cases less
    | nan => cases less
  add_number := by
    intro a b number
    cases a with
    | number a =>
        cases b with
        | nan => cases number
        | number b => exact ⟨rfl, rfl⟩
        | infinity => exact ⟨rfl, rfl⟩
        | negInfinity => exact ⟨rfl, rfl⟩
    | infinity =>
        cases b with
        | nan => cases number
        | number b => exact ⟨rfl, rfl⟩
        | infinity => exact ⟨rfl, rfl⟩
        | negInfinity => exact ⟨rfl, rfl⟩
    | negInfinity =>
        cases b with
        | nan => cases number
        | number b => exact ⟨rfl, rfl⟩
        | infinity => exact ⟨rfl, rfl⟩
        | negInfinity => exact ⟨rfl, rfl⟩
    | nan => cases b <;> cases number
  add_comm := by
    intro a b _
    cases a with
    | number a =>
        cases b with
        | number b => exact congrArg ExactFloat.number (Int.add_comm b a)
        | infinity => rfl
        | negInfinity => rfl
        | nan => rfl
    | infinity => cases b <;> rfl
    | negInfinity => cases b <;> rfl
    | nan => cases b <;> rfl
  mul_comm := by
    intro a b _
    have signs : ExactFloat.signed (b.sign * a.sign) =
        ExactFloat.signed (a.sign * b.sign) := by
      rw [Int.mul_comm]
    cases a with
    | number a =>
        cases b with
        | number b => exact congrArg ExactFloat.number (Int.mul_comm b a)
        | infinity => exact signs
        | negInfinity => exact signs
        | nan => exact signs
    | infinity => cases b <;> exact signs
    | negInfinity => cases b <;> exact signs
    | nan => cases b <;> exact signs

end

end RedVector
