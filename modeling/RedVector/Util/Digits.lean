import Mathlib.Data.List.Induction
import Mathlib.Tactic.IntervalCases
import RedVector.Util.Bytes

/-!
# Decimal numbers

A number that is written out is read back.
-/

namespace RedVector.Util

theorem digit_spec {number : Nat} (small : number < 10) :
    isDigit (48 + number).toUInt8 = true ∧
      (48 + number).toUInt8.toNat - 48 = number := by
  interval_cases number
  all_goals decide

theorem digitsAux_append (fuel number : Nat) (digits : Bytes) :
    digitsAux fuel number digits = digitsAux fuel number [] ++ digits := by
  induction fuel generalizing number digits with
  | zero => rfl
  | succ fuel ih =>
      simp only [digitsAux]
      split
      · rfl
      · rw [ih, ih (number / 10) [(48 + number % 10).toUInt8],
          List.append_assoc]
        rfl

/-- The digits of a number stand for it. -/
theorem digitsAux_spec {fuel number : Nat} (enough : number < fuel) :
    (digitsAux fuel number []).all isDigit = true ∧
      digitsValue (digitsAux fuel number []) = number := by
  induction fuel generalizing number with
  | zero => omega
  | succ fuel ih =>
      obtain ⟨digit, value⟩ := digit_spec (Nat.mod_lt number
        (show 0 < 10 by omega))
      simp only [digitsAux]
      split
      · rename_i small
        rw [Nat.mod_eq_of_lt small] at digit value ⊢
        refine ⟨by simp only [List.all_cons, digit, List.all_nil,
          Bool.and_self], ?_⟩
        simp only [digitsValue, List.foldl_cons, List.foldl_nil, value]
        omega
      · obtain ⟨allDigits, prefixValue⟩ :=
          ih (show number / 10 < fuel by omega)
        rw [digitsAux_append]
        refine ⟨by simp only [List.all_append, allDigits, List.all_cons,
          digit, List.all_nil, Bool.and_self], ?_⟩
        simp only [digitsValue, List.foldl_append, List.foldl_cons,
          List.foldl_nil] at prefixValue ⊢
        rw [prefixValue, value]
        omega

theorem natToString_isDigit (number : Nat) :
    (natToString number).all isDigit = true :=
  (digitsAux_spec (Nat.lt_succ_self number)).1

theorem natToString_value (number : Nat) :
    digitsValue (natToString number) = number :=
  (digitsAux_spec (Nat.lt_succ_self number)).2

theorem natToString_ne_nil (number : Nat) : natToString number ≠ [] := by
  unfold natToString digitsAux
  dsimp only
  split
  · simp
  · rw [digitsAux_append]
    simp

/-- More fuel than a number needs does not change its digits. -/
theorem digitsAux_fuel
    {first second number : Nat} (enough : number < first)
    (alsoEnough : number < second) :
    digitsAux first number [] = digitsAux second number [] := by
  induction first generalizing second number with
  | zero => omega
  | succ first ih =>
      cases second with
      | zero => omega
      | succ second =>
          simp only [digitsAux]
          split
          · rfl
          · rw [digitsAux_append, digitsAux_append second]
            apply congrArg (· ++ _)
            apply ih
            · omega
            · omega

theorem natToString_small {number : Nat} (small : number < 10) :
    natToString number = [(48 + number).toUInt8] := by
  unfold natToString digitsAux
  rw [if_pos small, Nat.mod_eq_of_lt small]

theorem natToString_step {number : Nat} (large : 10 ≤ number) :
    natToString number =
      natToString (number / 10) ++ [(48 + number % 10).toUInt8] := by
  have more : natToString number =
      digitsAux number (number / 10) [(48 + number % 10).toUInt8] := by
    unfold natToString
    rw [digitsAux, if_neg (by omega)]
  rw [more, digitsAux_append]
  apply congrArg (· ++ _)
  apply digitsAux_fuel
  · omega
  · omega

theorem natToString_length {number count : Nat}
    (small : number < 10 ^ (count + 1)) :
    (natToString number).length ≤ count + 1 := by
  induction count generalizing number with
  | zero =>
      rw [natToString_small small]
      exact Nat.le_refl 1
  | succ count ih =>
      by_cases digit : number < 10
      · rw [natToString_small digit]
        exact Nat.le_add_left 1 (count + 1)
      · rw [natToString_step (by omega), List.length_append]
        have shorter : number / 10 < 10 ^ (count + 1) := by
          rw [Nat.pow_succ] at small
          exact Nat.div_lt_of_lt_mul (by omega)
        exact Nat.add_le_add_right (ih shorter) 1

/-- A number of more than one digit does not begin with a zero. -/
theorem natToString_head {number : Nat} (positive : 0 < number) :
    (natToString number).head? ≠ some 48 := by
  induction number using Nat.strong_induction_on with
  | _ number ih =>
      by_cases small : number < 10
      · rw [natToString_small small]
        interval_cases number
        all_goals decide
      · rw [natToString_step (Nat.le_of_not_lt small), List.head?_append]
        have front := ih (number / 10) (by omega) (by omega)
        cases head : (natToString (number / 10)).head? with
        | none =>
            exact absurd (List.head?_eq_none_iff.mp head)
              (natToString_ne_nil _)
        | some byte =>
            rw [head] at front
            exact front

/-- A digit is the last one of its own value. -/
theorem digit_eq {byte : UInt8} (digit : isDigit byte = true) :
    byte.toNat - 48 < 10 ∧ (48 + (byte.toNat - 48)).toUInt8 = byte := by
  unfold isDigit at digit
  simp only [Bool.and_eq_true, decide_eq_true_eq, UInt8.le_iff_toNat_le]
    at digit
  obtain ⟨least, most⟩ := digit
  have least : 48 ≤ byte.toNat := least
  have most : byte.toNat ≤ 57 := most
  refine ⟨by omega, ?_⟩
  rw [Nat.add_sub_of_le least]
  exact UInt8.ofNat_toNat

theorem digitsValue_append (front : Bytes) (byte : UInt8) :
    digitsValue (front ++ [byte]) =
      digitsValue front * 10 + (byte.toNat - 48) := by
  simp [digitsValue, List.foldl_append]

/-- Digits without a leading zero are what their value is written as. -/
theorem natToString_digitsValue
    {digits : Bytes} (nonempty : digits ≠ [])
    (allDigits : digits.all isDigit = true)
    (leading : 1 < digits.length → digits.head? ≠ some 48) :
    natToString (digitsValue digits) = digits := by
  induction digits using List.reverseRecOn with
  | nil => exact absurd rfl nonempty
  | append_singleton front byte ih =>
      rw [List.all_append, Bool.and_eq_true] at allDigits
      obtain ⟨frontDigits, lastDigit⟩ := allDigits
      have digit : isDigit byte = true := by simpa using lastDigit
      obtain ⟨small, same⟩ := digit_eq digit
      rw [digitsValue_append]
      by_cases alone : front = []
      · subst alone
        have value : digitsValue [] = 0 := rfl
        rw [value, Nat.zero_mul, Nat.zero_add, natToString_small small, same]
        rfl
      · have headed : front.head? ≠ some 48 := by
          have longer : 1 < (front ++ [byte]).length := by
            have positive := List.length_pos_iff.mpr alone
            rw [List.length_append, List.length_singleton]
            omega
          have leads := leading longer
          cases front with
          | nil => exact absurd rfl alone
          | cons lead rest => exact leads
        have written := ih alone frontDigits (fun _ => headed)
        have positive : 0 < digitsValue front := by
          apply Nat.pos_of_ne_zero
          intro zero
          rw [zero] at written
          rw [← written] at headed
          exact headed rfl
        rw [natToString_step (by omega)]
        have quotient : (digitsValue front * 10 + (byte.toNat - 48)) / 10 =
            digitsValue front := by
          omega
        have remainder :
            (digitsValue front * 10 + (byte.toNat - 48)) % 10 =
              byte.toNat - 48 := by
          omega
        rw [quotient, remainder, written, same]

theorem natToString_injective : Function.Injective natToString := by
  intro first second same
  have values := congrArg digitsValue same
  rwa [natToString_value, natToString_value] at values

theorem parseDigits_natToString (number : Nat) :
    parseDigits (natToString number) = some number := by
  unfold parseDigits
  rw [natToString_isDigit, natToString_value]
  simp [natToString_ne_nil]

/-- A number is read back from how it is written. -/
theorem parseInteger_intToString (number : Int) :
    parseInteger (intToString number) = some number := by
  cases number with
  | ofNat count =>
      have digits := List.all_eq_true.mp (natToString_isDigit count)
      have parsed := parseDigits_natToString count
      unfold parseInteger intToString
      dsimp only
      split
      · rename_i rest written
        have sign := digits 45 (by rw [written]; exact List.mem_cons_self)
        exact absurd sign (by decide)
      · rename_i rest written
        have sign := digits 43 (by rw [written]; exact List.mem_cons_self)
        exact absurd sign (by decide)
      · rw [parsed]
        rfl
  | negSucc count =>
      have parsed := parseDigits_natToString (count + 1)
      unfold parseInteger intToString
      simp only [parsed]
      rfl

theorem parseI64_intToString {number : Int} (fits : inI64 number = true) :
    parseI64 (intToString number) = some number := by
  unfold parseI64
  rw [parseInteger_intToString]
  simpa using fits

/-- What is not a number is not how one is written. -/
theorem intToString_ne
    (number : Int) {other : Bytes} (unread : parseInteger other = none) :
    intToString number ≠ other := by
  rintro rfl
  rw [parseInteger_intToString] at unread
  cases unread

/-- A written number has no ends of lines in it. -/
theorem intToString_line
    {number : Int} {byte : UInt8} (member : byte ∈ intToString number) :
    byte ≠ 13 ∧ byte ≠ 10 := by
  have plain : ∀ count : Nat, byte ∈ natToString count →
      byte ≠ 13 ∧ byte ≠ 10 := by
    intro count among
    have digit := List.all_eq_true.mp (natToString_isDigit count) byte among
    constructor
    · rintro rfl
      exact absurd digit (by decide)
    · rintro rfl
      exact absurd digit (by decide)
  cases number with
  | ofNat count => exact plain count member
  | negSucc count =>
      rcases List.mem_cons.mp member with rfl | among
      · decide
      · exact plain _ among

end RedVector.Util
