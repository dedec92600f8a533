import RedVector.Util.Bytes

/-!
# Errors of the value operations
-/

namespace RedVector

inductive OperationError where
  | overflowError
  | notANumberError
  | valueError (message : Line)
  | unknownKeyError
  | wrongTypeError
  | outOfBoundsError

namespace OperationError

def message : OperationError → Bytes
  | wrongTypeError =>
      text ("WRONGTYPE Operation against a key holding the wrong kind of "
        ++ "value")
  | notANumberError => text "ERR resulting score is not a number (NaN)"
  | valueError message => message.val
  | _ => text "ERR"

end OperationError

/-- The outcome of an operation on a value. -/
abbrev Operation (α : Type) := Except OperationError α

namespace Util

/-- Gets the position in a list from a signed integer.  The error tells
whether the position is after the end. -/
def normalizePosition (position : Int) (length : Nat) : Except Bool Nat :=
  let position := if position < 0 then position + length else position
  if position < 0 then .error false
  else if position ≥ length then .error true
  else .ok position.toNat

/-- Where a position lies: before the list, after it, or in it. -/
theorem normalizePosition_spec (position : Int) (length : Nat) :
    match normalizePosition position length with
    | .error false => position < -length
    | .error true => (length : Int) ≤ position
    | .ok place => place < length ∧
        (place = position ∨ position < 0 ∧ place = position + length) := by
  unfold normalizePosition
  dsimp only
  by_cases negative : position < 0
  · rw [if_pos negative]
    by_cases outside : position + length < 0
    · rw [if_pos outside]
      dsimp only
      omega
    · rw [if_neg outside, if_neg (by omega)]
      dsimp only
      omega
  · rw [if_neg negative, if_neg negative]
    by_cases outside : position ≥ length
    · rw [if_pos outside]
      exact outside
    · rw [if_neg outside]
      dsimp only
      omega

/-- Parses a decimal number without leading zeros. -/
def vecToUsize (data : Bytes) : Except OperationError Nat :=
  if data.isEmpty || (1 < data.length && data.head? == some 48) then
    .error (.valueError ⟨text "ERR value is not an integer", by decide⟩)
  else if ¬isUtf8 data then
    .error (.valueError ⟨text "ERR value is not a string", by decide⟩)
  else
    match parseUsize data with
    | some number => .ok number
    | none => .error (.valueError ⟨text "ERR value is not a integer", by decide⟩)

end Util

end RedVector
