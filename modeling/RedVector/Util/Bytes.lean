

/-!
# Byte strings

The source works on `Vec<u8>` everywhere; texts of replies and of command
words are ASCII, so one type of byte strings serves both.
-/

namespace RedVector

abbrev Bytes := List UInt8

instance : LawfulBEq Bytes := inferInstance

/-- The bytes of an ASCII text of the source. -/
def text (s : String) : Bytes :=
  s.toList.map fun c => c.toNat.toUInt8

namespace Util

/-! ## Lines -/

/-- No byte ends a line. -/
def isLine (bytes : Bytes) : Bool :=
  bytes.all fun byte => byte != 13 && byte != 10

@[simp] theorem isLine_nil : isLine [] = true :=
  rfl

@[simp] theorem isLine_cons (byte : UInt8) (bytes : Bytes) :
    isLine (byte :: bytes) = true ↔
      (byte ≠ 13 ∧ byte ≠ 10) ∧ isLine bytes = true := by
  simp [isLine]

@[simp] theorem isLine_append (first second : Bytes) :
    isLine (first ++ second) = true ↔
      isLine first = true ∧ isLine second = true := by
  simp [isLine]

theorem isLine_iff {bytes : Bytes} :
    isLine bytes = true ↔ ∀ byte ∈ bytes, byte ≠ 13 ∧ byte ≠ 10 := by
  simp [isLine]

end Util

/-- A text of one line. -/
abbrev Line := { bytes : Bytes // Util.isLine bytes = true }

namespace Util

/-! ## Lower case -/

def toAsciiLowercase (byte : UInt8) : UInt8 :=
  if 65 ≤ byte && byte ≤ 90 then byte + 32 else byte

def lowercase (bytes : Bytes) : Bytes :=
  bytes.map toAsciiLowercase

/-! ## Decimal numbers -/

/-- `fuel` bounds the number of digits. -/
def digitsAux : Nat → Nat → Bytes → Bytes
  | 0, _, digits => digits
  | fuel + 1, number, digits =>
      let digits := (48 + number % 10).toUInt8 :: digits
      if number < 10 then digits else digitsAux fuel (number / 10) digits

/-- `number.to_string()` of an unsigned number. -/
def natToString (number : Nat) : Bytes :=
  digitsAux (number + 1) number []

/-- `number.to_string()` of a signed number. -/
def intToString : Int → Bytes
  | .ofNat number => natToString number
  | .negSucc number => 45 :: natToString (number + 1)

def isDigit (byte : UInt8) : Bool :=
  48 ≤ byte && byte ≤ 57

def digitsValue (digits : Bytes) : Nat :=
  digits.foldl (fun value digit => value * 10 + (digit.toNat - 48)) 0

/-- The value of a nonempty sequence of digits. -/
def parseDigits (digits : Bytes) : Option Nat :=
  if digits ≠ [] && digits.all isDigit then some (digitsValue digits)
  else none

def i64Min : Int := -9223372036854775808
def i64Max : Int := 9223372036854775807
def usizeMax : Nat := 18446744073709551615

def inI64 (number : Int) : Bool :=
  i64Min ≤ number && number ≤ i64Max

theorem inI64_iff {number : Int} :
    inI64 number = true ↔ -9223372036854775808 ≤ number ∧
      number ≤ 9223372036854775807 := by
  unfold inI64 i64Min i64Max
  rw [Bool.and_eq_true, decide_eq_true_eq, decide_eq_true_eq]

/-- An optional sign and digits. -/
def parseInteger : Bytes → Option Int
  | 45 :: digits => (parseDigits digits).map fun value => -(value : Int)
  | 43 :: digits => (parseDigits digits).map Int.ofNat
  | digits => (parseDigits digits).map Int.ofNat

/-- `str::parse::<i64>`: an optional sign and digits, within the range. -/
def parseI64 (input : Bytes) : Option Int :=
  (parseInteger input).filter inI64

/-- `str::parse::<usize>`. -/
def parseUsize (input : Bytes) : Option Nat :=
  let number : Option Nat :=
    match input with
    | 43 :: digits => parseDigits digits
    | digits => parseDigits digits
  number.filter (· ≤ usizeMax)

/-! ## UTF-8 -/

private def continuation (byte : UInt8) : Bool :=
  128 ≤ byte && byte ≤ 191

/-- The range of the second byte after a leading byte of a longer sequence. -/
private def secondByte (lead second : UInt8) : Bool :=
  if lead = 224 then 160 ≤ second && second ≤ 191
  else if lead = 237 then 128 ≤ second && second ≤ 159
  else if lead = 240 then 144 ≤ second && second ≤ 191
  else if lead = 244 then 128 ≤ second && second ≤ 143
  else continuation second

/-- `from_utf8(..).is_ok()`. -/
def isUtf8 : Bytes → Bool
  | [] => true
  | [lead] => lead < 128
  | [lead, second] =>
      if lead < 128 then isUtf8 [second]
      else 194 ≤ lead && lead ≤ 223 && continuation second
  | [lead, second, third] =>
      if lead < 128 then isUtf8 [second, third]
      else if 194 ≤ lead && lead ≤ 223 then
        continuation second && isUtf8 [third]
      else 224 ≤ lead && lead ≤ 239 && secondByte lead second &&
        continuation third
  | lead :: second :: third :: fourth :: rest =>
      if lead < 128 then isUtf8 (second :: third :: fourth :: rest)
      else if 194 ≤ lead && lead ≤ 223 then
        continuation second && isUtf8 (third :: fourth :: rest)
      else if 224 ≤ lead && lead ≤ 239 then
        secondByte lead second && continuation third &&
          isUtf8 (fourth :: rest)
      else 240 ≤ lead && lead ≤ 244 && secondByte lead second &&
        continuation third && continuation fourth && isUtf8 rest

/-- The replacement character that stands for an invalid sequence. -/
private def replacement : Bytes := [239, 191, 189]

/-- How many more bytes the sequence led by `lead` has. -/
private def sequenceTail (lead : UInt8) : Nat :=
  if 194 ≤ lead && lead ≤ 223 then 1
  else if 224 ≤ lead && lead ≤ 239 then 2
  else if 240 ≤ lead && lead ≤ 244 then 3
  else 0

/-- `String::from_utf8_lossy`: a maximal prefix of a valid sequence that is
cut short becomes one replacement character.  `pending` is the sequence read
so far and `missing` what it still needs. -/
private def fromUtf8LossyAux : Bytes → Nat → Bytes → Bytes
  | pending, 0, [] => pending
  | _, _ + 1, [] => replacement
  | pending, 0, lead :: rest =>
      pending ++
        if lead < 128 then lead :: fromUtf8LossyAux [] 0 rest
        else if sequenceTail lead = 0 then
          replacement ++ fromUtf8LossyAux [] 0 rest
        else fromUtf8LossyAux [lead] (sequenceTail lead) rest
  | pending, missing + 1, next :: rest =>
      let fits :=
        match pending with
        | [lead] => secondByte lead next
        | _ => continuation next
      if fits then fromUtf8LossyAux (pending ++ [next]) missing rest
      else
        -- the byte that does not fit starts a sequence of its own
        replacement ++
          if next < 128 then next :: fromUtf8LossyAux [] 0 rest
          else if sequenceTail next = 0 then
            replacement ++ fromUtf8LossyAux [] 0 rest
          else fromUtf8LossyAux [next] (sequenceTail next) rest

def fromUtf8Lossy (bytes : Bytes) : Bytes :=
  fromUtf8LossyAux [] 0 bytes

end Util

end RedVector

/-!
## Quoted representation of byte strings
-/

namespace RedVector.Util

def isPrint (byte : UInt8) : Bool :=
  32 ≤ byte && byte ≤ 126

def hexDigit (digit : Nat) : UInt8 :=
  (if digit < 10 then 48 + digit else 87 + digit).toUInt8

/-- One byte inside the quotes. -/
def reprByte (byte : UInt8) : Bytes :=
  if byte = 7 then text "\\a"
  else if byte = 8 then text "\\b"
  else if byte = 92 then text "\\\\"
  else if byte = 34 then text "\\\""
  else if byte = 10 then text "\\n"
  else if byte = 13 then text "\\r"
  else if byte = 9 then text "\\t"
  else if isPrint byte then [byte]
  else text "\\x" ++
    [hexDigit (byte.toNat / 16), hexDigit (byte.toNat % 16)]

def formatRepr (bytes : Bytes) : Bytes :=
  text "\"" ++ bytes.flatMap reprByte ++ text "\""

end RedVector.Util
