import RedVector.Platform
import RedVector.Value.Error

/-!
# String values
-/

namespace RedVector

open Util

inductive ValueString where
  | integer (number : Int)
  | data (bytes : Bytes)

namespace ValueString

variable [Platform]

/-- `parse_utf8::<i64>`: numbers that start with a zero stay bytes. -/
def parseUtf8I64 (newvalue : Bytes) : Option Int :=
  if newvalue.head? = some 48 then none
  else if isUtf8 newvalue then parseI64 newvalue
  else none

def parseUtf8F64 (newvalue : Bytes) : Option F64 :=
  if newvalue.head? = some 48 then none
  else if isUtf8 newvalue then Platform.f64Parse newvalue
  else none

def new (newvalue : Bytes) : ValueString :=
  match parseUtf8I64 newvalue with
  | some number => .integer number
  | none => .data newvalue

def toVec : ValueString → Bytes
  | .data bytes => bytes
  | .integer number => intToString number

def strlen (value : ValueString) : Nat :=
  value.toVec.length

def append (value : ValueString) (newvalue : Bytes) : ValueString :=
  match value with
  | .data bytes => .data (bytes ++ newvalue)
  | .integer number => new (intToString number ++ newvalue)

def incr (value : ValueString) (increment : Int) :
    Operation (Int × ValueString) := do
  let number ←
    match value with
    | .integer number => pure number
    | .data bytes =>
        match parseUtf8I64 bytes with
        | some number => pure number
        | none =>
            throw (.valueError ⟨text "ERR value is not a valid integer", by decide⟩)
  if inI64 (number + increment) then
    pure (number + increment, .integer (number + increment))
  else throw .overflowError

def incrbyfloat (value : ValueString) (increment : F64) :
    Operation (F64 × ValueString) := do
  let number ←
    match value with
    | .integer number => pure (Platform.f64OfI64 number)
    | .data bytes =>
        match parseUtf8F64 bytes with
        | some number => pure number
        | none =>
            throw (.valueError
              ⟨text "ERR value is not a valid float", by decide⟩)
  let newval := Platform.f64Add number increment
  pure (newval, .data (Platform.f64ToString newval))

def getrange (value : ValueString) (start stop : Int) : Option Bytes := do
  let bytes := value.toVec
  match normalizePosition start bytes.length with
  | .error true => pure []
  | started =>
      let first := started.toOption.getD 0
      match normalizePosition stop bytes.length with
      | .error false => pure []
      | stopped =>
          let last ←
            match stopped with
            | .ok position => pure position
            | .error _ => usize (bytes.length - 1)
          if last < first then pure []
          else
            let capacity ← usize (last - first + 1)
            let _ ← usize (last + 1)
            pure ((bytes.drop first).take capacity)

/-- Pushes zeros up to a length. -/
def padTo (bytes : Bytes) (length : Nat) : Bytes :=
  bytes ++ List.replicate (length - bytes.length) 0

def bitMask (bitoffset : Nat) : UInt8 :=
  (1 : UInt8) <<< (7 - bitoffset % 8).toUInt8

def setbit (value : ValueString) (bitoffset : Nat) (on : Bool) :
    Bool × ValueString :=
  let byte := bitoffset / 8
  let bytes := padTo value.toVec (byte + 1)
  let byteval := bytes.getD byte 0
  let mask := bitMask bitoffset
  let cleared := byteval &&& ~~~mask
  let newval := if on then cleared ||| mask else cleared
  (byteval &&& mask != 0, .data (bytes.set byte newval))

def getbit (value : ValueString) (bitoffset : Nat) : Bool :=
  match value.toVec[bitoffset / 8]? with
  | none => false
  | some byteval => byteval &&& bitMask bitoffset != 0

/-- Pushes each byte and, inside the old string, swaps it into its place. -/
def setrangeAux : Bytes → Nat → Bytes → Bytes
  | bytes, _, [] => bytes
  | bytes, index, byte :: rest =>
      let bytes :=
        if index < bytes.length then bytes.set index byte
        else bytes ++ [byte]
      setrangeAux bytes (index + 1) rest

def setrange (value : ValueString) (index : Nat) (data : Bytes) :
    Nat × ValueString :=
  if data.isEmpty then (value.strlen, value)
  else
    let bytes := setrangeAux (padTo value.toVec index) index data
    (bytes.length, .data bytes)

/-! ## HyperLogLog -/

def hll (value : ValueString) : Option Platform.Hll :=
  if value.strlen = 0 then some Platform.hllNew
  else Platform.hllFromVec value.toVec

def pfaddAux : Platform.Hll → Bool → List Bytes → Option (Bool × Platform.Hll)
  | sketch, changed, [] => some (changed, sketch)
  | sketch, changed, element :: rest => do
      let (inserted, sketch) ← Platform.hllInsert sketch element
      pfaddAux sketch (inserted || changed) rest

def pfadd (value : ValueString) (data : List Bytes) :
    Option (Bool × ValueString) := do
  let (changed, sketch) ← pfaddAux (← value.hll) false data
  pure (changed, if changed then new (Platform.hllIntoVec sketch) else value)

def pfcount (value : ValueString) : Option Nat :=
  if value.strlen = 0 then some 0
  else do Platform.hllCount (← Platform.hllFromVec value.toVec)

def pfmerge (value : ValueString) (data : List ValueString) :
    Option ValueString := do
  let sketch ← data.foldlM
    (fun sketch other => do
      Platform.hllAdd sketch (← Platform.hllFromVec other.toVec))
    (← value.hll)
  pure (new (Platform.hllIntoVec sketch))

end ValueString

end RedVector
