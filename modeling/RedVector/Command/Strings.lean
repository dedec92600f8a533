import RedVector.Command.Macros

/-!
# String, HyperLogLog and Bloom filter commands
-/

namespace RedVector.Command

open Util

variable [Platform]

def genericSet (dbindex : Nat) (key val : Bytes) (nx xx : Bool)
    (expiration : Option Int) : Writer Bool := do
  if nx && (← Db.get dbindex key).isSome then pure false
  else if xx && (← Db.get dbindex key).isNone then pure false
  else do
    let _ ← Db.getOrCreate dbindex key
    Db.put dbindex key (.setString val)
    Db.keyUpdated dbindex key
    match expiration with
    | some msexp => do
        let now ← Db.mstime
        Db.setMsexpiration dbindex key (← orPanic (i64 (msexp + now)))
    | none => pure ()
    Db.notifyKeyspaceEvent dbindex (text "set") key 36
    pure true

/-- The options of SET. -/
structure SetOptions where
  nx : Bool := false
  xx : Bool := false
  expiration : Option Int := none

/-- Reads the options from an index on.  An overflow of the seconds panics. -/
def setOptions (argv : Arguments) :
    Nat → Nat → SetOptions → Option (Except Response SetOptions)
  | 0, _, options => some (.ok options)
  | remaining + 1, i, options =>
      if argv.length ≤ i then some (.ok options)
      else
        match argv.getStr i with
        | .error _ => some (.error (.fail "ERR syntax error"))
        | .ok param =>
            let param := lowercase param
            if param = text "nx" then
              setOptions argv remaining (i + 1) { options with nx := true }
            else if param = text "xx" then
              setOptions argv remaining (i + 1) { options with xx := true }
            else if param = text "px" then
              match argv.getI64 (i + 1) with
              | .error _ => some (.error (.fail "ERR syntax error"))
              | .ok px =>
                  setOptions argv remaining (i + 2)
                    { options with expiration := some px }
            else if param = text "ex" then
              match argv.getI64 (i + 1) with
              | .error _ => some (.error (.fail "ERR syntax error"))
              | .ok ex => do
                  let px ← i64 (ex * 1000)
                  setOptions argv remaining (i + 2)
                    { options with expiration := some px }
            else some (.error (.fail "ERR syntax error"))

def set (argv : Arguments) (dbindex : Nat) : Writer Response := do
  validateArgumentsGte argv 3
  let key ← tryValidate (argv.getVec 1) "ERR syntax error"
  let val ← tryValidate (argv.getVec 2) "ERR syntax error"
  let options ← orPanic (setOptions argv argv.length 3 {})
  let options ← options
  if ← genericSet dbindex key val options.nx options.xx
      options.expiration then pure .ok
  else pure .nil

def setnx (argv : Arguments) (dbindex : Nat) : Writer Response := do
  validateArgumentsExact argv 3
  let key ← tryValidate (argv.getVec 1) "ERR syntax error"
  let val ← tryValidate (argv.getVec 2) "ERR syntax error"
  pure (bit (← genericSet dbindex key val true false none))

def setex (argv : Arguments) (dbindex : Nat) : Writer Response := do
  validateArgumentsExact argv 4
  let key ← tryValidate (argv.getVec 1) "ERR syntax error"
  let exp ← tryValidate (argv.getI64 2) "ERR syntax error"
  validate (0 ≤ exp) "ERR invalid expire time"
  let val ← tryValidate (argv.getVec 3) "ERR syntax error"
  let expiration ← orPanic (i64 (exp * 1000))
  let _ ← genericSet dbindex key val false false (some expiration)
  pure .ok

def psetex (argv : Arguments) (dbindex : Nat) : Writer Response := do
  validateArgumentsExact argv 4
  let key ← tryValidate (argv.getVec 1) "ERR syntax error"
  let exp ← tryValidate (argv.getI64 2) "ERR syntax error"
  validate (0 ≤ exp) "ERR invalid expire time"
  let val ← tryValidate (argv.getVec 3) "ERR syntax error"
  let _ ← genericSet dbindex key val false false (some exp)
  pure .ok

/-- The largest length of a string. -/
def maxStringLength : Nat := 512 * 1024 * 1024

def tooLong : String :=
  "ERR string exceeds maximum allowed size (512MB)"

def append (argv : Arguments) (dbindex : Nat) : Writer Response := do
  validateArgumentsExact argv 3
  let key ← tryValidate (argv.getVec 1) "Invalid key"
  let val ← tryValidate (argv.getVec 2) "Invalid value"
  let oldval ← Db.getOrCreate dbindex key
  match oldval.strlen with
  | .error error => pure (.error error.message)
  | .ok oldlen => do
      validate (oldlen + val.length ≤ maxStringLength) tooLong
      let (result, after) := oldval.append val
      Db.put dbindex key after
      Db.keyUpdated dbindex key
      pure (respond result fun length => .integer length)

def genericGet (dbindex : Nat) (key : Bytes) (errOnWrongtype : Bool) :
    Reader Response := do
  match ← Db.get dbindex key with
  | some value =>
      match value.get with
      | .ok bytes => pure (.data bytes)
      | .error error =>
          pure (if errOnWrongtype then .error error.message else .nil)
  | none => pure .nil

def get (argv : Arguments) (dbindex : Nat) : Reader Response := do
  validateArgumentsExact argv 2
  let key ← tryValidate (argv.getVec 1) "Invalid key"
  genericGet dbindex key true

/-- Creates a key if need be and overwrites its value with a string. -/
def overwrite (dbindex : Nat) (key value : Bytes) : Writer Unit := do
  let _ ← Db.getOrCreate dbindex key
  Db.put dbindex key (.setString value)
  Db.keyUpdated dbindex key

def getset (argv : Arguments) (dbindex : Nat) : Writer Response := do
  validateArgumentsExact argv 3
  let key ← tryValidate (argv.getVec 1) "Invalid key"
  let value ← tryValidate (argv.getVec 2) "Invalid value"
  let oldValue ← genericGet dbindex key false
  overwrite dbindex key value
  pure oldValue

/-- Overwrites each key of a list of keys and values. -/
def overwriteAll (dbindex : Nat) : List Bytes → Writer Unit
  | key :: value :: rest => do
      overwrite dbindex key value
      overwriteAll dbindex rest
  | _ => pure ()

def mset (argv : Arguments) (dbindex : Nat) : Writer Response := do
  validateArgumentsGte argv 3
  validate ((argv.length - 1) % 2 = 0)
    "ERR wrong number of arguments for 'mset' command"
  overwriteAll dbindex argv.tail
  pure .ok

/-- Whether a key of a list of keys and values exists. -/
def anyExists (dbindex : Nat) : List Bytes → Reader Bool
  | key :: _ :: rest => do
      if (← Db.get dbindex key).isSome then pure true
      else anyExists dbindex rest
  | _ => pure false

def msetnx (argv : Arguments) (dbindex : Nat) : Writer Response := do
  validateArgumentsGte argv 3
  validate ((argv.length - 1) % 2 = 0)
    "ERR wrong number of arguments for 'msetnx' command"
  if ← anyExists dbindex argv.tail then pure (.integer 0)
  else do
    overwriteAll dbindex argv.tail
    pure (.integer 1)

def mget (argv : Arguments) (dbindex : Nat) : Reader Response := do
  validate (2 ≤ argv.length) "Wrong number of parameters"
  let responses ← argv.tail.mapM fun key => genericGet dbindex key false
  pure (.array responses)

def getrange (argv : Arguments) (dbindex : Nat) : Reader Response := do
  validateArgumentsExact argv 4
  let key ← tryValidate (argv.getVec 1) "Invalid key"
  let start ← tryValidate (argv.getI64 2) "Invalid range"
  let stop ← tryValidate (argv.getI64 3) "Invalid range"
  match ← Db.get dbindex key with
  | some value => pure (respond (← orPanic (value.getrange start stop)) .data)
  | none => pure .nil

def setrange (argv : Arguments) (dbindex : Nat) : Writer Response := do
  validateArgumentsExact argv 4
  let key ← tryValidate (argv.getVec 1) "Invalid key"
  let v ← tryValidate (argv.getI64 2) "Invalid index"
  if v < 0 then pure (.fail "ERR offset is out of range")
  else
    let index := v.toNat
    let value ← tryValidate (argv.getVec 3) "Invalid value"
    if (← Db.get dbindex key).isNone && value.isEmpty then pure (.integer 0)
    else do
      let oldval ← Db.getOrCreate dbindex key
      let length ← orPanic (usize (index + value.length))
      validate (length ≤ maxStringLength) tooLong
      let (result, after) := oldval.setrange index value
      Db.put dbindex key after
      Db.keyUpdated dbindex key
      pure (respond result fun length => .integer length)

def setbit (argv : Arguments) (dbindex : Nat) : Writer Response := do
  validateArgumentsExact argv 4
  let key ← tryValidate (argv.getVec 1) "Invalid key"
  let index ← tryValidate (argv.getI64 2)
    "ERR bit offset is not an integer or out of range"
  validate (0 ≤ index ∧ index < 4 * 1024 * 1024 * 1024)
    "ERR bit offset is not an integer or out of range"
  let value ← tryValidate (argv.getI64 3)
    "ERR bit is not an integer or out of range"
  validate (value = 0 ∨ value = 1)
    "ERR bit is not an integer or out of range"
  let r ← createThen dbindex key fun old =>
    some (old.setbit index.toNat (value == 1))
  Db.keyUpdated dbindex key
  pure (respond r bit)

def getbit (argv : Arguments) (dbindex : Nat) : Reader Response := do
  validateArgumentsExact argv 3
  let key ← tryValidate (argv.getVec 1) "Invalid key"
  let index ← tryValidate (argv.getI64 2) "Invalid index"
  validate (0 ≤ index) "Invalid index"
  match ← Db.get dbindex key with
  | some value => pure (respond (value.getbit index.toNat) bit)
  | none => pure (.integer 0)

def strlen (argv : Arguments) (dbindex : Nat) : Reader Response := do
  validateArgumentsExact argv 2
  let key ← tryValidate (argv.getVec 1) "Invalid key"
  match ← Db.get dbindex key with
  | some value => pure (respond value.strlen fun length => .integer length)
  | none => pure (.integer 0)

def genericIncr (argv : Arguments) (dbindex : Nat) (increment : Int) :
    Writer Response := do
  let key ← tryValidate (argv.getVec 1) "Invalid key"
  let r ← createThen dbindex key fun value => some (value.incr increment)
  Db.keyUpdated dbindex key
  pure (respond r .integer)

def incr (argv : Arguments) (dbindex : Nat) : Writer Response := do
  validateArgumentsExact argv 2
  genericIncr argv dbindex 1

def decr (argv : Arguments) (dbindex : Nat) : Writer Response := do
  validateArgumentsExact argv 2
  genericIncr argv dbindex (-1)

def incrby (argv : Arguments) (dbindex : Nat) : Writer Response := do
  validateArgumentsExact argv 3
  match argv.getI64 2 with
  | .ok increment => genericIncr argv dbindex increment
  | .error _ => pure (.fail "Invalid increment")

def decrby (argv : Arguments) (dbindex : Nat) : Writer Response := do
  validateArgumentsExact argv 3
  match argv.getI64 2 with
  | .ok decrement => do
      genericIncr argv dbindex (← orPanic (i64 (-decrement)))
  | .error _ => pure (.fail "Invalid increment")

def incrbyfloat (argv : Arguments) (dbindex : Nat) : Writer Response := do
  validateArgumentsExact argv 3
  let key ← tryValidate (argv.getVec 1) "Invalid key"
  let increment ← tryValidate (argv.getF64 2) "Invalid increment"
  let r ← createThen dbindex key fun value =>
    some (value.incrbyfloat increment)
  Db.keyUpdated dbindex key
  pure (respond r fun val => .data (Platform.f64ToString val))

/-! ## HyperLogLog -/

def pfadd (argv : Arguments) (dbindex : Nat) : Writer Response := do
  validateArgumentsGte argv 2
  let key ← tryValidate (argv.getVec 1) "Invalid key"
  let r ← createThen dbindex key fun value => value.pfadd (argv.drop 2)
  Db.keyUpdated dbindex key
  pure (respond r bit)

/-- The values of the keys that exist. -/
def presentValues (dbindex : Nat) : List Bytes → Reader (List Value)
  | [] => pure []
  | key :: rest => do
      match ← Db.get dbindex key with
      | some value => do pure (value :: (← presentValues dbindex rest))
      | none => presentValues dbindex rest

def pfcount (argv : Arguments) (dbindex : Nat) : Reader Response := do
  validateArgumentsGte argv 2
  if argv.length = 2 then do
    let key ← tryValidate (argv.getVec 1) "Invalid key"
    match ← Db.get dbindex key with
    | some value => do
        pure (respond (← orPanic value.pfcount) fun count => .integer count)
    | none => pure (.integer 0)
  else do
    let values ← presentValues dbindex argv.tail
    let (merged, val) ← orPanic (Value.pfmerge values .nil)
    match merged with
    | .error error => pure (.error error.message)
    | .ok () => do
        pure (respond (← orPanic val.pfcount) fun count => .integer count)

def pfmerge (argv : Arguments) (dbindex : Nat) : Writer Response := do
  validateArgumentsGte argv 3
  let key ← tryValidate (argv.getVec 1) "Invalid key"
  let val ←
    match ← Db.get dbindex key with
    | some value => do
        pure (Value.setString (← tryValidate value.get "ERR"))
    | none => pure Value.nil
  let values ← presentValues dbindex (argv.drop 2)
  let (merged, val) ← orPanic (Value.pfmerge values val)
  let _ ← Db.getOrCreate dbindex key
  Db.put dbindex key val
  Db.keyUpdated dbindex key
  pure (respond merged fun () => .ok)

/-- What PFMERGE does with the sketch that the key holds, or with none. -/
def mergeSketches (argv : Arguments) (dbindex : Nat) (key : Bytes)
    (val : Value) : Writer Response := do
  let values ← presentValues dbindex (argv.drop 2)
  let (merged, val) ← orPanic (Value.pfmerge values val)
  let _ ← Db.getOrCreate dbindex key
  Db.put dbindex key val
  Db.keyUpdated dbindex key
  pure (respond merged fun () => .ok)

def pfselftest (_ : Arguments) (_ : Nat) : Reader Response :=
  pure .ok

/-- The reply to a question about the HyperLogLog of a key. -/
def pfdebugString (dbindex : Nat) (key : Bytes) (found : Response) :
    Reader Response := do
  match ← Db.get dbindex key with
  | some (.string _) => pure found
  | some _ => pure (.fail "ERR key is not a HyperLogLog")
  | none => pure (.fail "ERR no such key")

def pfdebug (argv : Arguments) (dbindex : Nat) : Reader Response := do
  validateArgumentsGte argv 3
  let subcommand ← tryValidate (argv.getStr 1) "Invalid subcommand"
  let key ← tryValidate (argv.getVec 2) "Invalid key"
  let subcommand := lowercase subcommand
  if subcommand = text "encode" then
    pfdebugString dbindex key (.data (text "OK"))
  else if subcommand = text "decode" then
    pure (.fail "ERR PFDEBUG DECODE is not fully implemented")
  else if subcommand = text "getreg" then
    pfdebugString dbindex key (.array [])
  else pure (.fail "ERR Invalid PFDEBUG subcommand")

/-! ## Bloom filters -/

def bfReserve (argv : Arguments) (dbindex : Nat) : Writer Response := do
  validateArgumentsExact argv 4
  let key ← tryValidate (argv.getVec 1) "ERR invalid key"
  let errorRate ← tryValidate (argv.getF64 2) "ERR invalid error rate"
  let capacity ← tryValidate (argv.getI64 3) "ERR invalid capacity"
  if capacity ≤ 0 then pure (.fail "ERR invalid bloom filter parameters")
  else do
    let r ← createThen dbindex key fun value =>
      some (value.bfReserve errorRate capacity.toNat)
    updateOnSuccess dbindex key r fun () => .ok

def bfAdd (argv : Arguments) (dbindex : Nat) : Writer Response := do
  validateArgumentsExact argv 3
  let key ← tryValidate (argv.getVec 1) "ERR invalid key"
  let item ← tryValidate (argv.getVec 2) "ERR invalid item"
  let r ← createThen dbindex key fun value => some (value.bfAdd item)
  updateOnSuccess dbindex key r bit

/-- Adds the items one by one until one fails. -/
def bfAddAll : List Bytes → Value → Value.Change (List Response)
  | [], value => (.ok [], value)
  | item :: rest, value =>
      match value.bfAdd item with
      | (.error error, after) => (.error error, after)
      | (.ok added, after) =>
          match bfAddAll rest after with
          | (.error error, after) => (.error error, after)
          | (.ok result, after) => (.ok (bit added :: result), after)

def bfMadd (argv : Arguments) (dbindex : Nat) : Writer Response := do
  validateArgumentsGte argv 3
  let key ← tryValidate (argv.getVec 1) "ERR invalid key"
  let r ← createThen dbindex key fun value =>
    some (bfAddAll (argv.drop 2) value)
  updateOnSuccess dbindex key r .array

def bfExists (argv : Arguments) (dbindex : Nat) : Reader Response := do
  validateArgumentsExact argv 3
  let key ← tryValidate (argv.getVec 1) "ERR invalid key"
  let item ← tryValidate (argv.getVec 2) "ERR invalid item"
  match ← Db.get dbindex key with
  | some value => pure (respond (value.bfExists item) bit)
  | none => pure (.integer 0)

def bfMexists (argv : Arguments) (dbindex : Nat) : Reader Response := do
  validateArgumentsGte argv 3
  let key ← tryValidate (argv.getVec 1) "ERR invalid key"
  let items := argv.drop 2
  match ← Db.get dbindex key with
  | some value =>
      let found : Operation (List Response) :=
        items.mapM fun item => bit <$> value.bfExists item
      pure (respond found .array)
  | none => pure (.array (items.map fun _ => .integer 0))

end RedVector.Command
