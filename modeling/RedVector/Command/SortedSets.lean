import RedVector.Command.Keys
import RedVector.Command.Sets

/-!
# Sorted set commands
-/

namespace RedVector.Command

open Util

variable [Platform]

/-! ## ZADD -/

structure ZaddOptions where
  nx : Bool := false
  xx : Bool := false
  ch : Bool := false
  incr : Bool := false

/-- Reads up to `remaining` flags; what follows them is the second part. -/
def zaddOptions : Nat → List Bytes → ZaddOptions → ZaddOptions × List Bytes
  | 0, rest, options => (options, rest)
  | _, [], options => (options, [])
  | remaining + 1, option :: rest, options =>
      if isUtf8 option then
        let flag := lowercase option
        if flag = text "nx" then
          zaddOptions remaining rest { options with nx := true }
        else if flag = text "xx" then
          zaddOptions remaining rest { options with xx := true }
        else if flag = text "ch" then
          zaddOptions remaining rest { options with ch := true }
        else if flag = text "incr" then
          zaddOptions remaining rest { options with incr := true }
        else (options, option :: rest)
      else (options, option :: rest)

/-- Reads scores and members. -/
def scoredMembers : List Bytes → Except Response (List (F64 × Bytes))
  | score :: member :: rest => do
      let s ← tryValidate (Arguments.getF64 [score] 0)
        "ERR value is not a valid float"
      pure ((s, member) :: (← scoredMembers rest))
  | _ => .ok []

/-- Adds the members one by one until one fails and counts the additions that
`zadd` reports. -/
def zaddAll (options : ZaddOptions) :
    List (F64 × Bytes) → Value → Value.Change Nat
  | [], value => (.ok 0, value)
  | (score, member) :: rest, value =>
      match value.zadd score member options.nx options.xx options.ch
          options.incr with
      | (.error error, after) => (.error error, after)
      | (.ok added, after) =>
          match zaddAll options rest after with
          | (.error error, after) => (.error error, after)
          | (.ok count, after) =>
              (.ok (if added then count + 1 else count), after)

/-- The update of a key when a method reports that it did something. -/
def updateOnCount (dbindex : Nat) (key : Bytes) (result : Operation Nat) :
    Writer Response :=
  match result with
  | .error error => pure (.error error.message)
  | .ok count => do
      if 0 < count then Db.keyUpdated dbindex key
      pure (.integer count)

/-- The flags and the scored members of ZADD. -/
def zaddArguments (argv : Arguments) :
    Except Response (ZaddOptions × List (F64 × Bytes)) := do
  validate (4 ≤ argv.length) "Wrong number of parameters"
  let (options, pairs) := zaddOptions 4 (argv.drop 2) {}
  if options.xx && options.nx then
    throw (.fail "ERR cannot use XX and NX")
  else if pairs.length % 2 ≠ 0 then throw (.fail "ERR syntax error")
  else if options.incr && pairs.length ≠ 2 then
    throw (.fail "ERR syntax error")
  else pure (options, ← scoredMembers pairs)

def zadd (argv : Arguments) (dbindex : Nat) : Writer Response := do
  let (options, pairs) ← zaddArguments argv
  let key ← tryValidate (argv.getVec 1) "Invalid key"
  let r ← createThen dbindex key fun value =>
    some (zaddAll options pairs value)
  updateOnCount dbindex key r

/-! ## Members -/

def zcard (argv : Arguments) (dbindex : Nat) : Reader Response := do
  validateArgumentsExact argv 2
  let key ← tryValidate (argv.getVec 1) "Invalid key"
  match ← Db.get dbindex key with
  | none => pure (.integer 0)
  | some value => pure (respond value.zcard fun count => .integer count)

def zscore (argv : Arguments) (dbindex : Nat) : Reader Response := do
  validateArgumentsExact argv 3
  let key ← tryValidate (argv.getVec 1) "Invalid key"
  let element ← tryValidate (argv.getVec 2) "Invalid element"
  match ← Db.get dbindex key with
  | none => pure .nil
  | some value =>
      pure (respond (value.zscore element) fun
        | some score => .data (Platform.f64ToString score)
        | none => .nil)

/-- The key is created before the increment is read. -/
def zincrby (argv : Arguments) (dbindex : Nat) : Writer Response := do
  validateArgumentsExact argv 4
  let key ← tryValidate (argv.getVec 1) "Invalid key"
  let value ← Db.getOrCreate dbindex key
  let score ← tryValidate (argv.getF64 2) "ERR value is not a valid float"
  let member ← tryValidate (argv.getVec 3) "Invalid member"
  let (r, after) := value.zincrby score member
  Db.put dbindex key after
  updateOnSuccess dbindex key r fun newscore =>
    .data (Platform.f64ToString newscore)

def zrem (argv : Arguments) (dbindex : Nat) : Writer Response := do
  validate (3 ≤ argv.length) "Wrong number of parameters"
  let key ← tryValidate (argv.getVec 1) "Invalid key"
  match ← mutThen dbindex key fun value =>
      some (countChanges Value.zrem (argv.drop 2) value) with
  | none => pure (.integer 0)
  | some r => updateOnCount dbindex key r

/-! ## Ranges -/

/-- Removes a range of the sorted set of a key. -/
def removeRange (dbindex : Nat) (key : Bytes)
    (method : Value → Option (Value.Change Nat)) : Writer Response := do
  match ← mutThen dbindex key method with
  | none => pure (.integer 0)
  | some r => updateOnCount dbindex key r

def notAFloat : String := "ERR min or max is not a float"

def zremrangebyscore (argv : Arguments) (dbindex : Nat) :
    Writer Response := do
  validateArgumentsExact argv 4
  let key ← tryValidate (argv.getVec 1) "Invalid key"
  let min ← tryValidate (argv.getF64Bound 2) notAFloat
  let max ← tryValidate (argv.getF64Bound 3) notAFloat
  removeRange dbindex key fun value => value.zremrangebyscore min max

def notARangeItem : String :=
  "ERR min or max not valid string range item"

def getVecBound (m : Bytes) : Except Response (Bound Bytes) :=
  match m with
  | [] => .error (.fail notARangeItem)
  | first :: rest =>
      if first = 40 then .ok (.excluded rest)
      else if first = 91 then .ok (.included rest)
      else if (first = 45 ∨ first = 43) ∧ rest.isEmpty then .ok .unbounded
      else .error (.fail notARangeItem)

/-- A bound of a lexicographic range from an argument. -/
def lexBound (argv : Arguments) (pos : Nat) :
    Except Response (Bound Bytes) := do
  getVecBound (← tryValidate (argv.getVec pos) notARangeItem)

def zremrangebylex (argv : Arguments) (dbindex : Nat) :
    Writer Response := do
  validateArgumentsExact argv 4
  let key ← tryValidate (argv.getVec 1) "Invalid key"
  let min ← lexBound argv 2
  let max ← lexBound argv 3
  removeRange dbindex key fun value => value.zremrangebylex min max

def zremrangebyrank (argv : Arguments) (dbindex : Nat) :
    Writer Response := do
  validateArgumentsExact argv 4
  let key ← tryValidate (argv.getVec 1) "Invalid key"
  let start ← tryValidate (argv.getI64 2) "Invalid start"
  let stop ← tryValidate (argv.getI64 3) "Invalid stop"
  removeRange dbindex key fun value => value.zremrangebyrank start stop

def zcount (argv : Arguments) (dbindex : Nat) : Reader Response := do
  validateArgumentsExact argv 4
  let key ← tryValidate (argv.getVec 1) "Invalid key"
  let min ← tryValidate (argv.getF64Bound 2) notAFloat
  let max ← tryValidate (argv.getF64Bound 3) notAFloat
  match ← Db.get dbindex key with
  | none => pure (.integer 0)
  | some value =>
      pure (respond (value.zcount min max) fun count => .integer count)

/-- The elements that a method finds in the value of a key. -/
def listRange (dbindex : Nat) (key : Bytes)
    (method : Value → Option (Operation (List Bytes))) :
    Reader Response := do
  match ← Db.get dbindex key with
  | none => pure (.array [])
  | some value => pure (respond (← orPanic (method value)) dataArray)

def genericZrange (argv : Arguments) (dbindex : Nat) (rev : Bool) :
    Reader Response := do
  validateArgumentsGte argv 4
  validateArgumentsLte argv 5
  let key ← tryValidate (argv.getVec 1) "Invalid key"
  let start ← tryValidate (argv.getI64 2) "Invalid start"
  let stop ← tryValidate (argv.getI64 3) "Invalid stop"
  let withscores := argv.length == 5
  if withscores then
    let p4 ← tryValidate (argv.getStr 4) "Syntax error"
    validate (lowercase p4 = text "withscores") "Syntax error"
  listRange dbindex key fun value => value.zrange start stop withscores rev

def zrange (argv : Arguments) (dbindex : Nat) : Reader Response :=
  genericZrange argv dbindex false

def zrevrange (argv : Arguments) (dbindex : Nat) : Reader Response :=
  genericZrange argv dbindex true

structure RangeOptions where
  withscores : Bool := false
  offset : Nat := 0
  count : Nat := usizeMax

def rangeOptions : List Bytes → RangeOptions → Except Response RangeOptions
  | [], options => .ok options
  | option :: rest, options =>
      if isUtf8 option then
        let option := lowercase option
        if option = text "withscores" then
          rangeOptions rest { options with withscores := true }
        else if option = text "limit" then
          match rest with
          | offset :: count :: rest => do
              let offset ← numberOf offset "syntax error"
              let count ← numberOf count "syntax error"
              rangeOptions rest
                { options with
                  offset := asUsize offset
                  count := asUsize count }
          | _ => .error (.fail "syntax error")
        else .error (.fail "syntax error")
      else .error (.fail "syntax error")

def genericZrangebyscore (argv : Arguments) (dbindex : Nat) (rev : Bool) :
    Reader Response := do
  validate (4 ≤ argv.length) "Wrong number of parameters"
  let key ← tryValidate (argv.getVec 1) "Invalid key"
  let min ← tryValidate (argv.getF64Bound 2) notAFloat
  let max ← tryValidate (argv.getF64Bound 3) notAFloat
  let options ← rangeOptions (argv.drop 4) {}
  listRange dbindex key fun value =>
    value.zrangebyscore min max options.withscores options.offset
      options.count rev

def zrangebyscore (argv : Arguments) (dbindex : Nat) : Reader Response :=
  genericZrangebyscore argv dbindex false

def zrevrangebyscore (argv : Arguments) (dbindex : Nat) : Reader Response :=
  genericZrangebyscore argv dbindex true

def genericZrangebylex (argv : Arguments) (dbindex : Nat) (rev : Bool) :
    Reader Response := do
  validate (argv.length = 4 ∨ argv.length = 7) "Wrong number of parameters"
  let key ← tryValidate (argv.getVec 1) "Invalid key"
  let min ← lexBound argv 2
  let max ← lexBound argv 3
  let (offset, count) ←
    if 7 ≤ argv.length then do
      let p ← tryValidate (argv.getStr (argv.length - 3)) "Syntax error"
      validate (lowercase p = text "limit") "Syntax error"
      let offset ← tryValidate (argv.getI64 (argv.length - 2)) "Syntax error"
      let count ← tryValidate (argv.getI64 (argv.length - 1)) "Syntax error"
      pure (asUsize offset, asUsize count)
    else pure (0, usizeMax)
  listRange dbindex key fun value =>
    value.zrangebylex min max offset count rev

def zrangebylex (argv : Arguments) (dbindex : Nat) : Reader Response :=
  genericZrangebylex argv dbindex false

def zrevrangebylex (argv : Arguments) (dbindex : Nat) : Reader Response :=
  genericZrangebylex argv dbindex true

def zlexcount (argv : Arguments) (dbindex : Nat) : Reader Response := do
  validateArgumentsExact argv 4
  let key ← tryValidate (argv.getVec 1) "Invalid key"
  let min ← lexBound argv 2
  let max ← lexBound argv 3
  match ← Db.get dbindex key with
  | none => pure (.integer 0)
  | some value =>
      pure (respond (value.zlexcount min max) fun count => .integer count)

def genericZrank (dbindex : Nat) (key member : Bytes) (rev : Bool) :
    Reader Response := do
  match ← Db.get dbindex key with
  | none => pure .nil
  | some value =>
      match value.zcard with
      | .error error => pure (.error error.message)
      | .ok card =>
          match ← orPanic (value.zrank member) with
          | .error error => pure (.error error.message)
          | .ok none => pure .nil
          | .ok (some v) =>
              if rev then do
                let below ← orPanic (usize (card - v))
                pure (.integer (← orPanic (usize (below - 1))))
              else pure (.integer v)

def zrank (argv : Arguments) (dbindex : Nat) : Reader Response := do
  validateArgumentsExact argv 3
  let key ← tryValidate (argv.getVec 1) "Invalid key"
  let member ← tryValidate (argv.getVec 2) "Invalid member"
  genericZrank dbindex key member false

def zrevrank (argv : Arguments) (dbindex : Nat) : Reader Response := do
  validateArgumentsExact argv 3
  let key ← tryValidate (argv.getVec 1) "Invalid key"
  let member ← tryValidate (argv.getVec 2) "Invalid member"
  genericZrank dbindex key member true

/-! ## Unions and intersections -/

/-- The weights, when the options start with them, and what follows. -/
def weightOptions (numkeys : Nat) (rest : List Bytes) :
    Except Response (Option (List F64) × List Bytes) :=
  match rest with
  | [] => .ok (none, [])
  | option :: after =>
      if isUtf8 option then
        if lowercase option = text "weights" then do
          validate (numkeys ≤ after.length) "Wrong number of parameters"
          let weights ← (after.take numkeys).mapM fun weight =>
            tryValidate (Arguments.getF64 [weight] 0)
              "ERR weight value is not a float"
          pure (some weights, after.drop numkeys)
        else .ok (none, rest)
      else .error (.fail "syntax error")

/-- The aggregate, when the options start with it, and what follows. -/
def aggregateOption (rest : List Bytes) :
    Except Response (Aggregate × List Bytes) :=
  match rest with
  | [] => .ok (.sum, [])
  | option :: after =>
      if isUtf8 option then
        if lowercase option = text "aggregate" then
          match after with
          | [] => .error (.fail "Wrong number of parameters")
          | name :: after =>
              if lowercase name = text "sum" then .ok (.sum, after)
              else if lowercase name = text "max" then .ok (.max, after)
              else if lowercase name = text "min" then .ok (.min, after)
              else .error (.fail "syntax error")
        else .ok (.sum, rest)
      else .error (.fail "syntax error")

def storeOptions (numkeys : Nat) (rest : List Bytes) :
    Except Response (Option (List F64) × Aggregate) := do
  let (weights, rest) ← weightOptions numkeys rest
  let (aggregate, rest) ← aggregateOption rest
  validate rest.isEmpty "syntax error"
  pure (weights, aggregate)

def zinterUnionStore (argv : Arguments) (dbindex : Nat) (union : Bool) :
    Writer Response := do
  validate (4 ≤ argv.length) "Wrong number of parameters"
  let key ← tryValidate (argv.getVec 1) "Invalid key"
  let n ← tryValidate (argv.getI64 2) "Invalid number of keys"
  if n ≤ 0 then
    pure (.fail
      "at least 1 input key is needed for ZUNIONSTORE/ZINTERSTORE")
  else
    let numkeys := n.toNat
    validateArgumentsGte argv (3 + numkeys)
    let zsets ← getValues dbindex .nil ((argv.drop 3).take numkeys)
    let (weights, aggregate) ← storeOptions numkeys (argv.drop (3 + numkeys))
    let merged ←
      if union then Db.zunion zsets weights aggregate
      else Db.zinter zsets weights aggregate
    match merged with
    | .error error => pure (.error error.message)
    | .ok value => do
        let _ ← Db.getOrCreate dbindex key
        Db.put dbindex key value
        Db.keyUpdated dbindex key
        pure (respond value.zcard fun count => .integer count)

/-- What ZUNIONSTORE and ZINTERSTORE do with the sets they have merged. -/
def storeMerged (dbindex : Nat) (key : Bytes) :
    Operation Value → Writer Response
  | .error error => pure (.error error.message)
  | .ok value => do
      let _ ← Db.getOrCreate dbindex key
      Db.put dbindex key value
      Db.keyUpdated dbindex key
      pure (respond value.zcard fun count => .integer count)

def zunionstore (argv : Arguments) (dbindex : Nat) : Writer Response :=
  zinterUnionStore argv dbindex true

def zinterstore (argv : Arguments) (dbindex : Nat) : Writer Response :=
  zinterUnionStore argv dbindex false

end RedVector.Command
