import RedVector.Command.Lists

/-!
# Set commands
-/

namespace RedVector.Command

open Util

variable [Platform]

/-- Calls a method for each element in turn until it fails and counts the
calls that changed the value. -/
def countChanges (method : Bytes → Value → Value.Change Bool) :
    List Bytes → Value → Value.Change Nat
  | [], value => (.ok 0, value)
  | element :: rest, value =>
      match method element value with
      | (.error error, after) => (.error error, after)
      | (.ok changed, after) =>
          match countChanges method rest after with
          | (.error error, after) => (.error error, after)
          | (.ok count, after) =>
              (.ok (if changed then count + 1 else count), after)

/-- Calls a method for each element of the command on a created key. -/
def changeElements (argv : Arguments) (dbindex : Nat)
    (method : Bytes → Value → Value.Change Bool) : Writer Response := do
  let key ← tryValidate (argv.getVec 1) "Invalid key"
  let r ← createThen dbindex key fun value =>
    some (countChanges method (argv.drop 2) value)
  updateOnSuccess dbindex key r fun count => .integer count

def sadd (argv : Arguments) (dbindex : Nat) : Writer Response := do
  validate (2 < argv.length) "Wrong number of parameters"
  let config ← Db.config
  changeElements argv dbindex fun val value =>
    value.sadd val config.setMaxIntsetEntries

def srem (argv : Arguments) (dbindex : Nat) : Writer Response := do
  validate (2 < argv.length) "Wrong number of parameters"
  changeElements argv dbindex fun val value => value.srem val

def sismember (argv : Arguments) (dbindex : Nat) : Reader Response := do
  validateArgumentsExact argv 3
  let key ← tryValidate (argv.getVec 1) "Invalid key"
  let member ← tryValidate (argv.getVec 2) "Invalid key"
  match ← Db.get dbindex key with
  | some value => pure (respond (value.sismember member) bit)
  | none => pure (.integer 0)

/-- Members of a value drawn at random. -/
def srandmemberOf (value : Value) (count : Nat) (allowDuplicates : Bool) :
    Reader (Operation (List Bytes)) := do
  match value with
  | .nil => pure (.ok [])
  | .set set => do
      let positions ← Db.randomPositions set.scard count allowDuplicates
      pure (.ok (← orPanic (set.srandmember (← Db.order) positions)))
  | _ => pure (.error .wrongTypeError)

/-- The first of the elements, or nil. -/
def firstElement (elements : List Bytes) : Response :=
  poppedReply elements.head?

def srandmember (argv : Arguments) (dbindex : Nat) : Reader Response := do
  validateArgumentsGte argv 2
  validateArgumentsLte argv 3
  let key ← tryValidate (argv.getVec 1) "Invalid key"
  match ← Db.get dbindex key with
  | none => pure (if argv.length = 2 then .nil else .array [])
  | some value =>
      if argv.length = 2 then do
        pure (respond (← srandmemberOf value 1 false) firstElement)
      else do
        let count ← tryValidate (argv.getI64 2) "Invalid count"
        let amount ← orPanic (i64 (if count < 0 then -count else count))
        pure (respond (← srandmemberOf value (asUsize amount) (count < 0))
          dataArray)

def smembers (argv : Arguments) (dbindex : Nat) : Reader Response := do
  validateArgumentsExact argv 2
  let key ← tryValidate (argv.getVec 1) "Invalid key"
  match ← Db.get dbindex key with
  | none => pure (.array [])
  | some value => do
      let order ← Db.order
      pure (respond value.smembers fun els => dataArray (order els))

/-- The members that SPOP draws from a set, and the set without them. -/
def drawMembers (set : ValueSet) (count : Nat) :
    Reader (List Bytes × ValueSet) := do
  let order ← Db.order
  if set.scard ≤ count then
    pure (order set.members, set.removeAll (order set.members))
  else
    let positions ← Db.randomPositions set.scard count false
    orPanic (ValueSet.spopAt order positions set)

def spopOf (value : Value) (count : Nat) :
    Reader (Value.Change (List Bytes)) := do
  match value with
  | .nil => pure (.ok [], .nil)
  | .set set => do
      let (picked, after) ← drawMembers set count
      pure (.ok picked, .set after)
  | value => pure value.wrongType

def spop (argv : Arguments) (dbindex : Nat) : Writer Response := do
  validateArgumentsGte argv 2
  validateArgumentsLte argv 3
  let key ← tryValidate (argv.getVec 1) "Invalid key"
  match ← Db.getMut dbindex key with
  | none => pure (if argv.length = 2 then .nil else .array [])
  | some value =>
      if argv.length = 2 then do
        let (popped, after) ← spopOf value 1
        Db.put dbindex key after
        Db.keyUpdated dbindex key
        pure (respond popped firstElement)
      else do
        let count ← tryValidate (argv.getI64 2) "Invalid count"
        let (popped, after) ← spopOf value (asUsize count)
        Db.put dbindex key after
        Db.keyUpdated dbindex key
        pure (respond popped dataArray)

def smove (argv : Arguments) (dbindex : Nat) : Writer Response := do
  validateArgumentsExact argv 4
  let sourceKey ← tryValidate (argv.getVec 1) "Invalid key"
  let destinationKey ← tryValidate (argv.getVec 2) "Invalid destination"
  let member ← tryValidate (argv.getVec 3) "Invalid member"
  match ← Db.get dbindex destinationKey with
  | some value =>
      if value.isSet then pure ()
      else
        throw (.fail
          ("WRONGTYPE Operation against a key holding the wrong kind of "
            ++ "value"))
  | none => pure ()
  match ← mutThen dbindex sourceKey fun value => some (value.srem member) with
  | none => pure (.integer 0)
  | some (.error error) => pure (.error error.message)
  | some (.ok false) => pure (.integer 0)
  | some (.ok true) => do
      let config ← Db.config
      match ← createThen dbindex destinationKey fun value =>
          some (value.sadd member config.setMaxIntsetEntries) with
      | .error _ => orPanic none
      | .ok _ => do
          Db.keyUpdated dbindex sourceKey
          Db.keyUpdated dbindex destinationKey
          pure (.integer 1)

def scard (argv : Arguments) (dbindex : Nat) : Reader Response := do
  validateArgumentsExact argv 2
  let key ← tryValidate (argv.getVec 1) "Invalid key"
  match ← Db.get dbindex key with
  | none => pure (.integer 0)
  | some value => pure (respond value.scard fun count => .integer count)

/-! ## Set algebra -/

/-- The values of the keys, with the default for those that do not exist. -/
def getValues (dbindex : Nat) (default : Value) (keys : List Bytes) :
    Reader (List Value) :=
  keys.mapM fun key => do pure ((← Db.get dbindex key).getD default)

/-- A command that lists what a set operation makes of the keys.  Without a
default the reply for a missing first key is an empty array. -/
def setAlgebra (operation : List Value → Value → Operation (Finset Bytes))
    (default : Option Value) (argv : Arguments) (dbindex : Nat) :
    Reader Response := do
  let key ← tryValidate (argv.getVec 1) "Invalid key"
  match (← Db.get dbindex key).or default with
  | none => pure (.array [])
  | some value => do
      let sets ← getValues dbindex .nil (argv.drop 2)
      let order ← Db.order
      pure (respond (operation sets value) fun set => dataArray (order set))

/-- A command that stores what a set operation makes of the keys.  Without a
default it does nothing when the first key is missing. -/
def setAlgebraStore
    (operation : List Value → Value → Operation (Finset Bytes))
    (default : Option Value) (argv : Arguments) (dbindex : Nat) :
    Writer Response := do
  validate (3 ≤ argv.length) "Wrong number of parameters"
  let destinationKey ← tryValidate (argv.getVec 1) "Invalid destination"
  let key ← tryValidate (argv.getVec 2) "Invalid key"
  match (← Db.get dbindex key).or default with
  | none => pure (.integer 0)
  | some value => do
      let sets ← getValues dbindex .nil (argv.drop 3)
      match operation sets value with
      | .error error => pure (.error error.message)
      | .ok set => do
          let _ ← Db.remove dbindex destinationKey
          let _ ← Db.getOrCreate dbindex destinationKey
          Db.put dbindex destinationKey (.createSet set)
          Db.keyUpdated dbindex destinationKey
          pure (.integer set.card)

def sdiff (argv : Arguments) (dbindex : Nat) : Reader Response :=
  setAlgebra Value.sdiff none argv dbindex

def sdiffstore (argv : Arguments) (dbindex : Nat) : Writer Response :=
  setAlgebraStore Value.sdiff none argv dbindex

def sinter (argv : Arguments) (dbindex : Nat) : Reader Response :=
  setAlgebra Value.sinter none argv dbindex

def sinterstore (argv : Arguments) (dbindex : Nat) : Writer Response :=
  setAlgebraStore Value.sinter (some .nil) argv dbindex

def sunion (argv : Arguments) (dbindex : Nat) : Reader Response :=
  setAlgebra Value.sunion (some .nil) argv dbindex

def sunionstore (argv : Arguments) (dbindex : Nat) : Writer Response :=
  setAlgebraStore Value.sunion (some .nil) argv dbindex

end RedVector.Command
