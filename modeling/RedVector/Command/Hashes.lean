import RedVector.Command.Keys
import RedVector.Command.Sets

/-!
# Hash commands
-/

namespace RedVector.Command

open Util

variable [Platform]

def hset (argv : Arguments) (dbindex : Nat) : Writer Response := do
  validateArgumentsExact argv 4
  let key ← tryValidate (argv.getVec 1) "Invalid key"
  let field ← tryValidate (argv.getVec 2) "Invalid field"
  let value ← tryValidate (argv.getVec 3) "Invalid value"
  let r ← createThen dbindex key fun el => some (el.hset field value)
  updateOnSuccess dbindex key r bit

/-- The reply to setting a field that was not there. -/
def setNew (dbindex : Nat) (key : Bytes) (r : Operation Bool) :
    Writer Response :=
  updateOnSuccess dbindex key r fun _ => .integer 1

def hsetnx (argv : Arguments) (dbindex : Nat) : Writer Response := do
  validateArgumentsExact argv 4
  let key ← tryValidate (argv.getVec 1) "Invalid key"
  let field ← tryValidate (argv.getVec 2) "Invalid field"
  let value ← tryValidate (argv.getVec 3) "Invalid value"
  match ← Db.getMut dbindex key with
  | none => do
      let r ← createThen dbindex key fun el => some (el.hset field value)
      setNew dbindex key r
  | some el =>
      match el.hexists field with
      | .error error => pure (.error error.message)
      | .ok true => pure (.integer 0)
      | .ok false => do
          let (r, after) := el.hset field value
          Db.put dbindex key after
          setNew dbindex key r

def hget (argv : Arguments) (dbindex : Nat) : Reader Response := do
  validateArgumentsExact argv 3
  let key ← tryValidate (argv.getVec 1) "Invalid key"
  let field ← tryValidate (argv.getVec 2) "Invalid field"
  match ← Db.get dbindex key with
  | none => pure .nil
  | some el => pure (respond (el.hget field) poppedReply)

/-- Sets the fields of a list of fields and values until one fails. -/
def hsetAll : List Bytes → Value → Value.Change Unit
  | field :: value :: rest, el =>
      match el.hset field value with
      | (.error error, after) => (.error error, after)
      | (.ok _, after) => hsetAll rest after
  | _, el => (.ok (), el)

def hmset (argv : Arguments) (dbindex : Nat) : Writer Response := do
  validateArgumentsGte argv 4
  validate ((argv.length - 1) % 2 = 1)
    "ERR wrong number of arguments for 'hmset' command"
  let key ← tryValidate (argv.getVec 1) "Invalid key"
  let r ← createThen dbindex key fun el => some (hsetAll (argv.drop 2) el)
  updateOnSuccess dbindex key r fun () => .ok

def hmget (argv : Arguments) (dbindex : Nat) : Reader Response := do
  validateArgumentsGte argv 3
  let key ← tryValidate (argv.getVec 1) "Invalid key"
  let fields := argv.drop 2
  match ← Db.get dbindex key with
  | none => pure (.array (fields.map fun _ => .nil))
  | some el =>
      let found : Operation (List Response) :=
        fields.mapM fun field => poppedReply <$> el.hget field
      pure (respond found .array)

def hdel (argv : Arguments) (dbindex : Nat) : Writer Response := do
  validateArgumentsGte argv 3
  let key ← tryValidate (argv.getVec 1) "Invalid key"
  match ← mutThen dbindex key fun el => some (el.hdel (argv.drop 2)) with
  | none => pure (.integer 0)
  | some r => updateOnSuccess dbindex key r fun count => .integer count

def hlen (argv : Arguments) (dbindex : Nat) : Reader Response := do
  validateArgumentsExact argv 2
  let key ← tryValidate (argv.getVec 1) "Invalid key"
  match ← Db.get dbindex key with
  | none => pure (.integer 0)
  | some el => pure (respond el.hlen fun count => .integer count)

def hstrlen (argv : Arguments) (dbindex : Nat) : Reader Response := do
  validateArgumentsExact argv 3
  let key ← tryValidate (argv.getVec 1) "Invalid key"
  let field ← tryValidate (argv.getVec 2) "Invalid field"
  match ← Db.get dbindex key with
  | none => pure (.integer 0)
  | some el => pure (respond (el.hstrlen field) fun len => .integer len)

/-- A command that lists a hash in the order of its map. -/
def listHash (entry : Bytes × Bytes → List Bytes) (argv : Arguments)
    (dbindex : Nat) : Reader Response := do
  validateArgumentsExact argv 2
  let key ← tryValidate (argv.getVec 1) "Invalid key"
  match ← Db.get dbindex key with
  | none => pure (.array [])
  | some el => do
      let order ← Db.order
      pure (respond el.hgetall fun fields =>
        dataArray ((hashEntries order fields).flatMap entry))

def hkeys (argv : Arguments) (dbindex : Nat) : Reader Response :=
  listHash (fun entry => [entry.1]) argv dbindex

def hvals (argv : Arguments) (dbindex : Nat) : Reader Response :=
  listHash (fun entry => [entry.2]) argv dbindex

def hgetall (argv : Arguments) (dbindex : Nat) : Reader Response :=
  listHash (fun entry => [entry.1, entry.2]) argv dbindex

def hexists (argv : Arguments) (dbindex : Nat) : Reader Response := do
  validateArgumentsExact argv 3
  let key ← tryValidate (argv.getVec 1) "Invalid key"
  let field ← tryValidate (argv.getVec 2) "Invalid field"
  match ← Db.get dbindex key with
  | none => pure (.integer 0)
  | some el => pure (respond (el.hexists field) bit)

def hincrby (argv : Arguments) (dbindex : Nat) : Writer Response := do
  validateArgumentsExact argv 4
  let key ← tryValidate (argv.getVec 1) "Invalid key"
  let field ← tryValidate (argv.getVec 2) "Invalid field"
  let increment ← tryValidate (argv.getI64 3)
    "ERR value is not an integer or out of range"
  let r ← createThen dbindex key fun el =>
    some (el.hincrby field increment)
  updateOnSuccess dbindex key r .integer

def hincrbyfloat (argv : Arguments) (dbindex : Nat) : Writer Response := do
  validateArgumentsExact argv 4
  let key ← tryValidate (argv.getVec 1) "Invalid key"
  let field ← tryValidate (argv.getVec 2) "Invalid field"
  let increment ← tryValidate (argv.getF64 3) "ERR value is not a valid float"
  let r ← createThen dbindex key fun el =>
    some (el.hincrbyfloat field increment)
  updateOnSuccess dbindex key r fun number =>
    .data (Platform.f64ToString number)

end RedVector.Command
