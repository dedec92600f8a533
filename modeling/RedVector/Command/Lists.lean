import RedVector.Command.Macros

/-!
# List commands
-/

namespace RedVector.Command

open Util

variable [Platform]

/-- Pushes the values one by one; the reply is the one to the last of them. -/
def pushAll (dbindex : Nat) (key : Bytes) (right create : Bool) :
    List Bytes → Response → Writer Response
  | [], r => pure r
  | val :: rest, _ => do
      let pushed ←
        if create then
          some <$> createThen dbindex key fun value =>
            some (value.push val right)
        else mutThen dbindex key fun value => some (value.push val right)
      match pushed with
      | none => throw (.integer 0)
      | some result =>
          pushAll dbindex key right create rest
            (respond result fun length => .integer length)

def genericPush (argv : Arguments) (dbindex : Nat) (right create : Bool) :
    Writer Response := do
  validate (3 ≤ argv.length) "Wrong number of parameters"
  let key ← tryValidate (argv.getVec 1) "Invalid key"
  let r ← pushAll dbindex key right create (argv.drop 2) .nil
  Db.keyUpdated dbindex key
  pure r

def lpush (argv : Arguments) (dbindex : Nat) : Writer Response :=
  genericPush argv dbindex false true

def rpush (argv : Arguments) (dbindex : Nat) : Writer Response :=
  genericPush argv dbindex true true

def lpushx (argv : Arguments) (dbindex : Nat) : Writer Response :=
  genericPush argv dbindex false false

def rpushx (argv : Arguments) (dbindex : Nat) : Writer Response :=
  genericPush argv dbindex true false

/-- The element that was popped, if there was one. -/
def poppedReply : Option Bytes → Response
  | some val => .data val
  | none => .nil

/-- Calls a method on the value of a key if there is one and announces the
update in any case. -/
def mutAndUpdate {α : Type} (dbindex : Nat) (key : Bytes)
    (method : Value → Option (Value.Change α)) (ok : α → Response)
    (missing : Response) : Writer Response := do
  let r ← mutThen dbindex key method
  Db.keyUpdated dbindex key
  match r with
  | some result => pure (respond result ok)
  | none => pure missing

def genericPop (argv : Arguments) (dbindex : Nat) (right : Bool) :
    Writer Response := do
  validateArgumentsExact argv 2
  let key ← tryValidate (argv.getVec 1) "Invalid key"
  mutAndUpdate dbindex key (fun value => some (value.pop right)) poppedReply
    .nil

def lpop (argv : Arguments) (dbindex : Nat) : Writer Response :=
  genericPop argv dbindex false

def rpop (argv : Arguments) (dbindex : Nat) : Writer Response :=
  genericPop argv dbindex true

/-- Moves the last element of the source in front of the destination. -/
def moveElement (dbindex : Nat) (source destination : Bytes) :
    Writer Response := do
  match ← Db.getMut dbindex source with
  | none => pure .nil
  | some sourcelist =>
      if sourcelist.llen.isOk then
        let (popped, after) := sourcelist.pop true
        Db.put dbindex source after
        match popped with
        | .error error => pure (.error error.message)
        | .ok none => pure .nil
        | .ok (some el) => do
            match ← createThen dbindex destination fun value =>
                some (value.push el false) with
            | .error error => pure (.error error.message)
            | .ok _ => do
                Db.keyUpdated dbindex source
                Db.keyUpdated dbindex destination
                pure (.data el)
      else pure (.fail "WRONGTYPE Source is not a list")

def genericRpoplpush (dbindex : Nat) (source destination : Bytes) :
    Writer Response := do
  match ← Db.get dbindex destination with
  | some value =>
      if value.llen.isOk then moveElement dbindex source destination
      else throw (.fail "WRONGTYPE Destination is not a list")
  | none => moveElement dbindex source destination

def rpoplpush (argv : Arguments) (dbindex : Nat) : Writer Response := do
  validateArgumentsExact argv 3
  let source ← tryValidate (argv.getVec 1) "Invalid source"
  let destination ← tryValidate (argv.getVec 2) "Invalid destination"
  genericRpoplpush dbindex source destination

/-! ## Blocking commands -/

/-- Waits for an update of one of the keys. -/
def waitFor (dbindex : Nat) (keys arguments : List Bytes)
    (timeout : Int) : Writer Answer := do
  let time ← Db.mstime
  let mailbox ← Db.channel
  keys.forM fun key => do
    let _ ← Db.keySubscribe dbindex key mailbox
  pure (.error (.wait
    { arguments := arguments
      timeout := timeout
      time := time
      mailbox := mailbox }))

def brpoplpush (argv : Arguments) (dbindex : Nat) : Writer Answer := do
  validate (argv.length = 4) "Wrong number of parameters"
  let source ← tryValidate (argv.getVec 1) "Invalid source"
  let destination ← tryValidate (argv.getVec 2) "Invalid destination"
  let timeout ← tryValidate (argv.getI64 3) "ERR timeout is not an integer"
  match ← genericRpoplpush dbindex source destination with
  | .nil => waitFor dbindex [source] argv.dropLast timeout
  | r => pure (.ok r)

/-- Pops from the first of the keys that has an element. -/
def popFirst (dbindex : Nat) (right : Bool) :
    List Bytes → Writer (Option Response)
  | [] => pure none
  | key :: rest => do
      match ← mutThen dbindex key fun value => some (value.pop right) with
      | some (.error error) => pure (some (.error error.message))
      | some (.ok (some val)) => do
          Db.keyUpdated dbindex key
          pure (some (.array [.data key, .data val]))
      | _ => popFirst dbindex right rest

def genericBpop (argv : Arguments) (dbindex : Nat) (right : Bool) :
    Writer Answer := do
  validate (3 ≤ argv.length) "Wrong number of parameters"
  let keys := argv.tail.dropLast
  match ← popFirst dbindex right keys with
  | some r => pure (.ok r)
  | none => do
      let timeout ← tryValidate (argv.getI64 (argv.length - 1))
        "ERR timeout is not an integer"
      waitFor dbindex keys argv.dropLast timeout

def brpop (argv : Arguments) (dbindex : Nat) : Writer Answer :=
  genericBpop argv dbindex true

def blpop (argv : Arguments) (dbindex : Nat) : Writer Answer :=
  genericBpop argv dbindex false

/-! ## Elements and ranges -/

def lindex (argv : Arguments) (dbindex : Nat) : Reader Response := do
  validateArgumentsExact argv 3
  let key ← tryValidate (argv.getVec 1) "Invalid key"
  let index ← tryValidate (argv.getI64 2) "Invalid index"
  match ← Db.get dbindex key with
  | some value => pure (respond (value.lindex index) poppedReply)
  | none => pure .nil

/-- The length behind an insertion, -1 without the pivot. -/
def insertedReply : Option Nat → Response
  | some length => .integer length
  | none => .integer (-1)

def linsert (argv : Arguments) (dbindex : Nat) : Writer Response := do
  validateArgumentsExact argv 5
  let key ← tryValidate (argv.getVec 1) "Invalid key"
  let beforeStr ← tryValidate (argv.getStr 2) "Syntax error"
  let pivot ← tryValidate (argv.getVec 3) "Invalid pivot"
  let value ← tryValidate (argv.getVec 4) "Invalid value"
  let before ←
    if lowercase beforeStr = text "after" then pure false
    else if lowercase beforeStr = text "before" then pure true
    else throw (.fail "ERR syntax error")
  mutAndUpdate dbindex key
    (fun list => some (list.linsert before pivot value))
    (fun
      | some length => .integer length
      | none => .integer (-1))
    (.integer (-1))

def llen (argv : Arguments) (dbindex : Nat) : Reader Response := do
  validateArgumentsExact argv 2
  let key ← tryValidate (argv.getVec 1) "Invalid key"
  match ← Db.get dbindex key with
  | some value => pure (respond value.llen fun length => .integer length)
  | none => pure (.integer 0)

/-- Data in an array. -/
def dataArray (items : List Bytes) : Response :=
  .array (items.map .data)

def lrange (argv : Arguments) (dbindex : Nat) : Reader Response := do
  validateArgumentsExact argv 4
  let key ← tryValidate (argv.getVec 1) "Invalid key"
  let start ← tryValidate (argv.getI64 2) "Invalid range"
  let stop ← tryValidate (argv.getI64 3) "Invalid range"
  match ← Db.get dbindex key with
  | some value =>
      pure (respond (← orPanic (value.lrange start stop)) dataArray)
  | none => pure (.array [])

def lrem (argv : Arguments) (dbindex : Nat) : Writer Response := do
  validateArgumentsExact argv 4
  let key ← tryValidate (argv.getVec 1) "Invalid key"
  let count ← tryValidate (argv.getI64 2) "Invalid count"
  let value ← tryValidate (argv.getVec 3) "Invalid value"
  mutAndUpdate dbindex key
    (fun list => do
      let limit ← i64 (if count < 0 then -count else count)
      pure (list.lrem (count < 0) (asUsize limit) value))
    (fun removed => .integer removed) (.array [])

def lset (argv : Arguments) (dbindex : Nat) : Writer Response := do
  validateArgumentsExact argv 4
  let key ← tryValidate (argv.getVec 1) "Invalid key"
  let index ← tryValidate (argv.getI64 2) "Invalid index"
  let value ← tryValidate (argv.getVec 3) "Invalid value"
  mutAndUpdate dbindex key (fun list => some (list.lset index value))
    (fun () => .ok) (.fail "ERR no such key")

def ltrim (argv : Arguments) (dbindex : Nat) : Writer Response := do
  validateArgumentsExact argv 4
  let key ← tryValidate (argv.getVec 1) "Invalid key"
  let start ← tryValidate (argv.getI64 2) "Invalid start"
  let stop ← tryValidate (argv.getI64 3) "Invalid stop"
  mutAndUpdate dbindex key (fun list => list.ltrim start stop)
    (fun () => .ok) .ok

end RedVector.Command
