import RedVector.Database.Database
import RedVector.Effect.Program

/-!
# The operations that handlers call

A handler is a program over these operations.  A handler that only has a
shared reference to the database, or that uses it so, is a program over the
reading operations alone.
-/

namespace RedVector

open Effect

variable [Platform]

inductive ReadOp where
  | config
  | mstime
  | get (index : Nat) (key : Bytes)
  | getMsexpiration (index : Nat) (key : Bytes)
  | dbsize (index : Nat)
  /-- The keys of a database as its hash map lists them. -/
  | iterDb (index : Nat)
  /-- The order of a hash map or hash set. -/
  | order
  /-- A number drawn at random. -/
  | random (call : Nat)
  | randomPositions (length count : Nat) (allowDuplicates : Bool)
  | zunion (values : List Value) (weights : Option (List F64))
      (aggregate : Aggregate)
  | zinter (values : List Value) (weights : Option (List F64))
      (aggregate : Aggregate)
  | dump (value : Value)
  | debugObject (value : Value)

def ReadOp.Ret : ReadOp → Type
  | config => Config
  | mstime => Int
  | get _ _ => Option Value
  | getMsexpiration _ _ => Option Int
  | dbsize _ => Nat
  | iterDb _ => List Bytes
  | order => Finset Bytes → List Bytes
  | random _ => Nat
  | randomPositions _ _ _ => List Nat
  | zunion _ _ _ => Operation Value
  | zinter _ _ _ => Operation Value
  | dump _ => Operation Bytes
  | debugObject _ => Bytes

inductive WriteOp where
  | read (op : ReadOp)
  | getMut (index : Nat) (key : Bytes)
  | getOrCreate (index : Nat) (key : Bytes)
  /-- A write through a mutable reference. -/
  | put (index : Nat) (key : Bytes) (value : Value)
  | remove (index : Nat) (key : Bytes)
  | setMsexpiration (index : Nat) (key : Bytes) (msexpiration : Int)
  | removeMsexpiration (index : Nat) (key : Bytes)
  | clear (index : Nat)
  | clearall
  | keyUpdated (index : Nat) (key : Bytes)
  | notifyKeyspaceEvent (index : Nat) (eventType key : Bytes)
      (commandType : UInt8)
  /-- A new channel; it is named after the next subscriber. -/
  | channel
  | keySubscribe (index : Nat) (key : Bytes) (mailbox : Nat)

def WriteOp.Ret : WriteOp → Type
  | read op => op.Ret
  | getMut _ _ => Option Value
  | getOrCreate _ _ => Value
  | remove _ _ => Option Value
  | removeMsexpiration _ _ => Option Int
  | channel => Nat
  | keySubscribe _ _ _ => Nat
  | put _ _ _ | setMsexpiration _ _ _ | clear _ | clearall
  | keyUpdated _ _ | notifyKeyspaceEvent _ _ _ _ => Unit

abbrev readInterface : Interface :=
  { Op := ReadOp, Ret := ReadOp.Ret }

abbrev writeInterface : Interface :=
  { Op := WriteOp, Ret := WriteOp.Ret }

/-- A program that only reads the database. -/
abbrev Reader (α : Type) := Program readInterface Response α

/-- A program that may write to the database. -/
abbrev Writer (α : Type) := Program writeInterface Response α

def readInclusion : Interface.Inclusion readInterface writeInterface :=
  { op := WriteOp.read, answer := fun _ answer => answer }

instance : MonadLift Reader Writer where
  monadLift := Program.lift readInclusion

namespace Database

/-- Every index that the operation passes to the database is in bounds. -/
def inBounds (db : Database) (index : Nat) : Bool :=
  index < db.config.databases

/-- Panics on an index out of bounds. -/
def checked {α : Type} (db : Database) (index : Nat) (answer : Option α) :
    Option α :=
  if db.inBounds index then answer else none

/-- The answer of a reading operation. -/
def read (env : Env) (db : Database) : (op : ReadOp) → Option op.Ret
  | .config => some db.config
  | .mstime => some env.now
  | .get index key => db.checked index (some (db.get env index key))
  | .getMsexpiration index key =>
      db.checked index (some (db.getMsexpiration index key))
  | .dbsize index => db.checked index (some (db.dbsize index))
  | .iterDb index =>
      db.checked index (some (env.order (db.data index).keys))
  | .order => some env.order
  | .random call => some (env.random call)
  | .randomPositions length count allowDuplicates =>
      -- an empty range to draw from
      if length = 0 then none
      else some (env.positions length count allowDuplicates)
  | .zunion values weights aggregate =>
      Value.zunion env.order values weights aggregate
  | .zinter values weights aggregate =>
      Value.zinter env.order values weights aggregate
  | .dump value => value.dump env.order env.idOrder
  | .debugObject value => value.debugObject env.order env.idOrder

/-- An operation that answers nothing. -/
def silently (result : Option Database) : Option (Unit × Database) :=
  result.map fun db => ((), db)

def perform (env : Env) (db : Database) :
    (op : WriteOp) → Option (op.Ret × Database)
  | .read op => (db.read env op).map fun answer => (answer, db)
  | .getMut index key => db.checked index (db.getMut env index key)
  | .getOrCreate index key => db.checked index (db.getOrCreate env index key)
  | .put index key value =>
      db.checked index (some ((), db.put index key value))
  | .remove index key => db.checked index (db.remove env index key)
  | .setMsexpiration index key msexpiration =>
      db.checked index
        (silently (db.setMsexpiration env index key msexpiration))
  | .removeMsexpiration index key =>
      db.checked index (some (db.removeMsexpiration index key))
  | .clear index => db.checked index (silently (db.clear env index))
  | .clearall => silently (db.clearall env)
  | .keyUpdated index key =>
      db.checked index (silently (db.keyUpdated env index key))
  | .notifyKeyspaceEvent index eventType key commandType =>
      silently (db.notifyKeyspaceEvent env index eventType key commandType)
  | .channel => some (db.subscriberId, db)
  | .keySubscribe index key mailbox =>
      db.checked index (some (db.keySubscribe index key mailbox))

def machine (env : Env) : Machine writeInterface Database :=
  { step := fun op db => db.perform env op }

end Database

/-! ## The operations as programs -/

namespace Db

def config : Reader Config :=
  .call (.config : ReadOp) .pure

def mstime : Reader Int :=
  .call (.mstime : ReadOp) .pure

def get (index : Nat) (key : Bytes) : Reader (Option Value) :=
  .call (.get index key : ReadOp) .pure

def getMsexpiration (index : Nat) (key : Bytes) : Reader (Option Int) :=
  .call (.getMsexpiration index key : ReadOp) .pure

def dbsize (index : Nat) : Reader Nat :=
  .call (.dbsize index : ReadOp) .pure

def iterDb (index : Nat) : Reader (List Bytes) :=
  .call (.iterDb index : ReadOp) .pure

def order : Reader (Finset Bytes → List Bytes) :=
  .call (.order : ReadOp) .pure

def random (call : Nat) : Reader Nat :=
  .call (.random call : ReadOp) .pure

def randomPositions (length count : Nat) (allowDuplicates : Bool) :
    Reader (List Nat) :=
  .call (.randomPositions length count allowDuplicates : ReadOp) .pure

def zunion (values : List Value) (weights : Option (List F64))
    (aggregate : Aggregate) : Reader (Operation Value) :=
  .call (.zunion values weights aggregate : ReadOp) .pure

def zinter (values : List Value) (weights : Option (List F64))
    (aggregate : Aggregate) : Reader (Operation Value) :=
  .call (.zinter values weights aggregate : ReadOp) .pure

def dump (value : Value) : Reader (Operation Bytes) :=
  .call (.dump value : ReadOp) .pure

def debugObject (value : Value) : Reader Bytes :=
  .call (.debugObject value : ReadOp) .pure

def getMut (index : Nat) (key : Bytes) : Writer (Option Value) :=
  .call (.getMut index key : WriteOp) .pure

def getOrCreate (index : Nat) (key : Bytes) : Writer Value :=
  .call (.getOrCreate index key : WriteOp) .pure

def put (index : Nat) (key : Bytes) (value : Value) : Writer Unit :=
  .call (.put index key value : WriteOp) .pure

def remove (index : Nat) (key : Bytes) : Writer (Option Value) :=
  .call (.remove index key : WriteOp) .pure

def setMsexpiration (index : Nat) (key : Bytes) (msexpiration : Int) :
    Writer Unit :=
  .call (.setMsexpiration index key msexpiration : WriteOp) .pure

def removeMsexpiration (index : Nat) (key : Bytes) : Writer (Option Int) :=
  .call (.removeMsexpiration index key : WriteOp) .pure

def clear (index : Nat) : Writer Unit :=
  .call (.clear index : WriteOp) .pure

def clearall : Writer Unit :=
  .call (.clearall : WriteOp) .pure

def keyUpdated (index : Nat) (key : Bytes) : Writer Unit :=
  .call (.keyUpdated index key : WriteOp) .pure

def notifyKeyspaceEvent (index : Nat) (eventType key : Bytes)
    (commandType : UInt8) : Writer Unit :=
  .call (.notifyKeyspaceEvent index eventType key commandType : WriteOp)
    .pure

def channel : Writer Nat :=
  .call (.channel : WriteOp) .pure

def keySubscribe (index : Nat) (key : Bytes) (mailbox : Nat) : Writer Nat :=
  .call (.keySubscribe index key mailbox : WriteOp) .pure

end Db

end RedVector
