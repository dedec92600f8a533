import RedVector.Database.Operations

/-!
# The validation macros

The macros of the source return an error reply from the handler that uses
them; here they fail with that reply.
-/

namespace RedVector

open Effect

/-- Continues with the value of a step that panics on `none`. -/
def orPanic {I : Interface} {ε α : Type} : Option α → Program I ε α :=
  Program.orPanic

/-- The reply to a wrong number of arguments. -/
def wrongNumberOfArguments (argv : Arguments) : Response :=
  .error (text "ERR wrong number of arguments for '" ++
    argv.headD [] ++ text "' command")

def validate (holds : Bool) (message : String) : Except Response Unit :=
  if holds then .ok () else .error (.fail message)

def validateArgumentsExact (argv : Arguments) (expected : Nat) :
    Except Response Unit :=
  if argv.length = expected then .ok ()
  else .error (wrongNumberOfArguments argv)

def validateArgumentsGte (argv : Arguments) (expected : Nat) :
    Except Response Unit :=
  if argv.length < expected then .error (wrongNumberOfArguments argv)
  else .ok ()

def validateArgumentsLte (argv : Arguments) (expected : Nat) :
    Except Response Unit :=
  if expected < argv.length then .error (wrongNumberOfArguments argv)
  else .ok ()

def tryValidate {ε α : Type} (result : Except ε α) (message : String) :
    Except Response α :=
  match result with
  | .ok value => .ok value
  | .error _ => .error (.fail message)

/-- The reply to an operation: its error, or what `ok` makes of its result. -/
def respond {α : Type} (result : Operation α) (ok : α → Response) :
    Response :=
  match result with
  | .ok value => ok value
  | .error error => .error error.message

def bit (on : Bool) : Response :=
  .integer (if on then 1 else 0)

section Values

variable [Platform]

/-- Calls a method on the value of a key that is created if need be. -/
def createThen {α : Type} (dbindex : Nat) (key : Bytes)
    (method : Value → Option (Value.Change α)) : Writer (Operation α) := do
  let value ← Db.getOrCreate dbindex key
  let (result, after) ← orPanic (method value)
  Db.put dbindex key after
  pure result

/-- Calls a method on the value of a key if there is one. -/
def mutThen {α : Type} (dbindex : Nat) (key : Bytes)
    (method : Value → Option (Value.Change α)) :
    Writer (Option (Operation α)) := do
  match ← Db.getMut dbindex key with
  | none => pure none
  | some value => do
      let (result, after) ← orPanic (method value)
      Db.put dbindex key after
      pure (some result)

/-- The update of a key after a method that succeeded. -/
def updateOnSuccess {α : Type} (dbindex : Nat) (key : Bytes)
    (result : Operation α) (ok : α → Response) : Writer Response :=
  match result with
  | .ok value => do
      Db.keyUpdated dbindex key
      pure (ok value)
  | .error error => pure (.error error.message)

end Values

end RedVector
