import RedVector.Command.Dispatch

/-!
# Executing a command

From the arguments of a command to its handler: renaming, the gates in front
of the handlers, MULTI and EXEC, and the logs that are written afterwards.
-/

namespace RedVector

open Util Effect

variable [Platform]

/-- The environment of every command that one request runs: its own, and by
position those of the commands that EXEC runs. -/
def World := List Nat → Env

namespace World

def here (world : World) : Env :=
  world []

def queued (world : World) (position : Nat) : World :=
  fun path => world (position :: path)

end World

/-- What a command answers, and the states after it. -/
structure Outcome where
  answer : Answer
  db : Database
  client : Client

/-- What `execute_command` returns, with the flags that it sets. -/
structure Executed extends Outcome where
  log : Bool
  write : Bool

namespace Handler

/-- The answer of a handler whose early returns are replies. -/
def finished (client : Client) (result : Except Response Answer × Database) :
    Outcome :=
  match result with
  | (.ok answer, db) => ⟨answer, db, client⟩
  | (.error reply, db) => ⟨.ok reply, db, client⟩

def run (env : Env) (argv : Arguments) (db : Database) (client : Client) :
    Handler → Option Outcome
  | reader handle =>
      let program : Writer Answer :=
        Except.ok <$> (handle argv client.dbindex).lift readInclusion
      (program.run (Database.machine env) db).map (finished client)
  | writer handle =>
      let program : Writer Answer := Except.ok <$> handle argv client.dbindex
      (program.run (Database.machine env) db).map (finished client)
  | blocking handle =>
      ((handle argv client.dbindex).run (Database.machine env) db).map
        (finished client)
  | server handle => do
      let (reply, db) ← handle env argv client.id db
      pure ⟨.ok reply, db, client⟩
  | session handle => do
      let (answer, db, client) ← handle env argv db client
      pure ⟨answer, db, client⟩

end Handler

namespace Command

/-! ## Names -/

/-- The beginning of the arguments that an error about a name shows. -/
def shownArguments (argv : Arguments) : Bytes :=
  let shown := ((argv.take 4).drop 1).filter isUtf8
  if shown.isEmpty then []
  else
    text ", with args beginning with: " ++
      (text " ").intercalate
        (shown.map fun argument => text "'" ++ argument ++ text "'")

/-- The reply to a command that is disabled. -/
def unknownCommand (argv : Arguments) : Response :=
  .error (text "ERR unknown command '" ++ argv.headD [] ++ text "'" ++
    shownArguments argv)

/-- The name that a command is executed under.  The names of modules are not
renamed. -/
def commandName (db : Database) (argv : Arguments) :
    Except Response Bytes := do
  let raw ← tryValidate (argv.getStr 0) "Invalid command"
  let lower := lowercase raw
  if (text "ft.").isPrefixOf lower || (text "bf.").isPrefixOf lower then
    pure lower
  else
    match db.mappedCommand lower with
    | some name => pure name
    | none => throw (unknownCommand argv)

/-- The reply to a name without a handler. -/
def unmatched (name : Bytes) : Response :=
  if (text "ft.").isPrefixOf name then
    .fail ("ERR FT.* commands not available "
      ++ "(vector-search feature not enabled)")
  else .error (text "ERR_UNKNOWN_CMD_MATCH:" ++ name)

/-! ## The gates -/

/-- Without a password every client is authenticated. -/
def admitted (db : Database) (client : Client) : Client :=
  if db.config.requirepass.isNone then { client with auth := true }
  else client

def authenticate (argv : Arguments) (db : Database) (client : Client) :
    Response × Client :=
  match (do
      validate (argv.length = 2) "Wrong number of parameters"
      tryValidate (argv.getStr 1) "Invalid password" :
        Except Response Bytes) with
  | .error reply => (reply, client)
  | .ok password =>
      if some password = db.config.requirepass then
        (.ok, { client with auth := true })
      else if db.config.requirepass.isNone then
        (.fail "ERR Client sent AUTH, but no password is set", client)
      else (.fail "ERR invalid password", client)

/-- The index is compared with the number of databases by `>`. -/
def select (argv : Arguments) (db : Database) (client : Client) :
    Response × Client :=
  match (do
      validate (argv.length = 2) "Wrong number of parameters"
      tryValidate (argv.getI64 1) "Invalid dbindex" :
        Except Response Int) with
  | .error reply => (reply, client)
  | .ok dbindex =>
      if db.config.databases < asUsize dbindex then
        (.fail "ERR invalid DB index", client)
      else (.ok, { client with dbindex := asUsize dbindex })

/-- Runs the handler of a command. -/
def dispatch (env : Env) (name : Bytes) (write : Bool)
    (command : ParsedCommand) (db : Database) (client : Client) :
    Option Outcome :=
  let db :=
    { db with
      dispatched := db.dispatched ++ [⟨client.dbindex, command, write⟩] }
  match (CommandName.ofBytes name).bind Handler.ofName with
  | some handler => handler.run env command.arguments db client
  | none => some ⟨.ok (unmatched name), db, client⟩

/-- What becomes of a command in front of the handlers. -/
inductive Route where
  /-- It is answered without the database being touched. -/
  | answered (reply : Response) (client : Client)
  | exec (client : Client)
  | dispatched (client : Client)

/-- The gates that a command with a name passes on its way to its handler. -/
def route (known : Option CommandName) (command : ParsedCommand)
    (db : Database) (client : Client) : Route :=
  let argv := command.arguments
  let client := admitted db client
  -- commands that are not executed before AUTH
  if known = some .auth then
    let (reply, client) := authenticate argv db client
    .answered reply client
  else if !client.auth then
    .answered (.fail "NOAUTH Authentication required.") client
  -- commands that are not executed inside MULTI
  else if known = some .multi then
    let (reply, client) := multi client
    .answered reply client
  else if known = some .discard then
    let (reply, client) := discard db client
    .answered reply client
  else if known = some .exec then .exec client
  else if client.multi then
    if known = some .watch ∨ known = some .unwatch then
      .answered (.fail "ERR WATCH not allowed inside MULTI") client
    else
      .answered (.status (text "QUEUED"))
        { client with multiCommands := client.multiCommands ++ [command] }
  else if known = some .select then
    let (reply, client) := select argv db client
    .answered reply client
  else .dispatched client

/-- `execute_command`, with the function that executes EXEC. -/
def executeCommand (env : Env)
    (exec : Database → Client → Option (Response × Database × Client))
    (command : ParsedCommand) (db : Database) (client : Client) :
    Option Executed :=
  if command.arguments.isEmpty then
    some ⟨⟨.error .noReply, db, client⟩, true, false⟩
  else
    match commandName db command.arguments with
    | .error reply => some ⟨⟨.ok reply, db, client⟩, true, false⟩
    | .ok name =>
        let known := CommandName.ofBytes name
        let write := !(commandProperties name).isReadonly
        match route known command db client with
        | .answered reply client =>
            some ⟨⟨.ok reply, db, client⟩, true, write⟩
        | .exec client =>
            (exec db client).map fun (reply, db, client) =>
              ⟨⟨.ok reply, db, client⟩, true, write⟩
        | .dispatched client =>
            (dispatch env name write command db client).map fun outcome =>
              ⟨outcome, !decide (known = some .monitor), write⟩

/-! ## EXEC -/

/-- Runs the commands of a queue from a position on and unwraps their
answers. -/
def execAll
    (run : Nat → ParsedCommand → Database → Client → Option Outcome) :
    Nat → List ParsedCommand → Database → Client →
      Option (List Response × Database × Client)
  | _, [], db, client => some ([], db, client)
  | position, command :: rest, db, client => do
      let outcome ← run position command db client
      match outcome.answer with
      | .error _ => none
      | .ok reply => do
          let (replies, after) ←
            execAll run (position + 1) rest outcome.db outcome.client
          pure (reply :: replies, after)

def exec (run : Nat → ParsedCommand → Database → Client → Option Outcome)
    (db : Database) (client : Client) :
    Option (Response × Database × Client) :=
  if !client.multi then
    some (.fail "ERR EXEC without MULTI", db, client)
  else
    let queue := client.multiCommands
    let (verified, client) :=
      genericUnwatch db { client with multi := false, multiCommands := [] }
    if !verified then some (.nil, db, client)
    else do
      let (replies, after) ← execAll run 0 queue db client
      pure (.array replies, after)

/-! ## The logs -/

/-- Writes a command that was executed to the logs. -/
def logged (env : Env) (command : ParsedCommand) (executed : Executed) :
    Outcome :=
  if executed.log then
    let db := executed.db.logCommand env executed.client.dbindex command
      executed.write
    { executed.toOutcome with db := db.slowlogAdd env command }
  else executed.toOutcome

/-- `command` with at most `depth` levels of EXEC inside each other. -/
def commandAt :
    Nat → World → ParsedCommand → Database → Client → Option Outcome
  | 0, _, _, _, _ => none
  | depth + 1, world, command, db, client =>
      (executeCommand world.here
        (exec fun position => commandAt depth (world.queued position))
        command db client).map (logged world.here command)

end Command

open Command in
/-- Executes a command and logs it.  EXEC only runs what was queued, so the
length of the queue bounds the levels. -/
def command (world : World) (command : ParsedCommand) (db : Database)
    (client : Client) : Option Outcome :=
  commandAt (client.multiCommands.length + 1) world command db client

/-! ## Commands that were waiting -/

namespace Wait

/-- Where the arguments are once they are written one after the other. -/
def positions : Nat → List Bytes → List Argument
  | _, [] => []
  | pos, argument :: rest =>
      ⟨pos, argument.length⟩ :: positions (pos + argument.length) rest

omit [Platform] in
theorem positions_inBounds
    (arguments : List Bytes) (pos : Nat) :
    ∀ argument ∈ positions pos arguments,
      argument.pos + argument.len ≤ pos + arguments.flatten.length := by
  induction arguments generalizing pos with
  | nil => simp [positions]
  | cons head rest ih =>
      intro argument member
      simp only [positions, List.mem_cons] at member
      simp only [List.flatten_cons, List.length_append]
      obtain rfl | member := member
      · show pos + head.length ≤ _
        omega
      · have inside := ih (pos + head.length) argument member
        omega

/-- A command whose buffer holds its arguments and nothing else. -/
def ownedCommand (arguments : List Bytes) : ParsedCommand :=
  { data := arguments.flatten
    argv := positions 0 arguments
    inBounds := by
      intro argument member
      have inside := positions_inBounds arguments 0 argument member
      omega }

/-- What is left of the timeout, in milliseconds. -/
def newTimeout (wait : Wait) (now : Int) : Option Int :=
  if wait.timeout = 0 then some 0
  else do
    let scaled ← i64 (wait.timeout * 1000)
    let remaining ← i64 (scaled - now)
    let t ← i64 (remaining + wait.time)
    pure (if t ≤ 0 then 1 else t)

/-- The command that runs when one of the keys was updated. -/
def reissued (wait : Wait) (now : Int) : Option ParsedCommand := do
  let timeout ← wait.newTimeout now
  pure (ownedCommand (wait.arguments ++ [intToString timeout]))

end Wait

end RedVector
