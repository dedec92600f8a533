import RedVector.Command.Queue
import RedVector.Command.Reissue

/-!
# Renamed commands

The words that clients send are resolved by a table that the configuration
fixes.  Whenever a command runs, directly, from the queue of EXEC or after it
waited, it runs as in an interpreter that is given this table beforehand.
-/

namespace RedVector

open Util Effect Database

section

variable [Platform]

namespace Command

/-! ## The table -/

/-- The name that the configuration gives a word in lower case. -/
def mappedName (config : Config) (word : Bytes) : Option Bytes :=
  match config.renameCommands.lookup word with
  | some renamed => renamed
  | none => some word

/-- The words of modules. -/
def moduleWord (word : Bytes) : Bool :=
  (text "ft.").isPrefixOf word || (text "bf.").isPrefixOf word

/-- The names with the words of modules exempted. -/
def executedName (config : Config) (word : Bytes) : Option Bytes :=
  if moduleWord word then some word else mappedName config word

/-! ## An interpreter with a table -/

/-- `execute_command` with a table of names.  A word without a name is
refused. -/
def executeNamed (names : Bytes → Option Bytes) (env : Env)
    (exec : Database → Client → Option (Response × Database × Client))
    (command : ParsedCommand) (db : Database) (client : Client) :
    Option Executed :=
  match command.arguments with
  | [] => some ⟨⟨.error .noReply, db, client⟩, true, false⟩
  | word :: _ =>
      if isUtf8 word then
        match names (lowercase word) with
        | none =>
            some ⟨⟨.ok (unknownCommand command.arguments), db, client⟩, true,
              false⟩
        | some name =>
            let known := CommandName.ofBytes name
            let write := !(commandProperties name).isReadonly
            match route known command db client with
            | .answered reply client =>
                some ⟨⟨.ok reply, db, client⟩, true, write⟩
            | .exec client =>
                (exec db client).map fun (reply, db, client) =>
                  ⟨⟨.ok reply, db, client⟩, true, write⟩
            | .dispatched client =>
                (dispatch env name write command db client).map
                  fun outcome =>
                    ⟨outcome, !decide (known = some .monitor), write⟩
      else some ⟨⟨.ok (.fail "Invalid command"), db, client⟩, true, false⟩

/-- `command` with a table of names, which the queue of EXEC uses as well. -/
def commandNamedAt (names : Bytes → Option Bytes) :
    Nat → World → ParsedCommand → Database → Client → Option Outcome
  | 0, _, _, _, _ => none
  | depth + 1, world, command, db, client =>
      (executeNamed names world.here
        (exec fun position =>
          commandNamedAt names depth (world.queued position))
        command db client).map (logged world.here command)

def commandNamed (names : Bytes → Option Bytes) (world : World)
    (command : ParsedCommand) (db : Database) (client : Client) :
    Option Outcome :=
  commandNamedAt names (client.multiCommands.length + 1) world command db
    client

/-! ## The server uses the table -/

theorem mappedCommand_eq
    {config : Config} {db : Database}
    (fixed : Config.SameFixed config db.config) (word : Bytes) :
    db.mappedCommand word = mappedName config word := by
  rw [mappedName, ← fixed.renameCommands]
  rfl

/-- What is resolved for a word that is there. -/
theorem commandName_cons
    {config : Config} {db : Database}
    (fixed : Config.SameFixed config db.config) (word : Bytes)
    (rest : List Bytes) :
    commandName db (word :: rest) =
      if isUtf8 word then
        match executedName config (lowercase word) with
        | none => .error (unknownCommand (word :: rest))
        | some name => .ok name
      else .error (.fail "Invalid command") := by
  have read : Arguments.getStr (word :: rest) 0 =
      if isUtf8 word then .ok word else .error .invalidArgument := rfl
  unfold commandName
  rw [read]
  cases isUtf8 word with
  | false => rfl
  | true =>
      simp only [if_true, bind, Except.bind, tryValidate]
      unfold executedName moduleWord
      split
      · rfl
      · rw [mappedCommand_eq fixed]
        cases mappedName config (lowercase word) with
        | none => rfl
        | some name => rfl

theorem executeCommand_named
    {config : Config} {db : Database} (env : Env)
    (fixed : Config.SameFixed config db.config)
    (exec : Database → Client → Option (Response × Database × Client))
    (command : ParsedCommand) (client : Client) :
    executeCommand env exec command db client =
      executeNamed (executedName config) env exec command db client := by
  unfold executeCommand executeNamed
  cases arguments : command.arguments with
  | nil => rfl
  | cons word rest =>
      simp only [List.isEmpty_cons, Bool.false_eq_true, if_false,
        commandName_cons fixed]
      cases isUtf8 word with
      | false => rfl
      | true =>
          cases executedName config (lowercase word) with
          | none => rfl
          | some name => rfl

/-- Queues that are run in the same way give the same result. -/
theorem execAll_congr
    {run other : Nat → ParsedCommand → Database → Client → Option Outcome}
    {holds : Database → Client → Prop}
    (same : ∀ position command db client, holds db client →
      run position command db client = other position command db client)
    (kept : ∀ position command db client outcome, holds db client →
      run position command db client = some outcome →
      holds outcome.db outcome.client)
    (queue : List ParsedCommand) (position : Nat) (db : Database)
    (client : Client) (start : holds db client) :
    execAll run position queue db client =
      execAll other position queue db client := by
  induction queue generalizing position db client with
  | nil => rfl
  | cons command rest ih =>
      simp only [execAll]
      rw [← same position command db client start]
      cases ran : run position command db client with
      | none => rfl
      | some outcome =>
          simp only [Option.bind_eq_bind, Option.bind_some]
          cases outcome.answer with
          | error error => rfl
          | ok reply =>
              have next := kept position command db client outcome start ran
              rw [ih (position + 1) outcome.db outcome.client next]

theorem exec_congr
    {run other : Nat → ParsedCommand → Database → Client → Option Outcome}
    {holds : Database → Client → Prop}
    (same : ∀ position command db client, holds db client →
      run position command db client = other position command db client)
    (kept : ∀ position command db client outcome, holds db client →
      run position command db client = some outcome →
      holds outcome.db outcome.client)
    {db : Database} {client : Client}
    (start : holds db (started db client)) :
    exec run db client = exec other db client := by
  have queue := execAll_congr same kept client.multiCommands 0 db
    (started db client) start
  unfold started at queue
  unfold exec
  dsimp only
  rw [queue]

/-- At every depth of EXEC the commands run under the names of the table. -/
theorem commandAt_named
    {config : Config} (depth : Nat) (world : World) (command : ParsedCommand)
    {db : Database} {client : Client} (well : QueuedWell config db client) :
    commandAt depth world command db client =
      commandNamedAt (executedName config) depth world command db client := by
  induction depth generalizing world command db client with
  | zero => rfl
  | succ depth ih =>
      unfold commandAt commandNamedAt
      congr 1
      rw [executeCommand_named world.here well.1]
      unfold executeNamed
      cases command.arguments with
      | nil => rfl
      | cons word rest =>
          dsimp only
          split
          · split
            · rfl
            · split
              · rfl
              · rename_i between routed
                have queued : QueuedWell config db (started db between) := by
                  obtain ⟨-, rfl⟩ := route_exec routed
                  exact (queuedWell_keeps config).started
                    ((queuedWell_keeps config).admitted well)
                have same : exec (fun position =>
                    commandAt depth (world.queued position)) db between =
                    exec (fun position =>
                      commandNamedAt (executedName config) depth
                        (world.queued position)) db between := by
                  apply exec_congr ?_ ?_ queued
                  · intro position command db client held
                    exact ih (world.queued position) command held
                  · intro position command db client outcome held ran
                    exact commandAt_preserves (queuedWell_keeps config) held
                      ran
                rw [same]
              · rfl
          · rfl

/-! ## Words without a name -/

/-- A command is refused: it gets an error for a reply and nothing else happens,
apart from what the logs of the server note. -/
def Refused (run : Option Outcome) (argv : Arguments) (db : Database)
    (client : Client) : Prop :=
  ∃ outcome, run = some outcome ∧
    outcome.answer = .ok (unknownCommand argv) ∧
    outcome.client = client ∧ Noted db outcome.db

theorem commandNamedAt_refused
    {names : Bytes → Option Bytes} (depth : Nat) (world : World)
    {command : ParsedCommand} (db : Database) (client : Client)
    {word : Bytes} {rest : List Bytes}
    (arguments : command.arguments = word :: rest)
    (utf8 : isUtf8 word = true) (disabled : names (lowercase word) = none) :
    Refused (commandNamedAt names (depth + 1) world command db client)
      command.arguments db client := by
  have executes : executeNamed names world.here
      (exec fun position =>
        commandNamedAt names depth (world.queued position))
      command db client = some ⟨⟨.ok (unknownCommand command.arguments), db,
        client⟩, true, false⟩ := by
    unfold executeNamed
    rw [arguments]
    simp only [utf8, disabled, if_true]
  obtain ⟨noted, -, sameAnswer, sameClient⟩ := logged_noted world.here command
    ⟨⟨.ok (unknownCommand command.arguments), db, client⟩, true, false⟩
  unfold commandNamedAt
  rw [executes]
  exact ⟨_, rfl, sameAnswer, sameClient, noted⟩

/-- A command that waited runs again under the same word. -/
theorem reissued_word
    {depth : Nat} {world : World} {command reissued : ParsedCommand}
    {db : Database} {client : Client} {outcome : Outcome} {wait : Wait}
    {now : Int}
    (ran : commandAt depth world command db client = some outcome)
    (waits : outcome.answer = .error (.wait wait))
    (again : wait.reissued now = some reissued) :
    reissued.arguments.head? = command.arguments.head? := by
  have waited := command_waits ran waits
  unfold Wait.reissued at again
  obtain ⟨timeout, -, again⟩ := Option.bind_eq_some_iff.mp again
  cases again
  rw [Wait.ownedCommand_arguments, waited.arguments]
  have several := waited.several
  cases shape : command.arguments with
  | nil =>
      rw [shape] at several
      cases several
  | cons word rest =>
      cases rest with
      | nil =>
          rw [shape] at several
          exact absurd several (by simp)
      | cons second others => rfl

end Command

open Command

namespace Server

/-- In every run of a server every command runs under the name that the table
of its configuration has for its word, here and in the queue of EXEC; a word
without a name is refused at every depth; and a command that waited is run
again under the same word. -/
theorem renaming_enforced
    {config : Config} {aof : Option Bytes} {requests : List Request}
    {server : Server}
    (run : Runs AnyStep (start config aof) requests server)
    (request : Request) :
    RedVector.command request.world request.command server.db
        (server.clients request.client) =
      commandNamed (executedName config) request.world request.command
        server.db (server.clients request.client) ∧
    (∀ depth world command db client word rest,
      command.arguments = word :: rest → isUtf8 word = true →
      moduleWord (lowercase word) = false →
      mappedName config (lowercase word) = none →
      Refused (commandNamedAt (executedName config) (depth + 1) world command
        db client) command.arguments db client) ∧
    ∀ outcome wait now reissued,
      RedVector.command request.world request.command server.db
        (server.clients request.client) = some outcome →
      outcome.answer = .error (.wait wait) →
      wait.reissued now = some reissued →
      reissued.arguments.head? = request.command.arguments.head? := by
  refine ⟨?_, ?_, ?_⟩
  · exact commandAt_named _ request.world request.command
      (queued_well run request.client)
  · intro depth world command db client word rest arguments utf8 plain
      disabled
    refine commandNamedAt_refused depth world db client arguments utf8 ?_
    unfold executedName
    rw [plain]
    exact disabled
  · intro outcome wait now reissued ran waits again
    exact reissued_word ran waits again

end Server

end

section

attribute [local instance] Platform.integral

open Command

namespace Server

/-- A configuration in which a word is disabled. -/
def disabling (word : String) : Config :=
  { renameCommands := (∅ : HashMap Bytes (Option Bytes)).insert (text word)
      none }

/-- A disabled BF.ADD is executed, and the slow log keeps a disabled GET. -/
theorem renaming_not_enforced :
    (¬∀ (config : Config) (aof : Option Bytes) (requests : List Request)
      (server : Server),
      Runs AnyStep (start config aof) requests server →
      ∀ request : Request,
        RedVector.command request.world request.command server.db
          (server.clients request.client) =
        commandNamed (mappedName config) request.world request.command
          server.db (server.clients request.client)) ∧
    ¬∀ (config : Config) (aof : Option Bytes) (requests : List Request)
      (server : Server),
      Runs AnyStep (start config aof) requests server →
      ∀ (request : Request) (word : Bytes) (rest : List Bytes)
        (outcome : Outcome),
        request.command.arguments = word :: rest → isUtf8 word = true →
        mappedName config (lowercase word) = none →
        RedVector.command request.world request.command server.db
          (server.clients request.client) = some outcome →
        outcome.db = server.db := by
  constructor
  · intro enforced
    have same := enforced (disabling "bf.add") none [] _ (.done _)
      (.still 0 0 [text "BF.ADD", text "f", text "a"]
        ⟨by decide, by decide⟩)
    have added : (RedVector.command (fun _ => .still 0)
        (.encoded [text "BF.ADD", text "f", text "a"] []
          ⟨by decide, by decide⟩) (.new (disabling "bf.add") none)
        (.new 0)).map Outcome.answer = some (.ok (.integer 1)) := by
      rfl
    have refused : (commandNamed (mappedName (disabling "bf.add"))
        (fun _ => .still 0)
        (.encoded [text "BF.ADD", text "f", text "a"] []
          ⟨by decide, by decide⟩) (.new (disabling "bf.add") none)
        (.new 0)).map Outcome.answer =
          some (.ok (unknownCommand
            [text "BF.ADD", text "f", text "a"])) := by
      rfl
    have same := (congrArg (Option.map Outcome.answer) same).symm
    cases (refused.symm.trans same).trans added
  · intro untouched
    have noted : (RedVector.command
        (fun _ => { Env.still 0 with duration := 10000 })
        (.encoded [text "GET", text "k"] [] ⟨by decide, by decide⟩)
        (.new (disabling "get") none) (.new 0)).map
          (fun outcome => outcome.db.slowlog.length) = some 1 := by
      rfl
    obtain ⟨outcome, ran, longer⟩ := Option.map_eq_some_iff.mp noted
    have same := untouched (disabling "get") none [] _ (.done _)
      ⟨fun _ => { Env.still 0 with duration := 10000 }, 0,
        .encoded [text "GET", text "k"] [] ⟨by decide, by decide⟩⟩
      (text "GET") [text "k"] outcome rfl rfl rfl ran
    rw [same] at longer
    cases longer

/-- A disabled GET is refused. -/
theorem renaming_enforced_get :
    Refused (commandNamedAt (executedName (disabling "get")) 1
      (fun _ => .still 0)
      (.encoded [text "GET", text "k"] [] ⟨by decide, by decide⟩)
      (.new (disabling "get") none) (.new 0))
      [text "GET", text "k"] (.new (disabling "get") none) (.new 0) :=
  (renaming_enforced (.done (start (disabling "get") none))
    (.still 0 0 [text "GET", text "k"] ⟨by decide, by decide⟩)).2.1 0
    (fun _ => .still 0)
    (.encoded [text "GET", text "k"] [] ⟨by decide, by decide⟩) _ _
    (text "GET") [text "k"] rfl rfl rfl rfl

end Server

end

end RedVector
