import RedVector.Command.Along
import RedVector.Server.Server

/-!
# Which commands reach the append only file

A command is written to the file after it was executed, if its flags lack
READONLY.  What was executed is recorded where a command reaches its handler,
so the two records can be compared.
-/

namespace RedVector

open Util Effect

section

variable [Platform]

namespace Database

/-- The commands in the append only file, with their databases. -/
def written (db : Database) : List (Nat × ParsedCommand) :=
  match db.aof with
  | some aof => aof.written
  | none => []

end Database

/-- The commands of a record whose flags lack READONLY. -/
def writesOf (dispatched : List Dispatched) : List (Nat × ParsedCommand) :=
  (dispatched.filter Dispatched.write).map fun one =>
    (one.dbindex, one.command)

omit [Platform] in
@[simp] theorem writesOf_nil : writesOf [] = [] :=
  rfl

omit [Platform] in
theorem writesOf_append (first second : List Dispatched) :
    writesOf (first ++ second) = writesOf first ++ writesOf second := by
  simp [writesOf]

/-- Between the two states the file got exactly the writing commands that
reached their handler, in order. -/
def LogsDispatched (before after : Database) : Prop :=
  ∃ dispatched, after.dispatched = before.dispatched ++ dispatched ∧
    after.written = before.written ++ writesOf dispatched

/-- It got at least as many commands as reached their handler. -/
def LogsEnough (before after : Database) : Prop :=
  ∃ dispatched logged, after.dispatched = before.dispatched ++ dispatched ∧
    after.aof.isSome = true ∧ after.written = before.written ++ logged ∧
    (writesOf dispatched).length ≤ logged.length

namespace LogsEnough

theorem refl {db : Database} (enabled : db.aof.isSome = true) :
    LogsEnough db db :=
  ⟨[], [], by simp, enabled, by simp, by simp⟩

theorem trans {before between after : Database}
    (first : LogsEnough before between)
    (second : LogsEnough between after) :
    LogsEnough before after := by
  obtain ⟨firstDispatched, firstLogged, dispatched, -, logged, enough⟩ :=
    first
  obtain ⟨secondDispatched, secondLogged, dispatched', enabled, logged',
    enough'⟩ := second
  refine ⟨firstDispatched ++ secondDispatched, firstLogged ++ secondLogged,
    ?_, enabled, ?_, ?_⟩
  · rw [dispatched', dispatched, List.append_assoc]
  · rw [logged', logged, List.append_assoc]
  · rw [writesOf_append, List.length_append, List.length_append]
    omega

end LogsEnough

theorem LogsDispatched.enough {before after : Database}
    (enabled : after.aof.isSome = true)
    (exactly : LogsDispatched before after) : LogsEnough before after := by
  obtain ⟨dispatched, sameDispatched, sameWritten⟩ := exactly
  exact ⟨dispatched, _, sameDispatched, enabled, sameWritten, le_refl _⟩

namespace Command

/-- The name of a command passes the gates to its handler: the client is
authenticated and not inside MULTI, and the command is not EXEC. -/
def passes (db : Database) (client : Client) (name : Bytes) : Prop :=
  (admitted db client).auth = true ∧ client.multi = false ∧
    CommandName.ofBytes name ≠ some .exec

/-- The write flag of a command is only set if it passes the gates. -/
def Straight (db : Database) (client : Client) (command : ParsedCommand) :
    Prop :=
  ∀ name, command.arguments ≠ [] →
    commandName db command.arguments = .ok name →
    writeFlag name = true → passes db client name

omit [Platform] in
/-- The commands that a gate answers whatever the state are READONLY. -/
theorem gates_readonly
    {name : Bytes} {known : CommandName}
    (found : CommandName.ofBytes name = some known)
    (gate : known = .auth ∨ known = .multi ∨ known = .discard ∨
      known = .select ∨ known = .watch ∨ known = .unwatch ∨
      known = .monitor) :
    writeFlag name = false := by
  unfold writeFlag commandProperties
  rw [found]
  obtain rfl | rfl | rfl | rfl | rfl | rfl | rfl := gate
  all_goals rfl

/-- Where a command with the write flag goes. -/
theorem route_write
    (db : Database) (client : Client) (command : ParsedCommand)
    {name : Bytes} (write : writeFlag name = true) :
    (passes db client name ∧
      route (CommandName.ofBytes name) command db client =
        .dispatched (admitted db client)) ∨
    (¬passes db client name ∧
      ((∃ reply after,
        route (CommandName.ofBytes name) command db client =
          .answered reply after) ∨
       route (CommandName.ofBytes name) command db client =
          .exec (admitted db client))) := by
  have notGate : ∀ known, (known = CommandName.auth ∨ known = .multi ∨
      known = .discard ∨ known = .select ∨ known = .watch ∨
      known = .unwatch ∨ known = .monitor) →
      CommandName.ofBytes name ≠ some known := by
    intro known gate found
    rw [gates_readonly found gate] at write
    cases write
  have auth := notGate .auth (by simp)
  have multi := notGate .multi (by simp)
  have discard := notGate .discard (by simp)
  have select := notGate .select (by simp)
  have watch := notGate .watch (by simp)
  have unwatch := notGate .unwatch (by simp)
  unfold route passes
  simp only [auth, multi, discard, select, watch, unwatch, if_false,
    or_self, (admitted_multi db client).1]
  by_cases authenticated : (admitted db client).auth = true
  · by_cases exec : CommandName.ofBytes name = some .exec
    · simp [authenticated, exec]
    · by_cases inMulti : client.multi = true
      · simp [authenticated, exec, inMulti]
      · simp [authenticated, exec, inMulti]
  · simp [authenticated]

/-! ## What a command adds to the records -/

theorem exec_logsEnough
    {run : Nat → ParsedCommand → Database → Client → Option Outcome}
    (each : ∀ {position command db client outcome},
      run position command db client = some outcome →
      db.aof.isSome = true → LogsEnough db outcome.db)
    {db afterDb : Database} {client after : Client} {reply : Response}
    (ran : exec run db client = some (reply, afterDb, after))
    (enabled : db.aof.isSome = true) :
    LogsEnough db afterDb := by
  refine @exec_keeps _ run (fun _ _ _ _ => True)
    (fun between _ => LogsEnough db between) ?_ (fun held => held) db
    afterDb client after reply (.refl enabled)
    (fun _ _ => eachOf_always (fun _ _ _ _ => trivial) _ _ _ _) ran
  intro position command between client outcome held _ first
  obtain ⟨_, _, _, stillEnabled, _, _⟩ := id held
  exact held.trans (each first stillEnabled)

/-- What the log of a command that returned adds to the file. -/
def appended (command : ParsedCommand) (executed : Executed) :
    List (Nat × ParsedCommand) :=
  if executed.log && executed.write then
    [(executed.client.dbindex, command)]
  else []

theorem logged_written
    (env : Env) (command : ParsedCommand) (executed : Executed)
    (enabled : executed.db.aof.isSome = true) :
    (logged env command executed).db.aof.isSome = true ∧
      (logged env command executed).db.dispatched =
        executed.db.dispatched ∧
      (logged env command executed).db.written =
        executed.db.written ++ appended command executed := by
  obtain ⟨noted, aof, -, -⟩ := logged_noted env command executed
  obtain ⟨file, found⟩ := Option.isSome_iff_exists.mp enabled
  refine ⟨?_, noted.dispatched, ?_⟩
  · rw [aof, loggedAof]
    split
    · simpa using enabled
    · exact enabled
  · unfold Database.written
    rw [aof, loggedAof, appended, found]
    cases executed.log && executed.write with
    | true => rfl
    | false => simp

/-- Every command that is dispatched with the flag is logged as such. -/
theorem dispatched_logged
    {env : Env} {name : Bytes} {command : ParsedCommand} {db : Database}
    {client : Client} {outcome : Outcome}
    (ran : dispatch env name (writeFlag name) command db client =
      some outcome)
    (enabled : db.aof.isSome = true) :
    let executed : Executed :=
      ⟨outcome, !decide (CommandName.ofBytes name = some .monitor),
        writeFlag name⟩
    (logged env command executed).db.aof.isSome = true ∧
      LogsDispatched db (logged env command executed).db := by
  obtain ⟨-, -, aof, dispatched, kept⟩ := dispatch_recorded ran
  have stillEnabled : outcome.db.aof.isSome = true := by
    rw [aof]
    exact enabled
  obtain ⟨finally', same, written⟩ := logged_written env command
    ⟨outcome, !decide (CommandName.ofBytes name = some .monitor),
      writeFlag name⟩ stillEnabled
  refine ⟨finally', [⟨client.dbindex, command, writeFlag name⟩],
    same.trans dispatched, written.trans ?_⟩
  have sameWritten : outcome.db.written = db.written := by
    unfold Database.written
    rw [aof]
  rw [sameWritten]
  unfold appended
  dsimp only
  rw [kept.dbindex]
  cases flag : writeFlag name with
  | false => simp [writesOf]
  | true =>
      have notMonitor : CommandName.ofBytes name ≠ some .monitor := by
        intro found
        rw [gates_readonly found (by simp)] at flag
        cases flag
      simp [writesOf, notMonitor]

/-- A command that did not pass the gates and is logged all the same. -/
private theorem logsEnough_snoc
    {env : Env} {command : ParsedCommand} {db : Database}
    {executed : Executed}
    (enough : LogsEnough db executed.db) :
    LogsEnough db (logged env command executed).db := by
  obtain ⟨dispatched, others, sameDispatched, enabled, sameWritten, few⟩ :=
    enough
  obtain ⟨stillEnabled, same, written⟩ :=
    logged_written env command executed enabled
  refine ⟨dispatched, others ++ appended command executed,
    same.trans sameDispatched, stillEnabled, ?_, ?_⟩
  · rw [written, sameWritten, List.append_assoc]
  · rw [List.length_append]
    omega

/-- No command is lost: what is dispatched with the flag is logged, at any
depth of EXEC. -/
theorem commandAt_logsEnough
    {depth : Nat} {world : World} {command : ParsedCommand}
    {db : Database} {client : Client} {outcome : Outcome}
    (ran : commandAt depth world command db client = some outcome)
    (enabled : db.aof.isSome = true) :
    LogsEnough db outcome.db := by
  induction depth generalizing world command db client outcome with
  | zero => cases ran
  | succ depth ih =>
      obtain ⟨executed, executes, rfl⟩ := Option.map_eq_some_iff.mp ran
      cases executeCommand_executes executes with
      | empty nothing => exact logsEnough_snoc (.refl enabled)
      | unnamed something refused => exact logsEnough_snoc (.refl enabled)
      | answered something named routed =>
          exact logsEnough_snoc (.refl enabled)
      | exec something named routed execRan =>
          exact logsEnough_snoc
            (exec_logsEnough (fun ran enabled => ih ran enabled) execRan
              enabled)
      | dispatched something named routed dispatchRan =>
          obtain ⟨stillEnabled, exactly⟩ :=
            dispatched_logged dispatchRan enabled
          exact exactly.enough stillEnabled

/-- A command that is logged without being dispatched logs too much. -/
private theorem not_logsDispatched
    {env : Env} {command : ParsedCommand} {db : Database}
    {executed : Executed} (enough : LogsEnough db executed.db)
    (logs : executed.log = true) (writes : executed.write = true) :
    ¬LogsDispatched db (logged env command executed).db := by
  obtain ⟨dispatched, others, sameDispatched, enabled, sameWritten, few⟩ :=
    enough
  obtain ⟨-, same, written⟩ := logged_written env command executed enabled
  rintro ⟨other, otherDispatched, otherWritten⟩
  have sameRecord : other = dispatched := by
    rw [same, sameDispatched] at otherDispatched
    exact (List.append_cancel_left otherDispatched).symm
  subst sameRecord
  rw [written, sameWritten, List.append_assoc] at otherWritten
  have lengths := congrArg List.length
    (List.append_cancel_left otherWritten)
  simp only [appended, logs, writes, Bool.and_self, if_true,
    List.length_append, List.length_singleton] at lengths
  omega

/-- A command without the flag adds nothing to the file unless it is
dispatched. -/
private theorem unflagged_logsDispatched
    {env : Env} {command : ParsedCommand} {db : Database}
    {executed : Executed} (enabled : db.aof.isSome = true)
    (same : executed.db = db) (reads : executed.write = false) :
    LogsDispatched db (logged env command executed).db := by
  have enabled' : executed.db.aof.isSome = true := by
    rw [same]
    exact enabled
  obtain ⟨-, dispatched, written⟩ :=
    logged_written env command executed enabled'
  refine ⟨[], by simp [dispatched, same], ?_⟩
  simp [written, appended, reads, same]

end Command

open Command

/-- The file gets what was dispatched with the flag, once and in order, for
exactly the commands whose flag is not set or which pass the gates. -/
theorem command_logs_iff
    {world : World} {request : ParsedCommand} {db : Database}
    {client : Client} {outcome : Outcome}
    (enabled : db.aof.isSome = true)
    (ran : command world request db client = some outcome) :
    LogsDispatched db outcome.db ↔ Straight db client request := by
  obtain ⟨executed, executes, rfl⟩ := Option.map_eq_some_iff.mp ran
  cases executeCommand_executes executes with
  | empty nothing =>
      refine iff_of_true (unflagged_logsDispatched enabled rfl rfl) ?_
      intro name something
      exact absurd nothing something
  | unnamed something refused =>
      refine iff_of_true (unflagged_logsDispatched enabled rfl rfl) ?_
      intro name _ named
      rw [refused] at named
      cases named
  | @answered name reply after something named routed =>
      cases flag : writeFlag name with
      | false =>
          refine iff_of_true (unflagged_logsDispatched enabled rfl rfl) ?_
          intro other _ otherNamed write
          cases named.symm.trans otherNamed
          rw [flag] at write
          cases write
      | true =>
          refine iff_of_false
            (not_logsDispatched (.refl enabled) rfl rfl) ?_
          intro straight
          have through := straight name something named flag
          obtain ⟨-, direct⟩ | ⟨blocked, -⟩ :=
            route_write db client request flag
          · rw [direct] at routed
            cases routed
          · exact blocked through
  | @exec name reply between after afterDb something named routed execRan =>
      obtain ⟨known, rfl⟩ := route_exec routed
      have flag : writeFlag name = true := by
        unfold writeFlag commandProperties
        rw [known]
        rfl
      have enough : LogsEnough db afterDb :=
        exec_logsEnough
          (fun ran enabled => commandAt_logsEnough ran enabled) execRan
          enabled
      refine iff_of_false (not_logsDispatched enough rfl flag) ?_
      intro straight
      exact (straight name something named flag).2.2 known
  | @dispatched name between outcome something named routed dispatchRan =>
      refine iff_of_true (dispatched_logged dispatchRan enabled).2 ?_
      intro other _ otherNamed write
      cases named.symm.trans otherNamed
      obtain ⟨through, -⟩ | ⟨-, away⟩ :=
        route_write db client request write
      · exact through
      · rw [routed] at away
        obtain ⟨_, _, wrong⟩ | wrong := away
        · cases wrong
        · cases wrong

theorem command_aof_isSome
    {world : World} {request : ParsedCommand} {db : Database}
    {client : Client} {outcome : Outcome}
    (enabled : db.aof.isSome = true)
    (ran : command world request db client = some outcome) :
    outcome.db.aof.isSome = true := by
  obtain ⟨_, _, _, stillEnabled, _, _⟩ := commandAt_logsEnough ran enabled
  exact stillEnabled

namespace Server

/-- The steps whose command has no write flag or passes the gates. -/
def LoggedStraight (request : Request) (server : Server) : Prop :=
  Straight server.db (server.clients request.client) request.command

/-- In every run of such steps the file holds, in order and each once, the
commands that reached their handler and whose flags lack READONLY. -/
theorem written_eq_writes
    {config : Config} {contents : Bytes} {requests : List Request}
    {after : Server}
    (run : Runs (Steps LoggedStraight) (start config (some contents))
      requests after) :
    after.db.written = writesOf after.db.dispatched := by
  have holds : after.db.aof.isSome = true ∧
      after.db.written = writesOf after.db.dispatched := by
    refine run.invariant (fun server => server.db.aof.isSome = true ∧
        server.db.written = writesOf server.db.dispatched) ?_ ⟨rfl, rfl⟩
    rintro server request result ⟨enabled, agrees⟩ ⟨straight, answer, ran⟩
    obtain ⟨outcome, commandRan, -, rfl⟩ := step_eq_some.mp ran
    obtain ⟨dispatched, sameDispatched, sameWritten⟩ :=
      (command_logs_iff enabled commandRan).mpr straight
    refine ⟨command_aof_isSome enabled commandRan, ?_⟩
    dsimp only
    rw [sameDispatched, sameWritten, agrees, writesOf_append]
  exact holds.2

end Server

end

/-! ## SET with and without a password -/

section

attribute [local instance] Platform.integral

/-- SET of one key by the first client. -/
noncomputable def setRequest : Request :=
  .still 0 0 [text "SET", text "k", text "v"] Request.set_withinLimits

/-- With a password the same SET is refused and written all the same. -/
theorem Server.written_ne_writes :
    ¬∀ (config : Config) (contents : Bytes) (requests : List Request)
      (after : Server),
      Runs AnyStep (start config (some contents)) requests after →
        after.db.written = writesOf after.db.dispatched := by
  intro always
  let guarded : Config := { requirepass := some (text "secret") }
  obtain ⟨⟨answer, after⟩, ran⟩ := Option.isSome_iff_exists.mp
    (show ((start guarded (some [])).step setRequest).isSome = true from
      by decide)
  have agrees := always guarded [] [setRequest] after
    (.next ⟨trivial, answer, ran⟩ (.done after))
  have counts : ((start guarded (some [])).step setRequest).map
      (fun result => (result.2.db.written.length,
        (writesOf result.2.db.dispatched).length)) = some (1, 0) := by
    decide
  rw [ran] at counts
  simp only [Option.map_some, Option.some.injEq, Prod.mk.injEq] at counts
  rw [agrees, counts.2] at counts
  exact absurd counts.1 (by decide)

/-- Without a password it is executed and written. -/
theorem Server.set_written :
    ∃ after, Runs (Steps LoggedStraight) (start {} (some [])) [setRequest]
        after ∧
      after.db.written = writesOf after.db.dispatched ∧
      after.db.written.length = 1 := by
  obtain ⟨⟨answer, after⟩, ran⟩ := Option.isSome_iff_exists.mp
    (show ((start {} (some [])).step setRequest).isSome = true from
      by decide)
  have straight : LoggedStraight setRequest (start {} (some [])) := by
    intro name _ named _
    have isSet : Command.commandName (start {} (some [])).db
        setRequest.command.arguments = .ok (text "set") := by
      rfl
    cases isSet.symm.trans named
    exact ⟨by decide, rfl, by decide⟩
  have run : Runs (Steps LoggedStraight) (start {} (some [])) [setRequest]
      after := .next ⟨straight, answer, ran⟩ (.done after)
  have count : ((start {} (some [])).step setRequest).map
      (fun result => result.2.db.written.length) = some 1 := by
    decide
  rw [ran] at count
  exact ⟨after, run, written_eq_writes run, Option.some.inj count⟩

end

end RedVector
