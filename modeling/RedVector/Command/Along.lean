import RedVector.Command.Effects

/-!
# The handlers that a command reaches

A command reaches at most one handler, and EXEC those of its queue.  A
property that every gate, every log and every allowed handler keeps is kept by
every command that only reaches allowed handlers.
-/

namespace RedVector.Command

open Util Effect

variable [Platform]

/-- A condition on a command where it reaches its handler: the environment,
the name, the command, and the states before it. -/
abbrev Allowed :=
  Env → Bytes → ParsedCommand → Database → Client → Prop

/-- Each command of a queue is `allowed` in the state in which it runs. -/
def EachOf (run : Nat → ParsedCommand → Database → Client → Option Outcome)
    (allowed : Nat → ParsedCommand → Database → Client → Prop) :
    Nat → List ParsedCommand → Database → Client → Prop
  | _, [], _, _ => True
  | position, command :: rest, db, client =>
      allowed position command db client ∧
        ∀ outcome, run position command db client = some outcome →
          EachOf run allowed (position + 1) rest outcome.db outcome.client

/-- The client with which EXEC runs its queue. -/
def started (db : Database) (client : Client) : Client :=
  (genericUnwatch db { client with multi := false, multiCommands := [] }).2

/-- Whether EXEC finds every key that the client watches as it was. -/
def unmodified (db : Database) (client : Client) : Bool :=
  (genericUnwatch db { client with multi := false, multiCommands := [] }).1

/-- The handlers that the command reaches at a depth of EXEC are allowed. -/
def AlongAt (allowed : Allowed) :
    Nat → World → ParsedCommand → Database → Client → Prop
  | 0, _, _, _, _ => True
  | depth + 1, world, command, db, client =>
      command.arguments ≠ [] →
      match commandName db command.arguments with
      | .error _ => True
      | .ok name =>
          match route (CommandName.ofBytes name) command db client with
          | .answered _ _ => True
          | .exec client =>
              client.multi = true →
              EachOf
                (fun position => commandAt depth (world.queued position))
                (fun position => AlongAt allowed depth
                  (world.queued position))
                0 client.multiCommands db (started db client)
          | .dispatched client => allowed world.here name command db client

/-- The handlers that the command reaches are allowed. -/
def Along (allowed : Allowed) (world : World) (command : ParsedCommand)
    (db : Database) (client : Client) : Prop :=
  AlongAt allowed (client.multiCommands.length + 1) world command db client

/-- What the parts of executing a command keep. -/
structure Keeps (allowed : Allowed) (holds : Database → Client → Prop) :
    Prop where
  answered : ∀ {name : Bytes} {command : ParsedCommand} {db : Database}
    {client after : Client} {reply : Response}, holds db client →
    commandName db command.arguments = .ok name →
    route (CommandName.ofBytes name) command db client =
      .answered reply after →
    holds db after
  admitted : ∀ {db : Database} {client : Client}, holds db client →
    holds db (admitted db client)
  started : ∀ {db : Database} {client : Client}, holds db client →
    holds db (started db client)
  dispatched : ∀ {env : Env} {name : Bytes} {command : ParsedCommand}
    {db : Database} {client between : Client} {outcome : Outcome},
    holds db client →
    commandName db command.arguments = .ok name →
    route (CommandName.ofBytes name) command db client =
      .dispatched between →
    allowed env name command db between →
    dispatch env name (writeFlag name) command db between = some outcome →
    holds outcome.db outcome.client
  logged : ∀ {env : Env} {command : ParsedCommand} {executed : Executed},
    holds executed.db executed.client →
    holds (logged env command executed).db executed.client

section

variable
  {run : Nat → ParsedCommand → Database → Client → Option Outcome}
  {allowed others : Nat → ParsedCommand → Database → Client → Prop}
  {holds : Database → Client → Prop}

/-- Every command reaches allowed handlers if all handlers are. -/
theorem eachOf_always
    (always : ∀ position command db client,
      allowed position command db client)
    (queue : List ParsedCommand) (position : Nat) (db : Database)
    (client : Client) :
    EachOf run allowed position queue db client := by
  induction queue generalizing position db client with
  | nil => exact trivial
  | cons command rest ih =>
      exact ⟨always position command db client,
        fun outcome _ => ih (position + 1) outcome.db outcome.client⟩

theorem execAll_keeps
    (each : ∀ {position command db client outcome}, holds db client →
      allowed position command db client →
      run position command db client = some outcome →
      holds outcome.db outcome.client)
    {queue : List ParsedCommand} {position : Nat} {db afterDb : Database}
    {client after : Client} {replies : List Response}
    (start : holds db client)
    (along : EachOf run allowed position queue db client)
    (ran : execAll run position queue db client =
      some (replies, afterDb, after)) :
    holds afterDb after := by
  induction queue generalizing position db client replies with
  | nil =>
      cases ran
      exact start
  | cons command rest ih =>
      simp only [execAll, Option.bind_eq_bind, Option.bind_eq_some_iff]
        at ran
      obtain ⟨outcome, first, ran⟩ := ran
      split at ran
      · cases ran
      · simp only [Option.bind_eq_some_iff] at ran
        obtain ⟨⟨others, place⟩, ran, finished⟩ := ran
        cases finished
        exact ih (each start along.1 first) (along.2 outcome first) ran

theorem exec_keeps
    (each : ∀ {position command db client outcome}, holds db client →
      allowed position command db client →
      run position command db client = some outcome →
      holds outcome.db outcome.client)
    (clears : ∀ {db client}, holds db client →
      holds db (started db client))
    {db afterDb : Database} {client after : Client} {reply : Response}
    (start : holds db client)
    (along : client.multi = true → unmodified db client = true →
      EachOf run allowed 0 client.multiCommands db (started db client))
    (ran : exec run db client = some (reply, afterDb, after)) :
    holds afterDb after := by
  unfold exec at ran
  split at ran
  · cases ran
    exact start
  · rename_i inMulti
    dsimp only at ran
    split at ran
    · cases ran
      exact clears start
    · rename_i verified
      simp only [Option.bind_eq_bind, Option.bind_eq_some_iff] at ran
      obtain ⟨⟨replies, place⟩, ran, finished⟩ := ran
      cases finished
      exact execAll_keeps each (clears start)
        (along (by simpa using inMulti)
          (by simpa [unmodified] using verified)) ran

theorem eachOf_strengthen
    (keeps : ∀ {position command db client outcome}, holds db client →
      allowed position command db client →
      run position command db client = some outcome →
      holds outcome.db outcome.client)
    (gives : ∀ {position command db client}, holds db client →
      allowed position command db client →
      others position command db client)
    {queue : List ParsedCommand} {position : Nat} {db : Database}
    {client : Client} (start : holds db client)
    (each : EachOf run allowed position queue db client) :
    EachOf run others position queue db client := by
  induction queue generalizing position db client with
  | nil => exact trivial
  | cons command rest ih =>
      exact ⟨gives start each.1, fun outcome ran =>
        ih (keeps start each.1 ran) (each.2 outcome ran)⟩

theorem eachOf_mono
    (weaken : ∀ position command db client,
      allowed position command db client →
        others position command db client)
    {queue : List ParsedCommand} {position : Nat} {db : Database}
    {client : Client} (each : EachOf run allowed position queue db client) :
    EachOf run others position queue db client :=
  @eachOf_strengthen _ _ _ _ (fun _ _ => True) (fun _ _ _ => trivial)
    (fun _ => weaken _ _ _ _) _ _ _ _ trivial each

end

theorem alongAt_always
    {allowed : Allowed}
    (always : ∀ env name command db client,
      allowed env name command db client)
    (depth : Nat) (world : World) (command : ParsedCommand) (db : Database)
    (client : Client) :
    AlongAt allowed depth world command db client := by
  induction depth generalizing world command db client with
  | zero => exact trivial
  | succ depth ih =>
      intro _
      split
      · exact trivial
      · split
        · exact trivial
        · intro _
          exact eachOf_always (fun position => ih (world.queued position))
            _ _ _ _
        · exact always _ _ _ _ _

/-! ## Conditions on all executed commands -/

/-- A condition on a command that is executed: the environment, the command,
and the states before it. -/
abbrev Condition :=
  Env → ParsedCommand → Database → Client → Prop

/-- The command meets the condition, and so do those that EXEC executes. -/
def EachAt (condition : Condition) :
    Nat → World → ParsedCommand → Database → Client → Prop
  | 0, _, _, _, _ => True
  | depth + 1, world, command, db, client =>
      condition world.here command db client ∧ ∀ name after,
        commandName db command.arguments = .ok name →
        route (CommandName.ofBytes name) command db client = .exec after →
        after.multi = true → unmodified db after = true →
          EachOf (fun position => commandAt depth (world.queued position))
            (fun position => EachAt condition depth (world.queued position))
            0 after.multiCommands db (started db after)

/-- Every command that a command executes meets the condition. -/
def Each (condition : Condition) (world : World) (command : ParsedCommand)
    (db : Database) (client : Client) : Prop :=
  EachAt condition (client.multiCommands.length + 1) world command db client

/-- What the parts of executing a command keep if it meets the condition. -/
structure KeepsEach (condition : Condition)
    (holds : Database → Client → Prop) : Prop where
  answered : ∀ {env : Env} {name : Bytes} {command : ParsedCommand}
    {db : Database} {client after : Client} {reply : Response},
    holds db client →
    condition env command db client →
    commandName db command.arguments = .ok name →
    route (CommandName.ofBytes name) command db client =
      .answered reply after →
    holds db after
  admitted : ∀ {db : Database} {client : Client}, holds db client →
    holds db (admitted db client)
  started : ∀ {db : Database} {client : Client}, holds db client →
    holds db (started db client)
  dispatched : ∀ {env : Env} {name : Bytes} {command : ParsedCommand}
    {db : Database} {client between : Client} {outcome : Outcome},
    holds db client →
    condition env command db client →
    commandName db command.arguments = .ok name →
    route (CommandName.ofBytes name) command db client =
      .dispatched between →
    dispatch env name (writeFlag name) command db between = some outcome →
    holds outcome.db outcome.client
  logged : ∀ {env : Env} {command : ParsedCommand} {executed : Executed},
    holds executed.db executed.client →
    holds (logged env command executed).db executed.client

/-- What the parts keep under a condition, a command keeps if all commands
that it executes meet the condition. -/
theorem commandAt_keepsEach
    {condition : Condition} {holds : Database → Client → Prop}
    (keeps : KeepsEach condition holds) {depth : Nat} {world : World}
    {command : ParsedCommand} {db : Database} {client : Client}
    {outcome : Outcome} (start : holds db client)
    (each : EachAt condition depth world command db client)
    (ran : commandAt depth world command db client = some outcome) :
    holds outcome.db outcome.client := by
  induction depth generalizing world command db client outcome with
  | zero => cases ran
  | succ depth ih =>
      obtain ⟨executed, executes, rfl⟩ := Option.map_eq_some_iff.mp ran
      have sameClient :=
        (logged_noted world.here command executed).2.2.2
      rw [sameClient]
      apply keeps.logged
      obtain ⟨meets, inside⟩ := each
      cases executeCommand_executes executes with
      | empty nothing => exact start
      | unnamed something refused => exact start
      | answered something named routed =>
          exact keeps.answered start meets named routed
      | exec something named routed execRan =>
          obtain ⟨-, rfl⟩ := route_exec routed
          exact exec_keeps (fun held each ran => ih held each ran)
            keeps.started (keeps.admitted start) (inside _ _ named routed)
            execRan
      | dispatched something named routed dispatchRan =>
          exact keeps.dispatched start meets named routed dispatchRan

/-- What is kept under a condition is kept under a stronger one. -/
theorem KeepsEach.mono
    {condition stronger : Condition} {holds : Database → Client → Prop}
    (keeps : KeepsEach condition holds)
    (weaken : ∀ {env command db client}, stronger env command db client →
      condition env command db client) : KeepsEach stronger holds where
  answered := fun held meets => keeps.answered held (weaken meets)
  admitted := keeps.admitted
  started := keeps.started
  dispatched := fun held meets => keeps.dispatched held (weaken meets)
  logged := keeps.logged

/-- Where a property is kept, the conditions that follow from it hold of all
commands that are executed. -/
theorem eachAt_strengthen
    {condition other : Condition} {holds : Database → Client → Prop}
    (keeps : KeepsEach condition holds)
    (gives : ∀ {env command db client}, holds db client →
      condition env command db client → other env command db client)
    {depth : Nat} {world : World} {command : ParsedCommand} {db : Database}
    {client : Client} (start : holds db client)
    (each : EachAt condition depth world command db client) :
    EachAt other depth world command db client := by
  induction depth generalizing world command db client with
  | zero => exact trivial
  | succ depth ih =>
      refine ⟨gives start each.1, ?_⟩
      intro name after named routed inMulti same
      obtain ⟨-, rfl⟩ := route_exec routed
      exact eachOf_strengthen
        (fun held each ran => commandAt_keepsEach keeps held each ran)
        (fun held each => ih held each)
        (keeps.started (keeps.admitted start))
        (each.2 name _ named routed inMulti same)

/-- Allowed handlers as a condition on the commands. -/
def Allows (allowed : Allowed) : Condition :=
  fun env command db client => ∀ name between,
    commandName db command.arguments = .ok name →
    route (CommandName.ofBytes name) command db client =
      .dispatched between →
    allowed env name command db between

/-- A condition that follows from another. -/
theorem eachAt_mono
    {condition other : Condition}
    (weaken : ∀ {env command db client}, condition env command db client →
      other env command db client)
    {depth : Nat} {world : World} {command : ParsedCommand} {db : Database}
    {client : Client}
    (each : EachAt condition depth world command db client) :
    EachAt other depth world command db client := by
  have keeps : KeepsEach condition fun _ _ => True :=
    ⟨fun _ _ _ _ => trivial, fun _ => trivial, fun _ => trivial,
      fun _ _ _ _ _ => trivial, fun _ => trivial⟩
  exact eachAt_strengthen keeps (fun _ => weaken) trivial each

theorem alongAt_eachAt
    {allowed : Allowed} {depth : Nat} {world : World}
    {command : ParsedCommand} {db : Database} {client : Client}
    (along : AlongAt allowed depth world command db client) :
    EachAt (Allows allowed) depth world command db client := by
  induction depth generalizing world command db client with
  | zero => exact trivial
  | succ depth ih =>
      constructor
      · intro name between named routed
        have something : command.arguments ≠ [] := by
          intro nothing
          rw [nothing] at named
          cases named
        have along := along something
        simpa only [named, routed] using along
      · intro name after named routed inMulti _
        have something : command.arguments ≠ [] := by
          intro nothing
          rw [nothing] at named
          cases named
        have along := along something
        simp only [named, routed] at along
        exact eachOf_mono (fun _ _ _ _ => ih) (along inMulti)

/-- What the parts keep, the whole command keeps. -/
theorem commandAt_keeps
    {allowed : Allowed} {holds : Database → Client → Prop}
    (keeps : Keeps allowed holds) {depth : Nat} {world : World}
    {command : ParsedCommand} {db : Database} {client : Client}
    {outcome : Outcome} (start : holds db client)
    (along : AlongAt allowed depth world command db client)
    (ran : commandAt depth world command db client = some outcome) :
    holds outcome.db outcome.client := by
  have each : KeepsEach (Allows allowed) holds :=
    { answered := fun held _ named routed =>
        keeps.answered held named routed
      admitted := keeps.admitted
      started := keeps.started
      dispatched := fun held allows named routed dispatched =>
        keeps.dispatched held named routed (allows _ _ named routed)
          dispatched
      logged := keeps.logged }
  exact commandAt_keepsEach each start (alongAt_eachAt along) ran

/-- What every part keeps, every command keeps. -/
theorem commandAt_preserves
    {holds : Database → Client → Prop}
    (keeps : Keeps (fun _ _ _ _ _ => True) holds) {depth : Nat}
    {world : World} {command : ParsedCommand} {db : Database}
    {client : Client} {outcome : Outcome} (start : holds db client)
    (ran : commandAt depth world command db client = some outcome) :
    holds outcome.db outcome.client :=
  commandAt_keeps keeps start
    (alongAt_always (fun _ _ _ _ _ => trivial) _ _ _ _ _) ran

/-- No command changes the settings that are fixed. -/
theorem commandAt_fixed
    {depth : Nat} {world : World} {command : ParsedCommand} {db : Database}
    {client : Client} {outcome : Outcome}
    (ran : commandAt depth world command db client = some outcome) :
    Config.SameFixed db.config outcome.db.config := by
  have keeps : Keeps (fun _ _ _ _ _ => True)
      (fun after _ => Config.SameFixed db.config after.config) := by
    refine ⟨fun same _ _ => same, fun same => same, fun same => same, ?_, ?_⟩
    · intro env name command db client between outcome same _ _ _ dispatched
      exact same.trans (dispatch_recorded dispatched).1
    · intro env command executed same
      rw [(logged_noted env command executed).1.config]
      exact same
  exact commandAt_preserves keeps (.refl db.config) ran

end RedVector.Command
