import RedVector.Command.Queue
import RedVector.Persistence.Logging

/-!
# Passwords

A server with a password only answers those that gave it.  What the others
send changes neither the keys nor what the server knows of them.
-/

namespace RedVector

open Util Effect

section

variable [Platform]

namespace Command

/-- Nothing but the logs is different. -/
def OnlyLogs (before after : Database) : Prop :=
  after =
    { before with
      aof := after.aof
      sent := after.sent
      monitorSenders := after.monitorSenders
      slowlog := after.slowlog
      slowlogId := after.slowlogId }

theorem logged_onlyLogs
    (env : Env) (command : ParsedCommand) (executed : Executed) :
    OnlyLogs executed.db (logged env command executed).db := by
  unfold OnlyLogs logged
  split
  · unfold Database.logCommand Database.slowlogAdd
    dsimp only
    split
    · split
      · rfl
      · rfl
    · split
      · rfl
      · rfl
  · rfl

/-- AUTH with the password of the server. -/
def Authenticates (db : Database) (argv : Arguments) : Prop :=
  ∃ name password, commandName db argv = .ok name ∧
    CommandName.ofBytes name = some .auth ∧ argv.length = 2 ∧
    argv.getStr 1 = .ok password ∧ db.config.requirepass = some password

/-- Without the password AUTH changes nothing. -/
theorem authenticate_without
    {name : Bytes} {argv : Arguments} {db : Database} {client : Client}
    (named : commandName db argv = .ok name)
    (isAuth : CommandName.ofBytes name = some .auth)
    (without : ¬Authenticates db argv) :
    (authenticate argv db client).2 = client := by
  unfold authenticate
  by_cases two : argv.length = 2
  · cases read : argv.getStr 1 with
    | error error => simp [two, validate, tryValidate, bind, Except.bind]
    | ok password =>
        have wrong : ¬some password = db.config.requirepass := fun right =>
          without ⟨name, password, named, isAuth, two, read, right.symm⟩
        simp only [two, validate, tryValidate, bind, Except.bind,
          decide_true, if_true, if_neg wrong]
        split
        · rfl
        · rfl
  · simp [two, validate, bind, Except.bind]

/-- What a client gets that has not given the password. -/
theorem command_refused
    {world : World} {parsed : ParsedCommand} {db : Database}
    {client : Client} (locked : db.config.requirepass.isSome = true)
    (outsider : client.auth = false)
    (without : ¬Authenticates db parsed.arguments) :
    ∃ outcome, command world parsed db client = some outcome ∧
      outcome.client = client ∧ OnlyLogs db outcome.db ∧
      (parsed.arguments ≠ [] → ∃ reply, outcome.answer = .ok reply) := by
  have inside : admitted db client = client := by
    unfold admitted
    rw [if_neg]
    intro none'
    rw [Option.isNone_iff_eq_none.mp none'] at locked
    cases locked
  -- the command is answered in front of its handler
  have answered : ∃ executed : Executed,
      executeCommand world.here (exec fun position =>
          commandAt client.multiCommands.length (world.queued position))
        parsed db client = some executed ∧
      executed.client = client ∧ executed.db = db ∧
      (parsed.arguments ≠ [] → ∃ reply, executed.answer = .ok reply) := by
    unfold executeCommand
    split
    · rename_i nothing
      exact ⟨_, rfl, rfl, rfl, fun something =>
        absurd (List.isEmpty_iff.mp nothing) something⟩
    cases named : commandName db parsed.arguments with
    | error reply => exact ⟨_, rfl, rfl, rfl, fun _ => ⟨reply, rfl⟩⟩
    | ok name =>
        by_cases auth : CommandName.ofBytes name = some .auth
        · have unchanged : (authenticate parsed.arguments db client).2 =
              client := authenticate_without named auth without
          have routed : route (CommandName.ofBytes name) parsed db client =
              .answered (authenticate parsed.arguments db client).1
                client := by
            unfold route
            simp only [inside, auth, if_true, unchanged]
          dsimp only
          rw [routed]
          exact ⟨_, rfl, rfl, rfl, fun _ => ⟨_, rfl⟩⟩
        · have routed : route (CommandName.ofBytes name) parsed db client =
              .answered (.fail "NOAUTH Authentication required.")
                client := by
            unfold route
            simp only [inside, auth, if_false, outsider, Bool.not_false,
              if_true]
          dsimp only
          rw [routed]
          exact ⟨_, rfl, rfl, rfl, fun _ => ⟨_, rfl⟩⟩
  obtain ⟨executed, executes, sameClient, sameDb, replies⟩ := answered
  obtain ⟨-, -, answer, client'⟩ :=
    logged_noted world.here parsed executed
  refine ⟨logged world.here parsed executed, ?_, ?_, ?_, ?_⟩
  · unfold command
    rw [commandAt, executes]
    rfl
  · rw [client', sameClient]
  · rw [← sameDb]
    exact logged_onlyLogs world.here parsed executed
  · rw [answer]
    exact replies

theorem authenticates_congr
    {db other : Database} {argv : Arguments}
    (same : other.config = db.config) :
    Authenticates other argv ↔ Authenticates db argv := by
  unfold Authenticates
  rw [commandName_congr argv (congrArg Config.renameCommands same), same]

end Command

open Command

namespace Server

/-- The client does not give the password. -/
def Outside (id : Nat) (request : Request) (server : Server) : Prop :=
  request.client = id → ¬Authenticates server.db request.command.arguments

/-- The request is answered, unless it is empty, and changes only the logs. -/
def Refuses (server : Server) (request : Request) : Prop :=
  ∃ answer next, server.step request = some (answer, next) ∧
    next.clients = server.clients ∧ OnlyLogs server.db next.db ∧
    (request.command.arguments ≠ [] → ∃ reply, answer = .ok reply)

/-- One request of the client, where it is as it was. -/
theorem refuses
    {server : Server} {request : Request}
    (locked : server.db.config.requirepass.isSome = true)
    (fresh : server.clients request.client = Client.new request.client)
    (without : ¬Authenticates server.db request.command.arguments) :
    server.Refuses request := by
  have outsider : (server.clients request.client).auth = false := by
    rw [fresh]
    rfl
  obtain ⟨outcome, ran, same, logs, replies⟩ :=
    @command_refused _ request.world _ _ _ locked outsider without
  refine ⟨outcome.answer, _, step_eq_some.mpr ⟨outcome, ran, rfl, rfl⟩, ?_,
    logs, replies⟩
  dsimp only
  rw [same, Function.update_eq_self]

/-- In every run, and whatever the other clients do, a client that does not
give the password is as it was when it connected: none of its commands reaches
a handler, is queued or changes anything but the logs. -/
theorem outside_refused
    {config : Config} {aof : Option Bytes} {requests : List Request}
    {after : Server} {id : Nat}
    (locked : config.requirepass.isSome = true)
    (run : Runs (Steps (Outside id)) (start config aof) requests after) :
    after.clients id = Client.new id ∧
      ∀ request, request.client = id →
        ¬Authenticates after.db request.command.arguments →
        after.Refuses request := by
  have holds : after.db.config.requirepass.isSome = true ∧
      after.clients id = Client.new id := by
    refine run.invariant (fun server =>
      server.db.config.requirepass.isSome = true ∧
        server.clients id = Client.new id) ?_ ⟨locked, rfl⟩
    rintro server request result ⟨stillLocked, fresh⟩
      ⟨outside, answer, ran⟩
    obtain ⟨outcome, commandRan, isAnswer, isResult⟩ := step_eq_some.mp ran
    have fixed := commandAt_fixed commandRan
    have locked' : result.db.config.requirepass.isSome = true := by
      rw [isResult]
      dsimp only
      rw [fixed.requirepass]
      exact stillLocked
    refine ⟨locked', ?_⟩
    by_cases own : request.client = id
    · subst own
      obtain ⟨other, next, stepped, same, -, -⟩ :=
        refuses stillLocked fresh (outside rfl)
      rw [ran] at stepped
      cases stepped
      rw [same, fresh]
    · rw [isResult]
      dsimp only
      rw [Function.update_of_ne (Ne.symm own)]
      exact fresh
  refine ⟨holds.2, ?_⟩
  rintro request rfl without
  exact refuses holds.1 holds.2 without

end Server

end

/-! ## A SET without the password -/

section

attribute [local instance] Platform.integral

open Command

/-- A SET and one more SET of a client that gave no password. -/
theorem Server.outside_refused_set :
    ∃ after, Runs (Steps (Outside 0))
        (start { requirepass := some (text "secret") } none) [setRequest]
        after ∧
      after.clients 0 = Client.new 0 ∧ after.Refuses setRequest := by
  -- it has too many arguments to be AUTH
  have without : ∀ db, ¬Authenticates db setRequest.command.arguments := by
    rintro db ⟨name, password, -, -, two, -⟩
    have three : (setRequest.command.arguments : Arguments).length = 3 := rfl
    rw [three] at two
    exact absurd two (by decide)
  obtain ⟨-, first⟩ := @outside_refused _ _ none _ _ 0 rfl
    (.done (start { requirepass := some (text "secret") } none))
  obtain ⟨answer, after, ran, -⟩ := first setRequest rfl (without _)
  have run : Runs (Steps (Outside 0))
      (start { requirepass := some (text "secret") } none) [setRequest]
      after :=
    .next ⟨fun _ => without _, answer, ran⟩ (.done after)
  obtain ⟨fresh, later⟩ := outside_refused rfl run
  exact ⟨after, run, fresh, later setRequest rfl (without _)⟩

end

end RedVector
