import RedVector.Command.Queue
import RedVector.Command.Replies

/-!
# Database indexes

SELECT compares its index with the number of databases by `>`, so it lets the
first index past the last database through.  In a run in which no SELECT names
that index, no client and no handler ever uses an index out of bounds.
-/

namespace RedVector

open Util Effect

section

variable [Platform]

/-- Every index that the handler passes to the database is in bounds when it
is passed. -/
def Handler.StaysInBounds (env : Env) (argv : Arguments) (db : Database)
    (client : Client) : Handler → Prop
  | .reader handle =>
      ((handle argv client.dbindex).lift readInclusion).Along
        (Database.machine env)
        (fun op db => WriteOp.Below db.config.databases op) db
  | .writer handle =>
      (handle argv client.dbindex).Along (Database.machine env)
        (fun op db => WriteOp.Below db.config.databases op) db
  | .blocking handle =>
      (handle argv client.dbindex).Along (Database.machine env)
        (fun op db => WriteOp.Below db.config.databases op) db
  | .server _ => True
  -- the index of the client is the one that WATCH passes
  | .session _ => client.dbindex < db.config.databases

namespace Command

/-- The indexes that a client uses are those of databases. -/
structure IndexesBelow (db : Database) (client : Client) : Prop where
  dbindex : client.dbindex < db.config.databases
  watched : ∀ slot ∈ client.watchedKeys, slot.1 < db.config.databases

/-- A SELECT that is executed and names the first index past the last
database. -/
def SelectsPast (command : ParsedCommand) (db : Database)
    (client : Client) : Prop :=
  (∃ name, commandName db command.arguments = .ok name ∧
      CommandName.ofBytes name = some .select) ∧
    (admitted db client).auth = true ∧ client.multi = false ∧
    command.arguments.length = 2 ∧
    ∃ dbindex, Arguments.getI64 command.arguments 1 = .ok dbindex ∧
      asUsize dbindex = db.config.databases

/-- The command is not such a SELECT. -/
def StaysBelow : Condition :=
  fun _ command db client => ¬SelectsPast command db client

/-- No index that the command passes to the database is out of bounds: those
of the client, with which EXEC and UNWATCH look up what is watched, and those
of the handler that it reaches. -/
def UsesBelow : Condition :=
  fun env command db client => IndexesBelow db client ∧
    ∀ name between handler,
      commandName db command.arguments = .ok name →
      route (CommandName.ofBytes name) command db client =
        .dispatched between →
      (CommandName.ofBytes name).bind Handler.ofName = some handler →
      handler.StaysInBounds env command.arguments db between

/-! ## Selecting -/

/-- What SELECT does to the index of the client. -/
theorem select_below
    {argv : Arguments} {db : Database} {client : Client}
    (start : client.dbindex < db.config.databases)
    (stays : argv.length = 2 → ∀ dbindex, argv.getI64 1 = .ok dbindex →
      asUsize dbindex ≠ db.config.databases) :
    (select argv db client).2.dbindex < db.config.databases := by
  unfold select
  split
  · exact start
  · rename_i dbindex checked
    split
    · exact start
    · rename_i passed
      have both : argv.length = 2 ∧ argv.getI64 1 = .ok dbindex := by
        by_cases two : argv.length = 2
        · have read : tryValidate (argv.getI64 1) "Invalid dbindex" =
              .ok dbindex := by
            simpa [validate, two, bind, Except.bind] using checked
          exact ⟨two, tryValidate_eq_ok read⟩
        · simp [validate, two] at checked
          cases checked
      have different := stays both.1 dbindex both.2
      show asUsize dbindex < _
      omega

/-! ## Handlers -/

end Command

/-- A handler that obeys for the index of the client stays in bounds. -/
theorem Handler.Obeys.staysInBounds
    {handler : Handler} {argv : Arguments} {db : Database} {client : Client}
    (below : client.dbindex < db.config.databases)
    (obeys : handler.Obeys db.config.databases client.dbindex argv)
    (env : Env) :
    handler.StaysInBounds env argv db client := by
  have bounds : ∀ {α : Type} {ends : Except Response α → Prop}
      {program : Writer α},
      program.Obeys (writeContract db.config.databases) ends →
      program.Along (Database.machine env)
        (fun op db => WriteOp.Below db.config.databases op) db := by
    intro α ends program obeys
    let same : Database → Prop := fun state => state.config = db.config
    have kept : ∀ op state answer after,
        same state → WriteOp.Below db.config.databases op →
        (Database.machine env).step op state = some (answer, after) →
        WriteOp.Honest db.config.databases op answer ∧
          same after := by
      intro op state answer after before _ performed
      constructor
      · have atMost : state.config.databases ≤ db.config.databases := by
          rw [before]
        exact (Database.machine_honest atMost performed).1
      · exact (Database.perform_frame performed).1.config.trans before
    have start : same db := rfl
    refine (obeys.sound kept start).1.mono ?_
    rintro op state ⟨inside, before⟩
    rw [before]
    exact inside
  cases handler with
  | reader handle => exact bounds ((Command.obeys_lift_read _).mpr obeys)
  | writer handle => exact bounds obeys
  | blocking handle => exact bounds obeys
  | server handle => trivial
  | session handle => exact below

namespace Command

/-- The slots that a handler lets its client watch are in its database. -/
theorem dispatch_watched
    {env : Env} {name : Bytes} {write : Bool} {command : ParsedCommand}
    {db : Database} {client : Client} {outcome : Outcome}
    (dispatched : dispatch env name write command db client =
      some outcome) :
    ∀ slot ∈ outcome.client.watchedKeys,
      slot ∈ client.watchedKeys ∨ slot.1 = client.dbindex := by
  unfold dispatch at dispatched
  dsimp only at dispatched
  split at dispatched
  · rename_i handler found
    obtain ⟨known, -, found⟩ := Option.bind_eq_some_iff.mp found
    obtain program | ⟨handle, rfl⟩ | ⟨handle, rfl⟩ :=
      Handler.run_program dispatched
    · obtain ⟨-, -, -, same⟩ := program
      rw [same]
      exact fun slot member => .inl member
    · simp only [Handler.run, Option.bind_eq_bind, Option.bind_eq_some_iff]
        at dispatched
      obtain ⟨⟨reply, after⟩, handled, finished⟩ := dispatched
      cases finished
      exact fun slot member => .inl member
    · simp only [Handler.run, Option.bind_eq_bind, Option.bind_eq_some_iff]
        at dispatched
      obtain ⟨⟨answer, after, afterClient⟩, handled, finished⟩ := dispatched
      cases finished
      obtain ⟨-, watches⟩ | ⟨-, -, sameClient⟩ | ⟨-, -, resubscribes⟩ :=
        Handler.session_effect found handled
      · intro slot member
        obtain old | new := (watches.watchedKeys slot).mp member
        · exact .inl old
        · right
          unfold slotsToWatch at new
          split at new
          · obtain ⟨key, -, rfl⟩ := List.mem_map.mp new
            rfl
          · cases new
      · intro slot member
        dsimp only at sameClient
        rw [sameClient] at member
        split at member
        · cases member
        · exact .inl member
      · intro slot member
        exact .inl (resubscribes.watchedKeys ▸ member)
  · cases dispatched
    exact fun slot member => .inl member

/-! ## Commands -/

theorem IndexesBelow.congr
    {db after : Database} {client other : Client}
    (below : IndexesBelow db client)
    (databases : after.config.databases = db.config.databases)
    (dbindex : other.dbindex = client.dbindex)
    (watched : ∀ slot ∈ other.watchedKeys, slot ∈ client.watchedKeys ∨
      slot.1 = client.dbindex) :
    IndexesBelow after other := by
  refine ⟨?_, ?_⟩
  · rw [databases, dbindex]
    exact below.dbindex
  · intro slot member
    rw [databases]
    obtain old | same := watched slot member
    · exact below.watched slot old
    · exact same ▸ below.dbindex

theorem admitted_kept (db : Database) (client : Client) :
    (admitted db client).dbindex = client.dbindex ∧
      (admitted db client).watchedKeys = client.watchedKeys := by
  unfold admitted
  split
  · exact ⟨rfl, rfl⟩
  · exact ⟨rfl, rfl⟩

/-- A gate answers a command without an index out of bounds, unless the
command selects one. -/
theorem answered_below
    {env : Env} {name : Bytes} {command : ParsedCommand} {db : Database}
    {client after : Client} {reply : Response}
    (below : IndexesBelow db client)
    (stays : StaysBelow env command db client)
    (named : commandName db command.arguments = .ok name)
    (routed : route (CommandName.ofBytes name) command db client =
      .answered reply after) :
    IndexesBelow db after := by
  have admits : IndexesBelow db (admitted db client) :=
    below.congr rfl (admitted_kept db client).1 fun slot member =>
      .inl ((admitted_kept db client).2 ▸ member)
  cases route_answered routed with
  | auth =>
      have same : ∀ argv db client,
          (authenticate argv db client).2.dbindex = client.dbindex ∧
            (authenticate argv db client).2.watchedKeys =
              client.watchedKeys := by
        intro argv db client
        unfold authenticate
        split
        · exact ⟨rfl, rfl⟩
        · split
          · exact ⟨rfl, rfl⟩
          · split
            · exact ⟨rfl, rfl⟩
            · exact ⟨rfl, rfl⟩
      exact admits.congr rfl (same _ _ _).1 fun slot member =>
        .inl ((same _ _ _).2 ▸ member)
  | outsider => exact admits
  | multi =>
      unfold multi
      split
      · exact admits
      · exact admits.congr rfl rfl fun slot member => .inl member
  | discard =>
      unfold discard
      split
      · exact admits.congr rfl rfl nofun
      · exact admits
  | watch => exact admits
  | queued => exact admits.congr rfl rfl fun slot member => .inl member
  | select isSelect inside notInMulti =>
      have notPast : (command.arguments : Arguments).length = 2 →
          ∀ dbindex, Arguments.getI64 command.arguments 1 = .ok dbindex →
            asUsize dbindex ≠ db.config.databases := by
        intro two dbindex read past
        have outside := (admitted_multi db client).1 ▸ notInMulti
        exact stays ⟨⟨name, named, isSelect⟩, inside, outside, two, dbindex,
          read, past⟩
      refine ⟨select_below admits.dbindex notPast, fun slot member => ?_⟩
      refine admits.watched slot ?_
      unfold select at member
      split at member
      · exact member
      · split at member
        · exact member
        · exact member

theorem indexesBelow_keeps : KeepsEach StaysBelow IndexesBelow where
  answered := answered_below
  admitted := by
    intro db client below
    exact below.congr rfl (admitted_kept db client).1 fun slot member =>
      .inl ((admitted_kept db client).2 ▸ member)
  started := by
    intro db client below
    exact below.congr rfl rfl nofun
  dispatched := by
    intro env name command db client between outcome below _ named routed
      dispatched
    obtain ⟨rfl, -⟩ := route_dispatched routed
    obtain ⟨fixed, -, -, -, kept⟩ := dispatch_recorded dispatched
    have same := admitted_kept db client
    refine below.congr fixed.databases (kept.dbindex.trans same.1) ?_
    intro slot member
    rw [← same.1, ← same.2]
    exact dispatch_watched dispatched slot member
  logged := by
    intro env command executed below
    obtain ⟨noted, -, -, sameClient⟩ := logged_noted env command executed
    exact below.congr (by rw [noted.config]) rfl fun slot member =>
      .inl member

/-- Where the indexes of the client are in bounds, so is all that a command
uses. -/
theorem usesBelow_of_indexes
    {env : Env} {command : ParsedCommand} {db : Database} {client : Client}
    (below : IndexesBelow db client) : UsesBelow env command db client := by
  refine ⟨below, ?_⟩
  intro name between handler named routed found
  obtain ⟨rfl, -⟩ := route_dispatched routed
  have inside : (admitted db client).dbindex < db.config.databases := by
    rw [(admitted_kept db client).1]
    exact below.dbindex
  obtain ⟨known, -, isHandler⟩ := Option.bind_eq_some_iff.mp found
  have obeys := ofName_obeys known command.arguments inside
  rw [isHandler] at obeys
  exact Handler.Obeys.staysInBounds inside obeys env

end Command

/-! ## Runs -/

open Command

namespace Server

/-- No SELECT that the request executes names the first index past the last
database. -/
def SelectsBelow (request : Request) (server : Server) : Prop :=
  Each StaysBelow request.world request.command server.db
    (server.clients request.client)

/-- A step of one client keeps the indexes of all clients in bounds. -/
theorem step_indexes
    {before after : Server} {request : Request}
    (below : ∀ id, IndexesBelow before.db (before.clients id))
    (step : Steps SelectsBelow before request after) :
    ∀ id, IndexesBelow after.db (after.clients id) := by
  obtain ⟨selects, answer, ran⟩ := step
  obtain ⟨outcome, commandRan, -, rfl⟩ := step_eq_some.mp ran
  have one := commandAt_keepsEach indexesBelow_keeps (below request.client)
    selects commandRan
  intro id
  by_cases same : id = request.client
  · subst same
    simpa using one
  · dsimp only
    rw [Function.update_of_ne same]
    exact (below id).congr (commandAt_fixed commandRan).databases rfl
      fun slot member => .inl member

/-- In a run without a SELECT of the first index past the last database, the
indexes of all clients are those of databases, and so is every index that a
further command passes to the database. -/
theorem indexes_in_bounds
    {config : Config} {aof : Option Bytes} {requests : List Request}
    {server : Server} (some : 0 < config.databases)
    (run : Runs (Steps SelectsBelow) (start config aof) requests server) :
    (∀ id, IndexesBelow server.db (server.clients id)) ∧
      ∀ request, SelectsBelow request server →
        Each UsesBelow request.world request.command server.db
          (server.clients request.client) := by
  have below : ∀ id, IndexesBelow server.db (server.clients id) := by
    refine run.invariant
      (fun server => ∀ id, IndexesBelow server.db (server.clients id)) ?_ ?_
    · intro server request result below step
      exact step_indexes below step
    · intro id
      exact ⟨some, nofun⟩
  refine ⟨below, fun request selects => ?_⟩
  exact eachAt_strengthen indexesBelow_keeps
    (fun below _ => usesBelow_of_indexes below) (below request.client)
    selects

end Server

end

section

attribute [local instance] Platform.integral

open Command

namespace Server

/-- SELECT 16 of 16 databases is accepted, and then every command panics that
looks up a key. -/
theorem select_out_of_bounds :
    (¬∀ (config : Config) (aof : Option Bytes) (requests : List Request)
      (server : Server), 0 < config.databases →
      Runs AnyStep (start config aof) requests server →
        ∀ id, (server.clients id).dbindex < config.databases) ∧
    ∃ server : Server,
      Runs AnyStep (start {} none)
        [.still 0 0 [text "SELECT", text "16"] ⟨by decide, by decide⟩]
        server ∧
      server.step (.still 0 0 [text "GET", text "k"]
        ⟨by decide, by decide⟩) = none := by
  have selected : ((start {} none).step
      (.still 0 0 [text "SELECT", text "16"] ⟨by decide, by decide⟩)).map
        (fun result => (result.2.clients 0).dbindex) = some 16 := by
    rfl
  have panics : ((start {} none).step
      (.still 0 0 [text "SELECT", text "16"] ⟨by decide, by decide⟩)).map
        (fun result => (result.2.step (.still 0 0 [text "GET", text "k"]
          ⟨by decide, by decide⟩)).isNone) = some true := by
    rfl
  obtain ⟨⟨answer, server⟩, stepped, index⟩ :=
    Option.map_eq_some_iff.mp selected
  have run : Runs AnyStep (start {} none)
      [.still 0 0 [text "SELECT", text "16"] ⟨by decide, by decide⟩]
      server :=
    .next ⟨trivial, answer, stepped⟩ (.done server)
  constructor
  · intro below
    have inside := below {} none _ server (by decide) run 0
    dsimp only at index
    rw [index] at inside
    exact absurd inside (by decide)
  · refine ⟨server, run, ?_⟩
    rw [stepped] at panics
    simpa using panics

/-- The request that selects the last of 16 databases. -/
noncomputable def selectLast : Request :=
  .still 0 0 [text "SELECT", text "15"] ⟨by decide, by decide⟩

theorem selectLast_below : SelectsBelow selectLast (start {} none) := by
  constructor
  · rintro ⟨-, -, -, -, dbindex, read, past⟩
    have fifteen : (Arguments.getI64 selectLast.command.arguments 1).map
        asUsize = .ok 15 := by
      rfl
    rw [read] at fifteen
    cases past.symm.trans (Except.ok.inj fifteen)
  · intro name after named routed
    cases named
    cases (route_exec routed).1

/-- A client that selects the last database stays in bounds. -/
theorem indexes_in_bounds_last :
    ∃ server, Runs (Steps SelectsBelow) (start {} none) [selectLast] server ∧
      (server.clients 0).dbindex = 15 ∧
      ∀ id, IndexesBelow server.db (server.clients id) := by
  have selected : ((start {} none).step selectLast).map
      (fun result => (result.2.clients 0).dbindex) = some 15 := by
    rfl
  obtain ⟨⟨answer, server⟩, stepped, index⟩ :=
    Option.map_eq_some_iff.mp selected
  have run : Runs (Steps SelectsBelow) (start {} none) [selectLast] server :=
    .next ⟨selectLast_below, answer, stepped⟩ (.done server)
  exact ⟨server, run, index, (indexes_in_bounds (by decide) run).1⟩

end Server

end

end RedVector
