import RedVector.Command.Watch

/-!
# WATCH and EXEC

The watched keys of the clients over whole runs, compared with a history that
records for every command what it asked to watch and which keys it updated.
-/

namespace RedVector

open Util Effect Command

section

variable [Platform]

/-- A server with the history of the watching so far. -/
structure Observed where
  server : Server
  history : List (WatchEvent Nat Slot)

namespace Observed

def start (config : Config) (aof : Option Bytes) : Observed :=
  { server := .start config aof, history := [] }

/-- The slots that were updated between two states. -/
def updatedSince (before after : Database) : List Slot :=
  after.updates.take (after.updates.length - before.updates.length)

/-- What a step of the server adds to the history. -/
def events (before : Server) (request : Request) (after : Server) :
    List (WatchEvent Nat Slot) :=
  asked request.command before.db (before.clients request.client) ++
    [.modify {slot | slot ∈ updatedSince before.db after.db}]

def Steps (allowed : Request → Server → Prop) (before : Observed)
    (request : Request) (after : Observed) : Prop :=
  Server.Steps allowed before.server request after.server ∧
    after.history =
      before.history ++ events before.server request after.server

/-- The state after some requests, if none of them panics. -/
def play (before : Observed) : List Request → Option Observed
  | [] => some before
  | request :: rest => do
      let (_, after) ← before.server.step request
      play ⟨after, before.history ++ events before.server request after⟩
        rest

theorem runs_of_play
    {requests : List Request} {before after : Observed}
    (played : before.play requests = some after) :
    Runs (Steps fun _ _ => True) before requests after := by
  induction requests generalizing before with
  | nil =>
      cases played
      exact .done _
  | cons request rest ih =>
      obtain ⟨⟨answer, server⟩, stepped, played⟩ :=
        Option.bind_eq_some_iff.mp played
      exact .next ⟨⟨trivial, answer, stepped⟩, rfl⟩ (ih played)

end Observed

/-- A key that the client watches was updated since it was registered. -/
def Modified (db : Database) (client : Client) (slot : Slot) : Prop :=
  slot ∈ client.watchedKeys ∧
    db.keyWatchVerify slot.1 slot.2 client.id ≠ true

/-- A WATCH that does not name all modified keys of its client again. -/
def LeavesModified (request : Request) (server : Server) : Prop :=
  let client := server.clients request.client
  ∀ items, asked request.command server.db client =
      [.watch client.id items] →
    (∃ slot, Modified server.db client slot) →
      ∃ slot, Modified server.db client slot ∧ slot ∉ items

/-- A state of the watching says what the client watches and whether one of
its keys was modified. -/
structure Agrees (db : Database) (client : Client)
    (state : Watching Nat Slot) : Prop where
  watched : ∀ slot,
    slot ∈ client.watchedKeys ↔ slot ∈ state.watched client.id
  unbroken : ¬state.broken client.id ↔
    ∀ slot ∈ client.watchedKeys,
      db.keyWatchVerify slot.1 slot.2 client.id = true

theorem updatedSince_eq
    {before after : Database} {slots : List Slot}
    (updates : after.updates = slots ++ before.updates) :
    Observed.updatedSince before after = slots := by
  simp [Observed.updatedSince, updates]

namespace Agrees

/-- Updates break the watching of a client as they remove its registration. -/
theorem modified
    {before after : Database} {client : Client}
    {state : Watching Nat Slot} {updated : List Slot}
    (agrees : Agrees before client state)
    (unregisters : Unregisters before after updated) :
    Agrees after client (state.after (.modify {slot | slot ∈ updated})) := by
  refine ⟨agrees.watched, ?_⟩
  simp only [Watching.after, Set.mem_ofPred_eq, not_or, agrees.unbroken,
    unregisters.verify]
  constructor
  · rintro ⟨registered, untouched⟩ slot member
    refine ⟨registered slot member, fun wasUpdated => ?_⟩
    exact untouched ⟨slot, wasUpdated, (agrees.watched slot).mp member⟩
  · intro both
    refine ⟨fun slot member => (both slot member).1, ?_⟩
    rintro ⟨slot, wasUpdated, member⟩
    exact (both slot ((agrees.watched slot).mpr member)).2 wasUpdated

/-- What another client asks for does not matter. -/
theorem other
    {db after : Database} {client actor actorAfter : Client}
    {state : Watching Nat Slot} {asks : List (WatchEvent Nat Slot)}
    {updated : List Slot} (agrees : Agrees db client state)
    (different : client.id ≠ actor.id)
    (step : WatchStep (db, actor) (after, actorAfter) asks updated) :
    Agrees after client
      ((asks ++ [WatchEvent.modify {slot | slot ∈ updated}]).foldl Watching.after
        state) := by
  rw [List.foldl_append]
  cases step with
  | @watches slots registers =>
      refine ⟨?_, ?_⟩
      · simpa [Watching.after, different] using agrees.watched
      · simpa [Watching.after, registers.verify, different] using
          agrees.unbroken
  | forgets unregisters nothing =>
      refine modified ⟨?_, ?_⟩ unregisters
      · simpa [Watching.after, different] using agrees.watched
      · simpa [Watching.after, different] using agrees.unbroken
  | keeps unregisters same => exact modified agrees unregisters

/-- What the client asks for itself. -/
theorem own
    {db after : Database} {client clientAfter : Client}
    {state : Watching Nat Slot} {asks : List (WatchEvent Nat Slot)}
    {updated : List Slot} (agrees : Agrees db client state)
    (sameId : clientAfter.id = client.id)
    (leaves : ∀ items, asks = [.watch client.id items] →
      (∃ slot, Modified db client slot) →
        ∃ slot, Modified db client slot ∧ slot ∉ items)
    (step : WatchStep (db, client) (after, clientAfter) asks updated) :
    Agrees after clientAfter
      ((asks ++ [WatchEvent.modify {slot | slot ∈ updated}]).foldl Watching.after
        state) := by
  rw [List.foldl_append]
  cases step with
  | @watches slots registers =>
      refine ⟨?_, ?_⟩
      · intro slot
        simp [Watching.after, sameId, registers.watchedKeys, agrees.watched]
      · have stillModified := leaves _ rfl
        simp only [Watching.after, List.foldl_cons, List.foldl_nil, sameId,
          List.not_mem_nil, Set.mem_ofPred_eq, false_and, exists_false,
          or_false, registers.verify, registers.watchedKeys, true_and]
        rw [agrees.unbroken]
        constructor
        · rintro registered slot (old | new)
          · exact .inl (registered slot old)
          · exact .inr new
        · intro registered
          by_contra broken
          push Not at broken
          obtain ⟨slot, member, missing⟩ := broken
          obtain ⟨left, ⟨member, missing⟩, unnamed⟩ :=
            stillModified ⟨slot, member, missing⟩
          obtain there | named := registered left (.inl member)
          · exact missing there
          · exact unnamed named
  | forgets unregisters nothing =>
      have nothing : clientAfter.watchedKeys = ∅ := nothing
      have cleared : Agrees db clientAfter
          (state.after (.forget client.id)) := by
        refine ⟨?_, ?_⟩
        · simp [Watching.after, sameId, nothing]
        · simp [Watching.after, sameId, nothing]
      exact modified cleared unregisters
  | keeps unregisters same =>
      have kept : Agrees db clientAfter state := by
        refine ⟨?_, ?_⟩
        · rw [same, sameId]
          exact agrees.watched
        · rw [same, sameId]
          exact agrees.unbroken
      exact modified kept unregisters

end Agrees

/-- What holds of every client in every state. -/
structure Tracks (config : Config) (observed : Observed) (client : Nat) :
    Prop where
  id : (observed.server.clients client).id = client
  queued : QueuedWell config observed.server.db
    (observed.server.clients client)
  agrees : Agrees observed.server.db (observed.server.clients client)
    (Watching.run observed.history)

/-- One step keeps the agreement about every client. -/
theorem tracks_step
    {config : Config} {before after : Observed} {request : Request}
    (tracks : ∀ client, Tracks config before client)
    (step : Observed.Steps LeavesModified before request after)
    (client : Nat) : Tracks config after client := by
  obtain ⟨⟨leaves, answer, ran⟩, history⟩ := step
  obtain ⟨outcome, commandRan, -, server⟩ := Server.step_eq_some.mp ran
  have actor := tracks request.client
  obtain ⟨sameId, updated, step⟩ :=
    command_watching actor.queued.2 commandRan
  have queued := commandAt_preserves (queuedWell_keeps config) actor.queued
    commandRan
  have db : after.server.db = outcome.db := by rw [server]
  have updates : Observed.updatedSince before.server.db outcome.db =
      updated := updatedSince_eq step.updates
  have state : Watching.run after.history =
      (asked request.command before.server.db
          (before.server.clients request.client) ++
        [WatchEvent.modify {slot | slot ∈ updated}]).foldl Watching.after
        (Watching.run before.history) := by
    rw [history, Watching.run_append, Observed.events, db, updates]
  by_cases this : client = request.client
  · subst this
    have same : after.server.clients request.client = outcome.client := by
      rw [server]
      exact Function.update_self _ _ _
    refine ⟨?_, ?_, ?_⟩
    · rw [same, sameId, actor.id]
    · rw [db, same]
      exact queued
    · rw [db, same, state]
      exact actor.agrees.own sameId leaves step
  · have same : after.server.clients client =
        before.server.clients client := by
      rw [server]
      exact Function.update_of_ne this _ _
    have mine := tracks client
    refine ⟨?_, ?_, ?_⟩
    · rw [same, mine.id]
    · rw [db, same]
      refine ⟨queued.1, fun command member => ?_⟩
      refine (mine.queued.2 command member).congr ?_
      rw [queued.1.renameCommands, mine.queued.1.renameCommands]
    · rw [db, same, state]
      refine mine.agrees.other ?_ step
      rw [mine.id, actor.id]
      exact this

theorem tracks
    {config : Config} {aof : Option Bytes} {requests : List Request}
    {observed : Observed}
    (run : Runs (Observed.Steps LeavesModified)
      (.start config aof) requests observed) (client : Nat) :
    Tracks config observed client := by
  refine run.invariant
    (fun observed => ∀ client, Tracks config observed client) ?_ ?_ client
  · exact fun before request after holds step =>
      tracks_step holds step
  · intro client
    refine ⟨rfl, ⟨.refl config, ?_⟩, ⟨?_, ?_⟩⟩
    · simp [Observed.start, Server.start, Client.new]
    · simp [Observed.start, Server.start, Client.new, Watching.run,
        Watching.start]
    · simp [Observed.start, Server.start, Client.new, Watching.run,
        Watching.start]

/-! ## EXEC -/

/-- A command that executes the queue of its client. -/
structure IsExec (command : ParsedCommand) (db : Database)
    (client : Client) : Prop where
  named : ∃ name, commandName db command.arguments = .ok name ∧
    CommandName.ofBytes name = some .exec
  authenticated : (admitted db client).auth = true
  inMulti : client.multi = true

/-- EXEC ran the queue and answers with the replies. -/
def RanQueue (world : World) (db : Database) (client : Client)
    (outcome : Outcome) : Prop :=
  ∃ replies queueDb after,
    execAll (fun position => commandAt client.multiCommands.length
      (world.queued position)) 0 client.multiCommands db
        (started db (admitted db client)) =
          some (replies, queueDb, after) ∧
    outcome.answer = .ok (.array replies) ∧ outcome.client = after ∧
    Noted queueDb outcome.db

/-- EXEC answers Nil and executed nothing. -/
def RefusedQueue (db : Database) (outcome : Outcome) : Prop :=
  outcome.answer = .ok .nil ∧ Noted db outcome.db

theorem RanQueue.not_refused
    {world : World} {db : Database} {client : Client} {outcome : Outcome}
    (ran : RanQueue world db client outcome) :
    ¬RefusedQueue db outcome := by
  obtain ⟨replies, queueDb, after, -, array, -⟩ := ran
  rintro ⟨nil, -⟩
  cases array.symm.trans nil

/-- EXEC runs its queue if every watched key is still registered, and
otherwise refuses it; nothing is left to watch or to run. -/
theorem exec_outcome
    {world : World} {command : ParsedCommand} {db : Database}
    {client : Client} {outcome : Outcome}
    (queueable : ∀ command ∈ client.multiCommands, Queueable db command)
    (isExec : IsExec command db client)
    (ran : RedVector.command world command db client = some outcome) :
    ((∀ slot ∈ client.watchedKeys,
        db.keyWatchVerify slot.1 slot.2 client.id = true) →
      RanQueue world db client outcome) ∧
    (¬(∀ slot ∈ client.watchedKeys,
        db.keyWatchVerify slot.1 slot.2 client.id = true) →
      RefusedQueue db outcome) ∧
    outcome.client.watchedKeys = ∅ ∧ outcome.client.multiCommands = [] := by
  obtain ⟨name, named, isExecName⟩ := isExec.named
  obtain ⟨sameMulti, sameQueue⟩ := admitted_multi db client
  obtain ⟨sameKeys, sameId, -⟩ := admitted_watching db client
  have routed : route (CommandName.ofBytes name) command db client =
      .exec (admitted db client) := by
    unfold route
    simp [isExecName, isExec.authenticated]
  obtain ⟨executed, executes, rfl⟩ := Option.map_eq_some_iff.mp ran
  obtain ⟨noted, -, sameAnswer, sameClient⟩ :=
    logged_noted world.here command executed
  cases executeCommand_executes executes with
  | empty nothing => exact absurd nothing (commandName_arguments named)
  | unnamed something refused => cases named.symm.trans refused
  | answered something otherNamed otherRouted =>
      cases named.symm.trans otherNamed
      cases routed.symm.trans otherRouted
  | dispatched something otherNamed otherRouted dispatchRan =>
      cases named.symm.trans otherNamed
      cases routed.symm.trans otherRouted
  | @exec otherName reply between after afterDb something otherNamed
      otherRouted execRan =>
      cases named.symm.trans otherNamed
      cases routed.symm.trans otherRouted
      have inMulti := sameMulti.trans isExec.inMulti
      obtain ⟨-, -, emptied, -⟩ :=
        exec_watching (by rw [sameQueue]; exact queueable) execRan
      obtain ⟨noKeys, noQueue, -⟩ := emptied inMulti
      rw [sameClient]
      rw [← and_assoc]
      refine ⟨?_, noKeys, noQueue⟩
      unfold exec at execRan
      simp only [inMulti, Bool.not_true, Bool.false_eq_true, if_false]
        at execRan
      have verified : (genericUnwatch db { admitted db client with
          multi := false, multiCommands := [] }).1 =
          decide (∀ slot ∈ client.watchedKeys,
            db.keyWatchVerify slot.1 slot.2 client.id = true) := by
        simp only [genericUnwatch, sameKeys, sameId]
      constructor
      · intro registered
        rw [verified, decide_eq_true registered] at execRan
        simp only [Bool.not_true, Bool.false_eq_true, if_false,
          Option.bind_eq_bind, Option.bind_eq_some_iff] at execRan
        obtain ⟨⟨replies, place⟩, allRan, finished⟩ := execRan
        cases finished
        rw [sameQueue] at allRan
        exact ⟨replies, _, _, allRan, sameAnswer, sameClient, noted⟩
      · intro broken
        rw [verified, decide_eq_false broken] at execRan
        cases execRan
        exact ⟨sameAnswer, noted⟩

/-- In every run in which no WATCH names all modified keys of its client
again, EXEC runs its queue exactly if no watched key was updated after the
WATCH, otherwise it answers Nil and executes nothing, and no watched key and no
queue is left. -/
theorem exec_isolated
    {config : Config} {aof : Option Bytes} {requests : List Request}
    {observed : Observed}
    (run : Runs (Observed.Steps LeavesModified)
      (.start config aof) requests observed)
    {world : World} {command : ParsedCommand} {id : Nat}
    {outcome : Outcome}
    (isExec : IsExec command observed.server.db
      (observed.server.clients id))
    (ran : RedVector.command world command observed.server.db
      (observed.server.clients id) = some outcome) :
    (RanQueue world observed.server.db (observed.server.clients id)
        outcome ↔ ¬Watching.Conflict observed.history id) ∧
      (Watching.Conflict observed.history id →
        RefusedQueue observed.server.db outcome) ∧
      outcome.client.watchedKeys = ∅ ∧
      outcome.client.multiCommands = [] := by
  have tracked := tracks run id
  obtain ⟨runs, refuses, noKeys, noQueue⟩ :=
    exec_outcome tracked.queued.2 isExec ran
  have unbroken := tracked.agrees.unbroken
  rw [tracked.id, (Watching.run_spec observed.history id).2] at unbroken
  rw [tracked.id, ← unbroken] at runs refuses
  refine ⟨⟨?_, runs⟩, ?_, noKeys, noQueue⟩
  · intro ranQueue conflict
    exact ranQueue.not_refused (refuses (not_not.mpr conflict))
  · exact fun conflict => refuses (not_not.mpr conflict)

/-- Whether a command executes the queue of its client. -/
def executes (command : ParsedCommand) (db : Database) (client : Client) :
    Bool :=
  (match commandName db command.arguments with
    | .ok name => decide (CommandName.ofBytes name = some .exec)
    | .error _ => false) &&
  (admitted db client).auth && client.multi

theorem executes_iff
    {command : ParsedCommand} {db : Database} {client : Client} :
    executes command db client = true ↔ IsExec command db client := by
  unfold executes
  constructor
  · intro holds
    simp only [Bool.and_eq_true] at holds
    obtain ⟨⟨named, authenticated⟩, inMulti⟩ := holds
    split at named
    · rename_i name found
      exact ⟨⟨name, found, of_decide_eq_true named⟩, authenticated, inMulti⟩
    · cases named
  · rintro ⟨⟨name, named, isExec⟩, authenticated, inMulti⟩
    simp [named, isExec, authenticated, inMulti]

end

/-! ## A key that is watched twice -/

section

attribute [local instance] Platform.integral

noncomputable def watchRequest : Request :=
  .still 0 0 [text "WATCH", text "k"] Request.watch_withinLimits

noncomputable def multiRequest : Request :=
  .still 0 0 [text "MULTI"] ⟨by decide, by decide⟩

/-- SET of the watched key by another client. -/
noncomputable def otherSetRequest : Request :=
  .still 0 1 [text "SET", text "k", text "v"] Request.set_withinLimits

noncomputable def execCommand : ParsedCommand :=
  .encoded [text "EXEC"] [] ⟨by decide, by decide⟩

def answersArray (outcome : Outcome) : Bool :=
  match outcome.answer with
  | .ok (.array _) => true
  | _ => false

/-- A second WATCH hides that the key was modified after the first one. -/
theorem exec_not_isolated :
    ¬∀ (config : Config) (aof : Option Bytes) (requests : List Request)
      (observed : Observed),
      Runs (Observed.Steps fun _ _ => True) (.start config aof) requests
        observed →
      ∀ (world : World) (command : ParsedCommand) (id : Nat)
        (outcome : Outcome),
        IsExec command observed.server.db (observed.server.clients id) →
        RedVector.command world command observed.server.db
          (observed.server.clients id) = some outcome →
        Watching.Conflict observed.history id →
          RefusedQueue observed.server.db outcome := by
  intro isolated
  let requests := [watchRequest, otherSetRequest, watchRequest, multiRequest]
  let slot : Slot := (0, text "k")
  let last (observed : Observed) : Option Outcome :=
    RedVector.command (fun _ => .still 0) execCommand observed.server.db
      (observed.server.clients 0)
  have history : ((Observed.start {} none).play requests).map
      Observed.history =
        some ([.watch 0 {other | other ∈ [slot]},
          .modify {other | other ∈ ([] : List Slot)}] ++
          .modify {other | other ∈ [slot]} ::
          [.watch 0 {other | other ∈ [slot]},
            .modify {other | other ∈ ([] : List Slot)},
            .modify {other | other ∈ ([] : List Slot)}]) := by
    rfl
  have ends : ((Observed.start {} none).play requests).map (fun observed =>
      (executes execCommand observed.server.db (observed.server.clients 0),
        (last observed).map answersArray)) = some (true, some true) := by
    decide +kernel
  obtain ⟨observed, played, same⟩ := Option.map_eq_some_iff.mp ends
  obtain ⟨isExec, answered⟩ := Prod.mk.inj same
  obtain ⟨outcome, ran, array⟩ := Option.map_eq_some_iff.mp answered
  rw [played] at history
  have history := Option.some.inj history
  have conflict : Watching.Conflict observed.history 0 := by
    rw [history]
    refine ⟨_, _, _, slot, rfl, by simp, ⟨[], _, _, rfl, by simp, ?_⟩, ?_⟩
    · simp [Watching.SamePeriod]
    · simp [Watching.SamePeriod]
  obtain ⟨nil, -⟩ := isolated {} none requests observed
    (Observed.runs_of_play played) (fun _ => .still 0) execCommand 0 outcome
    (executes_iff.mp isExec) ran conflict
  rw [answersArray, nil] at array
  cases array

/-- A client that watches a key that nobody updates runs its queue. -/
theorem exec_isolated_once :
    ∃ observed outcome,
      Runs (Observed.Steps LeavesModified) (.start {} none)
        [watchRequest, multiRequest] observed ∧
      RanQueue (fun _ => .still 0) observed.server.db
        (observed.server.clients 0) outcome := by
  have ends : ((Server.start {} none).step watchRequest).map (fun first =>
      ((asked multiRequest.command first.2.db (first.2.clients 0)).isEmpty,
        (first.2.step multiRequest).map fun second =>
          (executes execCommand second.2.db (second.2.clients 0),
            (RedVector.command (fun _ => .still 0) execCommand second.2.db
              (second.2.clients 0)).map answersArray))) =
      some (true, some (true, some true)) := by
    decide +kernel
  obtain ⟨⟨firstAnswer, first⟩, firstRan, facts⟩ :=
    Option.map_eq_some_iff.mp ends
  obtain ⟨nothing, others⟩ := Prod.mk.inj facts
  obtain ⟨⟨secondAnswer, second⟩, secondRan, facts⟩ :=
    Option.map_eq_some_iff.mp others
  obtain ⟨isExec, answered⟩ := Prod.mk.inj facts
  obtain ⟨outcome, ran, array⟩ := Option.map_eq_some_iff.mp answered
  have firstLeaves : LeavesModified watchRequest (.start {} none) := by
    rintro items - ⟨slot, member, -⟩
    cases member
  have secondLeaves : LeavesModified multiRequest first := by
    intro items asks
    have none : asked multiRequest.command first.db
        (first.clients multiRequest.client) = [] :=
      List.isEmpty_iff.mp nothing
    cases none.symm.trans asks
  let one : Observed :=
    ⟨first, [] ++ Observed.events (.start {} none) watchRequest first⟩
  let two : Observed :=
    ⟨second, one.history ++ Observed.events first multiRequest second⟩
  have firstStep : Observed.Steps LeavesModified (.start {} none)
      watchRequest one :=
    ⟨⟨firstLeaves, firstAnswer, firstRan⟩, rfl⟩
  have secondStep : Observed.Steps LeavesModified one multiRequest two :=
    ⟨⟨secondLeaves, secondAnswer, secondRan⟩, rfl⟩
  have run := Runs.next firstStep (.next secondStep (.done two))
  obtain ⟨runs, refuses, -⟩ :=
    exec_isolated run (executes_iff.mp isExec) ran
  refine ⟨two, outcome, run, runs.mpr ?_⟩
  intro conflict
  rw [answersArray, (refuses conflict).1] at array
  cases array

end

end RedVector
