import RedVector.Command.Exec
import RedVector.Effect.Watching

/-!
# Watched keys

What every command does to the watched keys of its client and to the watchers
of the database.
-/

namespace RedVector.Command

open Util Effect Database

variable [Platform]

/-- The watchers of the updated slots are gone, and all others are there. -/
structure Unregisters (before after : Database) (slots : List Slot) :
    Prop where
  updates : after.updates = slots ++ before.updates
  verify : ∀ slot id,
    after.keyWatchVerify slot.1 slot.2 id = true ↔
      before.keyWatchVerify slot.1 slot.2 id = true ∧ slot ∉ slots

namespace Unregisters

theorem of_same {before after : Database}
    (watchedKeys : after.watchedKeys = before.watchedKeys)
    (updates : after.updates = before.updates) :
    Unregisters before after [] := by
  refine ⟨updates, ?_⟩
  intro slot id
  simp [keyWatchVerify, watchedKeys]

theorem of_announces {before after : Database} {slots : List Slot}
    (announces : AnnouncesAll before after slots) :
    Unregisters before after slots := by
  refine ⟨announces.updates, ?_⟩
  intro slot id
  rw [keyWatchVerify_iff, keyWatchVerify_iff, announces.watchers]
  by_cases updated : slot ∈ slots
  · simp [updated]
  · simp [updated]

theorem trans {before between after : Database} {first second : List Slot}
    (earlier : Unregisters before between first)
    (later : Unregisters between after second) :
    Unregisters before after (second ++ first) := by
  refine ⟨by rw [later.updates, earlier.updates, List.append_assoc], ?_⟩
  intro slot id
  rw [later.verify, earlier.verify, List.mem_append]
  tauto

end Unregisters

/-- The slots are registered for the client and nothing else changes. -/
structure Registers (before after : Place) (slots : List Slot) : Prop where
  updates : after.1.updates = before.1.updates
  verify : ∀ slot id,
    after.1.keyWatchVerify slot.1 slot.2 id = true ↔
      before.1.keyWatchVerify slot.1 slot.2 id = true ∨
        id = before.2.id ∧ slot ∈ slots
  watchedKeys : ∀ slot, slot ∈ after.2.watchedKeys ↔
    slot ∈ before.2.watchedKeys ∨ slot ∈ slots

/-- The watched keys of a client after a command that is not WATCH. -/
def keysLeft (name : Bytes) (argv : Arguments) (client : Client) :
    Finset Slot :=
  if CommandName.ofBytes name = some .unwatch ∧ argv.length = 1 then ∅
  else client.watchedKeys

/-- What a dispatched command does to the watching. -/
theorem dispatch_watching
    {env : Env} {name : Bytes} {write : Bool} {command : ParsedCommand}
    {db : Database} {client : Client} {outcome : Outcome}
    (ran : dispatch env name write command db client = some outcome) :
    (CommandName.ofBytes name = some .watch ∧
      Registers (db, client) (outcome.db, outcome.client)
        (slotsToWatch command.arguments client.dbindex)) ∨
    (CommandName.ofBytes name ≠ some .watch ∧
      (∃ slots, Unregisters db outcome.db slots) ∧
      outcome.client.watchedKeys =
        keysLeft name command.arguments client) := by
  unfold dispatch at ran
  dsimp only at ran
  split at ran
  · rename_i handler found
    obtain ⟨known, named, found⟩ := Option.bind_eq_some_iff.mp found
    -- the handlers other than those of the session keep the client
    have kept : known ≠ .watch → known ≠ .unwatch →
        (∃ slots, Unregisters db outcome.db slots) →
        outcome.client.watchedKeys = client.watchedKeys →
        (CommandName.ofBytes name = some .watch ∧
          Registers (db, client) (outcome.db, outcome.client)
            (slotsToWatch command.arguments client.dbindex)) ∨
        (CommandName.ofBytes name ≠ some .watch ∧
          (∃ slots, Unregisters db outcome.db slots) ∧
          outcome.client.watchedKeys =
            keysLeft name command.arguments client) := by
      intro notWatch notUnwatch unregisters same
      refine .inr ⟨by simpa [named] using notWatch, unregisters, ?_⟩
      simp [keysLeft, named, notUnwatch, same]
    obtain program | ⟨handle, rfl⟩ | ⟨handle, rfl⟩ :=
      Handler.run_program ran
    · obtain ⟨notSession, -, ⟨slots, announces⟩, same⟩ := program
      have recorded := Unregisters.of_announces announces
      refine kept ?_ ?_ ⟨slots, recorded.updates, recorded.verify⟩
        (by rw [same])
      · rintro rfl
        cases found
        exact notSession _ rfl
      · rintro rfl
        cases found
        exact notSession _ rfl
    · simp only [Handler.run, Option.bind_eq_bind,
        Option.bind_eq_some_iff] at ran
      obtain ⟨⟨reply, after⟩, handled, finished⟩ := ran
      cases finished
      have untouched := untouched_subscribes.server found handled
      refine kept ?_ ?_ ⟨[], .of_same untouched.watchedKeys
        untouched.updates⟩ rfl
      · rintro rfl
        cases found
      · rintro rfl
        cases found
    · simp only [Handler.run, Option.bind_eq_bind,
        Option.bind_eq_some_iff] at ran
      obtain ⟨⟨answer, after, afterClient⟩, handled, finished⟩ := ran
      cases finished
      obtain ⟨rfl, watches⟩ | ⟨rfl, sameDb, sameClient⟩ |
        ⟨notWatch, notUnwatch, resubscribes⟩ :=
        Handler.session_effect found handled
      · exact .inl ⟨named, watches.updates, watches.registered,
          watches.watchedKeys⟩
      · dsimp only at sameDb sameClient
        subst sameDb
        subst sameClient
        refine .inr ⟨by simp [named], ⟨[], .of_same rfl rfl⟩, ?_⟩
        simp [keysLeft, named]
      · exact kept notWatch notUnwatch
          ⟨[], .of_same resubscribes.untouched.watchedKeys
            resubscribes.untouched.updates⟩ resubscribes.watchedKeys
  · rename_i missing
    cases ran
    have handled : ∀ known handler, Handler.ofName known = some handler →
        CommandName.ofBytes name ≠ some known := by
      intro known handler found named
      rw [named] at missing
      cases found.symm.trans missing
    refine .inr ⟨handled .watch _ rfl, ⟨[], .of_same rfl rfl⟩, ?_⟩
    unfold keysLeft
    rw [if_neg (fun unwatch => handled .unwatch _ rfl unwatch.1)]

/-! ## Gates and queued commands -/

theorem admitted_watching (db : Database) (client : Client) :
    (admitted db client).watchedKeys = client.watchedKeys ∧
      (admitted db client).id = client.id ∧
      (admitted db client).dbindex = client.dbindex := by
  unfold admitted
  split
  · exact ⟨rfl, rfl, rfl⟩
  · exact ⟨rfl, rfl, rfl⟩

/-- Whether a command ends the watching at the gates. -/
def endsWatching (known : Option CommandName) (db : Database)
    (client : Client) : Prop :=
  known = some .discard ∧ (admitted db client).auth = true ∧
    client.multi = true

/-- A gate keeps the watched keys, unless it ends the watching. -/
theorem route_watchedKeys
    {known : Option CommandName} {command : ParsedCommand} {db : Database}
    {client after : Client} {reply : Response}
    (routed : route known command db client = .answered reply after) :
    after.id = client.id ∧
      (endsWatching known db client → after.watchedKeys = ∅) ∧
      (¬endsWatching known db client →
        after.watchedKeys = client.watchedKeys) := by
  obtain ⟨sameKeys, sameId, -⟩ := admitted_watching db client
  have sameMulti := (admitted_multi db client).1
  unfold endsWatching
  unfold route at routed
  dsimp only at routed
  split at routed
  · rename_i isAuth
    simp only [Route.answered.injEq] at routed
    obtain ⟨-, rfl⟩ := routed
    rw [← sameKeys, ← sameId]
    unfold authenticate
    split
    · simp [isAuth]
    · split
      · simp [isAuth]
      · split
        · simp [isAuth]
        · simp [isAuth]
  split at routed
  · rename_i refused
    cases routed
    have unknown : (admitted db client).auth = false := by
      simpa using refused
    simp [unknown, sameKeys, sameId]
  split at routed
  · rename_i isMulti
    simp only [Route.answered.injEq] at routed
    obtain ⟨-, rfl⟩ := routed
    rw [← sameKeys, ← sameId]
    unfold multi
    split
    · simp [isMulti]
    · simp [isMulti]
  split at routed
  · rename_i authenticated _ isDiscard
    have authenticated : (admitted db client).auth = true := by
      simpa using authenticated
    simp only [Route.answered.injEq] at routed
    obtain ⟨-, rfl⟩ := routed
    rw [← sameKeys, ← sameId, ← sameMulti]
    unfold discard
    split
    · rename_i inMulti
      simp [isDiscard, authenticated, inMulti, genericUnwatch]
    · rename_i outside
      simp [outside]
  rename_i notDiscard
  split at routed
  · cases routed
  split at routed
  · split at routed
    · cases routed
      simp [notDiscard, sameKeys, sameId]
    · cases routed
      simp [notDiscard, sameKeys, sameId]
  split at routed
  · simp only [Route.answered.injEq] at routed
    obtain ⟨-, rfl⟩ := routed
    rw [← sameKeys, ← sameId]
    unfold select
    split
    · simp [notDiscard]
    · split
      · simp [notDiscard]
      · simp [notDiscard]
  · cases routed

/-- A command that neither watches nor ends the watching, outside of MULTI. -/
structure Bystander (before after : Place) : Prop where
  unregisters : ∃ slots, Unregisters before.1 after.1 slots
  renameCommands :
    after.1.config.renameCommands = before.1.config.renameCommands
  watchedKeys : after.2.watchedKeys = before.2.watchedKeys
  id : after.2.id = before.2.id
  multi : after.2.multi = before.2.multi
  multiCommands : after.2.multiCommands = before.2.multiCommands

namespace Bystander

theorem refl (place : Place) : Bystander place place :=
  ⟨⟨[], .of_same rfl rfl⟩, rfl, rfl, rfl, rfl, rfl⟩

theorem trans {before between after : Place}
    (first : Bystander before between) (second : Bystander between after) :
    Bystander before after := by
  obtain ⟨firstSlots, firstUnregisters⟩ := first.unregisters
  obtain ⟨secondSlots, secondUnregisters⟩ := second.unregisters
  exact ⟨⟨_, firstUnregisters.trans secondUnregisters⟩,
    second.renameCommands.trans first.renameCommands,
    second.watchedKeys.trans first.watchedKeys, second.id.trans first.id,
    second.multi.trans first.multi,
    second.multiCommands.trans first.multiCommands⟩

end Bystander

/-- The logs change nothing about the watching. -/
theorem logged_unregisters
    (env : Env) (command : ParsedCommand) (executed : Executed) :
    Unregisters executed.db (logged env command executed).db [] := by
  obtain ⟨noted, -⟩ := logged_noted env command executed
  exact .of_same noted.watchedKeys noted.updates

/-- A command that could be queued, run outside of MULTI, stands by. -/
theorem commandAt_bystander
    {depth : Nat} {world : World} {command : ParsedCommand} {db : Database}
    {client : Client} {outcome : Outcome}
    (queueable : Queueable db command) (outside : client.multi = false)
    (ran : commandAt depth world command db client = some outcome) :
    Bystander (db, client) (outcome.db, outcome.client) := by
  obtain ⟨name, named, apart⟩ := queueable
  cases depth with
  | zero => cases ran
  | succ depth =>
      obtain ⟨executed, executes, rfl⟩ := Option.map_eq_some_iff.mp ran
      obtain ⟨noted, -, -, sameClient⟩ :=
        logged_noted world.here command executed
      have logs := logged_unregisters world.here command executed
      have logged : Bystander (executed.db, executed.client)
          ((logged world.here command executed).db, executed.client) :=
        ⟨⟨[], logs⟩, by rw [noted.config], rfl, rfl, rfl, rfl⟩
      rw [sameClient]
      refine .trans ?_ logged
      cases executeCommand_executes executes with
      | empty nothing => exact .refl _
      | unnamed something refused => exact .refl _
      | exec something otherNamed routed execRan =>
          cases named.symm.trans otherNamed
          exact absurd (route_exec routed).1
            (apart .exec (by simp [immediate]))
      | answered something otherNamed routed =>
          cases named.symm.trans otherNamed
          obtain ⟨stays, queue, -⟩ := route_outside apart outside routed
          obtain ⟨id, -, same⟩ := route_watchedKeys routed
          have goesOn : ¬endsWatching (CommandName.ofBytes name) db client :=
            fun ends => apart .discard (by simp [immediate]) ends.1
          exact ⟨⟨[], .of_same rfl rfl⟩, rfl, same goesOn, id,
            stays.trans outside.symm, queue⟩
      | dispatched something otherNamed routed dispatchRan =>
          cases named.symm.trans otherNamed
          obtain ⟨rfl, -⟩ := route_dispatched routed
          obtain ⟨fixed, -, -, -, kept⟩ := dispatch_recorded dispatchRan
          obtain ⟨watch, -⟩ | ⟨-, unregisters, keys⟩ :=
            dispatch_watching dispatchRan
          · exact absurd watch (apart .watch (by simp [immediate]))
          obtain ⟨sameKeys, sameId, -⟩ := admitted_watching db client
          refine ⟨unregisters, fixed.renameCommands, ?_,
            kept.id.trans sameId,
            kept.multi.trans (admitted_multi db client).1,
            kept.multiCommands.trans (admitted_multi db client).2⟩
          rw [keys, keysLeft, if_neg]
          · exact sameKeys
          · exact fun unwatch =>
              apart .unwatch (by simp [immediate]) unwatch.1

/-- So does a whole queue. -/
theorem execAll_bystander
    {depth : Nat} {world : World} {queue : List ParsedCommand}
    {position : Nat} {db afterDb : Database} {client after : Client}
    {replies : List Response}
    (queueable : ∀ command ∈ queue, Queueable db command)
    (outside : client.multi = false)
    (ran : execAll (fun position => commandAt depth
      (world.queued position)) position queue db client =
        some (replies, afterDb, after)) :
    Bystander (db, client) (afterDb, after) := by
  induction queue generalizing position db client replies with
  | nil =>
      cases ran
      exact .refl _
  | cons command rest ih =>
      simp only [execAll, Option.bind_eq_bind, Option.bind_eq_some_iff]
        at ran
      obtain ⟨outcome, first, ran⟩ := ran
      split at ran
      · cases ran
      · simp only [Option.bind_eq_some_iff] at ran
        obtain ⟨⟨others, place⟩, ran, finished⟩ := ran
        cases finished
        have one := commandAt_bystander
          (queueable command List.mem_cons_self) outside first
        refine one.trans (ih ?_ (one.multi.trans outside) ran)
        intro other member
        exact (queueable other (List.mem_cons_of_mem command member)).congr
          one.renameCommands

/-! ## Every command -/

/-- What a command asks of the watching: to watch slots, to end the period,
or nothing. -/
def asked (command : ParsedCommand) (db : Database) (client : Client) :
    List (WatchEvent Nat Slot) :=
  match commandName db command.arguments with
  | .error _ => []
  | .ok name =>
      let known := CommandName.ofBytes name
      match route known command db client with
      | .answered _ _ =>
          if known = some .discard ∧ (admitted db client).auth ∧
              client.multi then
            [.forget client.id]
          else []
      | .exec client => if client.multi then [.forget client.id] else []
      | .dispatched client =>
          if known = some .watch then
            let slots := slotsToWatch command.arguments client.dbindex
            [.watch client.id {slot | slot ∈ slots}]
          else if known = some .unwatch ∧ command.arguments.length = 1 then
            [.forget client.id]
          else []

/-- What a command did that asked for something, together with the slots that
were updated. -/
inductive WatchStep (before after : Place) :
    List (WatchEvent Nat Slot) → List Slot → Prop where
  | watches {slots : List Slot} (registers : Registers before after slots) :
      WatchStep before after [.watch before.2.id {slot | slot ∈ slots}] []
  | forgets {updated : List Slot}
      (unregisters : Unregisters before.1 after.1 updated)
      (nothing : after.2.watchedKeys = ∅) :
      WatchStep before after [.forget before.2.id] updated
  | keeps {updated : List Slot}
      (unregisters : Unregisters before.1 after.1 updated)
      (same : after.2.watchedKeys = before.2.watchedKeys) :
      WatchStep before after [] updated

theorem WatchStep.updates
    {before after : Place} {asks : List (WatchEvent Nat Slot)}
    {updated : List Slot} (step : WatchStep before after asks updated) :
    after.1.updates = updated ++ before.1.updates := by
  cases step with
  | watches registers => exact registers.updates
  | forgets unregisters nothing => exact unregisters.updates
  | keeps unregisters same => exact unregisters.updates

theorem WatchStep.logged
    {before : Place} {env : Env} {command : ParsedCommand}
    {executed : Executed} {asks : List (WatchEvent Nat Slot)}
    {updated : List Slot}
    (step : WatchStep before (executed.db, executed.client) asks updated) :
    WatchStep before
      ((logged env command executed).db, executed.client) asks updated := by
  have logs := logged_unregisters env command executed
  cases step with
  | watches registers =>
      refine .watches ⟨logs.updates.trans registers.updates, ?_,
        registers.watchedKeys⟩
      intro slot id
      rw [logs.verify, registers.verify]
      simp
  | forgets unregisters nothing =>
      exact .forgets (unregisters.trans logs) nothing
  | keeps unregisters same => exact .keeps (unregisters.trans logs) same

/-- EXEC inside MULTI: the client is left with no watched key and an empty
queue. -/
theorem exec_watching
    {depth : Nat} {world : World} {db afterDb : Database}
    {client after : Client} {reply : Response}
    (queueable : ∀ command ∈ client.multiCommands, Queueable db command)
    (ran : exec (fun position => commandAt depth (world.queued position))
      db client = some (reply, afterDb, after)) :
    after.id = client.id ∧
      (∃ updated, Unregisters db afterDb updated) ∧
      (client.multi = true → after.watchedKeys = ∅ ∧
        after.multiCommands = [] ∧ after.multi = false) ∧
      (client.multi = false → after = client ∧ afterDb = db) := by
  unfold exec at ran
  split at ran
  · rename_i outside
    cases ran
    have outside : client.multi = false := by simpa using outside
    exact ⟨rfl, ⟨[], .of_same rfl rfl⟩, by simp [outside], fun _ =>
      ⟨rfl, rfl⟩⟩
  · rename_i inMulti
    have inMulti : client.multi = true := by simpa using inMulti
    dsimp only at ran
    split at ran
    · cases ran
      exact ⟨rfl, ⟨[], .of_same rfl rfl⟩, fun _ => ⟨rfl, rfl, rfl⟩,
        by simp [inMulti]⟩
    · simp only [Option.bind_eq_bind, Option.bind_eq_some_iff] at ran
      obtain ⟨⟨replies, place⟩, ran, finished⟩ := ran
      cases finished
      have queue := execAll_bystander queueable rfl ran
      exact ⟨queue.id, queue.unregisters,
        fun _ => ⟨queue.watchedKeys, queue.multiCommands, queue.multi⟩,
        by simp [inMulti]⟩

/-- What a command asks of the watching, it does. -/
theorem command_watching
    {world : World} {command : ParsedCommand} {db : Database}
    {client : Client} {outcome : Outcome}
    (queueable : ∀ command ∈ client.multiCommands, Queueable db command)
    (ran : RedVector.command world command db client = some outcome) :
    outcome.client.id = client.id ∧
      ∃ updated, WatchStep (db, client) (outcome.db, outcome.client)
        (asked command db client) updated := by
  obtain ⟨executed, executes, rfl⟩ := Option.map_eq_some_iff.mp ran
  obtain ⟨-, -, -, sameClient⟩ := logged_noted world.here command executed
  obtain ⟨sameKeys, sameId, sameIndex⟩ := admitted_watching db client
  have sameMulti := (admitted_multi db client).1
  have sameQueue := (admitted_multi db client).2
  suffices step : executed.client.id = client.id ∧
      ∃ updated, WatchStep (db, client) (executed.db, executed.client)
        (asked command db client) updated by
    obtain ⟨id, updated, step⟩ := step
    rw [sameClient]
    exact ⟨id, updated, step.logged⟩
  unfold asked
  cases executeCommand_executes executes with
  | empty nothing =>
      have unnamed : ∃ reply, commandName db command.arguments =
          .error reply := by
        rw [nothing]
        exact ⟨_, rfl⟩
      obtain ⟨reply, unnamed⟩ := unnamed
      simp only [unnamed]
      exact ⟨trivial, [], .keeps (.of_same rfl rfl) rfl⟩
  | unnamed something refused =>
      simp only [refused]
      exact ⟨trivial, [], .keeps (.of_same rfl rfl) rfl⟩
  | answered something named routed =>
      obtain ⟨id, ends, goesOn⟩ := route_watchedKeys routed
      simp only [named, routed]
      refine ⟨id, [], ?_⟩
      split
      · rename_i ending
        exact .forgets (.of_same rfl rfl) (ends ending)
      · rename_i notEnding
        exact .keeps (.of_same rfl rfl) (goesOn notEnding)
  | exec something named routed execRan =>
      obtain ⟨-, rfl⟩ := route_exec routed
      simp only [named, routed]
      obtain ⟨id, ⟨updated, unregisters⟩, inside, outside⟩ :=
        exec_watching (by rw [sameQueue]; exact queueable) execRan
      refine ⟨id.trans sameId, updated, ?_⟩
      split
      · rename_i inMulti
        rw [sameId]
        exact .forgets unregisters (inside inMulti).1
      · rename_i notInMulti
        obtain ⟨rfl, rfl⟩ := outside (by simpa using notInMulti)
        exact .keeps unregisters sameKeys
  | dispatched something named routed dispatchRan =>
      obtain ⟨rfl, -⟩ := route_dispatched routed
      obtain ⟨-, -, -, -, kept⟩ := dispatch_recorded dispatchRan
      simp only [named, routed]
      refine ⟨kept.id.trans sameId, ?_⟩
      obtain ⟨watch, registers⟩ | ⟨notWatch, ⟨updated, unregisters⟩, keys⟩ :=
        dispatch_watching dispatchRan
      · refine ⟨[], ?_⟩
        rw [if_pos watch, sameId]
        refine .watches ⟨registers.updates, ?_, ?_⟩
        · intro slot id
          rw [registers.verify, sameId]
        · intro slot
          rw [registers.watchedKeys, sameKeys]
      · refine ⟨updated, ?_⟩
        rw [if_neg notWatch]
        unfold keysLeft at keys
        split
        · rename_i unwatch
          rw [if_pos unwatch] at keys
          rw [sameId]
          exact .forgets unregisters keys
        · rename_i notUnwatch
          rw [if_neg notUnwatch] at keys
          exact .keeps unregisters (keys.trans sameKeys)

end RedVector.Command
