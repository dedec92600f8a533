import RedVector.Command.Execute
import RedVector.Database.Effects

/-!
# What commands do

The fields of the database and of the client that a handler leaves alone,
whatever the handler is.
-/

namespace RedVector

open Util Effect

variable [Platform]

/-- The settings that CONFIG SET cannot change. -/
structure Config.SameFixed (before after : Config) : Prop where
  databases : after.databases = before.databases
  renameCommands : after.renameCommands = before.renameCommands
  requirepass : after.requirepass = before.requirepass
  aofLoadTruncated : after.aofLoadTruncated = before.aofLoadTruncated

namespace Config.SameFixed

omit [Platform] in
theorem refl (config : Config) : SameFixed config config :=
  ⟨rfl, rfl, rfl, rfl⟩

omit [Platform] in
theorem trans {before between after : Config}
    (first : SameFixed before between) (second : SameFixed between after) :
    SameFixed before after :=
  ⟨second.databases.trans first.databases,
    second.renameCommands.trans first.renameCommands,
    second.requirepass.trans first.requirepass,
    second.aofLoadTruncated.trans first.aofLoadTruncated⟩

end Config.SameFixed

/-- What no handler writes. -/
structure Database.Settled (before after : Database) : Prop where
  fixed : Config.SameFixed before.config after.config
  loading : after.loading = before.loading
  aof : after.aof = before.aof
  dispatched : after.dispatched = before.dispatched

namespace Database.Settled

theorem refl (db : Database) : Settled db db :=
  ⟨.refl db.config, rfl, rfl, rfl⟩

theorem trans {before between after : Database}
    (first : Settled before between) (second : Settled between after) :
    Settled before after :=
  ⟨first.fixed.trans second.fixed, second.loading.trans first.loading,
    second.aof.trans first.aof, second.dispatched.trans first.dispatched⟩

end Database.Settled

theorem Database.Frame.settled {before after : Database}
    (frame : Frame before after) : Settled before after := by
  refine ⟨?_, frame.loading, frame.aof, frame.dispatched⟩
  rw [frame.config]
  exact .refl before.config

/-- What no handler writes of a client. -/
structure Client.Kept (before after : Client) : Prop where
  dbindex : after.dbindex = before.dbindex
  auth : after.auth = before.auth
  multi : after.multi = before.multi
  multiCommands : after.multiCommands = before.multiCommands
  id : after.id = before.id

namespace Client.Kept

omit [Platform] in
theorem refl (client : Client) : Kept client client :=
  ⟨rfl, rfl, rfl, rfl, rfl⟩

omit [Platform] in
theorem trans {before between after : Client}
    (first : Kept before between) (second : Kept between after) :
    Kept before after :=
  ⟨second.dbindex.trans first.dbindex, second.auth.trans first.auth,
    second.multi.trans first.multi,
    second.multiCommands.trans first.multiCommands,
    second.id.trans first.id⟩

end Client.Kept

/-! ## What server commands write -/

namespace Database

/-- A relation between the states before and after that holds across the
writes of server commands. -/
structure Serves (relates : Database → Database → Prop) : Prop where
  refl : ∀ db, relates db db
  trans : ∀ {before between after},
    relates before between → relates between after → relates before after
  sent : ∀ db sent, relates db (db.withSent sent)
  monitors : ∀ db senders, relates db { db with monitorSenders := senders }
  saved : ∀ db time, relates db { db with lastSaveTime := time }
  config : ∀ db config, Config.SameFixed db.config config →
    relates db { db with config := config }
  slowlog : ∀ db entries id,
    relates db { db with slowlog := entries, slowlogId := id }

/-- A relation that also holds across subscriptions. -/
structure Subscribes (relates : Database → Database → Prop) : Prop
    extends Serves relates where
  channels : ∀ db subscribers patternSubscribers subscriberId, relates db
    { db with
      subscribers := subscribers
      patternSubscribers := patternSubscribers
      subscriberId := subscriberId }

end Database

open Database

namespace Database.Serves

variable {relates : Database → Database → Prop} {env : Env}
  {db after : Database}

theorem publish (serves : Serves relates) {argv : Arguments}
    {reply : Response}
    (published : Command.publish env argv db = some (reply, after)) :
    relates db after := by
  unfold Command.publish at published
  split at published
  · cases published
    exact serves.refl _
  · obtain ⟨⟨count, between⟩, sends, published⟩ :=
      Option.bind_eq_some_iff.mp published
    cases published
    obtain ⟨sent, rfl⟩ := publish_sent sends
    exact serves.sent db sent

theorem slowlogCommand (serves : Serves relates) (argv : Arguments)
    (db : Database) : relates db (Command.slowlog argv db).2 := by
  unfold Command.slowlog
  split
  · exact serves.refl db
  · dsimp only
    split
    · split
      · exact serves.refl db
      · exact serves.refl db
    · split
      · exact serves.refl db
      · split
        · exact serves.slowlog db [] 0
        · exact serves.refl db

omit [Platform] in
private theorem setting_sameFixed
    {α : Type} {param : String} {read : String → Bytes → Except Response α}
    {update : Config → α → Config} {config after : Config} {input : Bytes}
    (same : ∀ value, Config.SameFixed config (update config value))
    (set : (Command.setting param read update).2 config input = .ok after) :
    Config.SameFixed config after := by
  simp only [Command.setting] at set
  cases accepted : read param input with
  | error reply => simp [accepted] at set
  | ok value =>
      simp only [accepted] at set
      cases set
      exact same value

omit [Platform] in
theorem configSet_sameFixed
    {config after : Config} {argv : Arguments}
    (set : Command.configSet config argv = .ok after) :
    Config.SameFixed config after := by
  simp only [Command.configSet, bind, Except.bind] at set
  split at set
  · cases set
  split at set
  · cases set
  split at set
  · cases set
  unfold Command.applySetting at set
  split at set
  · rename_i entry found
    have known := List.mem_of_find?_eq_some found
    simp only [Command.settings, List.mem_cons, List.not_mem_nil, or_false]
      at known
    rcases known with rfl | rfl | rfl | rfl | rfl | rfl | rfl | rfl | rfl |
      rfl | rfl | rfl | rfl | rfl | rfl
    all_goals exact setting_sameFixed (fun _ => ⟨rfl, rfl, rfl, rfl⟩) set
  · cases set

theorem configCommand (serves : Serves relates) (argv : Arguments)
    (db : Database) : relates db (Command.config argv db).2 := by
  unfold Command.config
  split
  · exact serves.refl db
  · dsimp only
    split
    · exact serves.refl db
    · split
      · split
        · rename_i after set
          exact serves.config db after (configSet_sameFixed set)
        · exact serves.refl db
      · exact serves.refl db

theorem server (serves : Serves relates) {name : CommandName}
    {handle : Env → Arguments → Nat → Database →
      Option (Response × Database)}
    (found : Handler.ofName name = some (.server handle))
    {argv : Arguments} {id : Nat} {reply : Response}
    (handled : handle env argv id db = some (reply, after)) :
    relates db after := by
  have same : ∀ {answer : Response × Database},
      some answer = some (reply, after) → answer.2 = after :=
    fun equal => congrArg Prod.snd (Option.some.inj equal)
  cases name
  case publish =>
    cases found
    exact serves.publish handled
  case pubsub =>
    cases found
    obtain ⟨_, _, answered⟩ := Option.map_eq_some_iff.mp handled
    cases answered
    exact serves.refl _
  case monitor =>
    cases found
    rw [← same handled]
    unfold Command.monitor
    split
    · exact serves.refl db
    · exact serves.monitors db _
  case save =>
    cases found
    rw [← same handled]
    unfold Command.save
    split
    · exact serves.refl db
    · exact serves.saved db _
  case config =>
    cases found
    exact same handled ▸ serves.configCommand argv db
  case slowlog =>
    cases found
    exact same handled ▸ serves.slowlogCommand argv db
  all_goals
    cases found
    try
      cases handled
      exact serves.refl _

theorem send (serves : Serves relates) (env : Env) (db : Database)
    (client : Nat) (response : Response) :
    relates db (db.send env client response).2 := by
  unfold Database.send
  split
  · exact serves.sent db _
  · exact serves.refl db

/-- The logs are written beside everything else. -/
theorem logged (serves : Serves relates)
    (aof : ∀ db aof, relates db { db with aof := aof }) (env : Env)
    (command : ParsedCommand) (executed : Executed) :
    relates executed.db (Command.logged env command executed).db := by
  have logs : ∀ db : Database, relates db
      (db.logCommand env executed.client.dbindex command
        executed.write) := by
    intro db
    have told := serves.trans (serves.monitors db
      (db.monitorSenders.filter env.receives)) (serves.sent _ (db.sent ++
        (db.monitorSenders.filter env.receives).map fun client =>
          .monitor client (showCommand command.arguments)))
    unfold Database.logCommand
    dsimp only
    split
    · exact serves.trans told (aof _ _)
    · exact told
  have slow : ∀ db : Database,
      relates db (db.slowlogAdd env command) := by
    intro db
    unfold Database.slowlogAdd
    dsimp only
    split
    · exact serves.slowlog db _ _
    · exact serves.refl db
  unfold Command.logged
  split
  · exact serves.trans (logs executed.db) (slow _)
  · exact serves.refl executed.db

end Database.Serves

namespace Database.Subscribes

variable {relates : Database → Database → Prop}

theorem unsubscribe (subscribes : Subscribes relates) (db : Database)
    (channel : Bytes) (subscriberId : Nat) :
    relates db (db.unsubscribe channel subscriberId).2 := by
  unfold Database.unsubscribe
  split
  · exact subscribes.refl db
  · exact subscribes.channels db _ db.patternSubscribers db.subscriberId

theorem punsubscribe (subscribes : Subscribes relates) (db : Database)
    (pattern : Bytes) (subscriberId : Nat) :
    relates db (db.punsubscribe pattern subscriberId).2 := by
  unfold Database.punsubscribe
  split
  · exact subscribes.refl db
  · exact subscribes.channels db db.subscribers _ db.subscriberId

theorem subscribeTo (subscribes : Subscribes relates) (env : Env)
    (place : Command.Place) (channel : Bytes) :
    relates place.1 (Command.subscribeTo env place channel).1 := by
  refine subscribes.trans ?_ (subscribes.send env _ place.2.id _)
  dsimp only
  split
  · exact subscribes.refl place.1
  · exact subscribes.channels place.1 _ place.1.patternSubscribers
      (place.1.subscriberId + 1)

theorem psubscribeTo (subscribes : Subscribes relates) (env : Env)
    (place : Command.Place) (pattern : Bytes) :
    relates place.1 (Command.psubscribeTo env place pattern).1 :=
  subscribes.trans (subscribes.channels place.1 place.1.subscribers _
    (place.1.subscriberId + 1)) (subscribes.send env _ place.2.id _)

theorem unsubscribeFrom (subscribes : Subscribes relates) (env : Env)
    (count : HashMap Bytes Nat → Nat) (place : Command.Place)
    (channel : Bytes) :
    relates place.1 (Command.unsubscribeFrom env count place channel).1 := by
  refine subscribes.trans ?_ (subscribes.send env _ place.2.id _)
  split
  · exact subscribes.unsubscribe place.1 channel _
  · exact subscribes.refl place.1

theorem punsubscribeFrom (subscribes : Subscribes relates) (env : Env)
    (count : HashMap Bytes Nat → Nat) (place : Command.Place)
    (pattern : Bytes) :
    relates place.1 (Command.punsubscribeFrom env count place pattern).1 := by
  refine subscribes.trans ?_ (subscribes.send env _ place.2.id _)
  split
  · exact subscribes.punsubscribe place.1 pattern _
  · exact subscribes.refl place.1

end Database.Subscribes

namespace Command

/-! ## Server commands -/

/-- The keys, their watchers and the settled fields are as they were. -/
structure Untouched (before after : Database) : Prop where
  settled : Database.Settled before after
  data : after.data = before.data
  dataExpirationMs : after.dataExpirationMs = before.dataExpirationMs
  watchedKeys : after.watchedKeys = before.watchedKeys
  updates : after.updates = before.updates

namespace Untouched

theorem refl (db : Database) : Untouched db db :=
  ⟨.refl db, rfl, rfl, rfl, rfl⟩

theorem trans {before between after : Database}
    (first : Untouched before between) (second : Untouched between after) :
    Untouched before after :=
  ⟨first.settled.trans second.settled, second.data.trans first.data,
    second.dataExpirationMs.trans first.dataExpirationMs,
    second.watchedKeys.trans first.watchedKeys,
    second.updates.trans first.updates⟩

end Untouched

theorem untouched_subscribes : Subscribes Untouched where
  refl := .refl
  trans := .trans
  sent := fun db sent =>
    ⟨(frame_withSent db sent).settled, rfl, rfl, rfl, rfl⟩
  monitors := fun _ _ => ⟨⟨.refl _, rfl, rfl, rfl⟩, rfl, rfl, rfl, rfl⟩
  saved := fun _ _ => ⟨⟨.refl _, rfl, rfl, rfl⟩, rfl, rfl, rfl, rfl⟩
  config := fun _ _ fixed => ⟨⟨fixed, rfl, rfl, rfl⟩, rfl, rfl, rfl, rfl⟩
  slowlog := fun _ _ _ => ⟨⟨.refl _, rfl, rfl, rfl⟩, rfl, rfl, rfl, rfl⟩
  channels := fun _ _ _ _ => ⟨⟨.refl _, rfl, rfl, rfl⟩, rfl, rfl, rfl, rfl⟩

/-! ## Session commands -/

/-- A command that changes nothing but the subscriptions. -/
structure Resubscribes (before after : Place) : Prop where
  untouched : Untouched before.1 after.1
  kept : Client.Kept before.2 after.2
  watchedKeys : after.2.watchedKeys = before.2.watchedKeys

namespace Resubscribes

theorem refl (before : Place) : Resubscribes before before :=
  ⟨.refl before.1, .refl before.2, rfl⟩

theorem trans {before between after : Place}
    (first : Resubscribes before between)
    (second : Resubscribes between after) :
    Resubscribes before after :=
  ⟨first.untouched.trans second.untouched, first.kept.trans second.kept,
    second.watchedKeys.trans first.watchedKeys⟩

end Resubscribes

theorem subscribeTo_resubscribes (env : Env) (place : Place)
    (channel : Bytes) :
    Resubscribes place (subscribeTo env place channel) :=
  ⟨untouched_subscribes.subscribeTo env place channel,
    ⟨rfl, rfl, rfl, rfl, rfl⟩, rfl⟩

theorem psubscribeTo_resubscribes (env : Env) (place : Place)
    (pattern : Bytes) :
    Resubscribes place (psubscribeTo env place pattern) :=
  ⟨untouched_subscribes.psubscribeTo env place pattern,
    ⟨rfl, rfl, rfl, rfl, rfl⟩, rfl⟩

theorem unsubscribeFrom_resubscribes (env : Env)
    (count : HashMap Bytes Nat → Nat) (place : Place) (channel : Bytes) :
    Resubscribes place (unsubscribeFrom env count place channel) :=
  ⟨untouched_subscribes.unsubscribeFrom env count place channel,
    ⟨rfl, rfl, rfl, rfl, rfl⟩, rfl⟩

theorem punsubscribeFrom_resubscribes (env : Env)
    (count : HashMap Bytes Nat → Nat) (place : Place) (pattern : Bytes) :
    Resubscribes place (punsubscribeFrom env count place pattern) :=
  ⟨untouched_subscribes.punsubscribeFrom env count place pattern,
    ⟨rfl, rfl, rfl, rfl, rfl⟩, rfl⟩

/-- What one channel does, a list of channels does. -/
theorem foldl_resubscribes
    {one : Place → Bytes → Place}
    (each : ∀ place name, Resubscribes place (one place name))
    (names : List Bytes) (place : Place) :
    Resubscribes place (names.foldl one place) := by
  induction names generalizing place with
  | nil => exact .refl place
  | cons name rest ih => exact (each place name).trans (ih _)

theorem subscribe_resubscribes (env : Env) (argv : Arguments)
    (db : Database) (client : Client) :
    Resubscribes (db, client) (subscribe env argv db client).2 := by
  unfold subscribe
  split
  · exact foldl_resubscribes (subscribeTo_resubscribes env) _ _
  · exact .refl _

theorem psubscribe_resubscribes (env : Env) (argv : Arguments)
    (db : Database) (client : Client) :
    Resubscribes (db, client) (psubscribe env argv db client).2 := by
  unfold psubscribe
  split
  · exact foldl_resubscribes (psubscribeTo_resubscribes env) _ _
  · exact .refl _

private theorem sent_resubscribes (env : Env) (place : Place)
    (response : Response) :
    Resubscribes place
      ((place.1.send env place.2.id response).2, place.2) :=
  ⟨untouched_subscribes.send env place.1 place.2.id response,
    .refl place.2, rfl⟩

theorem unsubscribe_resubscribes (env : Env) (argv : Arguments)
    (db : Database) (client : Client) :
    Resubscribes (db, client) (unsubscribe env argv db client).2 := by
  unfold unsubscribe
  dsimp only
  split
  · split
    · exact sent_resubscribes env (db, client) _
    · exact foldl_resubscribes (unsubscribeFrom_resubscribes env _) _ _
  · exact foldl_resubscribes (unsubscribeFrom_resubscribes env _) _ _

theorem punsubscribe_resubscribes (env : Env) (argv : Arguments)
    (db : Database) (client : Client) :
    Resubscribes (db, client) (punsubscribe env argv db client).2 := by
  unfold punsubscribe
  dsimp only
  split
  · split
    · exact sent_resubscribes env (db, client) _
    · exact foldl_resubscribes (punsubscribeFrom_resubscribes env _) _ _
  · exact foldl_resubscribes (punsubscribeFrom_resubscribes env _) _ _

/-! ## Watching -/

/-- The databases and clients after a command that watches the slots. -/
structure Watches (before after : Place) (slots : List Slot) : Prop where
  settled : Database.Settled before.1 after.1
  data : after.1.data = before.1.data
  dataExpirationMs :
    after.1.dataExpirationMs = before.1.dataExpirationMs
  updates : after.1.updates = before.1.updates
  kept : Client.Kept before.2 after.2
  registered : ∀ slot id,
    after.1.keyWatchVerify slot.1 slot.2 id = true ↔
      before.1.keyWatchVerify slot.1 slot.2 id = true ∨
        id = before.2.id ∧ slot ∈ slots
  watchedKeys : ∀ slot, slot ∈ after.2.watchedKeys ↔
    slot ∈ before.2.watchedKeys ∨ slot ∈ slots

/-- The slots that WATCH registers. -/
def slotsToWatch (argv : Arguments) (dbindex : Nat) : List Slot :=
  if 2 ≤ argv.length then argv.tail.map fun key => (dbindex, key) else []

theorem keyWatchVerify_iff (db : Database) (slot : Slot) (id : Nat) :
    db.keyWatchVerify slot.1 slot.2 id = true ↔
      ∃ watchers, db.watchers slot = some watchers ∧ id ∈ watchers := by
  unfold Database.keyWatchVerify Database.watchers
  cases (db.watchedKeys slot.1).lookup slot.2 with
  | none => simp
  | some watchers => simp

theorem keyWatch_verify (db : Database) (index : Nat) (key : Bytes)
    (identifier : Nat) (slot : Slot) (id : Nat) :
    (db.keyWatch index key identifier).keyWatchVerify slot.1 slot.2 id =
        true ↔
      db.keyWatchVerify slot.1 slot.2 id = true ∨
        id = identifier ∧ slot = (index, key) := by
  have watched := lookup_update_insert db.watchedKeys slot index key
    (insert identifier (((db.watchedKeys index).lookup key).getD ∅))
  have after : (db.keyWatch index key identifier).watchers slot = _ :=
    watched
  rw [keyWatchVerify_iff, keyWatchVerify_iff, after]
  by_cases same : slot = (index, key)
  · subst same
    simp only [if_true, Option.some.injEq, exists_eq_left',
      Finset.mem_insert, and_true]
    unfold Database.watchers
    cases (db.watchedKeys index).lookup key with
    | none => simp
    | some watchers => simp [or_comm]
  · simp [same, Database.watchers]

theorem watchKeys_watches (keys : List Bytes) (place : Place) :
    Watches place (keys.foldl watchKey place)
      (keys.map fun key => (place.2.dbindex, key)) := by
  induction keys generalizing place with
  | nil =>
      exact ⟨.refl _, rfl, rfl, rfl, .refl _, by simp, by simp⟩
  | cons key rest ih =>
      rw [List.foldl_cons]
      have others := ih (watchKey place key)
      have first : Database.Settled place.1 (watchKey place key).1 :=
        ⟨.refl _, rfl, rfl, rfl⟩
      have kept : Client.Kept place.2 (watchKey place key).2 :=
        ⟨rfl, rfl, rfl, rfl, rfl⟩
      refine ⟨first.trans others.settled, others.data,
        others.dataExpirationMs, others.updates, kept.trans others.kept, ?_,
        ?_⟩
      · intro slot id
        rw [others.registered]
        simp only [watchKey, keyWatch_verify, List.map_cons, List.mem_cons]
        tauto
      · intro slot
        rw [others.watchedKeys]
        simp only [watchKey, Finset.mem_insert, List.map_cons,
          List.mem_cons]
        tauto

end Command

namespace Handler

open Command

/-- What a session command does: it watches keys, it forgets the watched
ones, or it changes the subscriptions. -/
theorem session_effect
    {name : CommandName}
    {handle : Env → Arguments → Database → Client → Option Command.Session}
    (found : ofName name = some (session handle))
    {env : Env} {argv : Arguments} {db : Database} {client : Client}
    {answer : Answer} {place : Place}
    (handled : handle env argv db client = some (answer, place)) :
    (name = .watch ∧
        Watches (db, client) place (slotsToWatch argv client.dbindex)) ∨
      (name = .unwatch ∧ place.1 = db ∧
        place.2 = { client with
          watchedKeys :=
            if argv.length = 1 then ∅ else client.watchedKeys }) ∨
      (name ≠ .watch ∧ name ≠ .unwatch ∧
        Resubscribes (db, client) place) := by
  cases name
  case watch =>
    cases found
    refine .inl ⟨rfl, ?_⟩
    unfold slotsToWatch
    dsimp only [watch] at handled
    split at handled
    · rename_i enough
      obtain ⟨-, watched⟩ := Database.checked_eq_some.mp handled
      cases watched
      rw [if_pos enough]
      exact watchKeys_watches argv.tail (db, client)
    · rename_i few
      cases handled
      rw [if_neg few]
      exact watchKeys_watches [] (db, client)
  case unwatch =>
    cases found
    refine .inr (.inl ⟨rfl, ?_⟩)
    have same : (unwatch argv db client).2 = place :=
      congrArg Prod.snd (Option.some.inj handled)
    rw [← same]
    unfold unwatch
    split
    · exact ⟨rfl, rfl⟩
    · exact ⟨rfl, rfl⟩
  case subscribe =>
    cases found
    have same : (subscribe env argv db client).2 = place :=
      congrArg Prod.snd (Option.some.inj handled)
    exact .inr (.inr ⟨nofun, nofun,
      same ▸ subscribe_resubscribes env argv db client⟩)
  case unsubscribe =>
    cases found
    have same : (unsubscribe env argv db client).2 = place :=
      congrArg Prod.snd (Option.some.inj handled)
    exact .inr (.inr ⟨nofun, nofun,
      same ▸ unsubscribe_resubscribes env argv db client⟩)
  case psubscribe =>
    cases found
    have same : (psubscribe env argv db client).2 = place :=
      congrArg Prod.snd (Option.some.inj handled)
    exact .inr (.inr ⟨nofun, nofun,
      same ▸ psubscribe_resubscribes env argv db client⟩)
  case punsubscribe =>
    cases found
    have same : (punsubscribe env argv db client).2 = place :=
      congrArg Prod.snd (Option.some.inj handled)
    exact .inr (.inr ⟨nofun, nofun,
      same ▸ punsubscribe_resubscribes env argv db client⟩)
  all_goals
    cases found
    try
      cases handled
      exact .inr (.inr ⟨nofun, nofun, .refl _⟩)

theorem finished_db (client : Client)
    (result : Except Response Answer × Database) :
    (finished client result).db = result.2 ∧
      (finished client result).client = client := by
  obtain ⟨answer, db⟩ := result
  cases answer with
  | ok answer => exact ⟨rfl, rfl⟩
  | error reply => exact ⟨rfl, rfl⟩

/-- A handler that is a program leaves what a program leaves. -/
private theorem finished_effect
    {env : Env} {program : Writer Answer} {db : Database} {client : Client}
    {outcome : Outcome}
    (ran : (program.run (Database.machine env) db).map (finished client) =
      some outcome) :
    Database.Frame db outcome.db ∧ Database.Invalidates db outcome.db ∧
      outcome.client = client := by
  obtain ⟨⟨result, after⟩, programRun, rfl⟩ := Option.map_eq_some_iff.mp ran
  obtain ⟨sameDb, sameClient⟩ := finished_db client (result, after)
  obtain ⟨frame, invalidates⟩ := Database.run_frame program programRun
  rw [sameDb]
  exact ⟨frame, invalidates, sameClient⟩

/-- The handlers of the keys are programs of database operations. -/
theorem run_program
    {handler : Handler} {env : Env} {argv : Arguments} {db : Database}
    {client : Client} {outcome : Outcome}
    (ran : handler.run env argv db client = some outcome) :
    ((∀ handle, handler ≠ session handle) ∧
      Database.Frame db outcome.db ∧ Database.Invalidates db outcome.db ∧
      outcome.client = client) ∨
    (∃ handle, handler = server handle) ∨
      ∃ handle, handler = session handle := by
  cases handler with
  | reader handle => exact .inl ⟨nofun, finished_effect ran⟩
  | writer handle => exact .inl ⟨nofun, finished_effect ran⟩
  | blocking handle => exact .inl ⟨nofun, finished_effect ran⟩
  | server handle => exact .inr (.inl ⟨handle, rfl⟩)
  | session handle => exact .inr (.inr ⟨handle, rfl⟩)

/-- What no handler writes, of the database and of the client. -/
theorem run_settled
    {name : CommandName} {handler : Handler}
    (found : ofName name = some handler) {env : Env} {argv : Arguments}
    {db : Database} {client : Client} {outcome : Outcome}
    (ran : handler.run env argv db client = some outcome) :
    Database.Settled db outcome.db ∧
      Client.Kept client outcome.client := by
  obtain program | ⟨handle, rfl⟩ | ⟨handle, rfl⟩ := run_program ran
  · obtain ⟨-, frame, -, same⟩ := program
    exact ⟨frame.settled, same ▸ .refl client⟩
  · simp only [run, Option.bind_eq_bind, Option.bind_eq_some_iff] at ran
    obtain ⟨⟨reply, after⟩, handled, finished⟩ := ran
    cases finished
    exact ⟨(untouched_subscribes.server found handled).settled, .refl _⟩
  · simp only [run, Option.bind_eq_bind, Option.bind_eq_some_iff] at ran
    obtain ⟨⟨answer, after, afterClient⟩, handled, finished⟩ := ran
    cases finished
    obtain ⟨-, watches⟩ | ⟨-, sameDb, sameClient⟩ | ⟨-, -, resubscribes⟩ :=
      session_effect found handled
    · exact ⟨watches.settled, watches.kept⟩
    · dsimp only at sameDb sameClient
      subst sameDb
      subst sameClient
      exact ⟨.refl _, ⟨rfl, rfl, rfl, rfl, rfl⟩⟩
    · exact ⟨resubscribes.untouched.settled, resubscribes.kept⟩

end Handler

namespace Command

/-! ## Dispatching and logging -/

/-- A dispatched command is recorded and then handled. -/
theorem dispatch_recorded
    {env : Env} {name : Bytes} {write : Bool} {command : ParsedCommand}
    {db : Database} {client : Client} {outcome : Outcome}
    (dispatched : dispatch env name write command db client =
      some outcome) :
    Config.SameFixed db.config outcome.db.config ∧
      outcome.db.loading = db.loading ∧ outcome.db.aof = db.aof ∧
      outcome.db.dispatched =
        db.dispatched ++ [⟨client.dbindex, command, write⟩] ∧
      Client.Kept client outcome.client := by
  unfold dispatch at dispatched
  dsimp only at dispatched
  split at dispatched
  · rename_i handler found
    obtain ⟨known, -, found⟩ := Option.bind_eq_some_iff.mp found
    obtain ⟨settled, kept⟩ := Handler.run_settled found dispatched
    exact ⟨settled.fixed, settled.loading, settled.aof, settled.dispatched,
      kept⟩
  · cases dispatched
    exact ⟨.refl _, rfl, rfl, rfl, .refl _⟩

/-- Whether a command with this name is written to the append only file. -/
def writeFlag (name : Bytes) : Bool :=
  !(commandProperties name).isReadonly

/-- The ways in which `execute_command` returns. -/
inductive Executes (env : Env)
    (exec : Database → Client → Option (Response × Database × Client))
    (command : ParsedCommand) (db : Database) (client : Client) :
    Executed → Prop where
  | empty (nothing : command.arguments = []) :
      Executes env exec command db client
        ⟨⟨.error .noReply, db, client⟩, true, false⟩
  | unnamed {reply : Response} (something : command.arguments ≠ [])
      (refused : commandName db command.arguments = .error reply) :
      Executes env exec command db client
        ⟨⟨.ok reply, db, client⟩, true, false⟩
  | answered {name : Bytes} {reply : Response} {after : Client}
      (something : command.arguments ≠ [])
      (named : commandName db command.arguments = .ok name)
      (routed : route (CommandName.ofBytes name) command db client =
        .answered reply after) :
      Executes env exec command db client
        ⟨⟨.ok reply, db, after⟩, true, writeFlag name⟩
  | exec {name : Bytes} {reply : Response} {between after : Client}
      {afterDb : Database}
      (something : command.arguments ≠ [])
      (named : commandName db command.arguments = .ok name)
      (routed : route (CommandName.ofBytes name) command db client =
        .exec between)
      (ran : exec db between = some (reply, afterDb, after)) :
      Executes env exec command db client
        ⟨⟨.ok reply, afterDb, after⟩, true, writeFlag name⟩
  | dispatched {name : Bytes} {between : Client} {outcome : Outcome}
      (something : command.arguments ≠ [])
      (named : commandName db command.arguments = .ok name)
      (routed : route (CommandName.ofBytes name) command db client =
        .dispatched between)
      (ran : dispatch env name (writeFlag name) command db between =
        some outcome) :
      Executes env exec command db client
        ⟨outcome, !decide (CommandName.ofBytes name = some .monitor),
          writeFlag name⟩

theorem executeCommand_executes
    {env : Env}
    {exec : Database → Client → Option (Response × Database × Client)}
    {command : ParsedCommand} {db : Database} {client : Client}
    {executed : Executed}
    (ran : executeCommand env exec command db client = some executed) :
    Executes env exec command db client executed := by
  unfold executeCommand at ran
  split at ran
  · rename_i nothing
    cases ran
    exact .empty (List.isEmpty_iff.mp nothing)
  · rename_i something
    have something : command.arguments ≠ [] := by
      simpa [List.isEmpty_iff] using something
    split at ran
    · rename_i refused
      cases ran
      exact .unnamed something refused
    · rename_i name named
      dsimp only at ran
      split at ran
      · rename_i routed
        cases ran
        exact .answered something named routed
      · rename_i routed
        obtain ⟨⟨reply, afterDb, after⟩, executed, rfl⟩ :=
          Option.map_eq_some_iff.mp ran
        exact .exec something named routed executed
      · rename_i routed
        obtain ⟨outcome, dispatched, rfl⟩ := Option.map_eq_some_iff.mp ran
        exact .dispatched something named routed dispatched

/-- Only EXEC executes a queue. -/
theorem route_exec
    {known : Option CommandName} {command : ParsedCommand} {db : Database}
    {client between : Client}
    (routed : route known command db client = .exec between) :
    known = some .exec ∧ between = admitted db client := by
  unfold route at routed
  dsimp only at routed
  split at routed
  · cases routed
  split at routed
  · cases routed
  split at routed
  · cases routed
  split at routed
  · cases routed
  split at routed
  · rename_i exec
    cases routed
    exact ⟨exec, rfl⟩
  split at routed
  · split at routed
    · cases routed
    · cases routed
  split at routed
  · cases routed
  · cases routed

/-- The ways in which a gate answers a command. -/
inductive Gated (known : Option CommandName) (command : ParsedCommand)
    (db : Database) (client : Client) : Response → Client → Prop where
  | auth (named : known = some .auth) :
      Gated known command db client
        (authenticate command.arguments db (admitted db client)).1
        (authenticate command.arguments db (admitted db client)).2
  | outsider (unnamed : known ≠ some .auth)
      (outside : (admitted db client).auth = false) :
      Gated known command db client
        (.fail "NOAUTH Authentication required.") (admitted db client)
  | multi (named : known = some .multi)
      (inside : (admitted db client).auth = true) :
      Gated known command db client (multi (admitted db client)).1
        (multi (admitted db client)).2
  | discard (named : known = some .discard)
      (inside : (admitted db client).auth = true) :
      Gated known command db client (discard db (admitted db client)).1
        (discard db (admitted db client)).2
  | watch (named : known = some .watch ∨ known = some .unwatch)
      (inside : (admitted db client).auth = true)
      (inMulti : (admitted db client).multi = true) :
      Gated known command db client
        (.fail "ERR WATCH not allowed inside MULTI") (admitted db client)
  | queued (others : ∀ gate ∈ [CommandName.auth, .multi, .discard, .exec,
        .watch, .unwatch], known ≠ some gate)
      (inside : (admitted db client).auth = true)
      (inMulti : (admitted db client).multi = true) :
      Gated known command db client (.status (text "QUEUED"))
        { admitted db client with
          multiCommands := (admitted db client).multiCommands ++ [command] }
  | select (named : known = some .select)
      (inside : (admitted db client).auth = true)
      (notInMulti : (admitted db client).multi = false) :
      Gated known command db client
        (select command.arguments db (admitted db client)).1
        (select command.arguments db (admitted db client)).2

theorem route_answered
    {known : Option CommandName} {command : ParsedCommand} {db : Database}
    {client after : Client} {reply : Response}
    (routed : route known command db client = .answered reply after) :
    Gated known command db client reply after := by
  unfold route at routed
  dsimp only at routed
  split at routed
  · rename_i named
    cases routed
    exact .auth named
  rename_i notAuth
  split at routed
  · rename_i outside
    cases routed
    exact .outsider notAuth (by simpa using outside)
  rename_i inside
  have inside : (admitted db client).auth = true := by simpa using inside
  split at routed
  · rename_i named
    cases routed
    exact .multi named inside
  rename_i notMulti
  split at routed
  · rename_i named
    cases routed
    exact .discard named inside
  rename_i notDiscard
  split at routed
  · cases routed
  rename_i notExec
  split at routed
  · rename_i inMulti
    split at routed
    · rename_i named
      cases routed
      exact .watch named inside inMulti
    · rename_i notWatch
      cases routed
      rw [not_or] at notWatch
      exact .queued (by simp [notAuth, notMulti, notDiscard, notExec,
        notWatch]) inside inMulti
  rename_i notInMulti
  split at routed
  · rename_i named
    cases routed
    exact .select named inside (by simpa using notInMulti)
  · cases routed

theorem admitted_multi (db : Database) (client : Client) :
    (admitted db client).multi = client.multi ∧
      (admitted db client).multiCommands = client.multiCommands := by
  unfold admitted
  split
  · exact ⟨rfl, rfl⟩
  · exact ⟨rfl, rfl⟩

/-- A command that reaches its handler has passed every gate. -/
theorem route_dispatched
    {known : Option CommandName} {command : ParsedCommand} {db : Database}
    {client between : Client}
    (routed : route known command db client = .dispatched between) :
    between = admitted db client ∧ between.auth = true ∧
      client.multi = false ∧ ∀ gate ∈ [CommandName.auth, .multi, .discard,
        .exec, .select], known ≠ some gate := by
  have multi := (admitted_multi db client).1
  unfold route at routed
  dsimp only at routed
  split at routed
  · cases routed
  rename_i notAuth
  split at routed
  · cases routed
  rename_i authenticated
  split at routed
  · cases routed
  rename_i notMulti
  split at routed
  · cases routed
  rename_i notDiscard
  split at routed
  · cases routed
  rename_i notExec
  split at routed
  · split at routed
    · cases routed
    · cases routed
  rename_i outside
  split at routed
  · cases routed
  rename_i notSelect
  cases routed
  refine ⟨rfl, by simpa using authenticated, ?_, ?_⟩
  · rw [← multi]
    simpa using outside
  · simp [notAuth, notMulti, notDiscard, notExec, notSelect]

/-- What writing to the logs leaves alone. -/
structure Noted (before after : Database) : Prop where
  config : after.config = before.config
  loading : after.loading = before.loading
  dispatched : after.dispatched = before.dispatched
  data : after.data = before.data
  dataExpirationMs : after.dataExpirationMs = before.dataExpirationMs
  watchedKeys : after.watchedKeys = before.watchedKeys
  updates : after.updates = before.updates

theorem slowlogAdd_noted (env : Env) (db : Database)
    (command : ParsedCommand) :
    Noted db (db.slowlogAdd env command) ∧
      (db.slowlogAdd env command).aof = db.aof := by
  unfold Database.slowlogAdd
  dsimp only
  split
  · exact ⟨⟨rfl, rfl, rfl, rfl, rfl, rfl, rfl⟩, rfl⟩
  · exact ⟨⟨rfl, rfl, rfl, rfl, rfl, rfl, rfl⟩, rfl⟩

theorem logCommand_noted (env : Env) (db : Database) (dbindex : Nat)
    (command : ParsedCommand) (write : Bool) :
    Noted db (db.logCommand env dbindex command write) ∧
      (db.logCommand env dbindex command write).aof =
        if write then db.aof.map fun aof => aof.write dbindex command
        else db.aof := by
  unfold Database.logCommand
  dsimp only
  split
  · exact ⟨⟨rfl, rfl, rfl, rfl, rfl, rfl, rfl⟩, rfl⟩
  · exact ⟨⟨rfl, rfl, rfl, rfl, rfl, rfl, rfl⟩, rfl⟩

/-- The append only file after a command that was executed. -/
def loggedAof (command : ParsedCommand) (executed : Executed) :
    Option Aof :=
  if executed.log && executed.write then
    executed.db.aof.map fun aof =>
      aof.write executed.client.dbindex command
  else executed.db.aof

/-- The logs touch no key. -/
theorem logged_noted (env : Env) (command : ParsedCommand)
    (executed : Executed) :
    Noted executed.db (logged env command executed).db ∧
      (logged env command executed).db.aof =
        loggedAof command executed ∧
      (logged env command executed).answer = executed.answer ∧
      (logged env command executed).client = executed.client := by
  unfold logged loggedAof
  cases executed.log with
  | false => exact ⟨⟨rfl, rfl, rfl, rfl, rfl, rfl, rfl⟩, rfl, rfl, rfl⟩
  | true =>
      obtain ⟨logs, aof⟩ := logCommand_noted env executed.db
        executed.client.dbindex command executed.write
      obtain ⟨slow, sameAof⟩ := slowlogAdd_noted env
        (executed.db.logCommand env executed.client.dbindex command
          executed.write) command
      refine ⟨⟨slow.config.trans logs.config,
        slow.loading.trans logs.loading,
        slow.dispatched.trans logs.dispatched, slow.data.trans logs.data,
        slow.dataExpirationMs.trans logs.dataExpirationMs,
        slow.watchedKeys.trans logs.watchedKeys,
        slow.updates.trans logs.updates⟩, ?_, rfl, rfl⟩
      exact sameAof.trans aof

end Command

end RedVector
