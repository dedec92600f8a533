import RedVector.Command.Along
import RedVector.Database.Writes

/-!
# What is beside the keys

The handlers that are no programs of database operations, the gates in front
of all handlers and the logs behind them write fields beside the keys.  A
relation between states that holds across each such write holds across all of
them.
-/

namespace RedVector

open Util Effect

variable [Platform]

namespace Database

/-- A relation between the states before and after that holds across the
writes of fields beside the keys. -/
structure Asides (relates : Database → Database → Prop) : Prop where
  refl : ∀ db, relates db db
  trans : ∀ {before between after},
    relates before between → relates between after → relates before after
  sent : ∀ db sent, relates db (db.withSent sent)
  watched : ∀ db index watched, relates db (db.setWatched index watched)
  channels : ∀ db subscribers patternSubscribers subscriberId, relates db
    { db with
      subscribers := subscribers
      patternSubscribers := patternSubscribers
      subscriberId := subscriberId }
  monitors : ∀ db senders, relates db { db with monitorSenders := senders }
  saved : ∀ db time, relates db { db with lastSaveTime := time }
  config : ∀ db config, relates db { db with config := config }
  slowlog : ∀ db entries id,
    relates db { db with slowlog := entries, slowlogId := id }
  aof : ∀ db aof, relates db { db with aof := aof }
  dispatched : ∀ db commands, relates db { db with dispatched := commands }

end Database

open Database

namespace Database.Asides

variable {relates : Database → Database → Prop} {env : Env}
  {db after : Database} {client : Client}

/-! ## Commands -/

theorem subscribes (asides : Asides relates) : Subscribes relates where
  refl := asides.refl
  trans := asides.trans
  sent := asides.sent
  monitors := asides.monitors
  saved := asides.saved
  config := fun db config _ => asides.config db config
  slowlog := asides.slowlog
  channels := asides.channels

open Command

/-- What one of the names does, a list of names does. -/
theorem foldl (asides : Asides relates) {one : Place → Bytes → Place}
    (each : ∀ place name, relates place.1 (one place name).1)
    (names : List Bytes) (place : Place) :
    relates place.1 (names.foldl one place).1 := by
  induction names generalizing place with
  | nil => exact asides.refl place.1
  | cons name rest ih => exact asides.trans (each place name) (ih _)

theorem session (asides : Asides relates) {name : CommandName}
    {handle : Env → Arguments → Database → Client →
      Option Command.Session}
    (found : Handler.ofName name = some (.session handle))
    {argv : Arguments} {answer : Answer} {place : Place}
    (handled : handle env argv db client = some (answer, place)) :
    relates db place.1 := by
  have same : ∀ {session : Command.Session},
      some session = some (answer, place) → session.2 = place :=
    fun equal => congrArg Prod.snd (Option.some.inj equal)
  have watches : ∀ (place : Place) key,
      relates place.1 (watchKey place key).1 :=
    fun place key => asides.watched place.1 _ _
  cases name
  case subscribe =>
    cases found
    rw [← same handled]
    unfold Command.subscribe
    split
    · exact asides.foldl (asides.subscribes.subscribeTo env) _ (db, client)
    · exact asides.refl db
  case psubscribe =>
    cases found
    rw [← same handled]
    unfold Command.psubscribe
    split
    · exact asides.foldl (asides.subscribes.psubscribeTo env) _ (db, client)
    · exact asides.refl db
  case unsubscribe =>
    cases found
    rw [← same handled]
    unfold Command.unsubscribe
    dsimp only
    split
    · split
      · exact asides.subscribes.send env db client.id _
      · exact asides.foldl (asides.subscribes.unsubscribeFrom env _) _ (db, client)
    · exact asides.foldl (asides.subscribes.unsubscribeFrom env _) _ (db, client)
  case punsubscribe =>
    cases found
    rw [← same handled]
    unfold Command.punsubscribe
    dsimp only
    split
    · split
      · exact asides.subscribes.send env db client.id _
      · exact asides.foldl (asides.subscribes.punsubscribeFrom env _) _ (db, client)
    · exact asides.foldl (asides.subscribes.punsubscribeFrom env _) _ (db, client)
  case watch =>
    cases found
    dsimp only [watch] at handled
    split at handled
    · obtain ⟨-, watched⟩ := checked_eq_some.mp handled
      cases watched
      exact asides.foldl watches _ (db, client)
    · cases handled
      exact asides.refl db
  case unwatch =>
    cases found
    rw [← same handled]
    unfold unwatch
    split
    · exact asides.refl db
    · exact asides.refl db
  all_goals
    cases found
    try
      cases handled
      exact asides.refl db

end Database.Asides

namespace Database

/-- Values, expirations, stamps and the memory counter are the same. -/
structure SameKeys (before after : Database) : Prop where
  value : after.value = before.value
  expiration : after.expiration = before.expiration
  keyLru : after.keyLru = before.keyLru
  usedMemory : after.usedMemory = before.usedMemory

theorem sameKeys_asides : Asides SameKeys where
  refl := fun _ => ⟨rfl, rfl, rfl, rfl⟩
  trans := fun first second =>
    ⟨second.value.trans first.value,
      second.expiration.trans first.expiration,
      second.keyLru.trans first.keyLru,
      second.usedMemory.trans first.usedMemory⟩
  sent := fun _ _ => ⟨rfl, rfl, rfl, rfl⟩
  watched := fun _ _ _ => ⟨rfl, rfl, rfl, rfl⟩
  channels := fun _ _ _ _ => ⟨rfl, rfl, rfl, rfl⟩
  monitors := fun _ _ => ⟨rfl, rfl, rfl, rfl⟩
  saved := fun _ _ => ⟨rfl, rfl, rfl, rfl⟩
  config := fun _ _ => ⟨rfl, rfl, rfl, rfl⟩
  slowlog := fun _ _ _ => ⟨rfl, rfl, rfl, rfl⟩
  aof := fun _ _ => ⟨rfl, rfl, rfl, rfl⟩
  dispatched := fun _ _ => ⟨rfl, rfl, rfl, rfl⟩

/-- What depends on the keys alone is kept beside them. -/
theorem asides_of_sameKeys {holds : Database → Prop}
    (congr : ∀ {before after : Database},
      SameKeys before after → holds before → holds after) :
    Asides fun before after => holds before → holds after where
  refl := fun _ held => held
  trans := fun first second held => second (first held)
  sent := fun db sent held => congr (sameKeys_asides.sent db sent) held
  watched := fun db index watched held =>
    congr (sameKeys_asides.watched db index watched) held
  channels := fun db subscribers patterns id held =>
    congr (sameKeys_asides.channels db subscribers patterns id) held
  monitors := fun db senders held =>
    congr (sameKeys_asides.monitors db senders) held
  saved := fun db time held => congr (sameKeys_asides.saved db time) held
  config := fun db config held =>
    congr (sameKeys_asides.config db config) held
  slowlog := fun db entries id held =>
    congr (sameKeys_asides.slowlog db entries id) held
  aof := fun db aof held => congr (sameKeys_asides.aof db aof) held
  dispatched := fun db commands held =>
    congr (sameKeys_asides.dispatched db commands) held

end Database

/-! ## Calls of handlers -/

/-- Every call of the handler is allowed where it is made. -/
def Handler.CallsAlong (allowed : Env → Database → WriteOp → Prop)
    (env : Env) (argv : Arguments) (db : Database) (client : Client) :
    Handler → Prop
  | .reader handle =>
      ((handle argv client.dbindex).lift readInclusion).Along
        (Database.machine env) (fun op db => allowed env db op) db
  | .writer handle =>
      (handle argv client.dbindex).Along (Database.machine env)
        (fun op db => allowed env db op) db
  | .blocking handle =>
      (handle argv client.dbindex).Along (Database.machine env)
        (fun op db => allowed env db op) db
  | .server _ | .session _ => True

namespace Command

/-- Every call of the handler that the command reaches is allowed. -/
def CallsEach (allowed : Env → Database → WriteOp → Prop) : Condition :=
  fun env command db client => ∀ name between handler,
    commandName db command.arguments = .ok name →
    route (CommandName.ofBytes name) command db client =
      .dispatched between →
    (CommandName.ofBytes name).bind Handler.ofName = some handler →
    handler.CallsAlong allowed env command.arguments
      { db with
        dispatched := db.dispatched ++
          [⟨between.dbindex, command, writeFlag name⟩] } between

section Keeps

variable {allowed : Env → Database → WriteOp → Prop}
  {holds : Database → Prop}

/-- A handler whose calls are allowed keeps what allowed calls keep. -/
theorem handler_keeps
    (asides : Asides fun before after => holds before → holds after)
    (step : ∀ {env : Env} {db after : Database} {op : WriteOp}
      {answer : op.Ret}, holds db → allowed env db op →
      db.perform env op = some (answer, after) → holds after)
    {name : CommandName} {handler : Handler}
    (found : Handler.ofName name = some handler) {env : Env}
    {argv : Arguments} {db : Database} {client : Client} {outcome : Outcome}
    (start : holds db)
    (along : handler.CallsAlong allowed env argv db client)
    (ran : handler.run env argv db client = some outcome) :
    holds outcome.db := by
  have program : ∀ {α : Type} {part : Writer α} {after : Database}
      {result : Except Response α},
      part.Along (machine env) (fun op db => allowed env db op) db →
      part.run (machine env) db = some (result, after) → holds after :=
    fun along ran => along.keeps (fun _ _ _ _ held allowed stepped =>
      step held allowed stepped) start ran
  cases handler with
  | reader handle =>
      obtain ⟨⟨result, after⟩, programRan, rfl⟩ :=
        Option.map_eq_some_iff.mp ran
      rw [(Handler.finished_db client (result, after)).1]
      obtain ⟨first, firstRan, -⟩ := Program.run_map_eq_some programRan
      exact program along firstRan
  | writer handle =>
      obtain ⟨⟨result, after⟩, programRan, rfl⟩ :=
        Option.map_eq_some_iff.mp ran
      rw [(Handler.finished_db client (result, after)).1]
      obtain ⟨first, firstRan, -⟩ := Program.run_map_eq_some programRan
      exact program along firstRan
  | blocking handle =>
      obtain ⟨⟨result, after⟩, programRan, rfl⟩ :=
        Option.map_eq_some_iff.mp ran
      rw [(Handler.finished_db client (result, after)).1]
      exact program along programRan
  | server handle =>
      obtain ⟨⟨reply, after⟩, handled, finished⟩ :=
        Option.bind_eq_some_iff.mp ran
      cases finished
      exact asides.subscribes.server found handled start
  | session handle =>
      obtain ⟨⟨answer, after, afterClient⟩, handled, finished⟩ :=
        Option.bind_eq_some_iff.mp ran
      cases finished
      exact asides.session found handled start

/-- What allowed calls keep, and all that is beside the keys, commands keep
whose calls are allowed. -/
theorem callsEach_keeps
    (asides : Asides fun before after => holds before → holds after)
    (step : ∀ {env : Env} {db after : Database} {op : WriteOp}
      {answer : op.Ret}, holds db → allowed env db op →
      db.perform env op = some (answer, after) → holds after) :
    KeepsEach (CallsEach allowed) fun db _ => holds db where
  answered := fun held _ _ _ => held
  admitted := fun held => held
  started := fun held => held
  dispatched := by
    intro env name command db client between outcome held calls named routed
      dispatched
    have recorded := asides.dispatched db
      (db.dispatched ++ [⟨between.dbindex, command, writeFlag name⟩]) held
    unfold dispatch at dispatched
    dsimp only at dispatched
    split at dispatched
    · rename_i handler found
      have along := calls name between handler named routed found
      obtain ⟨known, -, found⟩ := Option.bind_eq_some_iff.mp found
      exact handler_keeps asides step found recorded along dispatched
    · cases dispatched
      exact recorded
  logged := fun held => asides.subscribes.logged asides.aof _ _ _ held

end Keeps

end Command

end RedVector
