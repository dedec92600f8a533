import RedVector.Database.Effects

/-!
# Relations that operations keep

Every operation is made of writes of single fields.  A relation between states
that holds across each such write holds across every operation, and so across
every program of operations.
-/

namespace RedVector.Database

open Util Effect

variable [Platform]

/-- A relation between the states before and after that holds across the
writes that operations are made of. -/
structure Writes (relates : Database → Database → Prop) : Prop where
  refl : ∀ db, relates db db
  trans : ∀ {before between after},
    relates before between → relates between after → relates before after
  data : ∀ db index data, relates db (db.setData index data)
  expirations : ∀ db index expirations,
    relates db (db.setExpirations index expirations)
  watched : ∀ db index watched, relates db (db.setWatched index watched)
  keySubscribers : ∀ db index subscribers,
    relates db (db.setKeySubscribers index subscribers)
  lru : ∀ db index lru, relates db (db.setLru index lru)
  sent : ∀ db sent, relates db (db.withSent sent)
  updates : ∀ db updates, relates db { db with updates := updates }
  memory : ∀ db used peak, relates db
    { db with usedMemory := used, usedMemoryPeak := peak }
  evicted : ∀ db count, relates db { db with evictedKeys := count }
  subscriberId : ∀ db, relates db
    { db with subscriberId := db.subscriberId + 1 }

namespace Writes

variable {relates : Database → Database → Prop} {env : Env}
  {db after : Database} {index : Nat} {key : Bytes}

theorem notifies (writes : Writes relates) {eventType : Bytes}
    {commandType : UInt8}
    (notified : db.notifyKeyspaceEvent env index eventType key commandType =
      some after) :
    relates db after := by
  obtain ⟨sent, rfl⟩ := notifyKeyspaceEvent_sent notified
  exact writes.sent db sent

theorem updateLru (writes : Writes relates) (env : Env) (db : Database)
    (index : Nat) (key : Bytes) : relates db (db.updateLru env index key) := by
  unfold Database.updateLru
  split
  · exact writes.lru db index _
  · exact writes.refl db

/-- The bookkeeping of a removal. -/
private theorem forgets (writes : Writes relates) (db : Database)
    (result : Option Value) (key : Bytes) :
    relates db
      (match result with
      | some value =>
          let size := estimateValueSize value key.length
          if size ≤ db.usedMemory then
            { db with usedMemory := db.usedMemory - size }
          else db
      | none => db) := by
  cases result with
  | none => exact writes.refl db
  | some value =>
      dsimp only
      split
      · exact writes.memory db _ db.usedMemoryPeak
      · exact writes.refl db

theorem remove (writes : Writes relates) {result : Option Value}
    (removed : db.remove env index key = some (result, after)) :
    relates db after := by
  simp only [Database.remove, Option.bind_eq_bind] at removed
  have erased := writes.data db index ((db.data index).erase key)
  split at removed
  · obtain ⟨between, notified, removed⟩ := Option.bind_eq_some_iff.mp removed
    cases removed
    refine writes.trans ?_ (writes.lru _ index _)
    refine writes.trans ?_ (writes.expirations _ index _)
    exact writes.trans erased (writes.notifies notified)
  · cases removed
    refine writes.trans ?_ (writes.lru _ index _)
    refine writes.trans ?_ (writes.expirations _ index _)
    exact writes.trans erased (writes.forgets _ _ key)

theorem getMut (writes : Writes relates) {result : Option Value}
    (got : db.getMut env index key = some (result, after)) :
    relates db after := by
  simp only [Database.getMut, Option.bind_eq_bind] at got
  split at got
  · obtain ⟨⟨_, _⟩, removed, got⟩ := Option.bind_eq_some_iff.mp got
    cases got
    exact writes.remove removed
  · cases got
    exact writes.updateLru env db index key

theorem put (writes : Writes relates) (db : Database) (index : Nat)
    (key : Bytes) (value : Value) : relates db (db.put index key value) :=
  writes.data db index _

/-- What announces an update. -/
private theorem announces (writes : Writes relates) (db : Database)
    (index : Nat) (key : Bytes) (mailboxes : List Nat) :
    let heard := db.setKeySubscribers index
      ((db.keySubscribers index).erase key)
    let unwatched := heard.setWatched index
      ((heard.watchedKeys index).erase key)
    relates db
      { unwatched with
        sent := unwatched.sent ++ mailboxes.map .updated
        updates := (index, key) :: unwatched.updates } := by
  intro heard unwatched
  let told := unwatched.withSent (unwatched.sent ++ mailboxes.map .updated)
  have first : relates db heard := writes.keySubscribers db index _
  have second : relates heard unwatched := writes.watched heard index _
  have third : relates unwatched told := writes.sent unwatched _
  exact writes.trans (writes.trans first second)
    (writes.trans third (writes.updates told _))

theorem keyUpdated (writes : Writes relates)
    (updated : db.keyUpdated env index key = some after) :
    relates db after := by
  simp only [Database.keyUpdated, Option.bind_eq_bind] at updated
  split at updated
  · obtain ⟨between, vanished, updated⟩ := Option.bind_eq_some_iff.mp updated
    obtain ⟨⟨_, _⟩, removed, rfl⟩ := Option.map_eq_some_iff.mp vanished
    cases updated
    exact writes.trans (writes.remove removed) (writes.announces _ _ _ _)
  · cases updated
    exact writes.announces _ _ _ _

theorem setMsexpiration (writes : Writes relates) {time : Int}
    (set : db.setMsexpiration env index key time = some after) :
    relates db after := by
  simp only [Database.setMsexpiration, Option.bind_eq_bind] at set
  obtain ⟨between, updated, set⟩ := Option.bind_eq_some_iff.mp set
  cases set
  exact writes.trans (writes.keyUpdated updated)
    (writes.expirations between index _)

theorem clearWatched (writes : Writes relates) {keys : List Bytes}
    (cleared : clearWatched env index keys db = some after) :
    relates db after := by
  induction keys generalizing db with
  | nil =>
      cases cleared
      exact writes.refl _
  | cons key rest ih =>
      simp only [Database.clearWatched, Option.bind_eq_bind] at cleared
      have erased := writes.data db index ((db.data index).erase key)
      split at cleared
      · obtain ⟨between, updated, cleared⟩ :=
          Option.bind_eq_some_iff.mp cleared
        exact writes.trans erased
          (writes.trans (writes.keyUpdated updated) (ih cleared))
      · exact writes.trans erased (ih cleared)

theorem clear (writes : Writes relates)
    (cleared : db.clear env index = some after) : relates db after := by
  simp only [Database.clear, Option.bind_eq_bind] at cleared
  obtain ⟨between, watched, cleared⟩ := Option.bind_eq_some_iff.mp cleared
  cases cleared
  refine writes.trans ?_ (writes.expirations _ index ∅)
  exact writes.trans (writes.clearWatched watched)
    (writes.data between index ∅)

theorem clearall (writes : Writes relates)
    (cleared : db.clearall env = some after) : relates db after := by
  have folded : ∀ {indexes : List Nat} {db : Database},
      indexes.foldlM (fun db index => db.clear env index) db = some after →
      relates db after := by
    intro indexes
    induction indexes with
    | nil =>
        intro db cleared
        cases cleared
        exact writes.refl _
    | cons index rest ih =>
        intro db cleared
        simp only [List.foldlM_cons, Option.bind_eq_bind] at cleared
        obtain ⟨between, one, others⟩ := Option.bind_eq_some_iff.mp cleared
        exact writes.trans (writes.clear one) (ih others)
  exact folded cleared

theorem evictLoop (writes : Writes relates) {policy : Bytes}
    {needed maxmemory fuel round : Nat} {fits : Bool}
    (evicted : evictLoop env policy index needed maxmemory fuel round db =
      some (fits, after)) : relates db after := by
  induction fuel generalizing round db with
  | zero => cases evicted
  | succ fuel ih =>
      unfold Database.evictLoop at evicted
      split at evicted
      · cases evicted
        exact writes.refl _
      split at evicted
      · cases evicted
        exact writes.refl _
      split at evicted
      · cases evicted
        exact writes.refl _
      · simp only [Option.bind_eq_bind] at evicted
        obtain ⟨⟨removed, between⟩, removedRun, evicted⟩ :=
          Option.bind_eq_some_iff.mp evicted
        refine writes.trans (writes.remove removedRun) ?_
        dsimp only at evicted
        split at evicted
        · obtain ⟨announced, notified, evicted⟩ :=
            Option.bind_eq_some_iff.mp evicted
          exact writes.trans (writes.evicted between _)
            (writes.trans (writes.notifies notified) (ih evicted))
        · exact ih evicted

theorem evictKeys (writes : Writes relates) {needed : Nat} {fits : Bool}
    (evicted : db.evictKeys env index needed = some (fits, after)) :
    relates db after := by
  unfold Database.evictKeys at evicted
  split at evicted
  · cases evicted
    exact writes.refl db
  · exact writes.evictLoop evicted

theorem getOrCreate (writes : Writes relates) {value : Value}
    (created : db.getOrCreate env index key = some (value, after)) :
    relates db after := by
  have forgets : relates db (db.forgotten env index key) := by
    unfold forgotten
    split
    · exact writes.expirations db index _
    · exact writes.refl db
  cases getOrCreate_creation created with
  | stored found =>
      exact writes.trans forgets (writes.updateLru env _ index key)
  | @counted done middle absent evicted fits =>
      have start := writes.trans forgets (writes.evictKeys evicted)
      have puts := writes.trans start (writes.put middle index key .nil)
      exact writes.trans (writes.trans puts (writes.memory _ _ _))
        (writes.updateLru env _ index key)
  | @refused middle absent evicted short =>
      have start := writes.trans forgets (writes.evictKeys evicted)
      exact writes.trans start (writes.put middle index key .nil)

theorem keySubscribe (writes : Writes relates) (db : Database) (index : Nat)
    (key : Bytes) (mailbox : Nat) :
    relates db (db.keySubscribe index key mailbox).2 :=
  writes.trans (writes.keySubscribers db index _) (writes.subscriberId _)

/-- The relation holds across every operation. -/
theorem perform (writes : Writes relates) {op : WriteOp} {answer : op.Ret}
    (performed : db.perform env op = some (answer, after)) :
    relates db after := by
  cases op with
  | read op =>
      cases read_unchanged performed
      exact writes.refl db
  | getMut index key =>
      exact writes.getMut (checked_eq_some.mp performed).2
  | getOrCreate index key =>
      exact writes.getOrCreate (checked_eq_some.mp performed).2
  | put index key value =>
      obtain ⟨-, written⟩ := checked_eq_some.mp performed
      cases written
      exact writes.put db index key value
  | remove index key =>
      exact writes.remove (checked_eq_some.mp performed).2
  | setMsexpiration index key time =>
      obtain ⟨-, set⟩ := checked_eq_some.mp performed
      exact writes.setMsexpiration (silently_eq_some.mp set)
  | removeMsexpiration index key =>
      obtain ⟨-, removed⟩ := checked_eq_some.mp performed
      cases removed
      exact writes.expirations db index _
  | clear index =>
      obtain ⟨-, cleared⟩ := checked_eq_some.mp performed
      exact writes.clear (silently_eq_some.mp cleared)
  | clearall => exact writes.clearall (silently_eq_some.mp performed)
  | keyUpdated index key =>
      obtain ⟨-, updated⟩ := checked_eq_some.mp performed
      exact writes.keyUpdated (silently_eq_some.mp updated)
  | notifyKeyspaceEvent index eventType key commandType =>
      exact writes.notifies (silently_eq_some.mp performed)
  | channel =>
      cases performed
      exact writes.refl _
  | keySubscribe index key mailbox =>
      obtain ⟨-, subscribed⟩ := checked_eq_some.mp performed
      cases subscribed
      exact writes.keySubscribe db index key mailbox

/-- It holds across every program of operations. -/
theorem run (writes : Writes relates) {ε α : Type}
    {program : Program writeInterface ε α} {result : Except ε α}
    (ran : program.run (machine env) db = some (result, after)) :
    relates db after :=
  program.run_relates relates writes.refl
    (fun _ _ _ first second => writes.trans first second)
    (fun _ _ _ _ stepped => writes.perform stepped) ran

end Writes

end RedVector.Database
