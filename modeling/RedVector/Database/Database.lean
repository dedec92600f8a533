import Mathlib.Algebra.BigOperators.Group.Finset.Basic
import RedVector.Config
import RedVector.Persistence.Aof
import RedVector.Response
import RedVector.Util.Glob
import RedVector.Value.Dump
import RedVector.Value.Random

/-!
# The database

Each vector of the source with one entry for every database index is a
function of the index here; `Database.machine` panics on an index out of
bounds.  What the source takes from the clock, from the random generator and
from the order of its hash maps comes from an environment.  Shrinking and
rehashing the maps has no effect on their contents and is left out.
-/

namespace RedVector

open Util

/-! ## The environment -/

/-- The outside world while one command runs. -/
structure Env [Platform] where
  /-- `mstime()`. -/
  now : Int
  /-- `ustime()`. -/
  ustime : Int
  /-- The order in which a hash map or hash set lists its keys. -/
  order : Finset Bytes → List Bytes
  order_nodup : ∀ keys, (order keys).Nodup
  mem_order : ∀ keys key, key ∈ order keys ↔ key ∈ keys
  /-- The same for maps whose keys are client or subscriber numbers. -/
  idOrder : Finset Nat → List Nat
  idOrder_nodup : ∀ ids, (idOrder ids).Nodup
  mem_idOrder : ∀ ids id, id ∈ idOrder ids ↔ id ∈ ids
  /-- The results of `rand::random::<usize>()`, in the order of the calls. -/
  random : Nat → Nat
  /-- What `Range::new(0, length)` samples from the generator of the thread. -/
  samples : Nat → Nat → Nat
  samples_lt : ∀ length index, 0 < length → samples length index < length
  /-- How many samples it takes until every position of a range came up. -/
  reach : Nat → Nat
  samples_reach : ∀ length, ∀ position < length,
    ∃ index < reach length, samples length index = position
  /-- Whether the receiver of a channel still exists. -/
  receives : Nat → Bool
  /-- How long the command takes, in microseconds. -/
  duration : Nat
  /-- The text of a section of INFO. -/
  info : Bytes → Bytes

/-- A quiet environment at a time: nothing is slow, every receiver exists, and
samples count up from zero. -/
noncomputable def Env.still [Platform] (now : Int) : Env where
  now := now
  ustime := now * 1000
  order := Finset.toList
  order_nodup := Finset.nodup_toList
  mem_order := fun _ _ => Finset.mem_toList
  idOrder := Finset.toList
  idOrder_nodup := Finset.nodup_toList
  mem_idOrder := fun _ _ => Finset.mem_toList
  random := fun _ => 0
  samples := fun length index => index % length
  samples_lt := fun _ index positive => Nat.mod_lt index positive
  reach := id
  samples_reach := fun _ position below =>
    ⟨position, below, Nat.mod_eq_of_lt below⟩
  receives := fun _ => true
  duration := 0
  info := fun _ => []

/-! ### Random positions -/

namespace Env

variable [Platform]

/-- `get_random_positions(len, count, allow_duplicates)`, which ends because
the samples reach every position. -/
def positions (env : Env) (length count : Nat) (allowDuplicates : Bool) :
    List Nat :=
  (ValueSet.getRandomPositions (env.samples length) (env.reach length) length
    count allowDuplicates).getD []

theorem positions_drawn
    (env : Env) (length count : Nat) (allowDuplicates : Bool) :
    ValueSet.getRandomPositions (env.samples length) (env.reach length) length
      count allowDuplicates =
        some (env.positions length count allowDuplicates) := by
  obtain ⟨positions, drawn⟩ := ValueSet.getRandomPositions_ends count
    allowDuplicates (env.samples_reach length)
  unfold Env.positions
  rw [drawn]
  rfl

theorem positions_lt
    (env : Env) {length : Nat} (positive : 0 < length) (count : Nat)
    (allowDuplicates : Bool) :
    ∀ position ∈ env.positions length count allowDuplicates,
      position < length :=
  ValueSet.getRandomPositions_lt
    (fun index => env.samples_lt length index positive)
    (env.positions_drawn length count allowDuplicates)

theorem positions_length
    (env : Env) (length count : Nat) (allowDuplicates : Bool) :
    (env.positions length count allowDuplicates).length =
      if allowDuplicates then count else min length count :=
  ValueSet.getRandomPositions_length
    (env.positions_drawn length count allowDuplicates)

theorem positions_descend (env : Env) (length count : Nat) :
    (env.positions length count false).Pairwise (· > ·) :=
  ValueSet.getRandomPositions_descend (env.positions_drawn length count false)

end Env

/-! ## The state -/

/-- What is sent to another thread. -/
inductive Message where
  /-- A response for the client with this number. -/
  | response (client : Nat) (response : Response)
  /-- A key that a blocked command waits for was updated. -/
  | updated (mailbox : Nat)
  | monitor (client : Nat) (line : Bytes)

structure SlowLogEntry where
  id : Nat
  timestamp : Int
  duration : Nat
  command : List Bytes

/-- A command that reached its handler. -/
structure Dispatched where
  dbindex : Nat
  command : ParsedCommand
  /-- Whether its flags lack READONLY. -/
  write : Bool

/-- The recipients of a channel, each with its number and its client. -/
abbrev SenderMap := HashMap Nat Nat

structure Database [Platform] where
  config : Config
  data : Nat → HashMap Bytes Value
  dataExpirationMs : Nat → HashMap Bytes Int
  watchedKeys : Nat → HashMap Bytes (Finset Nat)
  subscribers : HashMap Bytes SenderMap
  patternSubscribers : HashMap Bytes SenderMap
  keySubscribers : Nat → HashMap Bytes SenderMap
  subscriberId : Nat
  monitorSenders : List Nat
  aof : Option Aof
  loading : Bool
  lastSaveTime : Int
  usedMemory : Nat
  usedMemoryPeak : Nat
  evictedKeys : Nat
  keyLru : Nat → HashMap Bytes Int
  slowlog : List SlowLogEntry
  slowlogId : Nat
  /-- The messages sent so far. -/
  sent : List Message
  /-- The calls of `key_updated` so far; no code reads them. -/
  updates : List (Nat × Bytes)
  /-- The commands dispatched so far; no code reads them. -/
  dispatched : List Dispatched

namespace Database

variable [Platform]

/-- An empty database; `aof` is the contents of the file, if there is one. -/
def new (config : Config) (aof : Option Bytes) : Database :=
  { config := config
    data := fun _ => ∅
    dataExpirationMs := fun _ => ∅
    watchedKeys := fun _ => ∅
    subscribers := ∅
    patternSubscribers := ∅
    keySubscribers := fun _ => ∅
    subscriberId := 0
    monitorSenders := []
    aof := aof.map Aof.new
    loading := false
    lastSaveTime := 0
    usedMemory := 0
    usedMemoryPeak := 0
    evictedKeys := 0
    keyLru := fun _ => ∅
    slowlog := []
    slowlogId := 0
    sent := []
    updates := []
    dispatched := [] }

/-! ## Updates of one map -/

def setData (db : Database) (index : Nat) (data : HashMap Bytes Value) :
    Database :=
  { db with data := Function.update db.data index data }

def setExpirations (db : Database) (index : Nat)
    (expirations : HashMap Bytes Int) : Database :=
  { db with
    dataExpirationMs :=
      Function.update db.dataExpirationMs index expirations }

def setWatched (db : Database) (index : Nat)
    (watched : HashMap Bytes (Finset Nat)) : Database :=
  { db with watchedKeys := Function.update db.watchedKeys index watched }

def setKeySubscribers (db : Database) (index : Nat)
    (subscribers : HashMap Bytes SenderMap) : Database :=
  { db with
    keySubscribers := Function.update db.keySubscribers index subscribers }

def setLru (db : Database) (index : Nat) (lru : HashMap Bytes Int) :
    Database :=
  { db with keyLru := Function.update db.keyLru index lru }

/-! ## Channels -/

/-- Sends a response to every recipient; the count is of the successes. -/
def sendAll (env : Env) (db : Database) (recipients : SenderMap)
    (response : Response) : Nat × Database :=
  let clients := (env.idOrder recipients.keys).filterMap recipients.lookup
  let reached := clients.filter env.receives
  (reached.length,
    { db with
      sent := db.sent ++ reached.map fun client =>
        .response client response })

/-- `PubsubEvent::Message` as a response. -/
def messageResponse (channel : Bytes) (pattern : Option Bytes)
    (message : Bytes) : Response :=
  match pattern with
  | some pattern =>
      .array [.data (text "pmessage"), .data pattern, .data channel,
        .data message]
  | none => .array [.data (text "message"), .data channel, .data message]

def publishPatterns (env : Env) (channel message : Bytes) :
    List Bytes → Nat → Database → Option (Nat × Database)
  | [], count, db => some (count, db)
  | pattern :: rest, count, db => do
      if ← globMatch pattern channel false then
        let recipients := (db.patternSubscribers.lookup pattern).getD ∅
        let (reached, db) := db.sendAll env recipients
          (messageResponse channel (some pattern) message)
        publishPatterns env channel message rest (count + reached) db
      else publishPatterns env channel message rest count db

/-- Publishes a message to a channel and all patterns that match its name. -/
def publish (env : Env) (db : Database) (channel message : Bytes) :
    Option (Nat × Database) :=
  let recipients := (db.subscribers.lookup channel).getD ∅
  let (count, after) := db.sendAll env recipients
    (messageResponse channel none message)
  publishPatterns env channel message
    (env.order db.patternSubscribers.keys) count after

/-- The event types that the flag `A` stands for. -/
def allEvents : Bytes := text "g$lshzxe"

def notifyFlagEnabled (db : Database) (flag : UInt8) : Bool :=
  let events := db.config.notifyKeyspaceEvents
  if events.isEmpty then false
  else if events.contains 65 && allEvents.contains flag then true
  else events.contains flag

/-- Publishes keyspace notifications for a key operation. -/
def notifyKeyspaceEvent (env : Env) (db : Database) (dbindex : Nat)
    (eventType key : Bytes) (commandType : UInt8) : Option Database := do
  if db.config.notifyKeyspaceEvents.isEmpty then pure db
  else if !db.notifyFlagEnabled commandType then pure db
  else
    let db ←
      if db.notifyFlagEnabled 75 then
        let channel := text "__keyspace@" ++ natToString dbindex ++
          text "__:" ++ fromUtf8Lossy key
        Prod.snd <$> db.publish env channel eventType
      else pure db
    if db.notifyFlagEnabled 69 then
      let channel := text "__keyevent@" ++ natToString dbindex ++
        text "__:" ++ eventType
      Prod.snd <$> db.publish env channel key
    else pure db

/-! ## Keys -/

def isExpired (env : Env) (db : Database) (index : Nat) (key : Bytes) :
    Bool :=
  !db.loading &&
    match (db.dataExpirationMs index).lookup key with
    | some t => t ≤ env.now
    | none => false

def dbsize (db : Database) (index : Nat) : Nat :=
  (db.data index).keys.card

/-- The sum of a size over the keys of a map. -/
def sizeSum {α : Type} (size : Bytes → α → Nat) (map : HashMap Bytes α) :
    Nat :=
  map.keys.sum fun key => ((map.lookup key).map (size key)).getD 0

/-- Estimates the memory size of a value in bytes. -/
def estimateValueSize (value : Value) (keySize : Nat) : Nat :=
  keySize + 24 +
    match value with
    | .nil => 0
    | .string (.integer _) => 8
    | .string (.data d) => d.length + 8
    | .list list => (list.map fun v => v.length + 32).sum
    | .set (.integer numbers) => numbers.card * 32
    | .set (.data elements) => elements.sum fun v => v.length + 24
    | .sortedSet set =>
        (set.skiplist.map fun m => m.s.length + 40).sum +
          set.hmap.keys.card * 24
    | .hash (.hashMap map) =>
        sizeSum (fun k v => k.length + v.length + 24) map
    | .hash (.zipList zl) => zl.length + 16
    | .bloom b => b.memoryBytes + 32

/-- Whether the policy as configured, in any case, names an LRU policy. -/
def usesLru (db : Database) : Bool :=
  decide (text "lru" <:+: db.config.maxmemoryPolicy)

def updateLru (env : Env) (db : Database) (index : Nat) (key : Bytes) :
    Database :=
  if db.usesLru then
    db.setLru index ((db.keyLru index).insert key env.now)
  else db

def get (env : Env) (db : Database) (index : Nat) (key : Bytes) :
    Option Value :=
  if db.isExpired env index key then none
  else (db.data index).lookup key

/-- Removes and returns a value by key; an expired value is not returned. -/
def remove (env : Env) (db : Database) (index : Nat) (key : Bytes) :
    Option (Option Value × Database) := do
  let wasExpired := db.isExpired env index key
  let stored := (db.data index).lookup key
  let db := db.setData index ((db.data index).erase key)
  let db ←
    if wasExpired then
      db.notifyKeyspaceEvent env index (text "expired") key 120
    else pure db
  let r := if wasExpired then none else stored
  let db :=
    match r with
    | some value =>
        let size := estimateValueSize value key.length
        if size ≤ db.usedMemory then
          { db with usedMemory := db.usedMemory - size }
        else db
    | none => db
  let db := db.setExpirations index ((db.dataExpirationMs index).erase key)
  pure (r, db.setLru index ((db.keyLru index).erase key))

/-- The value behind a mutable reference; an expired one is removed. -/
def getMut (env : Env) (db : Database) (index : Nat) (key : Bytes) :
    Option (Option Value × Database) := do
  if db.isExpired env index key then
    let (_, db) ← db.remove env index key
    pure (none, db)
  else pure ((db.data index).lookup key, db.updateLru env index key)

/-- Writes through a mutable reference to the value of a key. -/
def put (db : Database) (index : Nat) (key : Bytes) (value : Value) :
    Database :=
  db.setData index ((db.data index).insert key value)

/-- Publishes to all key listeners; an empty value is removed. -/
def keyUpdated (env : Env) (db : Database) (index : Nat) (key : Bytes) :
    Option Database := do
  let isEmpty := ((db.data index).lookup key).any Value.isEmpty
  let db ←
    if isEmpty then Prod.snd <$> db.remove env index key else pure db
  let callbacks := ((db.keySubscribers index).lookup key).getD ∅
  let mailboxes := (env.idOrder callbacks.keys).filterMap callbacks.lookup
  let db := db.setKeySubscribers index ((db.keySubscribers index).erase key)
  let db := db.setWatched index ((db.watchedKeys index).erase key)
  pure
    { db with
      sent := db.sent ++ mailboxes.map .updated
      updates := (index, key) :: db.updates }

def setMsexpiration (env : Env) (db : Database) (index : Nat) (key : Bytes)
    (msexpiration : Int) : Option Database := do
  let db ← db.keyUpdated env index key
  pure (db.setExpirations index
    ((db.dataExpirationMs index).insert key msexpiration))

def getMsexpiration (db : Database) (index : Nat) (key : Bytes) :
    Option Int :=
  (db.dataExpirationMs index).lookup key

def removeMsexpiration (db : Database) (index : Nat) (key : Bytes) :
    Option Int × Database :=
  ((db.dataExpirationMs index).lookup key,
    db.setExpirations index ((db.dataExpirationMs index).erase key))

/-- Clears the watched keys of a database one by one. -/
def clearWatched (env : Env) (index : Nat) :
    List Bytes → Database → Option Database
  | [], db => some db
  | key :: rest, db => do
      let present := (db.data index).lookup key
      let db := db.setData index ((db.data index).erase key)
      let db ←
        if present.isSome then db.keyUpdated env index key else pure db
      clearWatched env index rest db

/-- Removes all keys in a database. -/
def clear (env : Env) (db : Database) (index : Nat) : Option Database := do
  let db ← clearWatched env index (env.order (db.watchedKeys index).keys) db
  pure ((db.setData index ∅).setExpirations index ∅)

def clearall (env : Env) (db : Database) : Option Database :=
  (List.range db.config.databases).foldlM (fun db index => db.clear env index)
    db

/-! ## Eviction -/

/-- A key that may be evicted, with its score and its size. -/
structure Candidate where
  key : Bytes
  score : Int
  size : Nat

/-- The first of the elements with the lowest measure. -/
def firstMin {α β : Type} [LT β] [DecidableLT β] (measure : α → β) :
    List α → Option α
  | [] => none
  | head :: tail =>
      match firstMin measure tail with
      | none => some head
      | some best => if measure best < measure head then best else head

def candidates (env : Env) (db : Database) (policy : Bytes) (index : Nat) :
    List Candidate :=
  (env.order (db.data index).keys).filterMap fun key => do
    let expiration := (db.dataExpirationMs index).lookup key
    let included :=
      if policy = text "volatile-lru" ∨ policy = text "volatile-random" ∨
          policy = text "volatile-ttl" then expiration.isSome
      else policy = text "allkeys-lru" ∨ policy = text "allkeys-random"
    if included then
      let value ← (db.data index).lookup key
      let score :=
        if policy = text "volatile-lru" ∨ policy = text "allkeys-lru" then
          ((db.keyLru index).lookup key).getD 0
        else if policy = text "volatile-ttl" then expiration.getD i64Max
        else 0
      pure ⟨key, score, estimateValueSize value key.length⟩
    else none

/-- The key that the policy evicts among the candidates; `random` is the
number drawn for it. -/
def keyToEvict (db : Database) (policy : Bytes) (random : Nat)
    (found : List Candidate) : Option Bytes :=
  let samples := db.config.maxmemorySamples
  if policy = text "volatile-lru" ∨ policy = text "allkeys-lru" ∨
      policy = text "volatile-ttl" then
    (firstMin Candidate.score found).map Candidate.key
  else if policy = text "volatile-random" ∨
      policy = text "allkeys-random" then
    if samples < found.length then
      let start := random % (found.length - samples)
      (firstMin Candidate.size ((found.drop start).take samples)).map
        Candidate.key
    else found.head?.map Candidate.key
  else none

/-- Evicts keys until the needed memory fits; every round removes a key, so
the number of keys bounds the rounds. -/
def evictLoop (env : Env) (policy : Bytes) (index needed maxmemory : Nat) :
    Nat → Nat → Database → Option (Bool × Database)
  | 0, _, _ => none
  | fuel + 1, round, db =>
      if db.usedMemory + needed ≤ maxmemory then some (true, db)
      else
        match db.candidates env policy index with
        | [] => some (false, db)
        | found =>
            match db.keyToEvict policy (env.random round) found with
            | none => some (false, db)
            | some key => do
                let (removed, db) ← db.remove env index key
                let counted := { db with evictedKeys := db.evictedKeys + 1 }
                let db ←
                  if removed.isSome then
                    counted.notifyKeyspaceEvent env index (text "evicted")
                      key 101
                  else pure db
                evictLoop env policy index needed maxmemory fuel (round + 1)
                  db

/-- Evicts keys by the maxmemory policy; false when memory cannot be freed. -/
def evictKeys (env : Env) (db : Database) (index needed : Nat) :
    Option (Bool × Database) :=
  match db.config.maxmemory with
  | none => some (true, db)
  | some maxmemory =>
      evictLoop env (lowercase db.config.maxmemoryPolicy) index needed
        maxmemory ((db.data index).keys.card + 1) 0 db

/-- A mutable reference to the value of a key, which is created as Nil when
it is not present. -/
def getOrCreate (env : Env) (db : Database) (index : Nat) (key : Bytes) :
    Option (Value × Database) := do
  let db :=
    if db.isExpired env index key then (db.removeMsexpiration index key).2
    else db
  let estimatedSize := estimateValueSize .nil key.length
  let (refused, db) ←
    if (db.data index).lookup key = none then do
      let (evicted, db) ← db.evictKeys env index estimatedSize
      let full :=
        match db.config.maxmemory with
        | some maxmemory => maxmemory < db.usedMemory + estimatedSize
        | none => false
      pure (!evicted && full, db)
    else pure (false, db)
  match (db.data index).lookup key with
  | some value =>
      pure (value, if refused then db else db.updateLru env index key)
  | none =>
      let created := db.put index key .nil
      if refused then pure (.nil, created)
      else
        let used := db.usedMemory + estimatedSize
        let tracked :=
          { created with
            usedMemory := used
            usedMemoryPeak := max used db.usedMemoryPeak }
        pure (.nil, tracked.updateLru env index key)

/-! ## Listeners and watchers -/

/-- Subscribes a mailbox to a key until its next update. -/
def keySubscribe (db : Database) (index : Nat) (key : Bytes)
    (mailbox : Nat) : Nat × Database :=
  let listeners := ((db.keySubscribers index).lookup key).getD ∅
  let after := db.setKeySubscribers index
    ((db.keySubscribers index).insert key
      (listeners.insert db.subscriberId mailbox))
  (db.subscriberId, { after with subscriberId := db.subscriberId + 1 })

def keyWatch (db : Database) (index : Nat) (key : Bytes)
    (identifier : Nat) : Database :=
  let watchers := ((db.watchedKeys index).lookup key).getD ∅
  db.setWatched index
    ((db.watchedKeys index).insert key (insert identifier watchers))

def keyUnwatch (db : Database) (index : Nat) (key : Bytes)
    (identifier : Nat) : Database :=
  match (db.watchedKeys index).lookup key with
  | some watchers =>
      db.setWatched index
        ((db.watchedKeys index).insert key (watchers.erase identifier))
  | none => db

def keyWatchVerify (db : Database) (index : Nat) (key : Bytes)
    (identifier : Nat) : Bool :=
  match (db.watchedKeys index).lookup key with
  | some watchers => decide (identifier ∈ watchers)
  | none => false

/-! ## Subscriptions -/

def subscribe (db : Database) (channel : Bytes) (client : Nat) :
    Nat × Database :=
  let recipients := (db.subscribers.lookup channel).getD ∅
  (db.subscriberId,
    { db with
      subscribers := db.subscribers.insert channel
        (recipients.insert db.subscriberId client)
      subscriberId := db.subscriberId + 1 })

def unsubscribe (db : Database) (channel : Bytes) (subscriberId : Nat) :
    Bool × Database :=
  match db.subscribers.lookup channel with
  | none => (false, db)
  | some recipients =>
      (decide (subscriberId ∈ recipients),
        { db with
          subscribers := db.subscribers.insert channel
            (recipients.erase subscriberId) })

def psubscribe (db : Database) (pattern : Bytes) (client : Nat) :
    Nat × Database :=
  let recipients := (db.patternSubscribers.lookup pattern).getD ∅
  (db.subscriberId,
    { db with
      patternSubscribers := db.patternSubscribers.insert pattern
        (recipients.insert db.subscriberId client)
      subscriberId := db.subscriberId + 1 })

def punsubscribe (db : Database) (pattern : Bytes) (subscriberId : Nat) :
    Bool × Database :=
  match db.patternSubscribers.lookup pattern with
  | none => (false, db)
  | some recipients =>
      (decide (subscriberId ∈ recipients),
        { db with
          patternSubscribers := db.patternSubscribers.insert pattern
            (recipients.erase subscriberId) })

/-! ## Commands -/

/-- Applies the renaming of commands; `none` is a disabled command. -/
def mappedCommand (db : Database) (command : Bytes) : Option Bytes :=
  match db.config.renameCommands.lookup command with
  | some renamed => renamed
  | none => some command

/-- `format!("{:?}", command)`. -/
def showCommand (argv : Arguments) : Bytes :=
  argv.flatMap fun argument => formatRepr argument ++ text " "

def logCommand (env : Env) (db : Database) (dbindex : Nat)
    (command : ParsedCommand) (write : Bool) : Database :=
  let reached := db.monitorSenders.filter env.receives
  let line := showCommand command.arguments
  let db :=
    { db with
      monitorSenders := reached
      sent := db.sent ++ reached.map fun client => .monitor client line }
  if write then { db with aof := db.aof.map fun w => w.write dbindex command }
  else db

def slowlogAdd (env : Env) (db : Database) (command : ParsedCommand) :
    Database :=
  let threshold := db.config.slowlogLogSlowerThan
  if 0 < threshold ∧ threshold ≤ env.duration then
    let entry : SlowLogEntry :=
      { id := db.slowlogId
        timestamp := env.now.tdiv 1000
        duration := env.duration
        command := command.arguments }
    let slowlog := db.slowlog ++ [entry]
    { db with
      slowlogId := db.slowlogId + 1
      slowlog := slowlog.drop (slowlog.length - db.config.slowlogMaxLen) }
  else db

/-- The last entries of the slow log, the newest first. -/
def slowlogGet (db : Database) (count : Option Nat) : List SlowLogEntry :=
  let count := count.getD db.slowlog.length
  (db.slowlog.drop (db.slowlog.length - count)).reverse

def slowlogReset (db : Database) : Database :=
  { db with slowlog := [], slowlogId := 0 }

/-- The channels whose name matches the pattern, if there is one. -/
def pubsubChannelList (env : Env) (db : Database) (pattern : Option Bytes) :
    Option (List Bytes) :=
  let channels := env.order db.subscribers.keys
  match pattern with
  | none => some channels
  | some pattern => do
      let keep ← channels.mapM fun channel => globMatch pattern channel false
      pure (((channels.zip keep).filter Prod.snd).map Prod.fst)

def pubsubPatterns (db : Database) : Nat :=
  db.patternSubscribers.keys.card

def pubsubNumsub (db : Database) (channel : Bytes) : Nat :=
  ((db.subscribers.lookup channel).map fun found => found.keys.card).getD 0

end Database

end RedVector
