import RedVector.Server.Subscriptions

/-!
# Clients that leave

At the end of `Client::run` the channels of a client are unsubscribed from.
Its other registrations stay in the database.
-/

namespace RedVector

open Effect

section

variable [Platform]

open Database Command

/-! ## The exit -/

namespace Server

/-- Unsubscribes the client from its channels, in the order of their map; the
state of the client is dropped. -/
def leave (env : Env) (server : Server) (id : Nat) : Server where
  db :=
    let subscriptions := (server.clients id).subscriptions
    (env.order subscriptions.keys).foldl (fun db channel =>
      match subscriptions.lookup channel with
      | some subscriberId => (db.unsubscribe channel subscriberId).2
      | none => db) server.db
  clients := Function.update server.clients id (.new id)

end Server

/-- A server with the clients during whose commands the subscriber numbers
were given out; no code reads them. -/
structure Connections where
  server : Server
  owner : Nat → Option Nat

/-- A request, or the end of a connection. -/
inductive ConnectionEvent where
  | request (request : Request)
  | leaves (env : Env) (client : Nat)

namespace Connections

def start (config : Config) (aof : Option Bytes) : Connections where
  server := .start config aof
  owner := fun _ => none

/-- The numbers that a request took are those of its client. -/
def answered (before : Connections) (request : Request) (after : Server) :
    Connections where
  server := after
  owner := fun number =>
    if before.server.db.subscriberId ≤ number ∧
        number < after.db.subscriberId then some request.client
    else before.owner number

def leave (env : Env) (before : Connections) (id : Nat) : Connections :=
  { before with server := before.server.leave env id }

/-- A client that runs a command receives what is sent to it. -/
def Steps (before : Connections) (event : ConnectionEvent)
    (after : Connections) : Prop :=
  match event with
  | .request request =>
      Server.Executes Receiving request before.server ∧
        ∃ answer server,
          before.server.step request = some (answer, server) ∧
            after = before.answered request server
  | .leaves env client => after = before.leave env client

/-- No pattern, no watched key and no blocked key has an entry of the client
in the database. -/
structure Uninvolved (state : Connections) (id : Nat) : Prop where
  patterns : ∀ pattern ticket,
    (Registry.held state.server.db.patternSubscribers pattern).lookup ticket ≠
      some id
  watches : ∀ index key, state.server.db.keyWatchVerify index key id = false
  keys : ∀ index key ticket,
    ticket ∈ Registry.held (state.server.db.keySubscribers index) key →
      state.owner ticket ≠ some id

/-- The database has no entry of the client at all. -/
structure Forgotten (state : Connections) (id : Nat) : Prop where
  channels : ∀ channel ticket,
    (Registry.held state.server.db.subscribers channel).lookup ticket ≠
      some id
  others : state.Uninvolved id

end Connections

/-! ## The channels -/

namespace Database

/-- What an exit leaves alone. -/
structure SameElsewhere (before after : Database) : Prop where
  config : after.config = before.config
  patternSubscribers : after.patternSubscribers = before.patternSubscribers
  watchedKeys : after.watchedKeys = before.watchedKeys
  keySubscribers : after.keySubscribers = before.keySubscribers
  subscriberId : after.subscriberId = before.subscriberId

theorem unsubscribe_elsewhere (db : Database) (channel : Bytes)
    (subscriberId : Nat) :
    SameElsewhere db (db.unsubscribe channel subscriberId).2 := by
  unfold unsubscribe
  cases db.subscribers.lookup channel with
  | none => exact ⟨rfl, rfl, rfl, rfl, rfl⟩
  | some recipients => exact ⟨rfl, rfl, rfl, rfl, rfl⟩

theorem SameElsewhere.trans {before between after : Database}
    (first : SameElsewhere before between)
    (second : SameElsewhere between after) : SameElsewhere before after where
  config := second.config.trans first.config
  patternSubscribers :=
    second.patternSubscribers.trans first.patternSubscribers
  watchedKeys := second.watchedKeys.trans first.watchedKeys
  keySubscribers := second.keySubscribers.trans first.keySubscribers
  subscriberId := second.subscriberId.trans first.subscriberId

/-- After some channels the client has the others left. -/
theorem unsubscribeEach_agrees
    {subscriptions : HashMap Bytes Nat} {id next : Nat}
    {channels : List Bytes} (once : channels.Nodup) {db : Database}
    {own : Nat → HashMap Bytes Nat}
    (agrees : Registry.Agrees db.subscribers next own)
    (same : ∀ channel ∈ channels,
      (own id).lookup channel = subscriptions.lookup channel) :
    let after := channels.foldl (fun db channel =>
      match subscriptions.lookup channel with
      | some subscriberId => (db.unsubscribe channel subscriberId).2
      | none => db) db
    SameElsewhere db after ∧ ∃ left,
      Registry.Agrees after.subscribers next (Function.update own id left) ∧
        ∀ channel, channel ∈ left ↔
          channel ∈ own id ∧ channel ∉ channels := by
  induction channels generalizing db own with
  | nil =>
      refine ⟨⟨rfl, rfl, rfl, rfl, rfl⟩, own id, ?_, by simp⟩
      rw [Function.update_eq_self]
      exact agrees
  | cons channel rest ih =>
      obtain ⟨absent, onceRest⟩ := List.nodup_cons.mp once
      have isSame := same channel List.mem_cons_self
      cases found : subscriptions.lookup channel with
      | none =>
          have sameRest : ∀ other ∈ rest,
              (own id).lookup other = subscriptions.lookup other :=
            fun other member => same other (List.mem_cons_of_mem _ member)
          obtain ⟨elsewhere, left, still, members⟩ :=
            ih onceRest agrees sameRest
          simp only [List.foldl_cons, found]
          refine ⟨elsewhere, left, still, ?_⟩
          intro other
          rw [members, List.mem_cons, not_or]
          constructor
          · intro kept
            refine ⟨kept.1, ?_, kept.2⟩
            intro isChannel
            rw [isChannel] at kept
            rw [found] at isSame
            exact Finmap.lookup_eq_none.mp isSame kept.1
          · intro kept
            exact ⟨kept.1, kept.2.2⟩
      | some ticket =>
          rw [found] at isSame
          obtain ⟨leaves, _, _⟩ := unsubscribe_leaves db channel ticket
          have stepped := agrees.leave isSame
          rw [← leaves] at stepped
          have sameRest : ∀ other ∈ rest,
              (Function.update own id ((own id).erase channel) id).lookup
                other = subscriptions.lookup other := by
            intro other member
            rw [Function.update_self, Finmap.lookup_erase_ne]
            · exact same other (List.mem_cons_of_mem _ member)
            · intro isChannel
              rw [isChannel] at member
              exact absent member
          obtain ⟨elsewhere, left, still, members⟩ :=
            ih onceRest stepped sameRest
          simp only [List.foldl_cons, found]
          refine ⟨(unsubscribe_elsewhere db channel ticket).trans elsewhere,
            left, ?_, ?_⟩
          · rw [Function.update_idem] at still
            exact still
          · intro other
            rw [members, Function.update_self, Finmap.mem_erase,
              List.mem_cons, not_or]
            tauto

end Database

/-! ## Requests -/

/-- What holds at every point of a request. -/
structure RegisteredAt (config : Config) (others : Nat → Client)
    (current : Nat) (db : Database) (client : Client) : Prop where
  isCurrent : client.id = current
  fixed : Config.SameFixed config db.config
  subscribed : Subscribed False db (among others client)

section

variable {config : Config} {others : Nat → Client} {current : Nat}

theorem RegisteredAt.congr {db after : Database} {client other : Client}
    (registered : RegisteredAt config others current db client)
    (same : SameChannels db after) (settings : after.config = db.config)
    (subscriptions : SameSubscriptions client other) :
    RegisteredAt config others current after other where
  isCurrent := subscriptions.id.trans registered.isCurrent
  fixed := by
    rw [settings]
    exact registered.fixed
  subscribed := registered.subscribed.congr same subscriptions.id
    subscriptions.subscriptions subscriptions.patterns

theorem registered_keeps :
    KeepsEach Receiving (RegisteredAt config others current) where
  answered := by
    intro env name command db client after reply registered _ _ routed
    exact registered.congr (.refl db) rfl (answered_subscriptions routed)
  admitted := by
    intro db client registered
    exact registered.congr (.refl db) rfl (admitted_subscriptions db client)
  started := by
    intro db client registered
    exact registered.congr (.refl db) rfl ⟨rfl, rfl, rfl⟩
  dispatched := by
    intro env name command db client between outcome registered receives named
      routed dispatched
    obtain ⟨isBetween, -⟩ := route_dispatched routed
    have same := admitted_subscriptions db client
    have registered := registered.congr (.refl db) rfl same
    rw [← isBetween] at registered same
    obtain ⟨fixed, -⟩ := dispatch_recorded dispatched
    have follows := dispatch_follows registered.fixed named
      (same.id ▸ receives) (fun _ impossible => impossible.elim)
      registered.subscribed dispatched
    exact ⟨follows.id.trans registered.isCurrent,
      registered.fixed.trans fixed, follows.subscribed⟩
  logged := by
    intro env command executed registered
    obtain ⟨noted, -⟩ := logged_noted env command executed
    exact registered.congr (logged_sameChannels env command executed)
      noted.config ⟨rfl, rfl, rfl⟩

end

namespace Connections

/-! ## Runs -/

/-- The database knows of the channels what the clients know. -/
structure Registered (config : Config) (state : Connections) : Prop where
  fixed : Config.SameFixed config state.server.db.config
  subscribed : Subscribed False state.server.db state.server.clients

variable {config : Config} {state after : Connections}

theorem Registered.answered (registered : Registered config state)
    {request : Request} {answer : Answer} {server : Server}
    (receiving : Server.Executes Receiving request state.server)
    (stepped : state.server.step request = some (answer, server)) :
    Registered config (state.answered request server) := by
  obtain ⟨outcome, ran, -, rfl⟩ := Server.step_eq_some.mp stepped
  have isId := registered.subscribed.ids request.client
  have clients : among state.server.clients
      (state.server.clients request.client) = state.server.clients := by
    unfold among
    rw [isId, Function.update_eq_self]
  have begins : RegisteredAt config state.server.clients request.client
      state.server.db (state.server.clients request.client) := by
    refine ⟨isId, registered.fixed, ?_⟩
    rw [clients]
    exact registered.subscribed
  have ends := commandAt_keepsEach registered_keeps begins receiving ran
  have subscribed := ends.subscribed
  unfold among at subscribed
  rw [ends.isCurrent] at subscribed
  exact ⟨ends.fixed, subscribed⟩

/-- After an exit the client has no channel, and nothing else changes. -/
theorem Registered.leave (registered : Registered config state) (env : Env)
    (id : Nat) :
    Registered config (state.leave env id) ∧
      SameElsewhere state.server.db (state.leave env id).server.db ∧
      ∀ channel ticket,
        (Registry.held (state.leave env id).server.db.subscribers
          channel).lookup ticket ≠ some id := by
  obtain ⟨elsewhere, left, agrees, members⟩ :=
    unsubscribeEach_agrees (env.order_nodup _)
      registered.subscribed.channels
      (fun channel (_ : channel ∈
        env.order (state.server.clients id).subscriptions.keys) => rfl)
  have nothing : left = ∅ := by
    apply Finmap.ext_lookup
    intro channel
    rw [Finmap.lookup_empty, Finmap.lookup_eq_none, members,
      env.mem_order, Finmap.mem_keys]
    tauto
  subst nothing
  have fixed : Config.SameFixed config (state.leave env id).server.db.config := by
    rw [show (state.leave env id).server.db.config = state.server.db.config
      from elsewhere.config]
    exact registered.fixed
  have others : ∀ other, other ≠ id →
      (state.leave env id).server.clients other =
        state.server.clients other :=
    fun other apart => Function.update_of_ne apart _ _
  have itself : (state.leave env id).server.clients id = .new id :=
    Function.update_self _ _ _
  have owns : (fun other =>
      ((state.leave env id).server.clients other).subscriptions) =
      Function.update (fun other =>
        (state.server.clients other).subscriptions) id ∅ := by
    funext other
    by_cases same : other = id
    · rw [same, itself, Function.update_self]
      rfl
    · rw [others other same, Function.update_of_ne same]
  have channels : Registry.Agrees (state.leave env id).server.db.subscribers
      (state.leave env id).server.db.subscriberId fun other =>
        ((state.leave env id).server.clients other).subscriptions := by
    rw [owns, show (state.leave env id).server.db.subscriberId =
      state.server.db.subscriberId from elsewhere.subscriberId]
    exact agrees
  refine ⟨⟨fixed, ⟨?_, channels, fun impossible => impossible.elim, ?_⟩⟩,
    elsewhere, ?_⟩
  · intro other
    by_cases same : other = id
    · rw [same, itself]
      rfl
    · rw [others other same]
      exact registered.subscribed.ids other
  · intro other pattern member
    rw [show (state.leave env id).server.db.patternSubscribers =
      state.server.db.patternSubscribers from elsewhere.patternSubscribers]
    by_cases same : other = id
    · rw [same, itself] at member
      exact absurd member Finmap.notMem_empty
    · rw [others other same] at member
      exact registered.subscribed.recorded other pattern member
  · intro channel ticket held
    have owned := (channels.agree channel id ticket).mpr held
    rw [itself] at owned
    cases owned

theorem registered_run {aof : Option Bytes} {events : List ConnectionEvent}
    (run : Runs Steps (start config aof) events state) :
    Registered config state := by
  apply run.invariant (Registered config)
  · intro before event after registered step
    cases event with
    | request request =>
        obtain ⟨receiving, answer, server, stepped, rfl⟩ := step
        exact registered.answered receiving stepped
    | leaves env client =>
        cases step
        exact (registered.leave env client).1
  · have tracked := Server.tracked_start False config aof
    exact ⟨tracked.fixed, tracked.subscribed⟩

/-- A client that leaves is forgotten exactly if only channels had it
registered. -/
theorem leave_forgets_iff {aof : Option Bytes} {events : List ConnectionEvent}
    (run : Runs Steps (start config aof) events state) (env : Env) (id : Nat) :
    Forgotten (state.leave env id) id ↔ Uninvolved state id := by
  obtain ⟨_, elsewhere, channels⟩ := (registered_run run).leave env id
  have sameWatches : ∀ index key,
      (state.leave env id).server.db.keyWatchVerify index key id =
        state.server.db.keyWatchVerify index key id := by
    intro index key
    rw [keyWatchVerify, elsewhere.watchedKeys]
    rfl
  have same : Uninvolved (state.leave env id) id ↔ Uninvolved state id := by
    constructor
    · intro free
      refine ⟨?_, ?_, ?_⟩
      · rw [← elsewhere.patternSubscribers]
        exact free.patterns
      · intro index key
        rw [← sameWatches]
        exact free.watches index key
      · rw [← elsewhere.keySubscribers]
        exact free.keys
    · intro free
      refine ⟨?_, ?_, ?_⟩
      · rw [elsewhere.patternSubscribers]
        exact free.patterns
      · intro index key
        rw [sameWatches]
        exact free.watches index key
      · rw [elsewhere.keySubscribers]
        exact free.keys
  constructor
  · intro forgotten
    exact same.mp forgotten.others
  · intro free
    exact ⟨channels, same.mpr free⟩

end Connections

end

/-! ## A client that leaves while it watches a key -/

section

attribute [local instance] Platform.integral

open Command

namespace Connections

noncomputable def subscribeRequest : Request :=
  .still 0 0 [text "SUBSCRIBE", text "news"] Request.subscribe_withinLimits

noncomputable def watchRequest : Request :=
  .still 0 0 [text "WATCH", text "k"] Request.watch_withinLimits

theorem subscribeRequest_received :
    Server.Executes Receiving subscribeRequest (.start {} none) := by
  refine ⟨rfl, ?_⟩
  intro name after named routed
  cases named
  cases (route_exec routed).1

theorem watchRequest_received :
    Server.Executes Receiving watchRequest (.start {} none) := by
  refine ⟨rfl, ?_⟩
  intro name after named routed
  cases named
  cases (route_exec routed).1

/-- A client that only subscribed to a channel is forgotten. -/
theorem leave_forgets_subscriber :
    ∃ state, Runs Steps (start {} none) [.request subscribeRequest] state ∧
      Forgotten (state.leave (.still 0) 0) 0 := by
  have subscribed : ((start {} none).server.step subscribeRequest).map
      (fun result => (result.2.db.patternSubscribers,
        result.2.db.watchedKeys, result.2.db.keySubscribers)) =
      some (∅, fun _ => ∅, fun _ => ∅) := by
    rfl
  obtain ⟨⟨answer, server⟩, stepped, registries⟩ :=
    Option.map_eq_some_iff.mp subscribed
  obtain ⟨patterns, rest⟩ := Prod.mk.inj registries
  obtain ⟨watches, keys⟩ := Prod.mk.inj rest
  have run : Runs Steps (start {} none) [.request subscribeRequest]
      ((start {} none).answered subscribeRequest server) :=
    .next ⟨subscribeRequest_received, answer, server, stepped, rfl⟩ (.done _)
  refine ⟨_, run, (leave_forgets_iff run (.still 0) 0).mpr ⟨?_, ?_, ?_⟩⟩
  · intro pattern ticket
    rw [answered, patterns]
    simp
  · intro index key
    rw [answered, Database.keyWatchVerify, watches]
    rfl
  · intro index key ticket member
    rw [answered, keys, Registry.held_empty] at member
    exact absurd member Finmap.notMem_empty

/-- The watch of a client stays when it leaves. -/
theorem leave_not_forgets :
    ¬ ∀ (config : Config) (aof : Option Bytes)
        (events : List ConnectionEvent) (state : Connections),
      Runs Steps (start config aof) events state →
      ∀ (env : Env) (id : Nat), Forgotten (state.leave env id) id := by
  intro forgets
  have watched : ((start {} none).server.step watchRequest).map (fun result =>
      result.2.db.keyWatchVerify 0 (text "k") 0) = some true := by
    rfl
  obtain ⟨⟨answer, server⟩, stepped, watched⟩ :=
    Option.map_eq_some_iff.mp watched
  have run : Runs Steps (start {} none) [.request watchRequest]
      ((start {} none).answered watchRequest server) :=
    .next ⟨watchRequest_received, answer, server, stepped, rfl⟩ (.done _)
  have gone := (forgets {} none _ _ run (.still 0) 0).others.watches 0
    (text "k")
  obtain ⟨_, elsewhere, _⟩ := (registered_run run).leave (.still 0) 0
  rw [Database.keyWatchVerify, elsewhere.watchedKeys] at gone
  cases watched.symm.trans gone

end Connections

end

end RedVector
