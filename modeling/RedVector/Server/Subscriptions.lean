import RedVector.Command.Channels
import RedVector.Effect.Listing
import RedVector.Response.Framing

/-!
# Subscriptions

In a run in which no client subscribes to a pattern that it is subscribed to,
the database and the clients agree on the subscriptions at every point, and
what is published reaches every subscription once.
-/

namespace RedVector

open Util Effect

section

variable [Platform]

/-! ## Delivery -/

namespace Database

variable {env : Env} {db after : Database} {channel message : Bytes}
  {own : Nat → HashMap Bytes Nat}

/-- What is sent to all recipients when each of them receives. -/
theorem sendAll_sent (connected : ∀ id, env.receives id = true)
    (db : Database) (registry : Registry Bytes Nat) (name : Bytes)
    (response : Response) :
    db.sendAll env ((registry.lookup name).getD ∅) response =
      ((registry.holders env.idOrder name).length,
        db.withSent (db.sent ++
          (registry.holders env.idOrder name).map fun id =>
            .response id response)) := by
  have all : ∀ clients : List Nat, clients.filter env.receives = clients :=
    fun clients => List.filter_eq_self.mpr fun id _ => connected id
  unfold sendAll
  dsimp only
  rw [all]
  rfl

/-- The messages to the subscribers of matching patterns. -/
def patternMessages (env : Env) (registry : Registry Bytes Nat)
    (channel message : Bytes) (patterns : List Bytes) : List Message :=
  (patterns.filter fun pattern =>
    globMatch pattern channel false = some true).flatMap fun pattern =>
      (registry.holders env.idOrder pattern).map fun id =>
        .response id (messageResponse channel (some pattern) message)

theorem publishPatterns_messages (connected : ∀ id, env.receives id = true)
    {patterns : List Bytes} {count reached : Nat}
    (published : publishPatterns env channel message patterns count db =
      some (reached, after)) :
    let messages := patternMessages env db.patternSubscribers channel
      message patterns
    after = db.withSent (db.sent ++ messages) ∧
      reached = count + messages.length := by
  induction patterns generalizing count db with
  | nil =>
      cases published
      simp [patternMessages, withSent]
  | cons pattern rest ih =>
      simp only [publishPatterns, Option.bind_eq_bind,
        Option.bind_eq_some_iff] at published
      obtain ⟨fits, matched, published⟩ := published
      cases fits with
      | true =>
          simp only [if_true] at published
          rw [sendAll_sent connected] at published
          obtain ⟨rfl, rfl⟩ := ih published
          have first : patternMessages env db.patternSubscribers channel
              message (pattern :: rest) =
              (Registry.holders db.patternSubscribers env.idOrder
                pattern).map (fun id => .response id
                  (messageResponse channel (some pattern) message)) ++
              patternMessages env db.patternSubscribers channel message
                rest := by
            simp [patternMessages, matched]
          dsimp only
          rw [first]
          constructor
          · simp [withSent]
          · simp [withSent, Nat.add_assoc]
      | false =>
          have same : patternMessages env db.patternSubscribers channel
              message (pattern :: rest) =
              patternMessages env db.patternSubscribers channel message
                rest := by
            simp [patternMessages, matched]
          dsimp only
          rw [same]
          exact ih published

/-- What PUBLISH sends when every client receives: a message for every
subscription. -/
def messages (env : Env) (db : Database) (channel message : Bytes) :
    List Message :=
  (Registry.holders db.subscribers env.idOrder channel).map (fun id =>
    .response id (messageResponse channel none message)) ++
  patternMessages env db.patternSubscribers channel message
    (env.order db.patternSubscribers.keys)

theorem publish_messages (connected : ∀ id, env.receives id = true)
    {count : Nat}
    (published : db.publish env channel message = some (count, after)) :
    after = db.withSent (db.sent ++ db.messages env channel message) ∧
      count = (db.messages env channel message).length := by
  unfold publish at published
  dsimp only at published
  rw [sendAll_sent connected] at published
  obtain ⟨rfl, rfl⟩ := publishPatterns_messages connected published
  constructor
  · simp [withSent, messages]
  · simp [withSent, messages]

omit [Platform] in
theorem messageResponse_inj
    {channel message : Bytes} {first second : Option Bytes}
    (same : messageResponse channel first message =
      messageResponse channel second message) : first = second := by
  cases first with
  | none =>
      cases second with
      | none => rfl
      | some second => simp [messageResponse] at same
  | some first =>
      cases second with
      | none => simp [messageResponse] at same
      | some second =>
          simp [messageResponse] at same
          rw [same]

variable {patternOwn : Nat → HashMap Bytes Nat}

theorem mem_patternMessages
    (patterns : Registry.Agrees db.patternSubscribers db.subscriberId
      patternOwn) (names : List Bytes) (entry : Message) :
    entry ∈ patternMessages env db.patternSubscribers channel message
        names ↔
      ∃ id, ∃ pattern ∈ names, pattern ∈ patternOwn id ∧
        globMatch pattern channel false = some true ∧
        entry = .response id
          (messageResponse channel (some pattern) message) := by
  unfold patternMessages
  simp only [List.mem_flatMap, List.mem_filter, decide_eq_true_eq,
    List.mem_map]
  constructor
  · rintro ⟨pattern, ⟨listed, fits⟩, id, holds, rfl⟩
    rw [Registry.mem_holders patterns env.mem_idOrder] at holds
    exact ⟨id, pattern, listed, holds, fits, rfl⟩
  · rintro ⟨id, pattern, listed, holds, fits, rfl⟩
    refine ⟨pattern, ⟨listed, fits⟩, id, ?_, rfl⟩
    rwa [Registry.mem_holders patterns env.mem_idOrder]

/-- The messages are those for the subscriptions of the clients. -/
theorem mem_messages
    (channels : Registry.Agrees db.subscribers db.subscriberId own)
    (patterns : Registry.Agrees db.patternSubscribers db.subscriberId
      patternOwn) (entry : Message) :
    entry ∈ db.messages env channel message ↔ ∃ id,
      (channel ∈ own id ∧
        entry = .response id (messageResponse channel none message)) ∨
      ∃ pattern ∈ patternOwn id, globMatch pattern channel false = some true ∧
        entry = .response id
          (messageResponse channel (some pattern) message) := by
  have listed : ∀ id pattern, pattern ∈ patternOwn id →
      pattern ∈ env.order db.patternSubscribers.keys := by
    intro id pattern member
    rw [env.mem_order, Finmap.mem_keys]
    exact patterns.recorded member
  unfold messages
  rw [List.mem_append, mem_patternMessages patterns, List.mem_map]
  constructor
  · rintro (⟨id, holds, rfl⟩ | ⟨id, pattern, -, holds, fits, rfl⟩)
    · rw [Registry.mem_holders channels env.mem_idOrder] at holds
      exact ⟨id, .inl ⟨holds, rfl⟩⟩
    · exact ⟨id, .inr ⟨pattern, holds, fits, rfl⟩⟩
  · rintro ⟨id, ⟨holds, rfl⟩ | ⟨pattern, holds, fits, rfl⟩⟩
    · refine .inl ⟨id, ?_, rfl⟩
      rwa [Registry.mem_holders channels env.mem_idOrder]
    · exact .inr ⟨id, pattern, listed id pattern holds, holds, fits, rfl⟩

/-- No message is sent twice. -/
theorem nodup_messages
    (channels : Registry.Agrees db.subscribers db.subscriberId own)
    (patterns : Registry.Agrees db.patternSubscribers db.subscriberId
      patternOwn) :
    (db.messages env channel message).Nodup := by
  have distinct : ∀ response : Response,
      Function.Injective fun id => Message.response id response :=
    fun response first second same => (Message.response.inj same).1
  unfold messages
  rw [List.nodup_append]
  refine ⟨?_, ?_, ?_⟩
  · exact (Registry.nodup_holders channels env.idOrder_nodup channel).map
      (distinct _)
  · unfold patternMessages
    rw [List.nodup_flatMap]
    constructor
    · intro pattern _
      exact (Registry.nodup_holders patterns env.idOrder_nodup pattern).map
        (distinct _)
    · refine ((env.order_nodup _).filter _).imp ?_
      intro first second apart entry isFirst isSecond
      obtain ⟨_, _, rfl⟩ := List.mem_map.mp isFirst
      obtain ⟨_, _, same⟩ := List.mem_map.mp isSecond
      have equal := messageResponse_inj (Message.response.inj same).2
      exact apart (Option.some.inj equal).symm
  · intro first isFirst second isSecond same
    subst same
    obtain ⟨_, _, rfl⟩ := List.mem_map.mp isFirst
    obtain ⟨_, _, -, -, -, same⟩ :=
      (mem_patternMessages patterns _ _).mp isSecond
    cases messageResponse_inj (Message.response.inj same).2

end Database

/-! ## Histories -/

namespace Command

/-- The commands that reached their handlers so far, when this client began a
request at a position of the record. -/
def historyAt (earlier : Nat → List ParsedCommand) (current start : Nat)
    (db : Database) (id : Nat) : List ParsedCommand :=
  if id = current then
    earlier id ++ (db.dispatched.drop start).map Dispatched.command
  else earlier id

/-- The subscriptions that are recorded are those of the histories. -/
structure Tracked (once : Prop) (config : Config)
    (history : Nat → List ParsedCommand) (db : Database)
    (clients : Nat → Client) : Prop where
  fixed : Config.SameFixed config db.config
  subscribed : Subscribed once db clients
  channelNames : ∀ channel, channel ∈ db.subscribers ↔
    Joined config .subscribe history channel
  patternNames : ∀ pattern, pattern ∈ db.patternSubscribers ↔
    Joined config .psubscribe history pattern
  channels : ∀ id channel, channel ∈ (clients id).subscriptions ↔
    SubscribedTo config (history id) channel
  patterns : ∀ id pattern, pattern ∈ (clients id).patternSubscriptions ↔
    PatternSubscribedTo config (history id) pattern

/-- What holds at every point of a request. -/
structure TracksAt (once : Prop) (config : Config) (others : Nat → Client)
    (earlier : Nat → List ParsedCommand) (current start : Nat)
    (db : Database) (client : Client) : Prop where
  isCurrent : client.id = current
  started : start ≤ db.dispatched.length
  tracked : Tracked once config (historyAt earlier current start db) db
    (among others client)

/-- Parts of a client that only the four commands write. -/
structure SameSubscriptions (before after : Client) : Prop where
  id : after.id = before.id
  subscriptions : after.subscriptions = before.subscriptions
  patterns : after.patternSubscriptions = before.patternSubscriptions

theorem admitted_subscriptions (db : Database) (client : Client) :
    SameSubscriptions client (admitted db client) := by
  unfold admitted
  split
  · exact ⟨rfl, rfl, rfl⟩
  · exact ⟨rfl, rfl, rfl⟩

theorem answered_subscriptions
    {known : Option CommandName} {command : ParsedCommand} {db : Database}
    {client after : Client} {reply : Response}
    (routed : route known command db client = .answered reply after) :
    SameSubscriptions client after := by
  obtain ⟨id, subscriptions, patterns⟩ := admitted_subscriptions db client
  have admits : ∀ {other : Client}, other.id = (admitted db client).id →
      other.subscriptions = (admitted db client).subscriptions →
      other.patternSubscriptions =
        (admitted db client).patternSubscriptions →
      SameSubscriptions client other := fun first second third =>
    ⟨first.trans id, second.trans subscriptions, third.trans patterns⟩
  cases route_answered routed with
  | auth =>
      unfold authenticate
      split
      · exact admits rfl rfl rfl
      · split
        · exact admits rfl rfl rfl
        · split
          · exact admits rfl rfl rfl
          · exact admits rfl rfl rfl
  | outsider => exact admits rfl rfl rfl
  | multi =>
      unfold multi
      split
      · exact admits rfl rfl rfl
      · exact admits rfl rfl rfl
  | discard =>
      unfold discard
      split
      · exact admits rfl rfl rfl
      · exact admits rfl rfl rfl
  | watch => exact admits rfl rfl rfl
  | queued => exact admits rfl rfl rfl
  | select =>
      unfold select
      split
      · exact admits rfl rfl rfl
      · split
        · exact admits rfl rfl rfl
        · exact admits rfl rfl rfl

variable {once : Prop} {config : Config} {others : Nat → Client}
  {earlier : Nat → List ParsedCommand} {current start : Nat}

theorem TracksAt.congr
    {db after : Database} {client other : Client}
    (tracks : TracksAt once config others earlier current start db client)
    (same : Database.SameChannels db after)
    (settings : after.config = db.config)
    (dispatched : after.dispatched = db.dispatched)
    (subscriptions : SameSubscriptions client other) :
    TracksAt once config others earlier current start after other := by
  obtain ⟨id, subscriptions, patterns⟩ := subscriptions
  have history : historyAt earlier current start after =
      historyAt earlier current start db := by
    funext number
    unfold historyAt
    rw [dispatched]
  refine ⟨id.trans tracks.isCurrent, dispatched ▸ tracks.started, ?_, ?_, ?_,
    ?_, ?_, ?_⟩
  · rw [settings]
    exact tracks.tracked.fixed
  · exact tracks.tracked.subscribed.congr same id subscriptions patterns
  · rw [history, same.subscribers]
    exact tracks.tracked.channelNames
  · rw [history, same.patternSubscribers]
    exact tracks.tracked.patternNames
  · intro number channel
    rw [history, ← tracks.tracked.channels]
    have part := among_same_part Client.subscriptions others client id
      subscriptions
    rw [show (among others other number).subscriptions = _ from
      congrFun part number]
  · intro number pattern
    rw [history, ← tracks.tracked.patterns]
    have part := among_same_part Client.patternSubscriptions others client id
      patterns
    rw [show (among others other number).patternSubscriptions = _ from
      congrFun part number]

/-- Every point of a request keeps the records as the histories say. -/
theorem tracks_keeps :
    KeepsEach (Subscribing once)
      (TracksAt once config others earlier current start) where
  answered := by
    intro env name command db client after reply tracks _ _ routed
    exact tracks.congr (.refl db) rfl rfl (answered_subscriptions routed)
  admitted := by
    intro db client tracks
    exact tracks.congr (.refl db) rfl rfl (admitted_subscriptions db client)
  started := by
    intro db client tracks
    exact tracks.congr (.refl db) rfl rfl ⟨rfl, rfl, rfl⟩
  dispatched := by
    intro env name command db client between outcome tracks subscribing named
      routed dispatched
    obtain ⟨receives, fresh⟩ := subscribing
    obtain ⟨isBetween, -⟩ := route_dispatched routed
    have same := admitted_subscriptions db client
    have tracks := tracks.congr (.refl db) rfl rfl same
    rw [← isBetween] at tracks same
    obtain ⟨fixed, -, -, record, -⟩ := dispatch_recorded dispatched
    have follows := dispatch_follows tracks.tracked.fixed named
      (same.id ▸ receives) (fun isPsubscribe known =>
        same.patterns ▸ fresh known name between named isPsubscribe routed)
      tracks.tracked.subscribed dispatched
    have history : ∀ id, historyAt earlier current start outcome.db id =
        if id = current then historyAt earlier current start db id ++ [command]
        else historyAt earlier current start db id := by
      intro id
      unfold historyAt
      rw [record, List.drop_append_of_le_length tracks.started]
      split
      · simp
      · rfl
    have isCurrent : outcome.client.id = current := follows.id.trans tracks.isCurrent
    refine ⟨isCurrent, ?_, tracks.tracked.fixed.trans fixed,
      follows.subscribed,
      follows.joins_channels tracks.tracked.subscribed history
        tracks.tracked.channelNames,
      follows.joins_patterns tracks.tracked.subscribed history
        tracks.tracked.patternNames, ?_, ?_⟩
    · rw [record, List.length_append]
      exact tracks.started.trans (Nat.le_add_right _ _)
    · intro id channel
      have before := tracks.tracked.channels id channel
      rw [history]
      rw [among_apply] at before ⊢
      rw [isCurrent]
      rw [tracks.isCurrent] at before
      split
      · rename_i same
        rw [if_pos same] at before
        rw [SubscribedTo, since_concat, ← SubscribedTo, ← before]
        exact follows.channels channel
      · rename_i apart
        rwa [if_neg apart] at before
    · intro id pattern
      have before := tracks.tracked.patterns id pattern
      rw [history]
      rw [among_apply] at before ⊢
      rw [isCurrent]
      rw [tracks.isCurrent] at before
      split
      · rename_i same
        rw [if_pos same] at before
        rw [PatternSubscribedTo, since_concat, ← PatternSubscribedTo,
          ← before]
        exact follows.patterns pattern
      · rename_i apart
        rwa [if_neg apart] at before
  logged := by
    intro env command executed tracks
    obtain ⟨noted, -⟩ := logged_noted env command executed
    exact tracks.congr (logged_sameChannels env command executed)
      noted.config noted.dispatched ⟨rfl, rfl, rfl⟩

/-- PUBLISH sends each client one message for its subscription to the channel
and one for each pattern it is subscribed to that matches, and answers how
many those are. -/
def Delivers (config : Config) (history : Database → Nat → List ParsedCommand) :
    Condition :=
  fun env command db client => ∀ name between outcome,
    commandName db command.arguments = .ok name →
    CommandName.ofBytes name = some .publish →
    route (CommandName.ofBytes name) command db client =
      .dispatched between →
    dispatch env name (writeFlag name) command db between = some outcome →
    command.arguments.length = 3 →
    let channel := command.arguments.getD 1 []
    let message := command.arguments.getD 2 []
    ∃ delivered : List Message,
      outcome.answer = .ok (.integer delivered.length) ∧
      outcome.db.sent = db.sent ++ delivered ∧ delivered.Nodup ∧
      ∀ entry, entry ∈ delivered ↔ ∃ id,
        (SubscribedTo config (history db id) channel ∧
          entry = .response id
            (Database.messageResponse channel none message)) ∨
        ∃ pattern, PatternSubscribedTo config (history db id) pattern ∧
          globMatch pattern channel false = some true ∧
          entry = .response id
            (Database.messageResponse channel (some pattern) message)

theorem publish_published
    {env : Env} {argv : Arguments} {db after : Database} {reply : Response}
    (three : argv.length = 3)
    (handled : publish env argv db = some (reply, after)) :
    ∃ count, db.publish env (argv.getD 1 []) (argv.getD 2 []) =
        some (count, after) ∧ reply = .integer count := by
  have accepted : validateArgumentsExact argv 3 = .ok () := if_pos three
  unfold publish at handled
  rw [accepted] at handled
  obtain ⟨⟨count, between⟩, published, handled⟩ :=
    Option.bind_eq_some_iff.mp handled
  cases handled
  exact ⟨count, published, rfl⟩

theorem publish_delivers
    {env : Env} {command : ParsedCommand} {db : Database} {client : Client}
    (tracks : TracksAt True config others earlier current start db client)
    (connected : ∀ id, env.receives id = true) :
    Delivers config (historyAt earlier current start) env command db client := by
  intro name between outcome named isPublish routed dispatched three channel
    message
  unfold dispatch at dispatched
  rw [isPublish] at dispatched
  obtain ⟨⟨reply, after⟩, handled, finished⟩ :=
    Option.bind_eq_some_iff.mp dispatched
  cases finished
  have handled : publish env command.arguments _ = some (reply, after) :=
    handled
  obtain ⟨count, published, rfl⟩ := publish_published three handled
  obtain ⟨sent, rfl⟩ := Database.publish_messages connected published
  obtain ⟨-, subscribed, -, -, channels, patterns⟩ := tracks.tracked
  have agree := subscribed.patterns trivial
  rw [sent]
  refine ⟨Database.messages env _ channel message, rfl, rfl, ?_, ?_⟩
  · exact Database.nodup_messages subscribed.channels agree
  · intro entry
    refine (Database.mem_messages subscribed.channels agree
      entry).trans ?_
    simp only [channels, patterns]

end Command

/-! ## Runs -/

namespace Server

open Command

/-- The commands of a client that reach their handlers in a run. -/
def history (server : Server) : List Request → Nat → List ParsedCommand
  | [], _ => []
  | request :: rest, id =>
      match server.step request with
      | none => []
      | some (_, after) =>
          (if id = request.client then
            (after.db.dispatched.drop server.db.dispatched.length).map
              Dispatched.command
          else []) ++ after.history rest id

/-- The commands that the request executes meet the condition. -/
def Executes (condition : Condition) (request : Request) (server : Server) :
    Prop :=
  Each condition request.world request.command server.db
    (server.clients request.client)

/-- Every client receives, and none of the commands that the request executes
subscribes its client to a pattern again. -/
def Subscribes (request : Request) (server : Server) : Prop :=
  Each SubscribesOnce request.world request.command server.db
    (server.clients request.client)

theorem tracksAt_start
    {once : Prop} {config : Config} {earlier : Nat → List ParsedCommand}
    {server : Server}
    (tracked : Tracked once config earlier server.db server.clients)
    (id : Nat) :
    TracksAt once config server.clients earlier id server.db.dispatched.length
      server.db (server.clients id) := by
  have isId := tracked.subscribed.ids id
  have history : historyAt earlier id server.db.dispatched.length server.db =
      earlier := by
    funext other
    simp [historyAt]
  have clients : among server.clients (server.clients id) =
      server.clients := by
    unfold among
    rw [isId, Function.update_eq_self]
  refine ⟨isId, le_rfl, ?_⟩
  rw [history, clients]
  exact tracked

theorem step_tracked
    {once : Prop} {config : Config} {earlier : Nat → List ParsedCommand}
    {server after : Server} {request : Request} {answer : Answer}
    (tracked : Tracked once config earlier server.db server.clients)
    (subscribing : Executes (Subscribing once) request server)
    (stepped : server.step request = some (answer, after)) :
    Tracked once config
      (historyAt earlier request.client server.db.dispatched.length after.db)
      after.db after.clients := by
  obtain ⟨outcome, ran, -, rfl⟩ := step_eq_some.mp stepped
  have tracks := commandAt_keepsEach tracks_keeps
    (tracksAt_start tracked request.client) subscribing ran
  have clients : among server.clients outcome.client =
      Function.update server.clients request.client outcome.client := by
    unfold among
    rw [tracks.isCurrent]
  rw [← clients]
  exact tracks.tracked

/-- The records are those of the histories. -/
theorem run_tracked
    {once : Prop} {config : Config} {earlier : Nat → List ParsedCommand}
    {server after : Server} {requests : List Request}
    (tracked : Tracked once config earlier server.db server.clients)
    (run : Runs (Steps (Executes (Subscribing once))) server requests
      after) :
    Tracked once config (fun id => earlier id ++ server.history requests id)
      after.db after.clients := by
  induction run generalizing earlier with
  | done server =>
      simpa [history] using tracked
  | next first others ih =>
      obtain ⟨subscribing, answer, stepped⟩ := first
      have one := ih (step_tracked tracked subscribing stepped)
      refine cast ?_ one
      congr 1
      funext id
      simp only [history, stepped, historyAt]
      split
      · simp
      · simp

theorem tracked_start (once : Prop) (config : Config) (aof : Option Bytes) :
    Tracked once config (fun _ => []) (start config aof).db
      (start config aof).clients := by
  refine ⟨.refl config, ⟨fun _ => rfl, ?_, ?_, ?_⟩, ?_, ?_, ?_, ?_⟩
  · exact Registry.agrees_empty 0
  · exact fun _ => Registry.agrees_empty 0
  · exact fun _ _ member => absurd member Finmap.notMem_empty
  · intro channel
    exact iff_of_false Finmap.notMem_empty (by simp [Command.Joined])
  · intro pattern
    exact iff_of_false Finmap.notMem_empty (by simp [Command.Joined])
  · intro id channel
    exact iff_of_false Finmap.notMem_empty since_nil
  · intro id pattern
    exact iff_of_false Finmap.notMem_empty since_nil

/-- In a run in which no client subscribes to a pattern that it is subscribed
to, every PUBLISH that is executed reaches every subscription once. -/
theorem published_once
    {config : Config} {aof : Option Bytes} {requests : List Request}
    {server : Server}
    (run : Runs (Steps Subscribes) (start config aof) requests server)
    {request : Request} (once : Subscribes request server) :
    Each (Delivers config
        (historyAt ((start config aof).history requests) request.client
          server.db.dispatched.length))
      request.world request.command server.db
      (server.clients request.client) := by
  have steps : Runs (Steps (Executes (Subscribing True)))
      (start config aof) requests server :=
    run.mono fun _ _ _ step =>
      ⟨eachAt_mono SubscribesOnce.subscribing step.1, step.2⟩
  have tracked := run_tracked (tracked_start True config aof) steps
  simp only [List.nil_append] at tracked
  exact eachAt_strengthen (tracks_keeps.mono SubscribesOnce.subscribing)
    (fun tracks once => publish_delivers tracks once.1)
    (tracksAt_start tracked request.client) once

/-- Every client receives. -/
def Connected (request : Request) (_ : Server) : Prop :=
  ∀ path id, (request.world path).receives id = true

end Server

end

/-! ## A pattern twice -/

section

attribute [local instance] Platform.integral

open Command

/-- A quiet environment that lists names and numbers in these orders. -/
noncomputable def Env.listing (names : List Bytes) (ids : List Nat)
    (once : names.Nodup) (idsOnce : ids.Nodup) : Env :=
  { Env.still 0 with
    order := listed names
    order_nodup := listed_nodup once
    mem_order := mem_listed names
    idOrder := listed ids
    idOrder_nodup := listed_nodup idsOnce
    mem_idOrder := mem_listed ids }

namespace Server

/-- A request of a client while the maps list what it names in order. -/
noncomputable def request (client : Nat) (arguments : List Bytes)
    (limits : Parser.WithinLimits arguments) : Request :=
  { world := fun _ => .listing [text "news"] [0, 1] (by decide) (by decide)
    client := client
    command := .encoded arguments [] limits }

noncomputable def psubscribeNews : Request :=
  request 0 [text "PSUBSCRIBE", text "news"] ⟨by decide, by decide⟩

noncomputable def publishNews : Request :=
  request 1 [text "PUBLISH", text "news", text "m"] ⟨by decide, by decide⟩

/-- The request that publishes reaches its handler. -/
theorem publishNews_routed (db : Database) (client : Client)
    (fixed : Config.SameFixed {} db.config) (outside : client.multi = false) :
    commandName db publishNews.command.arguments = .ok (text "publish") ∧
      CommandName.ofBytes (text "publish") = some .publish ∧
      route (some .publish) publishNews.command db client =
        .dispatched { client with auth := true } := by
  refine ⟨?_, by decide, ?_⟩
  · have same : commandName db publishNews.command.arguments =
        commandName (.new {} none) publishNews.command.arguments :=
      commandName_congr _ fixed.renameCommands
    exact same
  · have open' : admitted db client = { client with auth := true } := by
      unfold admitted
      rw [fixed.requirepass]
      rfl
    unfold route
    rw [open']
    simp [outside]

/-- The client and the bytes of a message that reads back. -/
def observed : Message → Option (Nat × Bytes)
  | .response client response =>
      if response.framed then some (client, response.asBytes) else none
  | _ => none

theorem observed_inj {first second : Message}
    (readable : (observed first).isSome = true)
    (same : observed first = observed second) : first = second := by
  obtain ⟨⟨client, bytes⟩, read⟩ := Option.isSome_iff_exists.mp readable
  rw [read] at same
  have isResponse : ∀ message, observed message = some (client, bytes) →
      ∃ response, message = .response client response ∧
        Response.ofBytes bytes = some response := by
    intro message read
    cases message with
    | response id response =>
        simp only [observed] at read
        split at read
        · rename_i framed
          cases read
          exact ⟨response, rfl,
            (Response.ofBytes_asBytes_iff response).mpr framed⟩
        · cases read
    | updated => cases read
    | monitor => cases read
  obtain ⟨one, rfl, readOne⟩ := isResponse first read
  obtain ⟨other, rfl, readOther⟩ := isResponse second same.symm
  rw [readOne] at readOther
  cases readOther
  rfl

/-- A client that subscribes to a pattern twice receives each message
twice. -/
theorem published_twice :
    ¬∀ (config : Config) (aof : Option Bytes) (requests : List Request)
      (server : Server) (request : Request),
      Runs (Steps Connected) (start config aof) requests server →
      Connected request server →
      Each (Delivers config
          (historyAt ((start config aof).history requests) request.client
            server.db.dispatched.length))
        request.world request.command server.db
        (server.clients request.client) := by
  intro delivers
  have sent : ((start {} none).step psubscribeNews).bind (fun result =>
      (result.2.step psubscribeNews).bind fun result =>
        (dispatch (publishNews.world []) (text "publish")
          (writeFlag (text "publish")) publishNews.command result.2.db
          { result.2.clients 1 with auth := true }).map fun outcome =>
            ((result.2.clients 1).multi,
              (outcome.db.sent.drop result.2.db.sent.length).map observed)) =
      some (false, .replicate 2 (some (0,
        (Database.messageResponse (text "news") (some (text "news"))
          (text "m")).asBytes))) := by
    decide +kernel
  obtain ⟨⟨once, first⟩, stepped, sent⟩ := Option.bind_eq_some_iff.mp sent
  obtain ⟨⟨twice, second⟩, again, sent⟩ := Option.bind_eq_some_iff.mp sent
  obtain ⟨outcome, dispatched, sent⟩ := Option.map_eq_some_iff.mp sent
  have run : Runs (Steps Connected) (start {} none)
      [psubscribeNews, psubscribeNews] second :=
    .next ⟨fun _ _ => rfl, once, stepped⟩
      (.next ⟨fun _ _ => rfl, twice, again⟩ (.done second))
  have fixed : Config.SameFixed {} second.db.config := by
    obtain ⟨one, ran, -, rfl⟩ := step_eq_some.mp stepped
    obtain ⟨other, ranAgain, -, rfl⟩ := step_eq_some.mp again
    exact (commandAt_fixed ran).trans (commandAt_fixed ranAgain)
  obtain ⟨outside, sent⟩ := Prod.mk.inj sent
  obtain ⟨named, isPublish, routed⟩ := publishNews_routed second.db
    (second.clients 1) fixed outside
  have each := delivers {} none _ second publishNews run (fun _ _ => rfl)
  obtain ⟨delivered, -, appended, once, -⟩ := each.1 _ _ outcome named isPublish
    (isPublish ▸ routed) dispatched rfl
  rw [appended, List.drop_left] at sent
  have twice : delivered.map observed = [_, _] := sent
  obtain ⟨entry, _, rfl, isOne, others⟩ := List.map_eq_cons_iff.mp twice
  obtain ⟨other, rest, rfl, isOther, -⟩ := List.map_eq_cons_iff.mp others
  have same : entry = other :=
    observed_inj (by rw [isOne]; rfl) (isOne.trans isOther.symm)
  rw [same] at once
  exact (List.nodup_cons.mp once).1 List.mem_cons_self

theorem psubscribeNews_once : Subscribes psubscribeNews (start {} none) := by
  constructor
  · constructor
    · exact fun _ => rfl
    · intro name between named isPsubscribe routed
      constructor
      · exact List.nodup_singleton _
      · intro pattern member
        exact Finmap.notMem_empty
  · intro name after named routed
    cases named
    cases (route_exec routed).1

theorem publishNews_once {server : Server}
    (fixed : Config.SameFixed {} server.db.config)
    (outside : (server.clients 1).multi = false) :
    Subscribes publishNews server := by
  obtain ⟨isPublish, known, -⟩ := publishNews_routed server.db
    (server.clients 1) fixed outside
  constructor
  · constructor
    · exact fun _ => rfl
    · intro name between named isPsubscribe
      cases isPublish.symm.trans named
      cases known.symm.trans isPsubscribe
  · intro name after named routed
    cases isPublish.symm.trans named
    cases known.symm.trans (route_exec routed).1

/-- A message reaches the client that subscribed to a pattern once. -/
theorem published_once_news :
    ∃ server, Runs (Steps Subscribes) (start {} none) [psubscribeNews]
        server ∧
      Each (Delivers {}
          (historyAt ((start {} none).history [psubscribeNews])
            publishNews.client server.db.dispatched.length))
        publishNews.world publishNews.command server.db
        (server.clients publishNews.client) := by
  have answered : ((start {} none).step psubscribeNews).map
      (fun result => (result.2.clients 1).multi) = some false := by
    rfl
  obtain ⟨⟨answer, server⟩, stepped, outside⟩ :=
    Option.map_eq_some_iff.mp answered
  have run : Runs (Steps Subscribes) (start {} none) [psubscribeNews]
      server :=
    .next ⟨psubscribeNews_once, answer, stepped⟩ (.done server)
  have fixed : Config.SameFixed {} server.db.config := by
    obtain ⟨one, ran, -, rfl⟩ := step_eq_some.mp stepped
    exact commandAt_fixed ran
  exact ⟨server, run, published_once run (publishNews_once fixed outside)⟩

end Server

end

end RedVector
