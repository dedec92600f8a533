import RedVector.Command.Renaming
import RedVector.Database.Writes
import RedVector.Effect.Registry

/-!
# Channels

A subscription is recorded by the database and by the client.  The channels
and the patterns are two registries; only four commands enter and leave them.
-/

namespace RedVector

open Util Effect

variable [Platform]

namespace Database

/-! ## What leaves the registries alone -/

/-- Nobody subscribes or unsubscribes. -/
structure SameChannels (before after : Database) : Prop where
  subscribers : after.subscribers = before.subscribers
  patternSubscribers : after.patternSubscribers = before.patternSubscribers
  subscriberId : before.subscriberId ≤ after.subscriberId

namespace SameChannels

theorem refl (db : Database) : SameChannels db db :=
  ⟨rfl, rfl, le_rfl⟩

theorem trans {before between after : Database}
    (first : SameChannels before between)
    (second : SameChannels between after) : SameChannels before after :=
  ⟨second.subscribers.trans first.subscribers,
    second.patternSubscribers.trans first.patternSubscribers,
    first.subscriberId.trans second.subscriberId⟩

end SameChannels

/-- No operation of a handler subscribes or unsubscribes. -/
theorem writes_sameChannels : Writes SameChannels where
  refl := .refl
  trans := .trans
  data := fun _ _ _ => ⟨rfl, rfl, le_rfl⟩
  expirations := fun _ _ _ => ⟨rfl, rfl, le_rfl⟩
  watched := fun _ _ _ => ⟨rfl, rfl, le_rfl⟩
  keySubscribers := fun _ _ _ => ⟨rfl, rfl, le_rfl⟩
  lru := fun _ _ _ => ⟨rfl, rfl, le_rfl⟩
  sent := fun _ _ => ⟨rfl, rfl, le_rfl⟩
  updates := fun _ _ => ⟨rfl, rfl, le_rfl⟩
  memory := fun _ _ _ => ⟨rfl, rfl, le_rfl⟩
  evicted := fun _ _ => ⟨rfl, rfl, le_rfl⟩
  subscriberId := fun _ => ⟨rfl, rfl, Nat.le_succ _⟩

/-- Nor does a server command. -/
theorem serves_sameChannels : Serves SameChannels where
  refl := .refl
  trans := .trans
  sent := fun _ _ => ⟨rfl, rfl, le_rfl⟩
  monitors := fun _ _ => ⟨rfl, rfl, le_rfl⟩
  saved := fun _ _ => ⟨rfl, rfl, le_rfl⟩
  config := fun _ _ _ => ⟨rfl, rfl, le_rfl⟩
  slowlog := fun _ _ _ => ⟨rfl, rfl, le_rfl⟩

theorem unsubscribe_leaves (db : Database) (channel : Bytes)
    (subscriberId : Nat) :
    (db.unsubscribe channel subscriberId).2.subscribers =
        Registry.leave db.subscribers channel subscriberId ∧
      (db.unsubscribe channel subscriberId).2.patternSubscribers =
        db.patternSubscribers ∧
      (db.unsubscribe channel subscriberId).2.subscriberId =
        db.subscriberId := by
  unfold unsubscribe Registry.leave
  cases db.subscribers.lookup channel with
  | none => exact ⟨rfl, rfl, rfl⟩
  | some recipients => exact ⟨rfl, rfl, rfl⟩

theorem punsubscribe_leaves (db : Database) (pattern : Bytes)
    (subscriberId : Nat) :
    (db.punsubscribe pattern subscriberId).2.patternSubscribers =
        Registry.leave db.patternSubscribers pattern subscriberId ∧
      (db.punsubscribe pattern subscriberId).2.subscribers =
        db.subscribers ∧
      (db.punsubscribe pattern subscriberId).2.subscriberId =
        db.subscriberId := by
  unfold punsubscribe Registry.leave
  cases db.patternSubscribers.lookup pattern with
  | none => exact ⟨rfl, rfl, rfl⟩
  | some recipients => exact ⟨rfl, rfl, rfl⟩

end Database

open Database

namespace Command

theorem logged_sameChannels (env : Env) (command : ParsedCommand)
    (executed : Executed) :
    SameChannels executed.db (logged env command executed).db :=
  serves_sameChannels.logged (fun _ _ => ⟨rfl, rfl, le_rfl⟩) env command
    executed

/-! ## The registries -/

/-- Both the database and the clients know who subscribed to what; about the
patterns, if nobody subscribed to one twice. -/
structure Subscribed (once : Prop) (db : Database) (clients : Nat → Client) :
    Prop where
  ids : ∀ id, (clients id).id = id
  channels : Registry.Agrees db.subscribers db.subscriberId
    fun id => (clients id).subscriptions
  patterns : once → Registry.Agrees db.patternSubscribers db.subscriberId
    fun id => (clients id).patternSubscriptions
  recorded : ∀ id, ∀ pattern ∈ (clients id).patternSubscriptions,
    pattern ∈ db.patternSubscribers

/-- The clients with this one in its place. -/
def among (others : Nat → Client) (client : Client) : Nat → Client :=
  Function.update others client.id client

omit [Platform] in
theorem among_apply (others : Nat → Client) (client : Client) (id : Nat) :
    among others client id = if id = client.id then client else others id := by
  unfold among
  exact Function.update_apply others client.id client id

omit [Platform] in
/-- A part of the clients with a new one for this client. -/
theorem among_part
    {β : Type} (part : Client → β) (others : Nat → Client)
    (client : Client) {after : Client} (same : after.id = client.id) :
    (fun id => part (among others after id)) =
      Function.update (fun id => part (among others client id)) client.id
        (part after) := by
  funext id
  rw [Function.update_apply, among_apply, among_apply, same]
  split
  · rfl
  · rfl

omit [Platform] in
theorem among_same_part
    {β : Type} (part : Client → β) (others : Nat → Client)
    (client : Client) {after : Client} (same : after.id = client.id)
    (equal : part after = part client) :
    (fun id => part (among others after id)) =
      fun id => part (among others client id) := by
  rw [among_part part others client same, equal]
  funext id
  rw [Function.update_apply, among_apply]
  split
  · rfl
  · rfl

omit [Platform] in
theorem among_ids
    {others : Nat → Client} {client after : Client}
    (ids : ∀ id, (among others client id).id = id)
    (same : after.id = client.id) (id : Nat) :
    (among others after id).id = id := by
  have before := ids id
  rw [among_apply] at before ⊢
  rw [same]
  split
  · rename_i self
    rw [same, self]
  · rename_i apart
    rwa [if_neg apart] at before

namespace Subscribed

variable {once : Prop} {db after : Database} {others : Nat → Client}
  {client other : Client}

/-- What the client subscribed to is recorded. -/
theorem own_channels (subscribed : Subscribed once db (among others client)) :
    ∀ channel ∈ client.subscriptions, channel ∈ db.subscribers := by
  intro channel member
  have own : channel ∈ (among others client client.id).subscriptions := by
    rwa [among_apply, if_pos rfl]
  exact subscribed.channels.recorded own

theorem own_patterns (subscribed : Subscribed once db (among others client)) :
    ∀ pattern ∈ client.patternSubscriptions,
      pattern ∈ db.patternSubscribers := by
  intro pattern member
  refine subscribed.recorded client.id pattern ?_
  rwa [among_apply, if_pos rfl]

/-- The patterns stay recorded as the client moves. -/
theorem stays_recorded (subscribed : Subscribed once db (among others client))
    (same : other.id = client.id)
    (grows : ∀ pattern ∈ db.patternSubscribers,
      pattern ∈ after.patternSubscribers)
    (own : ∀ pattern ∈ other.patternSubscriptions,
      pattern ∈ after.patternSubscribers) (id : Nat) :
    ∀ pattern ∈ (among others other id).patternSubscriptions,
      pattern ∈ after.patternSubscribers := by
  intro pattern member
  have before := subscribed.recorded id pattern
  rw [among_apply] at member before
  rw [same] at member
  split at member
  · exact own pattern member
  · rename_i apart
    rw [if_neg apart] at before
    exact grows pattern (before member)

theorem congr (subscribed : Subscribed once db (among others client))
    (same : SameChannels db after) (id : other.id = client.id)
    (subscriptions : other.subscriptions = client.subscriptions)
    (patterns :
      other.patternSubscriptions = client.patternSubscriptions) :
    Subscribed once after (among others other) := by
  refine ⟨among_ids subscribed.ids id, ?_, ?_, ?_⟩
  · rw [among_same_part Client.subscriptions others client id subscriptions,
      same.subscribers]
    exact subscribed.channels.mono same.subscriberId
  · intro once
    rw [among_same_part Client.patternSubscriptions others client id patterns,
      same.patternSubscribers]
    exact (subscribed.patterns once).mono same.subscriberId
  · refine subscribed.stays_recorded id ?_ ?_
    · exact fun pattern known => same.patternSubscribers ▸ known
    · intro pattern member
      rw [patterns] at member
      exact same.patternSubscribers ▸ subscribed.own_patterns pattern member

/-- The client subscribes to a channel for the first time. -/
theorem enterChannel (subscribed : Subscribed once db (among others client))
    {channel : Bytes} (absent : channel ∉ client.subscriptions) :
    Subscribed once (db.subscribe channel client.id).2
      (among others
        { client with
          subscriptions :=
            client.subscriptions.insert channel db.subscriberId }) := by
  let after : Client :=
    { client with
      subscriptions :=
        client.subscriptions.insert channel db.subscriberId }
  have same : after.id = client.id := rfl
  show Subscribed once _ (among others after)
  have self : (among others client client.id).subscriptions =
      client.subscriptions := by
    rw [among_apply, if_pos rfl]
  refine ⟨among_ids subscribed.ids same, ?_, ?_, ?_⟩
  · rw [among_part Client.subscriptions others client same]
    have entered := subscribed.channels.enter (self ▸ absent)
    rw [self] at entered
    exact entered
  · intro once
    rw [among_same_part Client.patternSubscriptions others client same rfl]
    exact (subscribed.patterns once).mono (Nat.le_succ _)
  · exact subscribed.stays_recorded same (fun _ known => known)
      subscribed.own_patterns

theorem enterPattern (subscribed : Subscribed once db (among others client))
    {pattern : Bytes}
    (absent : once → pattern ∉ client.patternSubscriptions) :
    Subscribed once (db.psubscribe pattern client.id).2
      (among others
        { client with
          patternSubscriptions :=
            client.patternSubscriptions.insert pattern db.subscriberId }) := by
  let after : Client :=
    { client with
      patternSubscriptions :=
        client.patternSubscriptions.insert pattern db.subscriberId }
  have same : after.id = client.id := rfl
  show Subscribed once _ (among others after)
  have self : (among others client client.id).patternSubscriptions =
      client.patternSubscriptions := by
    rw [among_apply, if_pos rfl]
  refine ⟨among_ids subscribed.ids same, ?_, ?_, ?_⟩
  · rw [among_same_part Client.subscriptions others client same rfl]
    exact subscribed.channels.mono (Nat.le_succ _)
  · intro once
    rw [among_part Client.patternSubscriptions others client same]
    have entered := (subscribed.patterns once).enter (self ▸ absent once)
    rw [self] at entered
    exact entered
  · refine subscribed.stays_recorded same ?_ ?_
    · exact fun _ known => Registry.mem_enter.mpr (.inr known)
    · intro other member
      apply Registry.mem_enter.mpr
      obtain known | old := Finmap.mem_insert.mp member
      · exact .inl known
      · exact .inr (subscribed.own_patterns other old)

/-- The client leaves a channel that it subscribed to. -/
theorem leaveChannel (subscribed : Subscribed once db (among others client))
    {channel : Bytes} {subscriberId : Nat}
    (present : client.subscriptions.lookup channel = some subscriberId) :
    Subscribed once (db.unsubscribe channel subscriberId).2
      (among others
        { client with
          subscriptions := client.subscriptions.erase channel }) := by
  let after : Client :=
    { client with
      subscriptions :=
        client.subscriptions.erase channel }
  have same : after.id = client.id := rfl
  show Subscribed once _ (among others after)
  have self : (among others client client.id).subscriptions =
      client.subscriptions := by
    rw [among_apply, if_pos rfl]
  have left := subscribed.channels.leave (self ▸ present)
  have leaves := unsubscribe_leaves db channel subscriberId
  refine ⟨among_ids subscribed.ids same, ?_, ?_, ?_⟩
  · rw [among_part Client.subscriptions others client same, leaves.1,
      leaves.2.2]
    rw [self] at left
    exact left
  · rw [among_same_part Client.patternSubscriptions others client same rfl,
      leaves.2.1, leaves.2.2]
    exact subscribed.patterns
  · apply subscribed.stays_recorded same
    · rw [leaves.2.1]
      exact fun _ known => known
    · rw [leaves.2.1]
      exact subscribed.own_patterns

theorem leavePattern (subscribed : Subscribed once db (among others client))
    {pattern : Bytes} {subscriberId : Nat}
    (present :
      client.patternSubscriptions.lookup pattern = some subscriberId) :
    Subscribed once (db.punsubscribe pattern subscriberId).2
      (among others
        { client with
          patternSubscriptions :=
            client.patternSubscriptions.erase pattern }) := by
  let after : Client :=
    { client with
      patternSubscriptions :=
        client.patternSubscriptions.erase pattern }
  have same : after.id = client.id := rfl
  show Subscribed once _ (among others after)
  have self : (among others client client.id).patternSubscriptions =
      client.patternSubscriptions := by
    rw [among_apply, if_pos rfl]
  have leaves := punsubscribe_leaves db pattern subscriberId
  refine ⟨among_ids subscribed.ids same, ?_, ?_, ?_⟩
  · rw [among_same_part Client.subscriptions others client same rfl, leaves.2.1,
      leaves.2.2]
    exact subscribed.channels
  · intro once
    have left := (subscribed.patterns once).leave (self ▸ present)
    rw [among_part Client.patternSubscriptions others client same, leaves.1,
      leaves.2.2]
    rw [self] at left
    exact left
  · apply subscribed.stays_recorded same
    · rw [leaves.1]
      exact fun _ known => Registry.mem_leave.mpr known
    · intro other member
      rw [leaves.1, Registry.mem_leave]
      exact subscribed.own_patterns other (Finmap.mem_erase.mp member).2

end Subscribed

/-! ## Entering and leaving -/

section Folds

variable {once : Prop} {env : Env} {others : Nat → Client} {place : Place}

/-- What a command did to the registries and to the client's subscriptions. -/
structure Resubscribed (once : Prop) (others : Nat → Client)
    (before : Database) (after : Place) (id : Nat)
    (channels patterns : Bytes → Prop) : Prop where
  id : after.2.id = id
  subscribed : Subscribed once after.1 (among others after.2)
  channelNames : Registry.Renames before.subscribers after.1.subscribers
    after.2.subscriptions
  patternNames : Registry.Renames before.patternSubscribers
    after.1.patternSubscribers after.2.patternSubscriptions
  channels : ∀ channel, channel ∈ after.2.subscriptions ↔ channels channel
  patterns : ∀ pattern,
    pattern ∈ after.2.patternSubscriptions ↔ patterns pattern

omit [Platform] in
theorem erase_absent {map : HashMap Bytes Nat} {name : Bytes}
    (absent : map.lookup name = none) : map.erase name = map := by
  refine Finmap.ext_lookup fun other => ?_
  by_cases same : other = name
  · subst same
    rw [Finmap.lookup_erase, absent]
  · exact Finmap.lookup_erase_ne same

theorem send_received (receives : env.receives place.2.id = true)
    (db : Database) (response : Response) :
    (db.send env place.2.id response).1 = true := by
  simp only [Database.send, receives, if_true]

theorem subscribeTo_subscribed (receives : env.receives place.2.id = true)
    (subscribed : Subscribed once place.1 (among others place.2))
    (channel : Bytes) :
    Resubscribed once others place.1 (subscribeTo env place channel) place.2.id
      (fun other => other = channel ∨ other ∈ place.2.subscriptions)
      (fun pattern => pattern ∈ place.2.patternSubscriptions) := by
  unfold subscribeTo
  dsimp only
  by_cases known : channel ∈ place.2.subscriptions
  · simp only [if_pos known, send_received receives, if_true]
    have same := serves_sameChannels.send env place.1 place.2.id
    refine ⟨rfl, subscribed.congr (same _) rfl rfl rfl, ?_, ?_, ?_,
      fun _ => Iff.rfl⟩
    · exact .of_eq (same _).subscribers subscribed.own_channels
    · exact .of_eq (same _).patternSubscribers subscribed.own_patterns
    · intro other
      constructor
      · exact .inr
      · rintro (rfl | old)
        · exact known
        · exact old
  · simp only [if_neg known, send_received receives, if_true]
    have same := serves_sameChannels.send env (place.1.subscribe channel place.2.id).2
      place.2.id
    refine ⟨rfl, (subscribed.enterChannel known).congr (same _) rfl rfl rfl,
      ?_, ?_, fun _ => Finmap.mem_insert, fun _ => Iff.rfl⟩
    · rw [(same _).subscribers]
      exact .enter subscribed.own_channels
    · exact .of_eq (same _).patternSubscribers subscribed.own_patterns

theorem psubscribeTo_subscribed (receives : env.receives place.2.id = true)
    (subscribed : Subscribed once place.1 (among others place.2))
    {pattern : Bytes}
    (absent : once → pattern ∉ place.2.patternSubscriptions) :
    Resubscribed once others place.1 (psubscribeTo env place pattern) place.2.id
      (fun channel => channel ∈ place.2.subscriptions)
      (fun other =>
        other = pattern ∨ other ∈ place.2.patternSubscriptions) := by
  unfold psubscribeTo
  simp only [send_received receives, if_true]
  have same := serves_sameChannels.send env (place.1.psubscribe pattern place.2.id).2
    place.2.id
  refine ⟨rfl, (subscribed.enterPattern absent).congr (same _) rfl rfl rfl,
    ?_, ?_, fun _ => Iff.rfl, fun _ => Finmap.mem_insert⟩
  · exact .of_eq (same _).subscribers subscribed.own_channels
  · rw [(same _).patternSubscribers]
    exact .enter subscribed.own_patterns

theorem unsubscribeFrom_subscribed (env : Env)
    (subscribed : Subscribed once place.1 (among others place.2))
    (count : HashMap Bytes Nat → Nat) (channel : Bytes) :
    Resubscribed once others place.1
      (unsubscribeFrom env count place channel) place.2.id
      (fun other => other ≠ channel ∧ other ∈ place.2.subscriptions)
      (fun pattern => pattern ∈ place.2.patternSubscriptions) := by
  have erased : ∀ other, other ∈ place.2.subscriptions.erase channel ↔
      other ≠ channel ∧ other ∈ place.2.subscriptions :=
    fun _ => Finmap.mem_erase
  unfold unsubscribeFrom
  dsimp only
  cases present : place.2.subscriptions.lookup channel with
  | some subscriberId =>
      have same := serves_sameChannels.send env
        (place.1.unsubscribe channel subscriberId).2 place.2.id
      have leaves := unsubscribe_leaves place.1 channel subscriberId
      refine ⟨rfl, (subscribed.leaveChannel present).congr (same _) rfl rfl rfl,
        ?_, ?_, erased, fun _ => Iff.rfl⟩
      · rw [(same _).subscribers, leaves.1]
        exact .leave subscribed.own_channels
      · exact .of_eq ((same _).patternSubscribers.trans leaves.2.1)
          subscribed.own_patterns
  | none =>
      have stays : place.2.subscriptions.erase channel =
          place.2.subscriptions :=
        erase_absent present
      have same := serves_sameChannels.send env place.1 place.2.id
      refine ⟨rfl, subscribed.congr (same _) rfl stays rfl, ?_, ?_, erased,
        fun _ => Iff.rfl⟩
      · rw [stays]
        exact .of_eq (same _).subscribers subscribed.own_channels
      · exact .of_eq (same _).patternSubscribers subscribed.own_patterns

theorem punsubscribeFrom_subscribed (env : Env)
    (subscribed : Subscribed once place.1 (among others place.2))
    (count : HashMap Bytes Nat → Nat) (pattern : Bytes) :
    Resubscribed once others place.1 (punsubscribeFrom env count place pattern)
      place.2.id
      (fun channel => channel ∈ place.2.subscriptions)
      (fun other =>
        other ≠ pattern ∧ other ∈ place.2.patternSubscriptions) := by
  have erased : ∀ other, other ∈ place.2.patternSubscriptions.erase pattern ↔
      other ≠ pattern ∧ other ∈ place.2.patternSubscriptions :=
    fun _ => Finmap.mem_erase
  unfold punsubscribeFrom
  dsimp only
  cases present : place.2.patternSubscriptions.lookup pattern with
  | some subscriberId =>
      have same := serves_sameChannels.send env
        (place.1.punsubscribe pattern subscriberId).2 place.2.id
      have leaves := punsubscribe_leaves place.1 pattern subscriberId
      refine ⟨rfl, (subscribed.leavePattern present).congr (same _) rfl rfl rfl,
        ?_, ?_, fun _ => Iff.rfl, erased⟩
      · exact .of_eq ((same _).subscribers.trans leaves.2.1)
          subscribed.own_channels
      · rw [(same _).patternSubscribers, leaves.1]
        exact .leave subscribed.own_patterns
  | none =>
      have stays : place.2.patternSubscriptions.erase pattern =
          place.2.patternSubscriptions :=
        erase_absent present
      have same := serves_sameChannels.send env place.1 place.2.id
      refine ⟨rfl, subscribed.congr (same _) rfl rfl stays, ?_, ?_,
        fun _ => Iff.rfl, erased⟩
      · exact .of_eq (same _).subscribers subscribed.own_channels
      · rw [stays]
        exact .of_eq (same _).patternSubscribers subscribed.own_patterns

theorem subscribeAll_subscribed (channels : List Bytes)
    (receives : env.receives place.2.id = true)
    (subscribed : Subscribed once place.1 (among others place.2)) :
    Resubscribed once others place.1
      (channels.foldl (subscribeTo env) place) place.2.id
      (fun channel => channel ∈ channels ∨ channel ∈ place.2.subscriptions)
      (fun pattern => pattern ∈ place.2.patternSubscriptions) := by
  induction channels generalizing place with
  | nil =>
      exact ⟨rfl, subscribed, .of_eq rfl subscribed.own_channels,
        .of_eq rfl subscribed.own_patterns, by simp, by simp⟩
  | cons channel rest ih =>
      have one := subscribeTo_subscribed receives subscribed channel
      have all := ih (one.id ▸ receives) one.subscribed
      refine ⟨all.id.trans one.id, all.subscribed,
        one.channelNames.trans all.channelNames ?_,
        one.patternNames.trans all.patternNames ?_, ?_, ?_⟩
      · exact fun other held => .inr ((all.channels other).mpr (.inr held))
      · exact fun pattern held => .inr ((all.patterns pattern).mpr held)
      · intro other
        refine (all.channels other).trans ?_
        rw [one.channels, List.mem_cons]
        tauto
      · intro pattern
        exact (all.patterns pattern).trans (one.patterns pattern)

theorem psubscribeAll_subscribed {patterns : List Bytes}
    (receives : env.receives place.2.id = true)
    (subscribed : Subscribed once place.1 (among others place.2))
    (distinct : once → patterns.Nodup)
    (absent : once → ∀ pattern ∈ patterns,
      pattern ∉ place.2.patternSubscriptions) :
    Resubscribed once others place.1
      (patterns.foldl (psubscribeTo env) place) place.2.id
      (fun channel => channel ∈ place.2.subscriptions)
      (fun pattern =>
        pattern ∈ patterns ∨ pattern ∈ place.2.patternSubscriptions) := by
  induction patterns generalizing place with
  | nil =>
      exact ⟨rfl, subscribed, .of_eq rfl subscribed.own_channels,
        .of_eq rfl subscribed.own_patterns, by simp, by simp⟩
  | cons pattern rest ih =>
      have one := psubscribeTo_subscribed receives subscribed
        (fun known => absent known pattern (List.mem_cons_self ..))
      have rest := fun known => List.nodup_cons.mp (distinct known)
      have all := ih (one.id ▸ receives) one.subscribed
        (fun known => (rest known).2) (by
        intro known other member present
        obtain ⟨apart, -⟩ := rest known
        obtain rfl | old := (one.patterns other).mp present
        · exact apart member
        · exact absent known other (List.mem_cons_of_mem _ member) old)
      refine ⟨all.id.trans one.id, all.subscribed,
        one.channelNames.trans all.channelNames ?_,
        one.patternNames.trans all.patternNames ?_, ?_, ?_⟩
      · exact fun channel held => .inr ((all.channels channel).mpr held)
      · exact fun other held => .inr ((all.patterns other).mpr (.inr held))
      · intro channel
        exact (all.channels channel).trans (one.channels channel)
      · intro other
        refine (all.patterns other).trans ?_
        rw [one.patterns, List.mem_cons]
        tauto

theorem unsubscribeAll_subscribed (env : Env) (channels : List Bytes)
    (count : HashMap Bytes Nat → Nat)
    (subscribed : Subscribed once place.1 (among others place.2)) :
    Resubscribed once others place.1
      (channels.foldl (unsubscribeFrom env count) place)
      place.2.id
      (fun channel => channel ∉ channels ∧ channel ∈ place.2.subscriptions)
      (fun pattern => pattern ∈ place.2.patternSubscriptions) := by
  induction channels generalizing place with
  | nil =>
      exact ⟨rfl, subscribed, .of_eq rfl subscribed.own_channels,
        .of_eq rfl subscribed.own_patterns, by simp, by simp⟩
  | cons channel rest ih =>
      have one := unsubscribeFrom_subscribed env subscribed count
        channel
      have all := ih one.subscribed
      refine ⟨all.id.trans one.id, all.subscribed,
        one.channelNames.trans all.channelNames ?_,
        one.patternNames.trans all.patternNames ?_, ?_, ?_⟩
      · intro other held
        exact .inl (subscribed.own_channels other
          ((one.channels other).mp held).2)
      · exact fun pattern held => .inr ((all.patterns pattern).mpr held)
      · intro other
        refine (all.channels other).trans ?_
        rw [one.channels, List.mem_cons]
        tauto
      · intro pattern
        exact (all.patterns pattern).trans (one.patterns pattern)

theorem punsubscribeAll_subscribed (env : Env) (patterns : List Bytes)
    (count : HashMap Bytes Nat → Nat)
    (subscribed : Subscribed once place.1 (among others place.2)) :
    Resubscribed once others place.1
      (patterns.foldl (punsubscribeFrom env count) place)
      place.2.id
      (fun channel => channel ∈ place.2.subscriptions)
      (fun pattern =>
        pattern ∉ patterns ∧ pattern ∈ place.2.patternSubscriptions) := by
  induction patterns generalizing place with
  | nil =>
      exact ⟨rfl, subscribed, .of_eq rfl subscribed.own_channels,
        .of_eq rfl subscribed.own_patterns, by simp, by simp⟩
  | cons pattern rest ih =>
      have one := punsubscribeFrom_subscribed env subscribed count
        pattern
      have all := ih one.subscribed
      refine ⟨all.id.trans one.id, all.subscribed,
        one.channelNames.trans all.channelNames ?_,
        one.patternNames.trans all.patternNames ?_, ?_, ?_⟩
      · exact fun channel held => .inr ((all.channels channel).mpr held)
      · intro other held
        exact .inl (subscribed.own_patterns other
          ((one.patterns other).mp held).2)
      · intro channel
        exact (all.channels channel).trans (one.channels channel)
      · intro other
        refine (all.patterns other).trans ?_
        rw [one.patterns, List.mem_cons]
        tauto

end Folds

/-! ## Commands -/

/-- The command that the configuration makes of a word. -/
def executedCommand (config : Config) (command : ParsedCommand) :
    Option CommandName :=
  (executedName config (lowercase (command.arguments.headD []))).bind
    CommandName.ofBytes

/-- The command subscribes its client to a channel or a pattern. -/
def Joins (config : Config) (join : CommandName) (subject : Bytes)
    (command : ParsedCommand) : Prop :=
  executedCommand config command = some join ∧
    subject ∈ command.arguments.tail

/-- The command unsubscribes its client; without arguments, from all. -/
def Leaves (config : Config) (leave : CommandName) (subject : Bytes)
    (command : ParsedCommand) : Prop :=
  executedCommand config command = some leave ∧
    (command.arguments.length = 1 ∨ subject ∈ command.arguments.tail)

/-- The last SUBSCRIBE of a client to the channel is not followed by an
UNSUBSCRIBE from it. -/
def SubscribedTo (config : Config) (history : List ParsedCommand)
    (channel : Bytes) : Prop :=
  Since (Joins config .subscribe channel)
    (Leaves config .unsubscribe channel) history

/-- The same for patterns. -/
def PatternSubscribedTo (config : Config) (history : List ParsedCommand)
    (pattern : Bytes) : Prop :=
  Since (Joins config .psubscribe pattern)
    (Leaves config .punsubscribe pattern) history

theorem executedCommand_eq
    {config : Config} {db : Database} {command : ParsedCommand}
    {name : Bytes} (fixed : Config.SameFixed config db.config)
    (named : commandName db command.arguments = .ok name) :
    executedCommand config command = CommandName.ofBytes name := by
  unfold executedCommand
  cases arguments : command.arguments with
  | nil =>
      rw [arguments] at named
      cases named
  | cons word rest =>
      rw [arguments, commandName_cons fixed] at named
      split at named
      · split at named
        · cases named
        · rename_i resolved
          cases named
          rw [List.headD_cons, resolved]
          rfl
      · cases named

/-- A client that subscribes to a pattern does so for the first time. -/
def SubscribesOnce : Condition :=
  fun env command db client =>
    (∀ id, env.receives id = true) ∧ ∀ name between,
      commandName db command.arguments = .ok name →
      CommandName.ofBytes name = some .psubscribe →
      route (CommandName.ofBytes name) command db client =
        .dispatched between →
      command.arguments.tail.Nodup ∧
        ∀ pattern ∈ command.arguments.tail,
          pattern ∉ client.patternSubscriptions

/-- A client that runs a command receives what is sent to it. -/
def Receiving : Condition :=
  fun env _ _ client => env.receives client.id = true

/-- The client receives, and if `once`, it does not subscribe to a pattern
again. -/
def Subscribing (once : Prop) : Condition :=
  fun env command db client =>
    env.receives client.id = true ∧ (once → ∀ name between,
      commandName db command.arguments = .ok name →
      CommandName.ofBytes name = some .psubscribe →
      route (CommandName.ofBytes name) command db client =
        .dispatched between →
      command.arguments.tail.Nodup ∧
        ∀ pattern ∈ command.arguments.tail,
          pattern ∉ client.patternSubscriptions)

theorem SubscribesOnce.subscribing
    {env : Env} {command : ParsedCommand} {db : Database} {client : Client}
    (subscribes : SubscribesOnce env command db client) :
    Subscribing True env command db client :=
  ⟨subscribes.1 client.id, fun _ => subscribes.2⟩

/-! ## Everything that was subscribed to -/

/-- Some client subscribed to the channel or the pattern at some time. -/
def Joined (config : Config) (join : CommandName)
    (history : Nat → List ParsedCommand) (subject : Bytes) : Prop :=
  ∃ id, ∃ command ∈ history id, Joins config join subject command

omit [Platform] in
theorem joined_concat
    {config : Config} {join : CommandName}
    {before after : Nat → List ParsedCommand} {current : Nat}
    {command : ParsedCommand}
    (history : ∀ id, after id =
      if id = current then before id ++ [command] else before id)
    (subject : Bytes) :
    Joined config join after subject ↔
      Joined config join before subject ∨
        Joins config join subject command := by
  constructor
  · rintro ⟨id, other, member, joins⟩
    rw [history] at member
    split at member
    · obtain old | new := List.mem_append.mp member
      · exact .inl ⟨id, other, old, joins⟩
      · cases List.mem_singleton.mp new
        exact .inr joins
    · exact .inl ⟨id, other, member, joins⟩
  · rintro (⟨id, other, member, joins⟩ | joins)
    · refine ⟨id, other, ?_, joins⟩
      rw [history]
      split
      · exact List.mem_append_left _ member
      · exact member
    · refine ⟨current, command, ?_, joins⟩
      rw [history, if_pos rfl]
      exact List.mem_append_right _ (List.mem_singleton.mpr rfl)

section Dispatch

variable {once : Prop} {config : Config} {env : Env}
  {command : ParsedCommand} {others : Nat → Client} {db : Database}
  {client : Client}

/-- What a command does to the registries. -/
abbrev Follows (once : Prop) (config : Config) (others : Nat → Client)
    (command : ParsedCommand) (db : Database) (client : Client)
    (after : Place) : Prop :=
  Resubscribed once others db after client.id
    (fun channel => Joins config .subscribe channel command ∨
      channel ∈ client.subscriptions ∧
        ¬Leaves config .unsubscribe channel command)
    (fun pattern => Joins config .psubscribe pattern command ∨
      pattern ∈ client.patternSubscriptions ∧
        ¬Leaves config .punsubscribe pattern command)

/-- The other commands leave the registries alone. -/
theorem follows_other
    (neither : ∀ gate ∈ [CommandName.subscribe, .unsubscribe, .psubscribe,
      .punsubscribe], executedCommand config command ≠ some gate)
    (subscribed : Subscribed once db (among others client)) {after : Place}
    (same : SameChannels db after.1) (id : after.2.id = client.id)
    (subscriptions : after.2.subscriptions = client.subscriptions)
    (patterns :
      after.2.patternSubscriptions = client.patternSubscriptions) :
    Follows once config others command db client after := by
  simp only [List.forall_mem_cons, List.not_mem_nil, false_implies,
    implies_true, and_true] at neither
  obtain ⟨subscribe, unsubscribe, psubscribe, punsubscribe⟩ := neither
  refine ⟨id, subscribed.congr same id subscriptions patterns, ?_, ?_, ?_, ?_⟩
  · rw [subscriptions]
    exact .of_eq same.subscribers subscribed.own_channels
  · rw [patterns]
    exact .of_eq same.patternSubscribers subscribed.own_patterns
  · intro channel
    rw [subscriptions]
    simp [Joins, Leaves, subscribe, unsubscribe]
  · intro pattern
    rw [patterns]
    simp [Joins, Leaves, psubscribe, punsubscribe]

theorem subscribe_follows
    (isKnown : executedCommand config command = some .subscribe)
    (receives : env.receives client.id = true)
    (subscribed : Subscribed once db (among others client)) :
    Follows once config others command db client
      (subscribe env command.arguments db client).2 := by
  have place : (subscribe env command.arguments db client).2 =
      command.arguments.tail.foldl (subscribeTo env) (db, client) := by
    unfold subscribe
    split
    · rfl
    · rename_i few
      have none' : command.arguments.tail = [] := by
        rw [← List.length_eq_zero_iff, List.length_tail]
        omega
      rw [none']
      rfl
  have all := subscribeAll_subscribed command.arguments.tail
    (show env.receives (db, client).2.id = true from receives) subscribed
  rw [← place] at all
  refine ⟨all.id, all.subscribed, all.channelNames, all.patternNames, ?_, ?_⟩
  · intro channel
    rw [all.channels]
    simp [Joins, Leaves, isKnown]
  · intro pattern
    rw [all.patterns]
    simp [Joins, Leaves, isKnown]

theorem psubscribe_follows
    (isKnown : executedCommand config command = some .psubscribe)
    (receives : env.receives client.id = true)
    (fresh : once → command.arguments.tail.Nodup ∧
      ∀ pattern ∈ command.arguments.tail,
        pattern ∉ client.patternSubscriptions)
    (subscribed : Subscribed once db (among others client)) :
    Follows once config others command db client
      (psubscribe env command.arguments db client).2 := by
  have place : (psubscribe env command.arguments db client).2 =
      command.arguments.tail.foldl (psubscribeTo env) (db, client) := by
    unfold psubscribe
    split
    · rfl
    · rename_i few
      have none' : command.arguments.tail = [] := by
        rw [← List.length_eq_zero_iff, List.length_tail]
        omega
      rw [none']
      rfl
  have all := psubscribeAll_subscribed
    (show env.receives (db, client).2.id = true from receives) subscribed
    (fun known => (fresh known).1) (fun known => (fresh known).2)
  rw [← place] at all
  refine ⟨all.id, all.subscribed, all.channelNames, all.patternNames, ?_, ?_⟩
  · intro channel
    rw [all.channels]
    simp [Joins, Leaves, isKnown]
  · intro pattern
    rw [all.patterns]
    simp [Joins, Leaves, isKnown]

theorem unsubscribe_follows
    (isKnown : executedCommand config command = some .unsubscribe)
    (subscribed : Subscribed once db (among others client)) :
    Follows once config others command db client
      (unsubscribe env command.arguments db client).2 := by
  have joins : ∀ channel, ¬Joins config .subscribe channel command := by
    simp [Joins, isKnown]
  -- leaving each of some channels, with a count for the events
  have left : ∀ (channels : List Bytes) (count : HashMap Bytes Nat → Nat),
      (∀ channel ∈ client.subscriptions, channel ∈ channels ↔
        Leaves config .unsubscribe channel command) →
      Follows once config others command db client
        (channels.foldl (unsubscribeFrom env count) (db, client)) := by
    intro channels count listed
    have subscribed : Subscribed once (db, client).1
        (among others (db, client).2) := subscribed
    have all := unsubscribeAll_subscribed env channels count
      subscribed
    refine ⟨all.id, all.subscribed, all.channelNames, all.patternNames, ?_, ?_⟩
    · intro channel
      rw [all.channels, or_iff_right (joins channel)]
      constructor
      · rintro ⟨absent, present⟩
        exact ⟨present, mt (listed channel present).mpr absent⟩
      · rintro ⟨present, stays⟩
        exact ⟨mt (listed channel present).mp stays, present⟩
    · intro pattern
      rw [all.patterns]
      simp [Joins, Leaves, isKnown]
  unfold unsubscribe
  dsimp only
  split
  · rename_i bare
    split
    · rename_i none'
      have empty : ∀ channel, channel ∉ client.subscriptions := by
        intro channel present
        rw [Finset.card_eq_zero] at none'
        have key := Finmap.mem_keys.mpr present
        rw [none'] at key
        cases key
      have same := serves_sameChannels.send env db client.id
      refine ⟨rfl, subscribed.congr (same _) rfl rfl rfl,
        .of_eq (same _).subscribers subscribed.own_channels,
        .of_eq (same _).patternSubscribers subscribed.own_patterns, ?_, ?_⟩
      · intro channel
        simp [joins, empty, noReply]
      · intro pattern
        simp [Joins, Leaves, isKnown, noReply]
    · apply left
      intro channel present
      rw [env.mem_order, Finmap.mem_keys]
      exact iff_of_true present ⟨isKnown, .inl bare⟩
  · rename_i several
    apply left
    intro channel _
    simp [Leaves, isKnown, several]

theorem punsubscribe_follows
    (isKnown : executedCommand config command = some .punsubscribe)
    (subscribed : Subscribed once db (among others client)) :
    Follows once config others command db client
      (punsubscribe env command.arguments db client).2 := by
  have joins : ∀ pattern, ¬Joins config .psubscribe pattern command := by
    simp [Joins, isKnown]
  have left : ∀ (patterns : List Bytes) (count : HashMap Bytes Nat → Nat),
      (∀ pattern ∈ client.patternSubscriptions, pattern ∈ patterns ↔
        Leaves config .punsubscribe pattern command) →
      Follows once config others command db client
        (patterns.foldl (punsubscribeFrom env count) (db, client)) := by
    intro patterns count listed
    have subscribed : Subscribed once (db, client).1
        (among others (db, client).2) := subscribed
    have all := punsubscribeAll_subscribed env patterns count
      subscribed
    refine ⟨all.id, all.subscribed, all.channelNames, all.patternNames, ?_, ?_⟩
    · intro channel
      rw [all.channels]
      simp [Joins, Leaves, isKnown]
    · intro pattern
      rw [all.patterns, or_iff_right (joins pattern)]
      constructor
      · rintro ⟨absent, present⟩
        exact ⟨present, mt (listed pattern present).mpr absent⟩
      · rintro ⟨present, stays⟩
        exact ⟨mt (listed pattern present).mp stays, present⟩
  unfold punsubscribe
  dsimp only
  split
  · rename_i bare
    split
    · rename_i none'
      have empty : ∀ pattern, pattern ∉ client.patternSubscriptions := by
        intro pattern present
        rw [Finset.card_eq_zero] at none'
        have key := Finmap.mem_keys.mpr present
        rw [none'] at key
        cases key
      have same := serves_sameChannels.send env db client.id
      refine ⟨rfl, subscribed.congr (same _) rfl rfl rfl,
        .of_eq (same _).subscribers subscribed.own_channels,
        .of_eq (same _).patternSubscribers subscribed.own_patterns, ?_, ?_⟩
      · intro channel
        simp [Joins, Leaves, isKnown, noReply]
      · intro pattern
        simp [joins, empty, noReply]
    · apply left
      intro pattern present
      rw [env.mem_order, Finmap.mem_keys]
      exact iff_of_true present ⟨isKnown, .inl bare⟩
  · rename_i several
    apply left
    intro pattern _
    simp [Leaves, isKnown, several]

/-- Watching keys is about other fields. -/
theorem watchKeys_channels (keys : List Bytes) (place : Place) :
    SameChannels place.1 (keys.foldl watchKey place).1 ∧
      (keys.foldl watchKey place).2.id = place.2.id ∧
      (keys.foldl watchKey place).2.subscriptions = place.2.subscriptions ∧
      (keys.foldl watchKey place).2.patternSubscriptions =
        place.2.patternSubscriptions := by
  induction keys generalizing place with
  | nil => exact ⟨.refl _, rfl, rfl, rfl⟩
  | cons key rest ih =>
      have others := ih (watchKey place key)
      have first : SameChannels place.1 (watchKey place key).1 :=
        ⟨rfl, rfl, le_rfl⟩
      exact ⟨first.trans others.1, others.2⟩

theorem session_follows
    {known : CommandName}
    {handle : Env → Arguments → Database → Client → Option Command.Session}
    (found : Handler.ofName known = some (.session handle))
    (isKnown : executedCommand config command = some known)
    (receives : env.receives client.id = true)
    (fresh : known = .psubscribe → once →
      command.arguments.tail.Nodup ∧ ∀ pattern ∈ command.arguments.tail,
        pattern ∉ client.patternSubscriptions)
    (subscribed : Subscribed once db (among others client))
    {answer : Answer} {place : Place}
    (handled : handle env command.arguments db client =
      some (answer, place)) :
    Follows once config others command db client place := by
  have same : ∀ {session : Command.Session},
      some session = some (answer, place) → session.2 = place :=
    fun equal => congrArg Prod.snd (Option.some.inj equal)
  cases known
  case subscribe =>
    cases found
    exact same handled ▸ subscribe_follows isKnown receives subscribed
  case psubscribe =>
    cases found
    exact same handled ▸
      psubscribe_follows isKnown receives (fresh rfl) subscribed
  case unsubscribe =>
    cases found
    exact same handled ▸ unsubscribe_follows isKnown subscribed
  case punsubscribe =>
    cases found
    exact same handled ▸ punsubscribe_follows isKnown subscribed
  case watch =>
    cases found
    dsimp only [watch] at handled
    split at handled
    · obtain ⟨-, watched⟩ := Database.checked_eq_some.mp handled
      cases watched
      obtain ⟨channels, id, subscriptions, patterns⟩ :=
        watchKeys_channels command.arguments.tail (db, client)
      exact follows_other (by simp [isKnown]) subscribed channels id
        subscriptions patterns
    · cases handled
      exact follows_other (by simp [isKnown]) subscribed (.refl db) rfl rfl
        rfl
  case unwatch =>
    cases found
    rw [← same handled]
    unfold unwatch
    split
    · exact follows_other (by simp [isKnown]) subscribed (.refl db) rfl rfl
        rfl
    · exact follows_other (by simp [isKnown]) subscribed (.refl db) rfl rfl
        rfl
  case ping =>
    cases found
    cases handled
    exact follows_other (by simp [isKnown]) subscribed (.refl db) rfl rfl rfl
  case client =>
    cases found
    cases handled
    exact follows_other (by simp [isKnown]) subscribed (.refl db) rfl rfl rfl
  all_goals cases found

/-- The four commands work on the client. -/
theorem gate_session :
    ∀ gate ∈ [CommandName.subscribe, .unsubscribe, .psubscribe,
      .punsubscribe], ∃ handle,
        Handler.ofName gate = some (.session handle) := by
  simp only [List.forall_mem_cons, List.not_mem_nil, false_implies,
    implies_true, and_true]
  exact ⟨⟨_, rfl⟩, ⟨_, rfl⟩, ⟨_, rfl⟩, ⟨_, rfl⟩⟩

theorem run_follows
    {known : CommandName} {handler : Handler}
    (found : Handler.ofName known = some handler)
    (isKnown : executedCommand config command = some known)
    (receives : env.receives client.id = true)
    (fresh : known = .psubscribe → once →
      command.arguments.tail.Nodup ∧ ∀ pattern ∈ command.arguments.tail,
        pattern ∉ client.patternSubscriptions)
    (subscribed : Subscribed once db (among others client)) {outcome : Outcome}
    (ran : handler.run env command.arguments db client = some outcome) :
    Follows once config others command db client
      (outcome.db, outcome.client) := by
  have neither : (∀ handle, handler ≠ .session handle) →
      ∀ gate ∈ [CommandName.subscribe, .unsubscribe, .psubscribe,
        .punsubscribe], executedCommand config command ≠ some gate := by
    intro notSession gate member isGate
    obtain ⟨handle, isSession⟩ := gate_session gate member
    cases isKnown.symm.trans isGate
    cases found.symm.trans isSession
    exact notSession handle rfl
  have program : ∀ {run : Writer Answer},
      (∀ handle, handler ≠ .session handle) →
      (run.run (machine env) db).map (Handler.finished client) =
        some outcome →
      Follows once config others command db client
        (outcome.db, outcome.client) := by
    intro run notSession ran
    obtain ⟨⟨result, after⟩, programRan, rfl⟩ :=
      Option.map_eq_some_iff.mp ran
    obtain ⟨sameDb, sameClient⟩ := Handler.finished_db client (result, after)
    rw [sameDb, sameClient]
    exact follows_other (neither notSession) subscribed
      (writes_sameChannels.run programRan) rfl rfl rfl
  cases handler with
  | reader handle => exact program (by rintro _ ⟨⟩) ran
  | writer handle => exact program (by rintro _ ⟨⟩) ran
  | blocking handle => exact program (by rintro _ ⟨⟩) ran
  | server handle =>
      simp only [Handler.run, Option.bind_eq_bind, Option.bind_eq_some_iff]
        at ran
      obtain ⟨⟨reply, after⟩, handled, finished⟩ := ran
      cases finished
      exact follows_other (neither (by rintro _ ⟨⟩)) subscribed
        (serves_sameChannels.server found handled) rfl rfl rfl
  | session handle =>
      simp only [Handler.run, Option.bind_eq_bind, Option.bind_eq_some_iff]
        at ran
      obtain ⟨⟨answer, after, afterClient⟩, handled, finished⟩ := ran
      cases finished
      exact session_follows found isKnown receives fresh subscribed handled

/-- A command that reaches its handler does to the registries what its name
says. -/
theorem dispatch_follows
    {name : Bytes} {write : Bool} {outcome : Outcome}
    (fixed : Config.SameFixed config db.config)
    (named : commandName db command.arguments = .ok name)
    (receives : env.receives client.id = true)
    (fresh : CommandName.ofBytes name = some .psubscribe → once →
      command.arguments.tail.Nodup ∧
        ∀ pattern ∈ command.arguments.tail,
          pattern ∉ client.patternSubscriptions)
    (subscribed : Subscribed once db (among others client))
    (dispatched : dispatch env name write command db client =
      some outcome) :
    Follows once config others command db client
      (outcome.db, outcome.client) := by
  have isName := executedCommand_eq fixed named
  have recorded : ∀ entries,
      SameChannels db { db with dispatched := entries } :=
    fun _ => ⟨rfl, rfl, le_rfl⟩
  unfold dispatch at dispatched
  dsimp only at dispatched
  split at dispatched
  · rename_i handler found
    obtain ⟨known, isKnown, found⟩ := Option.bind_eq_some_iff.mp found
    rw [isKnown] at isName fresh
    have follows := run_follows found isName receives
      (fun isPsubscribe => fresh (isPsubscribe ▸ rfl))
      (subscribed.congr (recorded _) rfl rfl rfl) dispatched
    exact ⟨follows.id, follows.subscribed, follows.channelNames,
      follows.patternNames, follows.channels, follows.patterns⟩
  · rename_i unknown
    cases dispatched
    refine follows_other ?_ subscribed (recorded _) rfl rfl rfl
    intro gate member isGate
    obtain ⟨handle, isSession⟩ := gate_session gate member
    rw [← isName, isGate] at unknown
    cases isSession.symm.trans unknown

/-- The names of the channels are those that clients subscribed to. -/
theorem Resubscribed.joins_channels
    {before after : Nat → List ParsedCommand} {place : Place} {current : Nat}
    (follows : Follows once config others command db client place)
    (subscribed : Subscribed once db (among others client))
    (history : ∀ id, after id =
      if id = current then before id ++ [command] else before id)
    (names : ∀ channel, channel ∈ db.subscribers ↔
      Joined config .subscribe before channel) (channel : Bytes) :
    channel ∈ place.1.subscribers ↔
      Joined config .subscribe after channel := by
  have own := subscribed.own_channels channel
  rw [follows.channelNames, follows.channels, joined_concat history,
    ← names channel]
  tauto

theorem Resubscribed.joins_patterns
    {before after : Nat → List ParsedCommand} {place : Place} {current : Nat}
    (follows : Follows once config others command db client place)
    (subscribed : Subscribed once db (among others client))
    (history : ∀ id, after id =
      if id = current then before id ++ [command] else before id)
    (names : ∀ pattern, pattern ∈ db.patternSubscribers ↔
      Joined config .psubscribe before pattern) (pattern : Bytes) :
    pattern ∈ place.1.patternSubscribers ↔
      Joined config .psubscribe after pattern := by
  have own := subscribed.own_patterns pattern
  rw [follows.patternNames, follows.patterns, joined_concat history,
    ← names pattern]
  tauto

end Dispatch

end Command

end RedVector
