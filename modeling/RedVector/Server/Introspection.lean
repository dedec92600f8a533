import RedVector.Server.Subscriptions

/-!
# What PUBSUB shows

The registries keep the name of every channel and pattern that was ever
subscribed to.  PUBSUB lists and counts these names, so it is right as long as
each of them still has a subscriber.
-/

namespace RedVector

open Util Effect

section

variable [Platform]

namespace Database

/-- The pattern matches the channel; no pattern matches every channel. -/
def Selects (pattern : Option Bytes) (channel : Bytes) : Prop :=
  ∀ given ∈ pattern, globMatch given channel false = some true

/-- Matching the pattern against the channel stays within bounds. -/
def Readable (pattern : Option Bytes) (channel : Bytes) : Prop :=
  ∀ given ∈ pattern, (globMatch given channel false).isSome

/-- The listing is there if the pattern can be matched with each channel. -/
theorem pubsubChannelList_isSome
    {env : Env} {db : Database} {pattern : Option Bytes} :
    (db.pubsubChannelList env pattern).isSome ↔
      ∀ channel ∈ db.subscribers, Readable pattern channel := by
  unfold pubsubChannelList Readable
  cases pattern with
  | none => simp
  | some given =>
      have each : ∀ channels : List Bytes,
          (channels.mapM fun channel =>
            globMatch given channel false).isSome ↔
          ∀ channel ∈ channels, (globMatch given channel false).isSome := by
        intro channels
        induction channels with
        | nil => simp
        | cons channel rest ih =>
            simp only [List.mapM_cons, List.forall_mem_cons, ← ih]
            cases globMatch given channel false with
            | none => simp
            | some fits =>
                cases rest.mapM fun channel => globMatch given channel false
                · simp
                · simp
      have keys := each (env.order db.subscribers.keys)
      simp only [env.mem_order, Finmap.mem_keys] at keys
      simp only [Option.mem_some_iff, forall_eq']
      rw [← keys]
      cases (env.order db.subscribers.keys).mapM fun channel =>
          globMatch given channel false with
      | none => exact Iff.rfl
      | some keep => exact Iff.rfl

omit [Platform] in
theorem mem_zip_mapM
    {given : Bytes} {channels : List Bytes} {keep : List Bool}
    (matched : channels.mapM (fun channel => globMatch given channel false) =
      some keep) (channel : Bytes) :
    channel ∈ ((channels.zip keep).filter Prod.snd).map Prod.fst ↔
      channel ∈ channels ∧ globMatch given channel false = some true := by
  induction channels generalizing keep with
  | nil => simp
  | cons first rest ih =>
      simp only [List.mapM_cons, Option.bind_eq_bind, Option.pure_def,
        Option.bind_eq_some_iff, Option.some.injEq] at matched
      obtain ⟨fits, isFits, others, isOthers, rfl⟩ := matched
      have later := ih isOthers
      cases fits with
      | true =>
          simp only [List.zip_cons_cons, List.filter_cons_of_pos,
            List.map_cons, List.mem_cons, later]
          constructor
          · rintro (rfl | ⟨member, selects⟩)
            · exact ⟨.inl rfl, isFits⟩
            · exact ⟨.inr member, selects⟩
          · rintro ⟨rfl | member, selects⟩
            · exact .inl rfl
            · exact .inr ⟨member, selects⟩
      | false =>
          simp only [List.zip_cons_cons, List.filter_cons, List.mem_cons,
            Bool.false_eq_true, if_false, later]
          constructor
          · exact fun ⟨member, selects⟩ => ⟨.inr member, selects⟩
          · rintro ⟨rfl | member, selects⟩
            · rw [isFits] at selects
              cases selects
            · exact ⟨member, selects⟩

omit [Platform] in
theorem kept_sublist (channels : List Bytes) (keep : List Bool) :
    (((channels.zip keep).filter Prod.snd).map Prod.fst).Sublist
      channels := by
  induction channels generalizing keep with
  | nil => simp
  | cons channel rest ih =>
      cases keep with
      | nil => simp
      | cons fits others =>
          cases fits with
          | true => simpa using ih others
          | false => simpa using (ih others).cons channel

/-- The listing shows the names that match. -/
theorem mem_pubsubChannelList
    {env : Env} {db : Database} {pattern : Option Bytes}
    {channels : List Bytes}
    (listed : db.pubsubChannelList env pattern = some channels)
    (channel : Bytes) :
    channel ∈ channels ↔
      channel ∈ db.subscribers ∧ Selects pattern channel := by
  unfold pubsubChannelList at listed
  cases pattern with
  | none =>
      cases listed
      simp [Selects, env.mem_order, Finmap.mem_keys]
  | some given =>
      simp only [Option.bind_eq_bind, Option.pure_def,
        Option.bind_eq_some_iff, Option.some.injEq] at listed
      obtain ⟨keep, matched, rfl⟩ := listed
      rw [mem_zip_mapM matched, env.mem_order, Finmap.mem_keys]
      simp [Selects]

theorem nodup_pubsubChannelList
    {env : Env} {db : Database} {pattern : Option Bytes}
    {channels : List Bytes}
    (listed : db.pubsubChannelList env pattern = some channels) :
    channels.Nodup := by
  unfold pubsubChannelList at listed
  cases pattern with
  | none =>
      cases listed
      exact env.order_nodup _
  | some given =>
      simp only [Option.bind_eq_bind, Option.pure_def,
        Option.bind_eq_some_iff, Option.some.injEq] at listed
      obtain ⟨keep, -, rfl⟩ := listed
      exact (env.order_nodup _).sublist (kept_sublist _ keep)

end Database

namespace Command

open Database

/-- PUBSUB shows the subscriptions that the clients have. -/
structure Introspects (config : Config)
    (history : Nat → List ParsedCommand) (env : Env) (db : Database)
    (pattern : Option Bytes) : Prop where
  channels : ∃ channels,
    db.pubsubChannelList env pattern = some channels ∧ channels.Nodup ∧
      ∀ channel, channel ∈ channels ↔
        (∃ id, SubscribedTo config (history id) channel) ∧
          Selects pattern channel
  numsub : ∀ channel,
    {id | SubscribedTo config (history id) channel}.encard =
      db.pubsubNumsub channel
  patterns :
    {other | ∃ id, PatternSubscribedTo config (history id) other}.encard =
      db.pubsubPatterns

/-- What was ever subscribed to still has a subscriber, and the pattern can
be matched with all these channels. -/
structure Remains (config : Config) (history : Nat → List ParsedCommand)
    (pattern : Option Bytes) : Prop where
  readable : ∀ channel, Joined config .subscribe history channel →
    Readable pattern channel
  channels : ∀ channel, Joined config .subscribe history channel →
    Selects pattern channel → ∃ id, SubscribedTo config (history id) channel
  patterns : ∀ other, Joined config .psubscribe history other →
    ∃ id, PatternSubscribedTo config (history id) other

variable {once : Prop} {config : Config}
  {history : Nat → List ParsedCommand} {db : Database}
  {clients : Nat → Client}

/-- NUMSUB is right at all times. -/
theorem numsub_tracked
    (tracked : Tracked once config history db clients) (channel : Bytes) :
    {id | SubscribedTo config (history id) channel}.encard =
      db.pubsubNumsub channel := by
  have holders := Registry.encard_holders tracked.subscribed.channels channel
  simp only [tracked.channels] at holders
  rw [holders]
  unfold Registry.held Database.pubsubNumsub
  cases db.subscribers.lookup channel with
  | none => rfl
  | some recipients => rfl

/-- NUMPAT is right if and only if every pattern has a subscriber. -/
theorem numpat_tracked_iff
    (tracked : Tracked once config history db clients) :
    {other | ∃ id, PatternSubscribedTo config (history id) other}.encard =
        db.pubsubPatterns ↔
      ∀ pattern ∈ db.patternSubscribers,
        ∃ id, PatternSubscribedTo config (history id) pattern := by
  let subscribed := {other | ∃ id, PatternSubscribedTo config (history id) other}
  have within : subscribed ⊆ (db.patternSubscribers.keys : Set Bytes) := by
    rintro pattern ⟨id, holds⟩
    rw [← tracked.patterns] at holds
    exact Finmap.mem_keys.mpr (tracked.subscribed.recorded id pattern holds)
  have all : subscribed = (db.patternSubscribers.keys : Set Bytes) ↔
      ∀ pattern ∈ db.patternSubscribers, pattern ∈ subscribed := by
    constructor
    · intro same pattern known
      rw [same]
      exact Finmap.mem_keys.mpr known
    · intro each
      apply within.antisymm
      exact fun pattern known => each pattern (Finmap.mem_keys.mp known)
  refine Iff.trans ?_ all
  have counted : (db.pubsubPatterns : ℕ∞) =
      (db.patternSubscribers.keys : Set Bytes).encard :=
    (Set.encard_coe_eq_coe_finsetCard _).symm
  rw [counted]
  constructor
  · intro same
    have finite := (Finset.finite_toSet db.patternSubscribers.keys).subset
      within
    exact finite.eq_of_subset_of_encard_le within same.ge
  · exact fun same => congrArg Set.encard same

theorem introspects_tracked_iff
    (tracked : Tracked once config history db clients) (env : Env)
    (pattern : Option Bytes) :
    Introspects config history env db pattern ↔
      Remains config history pattern := by
  have recorded : ∀ id channel, SubscribedTo config (history id) channel →
      channel ∈ db.subscribers := by
    intro id channel holds
    rw [← tracked.channels] at holds
    exact tracked.subscribed.channels.recorded holds
  constructor
  · rintro ⟨⟨channels, listed, -, shown⟩, -, patterns⟩
    constructor
    · intro channel joined
      have present : (db.pubsubChannelList env pattern).isSome := by
        rw [listed]
        rfl
      exact pubsubChannelList_isSome.mp present channel
        ((tracked.channelNames channel).mpr joined)
    · intro channel joined selects
      have member := (mem_pubsubChannelList listed channel).mpr
        ⟨(tracked.channelNames channel).mpr joined, selects⟩
      exact ((shown channel).mp member).1
    · intro other joined
      exact (numpat_tracked_iff tracked).mp patterns other
        ((tracked.patternNames other).mpr joined)
  · intro remains
    have present : (db.pubsubChannelList env pattern).isSome := by
      apply pubsubChannelList_isSome.mpr
      intro channel known
      exact remains.readable channel ((tracked.channelNames channel).mp known)
    obtain ⟨channels, listed⟩ := Option.isSome_iff_exists.mp present
    refine ⟨⟨channels, listed, nodup_pubsubChannelList listed, ?_⟩,
      numsub_tracked tracked, ?_⟩
    · intro channel
      rw [mem_pubsubChannelList listed]
      constructor
      · rintro ⟨known, selects⟩
        have joined := (tracked.channelNames channel).mp known
        exact ⟨remains.channels channel joined selects, selects⟩
      · rintro ⟨⟨id, holds⟩, selects⟩
        exact ⟨recorded id channel holds, selects⟩
    · apply (numpat_tracked_iff tracked).mpr
      intro other known
      exact remains.patterns other ((tracked.patternNames other).mp known)

end Command

namespace Server

open Command

/-- The clients that run commands receive what is sent to them. -/
def Receives (request : Request) (server : Server) : Prop :=
  Executes Receiving request server

/-- In every run PUBSUB shows the subscriptions of the clients if and only if
what was ever subscribed to still has a subscriber. -/
theorem introspects_iff
    {config : Config} {aof : Option Bytes} {requests : List Request}
    {server : Server}
    (run : Runs (Steps Receives) (start config aof) requests server)
    (env : Env) (pattern : Option Bytes) :
    Introspects config ((start config aof).history requests) env server.db
        pattern ↔
      Remains config ((start config aof).history requests) pattern := by
  have steps : Runs (Steps (Executes (Subscribing False)))
      (start config aof) requests server :=
    run.mono fun _ _ _ step =>
      ⟨eachAt_mono (fun receives => ⟨receives, False.elim⟩) step.1, step.2⟩
  have tracked := run_tracked (tracked_start False config aof) steps
  simp only [List.nil_append] at tracked
  exact introspects_tracked_iff tracked env pattern

end Server

end

/-! ## A channel that nobody is subscribed to -/

section

attribute [local instance] Platform.integral

open Command

namespace Server

noncomputable def subscribeNews : Request :=
  request 0 [text "SUBSCRIBE", text "news"] Request.subscribe_withinLimits

noncomputable def unsubscribeNews : Request :=
  request 0 [text "UNSUBSCRIBE", text "news"] ⟨by decide, by decide⟩

/-- A request that is not EXEC executes one command. -/
theorem request_receives
    {client : Nat} {arguments : List Bytes}
    {limits : Parser.WithinLimits arguments} {server : Server}
    {name : Bytes} (fixed : Config.SameFixed {} server.db.config)
    (named : commandName (.new {} none) arguments = .ok name)
    (apart : CommandName.ofBytes name ≠ some .exec) :
    Receives (request client arguments limits) server := by
  constructor
  · exact rfl
  · intro other after isName routed
    have same : commandName server.db arguments =
        commandName (.new {} none) arguments :=
      commandName_congr arguments fixed.renameCommands
    rw [show (request client arguments limits).command.arguments = arguments
      from ParsedCommand.encoded_arguments limits, same] at isName
    cases named.symm.trans isName
    exact absurd (route_exec routed).1 apart

theorem subscribeNews_receives : Receives subscribeNews (start {} none) :=
  request_receives (.refl {}) rfl (by decide)

/-- A channel is listed after its only subscriber has left. -/
theorem introspects_fails :
    ¬∀ (config : Config) (aof : Option Bytes) (requests : List Request)
      (server : Server) (env : Env) (pattern : Option Bytes),
      Runs (Steps Receives) (start config aof) requests server →
      Introspects config ((start config aof).history requests) env server.db
        pattern := by
  intro introspects
  have shown : ((start {} none).step subscribeNews).bind (fun result =>
      (result.2.step unsubscribeNews).map fun result =>
        (result.2.db.pubsubChannelList (subscribeNews.world []) none,
          result.2.db.pubsubNumsub (text "news"))) =
      some (some [text "news"], 0) := by
    decide +kernel
  obtain ⟨⟨first, between⟩, joined, shown⟩ := Option.bind_eq_some_iff.mp shown
  obtain ⟨⟨second, server⟩, left, shown⟩ := Option.map_eq_some_iff.mp shown
  obtain ⟨listed, nobody⟩ := Prod.mk.inj shown
  have fixed : Config.SameFixed {} between.db.config := by
    obtain ⟨outcome, ran, -, rfl⟩ := step_eq_some.mp joined
    exact commandAt_fixed ran
  have leaves : Receives unsubscribeNews between :=
    request_receives fixed rfl (by decide)
  have run : Runs (Steps Receives) (start {} none)
      [subscribeNews, unsubscribeNews] server :=
    .next ⟨subscribeNews_receives, first, joined⟩
      (.next ⟨leaves, second, left⟩ (.done server))
  obtain ⟨⟨channels, isListed, -, shows⟩, numsub, -⟩ :=
    introspects {} none _ server (subscribeNews.world []) none run
  cases listed.symm.trans isListed
  obtain ⟨⟨id, holds⟩, -⟩ := (shows (text "news")).mp (List.mem_singleton.mpr rfl)
  have counted := numsub (text "news")
  rw [nobody, Nat.cast_zero, Set.encard_eq_zero] at counted
  exact Set.notMem_empty id (counted ▸ holds)

theorem introspects_iff_news :
    ∃ server, Runs (Steps Receives) (start {} none) [subscribeNews] server ∧
      (Introspects {} ((start {} none).history [subscribeNews])
          (subscribeNews.world []) server.db none ↔
        Remains {} ((start {} none).history [subscribeNews]) none) := by
  have answered : ((start {} none).step subscribeNews).isSome := by
    decide +kernel
  obtain ⟨⟨answer, server⟩, stepped⟩ := Option.isSome_iff_exists.mp answered
  have run : Runs (Steps Receives) (start {} none) [subscribeNews] server :=
    .next ⟨subscribeNews_receives, answer, stepped⟩ (.done server)
  exact ⟨server, run, introspects_iff run _ none⟩

end Server

end

end RedVector
