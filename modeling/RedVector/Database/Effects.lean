import RedVector.Database.Operations

/-!
# What the operations do

Each operation is described by what a reader of single keys sees after it, and
by a frame: the fields that no operation of a handler writes.
-/

namespace RedVector

open Util Effect

/-- A key of one of the databases. -/
abbrev Slot := Nat × Bytes

section Maps

variable {α : Type}

theorem lookup_update_insert
    (maps : Nat → HashMap Bytes α) (slot : Slot) (index : Nat) (key : Bytes)
    (item : α) :
    (Function.update maps index ((maps index).insert key item)
        slot.1).lookup slot.2 =
      if slot = (index, key) then some item
      else (maps slot.1).lookup slot.2 := by
  obtain ⟨slotIndex, slotKey⟩ := slot
  simp only [Prod.mk.injEq]
  by_cases sameIndex : slotIndex = index
  · subst sameIndex
    by_cases sameKey : slotKey = key
    · subst sameKey
      simp
    · simp [sameKey, Finmap.lookup_insert_of_ne]
  · simp [sameIndex]

theorem lookup_update_erase
    (maps : Nat → HashMap Bytes α) (slot : Slot) (index : Nat)
    (key : Bytes) :
    (Function.update maps index ((maps index).erase key)
        slot.1).lookup slot.2 =
      if slot = (index, key) then none
      else (maps slot.1).lookup slot.2 := by
  obtain ⟨slotIndex, slotKey⟩ := slot
  simp only [Prod.mk.injEq]
  by_cases sameIndex : slotIndex = index
  · subst sameIndex
    by_cases sameKey : slotKey = key
    · subst sameKey
      simp
    · simp [sameKey, Finmap.lookup_erase_ne]
  · simp [sameIndex]

theorem lookup_update_empty
    (maps : Nat → HashMap Bytes α) (slot : Slot) (index : Nat) :
    (Function.update maps index ∅ slot.1).lookup slot.2 =
      if slot.1 = index then none else (maps slot.1).lookup slot.2 := by
  by_cases sameIndex : slot.1 = index
  · simp [sameIndex]
  · simp [sameIndex]

end Maps

namespace Database

variable [Platform]

/-! ## Reading a slot -/

def value (db : Database) (slot : Slot) : Option Value :=
  (db.data slot.1).lookup slot.2

def expiration (db : Database) (slot : Slot) : Option Int :=
  (db.dataExpirationMs slot.1).lookup slot.2

def watchers (db : Database) (slot : Slot) : Option (Finset Nat) :=
  (db.watchedKeys slot.1).lookup slot.2

/-- Whether the expiration of a slot has passed; loading does not care. -/
def lapsed (env : Env) (db : Database) (slot : Slot) : Bool :=
  db.isExpired env slot.1 slot.2

theorem lapsed_eq (env : Env) (db : Database) (slot : Slot) :
    db.lapsed env slot =
      (!db.loading &&
        match db.expiration slot with
        | some t => decide (t ≤ env.now)
        | none => false) :=
  rfl

/-- What no operation of a handler writes. -/
structure Frame (before after : Database) : Prop where
  config : after.config = before.config
  loading : after.loading = before.loading
  aof : after.aof = before.aof
  dispatched : after.dispatched = before.dispatched

namespace Frame

theorem refl (db : Database) : Frame db db :=
  ⟨rfl, rfl, rfl, rfl⟩

theorem trans {before between after : Database}
    (first : Frame before between) (second : Frame between after) :
    Frame before after :=
  ⟨second.config.trans first.config, second.loading.trans first.loading,
    second.aof.trans first.aof, second.dispatched.trans first.dispatched⟩

end Frame

/-! ## Messages

What is published changes the messages that were sent and nothing else. -/

/-- The database with other messages. -/
def withSent (db : Database) (sent : List Message) : Database :=
  { db with sent := sent }

@[simp] theorem value_withSent (db : Database) (sent : List Message) :
    (db.withSent sent).value = db.value :=
  rfl

@[simp] theorem expiration_withSent (db : Database) (sent : List Message) :
    (db.withSent sent).expiration = db.expiration :=
  rfl

@[simp] theorem watchers_withSent (db : Database) (sent : List Message) :
    (db.withSent sent).watchers = db.watchers :=
  rfl

@[simp] theorem updates_withSent (db : Database) (sent : List Message) :
    (db.withSent sent).updates = db.updates :=
  rfl

theorem frame_withSent (db : Database) (sent : List Message) :
    Frame db (db.withSent sent) :=
  ⟨rfl, rfl, rfl, rfl⟩

theorem publishPatterns_sent
    {env : Env} {channel message : Bytes} {patterns : List Bytes}
    {count reached : Nat} {db after : Database}
    (published : publishPatterns env channel message patterns count db =
      some (reached, after)) :
    ∃ sent, after = db.withSent sent := by
  induction patterns generalizing count db with
  | nil =>
      simp only [publishPatterns, Option.some.injEq, Prod.mk.injEq]
        at published
      exact ⟨db.sent, published.2.symm⟩
  | cons pattern rest ih =>
      simp only [publishPatterns, Option.bind_eq_bind,
        Option.bind_eq_some_iff] at published
      obtain ⟨fits, -, published⟩ := published
      split at published
      · obtain ⟨sent, rfl⟩ := ih published
        exact ⟨sent, rfl⟩
      · exact ih published

theorem publish_sent
    {env : Env} {db after : Database} {channel message : Bytes}
    {count : Nat}
    (published : db.publish env channel message = some (count, after)) :
    ∃ sent, after = db.withSent sent := by
  obtain ⟨sent, rfl⟩ := publishPatterns_sent published
  exact ⟨sent, rfl⟩

private theorem publish_when_sent
    {env : Env} {db after : Database} {channel message : Bytes}
    {on : Bool}
    (published : (if on then
        Prod.snd <$> db.publish env channel message
      else pure db) = some after) :
    ∃ sent, after = db.withSent sent := by
  split at published
  · simp only [Option.map_eq_map, Option.map_eq_some_iff,
      Prod.exists] at published
    obtain ⟨count, _, published, rfl⟩ := published
    exact publish_sent published
  · cases published
    exact ⟨db.sent, rfl⟩

theorem notifyKeyspaceEvent_sent
    {env : Env} {db after : Database} {index : Nat} {eventType key : Bytes}
    {commandType : UInt8}
    (notified : db.notifyKeyspaceEvent env index eventType key commandType =
      some after) :
    ∃ sent, after = db.withSent sent := by
  simp only [notifyKeyspaceEvent] at notified
  split at notified
  · cases notified
    exact ⟨db.sent, rfl⟩
  split at notified
  · cases notified
    exact ⟨db.sent, rfl⟩
  simp only [Option.bind_eq_bind] at notified
  split at notified
  · obtain ⟨between, first, second⟩ := Option.bind_eq_some_iff.mp notified
    simp only [Option.map_eq_map, Option.map_eq_some_iff,
      Prod.exists] at first
    obtain ⟨count, _, published, rfl⟩ := first
    obtain ⟨sent, rfl⟩ := publish_sent published
    obtain ⟨sent', rfl⟩ := publish_when_sent second
    exact ⟨sent', rfl⟩
  · exact publish_when_sent notified

/-! ## One slot at a time -/

/-- What an operation that works on one slot leaves behind: there the given
value and expiration, elsewhere what was there. -/
structure Sets (before after : Database) (slot : Slot)
    (value : Option Value) (expiration : Option Int) : Prop where
  frame : Frame before after
  value : ∀ other,
    after.value other = if other = slot then value else before.value other
  expiration : ∀ other, after.expiration other =
    if other = slot then expiration else before.expiration other

theorem Sets.unchanged (db : Database) (slot : Slot) :
    Sets db db slot (db.value slot) (db.expiration slot) := by
  refine ⟨.refl db, ?_, ?_⟩
  · intro other
    split
    · rename_i same
      rw [same]
    · rfl
  · intro other
    split
    · rename_i same
      rw [same]
    · rfl

/-- The operation neither announces an update nor removes a watcher. -/
structure Silent (before after : Database) : Prop where
  watchers : after.watchers = before.watchers
  updates : after.updates = before.updates

/-- The operation announces an update of one slot. -/
structure Announces (before after : Database) (slot : Slot) : Prop where
  watchers : ∀ other, after.watchers other =
    if other = slot then none else before.watchers other
  updates : after.updates = slot :: before.updates

namespace Silent

theorem refl (db : Database) : Silent db db :=
  ⟨rfl, rfl⟩

theorem trans {before between after : Database}
    (first : Silent before between) (second : Silent between after) :
    Silent before after :=
  ⟨second.watchers.trans first.watchers,
    second.updates.trans first.updates⟩

end Silent

theorem updateLru_eq (env : Env) (db : Database) (index : Nat)
    (key : Bytes) :
    ∃ lru, db.updateLru env index key = { db with keyLru := lru } := by
  unfold updateLru
  split
  · exact ⟨_, rfl⟩
  · exact ⟨db.keyLru, rfl⟩

theorem value_setData_erase
    (db : Database) (index : Nat) (key : Bytes) (slot : Slot) :
    (db.setData index ((db.data index).erase key)).value slot =
      if slot = (index, key) then none else db.value slot :=
  lookup_update_erase db.data slot index key

theorem put_sets (db : Database) (index : Nat) (key : Bytes)
    (value : Value) :
    Sets db (db.put index key value) (index, key) (some value)
      (db.expiration (index, key)) := by
  refine ⟨⟨rfl, rfl, rfl, rfl⟩, ?_, ?_⟩
  · intro other
    exact lookup_update_insert db.data other index key value
  · intro other
    show db.expiration other = _
    split
    · rename_i same
      rw [same]
    · rfl

theorem put_silent (db : Database) (index : Nat) (key : Bytes)
    (value : Value) :
    Silent db (db.put index key value) :=
  ⟨rfl, rfl⟩

theorem removeMsexpiration_sets (db : Database) (index : Nat)
    (key : Bytes) :
    Sets db (db.removeMsexpiration index key).2 (index, key)
      (db.value (index, key)) none := by
  refine ⟨⟨rfl, rfl, rfl, rfl⟩, ?_, ?_⟩
  · intro other
    show db.value other = _
    split
    · rename_i same
      rw [same]
    · rfl
  · intro other
    exact lookup_update_erase db.dataExpirationMs other index key

theorem removeMsexpiration_silent (db : Database) (index : Nat)
    (key : Bytes) :
    Silent db (db.removeMsexpiration index key).2 :=
  ⟨rfl, rfl⟩

/-- A change of the bookkeeping of memory and of what was sent. -/
structure Kept (before after : Database) : Prop where
  frame : Frame before after
  value : after.value = before.value
  expiration : after.expiration = before.expiration
  silent : Silent before after

namespace Kept

theorem refl (db : Database) : Kept db db :=
  ⟨.refl db, rfl, rfl, .refl db⟩

theorem trans {before between after : Database}
    (first : Kept before between) (second : Kept between after) :
    Kept before after :=
  ⟨first.frame.trans second.frame, second.value.trans first.value,
    second.expiration.trans first.expiration,
    first.silent.trans second.silent⟩

theorem sent (db : Database) (sent : List Message) :
    Kept db (db.withSent sent) :=
  ⟨frame_withSent db sent, rfl, rfl, ⟨rfl, rfl⟩⟩

end Kept

namespace Sets

variable {before after : Database} {slot : Slot} {value : Option Value}
  {expiration : Option Int}

theorem value_self (sets : Sets before after slot value expiration) :
    after.value slot = value := by
  rw [sets.value, if_pos rfl]

theorem expiration_self
    (sets : Sets before after slot value expiration) :
    after.expiration slot = expiration := by
  rw [sets.expiration, if_pos rfl]

theorem kept {between : Database}
    (sets : Sets before between slot value expiration)
    (kept : Kept between after) :
    Sets before after slot value expiration := by
  refine ⟨sets.frame.trans kept.frame, ?_, ?_⟩
  · intro other
    rw [kept.value, sets.value]
  · intro other
    rw [kept.expiration, sets.expiration]

/-- What the later of two operations on one slot leaves counts. -/
theorem trans
    {between : Database} {value' : Option Value} {expiration' : Option Int}
    (first : Sets before between slot value expiration)
    (second : Sets between after slot value' expiration') :
    Sets before after slot value' expiration' := by
  refine ⟨first.frame.trans second.frame, ?_, ?_⟩
  · intro other
    rw [second.value, first.value]
    by_cases self : other = slot
    · rw [if_pos self, if_pos self]
    · rw [if_neg self, if_neg self, if_neg self]
  · intro other
    rw [second.expiration, first.expiration]
    by_cases self : other = slot
    · rw [if_pos self, if_pos self]
    · rw [if_neg self, if_neg self, if_neg self]

end Sets

theorem notifyKeyspaceEvent_kept
    {env : Env} {db after : Database} {index : Nat} {eventType key : Bytes}
    {commandType : UInt8}
    (notified : db.notifyKeyspaceEvent env index eventType key commandType =
      some after) :
    Kept db after := by
  obtain ⟨sent, rfl⟩ := notifyKeyspaceEvent_sent notified
  exact .sent db sent

theorem updateLru_kept (env : Env) (db : Database) (index : Nat)
    (key : Bytes) :
    Kept db (db.updateLru env index key) := by
  unfold updateLru
  split
  · exact ⟨⟨rfl, rfl, rfl, rfl⟩, rfl, rfl, ⟨rfl, rfl⟩⟩
  · exact .refl db

/-- The value that a reader of a slot gets. -/
def visible (env : Env) (db : Database) (slot : Slot) : Option Value :=
  if db.lapsed env slot then none else db.value slot

@[simp] theorem get_eq_visible (env : Env) (db : Database) (index : Nat)
    (key : Bytes) :
    db.get env index key = db.visible env (index, key) :=
  rfl

private theorem forget_memory (db : Database) (result : Option Value)
    (key : Bytes) :
    Kept db
      (match result with
      | some value =>
          let size := estimateValueSize value key.length
          if size ≤ db.usedMemory then
            { db with usedMemory := db.usedMemory - size }
          else db
      | none => db) := by
  cases result with
  | none => exact .refl db
  | some value =>
      dsimp only
      split
      · exact ⟨⟨rfl, rfl, rfl, rfl⟩, rfl, rfl, ⟨rfl, rfl⟩⟩
      · exact .refl db

/-- Erasing a slot after the bookkeeping of a removal. -/
private theorem erase_both {db between : Database} {index : Nat}
    {key : Bytes}
    (kept : Kept (db.setData index ((db.data index).erase key)) between) :
    let erased := between.setExpirations index
      ((between.dataExpirationMs index).erase key)
    let after := erased.setLru index ((erased.keyLru index).erase key)
    Sets db after (index, key) none none ∧ Silent db after := by
  refine ⟨⟨⟨kept.frame.config, kept.frame.loading, kept.frame.aof,
    kept.frame.dispatched⟩, ?_, ?_⟩, ?_⟩
  · intro other
    show between.value other = _
    rw [kept.value]
    exact lookup_update_erase db.data other index key
  · intro other
    have erased := lookup_update_erase between.dataExpirationMs other index
      key
    refine Eq.trans erased ?_
    have same : between.expiration other = db.expiration other :=
      congrFun kept.expiration other
    rw [← same]
    rfl
  · exact ⟨kept.silent.watchers, kept.silent.updates⟩

theorem remove_spec
    {env : Env} {db after : Database} {index : Nat} {key : Bytes}
    {result : Option Value}
    (removed : db.remove env index key = some (result, after)) :
    result = db.visible env (index, key) ∧
      Sets db after (index, key) none none ∧ Silent db after := by
  simp only [remove, Option.bind_eq_bind] at removed
  split at removed
  · rename_i expired
    obtain ⟨between, notified, removed⟩ := Option.bind_eq_some_iff.mp removed
    have kept := notifyKeyspaceEvent_kept notified
    cases removed
    refine ⟨by simp [visible, lapsed, expired], erase_both kept⟩
  · rename_i live
    cases removed
    have live : db.isExpired env index key = false := by simpa using live
    refine ⟨by simp [visible, lapsed, live, Database.value], ?_⟩
    exact erase_both (forget_memory _ _ key)

theorem getMut_spec
    {env : Env} {db after : Database} {index : Nat} {key : Bytes}
    {result : Option Value}
    (got : db.getMut env index key = some (result, after)) :
    result = db.visible env (index, key) ∧
      if db.lapsed env (index, key) then
        Sets db after (index, key) none none ∧ Silent db after
      else Kept db after := by
  simp only [getMut, Option.bind_eq_bind] at got
  split at got
  · rename_i expired
    obtain ⟨⟨removed, between⟩, removedRun, got⟩ :=
      Option.bind_eq_some_iff.mp got
    cases got
    have expired : db.lapsed env (index, key) = true := expired
    rw [if_pos expired]
    exact ⟨by simp [visible, expired], (remove_spec removedRun).2⟩
  · rename_i live
    cases got
    have live : ¬db.lapsed env (index, key) = true := live
    rw [if_neg live]
    exact ⟨by simp [visible, live, Database.value],
      updateLru_kept env db index key⟩

/-- Whether an update of a slot removes its value. -/
def vanishing (db : Database) (slot : Slot) : Bool :=
  (db.value slot).any Value.isEmpty

theorem not_vanishing_erased (db : Database) (index : Nat) (key : Bytes) :
    (db.setData index ((db.data index).erase key)).vanishing (index, key) =
      false := by
  unfold vanishing
  rw [value_setData_erase, if_pos rfl]
  rfl

/-- What an update of a slot leaves of a part of it. -/
def surviving {α : Type} (db : Database) (slot : Slot) (part : Option α) :
    Option α :=
  if db.vanishing slot then none else part

private theorem announce
    (env : Env) (db : Database) (index : Nat) (key : Bytes) :
    let callbacks := ((db.keySubscribers index).lookup key).getD ∅
    let mailboxes := (env.idOrder callbacks.keys).filterMap callbacks.lookup
    let heard := db.setKeySubscribers index
      ((db.keySubscribers index).erase key)
    let unwatched := heard.setWatched index
      ((heard.watchedKeys index).erase key)
    let after : Database :=
      { unwatched with
        sent := unwatched.sent ++ mailboxes.map .updated
        updates := (index, key) :: unwatched.updates }
    Frame db after ∧ after.value = db.value ∧
      after.expiration = db.expiration ∧
      Announces db after (index, key) := by
  refine ⟨⟨rfl, rfl, rfl, rfl⟩, rfl, rfl, ?_, rfl⟩
  intro other
  exact lookup_update_erase db.watchedKeys other index key

theorem keyUpdated_spec
    {env : Env} {db after : Database} {index : Nat} {key : Bytes}
    (updated : db.keyUpdated env index key = some after) :
    Sets db after (index, key)
        (db.surviving (index, key) (db.value (index, key)))
        (db.surviving (index, key) (db.expiration (index, key))) ∧
      Announces db after (index, key) := by
  simp only [keyUpdated, Option.bind_eq_bind] at updated
  split at updated
  · rename_i vanishing
    have vanishing : db.vanishing (index, key) = true := vanishing
    simp only [Option.map_eq_map, Option.bind_eq_some_iff,
      Option.map_eq_some_iff, Prod.exists] at updated
    obtain ⟨_, ⟨result, between, removed, rfl⟩, updated⟩ := updated
    obtain ⟨-, sets, silent⟩ := remove_spec removed
    cases updated
    obtain ⟨frame, value, expiration, announces⟩ :=
      announce env between index key
    simp only [surviving, vanishing, if_true]
    refine ⟨⟨sets.frame.trans frame, ?_, ?_⟩, ?_, ?_⟩
    · intro other
      rw [value]
      exact sets.value other
    · intro other
      rw [expiration]
      exact sets.expiration other
    · intro other
      rw [announces.watchers, silent.watchers]
    · rw [announces.updates, silent.updates]
  · rename_i staying
    have staying : ¬db.vanishing (index, key) = true := staying
    cases updated
    obtain ⟨frame, value, expiration, announces⟩ :=
      announce env db index key
    have unchanged := Sets.unchanged db (index, key)
    simp only [surviving, staying]
    refine ⟨⟨frame, ?_, ?_⟩, announces⟩
    · intro other
      rw [value]
      exact unchanged.value other
    · intro other
      rw [expiration]
      exact unchanged.expiration other

theorem setMsexpiration_spec
    {env : Env} {db after : Database} {index : Nat} {key : Bytes}
    {msexpiration : Int}
    (set : db.setMsexpiration env index key msexpiration = some after) :
    Sets db after (index, key)
        (db.surviving (index, key) (db.value (index, key)))
        (some msexpiration) ∧
      Announces db after (index, key) := by
  simp only [setMsexpiration, Option.bind_eq_bind,
    Option.bind_eq_some_iff] at set
  obtain ⟨between, updated, set⟩ := set
  cases set
  obtain ⟨sets, announces⟩ := keyUpdated_spec updated
  refine ⟨⟨⟨sets.frame.config, sets.frame.loading, sets.frame.aof,
    sets.frame.dispatched⟩, sets.value, ?_⟩, ?_⟩
  · intro other
    refine Eq.trans
      (lookup_update_insert between.dataExpirationMs other index key
        msexpiration) ?_
    by_cases same : other = (index, key)
    · simp [same]
    · have kept := sets.expiration other
      simp only [same, if_false] at kept ⊢
      exact kept
  · exact ⟨announces.watchers, announces.updates⟩

/-! ## Whole databases -/

/-- What announcing updates of some slots leaves of the watchers. -/
structure AnnouncesAll (before after : Database) (slots : List Slot) :
    Prop where
  watchers : ∀ other, after.watchers other =
    if other ∈ slots then none else before.watchers other
  updates : after.updates = slots ++ before.updates

namespace AnnouncesAll

theorem none {before after : Database} (silent : Silent before after) :
    AnnouncesAll before after [] :=
  ⟨fun other => by simp [silent.watchers], silent.updates⟩

theorem one {before after : Database} {slot : Slot}
    (announces : Announces before after slot) :
    AnnouncesAll before after [slot] :=
  ⟨fun other => by simp [announces.watchers], announces.updates⟩

theorem trans {before between after : Database} {first second : List Slot}
    (earlier : AnnouncesAll before between first)
    (later : AnnouncesAll between after second) :
    AnnouncesAll before after (second ++ first) := by
  constructor
  · intro other
    rw [later.watchers, earlier.watchers]
    by_cases inSecond : other ∈ second
    · simp [inSecond]
    · simp [inSecond]
  · rw [later.updates, earlier.updates, List.append_assoc]

end AnnouncesAll

theorem clearWatched_spec
    {env : Env} {db after : Database} {index : Nat} {keys : List Bytes}
    (cleared : clearWatched env index keys db = some after) :
    Frame db after ∧
      (∀ other, other.1 ≠ index → after.value other = db.value other ∧
        after.expiration other = db.expiration other) ∧
      ∃ slots, AnnouncesAll db after slots ∧
        (∀ slot ∈ slots, slot.1 = index) ∧
        (∀ key ∈ keys, db.value (index, key) ≠ none →
          (index, key) ∈ slots) := by
  induction keys generalizing db with
  | nil =>
      cases cleared
      exact ⟨.refl _, fun _ _ => ⟨rfl, rfl⟩, [], .none (.refl _), by simp,
        by simp⟩
  | cons key rest ih =>
      simp only [clearWatched, Option.bind_eq_bind] at cleared
      have erasedValue := value_setData_erase db index key
      split at cleared
      · obtain ⟨between, updated, cleared⟩ :=
          Option.bind_eq_some_iff.mp cleared
        obtain ⟨sets, announces⟩ := keyUpdated_spec updated
        obtain ⟨frame, elsewhere, slots, all, sameIndex, covered⟩ :=
          ih cleared
        have first : Announces db between (index, key) :=
          ⟨announces.watchers, announces.updates⟩
        refine ⟨⟨frame.config.trans sets.frame.config,
          frame.loading.trans sets.frame.loading,
          frame.aof.trans sets.frame.aof,
          frame.dispatched.trans sets.frame.dispatched⟩, ?_,
          slots ++ [(index, key)], (AnnouncesAll.one first).trans all, ?_,
          ?_⟩
        · intro other different
          obtain ⟨value, expiration⟩ := elsewhere other different
          have away : other ≠ (index, key) := by
            rintro rfl
            exact different rfl
          rw [value, expiration, sets.value, sets.expiration]
          simp [away, erasedValue]
          rfl
        · intro slot member
          simp only [List.mem_append, List.mem_singleton] at member
          obtain member | rfl := member
          · exact sameIndex slot member
          · rfl
        · intro other member present
          simp only [List.mem_cons] at member
          simp only [List.mem_append, List.mem_singleton]
          by_cases same : other = key
          · exact .inr (by rw [same])
          · have member := member.resolve_left same
            refine .inl (covered other member ?_)
            have away : (index, other) ≠ (index, key) := by simpa using same
            rw [sets.value]
            simpa [away, erasedValue] using present
      · rename_i absent
        obtain ⟨frame, elsewhere, slots, all, sameIndex, covered⟩ :=
          ih cleared
        refine ⟨⟨frame.config, frame.loading, frame.aof, frame.dispatched⟩,
          ?_, slots, ⟨all.watchers, all.updates⟩, sameIndex, ?_⟩
        · intro other different
          obtain ⟨value, expiration⟩ := elsewhere other different
          have away : other ≠ (index, key) := by
            rintro rfl
            exact different rfl
          rw [value, expiration]
          simp [away, erasedValue]
          rfl
        · intro other member present
          simp only [List.mem_cons] at member
          by_cases same : other = key
          · subst same
            exact absurd (by simpa [Database.value] using absent) present
          · refine covered other (member.resolve_left same) ?_
            have away : (index, other) ≠ (index, key) := by simpa using same
            simpa [away, erasedValue] using present

/-- What clearing some of the databases leaves behind. -/
structure Clears (before after : Database) (scope : List Nat) : Prop where
  frame : Frame before after
  inside : ∀ slot : Slot, slot.1 ∈ scope →
    after.value slot = none ∧ after.expiration slot = none
  outside : ∀ slot : Slot, slot.1 ∉ scope →
    after.value slot = before.value slot ∧
      after.expiration slot = before.expiration slot
  announces : ∃ slots, AnnouncesAll before after slots
  /-- Nobody watches a value that is gone. -/
  unwatched : ∀ slot : Slot, slot.1 ∈ scope → before.value slot ≠ none →
    after.watchers slot = none

theorem clear_spec
    {env : Env} {db after : Database} {index : Nat}
    (cleared : db.clear env index = some after) :
    Clears db after [index] := by
  simp only [clear, Option.bind_eq_bind, Option.bind_eq_some_iff] at cleared
  obtain ⟨between, unwatched, cleared⟩ := cleared
  cases cleared
  obtain ⟨frame, elsewhere, slots, all, sameIndex, covered⟩ :=
    clearWatched_spec unwatched
  have value := lookup_update_empty between.data
  have expiration := lookup_update_empty between.dataExpirationMs
  constructor
  · exact ⟨frame.config, frame.loading, frame.aof, frame.dispatched⟩
  · intro slot inside
    have inside : slot.1 = index := by simpa using inside
    exact ⟨(value slot index).trans (if_pos inside),
      (expiration slot index).trans (if_pos inside)⟩
  · intro slot outside
    have outside : slot.1 ≠ index := by simpa using outside
    obtain ⟨sameValue, sameExpiration⟩ := elsewhere slot outside
    exact ⟨((value slot index).trans (if_neg outside)).trans sameValue,
      ((expiration slot index).trans (if_neg outside)).trans
        sameExpiration⟩
  · exact ⟨slots, all.watchers, all.updates⟩
  · intro slot inside present
    obtain ⟨slotIndex, key⟩ := slot
    have inside : slotIndex = index := by simpa using inside
    subst inside
    show between.watchers (slotIndex, key) = none
    rw [all.watchers]
    split
    · rfl
    · rename_i silent
      cases watched : db.watchers (slotIndex, key) with
      | none => rfl
      | some watchers =>
          refine absurd (covered key ?_ present) silent
          rw [env.mem_order, Finmap.mem_keys, ← Finmap.lookup_isSome]
          exact Option.isSome_iff_exists.mpr ⟨watchers, watched⟩

theorem Clears.trans
    {before between after : Database} {first second : List Nat}
    (earlier : Clears before between first)
    (later : Clears between after second) :
    Clears before after (first ++ second) := by
  constructor
  · exact earlier.frame.trans later.frame
  · intro slot inside
    by_cases inSecond : slot.1 ∈ second
    · exact later.inside slot inSecond
    · have inFirst : slot.1 ∈ first := by simpa [inSecond] using inside
      obtain ⟨value, expiration⟩ := later.outside slot inSecond
      rw [value, expiration]
      exact earlier.inside slot inFirst
  · intro slot outside
    simp only [List.mem_append, not_or] at outside
    obtain ⟨value, expiration⟩ := later.outside slot outside.2
    rw [value, expiration]
    exact earlier.outside slot outside.1
  · obtain ⟨firstSlots, firstAll⟩ := earlier.announces
    obtain ⟨secondSlots, secondAll⟩ := later.announces
    exact ⟨secondSlots ++ firstSlots, firstAll.trans secondAll⟩
  · intro slot inside present
    obtain ⟨secondSlots, secondAll⟩ := later.announces
    by_cases inFirst : slot.1 ∈ first
    · rw [secondAll.watchers, earlier.unwatched slot inFirst present]
      simp
    · have inSecond : slot.1 ∈ second := by simpa [inFirst] using inside
      refine later.unwatched slot inSecond ?_
      rw [(earlier.outside slot inFirst).1]
      exact present

private theorem clearEach_spec
    {env : Env} {db after : Database} {indices : List Nat}
    (cleared : indices.foldlM (fun db index => db.clear env index) db =
      some after) :
    Clears db after indices := by
  induction indices generalizing db with
  | nil =>
      cases cleared
      exact ⟨.refl _, by simp, fun _ _ => ⟨rfl, rfl⟩,
        ⟨[], .none (.refl _)⟩, by simp⟩
  | cons index rest ih =>
      simp only [List.foldlM_cons, Option.bind_eq_bind,
        Option.bind_eq_some_iff] at cleared
      obtain ⟨between, first, others⟩ := cleared
      exact (clear_spec first).trans (ih others)

theorem clearall_spec
    {env : Env} {db after : Database}
    (cleared : db.clearall env = some after) :
    Clears db after (List.range db.config.databases) :=
  clearEach_spec cleared

/-! ## Creating a key -/

/-- Eviction removes keys and announces nothing. -/
structure Evicts (before after : Database) : Prop where
  frame : Frame before after
  silent : Silent before after
  removes : ∀ slot,
    after.value slot = before.value slot ∧
        after.expiration slot = before.expiration slot ∨
      after.value slot = none ∧ after.expiration slot = none

theorem Evicts.refl (db : Database) : Evicts db db :=
  ⟨.refl db, .refl db, fun _ => .inl ⟨rfl, rfl⟩⟩

theorem Evicts.trans {before between after : Database}
    (first : Evicts before between) (second : Evicts between after) :
    Evicts before after := by
  refine ⟨first.frame.trans second.frame, first.silent.trans second.silent,
    ?_⟩
  intro slot
  obtain ⟨value, expiration⟩ | gone := second.removes slot
  · rw [value, expiration]
    exact first.removes slot
  · exact .inr gone

private theorem evictOne
    {env : Env} {db between after : Database} {index : Nat} {key : Bytes}
    {removed : Option Value}
    (removal : db.remove env index key = some (removed, between))
    (notified : (if removed.isSome then
        { between with
          evictedKeys := between.evictedKeys + 1 }.notifyKeyspaceEvent env
            index (text "evicted") key 101
      else pure between) = some after) :
    Evicts db after := by
  obtain ⟨-, sets, silent⟩ := remove_spec removal
  have counted : Kept between
      { between with evictedKeys := between.evictedKeys + 1 } :=
    ⟨⟨rfl, rfl, rfl, rfl⟩, rfl, rfl, ⟨rfl, rfl⟩⟩
  have kept : Kept between after := by
    split at notified
    · exact counted.trans (notifyKeyspaceEvent_kept notified)
    · cases notified
      exact .refl _
  refine ⟨sets.frame.trans kept.frame, silent.trans kept.silent, ?_⟩
  intro slot
  rw [kept.value, kept.expiration, sets.value, sets.expiration]
  by_cases same : slot = (index, key)
  · exact .inr ⟨if_pos same, if_pos same⟩
  · exact .inl ⟨if_neg same, if_neg same⟩

theorem evictLoop_spec
    {env : Env} {policy : Bytes} {index needed maxmemory fuel round : Nat}
    {db after : Database} {done : Bool}
    (evicted : evictLoop env policy index needed maxmemory fuel round db =
      some (done, after)) :
    Evicts db after := by
  induction fuel generalizing round db with
  | zero => cases evicted
  | succ fuel ih =>
      rw [evictLoop] at evicted
      split at evicted
      · cases evicted
        exact .refl _
      split at evicted
      · cases evicted
        exact .refl _
      split at evicted
      · cases evicted
        exact .refl _
      rename_i key chosen
      obtain ⟨⟨removed, between⟩, removal, evicted⟩ :=
        Option.bind_eq_some_iff.mp evicted
      dsimp only at evicted
      have first : ∃ middle, Evicts db middle ∧
          evictLoop env policy index needed maxmemory fuel (round + 1)
            middle = some (done, after) := by
        split at evicted
        · rename_i present
          obtain ⟨middle, notified, evicted⟩ :=
            Option.bind_eq_some_iff.mp evicted
          exact ⟨middle, evictOne removal (by rw [if_pos present, notified]),
            evicted⟩
        · rename_i absent
          exact ⟨_, evictOne removal (by rw [if_neg absent]; rfl), evicted⟩
      obtain ⟨middle, one, rest⟩ := first
      exact one.trans (ih rest)

theorem evictKeys_spec
    {env : Env} {db after : Database} {index needed : Nat} {done : Bool}
    (evicted : db.evictKeys env index needed = some (done, after)) :
    Evicts db after := by
  unfold evictKeys at evicted
  split at evicted
  · cases evicted
    exact .refl _
  · exact evictLoop_spec evicted

/-- The expiration that a created slot keeps. -/
def keptExpiration (env : Env) (db : Database) (slot : Slot) :
    Option Int :=
  if db.lapsed env slot then none else db.expiration slot

/-- The database without the expiration of a key that has lapsed. -/
def forgotten (env : Env) (db : Database) (index : Nat) (key : Bytes) :
    Database :=
  if db.isExpired env index key then (db.removeMsexpiration index key).2
  else db

theorem forgotten_sets (env : Env) (db : Database) (index : Nat)
    (key : Bytes) :
    Sets db (db.forgotten env index key) (index, key)
        (db.value (index, key)) (db.keptExpiration env (index, key)) ∧
      Silent db (db.forgotten env index key) := by
  unfold forgotten keptExpiration lapsed
  split
  · exact ⟨removeMsexpiration_sets db index key,
      removeMsexpiration_silent db index key⟩
  · exact ⟨.unchanged db (index, key), .refl db⟩

/-- Whether so many bytes do not fit into the memory. -/
def lacks (db : Database) (needed : Nat) : Bool :=
  match db.config.maxmemory with
  | some maxmemory => maxmemory < db.usedMemory + needed
  | none => false

/-- The database with a Nil that the memory counter counts. -/
def withCounted (env : Env) (db : Database) (index : Nat) (key : Bytes) :
    Database :=
  let used := db.usedMemory + estimateValueSize .nil key.length
  { db.put index key .nil with
    usedMemory := used
    usedMemoryPeak := max used db.usedMemoryPeak }.updateLru env index key

theorem withCounted_sets (env : Env) (db : Database) (index : Nat)
    (key : Bytes) :
    Sets db (db.withCounted env index key) (index, key) (some .nil)
        (db.expiration (index, key)) ∧
      Silent db (db.withCounted env index key) := by
  have kept : Kept (db.put index key .nil)
      (db.withCounted env index key) := by
    unfold withCounted
    refine Kept.trans ?_ (updateLru_kept env _ index key)
    exact ⟨⟨rfl, rfl, rfl, rfl⟩, rfl, rfl, ⟨rfl, rfl⟩⟩
  exact ⟨(put_sets db index key .nil).kept kept,
    (put_silent db index key .nil).trans kept.silent⟩

/-- The ways in which a slot is looked up or created: it is stored, it is
counted after an eviction, or it is stored although the memory is short. -/
inductive Creation (env : Env) (db : Database) (index : Nat) (key : Bytes) :
    Value → Database → Prop where
  | stored {value : Value} (found : db.value (index, key) = some value) :
      Creation env db index key value
        ((db.forgotten env index key).updateLru env index key)
  | counted {done : Bool} {middle : Database}
      (absent : db.value (index, key) = none)
      (evicted : (db.forgotten env index key).evictKeys env index
        (estimateValueSize .nil key.length) = some (done, middle))
      (fits : done = true ∨
        middle.lacks (estimateValueSize .nil key.length) = false) :
      Creation env db index key .nil (middle.withCounted env index key)
  | refused {middle : Database} (absent : db.value (index, key) = none)
      (evicted : (db.forgotten env index key).evictKeys env index
        (estimateValueSize .nil key.length) = some (false, middle))
      (short : middle.lacks (estimateValueSize .nil key.length) = true) :
      Creation env db index key .nil (middle.put index key .nil)

theorem getOrCreate_creation
    {env : Env} {db after : Database} {index : Nat} {key : Bytes}
    {value : Value}
    (created : db.getOrCreate env index key = some (value, after)) :
    Creation env db index key value after := by
  obtain ⟨forgets, -⟩ := forgotten_sets env db index key
  simp only [getOrCreate, Option.bind_eq_bind] at created
  rw [show (if db.isExpired env index key then
    (db.removeMsexpiration index key).2 else db) =
      db.forgotten env index key from rfl] at created
  have held : ((db.forgotten env index key).data index).lookup key =
      db.value (index, key) := forgets.value_self
  cases found : db.value (index, key) with
  | some value =>
      rw [found] at held
      simp [held] at created
      obtain ⟨rfl, rfl⟩ := created
      exact .stored found
  | none =>
      rw [found] at held
      rw [if_pos held] at created
      obtain ⟨⟨done, middle⟩, evicted, created⟩ :=
        Option.bind_eq_some_iff.mp created
      have vacant : (middle.data index).lookup key = none := by
        rcases (evictKeys_spec evicted).removes (index, key) with
          ⟨same, -⟩ | ⟨gone, -⟩
        · exact same.trans held
        · exact gone
      simp only [Option.pure_def, Option.bind_some, vacant] at created
      change (if (!done && middle.lacks (estimateValueSize .nil key.length)) =
          true then some (.nil, middle.put index key .nil)
        else some (.nil, middle.withCounted env index key)) =
          some (value, after) at created
      split at created
      · rename_i refused
        cases created
        rw [Bool.and_eq_true, Bool.not_eq_true'] at refused
        obtain ⟨rfl, short⟩ := refused
        exact .refused found evicted short
      · rename_i accepted
        cases created
        refine .counted found evicted ?_
        cases done with
        | true => exact .inl rfl
        | false => exact .inr (by simpa [lacks] using accepted)

/-- Creating a slot announces nothing, whatever is evicted for it. -/
theorem getOrCreate_silent
    {env : Env} {db after : Database} {index : Nat} {key : Bytes}
    {value : Value}
    (created : db.getOrCreate env index key = some (value, after)) :
    Frame db after ∧ Silent db after := by
  obtain ⟨forgets, silent⟩ := forgotten_sets env db index key
  cases getOrCreate_creation created with
  | stored found =>
      have lru := updateLru_kept env (db.forgotten env index key) index key
      exact ⟨forgets.frame.trans lru.frame, silent.trans lru.silent⟩
  | @counted done middle absent evicted fits =>
      have removal := evictKeys_spec evicted
      obtain ⟨sets, quiet⟩ := withCounted_sets env middle index key
      exact ⟨(forgets.frame.trans removal.frame).trans sets.frame,
        (silent.trans removal.silent).trans quiet⟩
  | @refused middle absent evicted short =>
      have removal := evictKeys_spec evicted
      have sets := put_sets middle index key .nil
      exact ⟨(forgets.frame.trans removal.frame).trans sets.frame,
        (silent.trans removal.silent).trans
          (put_silent middle index key .nil)⟩

theorem keySubscribe_kept (db : Database) (index : Nat) (key : Bytes)
    (mailbox : Nat) :
    Kept db (db.keySubscribe index key mailbox).2 :=
  ⟨⟨rfl, rfl, rfl, rfl⟩, rfl, rfl, ⟨rfl, rfl⟩⟩

/-! ## Every operation -/

theorem checked_eq_some
    {α : Type} {db : Database} {index : Nat} {answer : Option α}
    {result : α} :
    db.checked index answer = some result ↔
      db.inBounds index = true ∧ answer = some result := by
  unfold checked
  split
  · rename_i inside
    simp [inside]
  · rename_i outside
    simp [outside]

/-- Watchers disappear with the announcement of an update and not
otherwise. -/
def Invalidates (before after : Database) : Prop :=
  ∃ slots, AnnouncesAll before after slots

namespace Invalidates

theorem refl (db : Database) : Invalidates db db :=
  ⟨[], .none (.refl db)⟩

theorem trans {before between after : Database}
    (first : Invalidates before between)
    (second : Invalidates between after) :
    Invalidates before after := by
  obtain ⟨firstSlots, firstAll⟩ := first
  obtain ⟨secondSlots, secondAll⟩ := second
  exact ⟨secondSlots ++ firstSlots, firstAll.trans secondAll⟩

end Invalidates

theorem Silent.invalidates {before after : Database}
    (silent : Silent before after) : Invalidates before after :=
  ⟨[], .none silent⟩

theorem Announces.invalidates {before after : Database} {slot : Slot}
    (announces : Announces before after slot) : Invalidates before after :=
  ⟨[slot], .one announces⟩

theorem silently_eq_some
    {result : Option Database} {answer : Unit} {after : Database} :
    silently result = some (answer, after) ↔ result = some after := by
  simp [silently]

theorem read_unchanged
    {env : Env} {db after : Database} {op : ReadOp}
    {answer : (WriteOp.read op).Ret}
    (performed : db.perform env (.read op) = some (answer, after)) :
    after = db := by
  obtain ⟨_, _, answered⟩ := Option.map_eq_some_iff.mp performed
  cases answered
  rfl

/-- No operation writes the framed fields or hides an update. -/
theorem perform_frame
    {env : Env} {db after : Database} {op : WriteOp} {answer : op.Ret}
    (performed : db.perform env op = some (answer, after)) :
    Frame db after ∧ Invalidates db after := by
  cases op with
  | read op =>
      cases read_unchanged performed
      exact ⟨.refl db, .refl db⟩
  | getMut index key =>
      obtain ⟨-, got⟩ := checked_eq_some.mp performed
      obtain ⟨-, spec⟩ := getMut_spec got
      split at spec
      · exact ⟨spec.1.frame, spec.2.invalidates⟩
      · exact ⟨spec.frame, spec.silent.invalidates⟩
  | getOrCreate index key =>
      obtain ⟨-, created⟩ := checked_eq_some.mp performed
      obtain ⟨frame, silent⟩ := getOrCreate_silent created
      exact ⟨frame, silent.invalidates⟩
  | put index key value =>
      obtain ⟨-, written⟩ := checked_eq_some.mp performed
      cases written
      exact ⟨(put_sets db index key value).frame,
        (put_silent db index key value).invalidates⟩
  | remove index key =>
      obtain ⟨-, removed⟩ := checked_eq_some.mp performed
      obtain ⟨-, sets, silent⟩ := remove_spec removed
      exact ⟨sets.frame, silent.invalidates⟩
  | setMsexpiration index key time =>
      obtain ⟨-, set⟩ := checked_eq_some.mp performed
      obtain ⟨sets, announces⟩ :=
        setMsexpiration_spec (silently_eq_some.mp set)
      exact ⟨sets.frame, announces.invalidates⟩
  | removeMsexpiration index key =>
      obtain ⟨-, removed⟩ := checked_eq_some.mp performed
      cases removed
      exact ⟨(removeMsexpiration_sets db index key).frame,
        (removeMsexpiration_silent db index key).invalidates⟩
  | clear index =>
      obtain ⟨-, cleared⟩ := checked_eq_some.mp performed
      have clears := clear_spec (silently_eq_some.mp cleared)
      exact ⟨clears.frame, clears.announces⟩
  | clearall =>
      have clears := clearall_spec (silently_eq_some.mp performed)
      exact ⟨clears.frame, clears.announces⟩
  | keyUpdated index key =>
      obtain ⟨-, updated⟩ := checked_eq_some.mp performed
      obtain ⟨sets, announces⟩ :=
        keyUpdated_spec (silently_eq_some.mp updated)
      exact ⟨sets.frame, announces.invalidates⟩
  | notifyKeyspaceEvent index eventType key commandType =>
      have kept := notifyKeyspaceEvent_kept (silently_eq_some.mp performed)
      exact ⟨kept.frame, kept.silent.invalidates⟩
  | channel =>
      cases performed
      exact ⟨.refl _, .refl _⟩
  | keySubscribe index key mailbox =>
      obtain ⟨-, subscribed⟩ := checked_eq_some.mp performed
      cases subscribed
      have kept := keySubscribe_kept db index key mailbox
      exact ⟨kept.frame, kept.silent.invalidates⟩

/-- So does no program of operations. -/
theorem run_frame
    {env : Env} {ε α : Type} (program : Program writeInterface ε α)
    {db after : Database} {result : Except ε α}
    (ran : program.run (machine env) db = some (result, after)) :
    Frame db after ∧ Invalidates db after := by
  refine program.run_relates
    (fun before after => Frame before after ∧ Invalidates before after)
    ?_ ?_ ?_ ran
  · intro db
    exact ⟨.refl db, .refl db⟩
  · intro first second third earlier later
    exact ⟨earlier.1.trans later.1, earlier.2.trans later.2⟩
  · intro op state answer after stepped
    exact perform_frame stepped

/-- A program that only reads leaves everything as it is. -/
theorem lift_unchanged
    {env : Env} {α : Type} (program : Reader α) {db after : Database}
    {result : Except Response α}
    (ran : (program.lift readInclusion).run (machine env) db =
      some (result, after)) :
    after = db :=
  program.lift_run_unchanged
    (fun _ _ _ _ performed => read_unchanged performed) ran

end Database

end RedVector
