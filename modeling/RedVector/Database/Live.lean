import RedVector.Database.Effects

/-!
# Live keys

What a client can see of a slot: its value and its expiration, unless the
expiration has passed.
-/

namespace RedVector.Database

open Effect Util

section

variable [Platform]

/-- The value and the expiration of a key that is live. -/
def live (env : Env) (db : Database) (slot : Slot) :
    Option (Value × Option Int) :=
  (db.visible env slot).map fun value => (value, db.expiration slot)

/-- Both states have the same live keys, with the same contents. -/
def SameLive (env : Env) (before after : Database) : Prop :=
  ∀ slot, after.live env slot = before.live env slot

namespace SameLive

theorem refl (env : Env) (db : Database) : SameLive env db db :=
  fun _ => rfl

theorem trans {env : Env} {before between after : Database}
    (first : SameLive env before between)
    (second : SameLive env between after) : SameLive env before after :=
  fun slot => (second slot).trans (first slot)

end SameLive

/-- A slot is live with what it holds, unless that has lapsed. -/
theorem live_eq (env : Env) (db : Database) (slot : Slot) :
    db.live env slot =
      if db.lapsed env slot then none
      else (db.value slot).map fun value => (value, db.expiration slot) := by
  unfold live visible
  split
  · rfl
  · rfl

theorem visible_eq_live (env : Env) (db : Database) (slot : Slot) :
    db.visible env slot = (db.live env slot).map Prod.fst := by
  simp [live, Option.map_map, Function.comp_def]

theorem SameLive.visible {env : Env} {before after : Database}
    (same : SameLive env before after) :
    after.visible env = before.visible env := by
  funext slot
  rw [visible_eq_live, visible_eq_live, same slot]

/-- The parts of the state that a slot is live by. -/
theorem live_congr {env : Env} {before after : Database} {slot : Slot}
    (loading : after.loading = before.loading)
    (value : after.value slot = before.value slot)
    (expiration : after.expiration slot = before.expiration slot) :
    after.live env slot = before.live env slot := by
  have lapsed : after.lapsed env slot = before.lapsed env slot := by
    rw [lapsed_eq, lapsed_eq, loading, expiration]
  rw [live_eq, live_eq, lapsed, value, expiration]

theorem lapsed_congr {env : Env} {before after : Database} {slot : Slot}
    (loading : after.loading = before.loading)
    (expiration : after.expiration slot = before.expiration slot) :
    after.lapsed env slot = before.lapsed env slot := by
  rw [lapsed_eq, lapsed_eq, loading, expiration]

theorem Kept.live {env : Env} {before after : Database}
    (kept : Kept before after) : SameLive env before after :=
  fun slot => live_congr kept.frame.loading (congrFun kept.value slot)
    (congrFun kept.expiration slot)

theorem SameLive.of_data {env : Env} {before after : Database}
    (loading : after.loading = before.loading)
    (data : after.data = before.data)
    (expirations : after.dataExpirationMs = before.dataExpirationMs) :
    SameLive env before after := by
  intro slot
  refine live_congr loading ?_ ?_
  · rw [value, value, data]
  · rw [expiration, expiration, expirations]

section Sets

variable {env : Env} {before after : Database} {slot : Slot}
  {value : Option Value} {expiration : Option Int}

theorem Sets.live_other (sets : Sets before after slot value expiration)
    {other : Slot} (different : other ≠ slot) :
    after.live env other = before.live env other := by
  refine live_congr sets.frame.loading ?_ ?_
  · rw [sets.value, if_neg different]
  · rw [sets.expiration, if_neg different]

/-- A slot that gets what it has is as live as before. -/
theorem Sets.same_live
    (sets : Sets before after slot (before.value slot)
      (before.expiration slot)) : SameLive env before after := by
  intro other
  by_cases same : other = slot
  · subst same
    exact live_congr sets.frame.loading sets.value_self
      sets.expiration_self
  · exact sets.live_other same

/-- A lapsed slot may be emptied. -/
theorem Sets.emptied_live (sets : Sets before after slot none none)
    (lapsed : before.lapsed env slot = true) :
    SameLive env before after := by
  intro other
  by_cases same : other = slot
  · subst same
    rw [live_eq, live_eq, lapsed, sets.value_self]
    simp
  · exact sets.live_other same

end Sets

/-- Looking a key up for writing changes nothing that is live. -/
theorem getMut_live
    {env : Env} {db after : Database} {index : Nat} {key : Bytes}
    {result : Option Value}
    (got : db.getMut env index key = some (result, after)) :
    result = db.visible env (index, key) ∧ Frame db after ∧
      Silent db after ∧ SameLive env db after ∧
      (∀ value, result = some value → Kept db after ∧
        db.lapsed env (index, key) = false ∧
        db.value (index, key) = some value) := by
  obtain ⟨found, spec⟩ := getMut_spec got
  split at spec
  · rename_i lapsed
    refine ⟨found, spec.1.frame, spec.2, spec.1.emptied_live lapsed, ?_⟩
    intro value present
    rw [found, visible, if_pos lapsed] at present
    cases present
  · rename_i alive
    refine ⟨found, spec.frame, spec.silent, spec.live, ?_⟩
    intro value present
    rw [found, visible, if_neg alive] at present
    exact ⟨spec, by simpa using alive, present⟩

end

/-!
## Whether an expired key can be announced

An expired key that is looked up for writing is removed, and its removal is
published.  The patterns of the subscribers are matched for that, which panics
for some patterns; nothing else of the state decides whether it does.
-/

section

variable [Platform] {env : Env} {db : Database} {index : Nat} {key : Bytes}

theorem publishPatterns_isSome
    (channel message : Bytes) (patterns : List Bytes) (count : Nat)
    (db : Database) :
    (publishPatterns env channel message patterns count db).isSome =
      patterns.all fun pattern =>
        (globMatch pattern channel false).isSome := by
  induction patterns generalizing count db with
  | nil =>
      rfl
  | cons pattern rest ih =>
      rw [publishPatterns, List.all_cons]
      cases globMatch pattern channel false with
      | none =>
          rfl
      | some fits =>
          cases fits with
          | false => exact ih count db
          | true => exact ih _ _

/-- Every pattern of a subscriber can be matched with a channel. -/
def publishable (env : Env) (db : Database) (channel : Bytes) : Bool :=
  (env.order db.patternSubscribers.keys).all fun pattern =>
    (globMatch pattern channel false).isSome

theorem publish_isSome (env : Env) (db : Database) (channel message : Bytes) :
    (db.publish env channel message).isSome = db.publishable env channel :=
  publishPatterns_isSome channel message _ _ _

theorem publish_when_isSome
    (env : Env) (db : Database) (channel message : Bytes) (on : Bool) :
    (if on then Prod.snd <$> db.publish env channel message
      else pure db : Option Database).isSome =
      (!on || db.publishable env channel) := by
  cases on with
  | false => rfl
  | true =>
      have published := publish_isSome env db channel message
      simpa using published

/-- The patterns are matched with the channel of the key, the channel of the
event, both or none, as the settings say. -/
theorem notifyKeyspaceEvent_isSome
    (eventType : Bytes) (commandType : UInt8) :
    (db.notifyKeyspaceEvent env index eventType key commandType).isSome =
      (db.config.notifyKeyspaceEvents.isEmpty ||
        !db.notifyFlagEnabled commandType ||
        (!db.notifyFlagEnabled 75 || db.publishable env
            (text "__keyspace@" ++ natToString index ++ text "__:" ++
              fromUtf8Lossy key)) &&
          (!db.notifyFlagEnabled 69 || db.publishable env
            (text "__keyevent@" ++ natToString index ++ text "__:" ++
              eventType))) := by
  unfold notifyKeyspaceEvent
  cases db.config.notifyKeyspaceEvents.isEmpty with
  | true => rfl
  | false =>
      cases db.notifyFlagEnabled commandType with
      | false => rfl
      | true =>
          cases db.notifyFlagEnabled 75 with
          | false =>
              exact publish_when_isSome env db _ key (db.notifyFlagEnabled 69)
          | true =>
              have first := publish_isSome env db
                (text "__keyspace@" ++ natToString index ++ text "__:" ++
                  fromUtf8Lossy key) eventType
              rw [← first]
              cases published : db.publish env
                  (text "__keyspace@" ++ natToString index ++ text "__:" ++
                    fromUtf8Lossy key) eventType with
              | none =>
                  dsimp only
                  rw [published]
                  rfl
              | some reached =>
                  obtain ⟨count, after⟩ := reached
                  dsimp only
                  rw [published]
                  obtain ⟨sent, rfl⟩ := publish_sent published
                  exact publish_when_isSome env (db.withSent sent) _ key
                    (db.notifyFlagEnabled 69)

/-- An expired key is removed for a writer unless it cannot be announced. -/
theorem getMut_lapsed (lapsed : db.lapsed env (index, key) = true) :
    (db.getMut env index key).isSome =
      (db.notifyKeyspaceEvent env index (text "expired") key 120).isSome := by
  have expired : db.isExpired env index key = true := lapsed
  have same : ((db.setData index
      ((db.data index).erase key)).notifyKeyspaceEvent env index
        (text "expired") key 120).isSome =
      (db.notifyKeyspaceEvent env index (text "expired") key 120).isSome := by
    rw [notifyKeyspaceEvent_isSome, notifyKeyspaceEvent_isSome]
    rfl
  rw [← same, getMut, if_pos expired, remove]
  simp only [expired, if_true]
  cases (db.setData index ((db.data index).erase key)).notifyKeyspaceEvent env
    index (text "expired") key 120 <;> rfl

end

end RedVector.Database
