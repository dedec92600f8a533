import RedVector.Database.Creation

/-!
# Keys that something rests on

Some keys should stay for good: stored, and without an expiration.  For each
operation, when exactly it leaves them so.
-/

namespace RedVector.Database

open Util Effect

variable [Platform]

/-- These slots are stored and will not expire. -/
def Lasting (slots : Slot → Prop) (db : Database) : Prop :=
  ∀ slot, slots slot → db.value slot ≠ none ∧ db.expiration slot = none

/-- No room is made for a key with one of these slots. -/
def EvictsOthers (slots : Slot → Prop) (env : Env) (db : Database)
    (index : Nat) (key : Bytes) : Prop :=
  db.value (index, key) = none → ∀ done after,
    (db.forgotten env index key).evictKeys env index
      (estimateValueSize .nil key.length) = some (done, after) →
    ∀ slot, slots slot → after.value slot ≠ none

/-- An operation that neither removes one of these slots, nor lets it expire,
nor finds it empty after an update. -/
def Spares (slots : Slot → Prop) (env : Env) (db : Database) : WriteOp → Prop
  | .getOrCreate index key => EvictsOthers slots env db index key
  | .remove index key => ¬slots (index, key)
  | .setMsexpiration index key _ => ¬slots (index, key)
  | .clear index => ∀ slot, slots slot → slot.1 ≠ index
  | .clearall => ∀ slot, slots slot → db.config.databases ≤ slot.1
  | .keyUpdated index key =>
      slots (index, key) → db.vanishing (index, key) = false
  | _ => True

section

variable {slots : Slot → Prop} {env : Env} {db after : Database}
  {index : Nat} {key : Bytes}

namespace Lasting

theorem congr (lasting : Lasting slots db) (value : after.value = db.value)
    (expiration : after.expiration = db.expiration) : Lasting slots after := by
  intro slot member
  rw [value, expiration]
  exact lasting slot member

/-- It depends on the one slot that is written. -/
theorem sets_iff (lasting : Lasting slots db) {slot : Slot}
    {value : Option Value} {expiration : Option Int}
    (sets : Sets db after slot value expiration) :
    Lasting slots after ↔
      (slots slot → value ≠ none ∧ expiration = none) := by
  constructor
  · intro lastingAfter member
    have there := lastingAfter slot member
    rwa [sets.value_self, sets.expiration_self] at there
  · intro kept other member
    rw [sets.value, sets.expiration]
    split
    · rename_i same
      exact kept (same ▸ member)
    · exact lasting other member

/-- No such slot ever lapses. -/
theorem alive (lasting : Lasting slots db) {slot : Slot} (member : slots slot)
    (env : Env) : db.lapsed env slot = false := by
  rw [lapsed_eq, (lasting slot member).2]
  simp

theorem get (lasting : Lasting slots db) (member : slots (index, key))
    (env : Env) : (db.get env index key).isSome := by
  rw [get_eq_visible, visible, lasting.alive member env]
  exact Option.isSome_iff_ne_none.mpr (lasting (index, key) member).1

theorem clears_iff (lasting : Lasting slots db) {scope : List Nat}
    (clears : Clears db after scope) :
    Lasting slots after ↔ ∀ slot, slots slot → slot.1 ∉ scope := by
  constructor
  · intro lastingAfter slot member inside
    exact (lastingAfter slot member).1 (clears.inside slot inside).1
  · intro outside slot member
    obtain ⟨value, expiration⟩ := clears.outside slot (outside slot member)
    rw [value, expiration]
    exact lasting slot member

/-- Only evictions for a new key concern other slots. -/
theorem getOrCreate_iff (lasting : Lasting slots db) {value : Value}
    (created : db.getOrCreate env index key = some (value, after)) :
    Lasting slots after ↔ EvictsOthers slots env db index key := by
  obtain ⟨middle, -, sets, -, how⟩ := getOrCreate_cases created
  have forgets : Lasting slots (db.forgotten env index key) := by
    apply (lasting.sets_iff (forgotten_sets env db index key).1).mpr
    intro member
    refine ⟨(lasting _ member).1, ?_⟩
    rw [keptExpiration, lasting.alive member env]
    exact (lasting _ member).2
  rcases how with ⟨stored, rfl⟩ | ⟨absent, done, evicted⟩
  · constructor
    · exact fun _ absent => absurd absent stored
    · intro _
      apply (forgets.sets_iff sets).mpr
      exact fun member => ⟨Option.some_ne_none value, (forgets _ member).2⟩
  · have others : ∀ slot, slots slot → slot ≠ (index, key) :=
      fun slot member same => (lasting slot member).1 (same ▸ absent)
    have evicts := evictKeys_spec evicted
    constructor
    · intro lastingAfter _ again between same slot member
      cases evicted.symm.trans same
      have there := (lastingAfter slot member).1
      rwa [sets.value, if_neg (others slot member)] at there
    · intro spares slot member
      rw [sets.value, sets.expiration, if_neg (others slot member),
        if_neg (others slot member)]
      have kept := spares absent done middle evicted slot member
      rcases evicts.removes slot with ⟨value, expiration⟩ | ⟨gone, -⟩
      · exact ⟨kept, expiration.trans (forgets slot member).2⟩
      · exact absurd gone kept

end Lasting

/-- Where these slots are stored without an expiration, an operation leaves
them so exactly if it spares them. -/
theorem perform_lasting_iff {op : WriteOp} {answer : op.Ret}
    (lasting : Lasting slots db)
    (performed : db.perform env op = some (answer, after)) :
    Lasting slots after ↔ Spares slots env db op := by
  have always : ∀ {spares : Prop}, Lasting slots after → spares →
      (Lasting slots after ↔ spares) :=
    fun holds spares => ⟨fun _ => spares, fun _ => holds⟩
  cases op with
  | read op =>
      obtain ⟨_, -, same⟩ := Option.map_eq_some_iff.mp performed
      cases same
      exact always lasting trivial
  | getMut index key =>
      have spec := (getMut_spec (checked_eq_some.mp performed).2).2
      refine always ?_ trivial
      split at spec
      · rename_i lapsed
        apply (lasting.sets_iff spec.1).mpr
        intro member
        rw [lasting.alive member env] at lapsed
        cases lapsed
      · exact lasting.congr spec.value spec.expiration
  | getOrCreate index key =>
      exact lasting.getOrCreate_iff (checked_eq_some.mp performed).2
  | put index key value =>
      cases (checked_eq_some.mp performed).2
      refine always ?_ trivial
      apply (lasting.sets_iff (put_sets db index key value)).mpr
      exact fun member => ⟨Option.some_ne_none value, (lasting _ member).2⟩
  | remove index key =>
      have removed := (checked_eq_some.mp performed).2
      rw [lasting.sets_iff (remove_spec removed).2.1]
      simp [Spares]
  | setMsexpiration index key msexpiration =>
      have set := silently_eq_some.mp (checked_eq_some.mp performed).2
      rw [lasting.sets_iff (setMsexpiration_spec set).1]
      simp [Spares]
  | removeMsexpiration index key =>
      cases (checked_eq_some.mp performed).2
      refine always ?_ trivial
      apply (lasting.sets_iff (removeMsexpiration_sets db index key)).mpr
      exact fun member => ⟨(lasting _ member).1, rfl⟩
  | clear index =>
      have cleared := silently_eq_some.mp (checked_eq_some.mp performed).2
      rw [lasting.clears_iff (clear_spec cleared)]
      simp only [Spares, List.mem_singleton, ne_eq]
  | clearall =>
      have cleared := silently_eq_some.mp performed
      rw [lasting.clears_iff (clearall_spec cleared)]
      simp only [Spares, List.mem_range, Nat.not_lt]
  | keyUpdated index key =>
      have updated := silently_eq_some.mp (checked_eq_some.mp performed).2
      rw [lasting.sets_iff (keyUpdated_spec updated).1]
      unfold surviving Spares
      constructor
      · intro kept member
        by_contra vanishing
        simp [vanishing] at kept
        exact kept member
      · intro nonempty member
        rw [nonempty member]
        exact lasting _ member
  | notifyKeyspaceEvent index eventType key commandType =>
      have notified := silently_eq_some.mp performed
      obtain ⟨sent, rfl⟩ := notifyKeyspaceEvent_sent notified
      exact always (lasting.congr rfl rfl) trivial
  | channel =>
      cases performed
      exact always lasting trivial
  | keySubscribe index key mailbox =>
      cases (checked_eq_some.mp performed).2
      exact always (lasting.congr rfl rfl) trivial

end

end RedVector.Database
