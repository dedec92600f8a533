import RedVector.Database.Effects

/-!
# Access times

When a key was last accessed is kept apart from its value.  An access writes
the stamp of its key and a removal erases it.
-/

namespace RedVector.Database

open Util Effect

variable [Platform]

/-- When a slot was last accessed, as far as that is known. -/
def stamp (db : Database) (slot : Slot) : Option Int :=
  (db.keyLru slot.1).lookup slot.2

@[simp] theorem stamp_withSent (db : Database) (sent : List Message) :
    (db.withSent sent).stamp = db.stamp :=
  rfl

theorem notifyKeyspaceEvent_stamp
    {env : Env} {db after : Database} {index : Nat} {eventType key : Bytes}
    {commandType : UInt8}
    (notified : db.notifyKeyspaceEvent env index eventType key commandType =
      some after) :
    after.stamp = db.stamp := by
  obtain ⟨sent, rfl⟩ := notifyKeyspaceEvent_sent notified
  rfl

/-- The bookkeeping of a removal does not write stamps. -/
private theorem forget_keyLru (db : Database) (result : Option Value)
    (key : Bytes) :
    (match result with
      | some value =>
          let size := estimateValueSize value key.length
          if size ≤ db.usedMemory then
            { db with usedMemory := db.usedMemory - size }
          else db
      | none => db).keyLru = db.keyLru := by
  cases result with
  | none => rfl
  | some value =>
      dsimp only
      split
      · rfl
      · rfl

/-- The stamp is erased after the bookkeeping. -/
private theorem erase_stamp {db between : Database}
    (same : between.keyLru = db.keyLru) (index : Nat) (key : Bytes)
    (expirations : HashMap Bytes Int) (slot : Slot) :
    let forgotten := between.setExpirations index expirations
    (forgotten.setLru index ((forgotten.keyLru index).erase key)).stamp slot =
      if slot = (index, key) then none else db.stamp slot := by
  have erased := lookup_update_erase db.keyLru slot index key
  rw [← same] at erased
  refine erased.trans ?_
  rw [same]
  rfl

theorem remove_stamp
    {env : Env} {db after : Database} {index : Nat} {key : Bytes}
    {result : Option Value}
    (removed : db.remove env index key = some (result, after))
    (slot : Slot) :
    after.stamp slot =
      if slot = (index, key) then none else db.stamp slot := by
  simp only [remove, Option.bind_eq_bind] at removed
  split at removed
  · obtain ⟨between, notified, removed⟩ := Option.bind_eq_some_iff.mp removed
    obtain ⟨sent, rfl⟩ := notifyKeyspaceEvent_sent notified
    cases removed
    exact erase_stamp rfl index key _ slot
  · cases removed
    exact erase_stamp (forget_keyLru _ _ key) index key _ slot

theorem updateLru_stamp (env : Env) (db : Database) (index : Nat)
    (key : Bytes) (slot : Slot) :
    (db.updateLru env index key).stamp slot =
      if db.usesLru = true ∧ slot = (index, key) then some env.now
      else db.stamp slot := by
  unfold updateLru
  by_cases lru : db.usesLru = true
  · rw [if_pos lru]
    refine Eq.trans
      (lookup_update_insert db.keyLru slot index key env.now) ?_
    simp only [lru, true_and]
    rfl
  · rw [if_neg lru, if_neg (fun both => lru both.1)]

theorem getMut_stamp
    {env : Env} {db after : Database} {index : Nat} {key : Bytes}
    {result : Option Value}
    (got : db.getMut env index key = some (result, after)) (slot : Slot) :
    after.stamp slot =
      if db.lapsed env (index, key) = true ∧ slot = (index, key) then none
      else if db.lapsed env (index, key) = false ∧ db.usesLru = true ∧
          slot = (index, key) then some env.now
      else db.stamp slot := by
  simp only [getMut, Option.bind_eq_bind] at got
  split at got
  · rename_i expired
    have expired : db.lapsed env (index, key) = true := expired
    obtain ⟨⟨removed, between⟩, removal, got⟩ :=
      Option.bind_eq_some_iff.mp got
    cases got
    rw [remove_stamp removal]
    simp [expired]
  · rename_i live
    have live : ¬db.lapsed env (index, key) = true := live
    cases got
    rw [updateLru_stamp]
    simp [live]

section

variable {env : Env} {db after : Database} {index : Nat} {key : Bytes}

theorem keyUpdated_stamp
    (updated : db.keyUpdated env index key = some after) (slot : Slot) :
    after.stamp slot =
      if db.vanishing (index, key) = true ∧ slot = (index, key) then none
      else db.stamp slot := by
  simp only [keyUpdated, Option.bind_eq_bind] at updated
  split at updated
  · rename_i vanishing
    have vanishing : db.vanishing (index, key) = true := vanishing
    obtain ⟨between, vanished, updated⟩ := Option.bind_eq_some_iff.mp updated
    obtain ⟨⟨_, _⟩, removed, rfl⟩ := Option.map_eq_some_iff.mp vanished
    cases updated
    have erased := remove_stamp removed slot
    simp only [vanishing, true_and]
    exact erased
  · rename_i staying
    have staying : ¬db.vanishing (index, key) = true := staying
    cases updated
    rw [if_neg (fun both => staying both.1)]
    rfl

theorem setMsexpiration_stamp {time : Int}
    (set : db.setMsexpiration env index key time = some after)
    (slot : Slot) :
    after.stamp slot =
      if db.vanishing (index, key) = true ∧ slot = (index, key) then none
      else db.stamp slot := by
  simp only [setMsexpiration, Option.bind_eq_bind] at set
  obtain ⟨between, updated, set⟩ := Option.bind_eq_some_iff.mp set
  cases set
  exact keyUpdated_stamp updated slot

/-- Clearing erases no stamp. -/
theorem clearWatched_stamp {keys : List Bytes}
    (cleared : clearWatched env index keys db = some after) :
    after.stamp = db.stamp := by
  induction keys generalizing db with
  | nil =>
      cases cleared
      rfl
  | cons key rest ih =>
      simp only [clearWatched, Option.bind_eq_bind] at cleared
      split at cleared
      · obtain ⟨between, updated, cleared⟩ :=
          Option.bind_eq_some_iff.mp cleared
        have gone := not_vanishing_erased db index key
        rw [ih cleared]
        funext slot
        rw [keyUpdated_stamp updated, gone]
        simp
        rfl
      · rw [ih cleared]
        rfl

theorem clear_stamp (cleared : db.clear env index = some after) :
    after.stamp = db.stamp := by
  simp only [clear, Option.bind_eq_bind] at cleared
  obtain ⟨between, watched, cleared⟩ := Option.bind_eq_some_iff.mp cleared
  cases cleared
  have same : between.stamp = db.stamp := clearWatched_stamp watched
  exact same

theorem clearall_stamp (cleared : db.clearall env = some after) :
    after.stamp = db.stamp := by
  have each : ∀ {indexes : List Nat} {db : Database},
      indexes.foldlM (fun db index => db.clear env index) db = some after →
      after.stamp = db.stamp := by
    intro indexes
    induction indexes with
    | nil =>
        intro db cleared
        cases cleared
        rfl
    | cons index rest ih =>
        intro db cleared
        simp only [List.foldlM_cons, Option.bind_eq_bind] at cleared
        obtain ⟨between, one, others⟩ := Option.bind_eq_some_iff.mp cleared
        exact (ih others).trans (clear_stamp one)
  exact each cleared

end

end RedVector.Database
