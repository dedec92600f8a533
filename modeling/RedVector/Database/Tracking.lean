import RedVector.Database.Eviction

/-!
# Stamps of stored keys

Access times should be kept of stored keys only.  For each operation, when
exactly it keeps to that.
-/

namespace RedVector.Database

open Util Effect

variable [Platform]

/-- Only stored keys have a stamp. -/
def Tracks (db : Database) : Prop :=
  ∀ slot, db.stamp slot ≠ none → db.value slot ≠ none

/-- An operation that stamps no key that is not stored and leaves no stamp of
a key that it removes. -/
def Tidy (env : Env) (db : Database) : WriteOp → Prop
  | .getMut index key => db.usesLru = false ∨
      db.lapsed env (index, key) = true ∨ db.value (index, key) ≠ none
  | .clear index => ∀ slot, slot.1 = index → db.stamp slot = none
  | .clearall => ∀ slot, slot.1 < db.config.databases → db.stamp slot = none
  | _ => True

theorem tracks_new (config : Config) (aof : Option Bytes) :
    Tracks (.new config aof) := by
  intro slot stamped
  exact absurd rfl stamped

section

variable {env : Env} {db after : Database} {index : Nat} {key : Bytes}

namespace Tracks

/-- Each slot is as it was, or it has no stamp, or it is stored. -/
theorem step (tracks : Tracks db)
    (each : ∀ slot, after.value slot = db.value slot ∧
        after.stamp slot = db.stamp slot ∨
      after.stamp slot = none ∨ after.value slot ≠ none) :
    Tracks after := by
  intro slot stamped
  rcases each slot with ⟨value, stamp⟩ | unstamped | stored
  · rw [value]
    rw [stamp] at stamped
    exact tracks slot stamped
  · exact absurd unstamped stamped
  · exact stored

theorem congr (tracks : Tracks db) (value : after.value = db.value)
    (stamp : after.stamp = db.stamp) : Tracks after :=
  tracks.step fun _ => .inl ⟨by rw [value], by rw [stamp]⟩

theorem remove (tracks : Tracks db) {result : Option Value}
    (removed : db.remove env index key = some (result, after)) :
    Tracks after := by
  obtain ⟨-, sets, -⟩ := remove_spec removed
  apply tracks.step
  intro slot
  rw [sets.value, remove_stamp removed]
  split
  · exact .inr (.inl rfl)
  · exact .inl ⟨rfl, rfl⟩

theorem put (tracks : Tracks db) (value : Value) :
    Tracks (db.put index key value) := by
  apply tracks.step
  intro slot
  rw [(put_sets db index key value).value]
  split
  · exact .inr (.inr (Option.some_ne_none value))
  · exact .inl ⟨rfl, rfl⟩

theorem updateLru (tracks : Tracks db) (stored : db.value (index, key) ≠ none) :
    Tracks (db.updateLru env index key) := by
  apply tracks.step
  intro slot
  have kept := updateLru_kept env db index key
  rw [kept.value, updateLru_stamp]
  split
  · rename_i here
    rw [here.2]
    exact .inr (.inr stored)
  · exact .inl ⟨rfl, rfl⟩

/-- An update that removes an empty value erases its stamp. -/
theorem update (tracks : Tracks db)
    (value : ∀ slot, after.value slot = if slot = (index, key) then
      db.surviving (index, key) (db.value (index, key)) else db.value slot)
    (stamp : ∀ slot, after.stamp slot =
      if db.vanishing (index, key) = true ∧ slot = (index, key) then none
      else db.stamp slot) : Tracks after := by
  apply tracks.step
  intro slot
  rw [value, stamp]
  by_cases here : slot = (index, key)
  · subst here
    unfold surviving
    by_cases vanishing : db.vanishing (index, key) = true
    · exact .inr (.inl (if_pos ⟨vanishing, rfl⟩))
    · simp [vanishing]
  · simp [here]

theorem evictKeys (tracks : Tracks db) {needed : Nat} {done : Bool}
    (evicted : db.evictKeys env index needed = some (done, after)) :
    Tracks after := by
  unfold Database.evictKeys at evicted
  split at evicted
  · cases evicted
    exact tracks
  · obtain ⟨keys, last, rounds, -⟩ := evictLoop_rounds evicted
    have left := rounds_evicted rounds
    apply tracks.step
    intro slot
    rw [left.value, left.stamp]
    split
    · exact .inr (.inl rfl)
    · exact .inl ⟨rfl, rfl⟩

theorem getOrCreate (tracks : Tracks db) {value : Value}
    (created : db.getOrCreate env index key = some (value, after)) :
    Tracks after := by
  have forgets : Tracks (db.forgotten env index key) := by
    unfold forgotten
    split
    · exact tracks.congr rfl rfl
    · exact tracks
  cases getOrCreate_creation created with
  | stored found =>
      apply forgets.updateLru
      rw [(forgotten_sets env db index key).1.value_self, found]
      exact Option.some_ne_none value
  | @counted done middle absent evicted fits =>
      have puts : Tracks (middle.put index key .nil) :=
        (forgets.evictKeys evicted).put .nil
      refine updateLru (puts.congr rfl rfl) ?_
      change (middle.put index key .nil).value (index, key) ≠ none
      rw [(put_sets middle index key .nil).value_self]
      exact nofun
  | @refused middle absent evicted short =>
      exact (forgets.evictKeys evicted).put .nil

end Tracks

/-- A lookup for writing is tidy or leaves a stamp of a key that is not
stored. -/
theorem getMut_tracks_iff {result : Option Value} (tracks : Tracks db)
    (got : db.getMut env index key = some (result, after)) :
    Tracks after ↔ Tidy env db (.getMut index key) := by
  obtain ⟨-, spec⟩ := getMut_spec got
  have stamps := getMut_stamp got
  split at spec
  · rename_i lapsed
    obtain ⟨sets, -⟩ := spec
    refine ⟨fun _ => .inr (.inl lapsed), fun _ => tracks.step ?_⟩
    intro slot
    rw [sets.value, stamps]
    by_cases here : slot = (index, key)
    · exact .inr (.inl (by simp [lapsed, here]))
    · exact .inl (by simp [here])
  · rename_i alive
    have alive : db.lapsed env (index, key) = false := by simpa using alive
    constructor
    · intro tracksAfter
      by_cases lru : db.usesLru = true
      · refine .inr (.inr ?_)
        rw [← spec.value]
        apply tracksAfter
        rw [stamps]
        simp [alive, lru]
      · exact .inl (by simpa using lru)
    · intro tidy
      apply tracks.step
      intro slot
      rw [spec.value, stamps]
      by_cases here : slot = (index, key)
      · subst here
        rcases tidy with unused | lapsed | stored
        · exact .inl (by simp [alive, unused])
        · cases alive.symm.trans lapsed
        · exact .inr (.inr stored)
      · exact .inl (by simp [here])

/-- Clearing databases is tidy or leaves the stamps of their keys. -/
theorem clears_tracks_iff {scope : List Nat} (tracks : Tracks db)
    (clears : Clears db after scope) (stamp : after.stamp = db.stamp) :
    Tracks after ↔ ∀ slot, slot.1 ∈ scope → db.stamp slot = none := by
  constructor
  · intro tracksAfter slot inside
    by_contra stamped
    rw [← stamp] at stamped
    exact tracksAfter slot stamped (clears.inside slot inside).1
  · intro unstamped
    apply tracks.step
    intro slot
    rw [stamp]
    by_cases inside : slot.1 ∈ scope
    · exact .inr (.inl (unstamped slot inside))
    · exact .inl ⟨(clears.outside slot inside).1, rfl⟩

/-- Where only stored keys have stamps, an operation keeps to that exactly if
it is tidy. -/
theorem perform_tracks_iff {op : WriteOp} {answer : op.Ret}
    (tracks : Tracks db)
    (performed : db.perform env op = some (answer, after)) :
    Tracks after ↔ Tidy env db op := by
  have always : ∀ {tidy : Prop}, Tracks after → tidy →
      (Tracks after ↔ tidy) :=
    fun holds tidy => ⟨fun _ => tidy, fun _ => holds⟩
  cases op with
  | read op =>
      obtain ⟨_, -, same⟩ := Option.map_eq_some_iff.mp performed
      cases same
      exact always tracks trivial
  | getMut index key =>
      exact getMut_tracks_iff tracks (checked_eq_some.mp performed).2
  | getOrCreate index key =>
      have created := (checked_eq_some.mp performed).2
      exact always (tracks.getOrCreate created) trivial
  | put index key value =>
      cases (checked_eq_some.mp performed).2
      exact always (tracks.put value) trivial
  | remove index key =>
      have removed := (checked_eq_some.mp performed).2
      exact always (tracks.remove removed) trivial
  | setMsexpiration index key msexpiration =>
      have set := silently_eq_some.mp (checked_eq_some.mp performed).2
      exact always (tracks.update (setMsexpiration_spec set).1.value
        (setMsexpiration_stamp set)) trivial
  | removeMsexpiration index key =>
      cases (checked_eq_some.mp performed).2
      exact always (tracks.congr rfl rfl) trivial
  | clear index =>
      have cleared := silently_eq_some.mp (checked_eq_some.mp performed).2
      rw [clears_tracks_iff tracks (clear_spec cleared) (clear_stamp cleared)]
      simp only [Tidy, List.mem_singleton]
  | clearall =>
      have cleared := silently_eq_some.mp performed
      rw [clears_tracks_iff tracks (clearall_spec cleared)
        (clearall_stamp cleared)]
      simp only [Tidy, List.mem_range]
  | keyUpdated index key =>
      have updated := silently_eq_some.mp (checked_eq_some.mp performed).2
      exact always (tracks.update (keyUpdated_spec updated).1.value
        (keyUpdated_stamp updated)) trivial
  | notifyKeyspaceEvent index eventType key commandType =>
      have notified := silently_eq_some.mp performed
      obtain ⟨sent, rfl⟩ := notifyKeyspaceEvent_sent notified
      exact always (tracks.congr rfl rfl) trivial
  | channel =>
      cases performed
      exact always tracks trivial
  | keySubscribe index key mailbox =>
      cases (checked_eq_some.mp performed).2
      exact always (tracks.congr rfl rfl) trivial

end

end RedVector.Database
