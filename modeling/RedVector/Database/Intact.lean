import RedVector.Database.Creation

/-!
# States that a command leaves intact

The live keys are the same with the same contents, and the only expirations
that may be gone are those of slots that were cleared because they held
nothing live.
-/

namespace RedVector.Database

open Util Effect

variable [Platform]

/-- Nothing that is live has changed, and no other expiration has, unless its
slot was cleared. -/
def Intact (env : Env) (before after : Database) : Prop :=
  ∀ slot, after.live env slot = before.live env slot ∧
    (after.expiration slot = before.expiration slot ∨
      after.value slot = none ∧ after.expiration slot = none)

section

variable {env : Env} {db between after : Database} {index : Nat}
  {key : Bytes} {slot : Slot} {value changed : Value}

theorem lapsed_of_no_expiration (absent : db.expiration slot = none) :
    db.lapsed env slot = false := by
  rw [lapsed_eq, absent]
  simp

/-- What is seen of a slot is what it holds, and it has not lapsed. -/
theorem visible_eq_some :
    db.visible env slot = some value ↔
      db.lapsed env slot = false ∧ db.value slot = some value := by
  unfold visible
  cases db.lapsed env slot with
  | true => simp
  | false => simp

theorem visible_eq_none :
    db.visible env slot = none ↔
      db.lapsed env slot = true ∨ db.value slot = none := by
  unfold visible
  cases db.lapsed env slot with
  | true => simp
  | false => simp

namespace Intact

theorem same_live (intact : Intact env db after) : SameLive env db after :=
  fun slot => (intact slot).1

theorem refl (env : Env) (db : Database) : Intact env db db :=
  fun _ => ⟨rfl, .inl rfl⟩

theorem kept (kept : Kept db after) : Intact env db after := by
  intro slot
  exact ⟨kept.live slot, .inl (congrFun kept.expiration slot)⟩

/-- The same data is as live as before. -/
theorem of_data (loading : after.loading = db.loading)
    (data : after.data = db.data)
    (expirations : after.dataExpirationMs = db.dataExpirationMs) :
    Intact env db after := by
  intro slot
  refine ⟨SameLive.of_data loading data expirations slot, .inl ?_⟩
  rw [expiration, expiration, expirations]

theorem trans (first : Intact env db between)
    (second : Intact env between after) : Intact env db after := by
  intro slot
  obtain ⟨firstLive, firstExpiration⟩ := first slot
  obtain ⟨secondLive, secondExpiration⟩ := second slot
  refine ⟨secondLive.trans firstLive, ?_⟩
  rcases secondExpiration with same | cleared
  · rcases firstExpiration with first | ⟨valueGone, expirationGone⟩
    · exact .inl (same.trans first)
    · have gone := same.trans expirationGone
      right
      refine ⟨?_, gone⟩
      rw [live_eq, live_eq, lapsed_of_no_expiration gone,
        lapsed_of_no_expiration expirationGone, valueGone] at secondLive
      simpa using secondLive
  · exact .inr cleared

theorem visible (intact : Intact env db after) (slot : Slot) :
    after.visible env slot = db.visible env slot := by
  rw [intact.same_live.visible]

end Intact

/-- A slot that gets what it has. -/
theorem Sets.same_intact
    (sets : Sets db after slot (db.value slot) (db.expiration slot)) :
    Intact env db after := by
  intro other
  refine ⟨sets.same_live other, .inl ?_⟩
  rw [sets.expiration]
  split
  · rename_i same
    rw [same]
  · rfl

/-- A slot without anything live may be cleared. -/
theorem Sets.cleared_intact (sets : Sets db after slot none none)
    (dead : db.visible env slot = none) : Intact env db after := by
  intro other
  by_cases same : other = slot
  · subst same
    refine ⟨?_, .inr ⟨sets.value_self, sets.expiration_self⟩⟩
    rw [live_eq, sets.value_self]
    unfold live
    rw [dead]
    simp
  · refine ⟨sets.live_other same, .inl ?_⟩
    rw [sets.expiration, if_neg same]

/-- A key with an expiration that was kept has not lapsed. -/
theorem kept_alive {before after : Database} {slot : Slot}
    (loading : after.loading = before.loading)
    (kept : after.expiration slot = before.keptExpiration env slot) :
    after.lapsed env slot = false := by
  unfold keptExpiration at kept
  cases lapsed : before.lapsed env slot with
  | true =>
      rw [lapsed, if_pos rfl] at kept
      exact lapsed_of_no_expiration kept
  | false =>
      rw [lapsed, if_neg Bool.false_ne_true] at kept
      rw [lapsed_congr loading kept, lapsed]

/-- A created slot is intact if the value that it is left with was live
before. -/
theorem Sets.created_iff
    (sets : Sets db after slot (some changed)
      (db.keptExpiration env slot)) :
    Intact env db after ↔ db.visible env slot = some changed := by
  have alive : after.lapsed env slot = false :=
    kept_alive sets.frame.loading sets.expiration_self
  constructor
  · intro intact
    rw [← intact.visible]
    exact visible_eq_some.mpr ⟨alive, sets.value_self⟩
  · intro live
    obtain ⟨notLapsed, stored⟩ := visible_eq_some.mp live
    have same : db.keptExpiration env slot = db.expiration slot := by
      unfold keptExpiration
      rw [notLapsed]
      rfl
    rw [same, ← stored] at sets
    exact sets.same_intact

/-- An update of the slot removes a value that is empty. -/
theorem Sets.updated_iff
    (sets : Sets db between (index, key) (some changed)
      (db.keptExpiration env (index, key)))
    (updated : between.keyUpdated env index key = some after) :
    Intact env db after ↔ db.visible env (index, key) =
      if changed.isEmpty then none else some changed := by
  obtain ⟨updates, -⟩ := keyUpdated_spec updated
  unfold surviving vanishing at updates
  rw [sets.value_self, sets.expiration_self] at updates
  have all := sets.trans updates
  cases empty : changed.isEmpty with
  | true =>
      rw [Option.any_some, empty, if_pos rfl, if_pos rfl] at all
      constructor
      · intro intact
        rw [← intact.visible]
        exact visible_eq_none.mpr (.inr all.value_self)
      · exact all.cleared_intact
  | false =>
      rw [Option.any_some, empty] at all
      exact all.created_iff

/-- What a slot holds is live unless it is empty. -/
def Solid (env : Env) (db : Database) (slot : Slot) : Prop :=
  ∀ value, db.value slot = some value →
    db.lapsed env slot = value.isEmpty

theorem solid_iff :
    (db.visible env slot =
        if ((db.value slot).getD .nil).isEmpty then none
        else some ((db.value slot).getD .nil)) ↔ Solid env db slot := by
  unfold Solid visible
  cases stored : db.value slot with
  | none => simp [Value.isEmpty]
  | some value =>
      cases lapsed : db.lapsed env slot with
      | true =>
          cases empty : value.isEmpty with
          | true => simp [empty]
          | false => simp [empty]
      | false =>
          cases empty : value.isEmpty with
          | true => simp [empty]
          | false => simp [empty]

theorem created_live_iff :
    db.visible env slot = some ((db.value slot).getD .nil) ↔
      db.visible env slot ≠ none := by
  constructor
  · intro live missing
    cases missing.symm.trans live
  · intro live
    obtain ⟨value, found⟩ := Option.ne_none_iff_exists'.mp live
    rw [found, (visible_eq_some.mp found).2]
    rfl

end

end RedVector.Database
