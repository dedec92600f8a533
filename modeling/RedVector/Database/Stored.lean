import RedVector.Database.Creation

/-!
# What all stored values have in common

A condition on values that holds of every value of a database, whatever
becomes of single slots.
-/

namespace RedVector.Database

open Util Effect

variable [Platform]

/-- Every stored value satisfies a condition. -/
def Stored (holds : Value → Prop) (db : Database) : Prop :=
  ∀ slot value, db.value slot = some value → holds value

/-- Every stored value outside of a slot satisfies a condition. -/
def StoredBut (holds : Value → Prop) (slot : Slot) (db : Database) : Prop :=
  ∀ other value, other ≠ slot → db.value other = some value → holds value

section

variable {holds : Value → Prop} {env : Env} {db after : Database}
  {index : Nat} {key : Bytes} {slot : Slot}

theorem stored_new (holds : Value → Prop) (config : Config)
    (aof : Option Bytes) : Stored holds (.new config aof) := by
  intro slot value held
  cases held

namespace Stored

/-- Values stay or go. -/
theorem shrinks (stored : Stored holds db)
    (shrinks : ∀ other, after.value other = db.value other ∨
      after.value other = none) : Stored holds after := by
  intro other value held
  rcases shrinks other with same | gone
  · exact stored other value (same.symm.trans held)
  · cases gone.symm.trans held

theorem kept (stored : Stored holds db) (same : Kept db after) :
    Stored holds after :=
  stored.shrinks fun _ => .inl (by rw [same.value])

theorem getMut (stored : Stored holds db) {result : Option Value}
    (got : db.getMut env index key = some (result, after)) :
    Stored holds after := by
  obtain ⟨-, spec⟩ := getMut_spec got
  split at spec
  · apply stored.shrinks
    intro other
    rw [spec.1.value]
    split
    · exact .inr rfl
    · exact .inl rfl
  · exact stored.kept spec

theorem visible (stored : Stored holds db) {value : Value}
    (found : db.visible env slot = some value) : holds value := by
  unfold Database.visible at found
  split at found
  · cases found
  · exact stored slot value found

theorem but (stored : Stored holds db) : StoredBut holds slot db :=
  fun other value _ held => stored other value held

theorem creates (stored : Stored holds db) {value : Value}
    (creates : Creates env db after slot value) :
    StoredBut holds slot after := by
  intro other held different isHeld
  rcases creates.others other different with same | gone
  · exact stored other held (same.1.symm.trans isHeld)
  · cases gone.1.symm.trans isHeld

theorem getD (stored : Stored holds db) (nil : holds .nil) (slot : Slot) :
    holds ((db.value slot).getD .nil) := by
  cases held : db.value slot with
  | none => exact nil
  | some value => exact stored slot value held

end Stored

namespace StoredBut

theorem put (stored : StoredBut holds (index, key) db) (value : Value) :
    StoredBut holds (index, key) (db.put index key value) := by
  intro other held different isHeld
  rw [(put_sets db index key value).value, if_neg different] at isHeld
  exact stored other held different isHeld

/-- The slot that was left out satisfies the condition, too. -/
theorem all (stored : StoredBut holds slot db) {value : Value}
    (held : db.value slot = some value) (isHeld : holds value) :
    Stored holds db := by
  intro other found isFound
  by_cases same : other = slot
  · subst same
    cases held.symm.trans isFound
    exact isHeld
  · exact stored other found same isFound

/-- An update of the slot removes an empty value. -/
theorem keyUpdated (stored : StoredBut holds (index, key) db) {value : Value}
    (held : db.value (index, key) = some value)
    (isHeld : value.isEmpty = false → holds value)
    (updated : db.keyUpdated env index key = some after) :
    Stored holds after := by
  obtain ⟨updates, -⟩ := keyUpdated_spec updated
  intro other found isFound
  rw [updates.value] at isFound
  split at isFound
  · rename_i same
    unfold surviving vanishing at isFound
    rw [held] at isFound
    split at isFound
    · cases isFound
    · rename_i stays
      cases isFound
      exact isHeld (by simpa using stays)
  · rename_i different
    exact stored other found different isFound

end StoredBut

end

end RedVector.Database
