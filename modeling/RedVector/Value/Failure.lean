import RedVector.Value.Value

/-!
# Methods that fail

A method that answers with an error should leave the value as it was.
-/

namespace RedVector.Value

open Util

variable [Platform]

/-- A method that leaves the value alone when it fails. -/
def Atomic {α : Type} (method : Value → Option (Change α)) : Prop :=
  ∀ value error after, method value = some (.error error, after) →
    after = value

/-- A method that succeeds or leaves each value alone. -/
theorem atomic_of_each
    {α : Type} {method : Value → Change α}
    (each : ∀ value, (∃ answer, (method value).1 = .ok answer) ∨
      (method value).2 = value) :
    Atomic fun value => some (method value) := by
  intro value error after failed
  have failed := Option.some.inj failed
  rcases each value with ⟨answer, succeeds⟩ | same
  · rw [failed] at succeeds
    cases succeeds
  · rw [failed] at same
    exact same

/-! ## Strings -/

/-- What has a length can be appended to. -/
theorem append_of_strlen
    {value : Value} {length : Nat} (measured : value.strlen = .ok length)
    (newvalue : Bytes) :
    ∃ result, (value.append newvalue).1 = .ok result := by
  cases value with
  | nil => exact ⟨_, rfl⟩
  | string value => exact ⟨_, rfl⟩
  | _ => cases measured

theorem incr_atomic (increment : Int) :
    Atomic fun value => some (value.incr increment) := by
  apply atomic_of_each
  intro value
  cases value with
  | nil => exact .inl ⟨_, rfl⟩
  | string value =>
      unfold incr
      dsimp only
      split
      · exact .inl ⟨_, rfl⟩
      · exact .inr rfl
  | _ => exact .inr rfl

theorem incrbyfloat_atomic (increment : F64) :
    Atomic fun value => some (value.incrbyfloat increment) := by
  apply atomic_of_each
  intro value
  cases value with
  | nil => exact .inl ⟨_, rfl⟩
  | string value =>
      unfold incrbyfloat
      dsimp only
      split
      · exact .inl ⟨_, rfl⟩
      · exact .inr rfl
  | _ => exact .inr rfl

theorem setrange_atomic (index : Nat) (data : Bytes) :
    Atomic fun value => some (value.setrange index data) := by
  apply atomic_of_each
  intro value
  cases value with
  | nil => exact .inl ⟨_, rfl⟩
  | string value => exact .inl ⟨_, rfl⟩
  | _ => exact .inr rfl

theorem setbit_atomic (bitoffset : Nat) (on : Bool) :
    Atomic fun value => some (value.setbit bitoffset on) := by
  apply atomic_of_each
  intro value
  cases value with
  | nil => exact .inl ⟨_, rfl⟩
  | string value => exact .inl ⟨_, rfl⟩
  | _ => exact .inr rfl

theorem pfadd_atomic (data : List Bytes) :
    Atomic fun value => value.pfadd data := by
  intro value error after failed
  cases value with
  | nil =>
      obtain ⟨_, _, failed⟩ := Option.bind_eq_some_iff.mp failed
      cases failed
  | string value =>
      obtain ⟨_, _, failed⟩ := Option.bind_eq_some_iff.mp failed
      cases failed
  | _ =>
      cases failed
      rfl

theorem pfmerge_atomic (values : List Value) :
    Atomic fun value => pfmerge values value := by
  intro value error after failed
  dsimp only at failed
  unfold pfmerge at failed
  split at failed
  · cases failed
    rfl
  · cases failed
  · split at failed
    · obtain ⟨_, _, failed⟩ := Option.bind_eq_some_iff.mp failed
      cases failed
    · obtain ⟨_, _, failed⟩ := Option.bind_eq_some_iff.mp failed
      cases failed
    · cases failed
      rfl

/-! ## Bloom filters -/

theorem bfReserve_atomic (errorRate : F64) (capacity : Nat) :
    Atomic fun value => some (value.bfReserve errorRate capacity) := by
  apply atomic_of_each
  intro value
  cases value with
  | nil =>
      unfold bfReserve
      dsimp only
      split
      · exact .inl ⟨_, rfl⟩
      · exact .inr rfl
  | _ => exact .inr rfl

theorem bfAdd_atomic (item : Bytes) :
    Atomic fun value => some (value.bfAdd item) := by
  apply atomic_of_each
  intro value
  cases value with
  | nil => exact .inl ⟨_, rfl⟩
  | bloom value => exact .inl ⟨_, rfl⟩
  | _ => exact .inr rfl

/-! ## Lists -/

theorem push_atomic (element : Bytes) (right : Bool) :
    Atomic fun value => some (value.push element right) := by
  apply atomic_of_each
  intro value
  cases value with
  | nil => exact .inl ⟨_, rfl⟩
  | list value => exact .inl ⟨_, rfl⟩
  | _ => exact .inr rfl

theorem pop_atomic (right : Bool) :
    Atomic fun value => some (value.pop right) := by
  apply atomic_of_each
  intro value
  cases value with
  | nil => exact .inl ⟨_, rfl⟩
  | list value => exact .inl ⟨_, rfl⟩
  | _ => exact .inr rfl

theorem linsert_atomic (before : Bool) (pivot newvalue : Bytes) :
    Atomic fun value => some (value.linsert before pivot newvalue) := by
  apply atomic_of_each
  intro value
  cases value with
  | nil => exact .inl ⟨_, rfl⟩
  | list value =>
      unfold linsert
      dsimp only
      split
      · exact .inl ⟨_, rfl⟩
      · exact .inl ⟨_, rfl⟩
  | _ => exact .inr rfl

theorem lrem_atomic (left : Bool) (limit : Nat) (element : Bytes) :
    Atomic fun value => some (value.lrem left limit element) := by
  apply atomic_of_each
  intro value
  cases value with
  | nil => exact .inl ⟨_, rfl⟩
  | list value => exact .inl ⟨_, rfl⟩
  | _ => exact .inr rfl

theorem lset_atomic (index : Int) (newvalue : Bytes) :
    Atomic fun value => some (value.lset index newvalue) := by
  apply atomic_of_each
  intro value
  cases value with
  | list value =>
      unfold lset
      dsimp only
      split
      · exact .inl ⟨_, rfl⟩
      · exact .inr rfl
  | _ => exact .inr rfl

theorem ltrim_atomic (start stop : Int) :
    Atomic fun value => value.ltrim start stop := by
  intro value error after failed
  cases value with
  | list value =>
      obtain ⟨_, _, failed⟩ := Option.bind_eq_some_iff.mp failed
      cases failed
  | _ =>
      cases failed
      rfl

/-! ## Sets -/

theorem sadd_atomic (element : Bytes) (limit : Nat) :
    Atomic fun value => some (value.sadd element limit) := by
  apply atomic_of_each
  intro value
  cases value with
  | nil => exact .inl ⟨_, rfl⟩
  | set value => exact .inl ⟨_, rfl⟩
  | _ => exact .inr rfl

theorem srem_atomic (element : Bytes) :
    Atomic fun value => some (value.srem element) := by
  apply atomic_of_each
  intro value
  cases value with
  | nil => exact .inl ⟨_, rfl⟩
  | set value => exact .inl ⟨_, rfl⟩
  | _ => exact .inr rfl

/-! ## Hashes -/

theorem hset_atomic (field newvalue : Bytes) :
    Atomic fun value => some (value.hset field newvalue) := by
  apply atomic_of_each
  intro value
  cases value with
  | nil => exact .inl ⟨_, rfl⟩
  | hash value => exact .inl ⟨_, rfl⟩
  | _ => exact .inr rfl

theorem hdel_atomic (fields : List Bytes) :
    Atomic fun value => some (value.hdel fields) := by
  apply atomic_of_each
  intro value
  cases value with
  | nil => exact .inl ⟨_, rfl⟩
  | hash value => exact .inl ⟨_, rfl⟩
  | _ => exact .inr rfl

theorem hincrby_atomic (field : Bytes) (increment : Int) :
    Atomic fun value => some (value.hincrby field increment) := by
  apply atomic_of_each
  intro value
  cases value with
  | nil =>
      unfold hincrby
      dsimp only
      split
      · exact .inl ⟨_, rfl⟩
      · exact .inr rfl
  | hash value =>
      unfold hincrby
      dsimp only
      split
      · exact .inl ⟨_, rfl⟩
      · exact .inr rfl
  | _ => exact .inr rfl

theorem hincrbyfloat_atomic (field : Bytes) (increment : F64) :
    Atomic fun value => some (value.hincrbyfloat field increment) := by
  apply atomic_of_each
  intro value
  cases value with
  | nil =>
      unfold hincrbyfloat
      dsimp only
      split
      · exact .inl ⟨_, rfl⟩
      · exact .inr rfl
  | hash value =>
      unfold hincrbyfloat
      dsimp only
      split
      · exact .inl ⟨_, rfl⟩
      · exact .inr rfl
  | _ => exact .inr rfl

/-! ## Sorted sets -/

theorem zrem_atomic (member : Bytes) :
    Atomic fun value => some (value.zrem member) := by
  apply atomic_of_each
  intro value
  cases value with
  | nil => exact .inl ⟨_, rfl⟩
  | sortedSet value => exact .inl ⟨_, rfl⟩
  | _ => exact .inr rfl

theorem zadd_atomic (s : F64) (element : Bytes) (nx xx ch incr : Bool) :
    Atomic fun value => some (value.zadd s element nx xx ch incr) := by
  apply atomic_of_each
  intro value
  cases value with
  | nil =>
      unfold zadd
      dsimp only
      split
      · exact .inl ⟨_, rfl⟩
      · split
        · exact .inl ⟨_, rfl⟩
        · exact .inr rfl
  | sortedSet value =>
      unfold zadd
      dsimp only
      split
      · exact .inl ⟨_, rfl⟩
      · exact .inr rfl
  | _ => exact .inr rfl

private theorem removedRange_atomic
    (remove : ValueSortedSet → Option (Nat × ValueSortedSet)) :
    Atomic fun value => value.removedRange remove := by
  intro value error after failed
  dsimp only at failed
  unfold removedRange at failed
  split at failed
  · cases failed
  · obtain ⟨_, _, failed⟩ := Option.bind_eq_some_iff.mp failed
    cases failed
  · cases failed
    rfl

theorem zremrangebyscore_atomic (min max : Bound F64) :
    Atomic fun value => value.zremrangebyscore min max :=
  removedRange_atomic _

theorem zremrangebylex_atomic (min max : Bound Bytes) :
    Atomic fun value => value.zremrangebylex min max :=
  removedRange_atomic _

theorem zremrangebyrank_atomic (start stop : Int) :
    Atomic fun value => value.zremrangebyrank start stop :=
  removedRange_atomic _

end RedVector.Value
