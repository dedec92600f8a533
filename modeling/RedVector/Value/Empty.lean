import RedVector.Value.Value

/-!
# Values that stay

An update removes an empty value.  The methods that add to a value leave one
that is not empty.
-/

namespace RedVector.Value

open Util

variable [Platform]

theorem append_stays
    {value after : Value} {newvalue : Bytes} {length : Nat}
    (done : value.append newvalue = (.ok length, after)) :
    after.isEmpty = false := by
  cases value with
  | nil =>
      cases done
      rfl
  | string value =>
      cases done
      rfl
  | _ => cases done

theorem incr_stays
    {value after : Value} {increment number : Int}
    (done : value.incr increment = (.ok number, after)) :
    after.isEmpty = false := by
  cases value with
  | nil =>
      cases done
      rfl
  | string value =>
      unfold incr at done
      dsimp only at done
      split at done
      · cases done
        rfl
      · cases done
  | _ => cases done

theorem setrange_stays
    {value after : Value} {index length : Nat} {data : Bytes}
    (done : value.setrange index data = (.ok length, after)) :
    after.isEmpty = false := by
  cases value with
  | nil =>
      cases done
      rfl
  | string value =>
      cases done
      rfl
  | _ => cases done

theorem push_stays
    {value after : Value} {element : Bytes} {right : Bool} {length : Nat}
    (done : value.push element right = (.ok length, after)) :
    after.isEmpty = false := by
  have longer : ∀ elements : ValueList,
      (list (elements.push element right)).isEmpty = false := by
    intro elements
    unfold isEmpty ValueList.llen ValueList.push
    cases right with
    | true => simp
    | false => simp
  cases value with
  | nil =>
      cases done
      exact longer []
  | list elements =>
      cases done
      exact longer elements
  | _ => cases done

theorem sadd_stays
    {value after : Value} {element : Bytes} {limit : Nat} {added : Bool}
    (done : value.sadd element limit = (.ok added, after)) :
    after.isEmpty = false := by
  have holds : ∀ members : ValueSet,
      (set (members.sadd element limit).2).isEmpty = false := by
    intro members
    have positive : (members.sadd element limit).2.scard ≠ 0 := by
      unfold ValueSet.sadd
      cases members with
      | data elements => simp [ValueSet.scard]
      | integer numbers =>
          dsimp only
          split
          · split
            · simp [ValueSet.scard]
            · simp [ValueSet.scard]
          · simp [ValueSet.scard]
    simpa [isEmpty] using positive
  cases value with
  | nil =>
      cases done
      exact holds .new
  | set members =>
      cases done
      exact holds members
  | _ => cases done

theorem hset_stays
    {value after : Value} {field newvalue : Bytes} {created : Bool}
    (done : value.hset field newvalue = (.ok created, after)) :
    after.isEmpty = false := by
  have holds : ∀ fields : ValueHash,
      (hash (fields.hset field newvalue).2).isEmpty = false := by
    intro fields
    have member : field ∈ (fields.fields.insert field newvalue).keys := by
      rw [Finmap.mem_keys]
      exact Finmap.mem_insert.mpr (.inl rfl)
    have positive := Finset.card_ne_zero_of_mem member
    simpa [isEmpty, ValueHash.isEmpty, ValueHash.hset] using positive
  cases value with
  | nil =>
      cases done
      exact holds .new
  | hash fields =>
      cases done
      exact holds fields
  | _ => cases done

end RedVector.Value
