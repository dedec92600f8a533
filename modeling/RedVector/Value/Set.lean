import Mathlib.Data.Finset.Card
import Mathlib.Data.Finset.Union
import RedVector.Platform
import RedVector.Value.Error

/-!
# Set values

A set keeps numbers while every member is one and the set is small.  The
order in which the source iterates over a hash set is not a property of the
set: operations whose result depends on it take the members in that order.
-/

namespace RedVector

open Util

inductive ValueSet where
  | integer (numbers : Finset Nat)
  | data (elements : Finset Bytes)

namespace ValueSet

def new : ValueSet :=
  .integer ∅

/-- The members as byte strings. -/
def members : ValueSet → Finset Bytes
  | .integer numbers => numbers.image natToString
  | .data elements => elements

/-- The members that are numbers. -/
def numbersOf (elements : Finset Bytes) : Finset Nat :=
  elements.biUnion fun element =>
    match vecToUsize element with
    | .ok number => {number}
    | .error _ => ∅

/-- The source stops at the first member that is not a number; the set is a
set of numbers only if there is none and no two members are the same number. -/
def createWithHashset (elements : Finset Bytes) : ValueSet :=
  let numbers := numbersOf elements
  if elements.card = numbers.card then .integer numbers else .data elements

def makeData (set : ValueSet) : ValueSet :=
  .data set.members

def sadd (set : ValueSet) (element : Bytes) (maxIntSize : Nat) :
    Bool × ValueSet :=
  let insertData (elements : Finset Bytes) : Bool × ValueSet :=
    (decide (element ∉ elements), .data (insert element elements))
  match set with
  | .integer numbers =>
      if numbers.card < maxIntSize then
        match vecToUsize element with
        | .ok number =>
            (decide (number ∉ numbers), .integer (insert number numbers))
        | .error _ => insertData set.members
      else insertData set.members
  | .data elements => insertData elements

def srem (set : ValueSet) (element : Bytes) : Bool × ValueSet :=
  match set with
  | .data elements =>
      (decide (element ∈ elements), .data (elements.erase element))
  | .integer numbers =>
      match vecToUsize element with
      | .ok number =>
          (decide (number ∈ numbers), .integer (numbers.erase number))
      | .error _ => (false, set)

def sismember (set : ValueSet) (element : Bytes) : Bool :=
  match set with
  | .data elements => decide (element ∈ elements)
  | .integer numbers =>
      match vecToUsize element with
      | .ok number => decide (number ∈ numbers)
      | .error _ => false

def scard : ValueSet → Nat
  | .data elements => elements.card
  | .integer numbers => numbers.card

/-- The members of `ordered` at the random `positions`. -/
def pick (ordered : List Bytes) (positions : List Nat) : List Bytes :=
  positions.filterMap fun position => ordered[position]?

/-- Removes the members that were picked. -/
def removeAll (set : ValueSet) (picked : List Bytes) : ValueSet :=
  match set with
  | .data elements => .data (elements \ picked.toFinset)
  | .integer numbers =>
      .integer (numbers.filter fun number => natToString number ∉ picked)

theorem card_members (set : ValueSet) :
    set.members.card = set.scard := by
  cases set with
  | data elements => rfl
  | integer numbers =>
      exact Finset.card_image_of_injective numbers natToString_injective

/-- Removing members changes a set unless there are none to remove. -/
theorem removeAll_unchanged
    {set : ValueSet} {picked : List Bytes}
    (inside : ∀ element ∈ picked, element ∈ set.members) :
    set.removeAll picked = set ↔ picked = [] := by
  constructor
  · intro unchanged
    refine List.eq_nil_iff_forall_not_mem.mpr ?_
    intro element member
    cases set with
    | data elements =>
        have same : elements \ picked.toFinset = elements :=
          ValueSet.data.inj unchanged
        have kept : element ∈ elements \ picked.toFinset :=
          same.symm ▸ inside element member
        exact (Finset.mem_sdiff.mp kept).2 (List.mem_toFinset.mpr member)
    | integer numbers =>
        have same := Finset.filter_eq_self.mp
          (ValueSet.integer.inj unchanged)
        obtain ⟨number, known, rfl⟩ :=
          Finset.mem_image.mp (inside element member)
        exact same number known member
  · rintro rfl
    cases set with
    | data elements => simp [removeAll]
    | integer numbers => simp [removeAll]

theorem mem_of_mem_pick
    {ordered : List Bytes} {positions : List Nat} {element : Bytes}
    (member : element ∈ pick ordered positions) : element ∈ ordered := by
  obtain ⟨position, -, found⟩ := List.mem_filterMap.mp member
  exact List.mem_of_getElem? found

def sdiff (set : ValueSet) (others : List ValueSet) : Finset Bytes :=
  match set with
  | .data original =>
      others.foldl (fun elements other => elements \ other.members) original
  | .integer original =>
      let remaining := others.foldl
        (fun elements other =>
          match other with
          | .integer numbers => elements \ numbers
          | .data otherElements => elements \ numbersOf otherElements)
        original
      remaining.image natToString

def sinter (set : ValueSet) (others : List ValueSet) : Finset Bytes :=
  match set with
  | .data original =>
      others.foldl (fun elements other => elements ∩ other.members) original
  | .integer original =>
      let remaining := others.foldl
        (fun elements other =>
          match other with
          | .integer numbers => elements ∩ numbers
          | .data otherElements => elements ∩ numbersOf otherElements)
        original
      remaining.image natToString

def sunion (set : ValueSet) (others : List ValueSet) : Finset Bytes :=
  others.foldl (fun elements other => elements ∪ other.members) set.members

end ValueSet

end RedVector
