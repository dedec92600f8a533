import RedVector.Platform
import RedVector.Value.Error

/-!
# List values
-/

namespace RedVector

open Util

/-- A linked list of byte strings, its only representation. -/
abbrev ValueList := List Bytes

namespace ValueList

def push (list : ValueList) (element : Bytes) (right : Bool) : ValueList :=
  if right then list ++ [element] else element :: list

def pop (list : ValueList) (right : Bool) : Option Bytes × ValueList :=
  if right then (list.getLast?, list.dropLast) else (list.head?, list.tail)

def lindex (list : ValueList) (index : Int) : Option Bytes :=
  match normalizePosition index list.length with
  | .ok position => list[position]?
  | .error _ => none

def linsert (list : ValueList) (before : Bool) (pivot newvalue : Bytes) :
    Option (Nat × ValueList) :=
  match list.idxOf? pivot with
  | some found =>
      let position := if before then found else found + 1
      let inserted := list.take position ++ newvalue :: list.drop position
      some (inserted.length, inserted)
  | none => none

def llen (list : ValueList) : Nat :=
  list.length

def lset (list : ValueList) (index : Int) (newvalue : Bytes) :
    Operation ValueList :=
  match normalizePosition index list.length with
  | .ok position => .ok (list.set position newvalue)
  | .error _ => .error .outOfBoundsError

/-- Removes up to `limit` occurrences from the front, all when it is 0. -/
def lremFront (element : Bytes) (limit : Nat) :
    ValueList → Nat → Nat × ValueList
  | [], count => (count, [])
  | head :: tail, count =>
      if limit = 0 ∨ count < limit then
        if head = element then lremFront element limit tail (count + 1)
        else
          let (removed, rest) := lremFront element limit tail count
          (removed, head :: rest)
      else (count, head :: tail)

def lrem (list : ValueList) (left : Bool) (limit : Nat) (element : Bytes) :
    Nat × ValueList :=
  if left then lremFront element limit list 0
  else
    let (count, rest) := lremFront element limit list.reverse 0
    (count, rest.reverse)

/-- Removing never makes a list longer. -/
theorem lremFront_length_le (element : Bytes) (limit : Nat)
    (list : ValueList) (count : Nat) :
    (lremFront element limit list count).2.length ≤ list.length := by
  induction list generalizing count with
  | nil => exact Nat.le_refl 0
  | cons head tail ih =>
      unfold lremFront
      split
      · split
        · exact Nat.le_succ_of_le (ih (count + 1))
        · exact Nat.succ_le_succ (ih count)
      · exact Nat.le_refl _

/-- As long as there is something left to remove, an element is removed
exactly if it is there. -/
theorem lremFront_unchanged (element : Bytes) {limit count : Nat}
    (left : limit = 0 ∨ count < limit) (list : ValueList) :
    (lremFront element limit list count).2 = list ↔ element ∉ list := by
  induction list with
  | nil => simp [lremFront]
  | cons head tail ih =>
      unfold lremFront
      rw [if_pos left]
      split
      · rename_i same
        have shorter := lremFront_length_le element limit tail (count + 1)
        refine iff_of_false ?_ (by simp [same])
        intro unchanged
        have lengths := congrArg List.length unchanged
        simp only [List.length_cons] at lengths
        omega
      · rename_i different
        simp [ih, Ne.symm different]

theorem lrem_unchanged (list : ValueList) (left : Bool) (limit : Nat)
    (element : Bytes) :
    (list.lrem left limit element).2 = list ↔ element ∉ list := by
  have fresh : limit = 0 ∨ 0 < limit := Nat.eq_zero_or_pos limit
  cases left with
  | true => exact lremFront_unchanged element fresh list
  | false =>
      have reversed := lremFront_unchanged element fresh list.reverse
      rw [List.mem_reverse] at reversed
      show (lremFront element limit list.reverse 0).2.reverse = list ↔ _
      rw [← reversed, List.reverse_eq_iff]

/-- The range from `start` to `stop` covers a list whose length is a
`usize`. -/
def Covers (length : Nat) (start stop : Int) : Prop :=
  length ≤ usizeMax ∧ (start = 0 ∨ start ≤ -length) ∧
    (stop = -1 ∨ (length : Int) - 1 ≤ stop)

section Platform

variable [Platform]

def lrange (list : ValueList) (start stop : Int) : Option (List Bytes) := do
  match normalizePosition start list.length with
  | .error true => pure []
  | started =>
      let first := started.toOption.getD 0
      match normalizePosition stop list.length with
      | .error false => pure []
      | stopped =>
          let last := stopped.toOption.getD list.length
          let difference ← usize (last - first)
          let count ← usize (difference + 1)
          pure ((list.drop first).take count)

def ltrim (list : ValueList) (start stop : Int) : Option ValueList := do
  match normalizePosition start list.length with
  | .error true => pure []
  | started =>
      let first := started.toOption.getD 0
      match normalizePosition stop list.length with
      | .error false => pure []
      | stopped =>
          let last ←
            match stopped with
            | .ok position => pure position
            | .error _ => usize (list.length - 1)
          let finish ← usize (last + 1)
          -- `split_off` past the end of the list panics
          if list.length < finish then none
          else if finish < first then none
          else pure ((list.take finish).drop first)

/-- What is left of a list between two positions. -/
private theorem trim_spec
    {list after : ValueList} {first last finish : Nat} (nonempty : list ≠ [])
    (inside : list.length ≤ usizeMax → last < list.length)
    (computed : usize ((last : Int) + 1) = some finish)
    (trimmed : (if list.length < finish then none
      else if finish < first then none
      else some ((list.take finish).drop first)) = some after) :
    after = list ↔
      list.length ≤ usizeMax ∧ first = 0 ∧ last + 1 = list.length := by
  have positive := List.length_pos_iff.mpr nonempty
  obtain ⟨fits, exactly⟩ := usize_spec computed
  split at trimmed
  · cases trimmed
  split at trimmed
  · cases trimmed
  cases trimmed
  constructor
  · intro same
    have lengths := congrArg List.length same
    simp only [List.length_drop, List.length_take] at lengths
    have small : list.length ≤ usizeMax := by omega
    have below := inside small
    omega
  · rintro ⟨small, rfl, ends⟩
    have whole : finish = list.length := by omega
    simp [whole]

/-- A list with an element is trimmed to itself exactly if the range covers
it. -/
theorem ltrim_unchanged
    {list after : ValueList} {start stop : Int} (nonempty : list ≠ [])
    (trimmed : list.ltrim start stop = some after) :
    after = list ↔ Covers list.length start stop := by
  have positive := List.length_pos_iff.mpr nonempty
  have begins := normalizePosition_spec start list.length
  have ends := normalizePosition_spec stop list.length
  -- what is left once the first position is known
  have rest : ∀ first : Nat,
      (match normalizePosition stop list.length with
        | .error false => (some [] : Option ValueList)
        | stopped => do
            let last ←
              match stopped with
              | .ok position => some position
              | .error _ => usize (list.length - 1)
            let finish ← usize ((last : Int) + 1)
            if list.length < finish then none
            else if finish < first then none
            else some ((list.take finish).drop first)) = some after →
      (after = list ↔ list.length ≤ usizeMax ∧ first = 0 ∧
        (stop = -1 ∨ (list.length : Int) - 1 ≤ stop)) := by
    intro first trimmed
    cases stopped : normalizePosition stop list.length with
    | error isAfter =>
        rw [stopped] at ends trimmed
        cases isAfter with
        | false =>
            cases trimmed
            dsimp only at ends
            exact iff_of_false (Ne.symm nonempty) (by omega)
        | true =>
            obtain ⟨last, counted, trimmed⟩ :=
              Option.bind_eq_some_iff.mp trimmed
            obtain ⟨finish, computed, trimmed⟩ :=
              Option.bind_eq_some_iff.mp trimmed
            obtain ⟨fits, exactly⟩ := usize_spec counted
            dsimp only at ends
            have inside : list.length ≤ usizeMax → last < list.length := by
              omega
            rw [trim_spec nonempty inside computed trimmed]
            omega
    | ok position =>
        rw [stopped] at ends trimmed
        dsimp only at ends
        obtain ⟨last, counted, trimmed⟩ :=
          Option.bind_eq_some_iff.mp trimmed
        cases counted
        obtain ⟨finish, computed, trimmed⟩ :=
          Option.bind_eq_some_iff.mp trimmed
        have inside : list.length ≤ usizeMax → position < list.length :=
          fun _ => ends.1
        rw [trim_spec nonempty inside computed trimmed]
        omega
  unfold ltrim at trimmed
  unfold Covers
  cases started : normalizePosition start list.length with
  | error isAfter =>
      rw [started] at begins trimmed
      cases isAfter with
      | true =>
          cases trimmed
          dsimp only at begins
          exact iff_of_false (Ne.symm nonempty) (by omega)
      | false =>
          rw [rest 0 trimmed]
          dsimp only at begins
          omega
  | ok first =>
      rw [started] at begins trimmed
      rw [rest first trimmed]
      dsimp only at begins
      omega

end Platform

end ValueList

end RedVector
