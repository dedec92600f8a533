import Mathlib.Data.List.Basic
import Mathlib.Data.List.Induction
import Mathlib.Order.Lattice

/-!
# The best element of a list

A fold that keeps the best element it has seen, starting from the first one or
from a bottom that stands for none.
-/

namespace RedVector.Util

section

variable {α : Type} {less : α → α → Bool}

/-- An element of a list that none of the others is better than. -/
structure IsBest (less : α → α → Bool) (seen : List α) (best : α) : Prop where
  member : best ∈ seen
  most : ∀ other ∈ seen, less best other = false

/-- The better of two elements, the first one when neither is. -/
def better (less : α → α → Bool) (best element : α) : α :=
  if less best element then element else best

/-- The better of two elements where the bottom stands for the missing one. -/
def betterAbove (less : α → α → Bool) (bottom : α) (best : Option α)
    (element : α) : Option α :=
  if less (best.getD bottom) element then some element else best

/-- What is known of the best element above a bottom. -/
def IsBestAbove (less : α → α → Bool) (bottom : α) (seen : List α) :
    Option α → Prop
  | none => ∀ other ∈ seen, less bottom other = false
  | some best => IsBest less seen best ∧ less bottom best = true

variable (irrefl : ∀ a, less a a = false)
  (trans : ∀ a b c, less a b = true → less b c = true → less a c = true)

include irrefl trans

theorem IsBest.step
    {seen : List α} {best : α} (isBest : IsBest less seen best)
    (element : α) :
    IsBest less (seen ++ [element]) (better less best element) := by
  unfold better
  split
  · rename_i improves
    refine ⟨List.mem_append_right _ List.mem_cons_self, ?_⟩
    intro other among
    rcases List.mem_append.mp among with among | among
    · apply Bool.eq_false_iff.mpr
      intro beyond
      have beats := trans best element other improves beyond
      cases (isBest.most other among).symm.trans beats
    · rw [List.mem_singleton.mp among]
      exact irrefl element
  · rename_i stays
    refine ⟨List.mem_append_left _ isBest.member, ?_⟩
    intro other among
    rcases List.mem_append.mp among with among | among
    · exact isBest.most other among
    · rw [List.mem_singleton.mp among]
      exact Bool.eq_false_iff.mpr stays

/-- The fold from an element on ends with the best one of all. -/
theorem IsBest.foldl
    {seen : List α} {best : α} (isBest : IsBest less seen best)
    (list : List α) :
    IsBest less (seen ++ list) (list.foldl (better less) best) := by
  induction list generalizing seen best with
  | nil =>
      rw [List.append_nil]
      exact isBest
  | cons head tail ih =>
      have rest := ih (isBest.step irrefl trans head)
      rw [List.append_assoc] at rest
      exact rest

theorem isBest_foldl (first : α) (list : List α) :
    IsBest less (first :: list) (list.foldl (better less) first) := by
  have alone : IsBest less [first] first := by
    refine ⟨List.mem_cons_self, ?_⟩
    intro other among
    rw [List.mem_singleton.mp among]
    exact irrefl first
  exact alone.foldl irrefl trans list

theorem IsBestAbove.step
    {bottom : α} {seen : List α} {best : Option α}
    (isBest : IsBestAbove less bottom seen best) (element : α) :
    IsBestAbove less bottom (seen ++ [element])
      (betterAbove less bottom best element) := by
  unfold betterAbove
  cases best with
  | none =>
      rw [Option.getD_none]
      split
      · rename_i improves
        refine ⟨⟨List.mem_append_right _ List.mem_cons_self, ?_⟩, improves⟩
        intro other among
        rcases List.mem_append.mp among with among | among
        · apply Bool.eq_false_iff.mpr
          intro beyond
          have beats := trans bottom element other improves beyond
          cases (isBest other among).symm.trans beats
        · rw [List.mem_singleton.mp among]
          exact irrefl element
      · rename_i stays
        intro other among
        rcases List.mem_append.mp among with among | among
        · exact isBest other among
        · rw [List.mem_singleton.mp among]
          exact Bool.eq_false_iff.mpr stays
  | some best =>
      have next := isBest.1.step irrefl trans element
      unfold better at next
      rw [Option.getD_some]
      split
      · rename_i improves
        rw [if_pos improves] at next
        exact ⟨next, trans bottom best element isBest.2 improves⟩
      · rename_i stays
        rw [if_neg stays] at next
        exact ⟨next, isBest.2⟩

/-- The fold from the bottom on ends with the best element above it, if there
is one. -/
theorem isBestAbove_foldl (bottom : α) (list : List α) :
    IsBestAbove less bottom list
      (list.foldl (betterAbove less bottom) none) := by
  have run : ∀ (seen : List α) (best : Option α),
      IsBestAbove less bottom seen best →
      IsBestAbove less bottom (seen ++ list)
        (list.foldl (betterAbove less bottom) best) := by
    induction list with
    | nil =>
        intro seen best isBest
        rw [List.append_nil]
        exact isBest
    | cons head tail ih =>
        intro seen best isBest
        have rest := ih _ _ (isBest.step irrefl trans head)
        rw [List.append_assoc] at rest
        exact rest
  exact run [] none fun _ among => nomatch among

end

/-!
## The first smallest value

A scan that keeps the place of the smallest value that it has seen, beginning
at place zero with a value from which on it keeps nothing.
-/

section

variable {D : Type} [LinearOrder D] {start : D} {values : List D}

/-- The smallest value that was seen, and its place. -/
def argminStep (best next : D × Nat) : D × Nat :=
  if next.1 < best.1 then next else best

def argmin (start : D) (values : List D) : Nat :=
  (values.zipIdx.foldl argminStep (start, 0)).2

/-- A value at a place that is the smallest of all. -/
def Nearest (values : List D) (place : Nat) : Prop :=
  ∃ least, values[place]? = some least ∧ ∀ value ∈ values, least ≤ value

/-- The first place of the smallest value. -/
structure First (values : List D) (place : Nat) (least : D) : Prop where
  found : values[place]? = some least
  smallest : ∀ value ∈ values, least ≤ value
  first : ∀ other < place, ∀ value, values[other]? = some value →
    least < value

/-- What is known of the best value so far. -/
def Scanned (start : D) (seen : List D) (best : D × Nat) : Prop :=
  (best = (start, 0) ∧ ∀ value ∈ seen, start ≤ value) ∨
    (best.1 < start ∧ First seen best.2 best.1)

theorem Scanned.step {seen : List D} {best : D × Nat}
    (scanned : Scanned start seen best) (value : D) :
    Scanned start (seen ++ [value]) (argminStep best (value, seen.length)) := by
  have most : ∀ bound : D, (∀ other ∈ seen, bound ≤ other) → bound ≤ value →
      ∀ other ∈ seen ++ [value], bound ≤ other := by
    intro bound before last other member
    rcases List.mem_append.mp member with among | isLast
    · exact before other among
    · rw [List.mem_singleton.mp isLast]
      exact last
  have best_le : ∀ other ∈ seen, best.1 ≤ other := by
    rcases scanned with ⟨rfl, none⟩ | ⟨-, first⟩
    · exact none
    · exact first.smallest
  unfold argminStep
  split
  · rename_i improves
    right
    refine ⟨?_, ?_, ?_, ?_⟩
    · rcases scanned with ⟨rfl, -⟩ | ⟨below, -⟩
      · exact improves
      · exact lt_trans improves below
    · exact List.getElem?_concat_length
    · exact most value
        (fun other among => (le_of_lt improves).trans (best_le other among))
        le_rfl
    · intro other before rival found
      rw [List.getElem?_append_left before] at found
      exact lt_of_lt_of_le improves
        (best_le rival (List.mem_of_getElem? found))
  · rename_i stays
    rcases scanned with ⟨rfl, none⟩ | ⟨below, first⟩
    · exact .inl ⟨rfl, most start none (le_of_not_gt stays)⟩
    · have inside := (List.getElem?_eq_some_iff.mp first.found).1
      refine .inr ⟨below, ?_, most _ first.smallest (le_of_not_gt stays), ?_⟩
      · rw [List.getElem?_append_left inside]
        exact first.found
      · intro other before rival found
        rw [List.getElem?_append_left (Nat.lt_trans before inside)] at found
        exact first.first other before rival found

theorem scanned_foldl (start : D) (values : List D) :
    Scanned start values (values.zipIdx.foldl argminStep (start, 0)) := by
  induction values using List.reverseRecOn with
  | nil => exact .inl ⟨rfl, fun value member => nomatch member⟩
  | append_singleton seen value ih =>
      rw [List.zipIdx_append, List.foldl_append, Nat.zero_add]
      exact ih.step value

/-- The scan finds the first smallest value if there is one below the start. -/
theorem argmin_first (below : ∃ value ∈ values, value < start) :
    ∃ least, least < start ∧ First values (argmin start values) least := by
  rcases scanned_foldl start values with ⟨-, none⟩ | ⟨less, first⟩
  · obtain ⟨value, member, less⟩ := below
    exact absurd less (not_lt_of_ge (none value member))
  · exact ⟨_, less, first⟩

theorem argmin_zero (none : ∀ value ∈ values, start ≤ value) :
    argmin start values = 0 := by
  rcases scanned_foldl start values with ⟨same, -⟩ | ⟨less, first⟩
  · unfold argmin
    rw [same]
  · exact absurd less
      (not_lt_of_ge (none _ (List.mem_of_getElem? first.found)))

theorem First.nearest {place : Nat} {least : D}
    (first : First values place least) : Nearest values place :=
  ⟨least, first.found, first.smallest⟩

/-- The first smallest value is not behind another one. -/
theorem First.le {place other : Nat} {least : D}
    (first : First values place least) (nearest : Nearest values other) :
    place ≤ other := by
  obtain ⟨value, found, most⟩ := nearest
  by_contra before
  have less := first.first other (Nat.lt_of_not_le before) value found
  exact absurd less
    (not_lt_of_ge (most least (List.mem_of_getElem? first.found)))

/-- A place that is narrowed is still one of a smallest value exactly if there
is one among the places that are not changed, and the scan found it. -/
theorem nearest_narrowed_iff (start : D) (values : List D) {places : Nat}
    (positive : 0 < places) :
    Nearest values (argmin start values % places) ↔
      (∃ place < places, Nearest values place) ∧
        ((∃ value ∈ values, value < start) ∨ Nearest values 0) := by
  by_cases below : ∃ value ∈ values, value < start
  · obtain ⟨least, -, first⟩ := argmin_first below
    constructor
    · exact fun nearest =>
        ⟨⟨_, Nat.mod_lt _ positive, nearest⟩, .inl below⟩
    · rintro ⟨⟨place, inside, nearest⟩, -⟩
      rw [Nat.mod_eq_of_lt (Nat.lt_of_le_of_lt (first.le nearest) inside)]
      exact first.nearest
  · have none : ∀ value ∈ values, start ≤ value := fun value member =>
      le_of_not_gt fun less => below ⟨value, member, less⟩
    rw [argmin_zero none, Nat.zero_mod]
    constructor
    · exact fun nearest => ⟨⟨0, positive, nearest⟩, .inr nearest⟩
    · rintro ⟨-, less | nearest⟩
      · exact absurd less below
      · exact nearest

end

end RedVector.Util
