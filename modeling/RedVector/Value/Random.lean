import RedVector.Util.Sampling
import RedVector.Value.Members
import Mathlib.Data.Finset.Sort

/-!
# Random members of a set

Positions are drawn at random and put in descending order.  SRANDMEMBER looks
the members at the positions up, and SPOP takes them out one after another: a
member that was taken out does not move those at lower positions out of reach.
-/

namespace RedVector.ValueSet

open Util

/-- The positions that the samples of the range yield, in descending order.
`fuel` bounds the samples that are rejected or not. -/
def getRandomPositions (samples : Nat → Nat) (fuel len count : Nat)
    (allowDuplicates : Bool) : Option (List Nat) :=
  if allowDuplicates then
    some (((List.range count).map samples).mergeSort fun a b => decide (b ≤ a))
  else
    (distinct samples (min len count) fuel 0 ∅).map fun seen =>
      seen.sort (· ≥ ·)

/-- The members at the positions; a panic when there is none at one. -/
def srandmember (order : Finset Bytes → List Bytes) (set : ValueSet)
    (positions : List Nat) : Option (List Bytes) :=
  positions.mapM fun position => (order set.members)[position]?

/-- Takes the members at the positions out of a set, one after another. -/
def spopAt (order : Finset Bytes → List Bytes) :
    List Nat → ValueSet → Option (List Bytes × ValueSet)
  | [], set => some ([], set)
  | position :: rest, set => do
      let element ← (order set.members)[position]?
      let (popped, after) ← spopAt order rest (set.removeAll [element])
      pure (element :: popped, after)

/-! ## Positions -/

section

variable {samples : Nat → Nat} {fuel len count : Nat}
  {allowDuplicates : Bool} {positions : List Nat}

theorem getRandomPositions_lt
    (inside : ∀ index, samples index < len)
    (drawn : getRandomPositions samples fuel len count allowDuplicates =
      some positions) :
    ∀ position ∈ positions, position < len := by
  intro position among
  unfold getRandomPositions at drawn
  split at drawn
  · cases drawn
    obtain ⟨index, -, rfl⟩ := List.mem_map.mp (List.mem_mergeSort.mp among)
    exact inside index
  · obtain ⟨seen, ended, rfl⟩ := Option.map_eq_some_iff.mp drawn
    obtain ⟨-, sampled⟩ := distinct_spec (by simp) ended
    rcases sampled position ((Finset.mem_sort _).mp among) with known | ⟨_, rfl⟩
    · exact absurd known (Finset.notMem_empty position)
    · exact inside _

theorem getRandomPositions_length
    (drawn : getRandomPositions samples fuel len count allowDuplicates =
      some positions) :
    positions.length = if allowDuplicates then count else min len count := by
  unfold getRandomPositions at drawn
  split at drawn
  · rename_i duplicates
    cases drawn
    rw [List.length_mergeSort, List.length_map, List.length_range,
      if_pos duplicates]
  · rename_i different
    obtain ⟨seen, ended, rfl⟩ := Option.map_eq_some_iff.mp drawn
    rw [Finset.length_sort, (distinct_spec (by simp) ended).1,
      if_neg different]

/-- Positions without duplicates descend strictly. -/
theorem getRandomPositions_descend
    (drawn : getRandomPositions samples fuel len count false =
      some positions) :
    positions.Pairwise (· > ·) := by
  obtain ⟨seen, -, rfl⟩ := Option.map_eq_some_iff.mp drawn
  exact (Finset.sortedGT_sort seen).pairwise

/-- Drawing ends exactly when the samples hold enough positions. -/
theorem getRandomPositions_isSome_iff :
    (getRandomPositions samples fuel len count allowDuplicates).isSome ↔
      allowDuplicates = true ∨
        min len count ≤ ((Finset.range fuel).image samples).card := by
  unfold getRandomPositions
  cases allowDuplicates with
  | true => exact iff_of_true rfl (.inl rfl)
  | false =>
      rw [if_neg Bool.false_ne_true, Option.isSome_map, distinct_isSome_iff,
        Finset.empty_union, Nat.zero_add, ← Finset.range_eq_Ico,
        or_iff_right Bool.false_ne_true]

/-- Samples that reach every position are enough for any count. -/
theorem getRandomPositions_ends
    (count : Nat) (allowDuplicates : Bool)
    (reached : ∀ position < len, ∃ index < fuel, samples index = position) :
    ∃ positions,
      getRandomPositions samples fuel len count allowDuplicates =
        some positions := by
  apply Option.isSome_iff_exists.mp
  rw [getRandomPositions_isSome_iff]
  right
  have all : Finset.range len ⊆ (Finset.range fuel).image samples := by
    intro position among
    obtain ⟨index, below, isPosition⟩ :=
      reached position (Finset.mem_range.mp among)
    exact Finset.mem_image.mpr
      ⟨index, Finset.mem_range.mpr below, isPosition⟩
  have size := Finset.card_le_card all
  rw [Finset.card_range] at size
  omega

end

/-! ## Members -/

theorem length_pick
    {ordered : List Bytes} {positions : List Nat}
    (inside : ∀ position ∈ positions, position < ordered.length) :
    (pick ordered positions).length = positions.length := by
  induction positions with
  | nil => rfl
  | cons position positions ih =>
      have below := inside position List.mem_cons_self
      have others := ih fun other among =>
        inside other (List.mem_cons_of_mem position among)
      unfold pick at others ⊢
      rw [List.filterMap_cons, List.getElem?_eq_getElem below]
      exact congrArg Nat.succ others

theorem nodup_pick
    {ordered : List Bytes} {positions : List Nat}
    (distinct : ordered.Nodup) (apart : positions.Nodup) :
    (pick ordered positions).Nodup := by
  apply apart.filterMap
  intro first second element atFirst atSecond
  obtain ⟨below, -⟩ := List.getElem?_eq_some_iff.mp atFirst
  apply (List.getElem?_inj below distinct).mp
  exact Eq.trans atFirst atSecond.symm

/-- No lookup panics when the positions are inside. -/
theorem srandmember_eq
    {order : Finset Bytes → List Bytes} {set : ValueSet}
    {positions : List Nat}
    (inside : ∀ position ∈ positions,
      position < (order set.members).length) :
    set.srandmember order positions =
      some (pick (order set.members) positions) := by
  unfold srandmember pick
  induction positions with
  | nil => rfl
  | cons position positions ih =>
      have below := inside position List.mem_cons_self
      have rest := ih fun other among =>
        inside other (List.mem_cons_of_mem position among)
      rw [List.mapM_cons, rest, List.filterMap_cons,
        List.getElem?_eq_getElem below]
      rfl

theorem removeAll_nil (set : ValueSet) : set.removeAll [] = set := by
  cases set with
  | data elements => simp [removeAll]
  | integer numbers => simp [removeAll]

theorem removeAll_cons
    (set : ValueSet) (element : Bytes) (popped : List Bytes) :
    (set.removeAll [element]).removeAll popped =
      set.removeAll (element :: popped) := by
  cases set with
  | data elements =>
      unfold removeAll
      dsimp only
      rw [List.toFinset_cons, List.toFinset_cons, List.toFinset_nil,
        insert_empty_eq, Finset.insert_eq, sdiff_sdiff_left]
      rfl
  | integer numbers =>
      unfold removeAll
      dsimp only
      rw [Finset.filter_filter]
      simp only [List.mem_cons, List.not_mem_nil, or_false, not_or]

section

variable {order : Finset Bytes → List Bytes}
  (nodup : ∀ keys, (order keys).Nodup)
  (mem : ∀ keys key, key ∈ order keys ↔ key ∈ keys)

include nodup mem

theorem length_order (keys : Finset Bytes) :
    (order keys).length = keys.card := by
  rw [← List.toFinset_card_of_nodup (nodup keys)]
  congr 1
  ext key
  rw [List.mem_toFinset, mem]

/-- Taking members out at descending positions never misses one: each position
is below the number of members that are left. -/
theorem spopAt_spec
    {positions : List Nat} {set : ValueSet}
    (descend : positions.Pairwise (· > ·))
    (inside : ∀ position ∈ positions, position < set.members.card) :
    ∃ popped, spopAt order positions set =
        some (popped, set.removeAll popped) ∧
      popped.Nodup ∧ (∀ element ∈ popped, element ∈ set.members) ∧
      popped.length = positions.length := by
  induction positions generalizing set with
  | nil =>
      refine ⟨[], ?_, .nil, nofun, rfl⟩
      rw [removeAll_nil]
      rfl
  | cons position rest ih =>
      obtain ⟨lower, descend⟩ := List.pairwise_cons.mp descend
      have below : position < (order set.members).length := by
        rw [length_order nodup mem]
        exact inside position List.mem_cons_self
      have found := List.getElem?_eq_getElem below
      generalize (order set.members)[position] = element at found
      have member : element ∈ set.members :=
        (mem _ _).mp (List.mem_of_getElem? found)
      have left : (set.removeAll [element]).members =
          set.members.erase element := by
        rw [removeAll_members, List.toFinset_cons, List.toFinset_nil]
        exact Finset.sdiff_singleton_eq_erase element set.members
      have fewer : (set.removeAll [element]).members.card =
          set.members.card - 1 := by
        rw [left, Finset.card_erase_of_mem member]
      have isInside := inside position List.mem_cons_self
      have others : ∀ other ∈ rest,
          other < (set.removeAll [element]).members.card := by
        intro other listed
        have isLower : other < position := lower other listed
        omega
      obtain ⟨popped, ran, apart, among, length⟩ := ih descend others
      rw [left] at among
      refine ⟨element :: popped, ?_, ?_, ?_, ?_⟩
      · unfold spopAt
        rw [found, Option.bind_eq_bind, Option.bind_some, ran,
          removeAll_cons]
        rfl
      · refine List.nodup_cons.mpr ⟨?_, apart⟩
        intro again
        exact Finset.notMem_erase element _ (among element again)
      · intro other listed
        rcases List.mem_cons.mp listed with rfl | listed
        · exact member
        · exact Finset.mem_of_mem_erase (among other listed)
      · rw [List.length_cons, List.length_cons, length]

end

end RedVector.ValueSet
