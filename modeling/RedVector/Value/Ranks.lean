import RedVector.Util.Slice
import RedVector.Value.SortedInvariant

/-!
# Ranges of ranks

ZRANGE, ZREVRANGE and ZREMRANGEBYRANK read their positions through one
function.  All three stand for slices of the members in order.
-/

namespace RedVector

open Util OrderedSkipList

namespace ValueSortedSet

section

variable [Platform] {set : ValueSortedSet} {start stop : Int}

/-! ## Positions -/

/-- The positions from behind are those of the negated range, unless a sign
cannot be changed. -/
theorem normalizeRange_rev
    (startLeast : i64Min < start) (startMost : start ≤ i64Max)
    (stopLeast : i64Min < stop) (stopMost : stop ≤ i64Max) :
    set.normalizeRange start stop true =
      set.normalizeRange (-stop - 1) (-start - 1) false := by
  have computed : ∀ position : Int, i64Min < position →
      position ≤ i64Max → i64 (-position) = some (-position) ∧
        i64 (-position - 1) = some (-position - 1) := by
    intro position least most
    unfold i64Min at least
    unfold i64Max at most
    have negated : inI64 (-position) = true := by
      rw [inI64_iff]
      omega
    have before : inI64 (-position - 1) = true := by
      rw [inI64_iff]
      omega
    unfold i64
    exact ⟨if_pos negated, if_pos before⟩
  obtain ⟨stopNegated, stopBefore⟩ := computed stop stopLeast stopMost
  obtain ⟨startNegated, startBefore⟩ := computed start startLeast startMost
  unfold normalizeRange
  simp only [if_true, Bool.false_eq_true, if_false, Option.bind_eq_bind,
    Option.pure_def, Option.bind_some, stopNegated, stopBefore,
    startNegated, startBefore]

/-- The members of a range of ranks, in order or from behind. -/
theorem zrange_slice
    (ordered : Ordered set.skiplist) (nonempty : set.skiplist ≠ [])
    (fits : set.skiplist.length ≤ usizeMax) (start stop : Int)
    (withscores : Bool) :
    set.zrange start stop withscores false =
      some ((slice set.skiplist start stop).flatMap
        (showMember withscores)) := by
  obtain ⟨first, last, normalized, inside, positions⟩ :=
    normalizeRange_positions nonempty fits start stop
  rw [zrange_positions ordered fits normalized inside withscores,
    if_neg Bool.false_ne_true, slice_of_positions positions]

theorem zrevrange_slice
    (ordered : Ordered set.skiplist) (nonempty : set.skiplist ≠ [])
    (fits : set.skiplist.length ≤ usizeMax)
    (startLeast : i64Min < start) (startMost : start ≤ i64Max)
    (stopLeast : i64Min < stop) (stopMost : stop ≤ i64Max)
    (withscores : Bool) :
    set.zrange start stop withscores true =
      some ((slice set.skiplist.reverse start stop).flatMap
        (showMember withscores)) := by
  obtain ⟨first, last, normalized, inside, positions⟩ :=
    normalizeRange_positions nonempty fits (-stop - 1) (-start - 1)
  rw [← normalizeRange_rev startLeast startMost stopLeast stopMost]
    at normalized
  rw [zrange_positions ordered fits normalized inside withscores,
    if_pos rfl, slice_of_positions positions, slice_reverse]

/-! ## Removing members in a row -/

/-- A set without the members from a position on, up to a number of them. -/
def withoutRow (set : ValueSortedSet) (position count : Nat) :
    ValueSortedSet :=
  { skiplist := set.skiplist.take position ++
      set.skiplist.drop (position + count)
    hmap := ((set.skiplist.drop position).take count).foldl
      (fun hmap member => hmap.erase member.s) set.hmap }

theorem removeFrom_row
    {position count : Nat} (inside : position + count ≤ set.skiplist.length) :
    removeFrom position count set = some (set.withoutRow position count) := by
  induction count generalizing set with
  | zero =>
      unfold removeFrom withoutRow
      rw [List.take_zero, Nat.add_zero, List.take_append_drop]
      rfl
  | succ count ih =>
      have below : position < set.skiplist.length := by omega
      have found := List.getElem?_eq_getElem below
      have taken : (set.skiplist.take position).length = position :=
        List.length_take_of_le (by omega)
      unfold removeFrom removeIndex
      rw [found]
      change removeFrom position count
        { skiplist := set.skiplist.eraseIdx position
          hmap := set.hmap.erase (set.skiplist[position]).s } = _
      rw [ih (by
        change _ ≤ (set.skiplist.eraseIdx position).length
        rw [List.length_eraseIdx_of_lt below]
        omega)]
      unfold withoutRow
      dsimp only
      rw [List.eraseIdx_eq_take_drop_succ, List.take_left' taken,
        ← List.drop_drop, List.drop_left' taken, List.drop_drop,
        List.drop_eq_getElem_cons below, List.take_succ_cons,
        List.foldl_cons]
      have next : position + 1 + count = position + (count + 1) := by omega
      rw [next]

omit [Platform] in
theorem lookup_erases
    {α β : Type} (names : α → Bytes) (members : List α)
    (hmap : HashMap Bytes β) (element : Bytes) :
    (members.foldl (fun hmap member => hmap.erase (names member))
        hmap).lookup element =
      if element ∈ members.map names then none else hmap.lookup element := by
  induction members generalizing hmap with
  | nil => rfl
  | cons head tail ih =>
      rw [List.foldl_cons, ih, List.map_cons]
      by_cases among : element ∈ tail.map names
      · rw [if_pos among, if_pos (.tail _ among)]
      · rw [if_neg among]
        by_cases same : element = names head
        · subst same
          rw [if_pos List.mem_cons_self, Finmap.lookup_erase]
        · rw [if_neg (by simp [same, among]), Finmap.lookup_erase_ne same]

/-- A set without some members in a row: they are cut out of the skip list,
and the hash map has forgotten them. -/
structure Without (set : ValueSortedSet) (removed : OrderedSkipList)
    (after : ValueSortedSet) : Prop where
  cut : ∃ front back, set.skiplist = front ++ removed ++ back ∧
    after.skiplist = front ++ back
  zscore : ∀ element, after.zscore element =
    if element ∈ removed.map SortedSetMember.s then none
    else set.zscore element

theorem withoutRow_spec (set : ValueSortedSet) (position count : Nat) :
    set.Without ((set.skiplist.drop position).take count)
      (set.withoutRow position count) := by
  constructor
  · refine ⟨set.skiplist.take position,
      set.skiplist.drop (position + count), ?_, rfl⟩
    rw [← List.drop_drop, List.append_assoc, List.take_append_drop,
      List.take_append_drop]
  · intro element
    exact lookup_erases SortedSetMember.s _ set.hmap element

theorem zremrangebyrank_slice
    (nonempty : set.skiplist ≠ []) (fits : set.skiplist.length ≤ usizeMax)
    (start stop : Int) :
    ∃ after, set.zremrangebyrank start stop =
        some ((slice set.skiplist start stop).length, after) ∧
      set.Without (slice set.skiplist start stop) after := by
  obtain ⟨first, last, normalized, inside, positions⟩ :=
    normalizeRange_positions nonempty fits start stop
  rw [← slice_of_positions positions]
  refine ⟨set.withoutRow first (last + 1 - first), ?_,
    withoutRow_spec set first _⟩
  unfold zremrangebyrank
  rw [normalized]
  dsimp only [Option.bind_eq_bind, Option.bind_some]
  rw [List.length_take, List.length_drop]
  by_cases empty : last < first
  · have none : last + 1 - first = 0 := by omega
    rw [if_pos empty, none, Nat.zero_min]
    unfold withoutRow
    rw [List.take_zero, Nat.add_zero, List.take_append_drop]
    rfl
  · have counted : usize ((last : Int) - first + 1) =
        some (last + 1 - first) := by
      rw [usize_fits (by omega) (by omega)]
      apply congrArg some
      omega
    rw [if_neg empty, counted]
    dsimp only [Option.bind_some]
    rw [removeFrom_row (by omega), Nat.min_eq_left (by omega)]
    rfl

/-- ZRANGE lists a slice of the members in order, ZREVRANGE one of the members
from behind, and ZREMRANGEBYRANK removes what ZRANGE lists. -/
theorem rank_ranges
    (ordered : Ordered set.skiplist) (nonempty : set.skiplist ≠ [])
    (fits : set.skiplist.length ≤ usizeMax)
    (startLeast : i64Min < start) (startMost : start ≤ i64Max)
    (stopLeast : i64Min < stop) (stopMost : stop ≤ i64Max) :
    (∀ withscores, set.zrange start stop withscores false =
      some ((slice set.skiplist start stop).flatMap
        (showMember withscores))) ∧
    (∀ withscores, set.zrange start stop withscores true =
      some ((slice set.skiplist.reverse start stop).flatMap
        (showMember withscores))) ∧
    ∃ after, set.zremrangebyrank start stop =
        some ((slice set.skiplist start stop).length, after) ∧
      set.Without (slice set.skiplist start stop) after :=
  ⟨zrange_slice ordered nonempty fits start stop,
    zrevrange_slice ordered nonempty fits startLeast startMost stopLeast
      stopMost,
    zremrangebyrank_slice nonempty fits start stop⟩

end

section

attribute [local instance] Platform.integral

/-- Three members, the last two of them with one score. -/
def threeMembers : ValueSortedSet :=
  ((new.insertMember (2 : Int) (text "c")).insertMember (2 : Int)
    (text "b")).insertMember (1 : Int) (text "a")

theorem threeMembers_sound : Sound threeMembers :=
  ((sound_new.insertMember rfl rfl).insertMember (by decide) rfl).insertMember
    (by decide) rfl

/-- The last two members, in order and from behind. -/
theorem rank_ranges_last_two :
    threeMembers.zrange (-2) 5 true false =
        some ((slice threeMembers.skiplist (-2) 5).flatMap
          (showMember true)) ∧
      threeMembers.zrange 0 1 false true =
        some ((slice threeMembers.skiplist.reverse 0 1).flatMap
          (showMember false)) := by
  have ranges := fun start stop => @rank_ranges .integral threeMembers start
    stop threeMembers_sound.ordered (by decide) (by decide)
  exact ⟨(ranges (-2) 5 (by decide) (by decide) (by decide)
      (by decide)).1 true,
    (ranges 0 1 (by decide) (by decide) (by decide) (by decide)).2.1 false⟩

end

end ValueSortedSet

end RedVector
