import RedVector.Value.SortedOrder
import RedVector.Value.Value

/-!
# Both halves of a sorted set

The skip list and the hash map of a sorted set hold the same members with the
same scores, and every operation keeps it so, except for an increment whose
sum is NaN.
-/

namespace RedVector

open Util

variable [Platform]

/-! ## The skip list -/

namespace OrderedSkipList

/-- The members of a set, strictly in order. -/
structure Ordered (list : OrderedSkipList) : Prop where
  pairwise : list.Pairwise fun left right => left.compare right = .lt
  proper : ∀ member ∈ list, member.Proper

namespace Ordered

variable {list : OrderedSkipList} {element : SortedSetMember}

theorem tail {head : SortedSetMember}
    (ordered : Ordered (head :: list)) : Ordered list :=
  ⟨(List.pairwise_cons.mp ordered.pairwise).2,
    fun member among => ordered.proper member (.tail head among)⟩

theorem sublist {part : OrderedSkipList} (ordered : Ordered list)
    (sub : part.Sublist list) : Ordered part :=
  ⟨ordered.pairwise.sublist sub,
    fun member among => ordered.proper member (sub.subset among)⟩

end Ordered

theorem mem_insert {list : OrderedSkipList} {element other : SortedSetMember} :
    other ∈ OrderedSkipList.insert element list ↔
      other = element ∨ other ∈ list := by
  induction list with
  | nil => exact List.mem_cons
  | cons head tail ih =>
      unfold insert
      split
      · exact List.mem_cons
      · rw [List.mem_cons, ih, List.mem_cons]
        exact or_left_comm

/-- A member with a new name is put in its place. -/
theorem insert_ordered
    {list : OrderedSkipList} {element : SortedSetMember}
    (ordered : Ordered list) (proper : element.Proper)
    (fresh : ∀ other ∈ list, other.s ≠ element.s) :
    Ordered (OrderedSkipList.insert element list) := by
  refine ⟨?_, ?_⟩
  · induction list with
    | nil => exact List.pairwise_singleton _ _
    | cons head tail ih =>
        obtain ⟨first, rest⟩ := List.pairwise_cons.mp ordered.pairwise
        have isProper := ordered.proper head List.mem_cons_self
        unfold insert
        split
        · rename_i less
          apply List.pairwise_cons.mpr
          refine ⟨?_, ordered.pairwise⟩
          intro other among
          rcases List.mem_cons.mp among with rfl | among
          · exact less
          · exact SortedSetMember.compare_trans proper isProper
              (ordered.tail.proper other among) less (first other among)
        · rename_i notLess
          apply List.pairwise_cons.mpr
          constructor
          · intro other among
            rcases mem_insert.mp among with rfl | among
            · rw [SortedSetMember.compare_swap proper isProper]
              cases order : other.compare head with
              | lt => exact absurd order notLess
              | eq =>
                  have same := SortedSetMember.compare_eq_names proper
                    isProper order
                  exact absurd same.symm (fresh head List.mem_cons_self)
              | gt => rfl
            · exact first other among
          · apply ih ordered.tail
            intro other among
            exact fresh other (.tail head among)
  · intro member among
    rcases mem_insert.mp among with rfl | among
    · exact proper
    · exact ordered.proper member among

theorem remove_sublist (element : SortedSetMember)
    (list : OrderedSkipList) :
    (OrderedSkipList.remove element list).Sublist list := by
  induction list with
  | nil => exact .slnil
  | cons head tail ih =>
      unfold remove
      split
      · exact List.sublist_cons_self head tail
      · exact ih.cons_cons head

/-- Removing a member of an ordered list removes nothing else. -/
theorem mem_remove
    {list : OrderedSkipList} {element other : SortedSetMember}
    (ordered : Ordered list) (member : element ∈ list) :
    other ∈ OrderedSkipList.remove element list ↔
      other ∈ list ∧ other ≠ element := by
  induction list with
  | nil => cases member
  | cons head tail ih =>
      obtain ⟨first, -⟩ := List.pairwise_cons.mp ordered.pairwise
      have isProper := ordered.proper element member
      unfold remove
      rcases List.mem_cons.mp member with rfl | among
      · rw [if_pos (SortedSetMember.compare_self isProper)]
        constructor
        · intro inTail
          refine ⟨.tail _ inTail, ?_⟩
          rintro rfl
          have less := first _ inTail
          rw [SortedSetMember.compare_self isProper] at less
          cases less
        · intro both
          exact (List.mem_cons.mp both.1).resolve_left both.2
      · have headProper := ordered.proper head List.mem_cons_self
        have less := first element among
        have more : element.compare head = .gt := by
          rw [SortedSetMember.compare_swap headProper isProper, less]
          rfl
        rw [more, if_neg nofun, List.mem_cons, ih ordered.tail among,
          List.mem_cons]
        constructor
        · intro either
          rcases either with rfl | both
          · refine ⟨.inl rfl, ?_⟩
            rintro rfl
            rw [SortedSetMember.compare_self isProper] at less
            cases less
          · exact ⟨.inr both.1, both.2⟩
        · intro both
          rcases both.1 with same | inTail
          · exact .inl same
          · exact .inr ⟨inTail, both.2⟩

theorem mem_eraseIdx
    {list : OrderedSkipList} {element other : SortedSetMember}
    {position : Nat} (ordered : Ordered list)
    (found : list[position]? = some element) :
    other ∈ list.eraseIdx position ↔ other ∈ list ∧ other ≠ element := by
  obtain ⟨front, back⟩ := pairwise_split ordered.pairwise found
  have isProper := ordered.proper element (List.mem_of_getElem? found)
  have self := SortedSetMember.compare_self isProper
  have split : ∀ each, each ∈ list ↔ each ∈ list.take position ∨
      each = element ∨ each ∈ list.drop (position + 1) := by
    intro each
    rw [getElem?_split found, List.mem_append, List.mem_cons,
      ← getElem?_split found]
  rw [List.eraseIdx_eq_take_drop_succ, List.mem_append, split]
  constructor
  · intro either
    rcases either with among | among
    · refine ⟨.inl among, ?_⟩
      rintro rfl
      cases self.symm.trans (front _ among)
    · refine ⟨.inr (.inr among), ?_⟩
      rintro rfl
      cases self.symm.trans (back _ among)
  · intro both
    rcases both.1 with among | same | among
    · exact .inl among
    · exact absurd same both.2
    · exact .inr among

end OrderedSkipList

namespace ValueSortedSet

/-- Both halves hold the same members, in order, and none with NaN. -/
structure Sound (set : ValueSortedSet) : Prop where
  ordered : OrderedSkipList.Ordered set.skiplist
  listed : ∀ element score, set.hmap.lookup element = some score ↔
    SortedSetMember.new score element ∈ set.skiplist

theorem sound_new : Sound new := by
  refine ⟨⟨.nil, ?_⟩, ?_⟩
  · intro member among
    cases among
  · intro element score
    exact iff_of_false nofun nofun

namespace Sound

variable {set : ValueSortedSet} {element : Bytes} {score : F64}

/-- A member is listed under its name. -/
theorem lookup_of_mem (sound : Sound set) {member : SortedSetMember}
    (among : member ∈ set.skiplist) :
    set.hmap.lookup member.s = some member.f := by
  apply (sound.listed member.s member.f).mpr
  have same : SortedSetMember.new member.f member.s = member := by
    have plain := (sound.ordered.proper member among).plain
    cases member
    cases plain
    rfl
  rw [same]
  exact among

/-- Each member is listed once. -/
theorem once (sound : Sound set) :
    (set.skiplist.map SortedSetMember.s).Nodup := by
  apply List.pairwise_map.mpr
  apply sound.ordered.pairwise.imp_of_mem
  intro left right inLeft inRight less same
  have scores := sound.lookup_of_mem inLeft
  rw [same, sound.lookup_of_mem inRight] at scores
  have proper := sound.ordered.proper left inLeft
  have also := sound.ordered.proper right inRight
  rw [SortedSetMember.compare_lt_iff proper also, same,
    Option.some.inj scores, Platform.f64_lt_irrefl,
    (compareBytes_eq _ _).mpr rfl] at less
  rcases less with less | ⟨-, less⟩
  · cases less
  · cases less

theorem insertMember (sound : Sound set)
    (absent : set.hmap.lookup element = none)
    (isNumber : Platform.f64IsNan score = false) :
    Sound (set.insertMember score element) := by
  constructor
  · apply OrderedSkipList.insert_ordered sound.ordered ⟨rfl, isNumber⟩
    intro other among same
    have held := sound.lookup_of_mem among
    rw [same] at held
    cases absent.symm.trans held
  · intro other value
    unfold ValueSortedSet.insertMember
    rw [OrderedSkipList.mem_insert]
    by_cases same : other = element
    · subst same
      rw [Finmap.lookup_insert]
      constructor
      · intro isScore
        cases isScore
        exact .inl rfl
      · intro either
        rcases either with same | among
        · cases same
          rfl
        · have held := sound.lookup_of_mem among
          cases absent.symm.trans held
    · rw [Finmap.lookup_insert_of_ne _ same, sound.listed]
      constructor
      · exact .inr
      · intro either
        rcases either with new | among
        · cases new
          exact absurd rfl same
        · exact among

/-- A member that is taken out of both halves. -/
theorem without (sound : Sound set)
    (held : set.hmap.lookup element = some score) :
    Sound
      { skiplist := set.skiplist.remove (.new score element)
        hmap := set.hmap.erase element } := by
  have among := (sound.listed element score).mp held
  constructor
  · exact sound.ordered.sublist (OrderedSkipList.remove_sublist _ _)
  · intro other value
    dsimp only
    rw [OrderedSkipList.mem_remove sound.ordered among, ← sound.listed]
    by_cases same : other = element
    · subst same
      rw [Finmap.lookup_erase]
      refine iff_of_false nofun ?_
      intro both
      cases held.symm.trans both.1
      exact both.2 rfl
    · rw [Finmap.lookup_erase_ne same]
      refine ⟨fun found => ⟨found, ?_⟩, And.left⟩
      intro new
      cases new
      exact same rfl

/-- A member that is taken out of both halves by its position. -/
theorem withoutIndex (sound : Sound set) {member : SortedSetMember}
    {position : Nat} (found : set.skiplist[position]? = some member) :
    Sound
      { skiplist := set.skiplist.eraseIdx position
        hmap := set.hmap.erase member.s } := by
  have among := List.mem_of_getElem? found
  constructor
  · exact sound.ordered.sublist (List.eraseIdx_sublist _ _)
  · intro other value
    dsimp only
    rw [OrderedSkipList.mem_eraseIdx sound.ordered found, ← sound.listed]
    by_cases same : other = member.s
    · subst same
      rw [Finmap.lookup_erase]
      refine iff_of_false nofun ?_
      intro both
      have scores := sound.lookup_of_mem among
      cases both.1.symm.trans scores
      apply both.2
      have plain := (sound.ordered.proper member among).plain
      cases member
      cases plain
      rfl
    · rw [Finmap.lookup_erase_ne same]
      refine ⟨fun held => ⟨held, ?_⟩, And.left⟩
      intro new
      rw [← new] at same
      exact same rfl

/-- A member that gets another score. -/
theorem rescored (sound : Sound set) {old : F64}
    (held : set.hmap.lookup element = some old)
    (isNumber : Platform.f64IsNan score = false) :
    Sound (ValueSortedSet.insertMember
      { set with skiplist := set.skiplist.remove (.new old element) } score
        element) := by
  have inserted := (sound.without held).insertMember
    (Finmap.lookup_erase element set.hmap) isNumber
  have same : (set.hmap.erase element).insert element score =
      set.hmap.insert element score := by
    apply Finmap.ext_lookup
    intro other
    by_cases self : other = element
    · subst self
      rw [Finmap.lookup_insert, Finmap.lookup_insert]
    · rw [Finmap.lookup_insert_of_ne _ self, Finmap.lookup_insert_of_ne _ self,
        Finmap.lookup_erase_ne self]
  unfold ValueSortedSet.insertMember at inserted ⊢
  rw [same] at inserted
  exact inserted

end Sound

/-! ## Adding and incrementing -/

theorem zadd_sound
    {set after : ValueSortedSet} {s : F64} {element : Bytes}
    {nx xx ch incr zeroOnNan changed : Bool} (sound : Sound set)
    (added : set.zadd s element nx xx ch incr zeroOnNan =
      .ok (changed, after)) : Sound after := by
  have cleaned : ∀ score : F64, ¬(Platform.f64IsNan score && !zeroOnNan) →
      Platform.f64IsNan (if Platform.f64IsNan score then Platform.f64Zero
        else score) = false := by
    intro score _
    split
    · exact Platform.f64_zero_not_nan
    · rename_i number
      simpa using number
  unfold zadd at added
  split at added
  · rename_i val held
    split at added
    · cases added
      exact sound
    split at added
    · cases added
      exact sound
    dsimp only at added
    generalize (if incr then Platform.f64Add s val else s) = score at added
    split at added
    · cases added
    · rename_i number
      cases added
      exact sound.rescored held (cleaned score number)
  · rename_i absent
    split at added
    · cases added
      exact sound
    split at added
    · cases added
    · rename_i number
      cases added
      exact sound.insertMember absent (cleaned s number)

theorem insertMember_ne_nil
    (set : ValueSortedSet) (score : F64) (element : Bytes) :
    (set.insertMember score element).skiplist ≠ [] := by
  have among : SortedSetMember.new score element ∈
      (set.insertMember score element).skiplist :=
    OrderedSkipList.mem_insert.mpr (.inl rfl)
  intro empty
  rw [empty] at among
  cases among

/-- A set only gains members, unless XX keeps it empty. -/
theorem zadd_ne_nil
    {set after : ValueSortedSet} {s : F64} {element : Bytes}
    {nx xx ch incr zeroOnNan changed : Bool}
    (added : set.zadd s element nx xx ch incr zeroOnNan =
      .ok (changed, after))
    (before : set.skiplist ≠ [] ∨ set = new ∧ xx = false) :
    after.skiplist ≠ [] := by
  unfold zadd at added
  split at added
  · rename_i val held
    have nonempty : set.skiplist ≠ [] := by
      rcases before with nonempty | ⟨rfl, -⟩
      · exact nonempty
      · cases held
    split at added
    · cases added
      exact nonempty
    split at added
    · cases added
      exact nonempty
    dsimp only at added
    generalize (if incr then Platform.f64Add s val else s) = score at added
    split at added
    · cases added
    · cases added
      exact insertMember_ne_nil _ _ _
  · split at added
    · rename_i only
      cases added
      rcases before with nonempty | ⟨-, off⟩
      · exact nonempty
      · cases off.symm.trans only
    split at added
    · cases added
    · cases added
      exact insertMember_ne_nil _ _ _

/-- Whether incrementing a member gives NaN after it was taken out of one
half. -/
def Spoils (set : ValueSortedSet) (increment : F64) (member : Bytes) : Prop :=
  ∃ score, set.hmap.lookup member = some score ∧
    Platform.f64IsNan (Platform.f64Add score increment) = true

theorem zincrby_sound
    {set : ValueSortedSet} {increment : F64} {member : Bytes}
    (sound : Sound set) (clear : ¬set.Spoils increment member) :
    Sound (set.zincrby increment member).2 ∧
      (set.skiplist ≠ [] → (set.zincrby increment member).2.skiplist ≠ []) :=
    by
  unfold zincrby
  cases held : set.hmap.lookup member with
  | none =>
      dsimp only
      split
      · exact ⟨sound, id⟩
      · rename_i number
        have number : Platform.f64IsNan
            (Platform.f64Add Platform.f64Zero increment) = false := by
          simpa using number
        exact ⟨sound.insertMember held number,
          fun _ => insertMember_ne_nil _ _ _⟩
  | some score =>
      dsimp only
      split
      · rename_i spoiled
        exact absurd ⟨score, held, spoiled⟩ clear
      · rename_i number
        have number : Platform.f64IsNan
            (Platform.f64Add score increment) = false := by
          simpa using number
        exact ⟨sound.rescored held number,
          fun _ => insertMember_ne_nil _ _ _⟩

/-! ## Removing -/

theorem zrem_sound
    {set : ValueSortedSet} (sound : Sound set) (member : Bytes) :
    Sound (set.zrem member).2 ∧
      ((set.zrem member).1 = false → (set.zrem member).2 = set) := by
  unfold zrem
  split
  · exact ⟨sound, fun _ => rfl⟩
  · rename_i score held
    exact ⟨sound.without held, nofun⟩

theorem removeFrom_sound
    {set after : ValueSortedSet} {position count : Nat} (sound : Sound set)
    (removed : removeFrom position count set = some after) :
    Sound after ∧ (count = 0 → after = set) := by
  induction count generalizing set with
  | zero =>
      cases removed
      exact ⟨sound, fun _ => rfl⟩
  | succ count ih =>
      refine ⟨?_, nofun⟩
      obtain ⟨⟨element, skiplist⟩, taken, removed⟩ :=
        Option.bind_eq_some_iff.mp removed
      obtain ⟨_, found, isTaken⟩ := Option.bind_eq_some_iff.mp taken
      cases isTaken
      exact (ih (sound.withoutIndex found) removed).1

/-- A range that is removed leaves both halves alike. -/
theorem zremrange_sound
    {set after : ValueSortedSet} {count : Nat} (sound : Sound set) :
    (∀ min max, set.zremrangebyscore min max = some (count, after) →
      Sound after ∧ (count = 0 → after = set)) ∧
    (∀ min max, set.zremrangebylex min max = some (count, after) →
      Sound after ∧ (count = 0 → after = set)) ∧
    (∀ start stop, set.zremrangebyrank start stop = some (count, after) →
      Sound after ∧ (count = 0 → after = set)) := by
  refine ⟨?_, ?_, ?_⟩
  · intro min max removed
    obtain ⟨_, rest, isAfter⟩ := Option.bind_eq_some_iff.mp removed
    cases isAfter
    exact removeFrom_sound sound rest
  · intro min max removed
    obtain ⟨_, rest, isAfter⟩ := Option.bind_eq_some_iff.mp removed
    cases isAfter
    exact removeFrom_sound sound rest
  · intro start stop removed
    obtain ⟨⟨first, last⟩, -, removed⟩ :=
      Option.bind_eq_some_iff.mp removed
    dsimp only at removed
    split at removed
    · cases removed
      exact ⟨sound, fun _ => rfl⟩
    · obtain ⟨counted, -, removed⟩ := Option.bind_eq_some_iff.mp removed
      obtain ⟨_, rest, isAfter⟩ := Option.bind_eq_some_iff.mp removed
      cases isAfter
      exact removeFrom_sound sound rest

/-! ## Unions and intersections -/

theorem added_sound
    {set : ValueSortedSet} (sound : Sound set) (score : F64)
    (element : Bytes) (incr : Bool) :
    Sound (set.added score element incr) := by
  unfold added
  split
  · rename_i changed after done
    exact zadd_sound sound done
  · exact sound

theorem zunionMember_sound
    {set : ValueSortedSet} (sound : Sound set) (aggregate : Aggregate)
    (weight : F64) (element : Bytes) (v : F64) :
    Sound (zunionMember aggregate weight set element v) := by
  cases aggregate with
  | sum => exact added_sound sound _ _ _
  | min =>
      unfold zunionMember
      dsimp only
      split
      · exact added_sound sound _ _ _
      · exact sound
  | max =>
      unfold zunionMember
      dsimp only
      split
      · exact added_sound sound _ _ _
      · exact sound

theorem zunionInput_sound
    {set : ValueSortedSet} (sound : Sound set) (aggregate : Aggregate)
    (ordered : Finset Bytes → List Bytes) (input : ValueSortedSet)
    (weight : F64) :
    Sound (zunionInput aggregate ordered set input weight) := by
  unfold zunionInput
  generalize ordered input.hmap.keys = elements
  induction elements generalizing set with
  | nil => exact sound
  | cons element elements ih =>
      rw [List.foldl_cons]
      apply ih
      split
      · exact zunionMember_sound sound _ _ _ _
      · exact sound

omit [Platform] in
/-- What every step of a fold that ends keeps, the fold keeps. -/
theorem foldlM_keeps
    {α β : Type} {keeps : β → Prop} {step : β → α → Option β}
    (preserved : ∀ state input after, keeps state →
      step state input = some after → keeps after)
    {inputs : List α} {state after : β} (start : keeps state)
    (folded : inputs.foldlM step state = some after) : keeps after := by
  induction inputs generalizing state with
  | nil =>
      cases folded
      exact start
  | cons input inputs ih =>
      rw [List.foldlM_cons] at folded
      obtain ⟨between, first, rest⟩ := Option.bind_eq_some_iff.mp folded
      exact ih (preserved state input between start first) rest

theorem zunion_sound
    {ordered : Finset Bytes → List Bytes} {zsets : List ValueSortedSet}
    {weights : Option (List F64)} {aggregate : Aggregate}
    {after : ValueSortedSet}
    (merged : zunion ordered zsets weights aggregate = some after) :
    Sound after := by
  refine foldlM_keeps ?_ sound_new merged
  intro state input between sound step
  obtain ⟨weight, -, isBetween⟩ := Option.bind_eq_some_iff.mp step
  cases isBetween
  exact zunionInput_sound sound aggregate ordered input.1 weight

theorem zinter_sound
    {ordered : Finset Bytes → List Bytes} {zsets : List ValueSortedSet}
    {weights : Option (List F64)} {aggregate : Aggregate}
    {after : ValueSortedSet}
    (merged : zinter ordered zsets weights aggregate = some after) :
    Sound after := by
  unfold zinter at merged
  split at merged
  · cases merged
    exact sound_new
  · refine foldlM_keeps ?_ sound_new merged
    intro state element between sound step
    obtain ⟨start, -, step⟩ := Option.bind_eq_some_iff.mp step
    obtain ⟨score, -, isBetween⟩ := Option.bind_eq_some_iff.mp step
    cases isBetween
    exact added_sound sound score element false

/-! ## What both halves answer -/

/-- A rank, counted from the end when it is negative. -/
def fromEnd (rank : Int) (length : Nat) : Int :=
  if rank < 0 then rank + length else rank

/-- The reading operations agree on the members of a set, their scores and
their ranks, and none of them panics.  The length of a list of the source is
always a machine word. -/
structure Agrees (set : ValueSortedSet) : Prop where
  zcard : set.zcard = set.skiplist.length
  absent : ∀ element, set.zscore element = none →
    set.zrank element = some none
  present : set.skiplist.length ≤ usizeMax →
    ∀ element score, set.zscore element = some score →
    ∃ rank, set.zrank element = some (some rank) ∧
      set.skiplist[rank]? = some (SortedSetMember.new score element)
  scored : ∀ (rank : Nat) (score : F64) (element : Bytes),
    set.skiplist[rank]? = some (SortedSetMember.new score element) →
    set.zscore element = some score
  zrange : set.skiplist.length ≤ usizeMax → ∀ start stop withscores,
    ∃ first last, set.zrange start stop withscores false =
        some (((set.skiplist.drop first).take (last + 1 - first)).flatMap
          (showMember withscores)) ∧
      ∀ rank : Nat, first ≤ rank ∧ rank ≤ last ↔
        rank < set.skiplist.length ∧
          fromEnd start set.skiplist.length ≤ rank ∧
          rank ≤ fromEnd stop set.skiplist.length

theorem usize_fits {number : Int} (least : 0 ≤ number)
    (most : number ≤ usizeMax) : usize number = some number.toNat := by
  unfold usize
  rw [if_pos (by simp [least, most])]

/-- What `normalizeRange` does with its last position. -/
def rangeTo (length first : Nat) : Except Bool Nat → Option (Nat × Nat)
  | .error false => some (1, 0)
  | .error true => (usize ((length : Int) - 1)).bind fun last =>
      some (first, last)
  | .ok last => some (first, last)

/-- The positions of a range of ranks in a set that is not empty. -/
theorem normalizeRange_positions
    {set : ValueSortedSet} (nonempty : set.skiplist ≠ [])
    (fits : set.skiplist.length ≤ usizeMax) (start stop : Int) :
    ∃ first last, set.normalizeRange start stop false = some (first, last) ∧
      (last < first ∨ last < set.skiplist.length) ∧
      ∀ rank : Nat, first ≤ rank ∧ rank ≤ last ↔
        rank < set.skiplist.length ∧
          fromEnd start set.skiplist.length ≤ rank ∧
          rank ≤ fromEnd stop set.skiplist.length := by
  have positive := List.length_pos_iff.mpr nonempty
  have low := normalizePosition_spec start set.skiplist.length
  have high := normalizePosition_spec stop set.skiplist.length
  unfold normalizeRange fromEnd
  generalize set.skiplist.length = length at *
  simp only [Bool.false_eq_true, if_false, Option.pure_def,
    Option.bind_eq_bind, Option.bind_some]
  -- the first position is that of the start, or 0 when that lies before
  have below : ∀ first : Nat,
      (∀ rank : Nat, first ≤ rank ↔
        (if start < 0 then start + length else start) ≤ rank) →
      ∃ low high, rangeTo length first (normalizePosition stop length) =
          some (low, high) ∧
        (high < low ∨ high < length) ∧
        ∀ rank : Nat, low ≤ rank ∧ rank ≤ high ↔ rank < length ∧
          (if start < 0 then start + length else start) ≤ rank ∧
          rank ≤ if stop < 0 then stop + length else stop := by
    intro first isFirst
    cases isHigh : normalizePosition stop length with
    | error after =>
        rw [isHigh] at high
        cases after with
        | false =>
            refine ⟨1, 0, rfl, .inl Nat.one_pos, ?_⟩
            intro rank
            split
            · omega
            · omega
        | true =>
            have last : usize ((length : Int) - 1) =
                some ((length : Int) - 1).toNat :=
              usize_fits (by omega) (by omega)
            dsimp only at high
            unfold rangeTo
            rw [last]
            refine ⟨first, _, rfl, .inr (by omega), ?_⟩
            intro rank
            rw [isFirst]
            split
            · omega
            · omega
    | ok last =>
        rw [isHigh] at high
        refine ⟨first, last, rfl, .inr high.1, ?_⟩
        intro rank
        rw [isFirst]
        dsimp only at high
        split
        · omega
        · omega
  cases isLow : normalizePosition start length with
  | error after =>
      rw [isLow] at low
      cases after with
      | true =>
          refine ⟨1, 0, rfl, .inl Nat.one_pos, ?_⟩
          intro rank
          dsimp only at low
          split
          · omega
          · omega
      | false =>
          refine below 0 ?_
          intro rank
          dsimp only at low
          split
          · omega
          · omega
  | ok first =>
      rw [isLow] at low
      refine below first ?_
      intro rank
      dsimp only at low
      split
      · omega
      · omega

theorem Sound.card_keys
    {set : ValueSortedSet} (sound : Sound set) :
    set.hmap.keys.card = set.skiplist.length := by
  have same : set.hmap.keys =
      (set.skiplist.map SortedSetMember.s).toFinset := by
    ext element
    rw [Finmap.mem_keys, List.mem_toFinset, List.mem_map]
    constructor
    · intro known
      obtain ⟨score, held⟩ := Finmap.mem_iff.mp known
      exact ⟨_, (sound.listed element score).mp held, rfl⟩
    · intro listed
      obtain ⟨member, among, rfl⟩ := listed
      exact Finmap.mem_iff.mpr ⟨_, sound.lookup_of_mem among⟩
  rw [same, List.toFinset_card_of_nodup sound.once, List.length_map]

/-- The members up to one of them, and those from it on. -/
theorem range_member
    {list : OrderedSkipList} (ordered : OrderedSkipList.Ordered list)
    {member : SortedSetMember} {position : Nat}
    (found : list[position]? = some member) :
    OrderedSkipList.range list .unbounded (.included member) =
        list.take (position + 1) ∧
      OrderedSkipList.range list (.included member) .unbounded =
        list.drop position := by
  have among := List.mem_of_getElem? found
  have proper := ordered.proper member among
  have self := SortedSetMember.compare_self proper
  have both : list.Pairwise fun left right =>
      left.compare right = .lt ∧ right.compare left = .gt := by
    apply ordered.pairwise.imp_of_mem
    intro left right inLeft inRight less
    refine ⟨less, ?_⟩
    rw [SortedSetMember.compare_swap (ordered.proper left inLeft)
      (ordered.proper right inRight), less]
    rfl
  constructor
  · apply filter_eq_take both found
    · simp [OrderedSkipList.aboveMin, OrderedSkipList.belowMax, self]
    · intro other less
      simp [OrderedSkipList.aboveMin, OrderedSkipList.belowMax, less.1]
    · intro other less
      simp [OrderedSkipList.aboveMin, OrderedSkipList.belowMax, less.2]
  · apply filter_eq_drop both found
    · simp [OrderedSkipList.aboveMin, OrderedSkipList.belowMax, self]
    · intro other less
      simp [OrderedSkipList.aboveMin, OrderedSkipList.belowMax, less.1]
    · intro other less
      simp [OrderedSkipList.aboveMin, OrderedSkipList.belowMax, less.2]

theorem Sound.zrank_eq
    {set : ValueSortedSet} (sound : Sound set)
    (fits : set.skiplist.length ≤ usizeMax) {element : Bytes} {score : F64}
    {rank : Nat} (held : set.hmap.lookup element = some score)
    (found : set.skiplist[rank]? = some (.new score element)) :
    set.zrank element = some (some rank) := by
  obtain ⟨inside, -⟩ := List.getElem?_eq_some_iff.mp found
  unfold zrank
  rw [held]
  dsimp only
  rw [(range_member sound.ordered found).1, List.length_take]
  have counted : ((min (rank + 1) set.skiplist.length : Nat) : Int) - 1 =
      rank := by
    omega
  rw [counted, usize_fits (by omega) (by omega)]
  rfl

/-- A range of ranks lists the members between two positions. -/
theorem zrange_positions
    {set : ValueSortedSet} {start stop : Int} {rev : Bool} {first last : Nat}
    (ordered : OrderedSkipList.Ordered set.skiplist)
    (fits : set.skiplist.length ≤ usizeMax)
    (normalized : set.normalizeRange start stop rev = some (first, last))
    (inside : last < first ∨ last < set.skiplist.length)
    (withscores : Bool) :
    set.zrange start stop withscores rev =
      some ((if rev then
          ((set.skiplist.drop first).take (last + 1 - first)).reverse
        else (set.skiplist.drop first).take (last + 1 - first)).flatMap
          (showMember withscores)) := by
  unfold zrange
  rw [normalized]
  dsimp only [Option.bind_eq_bind, Option.bind_some]
  by_cases empty : last < first
  · rw [if_pos empty, Nat.sub_eq_zero_of_le (by omega), List.take_zero]
    cases rev with
    | true => rfl
    | false => rfl
  · rw [if_neg empty]
    have below : first < set.skiplist.length := by omega
    have found := List.getElem?_eq_getElem below
    have counted : usize ((last : Int) - first + 1) =
        some (last + 1 - first) := by
      rw [usize_fits (by omega) (by omega)]
      apply congrArg some
      omega
    rw [found]
    dsimp only [Option.bind_some]
    rw [counted]
    dsimp only [Option.bind_some]
    rw [(range_member ordered found).2]
    cases rev with
    | true => rfl
    | false => rfl

theorem Sound.agrees
    {set : ValueSortedSet} (sound : Sound set)
    (nonempty : set.skiplist ≠ []) : Agrees set := by
  constructor
  · exact sound.card_keys
  · intro element absent
    unfold zscore at absent
    unfold zrank
    rw [absent]
  · intro fits element score held
    obtain ⟨rank, found⟩ :=
      List.mem_iff_getElem?.mp ((sound.listed element score).mp held)
    exact ⟨rank, sound.zrank_eq fits held found, found⟩
  · intro rank score element found
    exact (sound.listed element score).mpr (List.mem_of_getElem? found)
  · intro fits start stop withscores
    obtain ⟨first, last, normalized, inside, positions⟩ :=
      normalizeRange_positions nonempty fits start stop
    exact ⟨first, last,
      zrange_positions sound.ordered fits normalized inside withscores,
      positions⟩

end ValueSortedSet

end RedVector
