import RedVector.Util.Between
import RedVector.Value.Ranks

/-!
# Ranges between two bounds

The range operations of a sorted set find their members by comparing them with
boundaries that are no members.  All of them select what lies between two
bounds, by score or, where all scores are one, by name.
-/

namespace RedVector

open Util OrderedSkipList

namespace ValueSortedSet

section

variable [Platform]

/-! ## Selected members -/

/-- The members with a score between two bounds. -/
def byScore (set : ValueSortedSet) (min max : Bound F64) : OrderedSkipList :=
  set.skiplist.filter fun member =>
    Bound.within Platform.f64Lt min max member.f

/-- The order of names. -/
def nameLess (left right : Bytes) : Bool :=
  compareBytes left right == .lt

/-- The members with a name between two bounds. -/
def byName (set : ValueSortedSet) (min max : Bound Bytes) : OrderedSkipList :=
  set.skiplist.filter fun member => Bound.within nameLess min max member.s

/-- No member has a lower score than another. -/
def OneScore (set : ValueSortedSet) : Prop :=
  ∀ left ∈ set.skiplist, ∀ right ∈ set.skiplist,
    Platform.f64Lt left.f right.f = false

/-- A boundary with the empty name is above no member with its score. -/
theorem probe_ne_lt (member : SortedSetMember) :
    (if member.upperBoundary = true then Ordering.gt
      else compareBytes member.s []) ≠ .lt := by
  split
  · nofun
  · cases member.s with
    | nil => nofun
    | cons _ _ => nofun

theorem aboveMin_score (bound : Bound F64) (member : SortedSetMember) :
    aboveMin (scoreMin bound) member =
      bound.above Platform.f64Lt member.f := by
  cases bound with
  | included limit =>
      unfold scoreMin aboveMin Bound.above SortedSetMember.compare
      dsimp only [SortedSetMember.new]
      split
      · rename_i less
        rw [less]
        rfl
      · rename_i notLess
        rw [Bool.eq_false_iff.mpr notLess]
        split
        · rfl
        · rw [if_neg Bool.false_ne_true]
          exact bne_iff_ne.mpr (probe_ne_lt member)
  | excluded limit =>
      unfold scoreMin aboveMin Bound.above SortedSetMember.compare
      dsimp only
      split
      · rename_i less
        rw [SortedSetMember.f64Lt_asymm less]
        rfl
      · split
        · rename_i more
          rw [more]
          rfl
        · rename_i notMore
          rw [Bool.eq_false_iff.mpr notMore]
          rfl
  | unbounded => rfl

theorem belowMax_score (bound : Bound F64) (member : SortedSetMember) :
    belowMax (scoreMax bound) member =
      bound.below Platform.f64Lt member.f := by
  cases bound with
  | included limit =>
      unfold scoreMax belowMax Bound.below SortedSetMember.compare
      dsimp only
      split
      · rename_i less
        rw [SortedSetMember.f64Lt_asymm less]
        rfl
      · split
        · rename_i more
          rw [more]
          rfl
        · rename_i notMore
          rw [Bool.eq_false_iff.mpr notMore]
          rfl
  | excluded limit =>
      unfold scoreMax belowMax Bound.below SortedSetMember.compare
      dsimp only [SortedSetMember.new]
      split
      · rename_i less
        rw [less]
        rfl
      · rename_i notLess
        rw [Bool.eq_false_iff.mpr notLess]
        split
        · rfl
        · rw [if_neg Bool.false_ne_true]
          exact beq_eq_false_iff_ne.mpr (probe_ne_lt member)
  | unbounded => rfl

theorem compare_name
    {member : SortedSetMember} (plain : member.upperBoundary = false)
    {score : F64} (notLess : Platform.f64Lt member.f score = false)
    (notMore : Platform.f64Lt score member.f = false) (name : Bytes) :
    member.compare (.new score name) = compareBytes member.s name := by
  unfold SortedSetMember.compare SortedSetMember.new
  dsimp only
  rw [notLess, notMore, plain]
  rfl

/-- With the score of the members, a boundary compares their names. -/
theorem aboveMin_name
    {member : SortedSetMember} (plain : member.upperBoundary = false)
    {score : F64} (notLess : Platform.f64Lt member.f score = false)
    (notMore : Platform.f64Lt score member.f = false)
    (bound : Bound Bytes) :
    aboveMin (lexBound score bound) member =
      bound.above nameLess member.s := by
  cases bound with
  | included limit =>
      unfold lexBound aboveMin Bound.above nameLess
      dsimp only
      rw [compare_name plain notLess notMore]
      rfl
  | excluded limit =>
      unfold lexBound aboveMin Bound.above nameLess
      dsimp only
      rw [compare_name plain notLess notMore, compareBytes_swap]
      cases compareBytes limit member.s with
      | lt => rfl
      | eq => rfl
      | gt => rfl
  | unbounded => rfl

theorem belowMax_name
    {member : SortedSetMember} (plain : member.upperBoundary = false)
    {score : F64} (notLess : Platform.f64Lt member.f score = false)
    (notMore : Platform.f64Lt score member.f = false)
    (bound : Bound Bytes) :
    belowMax (lexBound score bound) member =
      bound.below nameLess member.s := by
  cases bound with
  | included limit =>
      unfold lexBound belowMax Bound.below nameLess
      dsimp only
      rw [compare_name plain notLess notMore, compareBytes_swap]
      cases compareBytes limit member.s with
      | lt => rfl
      | eq => rfl
      | gt => rfl
  | excluded limit =>
      unfold lexBound belowMax Bound.below nameLess
      dsimp only
      rw [compare_name plain notLess notMore]
  | unbounded => rfl

theorem range_name
    {set : ValueSortedSet} (sound : Sound set) (one : set.OneScore)
    {first : SortedSetMember} (among : first ∈ set.skiplist)
    (min max : Bound Bytes) :
    OrderedSkipList.range set.skiplist (lexBound first.f min)
        (lexBound first.f max) = set.byName min max := by
  unfold OrderedSkipList.range byName Bound.within
  apply List.filter_congr
  intro member inside
  have plain := (sound.ordered.proper member inside).plain
  rw [aboveMin_name plain (one member inside first among)
      (one first among member inside),
    belowMax_name plain (one member inside first among)
      (one first among member inside)]

theorem range_score (set : ValueSortedSet) (min max : Bound F64) :
    OrderedSkipList.range set.skiplist (scoreMin min) (scoreMax max) =
      set.byScore min max := by
  unfold OrderedSkipList.range byScore Bound.within
  apply List.filter_congr
  intro member _
  rw [aboveMin_score, belowMax_score]

/-! ## The order of names -/

omit [Platform] in
theorem nameLess_self (name : Bytes) : nameLess name name = false := by
  unfold nameLess
  rw [(compareBytes_eq name name).mpr rfl]
  rfl

omit [Platform] in
/-- The empty name is the first one. -/
theorem nameLess_nil (name : Bytes) :
    nameLess name [] = false ∧ (nameLess [] name = false → name = []) := by
  cases name with
  | nil => exact ⟨rfl, fun _ => rfl⟩
  | cons _ _ => exact ⟨rfl, nofun⟩

omit [Platform] in
/-- There is no last name. -/
theorem nameLess_append (name : Bytes) :
    nameLess name (name ++ [0]) = true := by
  unfold nameLess
  induction name with
  | nil => rfl
  | cons head tail ih =>
      rw [beq_iff_eq] at ih ⊢
      rw [List.cons_append, compareBytes_cons_lt]
      exact .inr ⟨rfl, ih⟩

/-! ## Members in a row -/

theorem scores_weak :
    Bound.Weak Platform.f64Lt
      fun score : F64 => Platform.f64IsNan score = false := by
  intro a b c first second third less
  exact Platform.f64_lt_of_not_lt a b c first second third less

omit [Platform] in
theorem names_weak : Bound.Weak nameLess fun _ : Bytes => True := by
  intro a b c _ _ _ less
  unfold nameLess at less ⊢
  simp only [beq_iff_eq] at less ⊢
  cases order : compareBytes a b with
  | lt => exact .inl rfl
  | eq =>
      rw [(compareBytes_eq a b).mp order] at less
      exact .inr less
  | gt =>
      have back : compareBytes b a = .lt := by
        rw [compareBytes_swap, order]
        rfl
      exact .inr (compareBytes_trans back less)

variable {set : ValueSortedSet}

/-- The members between two bounds, by score or by name, stand in a row. -/
theorem byScore_row
    (sound : Sound set) {min max : Bound F64}
    (low : min.All fun score => Platform.f64IsNan score = false)
    (high : max.All fun score => Platform.f64IsNan score = false) :
    set.byScore min max =
      (set.skiplist.drop (set.skiplist.countP fun member =>
          !min.above Platform.f64Lt member.f)).take
        (set.byScore min max).length := by
  unfold byScore
  rw [← List.countP_eq_length_filter]
  apply Bound.filter_within scores_weak ?_ ?_ low high
  · apply sound.ordered.pairwise.imp_of_mem
    intro left right inLeft inRight less
    rcases (SortedSetMember.compare_lt_iff (sound.ordered.proper left inLeft)
      (sound.ordered.proper right inRight)).mp less with less | ⟨same, -⟩
    · exact SortedSetMember.f64Lt_asymm less
    · exact same
  · intro member inside
    exact (sound.ordered.proper member inside).number

theorem byName_row
    (sound : Sound set) (one : set.OneScore) (min max : Bound Bytes) :
    set.byName min max =
      (set.skiplist.drop (set.skiplist.countP fun member =>
          !min.above nameLess member.s)).take
        (set.byName min max).length := by
  unfold byName
  rw [← List.countP_eq_length_filter]
  have every : ∀ bound : Bound Bytes, bound.All fun _ => True := by
    intro bound
    cases bound with
    | included _ => trivial
    | excluded _ => trivial
    | unbounded => trivial
  apply Bound.filter_within names_weak ?_ (fun _ _ => trivial) (every min)
    (every max)
  apply sound.ordered.pairwise.imp_of_mem
  intro left right inLeft inRight less
  rcases (SortedSetMember.compare_lt_iff (sound.ordered.proper left inLeft)
    (sound.ordered.proper right inRight)).mp less with less | ⟨-, names⟩
  · cases (one left inLeft right inRight).symm.trans less
  · unfold nameLess
    rw [compareBytes_swap, names]
    rfl

/-- Removing as many members as stand in a row removes the row. -/
theorem removeFrom_selected
    {selected : OrderedSkipList} {position : Nat}
    (inside : position ≤ set.skiplist.length)
    (row : selected =
      (set.skiplist.drop position).take selected.length) :
    ∃ after, removeFrom position selected.length set = some after ∧
      set.Without selected after := by
  have length := congrArg List.length row
  rw [List.length_take, List.length_drop] at length
  refine ⟨_, removeFrom_row (by omega), ?_⟩
  have without := withoutRow_spec set position selected.length
  rw [← row] at without
  exact without

/-! ## The operations -/

theorem zcount_eq (set : ValueSortedSet) (min max : Bound F64) :
    set.zcount min max = (set.byScore min max).length := by
  unfold zcount rangebyscore
  rw [range_score]

theorem zlexcount_eq
    (sound : Sound set) (one : set.OneScore) (min max : Bound Bytes) :
    set.zlexcount min max = (set.byName min max).length := by
  unfold zlexcount rangebylex
  split
  · rename_i empty
    unfold byName
    rw [empty]
    rfl
  · rename_i first rest isList
    have among : first ∈ set.skiplist := by
      rw [isList]
      exact List.mem_cons_self
    rw [range_name sound one among]

/-- The position of a row is the number of members that fail its bound from
below. -/
theorem position_score (set : ValueSortedSet) (min : Bound F64) :
    (match min with
      | .included s => set.zcount .unbounded (.excluded s)
      | .excluded s => set.zcount .unbounded (.included s)
      | .unbounded => 0) =
      set.skiplist.countP fun member =>
        !min.above Platform.f64Lt member.f := by
  cases min with
  | included limit =>
      dsimp only
      rw [zcount_eq]
      unfold byScore Bound.within Bound.above Bound.below
      rw [← List.countP_eq_length_filter]
      simp
  | excluded limit =>
      dsimp only
      rw [zcount_eq]
      unfold byScore Bound.within Bound.above Bound.below
      rw [← List.countP_eq_length_filter]
      simp
  | unbounded => simp [Bound.above]

theorem position_name
    (sound : Sound set) (one : set.OneScore) (min : Bound Bytes) :
    (match min with
      | .included s => set.zlexcount .unbounded (.excluded s)
      | .excluded s => set.zlexcount .unbounded (.included s)
      | .unbounded => 0) =
      set.skiplist.countP fun member => !min.above nameLess member.s := by
  cases min with
  | included limit =>
      dsimp only
      rw [zlexcount_eq sound one]
      unfold byName Bound.within Bound.above Bound.below
      rw [← List.countP_eq_length_filter]
      simp
  | excluded limit =>
      dsimp only
      rw [zlexcount_eq sound one]
      unfold byName Bound.within Bound.above Bound.below
      rw [← List.countP_eq_length_filter]
      simp
  | unbounded => simp [Bound.above]

theorem zremrangebyscore_without
    (sound : Sound set) {min max : Bound F64}
    (low : min.All fun score => Platform.f64IsNan score = false)
    (high : max.All fun score => Platform.f64IsNan score = false) :
    ∃ after, set.zremrangebyscore min max =
        some ((set.byScore min max).length, after) ∧
      set.Without (set.byScore min max) after := by
  obtain ⟨after, removed, without⟩ := removeFrom_selected
    List.countP_le_length (byScore_row sound low high)
  refine ⟨after, ?_, without⟩
  rw [← position_score, ← zcount_eq] at removed
  rw [← zcount_eq]
  exact congrArg (Option.bind · fun after =>
    some (set.zcount min max, after)) removed

theorem zremrangebylex_without
    (sound : Sound set) (one : set.OneScore) (min max : Bound Bytes) :
    ∃ after, set.zremrangebylex min max =
        some ((set.byName min max).length, after) ∧
      set.Without (set.byName min max) after := by
  obtain ⟨after, removed, without⟩ := removeFrom_selected
    List.countP_le_length (byName_row sound one min max)
  refine ⟨after, ?_, without⟩
  rw [← position_name sound one, ← zlexcount_eq sound one] at removed
  rw [← zlexcount_eq sound one]
  exact congrArg (Option.bind · fun after =>
    some (set.zlexcount min max, after)) removed

/-- A part of the selected members, in order or from behind. -/
def limited (selected : OrderedSkipList) (offset count : Nat) (rev : Bool) :
    OrderedSkipList :=
  ((if rev then selected.reverse else selected).drop offset).take count

/-- The end of a part from behind is computed and overflows. -/
def Overflows (offset count : Nat) (rev : Bool) : Prop :=
  rev = true ∧ usizeMax < count + offset ∧ Platform.overflowChecks = true

theorem range_limited_iff
    (fits : set.skiplist.length ≤ usizeMax) {offset count : Nat}
    (offsetFits : offset ≤ usizeMax) (countFits : count ≤ usizeMax)
    {rev : Bool} {min max : Bound SortedSetMember}
    {selected : OrderedSkipList}
    (selects : OrderedSkipList.range set.skiplist min max = selected)
    (withscores : Bool) :
    set.range min max withscores offset count rev =
        some ((limited selected offset count rev).flatMap
          (showMember withscores)) ↔
      ¬ Overflows offset count rev := by
  have part : selected.length ≤ set.skiplist.length := by
    rw [← selects]
    exact List.length_filter_le _ _
  have room : set.skiplist.length ≤ usizeMax := fits
  unfold ValueSortedSet.range limited Overflows
  rw [selects]
  cases rev with
  | false => simp
  | true =>
      -- a sum that wraps around is past the end all the same
      have listed : ∀ last : Nat,
          (last : Int) = count + offset ∨
            usizeMax < count + offset ∧
              (last : Int) = count + offset - 18446744073709551616 →
          (selected.reverse.drop offset).take
              (if last > set.skiplist.length then
                set.skiplist.length - offset else count) =
            (selected.reverse.drop offset).take count := by
        intro last isLast
        unfold usizeMax at *
        rw [List.take_eq_take_iff, List.length_drop, List.length_reverse]
        split
        · omega
        · rfl
      by_cases far : usizeMax < count + offset
      · by_cases checks : Platform.overflowChecks = true
        · have overflows : usize ((count : Int) + offset) = none := by
            unfold usize
            rw [if_neg (by simp; omega), if_pos checks]
          simp [overflows, far, checks]
        · have wraps : usize ((count : Int) + offset) =
              some (count + offset - 18446744073709551616) := by
            unfold usize
            rw [if_neg (by simp; omega), if_neg checks]
            apply congrArg some
            unfold usizeMax at *
            omega
          have same := listed (count + offset - 18446744073709551616) (by
            unfold usizeMax at *
            omega)
          simp [wraps, checks, same]
      · have computed : usize ((count : Int) + offset) =
            some (count + offset) := usize_of (by simp) (by omega)
        have same := listed (count + offset) (by omega)
        simp [computed, far, same]

/-- The operations on a range agree on the members that it selects: they list
them in order and from behind, as a whole and in part, count them and remove
them. -/
structure Agree (set : ValueSortedSet) (selected : OrderedSkipList)
    (listed : Nat → Nat → Bool → Option (List Bytes)) (withscores : Bool)
    (counted : Nat) (removed : Option (Nat × ValueSortedSet))
    (offset count : Nat) (rev : Bool) : Prop where
  whole : listed 0 usizeMax false =
    some (selected.flatMap (showMember withscores))
  reversed : listed 0 usizeMax true =
    some (selected.reverse.flatMap (showMember withscores))
  limited : listed offset count rev =
    some ((limited selected offset count rev).flatMap
      (showMember withscores))
  counted : counted = selected.length
  removed : ∃ after, removed = some (selected.length, after) ∧
    set.Without selected after

/-- The bounds of a range that is listed from behind are swapped. -/
def zrangebyscoreOf (set : ValueSortedSet) (min max : Bound F64)
    (withscores : Bool) (offset count : Nat) (rev : Bool) :
    Option (List Bytes) :=
  if rev then set.zrangebyscore max min withscores offset count true
  else set.zrangebyscore min max withscores offset count false

def zrangebylexOf (set : ValueSortedSet) (min max : Bound Bytes)
    (offset count : Nat) (rev : Bool) : Option (List Bytes) :=
  if rev then set.zrangebylex max min offset count true
  else set.zrangebylex min max offset count false

theorem zrangebyscoreOf_eq
    (set : ValueSortedSet) (min max : Bound F64) (withscores : Bool)
    (offset count : Nat) (rev : Bool) :
    set.zrangebyscoreOf min max withscores offset count rev =
      set.range (scoreMin min) (scoreMax max) withscores offset count
        rev := by
  cases rev with
  | true => rfl
  | false => rfl

theorem zrangebylexOf_eq
    {first : SortedSetMember} {rest : OrderedSkipList}
    (isList : set.skiplist = first :: rest) (min max : Bound Bytes)
    (offset count : Nat) (rev : Bool) :
    set.zrangebylexOf min max offset count rev =
      set.range (lexBound first.f min) (lexBound first.f max) false offset
        count rev := by
  unfold zrangebylexOf zrangebylex
  rw [isList]
  cases rev with
  | true => rfl
  | false => rfl

/-- Without a limit nothing overflows. -/
theorem limited_whole
    (fits : set.skiplist.length ≤ usizeMax)
    {selected : OrderedSkipList} (part : selected.length ≤ set.skiplist.length)
    (rev : Bool) :
    limited selected 0 usizeMax rev =
        (if rev then selected.reverse else selected) ∧
      ¬ Overflows 0 usizeMax rev := by
  constructor
  · unfold limited
    rw [List.drop_zero]
    apply List.take_of_length_le
    cases rev with
    | true => simpa using part.trans fits
    | false => exact part.trans fits
  · rintro ⟨-, far, -⟩
    omega

/-- A range that is listed as a whole. -/
theorem range_whole
    (fits : set.skiplist.length ≤ usizeMax) {low high : Bound SortedSetMember}
    {selected : OrderedSkipList}
    (selects : OrderedSkipList.range set.skiplist low high = selected)
    (withscores rev : Bool) :
    set.range low high withscores 0 usizeMax rev =
      some ((if rev then selected.reverse else selected).flatMap
        (showMember withscores)) := by
  have part : selected.length ≤ set.skiplist.length := by
    rw [← selects]
    exact List.length_filter_le _ _
  obtain ⟨all, computed⟩ := limited_whole fits part rev
  rw [← all]
  exact (range_limited_iff fits (Nat.zero_le _) (Nat.le_refl _) selects
    withscores).mpr computed

/-- Operations that stand for one range of the skip list. -/
theorem agree_iff
    (fits : set.skiplist.length ≤ usizeMax) {offset count : Nat}
    (offsetFits : offset ≤ usizeMax) (countFits : count ≤ usizeMax)
    {rev : Bool} {low high : Bound SortedSetMember}
    {selected : OrderedSkipList}
    (selects : OrderedSkipList.range set.skiplist low high = selected)
    {listed : Nat → Nat → Bool → Option (List Bytes)} {withscores : Bool}
    (lists : ∀ offset count rev, listed offset count rev =
      set.range low high withscores offset count rev)
    {counted : Nat} (counts : counted = selected.length)
    {removed : Option (Nat × ValueSortedSet)}
    (removes : ∃ after, removed = some (selected.length, after) ∧
      set.Without selected after) :
    set.Agree selected listed withscores counted removed offset count rev ↔
      ¬ Overflows offset count rev := by
  have whole : ∀ rev, listed 0 usizeMax rev =
      some ((if rev then selected.reverse else selected).flatMap
        (showMember withscores)) := by
    intro rev
    rw [lists]
    exact range_whole fits selects withscores rev
  constructor
  · intro agree
    rw [← range_limited_iff fits offsetFits countFits selects withscores,
      ← lists]
    exact agree.limited
  · intro computed
    refine ⟨whole false, whole true, ?_, counts, removes⟩
    rw [lists]
    exact (range_limited_iff fits offsetFits countFits selects
      withscores).mpr computed

/-- The operations on a range of scores agree unless the end of a part from
behind overflows, and those on a range of names do, among members of one score,
unless there are no members. -/
theorem ranges_agree
    (sound : Sound set) (fits : set.skiplist.length ≤ usizeMax)
    {offset count : Nat} (offsetFits : offset ≤ usizeMax)
    (countFits : count ≤ usizeMax) (rev : Bool) :
    (∀ min max : Bound F64,
      min.All (fun score => Platform.f64IsNan score = false) →
      max.All (fun score => Platform.f64IsNan score = false) →
      ∀ withscores,
        (set.Agree (set.byScore min max)
            (set.zrangebyscoreOf min max withscores) withscores
            (set.zcount min max) (set.zremrangebyscore min max)
            offset count rev ↔
          ¬ Overflows offset count rev)) ∧
    (set.OneScore → ∀ min max : Bound Bytes,
      (set.Agree (set.byName min max) (set.zrangebylexOf min max) false
          (set.zlexcount min max) (set.zremrangebylex min max)
          offset count rev ↔
        set.skiplist ≠ [] ∧ ¬ Overflows offset count rev)) := by
  constructor
  · intro min max low high withscores
    exact agree_iff fits offsetFits countFits (range_score set min max)
      (zrangebyscoreOf_eq set min max withscores) (zcount_eq set min max)
      (zremrangebyscore_without sound low high)
  · intro one min max
    by_cases empty : set.skiplist = []
    · refine iff_of_false ?_ (fun both => both.1 empty)
      intro agree
      have whole := agree.whole
      unfold zrangebylexOf zrangebylex at whole
      rw [empty] at whole
      cases whole
    · obtain ⟨first, rest, isList⟩ := List.exists_cons_of_ne_nil empty
      have among : first ∈ set.skiplist := by
        rw [isList]
        exact List.mem_cons_self
      rw [and_iff_right empty]
      exact agree_iff fits offsetFits countFits
        (range_name sound one among min max)
        (zrangebylexOf_eq isList min max) (zlexcount_eq sound one min max)
        (zremrangebylex_without sound one min max)

end

section

attribute [local instance] Platform.integral

/-- The members with the score 2, listed from behind after the first one. -/
theorem ranges_agree_two :
    threeMembers.Agree
        (threeMembers.byScore (.included (2 : Int)) .unbounded)
        (threeMembers.zrangebyscoreOf (.included (2 : Int)) .unbounded true)
        true (threeMembers.zcount (.included (2 : Int)) .unbounded)
        (threeMembers.zremrangebyscore (.included (2 : Int)) .unbounded)
        1 5 true :=
  ((ranges_agree threeMembers_sound (by decide) (by decide) (by decide)
    true).1 (.included (2 : Int)) .unbounded rfl trivial true).mpr (by
      rintro ⟨-, far, -⟩
      revert far
      decide)

/-- All members but the first, from behind. -/
theorem ranges_disagree :
    ¬ ∀ (set : ValueSortedSet) (offset count : Nat) (rev : Bool), Sound set →
      set.skiplist.length ≤ usizeMax → offset ≤ usizeMax →
      count ≤ usizeMax →
      (∀ min max : Bound F64,
        min.All (fun score => Platform.f64IsNan score = false) →
        max.All (fun score => Platform.f64IsNan score = false) →
        ∀ withscores,
          set.Agree (set.byScore min max)
            (set.zrangebyscoreOf min max withscores) withscores
            (set.zcount min max) (set.zremrangebyscore min max)
            offset count rev) ∧
      (set.OneScore → ∀ min max : Bound Bytes,
        set.Agree (set.byName min max) (set.zrangebylexOf min max) false
          (set.zlexcount min max) (set.zremrangebylex min max)
          offset count rev) := by
  intro agree
  have listed := ((agree threeMembers 1 usizeMax true threeMembers_sound
    (by decide) (by decide) (by decide)).1 .unbounded .unbounded trivial
    trivial false).limited
  have panics : (threeMembers.zrangebyscoreOf .unbounded .unbounded false 1
      usizeMax true).isNone = true := by
    decide +kernel
  rw [listed] at panics
  cases panics

end

end ValueSortedSet

end RedVector
