import RedVector.Command.Present
import RedVector.Command.SortedSets
import RedVector.Value.Bounds

/-!
# Ranks

ZRANK and ZREVRANK count the members up to a probe.  The rank of a member is
its place in the listing of all members.
-/

namespace RedVector

open Util OrderedSkipList Database Effect

section

variable [Platform]

namespace ValueSortedSet

variable {set : ValueSortedSet} {element : Bytes} {score : F64}

/-- A member with the given score and an earlier name. -/
def tiesBefore (score : F64) (element : Bytes) (member : SortedSetMember) :
    Bool :=
  !Platform.f64Lt member.f score && !Platform.f64Lt score member.f &&
    nameLess member.s element

/-- Before a member stand those with a lower score and those with its score
and an earlier name. -/
theorem rank_counts
    (sound : Sound set) {rank : Nat}
    (found : set.skiplist[rank]? = some (.new score element)) :
    set.zcount .unbounded (.excluded score) +
      set.skiplist.countP (tiesBefore score element) = rank := by
  obtain ⟨inside, -⟩ := List.getElem?_eq_some_iff.mp found
  obtain ⟨front, back⟩ := pairwise_split sound.ordered.pairwise found
  have proper : ∀ member ∈ set.skiplist, member.Proper :=
    sound.ordered.proper
  have isProper := proper _ (List.mem_of_getElem? found)
  have isLower : set.zcount .unbounded (.excluded score) =
      set.skiplist.countP fun member => Platform.f64Lt member.f score := by
    rw [zcount_eq]
    unfold byScore Bound.within Bound.above Bound.below
    rw [← List.countP_eq_length_filter]
    simp
  -- among the members in front each is counted once
  have before : (set.skiplist.take rank).countP
        (fun member => Platform.f64Lt member.f score) +
      (set.skiplist.take rank).countP (tiesBefore score element) = rank := by
    have others : (set.skiplist.take rank).countP
          (tiesBefore score element) =
        (set.skiplist.take rank).countP
          (fun member => ¬ Platform.f64Lt member.f score) := by
      apply List.countP_congr
      intro member among
      have less := front member among
      rw [SortedSetMember.compare_lt_iff
        (proper member (List.mem_of_mem_take among)) isProper] at less
      unfold tiesBefore nameLess
      rcases less with less | ⟨notMore, names⟩
      · have low : Platform.f64Lt member.f score = true := less
        simp [low]
      · have high : Platform.f64Lt score member.f = false := notMore
        have early : compareBytes member.s element = .lt := names
        simp [high, early]
    rw [others, ← List.length_eq_countP_add_countP, List.length_take]
    omega
  have after : ∀ member ∈ SortedSetMember.new score element ::
      set.skiplist.drop (rank + 1),
      ¬ Platform.f64Lt member.f score = true ∧
        ¬ tiesBefore score element member = true := by
    intro member among
    unfold tiesBefore
    rcases List.mem_cons.mp among with rfl | among
    · have self := Platform.f64_lt_irrefl score
      simp [SortedSetMember.new, self, nameLess_self]
    · have less := back member among
      rw [SortedSetMember.compare_lt_iff isProper
        (proper member (List.mem_of_mem_drop among))] at less
      rcases less with less | ⟨notMore, names⟩
      · have low : Platform.f64Lt score member.f = true := less
        have high := SortedSetMember.f64Lt_asymm low
        simp [low, high]
      · have high : Platform.f64Lt member.f score = false := notMore
        have late : compareBytes member.s element = .gt := by
          rw [compareBytes_swap]
          have early : compareBytes element member.s = .lt := names
          rw [early]
          rfl
        simp [high, nameLess, late]
  rw [isLower, getElem?_split found, List.countP_append, List.countP_append,
    List.countP_eq_zero.mpr fun member among => (after member among).1,
    List.countP_eq_zero.mpr fun member among => (after member among).2]
  exact before

variable {env : Env} {db : Database} {dbindex : Nat} {key : Bytes}

/-- The names of all members in order. -/
theorem zrange_all (sound : Sound set)
    (fits : set.skiplist.length ≤ usizeMax) :
    set.zrange 0 (-1) false false =
      some (set.skiplist.map SortedSetMember.s) := by
  have names : ∀ members : OrderedSkipList,
      members.flatMap (showMember false) =
        members.map SortedSetMember.s := by
    intro members
    induction members with
    | nil => rfl
    | cons head tail ih =>
        rw [List.flatMap_cons, ih]
        rfl
  by_cases empty : set.skiplist = []
  · unfold zrange normalizeRange
    rw [empty]
    rfl
  · have whole : slice set.skiplist 0 (-1) = set.skiplist := by
      unfold slice place
      apply List.take_of_length_le
      simp
    rw [zrange_slice sound.ordered empty fits, whole, names]

end ValueSortedSet

namespace Command

variable {env : Env} {db : Database} {dbindex : Nat} {key : Bytes}
  {set : ValueSortedSet} {element : Bytes}

/-- ZRANK or ZREVRANK answers. -/
def Ranks (env : Env) (db : Database) (dbindex : Nat) (key element : Bytes)
    (rev : Bool) (reply : Response) : Prop :=
  ((genericZrank dbindex key element rev).lift readInclusion).run
    (machine env) db = some (.ok reply, db)

theorem ranks_absent
    (present : Present env db dbindex key (.sortedSet set))
    (absent : set.zscore element = none) (rev : Bool) :
    Ranks env db dbindex key element rev .nil := by
  have nowhere : set.zrank element = some none := by
    unfold ValueSortedSet.zscore at absent
    unfold ValueSortedSet.zrank
    rw [absent]
  unfold Ranks genericZrank
  rw [run_get present]
  unfold Value.zcard Value.zrank
  dsimp only
  rw [nowhere]
  rfl

theorem ranks_present
    (present : Present env db dbindex key (.sortedSet set))
    (sound : ValueSortedSet.Sound set)
    (fits : set.skiplist.length ≤ usizeMax) {score : F64} {rank : Nat}
    (held : set.hmap.lookup element = some score)
    (found : set.skiplist[rank]? = some (.new score element)) :
    Ranks env db dbindex key element false (.integer rank) ∧
      Ranks env db dbindex key element true
        (.integer (set.zcard - 1 - rank)) := by
  obtain ⟨inside, -⟩ := List.getElem?_eq_some_iff.mp found
  have card : set.zcard = set.skiplist.length := sound.card_keys
  have isRank := sound.zrank_eq fits held found
  constructor
  · unfold Ranks genericZrank
    rw [run_get present]
    unfold Value.zcard Value.zrank
    dsimp only
    rw [isRank]
    rfl
  · have below : usize ((set.zcard : Int) - rank) =
        some (set.zcard - rank) :=
      usize_of (by omega) (by omega)
    have last : usize (((set.zcard - rank : Nat) : Int) - 1) =
        some (set.zcard - rank - 1) :=
      usize_of (by omega) (by omega)
    unfold Ranks genericZrank
    rw [run_get present]
    unfold Value.zcard Value.zrank
    dsimp only
    rw [isRank]
    change Program.run (machine env) (Program.lift readInclusion (do
      let below ← orPanic (usize ((set.zcard : Int) - rank))
      pure (Response.integer (← orPanic (usize ((below : Int) - 1)))))) db = _
    rw [below]
    change Program.run (machine env) (Program.lift readInclusion (do
      pure (Response.integer (← orPanic (usize
        (((set.zcard - rank : Nat) : Int) - 1)))))) db = _
    rw [last]
    have same : ((set.zcard - rank - 1 : Nat) : Int) =
        set.zcard - 1 - rank := by
      omega
    change some (Except.ok (Response.integer
      ((set.zcard - rank - 1 : Nat) : Int)), db) = _
    rw [same]

/-- A rank is the place of a member in the listing of all members, from behind
the place that is left, and there is none for what is no member.  In front of a
member stand those with a lower score and its ties with an earlier name. -/
theorem ranks
    (present : Present env db dbindex key (.sortedSet set))
    (sound : ValueSortedSet.Sound set)
    (fits : set.skiplist.length ≤ usizeMax) :
    ∃ listing, set.zrange 0 (-1) false false = some listing ∧
      ∀ element,
        (∀ rank : Nat,
          (Ranks env db dbindex key element false (.integer rank) ↔
            listing[rank]? = some element) ∧
          (Ranks env db dbindex key element true
              (.integer (set.zcard - 1 - rank)) ↔
            listing[rank]? = some element)) ∧
        (∀ rev, Ranks env db dbindex key element rev .nil ↔
          set.zscore element = none) ∧
        ∀ (score : F64) (rank : Nat), set.zscore element = some score →
          listing[rank]? = some element →
          set.zcount .unbounded (.excluded score) +
            set.skiplist.countP (ValueSortedSet.tiesBefore score element) =
              rank := by
  refine ⟨_, ValueSortedSet.zrange_all sound fits, ?_⟩
  intro element
  -- the only reply to a command is the one that is computed
  have only : ∀ {rev : Bool} {reply other : Response},
      Ranks env db dbindex key element rev reply →
      Ranks env db dbindex key element rev other → reply = other := by
    intro rev reply other first second
    cases first.symm.trans second
    rfl
  cases held : set.zscore element with
  | none =>
      have nowhere : ∀ rank : Nat,
          (set.skiplist.map SortedSetMember.s)[rank]? ≠ some element := by
        intro rank listed
        obtain ⟨member, among, rfl⟩ :=
          List.mem_map.mp (List.mem_of_getElem? listed)
        cases held.symm.trans (sound.lookup_of_mem among)
      have absent := ranks_absent present held
      refine ⟨fun rank => ⟨?_, ?_⟩, fun rev => ?_, nofun⟩
      · exact iff_of_false (fun ranked => nomatch only ranked (absent false))
          (nowhere rank)
      · exact iff_of_false (fun ranked => nomatch only ranked (absent true))
          (nowhere rank)
      · exact iff_of_true (absent rev) rfl
  | some score =>
      obtain ⟨rank, found⟩ :=
        List.mem_iff_getElem?.mp ((sound.listed element score).mp held)
      obtain ⟨forward, backward⟩ :=
        ranks_present present sound fits held found
      have listed : (set.skiplist.map SortedSetMember.s)[rank]? =
          some element := by
        rw [List.getElem?_map, found]
        rfl
      have unique : ∀ other : Nat,
          (set.skiplist.map SortedSetMember.s)[other]? = some element ↔
            other = rank := by
        intro other
        constructor
        · intro also
          obtain ⟨inside, -⟩ := List.getElem?_eq_some_iff.mp also
          exact (List.getElem?_inj inside sound.once).mp
            (also.trans listed.symm)
        · rintro rfl
          exact listed
      refine ⟨fun other => ⟨?_, ?_⟩, fun rev => ?_, ?_⟩
      · rw [unique]
        constructor
        · intro ranked
          have same := Response.integer.inj (only ranked forward)
          omega
        · rintro rfl
          exact forward
      · rw [unique]
        constructor
        · intro ranked
          have same := Response.integer.inj (only ranked backward)
          omega
        · rintro rfl
          exact backward
      · refine iff_of_false ?_ nofun
        intro missing
        cases rev with
        | true => cases only missing backward
        | false => cases only missing forward
      · intro value other isScore also
        cases isScore
        cases (unique other).mp also
        exact ValueSortedSet.rank_counts sound found

end Command

end

section

attribute [local instance] Platform.integral

namespace Command

/-- The rank of the second member with a score. -/
theorem ranks_third :
    ∃ env db, Ranks env db 0 (text "k") (text "c") false (.integer 2) ∧
      Ranks env db 0 (text "k") (text "c") true
        (.integer (ValueSortedSet.threeMembers.zcard - 1 - (2 : Nat))) := by
  let db := (Database.new {} none).put 0 (text "k")
    (.sortedSet ValueSortedSet.threeMembers)
  have present : Present (.still 0) db 0 (text "k")
      (.sortedSet ValueSortedSet.threeMembers) :=
    ⟨rfl, rfl, (put_sets (Database.new {} none) 0 (text "k")
      (.sortedSet ValueSortedSet.threeMembers)).value_self⟩
  obtain ⟨listing, listed, all⟩ := ranks present
    ValueSortedSet.threeMembers_sound (by decide)
  have names : listing = [text "a", text "b", text "c"] :=
    Option.some.inj (listed.symm.trans (by decide +kernel))
  obtain ⟨forward, backward⟩ := (all (text "c")).1 2
  refine ⟨.still 0, db, forward.mpr ?_, backward.mpr ?_⟩
  · rw [names]
    rfl
  · rw [names]
    rfl

end Command

end

end RedVector
