import RedVector.Command.Atomicity
import RedVector.Command.Present
import RedVector.Command.RangeBounds
import RedVector.Command.SortedCommands
import RedVector.Value.Merges

/-!
# Score updates

ZADD folds scored members over the scores of a sorted set, under its options,
and ZINCRBY adds to one score.  What both leave is told by the score of each
member.
-/

namespace RedVector

open Util Effect Database

section

variable [Platform]

namespace Command

/-! ## Folding pairs over scores -/

/-- The score of each member of a sorted set. -/
abbrev ScoreMap := Bytes → Option F64

/-- The new score of a member that has one already. -/
def newScore (options : ZaddOptions) (old s : F64) : F64 :=
  if options.incr then Platform.f64Add s old else s

/-- What a pair makes of the scores: NX skips members that are present, XX those
that are not, INCR adds to the old score.  A sum that is no number is
refused. -/
def addPair (options : ZaddOptions) (scores : ScoreMap)
    (pair : F64 × Bytes) : ScoreMap :=
  match scores pair.2 with
  | none =>
      if options.xx then scores
      else Function.update scores pair.2 (some pair.1)
  | some old =>
      if options.nx || Platform.f64IsNan (newScore options old pair.1) then
        scores
      else
        Function.update scores pair.2 (some (newScore options old pair.1))

def addAll (options : ZaddOptions) (pairs : List (F64 × Bytes))
    (scores : ScoreMap) : ScoreMap :=
  pairs.foldl (addPair options) scores

/-- A pair counts when it adds a member and, with CH, when it changes a
score. -/
def counts (options : ZaddOptions) (scores : ScoreMap)
    (pair : F64 × Bytes) : Bool :=
  match scores pair.2 with
  | none => !options.xx
  | some old =>
      !options.nx && options.ch && !Platform.f64SameBits old pair.1

/-- How many of the pairs count, each of them after those before it. -/
def countAll (options : ZaddOptions) :
    List (F64 × Bytes) → ScoreMap → Nat
  | [], _ => 0
  | pair :: rest, scores =>
      (if counts options scores pair then 1 else 0) +
        countAll options rest (addPair options scores pair)

/-- The scores that a value stands for, which is a sorted set or nothing. -/
inductive ScoresOf : Value → ScoreMap → Prop where
  | nil : ScoresOf .nil fun _ => none
  | set (set : ValueSortedSet) : ScoresOf (.sortedSet set) set.zscore

/-! ## One pair -/

/-- What `zadd` answers to a pair. -/
def pairAnswer (options : ZaddOptions) (scores : ScoreMap)
    (pair : F64 × Bytes) : Operation Bool :=
  match scores pair.2 with
  | none => .ok (!options.xx)
  | some old =>
      if options.nx then .ok false
      else if options.ch && !options.incr &&
          Platform.f64SameBits old pair.1 then .ok false
      else if Platform.f64IsNan (newScore options old pair.1) then
        .error .notANumberError
      else .ok options.ch

theorem zscore_insert
    (set : ValueSortedSet) (skiplist : OrderedSkipList) (score : F64)
    (element : Bytes) :
    ValueSortedSet.zscore
        (ValueSortedSet.insertMember { set with skiplist := skiplist } score
          element) =
      Function.update set.zscore element (some score) := by
  funext other
  rw [ValueSortedSet.zscore_insertMember, Function.update_apply]
  rfl

/-- A pair for a member that is present. -/
theorem zadd_present
    (options : ZaddOptions) {set : ValueSortedSet} {member : Bytes}
    {old : F64} (held : set.zscore member = some old) (s : F64) :
    set.zadd s member options.nx options.xx options.ch options.incr false =
      if options.nx then .ok (false, set)
      else if options.ch && !options.incr && Platform.f64SameBits old s then
        .ok (false, set)
      else if Platform.f64IsNan (newScore options old s) then
        .error .notANumberError
      else
        .ok (options.ch, ValueSortedSet.insertMember
          { set with skiplist := set.skiplist.remove (.new old member) }
          (newScore options old s) member) := by
  have held : set.hmap.lookup member = some old := held
  unfold ValueSortedSet.zadd
  rw [held]
  simp only [Bool.not_false, Bool.and_true]
  change (if options.nx = true then _ else if _ then _ else
    if Platform.f64IsNan (newScore options old s) = true then _
    else Except.ok (options.ch, ValueSortedSet.insertMember _
      (ValueSortedSet.zeroed (newScore options old s)) member)) = _
  by_cases nan : Platform.f64IsNan (newScore options old s) = true
  · rw [if_pos nan, if_pos nan]
  · rw [ValueSortedSet.zeroed_number (Bool.eq_false_iff.mpr nan)]

/-- A pair for a member that is absent. -/
theorem zadd_absent
    (options : ZaddOptions) {set : ValueSortedSet} {member : Bytes}
    (absent : set.zscore member = none) {s : F64}
    (number : Platform.f64IsNan s = false) :
    set.zadd s member options.nx options.xx options.ch options.incr false =
      if options.xx then .ok (false, set)
      else .ok (true, set.insertMember s member) := by
  have absent : set.hmap.lookup member = none := absent
  unfold ValueSortedSet.zadd
  rw [absent, number]
  rfl

theorem zadd_set
    (bits : Platform.Bits) (options : ZaddOptions) (set : ValueSortedSet)
    {s : F64} (number : Platform.f64IsNan s = false) (member : Bytes) :
    ∃ after, (Value.sortedSet set).zadd s member options.nx options.xx
        options.ch options.incr =
          (pairAnswer options set.zscore (s, member), after) ∧
      ScoresOf after (addPair options set.zscore (s, member)) := by
  unfold Value.zadd pairAnswer addPair
  dsimp only
  cases held : set.zscore member with
  | none =>
      dsimp only
      rw [zadd_absent options held number]
      cases options.xx with
      | true => exact ⟨_, rfl, .set set⟩
      | false =>
          refine ⟨_, rfl, ?_⟩
          rw [if_neg Bool.false_ne_true,
            ← zscore_insert set set.skiplist s member]
          exact .set _
  | some old =>
      dsimp only
      rw [zadd_present options held]
      by_cases nx : options.nx = true
      · rw [if_pos nx, if_pos nx, nx, Bool.true_or, if_pos rfl]
        exact ⟨_, rfl, .set set⟩
      rw [if_neg nx, if_neg nx, Bool.eq_false_iff.mpr nx, Bool.false_or]
      by_cases same : (options.ch && !options.incr &&
          Platform.f64SameBits old s) = true
      · rw [if_pos same, if_pos same]
        refine ⟨_, rfl, ?_⟩
        simp only [Bool.and_eq_true, Bool.not_eq_true'] at same
        have isScore : newScore options old s = old := by
          unfold newScore
          rw [same.1.2, if_neg Bool.false_ne_true, (bits old s).mp same.2]
        have isNumber : Platform.f64IsNan old = false := by
          rw [(bits old s).mp same.2]
          exact number
        rw [isScore, isNumber, if_neg Bool.false_ne_true, ← held,
          Function.update_eq_self]
        exact .set set
      rw [if_neg same, if_neg same]
      by_cases nan : Platform.f64IsNan (newScore options old s) = true
      · rw [if_pos nan, if_pos nan, if_pos nan]
        exact ⟨_, rfl, .set set⟩
      · rw [if_neg nan, if_neg nan, if_neg nan]
        refine ⟨_, rfl, ?_⟩
        rw [← zscore_insert set (set.skiplist.remove (.new old member))]
        exact .set _

/-- One pair changes the scores as the options say. -/
theorem zadd_scores
    (bits : Platform.Bits) (options : ZaddOptions) {value : Value}
    {scores : ScoreMap} (isScores : ScoresOf value scores) {s : F64}
    (number : Platform.f64IsNan s = false) (member : Bytes) :
    ∃ after, value.zadd s member options.nx options.xx options.ch
        options.incr = (pairAnswer options scores (s, member), after) ∧
      ScoresOf after (addPair options scores (s, member)) := by
  cases isScores with
  | set set => exact zadd_set bits options set number member
  | nil =>
      unfold Value.zadd pairAnswer addPair
      dsimp only
      by_cases xx : options.xx = true
      · rw [if_pos xx, if_pos xx, xx]
        exact ⟨_, rfl, .nil⟩
      · have absent : ValueSortedSet.new.zscore member = none := rfl
        rw [if_neg xx, if_neg xx, zadd_absent options absent number,
          if_neg xx, Bool.eq_false_iff.mpr xx]
        refine ⟨_, rfl, ?_⟩
        have inserted := zscore_insert .new ValueSortedSet.new.skiplist s
          member
        have isNone : (ValueSortedSet.new : ValueSortedSet).zscore =
            fun _ => none := rfl
        rw [isNone] at inserted
        rw [← inserted]
        exact .set _

/-! ## All pairs -/

/-- A pair is skipped or gives its member a score. -/
theorem addPair_cases
    (options : ZaddOptions) (scores : ScoreMap) (pair : F64 × Bytes) :
    addPair options scores pair = scores ∨
      ∃ score, addPair options scores pair =
        Function.update scores pair.2 (some score) := by
  unfold addPair
  cases scores pair.2 with
  | none =>
      dsimp only
      split
      · exact .inl rfl
      · exact .inr ⟨_, rfl⟩
  | some old =>
      dsimp only
      split
      · exact .inl rfl
      · exact .inr ⟨_, rfl⟩

theorem addPair_present
    (options : ZaddOptions) {scores : ScoreMap} {member : Bytes}
    (present : scores member ≠ none) (pair : F64 × Bytes) :
    addPair options scores pair member ≠ none := by
  rcases addPair_cases options scores pair with same | ⟨score, set⟩
  · rw [same]
    exact present
  · rw [set, Function.update_apply]
    split
    · exact nofun
    · exact present

theorem addPair_other
    (options : ZaddOptions) (scores : ScoreMap) {member : Bytes}
    {pair : F64 × Bytes} (other : member ≠ pair.2) :
    addPair options scores pair member = scores member := by
  rcases addPair_cases options scores pair with same | ⟨score, set⟩
  · rw [same]
  · rw [set, Function.update_of_ne other]

/-- A pair that does not count with CH leaves the scores. -/
theorem addPair_same
    (bits : Platform.Bits) {options : ZaddOptions} {scores : ScoreMap}
    {pair : F64 × Bytes} (ch : options.ch = true)
    (replaces : options.incr = false)
    (idle : counts options scores pair = false) :
    addPair options scores pair = scores := by
  unfold counts at idle
  unfold addPair newScore
  rw [replaces]
  cases held : scores pair.2 with
  | none =>
      rw [held] at idle
      dsimp only at idle ⊢
      rw [if_pos (by simpa using idle)]
  | some old =>
      rw [held, ch, Bool.and_true] at idle
      dsimp only at idle ⊢
      rw [if_neg Bool.false_ne_true]
      cases plain : options.nx with
      | true => rfl
      | false =>
          rw [plain, Bool.not_false, Bool.true_and, Bool.not_eq_false'] at idle
          rw [← (bits old pair.1).mp idle, ← held, Function.update_eq_self,
            ite_self]

/-- Without CH no pair counts that is skipped or whose member is present. -/
theorem countAll_eq_zero
    {options : ZaddOptions} (plain : options.ch = false)
    {pairs : List (F64 × Bytes)} {scores : ScoreMap}
    (skipped : options.xx = true ∨
      ∀ pair ∈ pairs, scores pair.2 ≠ none) :
    countAll options pairs scores = 0 := by
  induction pairs generalizing scores with
  | nil => rfl
  | cons pair rest ih =>
      have idle : counts options scores pair = false := by
        unfold counts
        cases held : scores pair.2 with
        | some old => simp [plain]
        | none =>
            rcases skipped with xx | present
            · simp [xx]
            · exact absurd held (present pair List.mem_cons_self)
      unfold countAll
      rw [idle, if_neg Bool.false_ne_true, Nat.zero_add]
      apply ih
      refine skipped.imp_right ?_
      intro present other among
      exact addPair_present options (present other (.tail pair among)) pair

/-- A pair whose member is absent counts, unless that is skipped. -/
theorem countAll_absent
    {options : ZaddOptions} (adds : options.xx = false)
    {pairs : List (F64 × Bytes)} {scores : ScoreMap}
    (absent : ∃ pair ∈ pairs, scores pair.2 = none) :
    0 < countAll options pairs scores := by
  induction pairs generalizing scores with
  | nil =>
      obtain ⟨pair, among, -⟩ := absent
      cases among
  | cons pair rest ih =>
      unfold countAll
      cases held : scores pair.2 with
      | none =>
          have counted : counts options scores pair = true := by
            unfold counts
            rw [held, adds]
            rfl
          rw [if_pos counted]
          exact Nat.lt_of_lt_of_le Nat.zero_lt_one (Nat.le_add_right _ _)
      | some old =>
          obtain ⟨other, among, missing⟩ := absent
          have different : other.2 ≠ pair.2 := by
            intro same
            rw [same] at missing
            cases held.symm.trans missing
          have later : other ∈ rest := by
            rcases List.mem_cons.mp among with same | later
            · exact absurd (congrArg Prod.snd same) different
            · exact later
          apply Nat.lt_of_lt_of_le (ih ⟨other, later, ?_⟩)
            (Nat.le_add_left _ _)
          rw [addPair_other options scores different]
          exact missing

/-- With CH every change counts. -/
theorem countAll_changed
    (bits : Platform.Bits) {options : ZaddOptions} (ch : options.ch = true)
    (replaces : options.incr = false) {pairs : List (F64 × Bytes)}
    {scores : ScoreMap} (changed : addAll options pairs scores ≠ scores) :
    0 < countAll options pairs scores := by
  induction pairs generalizing scores with
  | nil => exact absurd rfl changed
  | cons pair rest ih =>
      unfold countAll
      cases idle : counts options scores pair with
      | true =>
          rw [if_pos rfl]
          exact Nat.lt_of_lt_of_le Nat.zero_lt_one (Nat.le_add_right _ _)
      | false =>
          have same := addPair_same bits ch replaces idle
          rw [if_neg Bool.false_ne_true, Nat.zero_add, same]
          apply ih
          unfold addAll at changed ⊢
          rw [List.foldl_cons, same] at changed
          exact changed

/-- When ZADD tells of a change: CH is given, or a member is added. -/
def Tells (options : ZaddOptions) (pairs : List (F64 × Bytes))
    (scores : ScoreMap) : Prop :=
  options.ch = true ∨
    options.xx = false ∧ ∃ pair ∈ pairs, scores pair.2 = none

theorem countAll_tells
    (bits : Platform.Bits) {options : ZaddOptions}
    (replaces : options.incr = false) {pairs : List (F64 × Bytes)}
    {scores : ScoreMap} (changed : addAll options pairs scores ≠ scores) :
    0 < countAll options pairs scores ↔ Tells options pairs scores := by
  constructor
  · intro positive
    by_contra silent
    have plain : options.ch = false := by
      cases ch : options.ch with
      | false => rfl
      | true => exact absurd (.inl ch) silent
    have nothing : countAll options pairs scores = 0 := by
      apply countAll_eq_zero plain
      cases xx : options.xx with
      | true => exact .inl rfl
      | false =>
          right
          intro pair among absent
          exact silent (.inr ⟨xx, pair, among, absent⟩)
    omega
  · intro tells
    rcases tells with ch | ⟨adds, absent⟩
    · exact countAll_changed bits ch replaces changed
    · exact countAll_absent adds absent

theorem addAll_present
    (options : ZaddOptions) (pairs : List (F64 × Bytes)) {scores : ScoreMap}
    {member : Bytes} (present : scores member ≠ none) :
    addAll options pairs scores member ≠ none := by
  induction pairs generalizing scores with
  | nil => exact present
  | cons pair rest ih => exact ih (addPair_present options present pair)

/-- What counts is there. -/
theorem countAll_full
    {options : ZaddOptions} {pairs : List (F64 × Bytes)} {scores : ScoreMap}
    (positive : 0 < countAll options pairs scores) :
    ∃ member, addAll options pairs scores member ≠ none := by
  induction pairs generalizing scores with
  | nil => cases positive
  | cons pair rest ih =>
      unfold countAll at positive
      cases counted : counts options scores pair with
      | false =>
          rw [counted, if_neg Bool.false_ne_true, Nat.zero_add] at positive
          exact ih positive
      | true =>
          refine ⟨pair.2, addAll_present options rest ?_⟩
          cases held : scores pair.2 with
          | some old =>
              exact addPair_present options (by rw [held]; exact nofun) pair
          | none =>
              unfold counts at counted
              unfold addPair
              rw [held] at counted ⊢
              dsimp only at counted ⊢
              rw [if_neg (by simpa using counted), Function.update_self]
              exact nofun

/-- An answer that a key was changed. -/
def Told (answer : Operation Nat) : Prop :=
  ∃ count, answer = .ok count ∧ 0 < count

/-- What `zadd` leaves of a value for all pairs. -/
structure Folds (options : ZaddOptions) (pairs : List (F64 × Bytes))
    (scores : ScoreMap) (answer : Operation Nat) (after : Value) : Prop where
  folded : ScoresOf after (addAll options pairs scores)
  counted : options.incr = false →
    answer = .ok (countAll options pairs scores)
  told : addAll options pairs scores ≠ scores →
    (Told answer ↔ Tells options pairs scores)
  full : Told answer → ∃ member, addAll options pairs scores member ≠ none

/-- Pairs that replace scores are all taken. -/
theorem zaddAll_replaces
    (bits : Platform.Bits) {options : ZaddOptions}
    (replaces : options.incr = false) {pairs : List (F64 × Bytes)}
    (numbers : ∀ pair ∈ pairs, Platform.f64IsNan pair.1 = false)
    {value : Value} {scores : ScoreMap} (isScores : ScoresOf value scores) :
    ∃ after, zaddAll options pairs value =
        (.ok (countAll options pairs scores), after) ∧
      ScoresOf after (addAll options pairs scores) := by
  induction pairs generalizing value scores with
  | nil => exact ⟨value, rfl, isScores⟩
  | cons pair rest ih =>
      have number := numbers pair List.mem_cons_self
      obtain ⟨between, first, isBetween⟩ :=
        zadd_scores bits options isScores number pair.2
      obtain ⟨after, others, isAfter⟩ :=
        ih (fun other among => numbers other (.tail pair among)) isBetween
      have answered : pairAnswer options scores (pair.1, pair.2) =
          .ok (counts options scores pair) := by
        unfold pairAnswer counts newScore
        rw [replaces]
        cases scores pair.2 with
        | none => rfl
        | some old =>
            dsimp only
            rw [if_neg Bool.false_ne_true, number]
            cases options.nx with
            | true => rfl
            | false =>
                cases options.ch with
                | false => rfl
                | true => cases Platform.f64SameBits old pair.1 <;> rfl
      refine ⟨after, ?_, isAfter⟩
      unfold zaddAll countAll
      rw [first, answered]
      dsimp only
      rw [others]
      dsimp only
      split
      · rw [Nat.add_comm]
      · rw [Nat.zero_add]

/-- A single pair, under any options. -/
theorem zaddAll_single
    (bits : Platform.Bits) (options : ZaddOptions) {pair : F64 × Bytes}
    (number : Platform.f64IsNan pair.1 = false) {value : Value}
    {scores : ScoreMap} (isScores : ScoresOf value scores) :
    ∃ after, zaddAll options [pair] value =
        ((pairAnswer options scores pair).map fun added =>
          if added then 1 else 0, after) ∧
      ScoresOf after (addPair options scores pair) := by
  obtain ⟨after, first, isAfter⟩ :=
    zadd_scores bits options isScores number pair.2
  refine ⟨after, ?_, isAfter⟩
  unfold zaddAll
  rw [first]
  cases pairAnswer options scores pair with
  | error error => rfl
  | ok added => cases added <;> rfl

/-- An increment that changes a score tells of it when it adds the member or
CH is given. -/
theorem pairAnswer_tells
    {options : ZaddOptions} (adds : options.incr = true) {pair : F64 × Bytes}
    {scores : ScoreMap} (changed : addPair options scores pair ≠ scores) :
    pairAnswer options scores pair = .ok true ↔
      Tells options [pair] scores := by
  unfold addPair at changed
  unfold pairAnswer Tells
  simp only [List.mem_singleton, exists_eq_left]
  cases held : scores pair.2 with
  | none =>
      rw [held] at changed
      dsimp only at changed ⊢
      cases xx : options.xx with
      | true => exact absurd (if_pos xx) changed
      | false => exact iff_of_true rfl (.inr ⟨rfl, rfl⟩)
  | some old =>
      rw [held] at changed
      dsimp only at changed ⊢
      cases nx : options.nx with
      | true => exact absurd (if_pos (by rw [nx]; rfl)) changed
      | false =>
          rw [nx, Bool.false_or] at changed
          cases nan : Platform.f64IsNan (newScore options old pair.1) with
          | true => exact absurd (if_pos nan) changed
          | false =>
              rw [adds, Bool.not_true, Bool.and_false, Bool.false_and]
              simp

theorem pairAnswer_full
    {options : ZaddOptions} {pair : F64 × Bytes} {scores : ScoreMap}
    (told : pairAnswer options scores pair = .ok true) :
    addPair options scores pair pair.2 ≠ none := by
  cases held : scores pair.2 with
  | some old =>
      exact addPair_present options (by rw [held]; exact nofun) pair
  | none =>
      unfold pairAnswer at told
      unfold addPair
      rw [held] at told ⊢
      dsimp only at told ⊢
      have adds : (!options.xx) = true := Except.ok.inj told
      rw [if_neg (by simpa using adds), Function.update_self]
      exact nofun

theorem zaddAll_folds
    (bits : Platform.Bits) {options : ZaddOptions}
    {pairs : List (F64 × Bytes)} (given : Scores options pairs)
    {value : Value} {scores : ScoreMap} (isScores : ScoresOf value scores) :
    Folds options pairs scores (zaddAll options pairs value).1
      (zaddAll options pairs value).2 := by
  cases incr : options.incr with
  | false =>
      obtain ⟨after, ran, isAfter⟩ :=
        zaddAll_replaces bits incr given.numbers isScores
      rw [ran]
      have told : Told (.ok (countAll options pairs scores)) ↔
          0 < countAll options pairs scores := by
        constructor
        · rintro ⟨count, isCount, positive⟩
          cases isCount
          exact positive
        · intro positive
          exact ⟨_, rfl, positive⟩
      refine ⟨isAfter, fun _ => rfl, ?_, ?_⟩
      · intro changed
        exact told.trans (countAll_tells bits incr changed)
      · intro isTold
        exact countAll_full (told.mp isTold)
  | true =>
      match pairs, given with
      | [], _ =>
          refine ⟨isScores, fun _ => rfl, fun changed => absurd rfl changed,
            ?_⟩
          rintro ⟨count, isCount, positive⟩
          cases isCount
          cases positive
      | [pair], given =>
          obtain ⟨after, ran, isAfter⟩ :=
            zaddAll_single bits options
              (given.numbers pair List.mem_cons_self) isScores
          rw [ran]
          have told : Told ((pairAnswer options scores pair).map fun added =>
              if added then 1 else 0) ↔
              pairAnswer options scores pair = .ok true := by
            unfold Told
            rcases pairAnswer options scores pair with error | (_ | _)
            all_goals simp [Except.map]
          refine ⟨isAfter, fun replaces => ?_, ?_, ?_⟩
          · cases incr.symm.trans replaces
          · intro changed
            exact told.trans (pairAnswer_tells incr changed)
          · intro isTold
            exact ⟨pair.2, pairAnswer_full (told.mp isTold)⟩
      | _ :: _ :: _, given =>
          have short := given.single incr
          simp at short

theorem zadd_sound
    {value : Value} (sound : value.Sound) (s : F64) (element : Bytes)
    (nx xx ch incr : Bool) :
    (value.zadd s element nx xx ch incr).2.Sound := by
  unfold Value.zadd
  cases value with
  | nil =>
      dsimp only
      split
      · trivial
      · split
        · rename_i added
          exact ValueSortedSet.zadd_sound ValueSortedSet.sound_new added
        · trivial
  | sortedSet set =>
      dsimp only
      split
      · rename_i added
        exact ValueSortedSet.zadd_sound sound added
      · exact sound
  | _ => trivial

theorem zaddAll_sound
    {value : Value} (sound : value.Sound) (options : ZaddOptions)
    (pairs : List (F64 × Bytes)) :
    (zaddAll options pairs value).2.Sound :=
  Value.zaddAll_keeps Value.Sound (fun _ s element sound =>
    zadd_sound sound s element options.nx options.xx options.ch options.incr)
    sound pairs

/-- A value with a score is not empty. -/
theorem ScoresOf.full
    {value : Value} {scores : ScoreMap} (isScores : ScoresOf value scores)
    {member : Bytes} (present : scores member ≠ none) :
    value.isEmpty = false := by
  cases isScores with
  | nil => exact absurd rfl present
  | set set =>
      have among : member ∈ set.hmap.keys := by
        by_contra absent
        exact present (Finmap.lookup_eq_none.mpr absent)
      have positive : 0 < set.zcard := Finset.card_pos.mpr ⟨member, among⟩
      have nonzero : set.zcard ≠ 0 := by omega
      simpa [Value.isEmpty] using nonzero

/-! ## Increments -/

/-- When ZINCRBY leaves what ZADD with INCR leaves: a sum that is no number is
not in the way of the old entry, and a new member gets its score as it is. -/
def Alike (value : Value) (s : F64) (member : Bytes) : Prop :=
  ∀ set, value = .sortedSet set →
    match set.zscore member with
    | some old =>
        Platform.f64IsNan (Platform.f64Add s old) = true →
          set.skiplist.remove (.new old member) = set.skiplist
    | none => Platform.f64Add Platform.f64Zero s = s

theorem zaddAll_singleton
    (options : ZaddOptions) (pair : F64 × Bytes) (value : Value) :
    (zaddAll options [pair] value).2 =
      (value.zadd pair.1 pair.2 options.nx options.xx options.ch
        options.incr).2 := by
  unfold zaddAll
  split
  · rename_i added
    rw [added]
  · rename_i added
    rw [added]
    rfl

theorem zincrby_present
    (laws : Platform.Arithmetic) {options : ZaddOptions}
    (adds : options.incr = true) (all : options.nx = false)
    {set : ValueSortedSet} {s old : F64} {member : Bytes}
    (held : set.zscore member = some old) :
    (Value.zincrby s member (.sortedSet set)).2 =
        (zaddAll options [(s, member)] (.sortedSet set)).2 ↔
      (Platform.f64IsNan (Platform.f64Add s old) = true →
        set.skiplist.remove (.new old member) = set.skiplist) := by
  have found : set.hmap.lookup member = some old := held
  rw [zaddAll_singleton]
  unfold Value.zincrby Value.zadd ValueSortedSet.zincrby
  dsimp only
  rw [zadd_present options held, found, all, adds,
    if_neg Bool.false_ne_true, Bool.not_true, Bool.and_false,
    Bool.false_and, if_neg Bool.false_ne_true]
  unfold newScore
  rw [if_pos adds]
  dsimp only
  cases nan : Platform.f64IsNan (Platform.f64Add s old) with
  | true =>
      have also : Platform.f64IsNan (Platform.f64Add old s) = true := by
        cases other : Platform.f64IsNan (Platform.f64Add old s) with
        | true => rfl
        | false =>
            rw [laws.add_comm old s other, other] at nan
            cases nan
      rw [also, if_pos rfl, if_pos rfl]
      dsimp only [Value.failed]
      constructor
      · intro same _
        cases set
        exact congrArg ValueSortedSet.skiplist (Value.sortedSet.inj same)
      · intro same
        rw [same rfl]
  | false =>
      rw [laws.add_comm s old nan, nan, if_neg Bool.false_ne_true,
        if_neg Bool.false_ne_true]
      exact iff_of_true rfl nofun

theorem zincrby_absent
    {options : ZaddOptions} (all : options.xx = false)
    {set : ValueSortedSet} {s : F64} {member : Bytes}
    (number : Platform.f64IsNan s = false)
    (absent : set.zscore member = none) :
    (Value.zincrby s member (.sortedSet set)).2 =
        (zaddAll options [(s, member)] (.sortedSet set)).2 ↔
      Platform.f64Add Platform.f64Zero s = s := by
  have missing : set.hmap.lookup member = none := absent
  have stored : (set.insertMember s member).zscore member = some s :=
    Finmap.lookup_insert _
  rw [zaddAll_singleton]
  unfold Value.zincrby Value.zadd ValueSortedSet.zincrby
  dsimp only
  rw [zadd_absent options absent number, missing, all,
    if_neg Bool.false_ne_true]
  dsimp only
  cases nan : Platform.f64IsNan (Platform.f64Add Platform.f64Zero s) with
  | true =>
      rw [if_pos rfl]
      constructor
      · intro same
        have same := Value.sortedSet.inj same
        rw [← same, absent] at stored
        cases stored
      · intro same
        rw [same, number] at nan
        cases nan
  | false =>
      rw [if_neg Bool.false_ne_true]
      constructor
      · intro same
        have same := Value.sortedSet.inj same
        rw [← same] at stored
        have sum : (set.insertMember (Platform.f64Add Platform.f64Zero s)
            member).zscore member =
              some (Platform.f64Add Platform.f64Zero s) :=
          Finmap.lookup_insert _
        exact Option.some.inj (sum.symm.trans stored)
      · intro same
        rw [same]

theorem zincrby_alike
    (laws : Platform.Arithmetic) {options : ZaddOptions}
    (adds : options.incr = true) (nx : options.nx = false)
    (xx : options.xx = false) {value : Value} {scores : ScoreMap}
    (isScores : ScoresOf value scores) {s : F64} {member : Bytes}
    (number : Platform.f64IsNan s = false) :
    (value.zincrby s member).2 = (zaddAll options [(s, member)] value).2 ↔
      Alike value s member := by
  cases isScores with
  | nil =>
      have absent : ValueSortedSet.new.zscore member = none := rfl
      have plain := zadd_absent {} absent number
      have taken := zadd_absent options absent number
      rw [if_neg (Bool.eq_false_iff.mp xx)] at taken
      refine iff_of_true ?_ (fun set => nofun)
      rw [zaddAll_singleton]
      unfold Value.zincrby Value.zadd
      dsimp only at plain ⊢
      rw [plain, if_neg (Bool.eq_false_iff.mp xx), taken]
      rfl
  | set set =>
      unfold Alike
      simp only [Value.sortedSet.injEq, forall_eq']
      cases held : set.zscore member with
      | some old => exact zincrby_present laws adds nx held
      | none => exact zincrby_absent xx number held

/-- An increment that succeeds leaves a member. -/
theorem zincrby_full
    {value : Value} {scores : ScoreMap} (isScores : ScoresOf value scores)
    {s newscore : F64} {member : Bytes}
    (number : Platform.f64IsNan s = false)
    (added : (value.zincrby s member).1 = .ok newscore) :
    (value.zincrby s member).2.isEmpty = false := by
  have inserted : ∀ (set : ValueSortedSet) (score : F64),
      (Value.sortedSet (set.insertMember score member)).isEmpty = false := by
    intro set score
    apply (ScoresOf.set (set.insertMember score member)).full
    · have stored : (set.insertMember score member).zscore member =
          some score := Finmap.lookup_insert _
      rw [stored]
      exact nofun
  cases isScores with
  | nil =>
      have absent : ValueSortedSet.new.zscore member = none := rfl
      have run := zadd_absent {} absent number
      unfold Value.zincrby Value.zadd
      dsimp only at run ⊢
      rw [run]
      exact inserted _ _
  | set set =>
      unfold Value.zincrby ValueSortedSet.zincrby at added ⊢
      dsimp only at added ⊢
      cases held : set.hmap.lookup member with
      | none =>
          rw [held] at added
          dsimp only at added ⊢
          split at added
          · cases added
          · rename_i isNumber
            rw [if_neg isNumber]
            exact inserted _ _
      | some old =>
          rw [held] at added
          dsimp only at added ⊢
          split at added
          · cases added
          · rename_i isNumber
            rw [if_neg isNumber]
            exact inserted _ _

/-! ## The commands -/

section Runs

variable {env : Env} {db created : Database} {argv : Arguments}
  {dbindex : Nat} {key : Bytes} {options : ZaddOptions}
  {pairs : List (F64 × Bytes)} {value : Value}

/-- A value with members stays when its key is updated. -/
theorem put_stays
    (created : Database) (dbindex : Nat) (key : Bytes) {changed : Value}
    (full : changed.isEmpty = false) :
    (created.put dbindex key changed).vanishing (dbindex, key) = false := by
  unfold vanishing
  rw [(put_sets created dbindex key changed).value_self]
  exact full

/-- The handler folds the pairs over the value and updates the key when it was
told of something. -/
theorem ensures_zadd
    {post : Except Response Response → Database → Prop}
    (read : zaddArguments argv = .ok (options, pairs))
    (named : argv.getVec 1 = .ok key)
    (full : ∀ answer changed,
      zaddAll options pairs ((db.value (dbindex, key)).getD .nil) =
        (answer, changed) → Told answer → changed.isEmpty = false)
    (step : ∀ created answer changed after, db.inBounds dbindex = true →
      db.getOrCreate env dbindex key =
        some ((db.value (dbindex, key)).getD .nil, created) →
      zaddAll options pairs ((db.value (dbindex, key)).getD .nil) =
        (answer, changed) →
      after.value = (created.put dbindex key changed).value →
      after.expiration = created.expiration →
      (Told answer → after.updates = (dbindex, key) :: db.updates) →
      (¬Told answer → after.updates = db.updates) →
      post (.ok (respond answer fun count => .integer count)) after) :
    Ensures env (zadd argv dbindex) post db := by
  unfold zadd createThen
  refine Program.ensures_ofExcept_bind ?_ ?_
  · intro error failed
    cases failed.symm.trans read
  intro arguments isRead
  cases isRead.symm.trans read
  refine ensures_valid (fun _ _ failed => nomatch failed.symm.trans named) ?_
  intro name isName
  cases isName.symm.trans named
  rw [bind_assoc]
  refine ensures_op (.getOrCreate dbindex key) ?_
  intro value created performed
  obtain ⟨inside, creation⟩ := checked_eq_some.mp performed
  obtain ⟨isValue, creates⟩ := getOrCreate_creates creation
  subst isValue
  rw [bind_assoc]
  refine Program.ensures_orPanic_bind ?_
  rintro ⟨answer, changed⟩ folds
  have folds := Option.some.inj folds
  dsimp only
  rw [bind_assoc]
  refine ensures_put ?_
  intro _
  have step := step created answer changed
  have quiet : (created.put dbindex key changed).updates = db.updates :=
    creates.silent.updates
  rw [pure_bind]
  unfold updateOnCount
  cases answer with
  | error error =>
      refine Program.ensures_pure ?_
      refine step _ inside creation folds rfl rfl ?_ (fun _ => quiet)
      rintro ⟨count, ⟨⟩, -⟩
  | ok count =>
      dsimp only
      by_cases positive : 0 < count
      · have told : Told (.ok count) := ⟨count, rfl, positive⟩
        rw [if_pos positive]
        refine ensures_keyUpdated ?_
        intro after updated
        obtain ⟨_, same, values, expirations, updates⟩ :=
          keyUpdated_announces env
            (put_stays created dbindex key (full _ _ folds told))
        cases same.symm.trans updated
        refine Program.ensures_pure ?_
        refine step after inside creation folds values expirations ?_
          (absurd told)
        intro _
        rw [updates, quiet]
      · rw [if_neg positive]
        refine Program.ensures_pure ?_
        refine step _ inside creation folds rfl rfl ?_ (fun _ => quiet)
        rintro ⟨_, ⟨⟩, holds⟩
        exact absurd holds positive

/-- The arguments of ZINCRBY. -/
structure Incrementing (argv : Arguments) (key : Bytes) (s : F64)
    (member : Bytes) : Prop where
  length : argv.length = 4
  key : argv.getVec 1 = .ok key
  increment : argv.getF64 2 = .ok s
  member : argv.getVec 3 = .ok member

/-- ZINCRBY runs from where ZADD does. -/
theorem zincrby_runs
    {s : F64} {member : Bytes} {scores : ScoreMap}
    (incrementing : Incrementing argv key s member)
    (inside : db.inBounds dbindex = true)
    (creation : db.getOrCreate env dbindex key = some (value, created))
    (isScores : ScoresOf value scores) :
    ∃ result after,
      (zincrby argv dbindex).run (machine env) db = some (result, after) ∧
      after.value =
        (created.put dbindex key (value.zincrby s member).2).value ∧
      after.expiration = created.expiration := by
  obtain ⟨-, creates⟩ := getOrCreate_creates creation
  have within : created.inBounds dbindex = true := by
    unfold inBounds at inside ⊢
    rw [creates.frame.config]
    exact inside
  have number := Arguments.getF64_number incrementing.increment
  have made : db.perform env (.getOrCreate dbindex key) =
      some (value, created) :=
    checked_eq_some.mpr ⟨inside, creation⟩
  have puts : ∀ changed, created.perform env (.put dbindex key changed) =
      some ((), created.put dbindex key changed) :=
    fun changed => checked_eq_some.mpr ⟨within, rfl⟩
  have steps : (zincrby argv dbindex).run (machine env) db =
      (updateOnSuccess dbindex key (value.zincrby s member).1 fun newscore =>
        .data (Platform.f64ToString newscore)).run (machine env)
          (created.put dbindex key (value.zincrby s member).2) := by
    unfold zincrby validateArgumentsExact
    rw [if_pos incrementing.length, incrementing.key, incrementing.increment,
      incrementing.member]
    exact (run_op made _).trans (run_op (puts _) _)
  rw [steps]
  unfold updateOnSuccess
  cases answer : (value.zincrby s member).1 with
  | error error => exact ⟨_, _, rfl, rfl, rfl⟩
  | ok newscore =>
      obtain ⟨after, updated, values, expirations, -⟩ :=
        keyUpdated_announces env
          (put_stays created dbindex key (zincrby_full isScores number answer))
      have performed : (created.put dbindex key
          (value.zincrby s member).2).perform env (.keyUpdated dbindex key) =
            some ((), after) :=
        checked_eq_some.mpr ⟨within, silently_eq_some.mpr updated⟩
      exact ⟨_, after, run_op performed _, values, expirations⟩

/-- What ZADD is for: it folds the pairs over the scores, counts what it adds
and changes, tells of every change, and leaves with INCR what ZINCRBY
leaves. -/
structure ScoresUpdated (env : Env) (before after : Database) (dbindex : Nat)
    (key : Bytes) (options : ZaddOptions) (pairs : List (F64 × Bytes))
    (scores : ScoreMap) (result : Except Response Response) : Prop where
  folded : ScoresOf ((after.value (dbindex, key)).getD .nil)
    (addAll options pairs scores)
  sound : ((before.value (dbindex, key)).getD .nil).Sound →
    ((after.value (dbindex, key)).getD .nil).Sound
  counted : options.incr = false →
    result = .ok (.integer (countAll options pairs scores))
  told : addAll options pairs scores ≠ scores →
    after.updates = (dbindex, key) :: before.updates
  increments : options.incr = true → options.nx = false →
    options.xx = false → ∀ s member, pairs = [(s, member)] →
      ∀ argv, Incrementing argv key s member →
        Ensures env (zincrby argv dbindex)
          (fun _ last => last.value = after.value ∧
            last.expiration = after.expiration) before

/-- A score and a member that ZADD accepts can be given to ZINCRBY. -/
theorem zaddArguments_incrementing
    {s : F64} {member : Bytes}
    (read : zaddArguments argv = .ok (options, [(s, member)]))
    (key : Bytes) : ∃ other, Incrementing other key s member := by
  have scored : ∃ words, scoredMembers words = .ok [(s, member)] := by
    unfold zaddArguments validate at read
    split at read
    · cases flags : zaddOptions 4 (argv.drop 2) {} with
      | mk found words =>
        rw [flags] at read
        change (if (found.xx && found.nx) = true then _ else _) = _ at read
        split at read
        · cases read
        · split at read
          · cases read
          · split at read
            · cases read
            · cases members : scoredMembers words with
              | error error =>
                  rw [members] at read
                  cases read
              | ok others =>
                  rw [members] at read
                  cases read
                  exact ⟨words, members⟩
    · cases read
  obtain ⟨words, scored⟩ := scored
  match words with
  | [] | [_] => cases scored
  | score :: name :: rest =>
      unfold scoredMembers at scored
      cases isScore : Arguments.getF64 [score] 0 with
      | error error =>
          rw [isScore] at scored
          cases scored
      | ok found =>
          rw [isScore] at scored
          cases isRest : scoredMembers rest with
          | error error =>
              rw [isRest] at scored
              cases scored
          | ok others =>
              rw [isRest] at scored
              cases scored
              exact ⟨[[], key, score, member], rfl, rfl, isScore, rfl⟩

end Runs

end Command

end

namespace Command

section

attribute [local instance] Platform.exact

/-- A database with one sorted set. -/
def oneScore : Database :=
  (Database.new {} none).put 0 (text "k")
    (.sortedSet (single (ExactFloat.number 1) (text "m")))

theorem oneScore_held :
    oneScore.value (0, text "k") = some
      (.sortedSet (single (ExactFloat.number 1) (text "m"))) :=
  (put_sets (Database.new {} none) 0 (text "k") _).value_self

end

end Command

end RedVector
