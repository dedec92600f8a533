import RedVector.Command.SortedSets
import RedVector.ExactFloat
import RedVector.Value.Bounds

/-!
# Bounds as they are written

The arguments of a range become bounds before it is known on which side they
stand.  The bounds select what the arguments say unless an infinity stands on
the side where it should exclude everything.
-/

namespace RedVector.Command

open Util ValueSortedSet

section

variable [Platform]

/-! ## What the arguments say -/

/-- The bound that an argument names on either side: the score that it is read
as, with the infinities, or a score behind a parenthesis that is left out. -/
def scoreBound (s : Bytes) : Except ParseError (Bound F64) :=
  match s with
  | 40 :: limit => do pure (.excluded (← Arguments.parseF64 limit))
  | _ => do pure (.included (← Arguments.getF64 [s] 0))

/-- A name satisfies an argument as a minimum; nothing is above `+`. -/
def nameAbove (m name : Bytes) : Bool :=
  match m with
  | 91 :: limit => !nameLess name limit
  | 40 :: limit => nameLess limit name
  | _ => m = text "-"

/-- A name satisfies an argument as a maximum; nothing is below `-`. -/
def nameBelow (m name : Bytes) : Bool :=
  match m with
  | 91 :: limit => !nameLess limit name
  | 40 :: limit => nameLess name limit
  | _ => m = text "+"

/-! ## Scores -/

omit [Platform] in
theorem getStr_utf8
    {argv : Arguments} {pos : Nat} {s : Bytes}
    (argument : argv.getStr pos = .ok s) : isUtf8 s = true := by
  unfold Arguments.getStr at argument
  cases named : argv.getVec pos with
  | error error =>
      rw [named] at argument
      cases argument
  | ok data =>
      rw [named] at argument
      simp only [bind, Except.bind] at argument
      split at argument
      · rename_i valid
        cases argument
        exact valid
      · cases argument

/-- The bound of an argument that is not an infinity. -/
def finiteBound : Bytes → Except ParseError (Bound F64)
  | 40 :: limit => do pure (.excluded (← Arguments.parseF64 limit))
  | limit => do pure (.included (← Arguments.parseF64 limit))

/-- A bound is what its argument means, but an infinity is no bound. -/
theorem getF64Bound_cases
    {argv : Arguments} {pos : Nat} {s : Bytes} {bound meant : Bound F64}
    (argument : argv.getStr pos = .ok s)
    (read : argv.getF64Bound pos = .ok bound)
    (means : scoreBound s = .ok meant) :
    (s = text "inf" ∨ s = text "+inf") ∧ bound = .unbounded ∧
        meant = .included Platform.f64Infinity ∨
      s = text "-inf" ∧ bound = .unbounded ∧
        meant = .included Platform.f64NegInfinity ∨
      ¬ (s = text "inf" ∨ s = text "+inf") ∧ s ≠ text "-inf" ∧
        bound = meant := by
  have utf8 := getStr_utf8 argument
  have numbers : Arguments.getF64 [s] 0 =
      if s = text "+inf" ∨ s = text "inf" then .ok Platform.f64Infinity
      else if s = text "-inf" then .ok Platform.f64NegInfinity
      else Arguments.parseF64 s := by
    unfold Arguments.getF64 Arguments.getStr Arguments.getVec
    simp only [List.getElem?_cons_zero, bind, Except.bind, utf8, if_true]
    rfl
  have reads : argv.getF64Bound pos =
      if s = text "inf" ∨ s = text "+inf" ∨ s = text "-inf" then
        .ok .unbounded
      else finiteBound s := by
    unfold Arguments.getF64Bound
    rw [argument]
    rfl
  rw [reads] at read
  unfold scoreBound at means
  rw [numbers] at means
  by_cases positive : s = text "inf" ∨ s = text "+inf"
  · left
    rcases positive with rfl | rfl
    · cases read
      cases means
      exact ⟨.inl rfl, rfl, rfl⟩
    · cases read
      cases means
      exact ⟨.inr rfl, rfl, rfl⟩
  right
  by_cases negative : s = text "-inf"
  · left
    subst negative
    cases read
    cases means
    exact ⟨rfl, rfl, rfl⟩
  · right
    refine ⟨positive, negative, ?_⟩
    have plain : ¬ (s = text "inf" ∨ s = text "+inf" ∨ s = text "-inf") := by
      rw [← or_assoc]
      exact not_or.mpr ⟨positive, negative⟩
    rw [if_neg plain] at read
    unfold finiteBound at read
    rw [if_neg (fun either => positive (or_comm.mp either)),
      if_neg negative] at means
    split at read
    · exact Except.ok.inj (read.symm.trans means)
    · rename_i number
      split at means
      · exact (number _ rfl).elim
      · exact Except.ok.inj (read.symm.trans means)

/-- An argument means a limit that is no NaN. -/
theorem scoreBound_number
    {s : Bytes} {meant : Bound F64} (means : scoreBound s = .ok meant) :
    (meant.All fun score => Platform.f64IsNan score = false) ∧
      meant ≠ .unbounded := by
  unfold scoreBound at means
  split at means
  · rename_i limit
    cases read : Arguments.parseF64 limit with
    | error error =>
        rw [read] at means
        cases means
    | ok score =>
        rw [read] at means
        cases means
        exact ⟨Arguments.parseF64_number read, nofun⟩
  · cases read : Arguments.getF64 [s] 0 with
    | error error =>
        rw [read] at means
        cases means
    | ok score =>
        rw [read] at means
        cases means
        exact ⟨Arguments.getF64_number read, nofun⟩

variable {low high min max : Bound F64}

/-- A set with one member. -/
def single (score : F64) (name : Bytes) : ValueSortedSet :=
  ValueSortedSet.new.insertMember score name

theorem single_sound
    {score : F64} (number : Platform.f64IsNan score = false) (name : Bytes) :
    Sound (single score name) :=
  sound_new.insertMember rfl number

theorem single_fits (score : F64) (name : Bytes) :
    (single score name).skiplist.length ≤ usizeMax := by
  change 1 ≤ usizeMax
  decide

omit [Platform] in
theorem length_filter_one {α : Type} (keep : α → Bool) (one : α) :
    ([one].filter keep).length = (keep one).toNat := by
  cases kept : keep one with
  | true => rw [List.filter_cons_of_pos kept]; rfl
  | false => rw [List.filter_cons_of_neg (by simp [kept])]; rfl

/-- Whether the only member of a set is selected is seen in the reply. -/
theorem selects_of_listed
    {selected meant : SortedSetMember → Bool} {member : SortedSetMember}
    {rev : Bool}
    (same : (if rev then ([member].filter selected).reverse
        else [member].filter selected).flatMap (showMember false) =
      (if rev then ([member].filter meant).reverse
        else [member].filter meant).flatMap (showMember false)) :
    selected member = meant member := by
  have length : ∀ keep : SortedSetMember → Bool,
      ((if rev then ([member].filter keep).reverse
        else [member].filter keep).flatMap (showMember false)).length =
      (keep member).toNat := by
    intro keep
    rw [← length_filter_one keep member]
    cases rev with
    | true => simp [List.length_flatMap, showMember]
    | false => simp [List.length_flatMap, showMember]
  have lengths := congrArg List.length same
  rw [length, length] at lengths
  cases first : selected member with
  | true =>
      cases second : meant member with
      | true => rfl
      | false => simp [first, second] at lengths
  | false =>
      cases second : meant member with
      | true => simp [first, second] at lengths
      | false => rfl

/-- Ranges list the same members of every set if the bounds select the same
scores. -/
theorem listed_iff
    {first second : Bound F64} {rev : Bool}
    (handed : (if rev then (second, first) else (first, second)) =
      (low, high)) :
    (∀ set : ValueSortedSet, Sound set →
        set.skiplist.length ≤ usizeMax → ∀ withscores,
      set.zrangebyscore first second withscores 0 usizeMax rev =
        some ((if rev then (set.byScore min max).reverse
          else set.byScore min max).flatMap (showMember withscores))) ↔
      ∀ score, Platform.f64IsNan score = false →
        Bound.within Platform.f64Lt low high score =
          Bound.within Platform.f64Lt min max score := by
  have lists : ∀ set : ValueSortedSet, set.skiplist.length ≤ usizeMax →
      ∀ withscores,
      set.zrangebyscore first second withscores 0 usizeMax rev =
        some ((if rev then (set.byScore low high).reverse
          else set.byScore low high).flatMap (showMember withscores)) := by
    intro set fits withscores
    rw [← range_whole fits (range_score set low high) withscores rev]
    cases rev with
    | true =>
        cases handed
        rfl
    | false =>
        cases handed
        rfl
  constructor
  · intro listed score number
    have same := listed _ (single_sound number []) (single_fits score []) false
    rw [lists _ (single_fits score [])] at same
    exact selects_of_listed (Option.some.inj same)
  · intro selects set sound fits withscores
    have same : set.byScore low high = set.byScore min max := by
      unfold byScore
      apply List.filter_congr
      intro member inside
      exact selects member.f (sound.ordered.proper member inside).number
    rw [lists set fits withscores, same]

/-- On the other side an infinity excludes nothing. -/
theorem infinities_open
    (infinities : Platform.Infinities) {score : F64}
    (number : Platform.f64IsNan score = false) :
    Bound.above Platform.f64Lt (.included Platform.f64NegInfinity) score =
        true ∧
      Bound.below Platform.f64Lt (.included Platform.f64Infinity) score =
        true := by
  unfold Bound.above Bound.below
  dsimp only
  rw [infinities.least score number, infinities.greatest score number]
  exact ⟨rfl, rfl⟩

/-- No infinity stands where it should exclude all scores, unless the other
bound excludes all scores. -/
def WellPlaced (lowText highText : Bytes) (min max : Bound F64) : Prop :=
  (lowText = text "inf" ∨ lowText = text "+inf" →
    ∃ limit, max = .excluded limit ∧
      Platform.f64Lt Platform.f64NegInfinity limit = false) ∧
  (highText = text "-inf" →
    ∃ limit, min = .excluded limit ∧
      Platform.f64Lt limit Platform.f64Infinity = false)

theorem within_iff
    (infinities : Platform.Infinities) {argv : Arguments} {lowPos highPos : Nat}
    {lowText highText : Bytes}
    (lowArgument : argv.getStr lowPos = .ok lowText)
    (highArgument : argv.getStr highPos = .ok highText)
    (lowRead : argv.getF64Bound lowPos = .ok low)
    (highRead : argv.getF64Bound highPos = .ok high)
    (lowMeans : scoreBound lowText = .ok min)
    (highMeans : scoreBound highText = .ok max) :
    (∀ score, Platform.f64IsNan score = false →
      Bound.within Platform.f64Lt low high score =
        Bound.within Platform.f64Lt min max score) ↔
      WellPlaced lowText highText min max := by
  have lowCases := getF64Bound_cases lowArgument lowRead lowMeans
  have highCases := getF64Bound_cases highArgument highRead highMeans
  obtain ⟨minNumber, minLimited⟩ := scoreBound_number lowMeans
  obtain ⟨maxNumber, maxLimited⟩ := scoreBound_number highMeans
  have infinite := Platform.f64_infinity_not_nan
  have negative := Platform.f64_negInfinity_not_nan
  constructor
  · intro same
    constructor
    · -- the lowest score tells the two apart
      intro isInfinite
      have least := same _ negative
      rcases lowCases with ⟨-, rfl, rfl⟩ | ⟨rfl, -, -⟩ | ⟨finite, -, -⟩
      · simp only [Bound.within, Bound.above, infinities.apart,
          Bool.true_and, Bool.not_true, Bool.false_and] at least
        rcases highCases with ⟨-, rfl, -⟩ | ⟨-, rfl, -⟩ | ⟨-, -, rfl⟩
        · cases least
        · cases least
        · cases high with
          | included limit =>
              rw [Bound.below, infinities.least limit maxNumber] at least
              cases least
          | excluded limit => exact ⟨limit, rfl, least⟩
          | unbounded => exact absurd rfl maxLimited
      · rcases isInfinite with wrong | wrong
        · exact absurd wrong (by decide)
        · exact absurd wrong (by decide)
      · exact absurd isInfinite finite
    · intro isInfinite
      have greatest := same _ infinite
      rcases highCases with ⟨wrong, -, -⟩ | ⟨-, rfl, rfl⟩ | ⟨-, finite, -⟩
      · rw [isInfinite] at wrong
        exact absurd wrong (by decide)
      · simp only [Bound.within, Bound.below, infinities.apart,
          Bool.and_true, Bool.not_true, Bool.and_false] at greatest
        rcases lowCases with ⟨-, rfl, -⟩ | ⟨-, rfl, -⟩ | ⟨-, -, rfl⟩
        · cases greatest
        · cases greatest
        · cases low with
          | included limit =>
              rw [Bound.above, infinities.greatest limit minNumber]
                at greatest
              cases greatest
          | excluded limit => exact ⟨limit, rfl, greatest⟩
          | unbounded => exact absurd rfl minLimited
      · exact absurd isInfinite finite
  · rintro ⟨lowPlaced, highPlaced⟩ score number
    -- a bound that excludes everything makes up for the other one
    rcases lowCases with ⟨isInfinite, -, -⟩ | lowCases
    · obtain ⟨limit, rfl, none⟩ := lowPlaced isInfinite
      have nothing : Platform.f64Lt score limit = false := by
        apply Bool.eq_false_iff.mpr
        intro less
        rcases Platform.f64_lt_of_not_lt score _ limit number negative
          maxNumber less with below | above
        · cases (infinities.least score number).symm.trans below
        · cases none.symm.trans above
      rcases highCases with ⟨-, -, wrong⟩ | ⟨-, -, wrong⟩ | ⟨-, -, rfl⟩
      · cases wrong
      · cases wrong
      · simp [Bound.within, Bound.below, nothing]
    obtain ⟨openLow, openHigh⟩ := infinities_open infinities number
    have lows : low.above Platform.f64Lt score =
        min.above Platform.f64Lt score := by
      rcases lowCases with ⟨-, rfl, rfl⟩ | ⟨-, -, rfl⟩
      · exact openLow.symm
      · rfl
    unfold Bound.within
    rcases highCases with ⟨-, rfl, rfl⟩ | ⟨isInfinite, -, -⟩ | ⟨-, -, rfl⟩
    · rw [lows, openHigh]
      rfl
    · obtain ⟨limit, rfl, none⟩ := highPlaced isInfinite
      have nothing : Platform.f64Lt limit score = false := by
        apply Bool.eq_false_iff.mpr
        intro less
        rcases Platform.f64_lt_of_not_lt limit _ score minNumber infinite
          number less with below | above
        · cases none.symm.trans below
        · cases (infinities.greatest score number).symm.trans above
      rcases lowCases with ⟨-, -, wrong⟩ | ⟨-, -, rfl⟩
      · cases wrong
      · simp [Bound.above, nothing]
    · rw [lows]

/-! ## Names -/

omit [Platform] in
/-- A bound is what its argument means, but `+` and `-` are no bounds. -/
theorem getVecBound_cases
    {m : Bytes} {bound : Bound Bytes} (read : getVecBound m = .ok bound) :
    m = text "+" ∧ bound = .unbounded ∨ m = text "-" ∧ bound = .unbounded ∨
      ∃ limit, m = 91 :: limit ∧ bound = .included limit ∨
        m = 40 :: limit ∧ bound = .excluded limit := by
  unfold getVecBound at read
  split at read
  · cases read
  · rename_i first rest
    split at read
    · rename_i isFirst
      cases read
      exact .inr (.inr ⟨rest, .inr ⟨by rw [isFirst], rfl⟩⟩)
    · split at read
      · rename_i isFirst
        cases read
        exact .inr (.inr ⟨rest, .inl ⟨by rw [isFirst], rfl⟩⟩)
      · split at read
        · rename_i sign
          cases read
          have alone := List.isEmpty_iff.mp sign.2
          subst alone
          rcases sign.1 with rfl | rfl
          · exact .inr (.inl ⟨rfl, rfl⟩)
          · exact .inl ⟨rfl, rfl⟩
        · cases read

/-- Neither end stands where it should exclude all names, unless the other
bound excludes all names. -/
def WellPlacedNames (lowText highText : Bytes) : Prop :=
  (lowText = text "+" → highText = text "(") ∧ highText ≠ text "-"

omit [Platform] in
theorem names_iff
    {lowText highText : Bytes} {low high : Bound Bytes}
    (lowRead : getVecBound lowText = .ok low)
    (highRead : getVecBound highText = .ok high) :
    (∀ name, Bound.within nameLess low high name =
        (nameAbove lowText name && nameBelow highText name)) ↔
      WellPlacedNames lowText highText := by
  have lowCases := getVecBound_cases lowRead
  have highCases := getVecBound_cases highRead
  unfold Bound.within
  constructor
  · intro same
    constructor
    · rintro rfl
      have isLow : low = .unbounded := by
        rcases lowCases with ⟨-, isLow⟩ | ⟨-, isLow⟩ |
          ⟨_, ⟨wrong, -⟩ | ⟨wrong, -⟩⟩
        · exact isLow
        · exact isLow
        · cases wrong
        · cases wrong
      subst isLow
      have none : ∀ name, high.below nameLess name = false := same
      rcases highCases with ⟨-, rfl⟩ | ⟨-, rfl⟩ |
        ⟨limit, ⟨-, rfl⟩ | ⟨isText, rfl⟩⟩
      · cases none []
      · cases none []
      · have self := none limit
        rw [Bound.below, nameLess_self] at self
        cases self
      · have empty := (nameLess_nil limit).2 (none [])
        rw [isText, empty]
        rfl
    · rintro rfl
      have isHigh : high = .unbounded := by
        rcases highCases with ⟨wrong, -⟩ | ⟨-, isHigh⟩ |
          ⟨_, ⟨wrong, -⟩ | ⟨wrong, -⟩⟩
        · cases wrong
        · exact isHigh
        · cases wrong
        · cases wrong
      subst isHigh
      have none : ∀ name, low.above nameLess name = false := by
        intro name
        have both := same name
        rw [Bound.below, Bool.and_true] at both
        rw [both]
        exact Bool.and_false _
      rcases lowCases with ⟨-, rfl⟩ | ⟨-, rfl⟩ | ⟨limit, ⟨-, rfl⟩ | ⟨-, rfl⟩⟩
      · cases none []
      · cases none []
      · have self := none limit
        rw [Bound.above, nameLess_self] at self
        cases self
      · have next := none (limit ++ [0])
        rw [Bound.above, nameLess_append] at next
        cases next
  · rintro ⟨lowPlaced, highPlaced⟩ name
    have highs : high.below nameLess name = nameBelow highText name := by
      rcases highCases with ⟨rfl, rfl⟩ | ⟨wrong, -⟩ |
        ⟨limit, ⟨rfl, rfl⟩ | ⟨rfl, rfl⟩⟩
      · rfl
      · exact absurd wrong highPlaced
      · rfl
      · rfl
    rw [highs]
    rcases lowCases with ⟨isPlus, rfl⟩ | ⟨rfl, rfl⟩ |
      ⟨limit, ⟨rfl, rfl⟩ | ⟨rfl, rfl⟩⟩
    · have nothing : nameBelow (text "(") name = false :=
        (nameLess_nil name).1
      rw [lowPlaced isPlus, nothing, Bool.and_false, Bool.and_false]
    · rfl
    · rfl
    · rfl

/-- The members whose names satisfy both arguments. -/
def byMeaning (set : ValueSortedSet) (lowText highText : Bytes) :
    OrderedSkipList :=
  set.skiplist.filter fun member =>
    nameAbove lowText member.s && nameBelow highText member.s

/-- Ranges list the members of every set that arguments mean if the bounds
select the names that they mean. -/
theorem listedNames_iff
    {first second low high : Bound Bytes} {rev : Bool}
    {lowText highText : Bytes}
    (handed : (if rev then (second, first) else (first, second)) =
      (low, high)) :
    (∀ set : ValueSortedSet, Sound set →
        set.skiplist.length ≤ usizeMax → set.OneScore → set.skiplist ≠ [] →
      set.zrangebylex first second 0 usizeMax rev =
        some ((if rev then (byMeaning set lowText highText).reverse
          else byMeaning set lowText highText).flatMap
            (showMember false))) ↔
      ∀ name, Bound.within nameLess low high name =
        (nameAbove lowText name && nameBelow highText name) := by
  have lists : ∀ set : ValueSortedSet, Sound set →
      set.skiplist.length ≤ usizeMax → set.OneScore → set.skiplist ≠ [] →
      set.zrangebylex first second 0 usizeMax rev =
        some ((if rev then (set.byName low high).reverse
          else set.byName low high).flatMap (showMember false)) := by
    intro set sound fits one nonempty
    obtain ⟨head, rest, isList⟩ := List.exists_cons_of_ne_nil nonempty
    have among : head ∈ set.skiplist := by
      rw [isList]
      exact List.mem_cons_self
    rw [← range_whole fits (range_name sound one among low high) false rev]
    unfold ValueSortedSet.zrangebylex
    rw [isList]
    cases rev with
    | true =>
        cases handed
        rfl
    | false =>
        cases handed
        rfl
  constructor
  · intro listed name
    have sound := single_sound Platform.f64_zero_not_nan name
    have one : (single Platform.f64Zero name).OneScore := by
      intro left inLeft right inRight
      rw [List.mem_singleton.mp inLeft, List.mem_singleton.mp inRight]
      exact Platform.f64_lt_irrefl _
    have nonempty := insertMember_ne_nil ValueSortedSet.new Platform.f64Zero
      name
    have fits := single_fits Platform.f64Zero name
    have same := listed _ sound fits one nonempty
    rw [lists _ sound fits one nonempty] at same
    exact selects_of_listed (Option.some.inj same)
  · intro selects set sound fits one nonempty
    have same : set.byName low high = byMeaning set lowText highText := by
      unfold byName byMeaning
      apply List.filter_congr
      intro member _
      exact selects member.s
    rw [lists set sound fits one nonempty, same]

/-! ## Both kinds of ranges -/

/-- The argument for the minimum; the commands that list from behind take the
maximum first. -/
def lowPos (rev : Bool) : Nat :=
  if rev then 3 else 2

def highPos (rev : Bool) : Nat :=
  if rev then 2 else 3

/-- The range commands list what their arguments mean, in both directions,
exactly if no infinity and no end of the names stands on the side where it
should exclude everything, or the other argument excludes everything. -/
theorem bounds_mean
    (infinities : Platform.Infinities) (argv : Arguments) (rev : Bool) :
    (∀ (first second min max : Bound F64) (lowText highText : Bytes),
      argv.getF64Bound 2 = .ok first → argv.getF64Bound 3 = .ok second →
      argv.getStr (lowPos rev) = .ok lowText →
      argv.getStr (highPos rev) = .ok highText →
      scoreBound lowText = .ok min → scoreBound highText = .ok max →
      ((∀ set : ValueSortedSet, Sound set →
          set.skiplist.length ≤ usizeMax → ∀ withscores,
        set.zrangebyscore first second withscores 0 usizeMax rev =
          some ((if rev then (set.byScore min max).reverse
            else set.byScore min max).flatMap (showMember withscores))) ↔
        WellPlaced lowText highText min max)) ∧
    ∀ (first second : Bound Bytes) (lowText highText : Bytes),
      Command.lexBound argv 2 = .ok first →
      Command.lexBound argv 3 = .ok second →
      argv.getVec (lowPos rev) = .ok lowText →
      argv.getVec (highPos rev) = .ok highText →
      ((∀ set : ValueSortedSet, Sound set →
          set.skiplist.length ≤ usizeMax → set.OneScore →
          set.skiplist ≠ [] →
        set.zrangebylex first second 0 usizeMax rev =
          some ((if rev then (byMeaning set lowText highText).reverse
            else byMeaning set lowText highText).flatMap
              (showMember false))) ↔
        WellPlacedNames lowText highText) := by
  constructor
  · intro first second min max lowText highText readFirst readSecond lowIs
      highIs lowMeans highMeans
    cases rev with
    | true =>
        rw [listed_iff rfl]
        exact within_iff infinities lowIs highIs readSecond readFirst
          lowMeans highMeans
    | false =>
        rw [listed_iff rfl]
        exact within_iff infinities lowIs highIs readFirst readSecond
          lowMeans highMeans
  · intro first second lowText highText readFirst readSecond lowIs highIs
    have read : ∀ {pos : Nat} {m : Bytes} {bound : Bound Bytes},
        Command.lexBound argv pos = .ok bound → argv.getVec pos = .ok m →
        getVecBound m = .ok bound := by
      intro pos m bound computed argument
      unfold Command.lexBound at computed
      rw [argument] at computed
      exact computed
    cases rev with
    | true =>
        rw [listedNames_iff rfl]
        exact names_iff (read readSecond lowIs) (read readFirst highIs)
    | false =>
        rw [listedNames_iff rfl]
        exact names_iff (read readFirst lowIs) (read readSecond highIs)

end

section

attribute [local instance] Platform.exact

/-- All scores below 5. -/
theorem bounds_mean_below :
    (single (ExactFloat.number 3) (text "m")).zrangebyscore .unbounded
        (.excluded (ExactFloat.number 5)) true 0 usizeMax false =
      some (((single (ExactFloat.number 3) (text "m")).byScore
        (.included ExactFloat.negInfinity)
        (.excluded (ExactFloat.number 5))).flatMap (showMember true)) :=
  ((bounds_mean Platform.exact_infinities
      [text "ZRANGEBYSCORE", text "k", text "-inf", text "(5"] false).1
    .unbounded (.excluded (ExactFloat.number 5))
    (.included ExactFloat.negInfinity) (.excluded (ExactFloat.number 5))
    (text "-inf") (text "(5") rfl rfl rfl rfl rfl rfl).mpr
      ⟨fun infinite => absurd infinite (by decide),
        fun infinite => absurd infinite (by decide)⟩
      _ (single_sound rfl _) (single_fits _ _) true

/-- No score but the infinity is as high as it is. -/
theorem bounds_not_mean :
    ¬ ∀ (argv : Arguments) (rev : Bool),
      (∀ (first second min max : Bound F64) (lowText highText : Bytes),
        argv.getF64Bound 2 = .ok first → argv.getF64Bound 3 = .ok second →
        argv.getStr (lowPos rev) = .ok lowText →
        argv.getStr (highPos rev) = .ok highText →
        scoreBound lowText = .ok min → scoreBound highText = .ok max →
        ∀ set : ValueSortedSet, Sound set →
          set.skiplist.length ≤ usizeMax → ∀ withscores,
        set.zrangebyscore first second withscores 0 usizeMax rev =
          some ((if rev then (set.byScore min max).reverse
            else set.byScore min max).flatMap (showMember withscores))) ∧
      ∀ (first second : Bound Bytes) (lowText highText : Bytes),
        Command.lexBound argv 2 = .ok first →
        Command.lexBound argv 3 = .ok second →
        argv.getVec (lowPos rev) = .ok lowText →
        argv.getVec (highPos rev) = .ok highText →
        ∀ set : ValueSortedSet, Sound set →
          set.skiplist.length ≤ usizeMax → set.OneScore →
          set.skiplist ≠ [] →
        set.zrangebylex first second 0 usizeMax rev =
          some ((if rev then (byMeaning set lowText highText).reverse
            else byMeaning set lowText highText).flatMap
              (showMember false)) := by
  intro mean
  have listed := (mean
      [text "ZRANGEBYSCORE", text "k", text "+inf", text "+inf"] false).1
    .unbounded .unbounded (.included ExactFloat.infinity)
    (.included ExactFloat.infinity) (text "+inf") (text "+inf")
    rfl rfl rfl rfl rfl rfl (single (ExactFloat.number 3) (text "m"))
    (single_sound rfl _) (single_fits _ _) false
  revert listed
  decide +kernel

end

end RedVector.Command
