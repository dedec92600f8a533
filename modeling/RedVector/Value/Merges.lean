import RedVector.ExactFloat
import RedVector.Util.Best
import RedVector.Value.Members
import RedVector.Value.SortedInvariant

/-!
# Unions and intersections of sorted sets

A union and an intersection go over the members of their inputs and merge the
weighted scores one by one.  What they end with is told for one member by the
list of its weighted scores.
-/

namespace RedVector

open Util

namespace ValueSortedSet

section

variable [Platform]

/-! ## Weighted scores -/

/-- The inputs with their weights. -/
def weightedSets (zsets : List ValueSortedSet) (weights : Option (List F64)) :
    List (ValueSortedSet × F64) :=
  zsets.zipIdx.map fun (zset, index) =>
    (zset, (weightAt weights index).getD Platform.f64One)

/-- The scores of a member in the inputs that contain it, with the weights. -/
def entries (inputs : List (ValueSortedSet × F64)) (element : Bytes) :
    List (F64 × F64) :=
  inputs.filterMap fun (zset, weight) =>
    (zset.zscore element).map fun score => (score, weight)

/-- The weighted scores of a member. -/
def products (inputs : List (ValueSortedSet × F64)) (element : Bytes) :
    List F64 :=
  (entries inputs element).map fun (score, weight) =>
    Platform.f64Mul score weight

/-- NaN is stored as zero. -/
def zeroed (score : F64) : F64 :=
  if Platform.f64IsNan score then Platform.f64Zero else score

theorem zeroed_number
    {score : F64} (number : Platform.f64IsNan score = false) :
    zeroed score = score := by
  unfold zeroed
  rw [if_neg (by simp [number])]

/-- A score is better than another one for MAX or MIN. -/
def better (aggregate : Aggregate) (best score : F64) : Bool :=
  match aggregate with
  | .min => Platform.f64Lt score best
  | .sum | .max => Platform.f64Lt best score

/-- The score that a member without one counts as. -/
def sentinel : Aggregate → F64
  | .min => Platform.f64Infinity
  | .sum | .max => Platform.f64NegInfinity

/-! ## One member of a union -/

/-- What merging a score into the union makes of the score of a member. -/
def unionStep (aggregate : Aggregate) (old : Option F64)
    (entry : F64 × F64) : Option F64 :=
  match aggregate with
  | .sum =>
      let s := Platform.f64Mul entry.2 entry.1
      some (zeroed (match old with
        | some val => Platform.f64Add s val
        | none => s))
  | aggregate =>
      let s := Platform.f64Mul entry.1 entry.2
      if better aggregate (old.getD (sentinel aggregate)) s then
        some (zeroed s)
      else old

theorem zscore_insertMember
    (set : ValueSortedSet) (score : F64) (element other : Bytes) :
    (set.insertMember score element).zscore other =
      if other = element then some score else set.zscore other := by
  unfold zscore insertMember
  by_cases same : other = element
  · subst same
    rw [if_pos rfl]
    exact Finmap.lookup_insert set.hmap
  · rw [if_neg same]
    exact Finmap.lookup_insert_of_ne _ same

theorem zscore_added
    (set : ValueSortedSet) (score : F64) (element other : Bytes)
    (incr : Bool) :
    (set.added score element incr).zscore other =
      if other = element then
        some (zeroed (match set.zscore element with
          | some val => if incr then Platform.f64Add score val else score
          | none => score))
      else set.zscore other := by
  unfold added zadd
  have held : set.zscore element = set.hmap.lookup element := rfl
  rw [held]
  cases set.hmap.lookup element with
  | none =>
      simp only [Bool.false_eq_true, if_false, Bool.not_true, Bool.and_false]
      exact zscore_insertMember set _ element other
  | some val =>
      simp only [Bool.false_eq_true, if_false, Bool.false_and, Bool.not_true,
        Bool.and_false]
      exact zscore_insertMember _ _ element other

theorem zscore_replaced
    (set : ValueSortedSet) (score : F64) (element other : Bytes) :
    (set.added score element false).zscore other =
      if other = element then some (zeroed score) else set.zscore other := by
  rw [zscore_added]
  cases set.zscore element with
  | none => rfl
  | some val => rfl

theorem zscore_zunionMember
    (aggregate : Aggregate) (weight : F64) (set : ValueSortedSet)
    (element other : Bytes) (v : F64) :
    (zunionMember aggregate weight set element v).zscore other =
      if other = element then
        unionStep aggregate (set.zscore element) (v, weight)
      else set.zscore other := by
  cases aggregate with
  | sum =>
      unfold zunionMember unionStep
      rw [zscore_added]
      rfl
  | max =>
      unfold zunionMember unionStep better sentinel
      dsimp only
      split
      · exact zscore_replaced _ _ _ _
      · split
        · rename_i isElement
          rw [isElement]
        · rfl
  | min =>
      unfold zunionMember unionStep better sentinel
      dsimp only
      split
      · exact zscore_replaced _ _ _ _
      · split
        · rename_i isElement
          rw [isElement]
        · rfl

/-- An order that lists the members of a set, each once. -/
structure Lists (ordered : Finset Bytes → List Bytes) : Prop where
  nodup : ∀ names, (ordered names).Nodup
  mem : ∀ names name, name ∈ ordered names ↔ name ∈ names

theorem zscore_zunionInput
    {ordered : Finset Bytes → List Bytes} (lists : Lists ordered)
    (aggregate : Aggregate) (set input : ValueSortedSet) (weight : F64)
    (element : Bytes) :
    (zunionInput aggregate ordered set input weight).zscore element =
      match input.zscore element with
      | some v => unionStep aggregate (set.zscore element) (v, weight)
      | none => set.zscore element := by
  have folded : ∀ (names : List Bytes) (set : ValueSortedSet),
      names.Nodup →
      (names.foldl (fun set name =>
        match input.hmap.lookup name with
        | some v => zunionMember aggregate weight set name v
        | none => set) set).zscore element =
      if element ∈ names then
        match input.zscore element with
        | some v => unionStep aggregate (set.zscore element) (v, weight)
        | none => set.zscore element
      else set.zscore element := by
    intro names
    induction names with
    | nil => exact fun _ _ => rfl
    | cons head tail ih =>
        intro set nodup
        obtain ⟨fresh, nodup⟩ := List.nodup_cons.mp nodup
        rw [List.foldl_cons, ih _ nodup]
        by_cases isHead : element = head
        · subst isHead
          rw [if_neg fresh, if_pos List.mem_cons_self]
          have held : input.zscore element = input.hmap.lookup element := rfl
          rw [held]
          cases input.hmap.lookup element with
          | none => rfl
          | some v =>
              exact (zscore_zunionMember _ _ _ _ _ _).trans (if_pos rfl)
        · have other : (match input.hmap.lookup head with
              | some v => zunionMember aggregate weight set head v
              | none => set).zscore element = set.zscore element := by
            cases input.hmap.lookup head with
            | none => rfl
            | some v =>
                exact (zscore_zunionMember _ _ _ _ _ _).trans
                  (if_neg isHead)
          rw [other]
          simp only [List.mem_cons, isHead, false_or]
  refine (folded _ set (lists.nodup _)).trans ?_
  split
  · rfl
  · rename_i outside
    rw [lists.mem, Finmap.mem_keys, ← Finmap.lookup_isSome] at outside
    have absent : input.zscore element = none := by
      unfold zscore
      simpa using outside
    rw [absent]

/-- Every input has a weight. -/
def Weighed (zsets : List ValueSortedSet) (weights : Option (List F64)) :
    Prop :=
  ∀ given, weights = some given → zsets.length ≤ given.length

theorem weightAt_some
    {zsets : List ValueSortedSet} {weights : Option (List F64)}
    (weighed : Weighed zsets weights) {index : Nat}
    (inside : index < zsets.length) :
    weightAt weights index =
      some ((weightAt weights index).getD Platform.f64One) := by
  cases weights with
  | none => rfl
  | some given =>
      have below := weighed given rfl
      have found : given[index]? = some given[index] :=
        List.getElem?_eq_getElem (by omega)
      unfold weightAt
      dsimp only
      rw [found]
      rfl

/-- The score of a member of the union is merged from its scores in the
inputs. -/
theorem zscore_zunion
    {ordered : Finset Bytes → List Bytes} (lists : Lists ordered)
    {zsets : List ValueSortedSet} {weights : Option (List F64)}
    (weighed : Weighed zsets weights) (aggregate : Aggregate) :
    ∃ merged, zunion ordered zsets weights aggregate = some merged ∧
      ∀ element, merged.zscore element =
        (entries (weightedSets zsets weights) element).foldl
          (unionStep aggregate) none := by
  have folded : ∀ (indexed : List (ValueSortedSet × Nat))
      (set : ValueSortedSet),
      (∀ pair ∈ indexed, pair.2 < zsets.length) →
      ∃ merged, indexed.foldlM (fun set (pair : ValueSortedSet × Nat) => do
          pure (zunionInput aggregate ordered set pair.1
            (← weightAt weights pair.2))) set = some merged ∧
        ∀ element, merged.zscore element =
          (entries (indexed.map fun pair => (pair.1,
            (weightAt weights pair.2).getD Platform.f64One)) element).foldl
            (unionStep aggregate) (set.zscore element) := by
    intro indexed
    induction indexed with
    | nil => exact fun set _ => ⟨set, rfl, fun _ => rfl⟩
    | cons head tail ih =>
        intro set inside
        have weight := weightAt_some weighed
          (inside head List.mem_cons_self)
        obtain ⟨merged, ran, scores⟩ := ih
          (zunionInput aggregate ordered set head.1
            ((weightAt weights head.2).getD Platform.f64One))
          (fun pair among => inside pair (.tail head among))
        refine ⟨merged, ?_, ?_⟩
        · rw [List.foldlM_cons, weight]
          exact ran
        · intro element
          rw [scores, zscore_zunionInput lists, List.map_cons]
          unfold entries
          rw [List.filterMap_cons]
          dsimp only
          cases head.1.zscore element with
          | none => rfl
          | some v => rfl
  obtain ⟨merged, ran, scores⟩ := folded zsets.zipIdx new (by
    intro pair among
    obtain ⟨-, below, -⟩ := List.mem_zipIdx among
    omega)
  exact ⟨merged, ran, scores⟩

/-! ## One member of an intersection -/

/-- The first score combined with the ones after it. -/
def combined (aggregate : Aggregate) : List F64 → F64
  | [] => Platform.f64Zero
  | first :: rest => rest.foldl (combine aggregate) first

/-- A member of a set that stands at an index has a weighted score there. -/
theorem weightedScore_member
    {zsets : List ValueSortedSet} {weights : Option (List F64)}
    (weighed : Weighed zsets weights) {zset : ValueSortedSet} {index : Nat}
    (found : zsets[index]? = some zset) {element : Bytes} {score : F64}
    (held : zset.zscore element = some score) :
    weightedScore zsets weights element index =
      some (Platform.f64Mul score
        ((weightAt weights index).getD Platform.f64One)) := by
  have weight := weightAt_some weighed
    (List.getElem?_eq_some_iff.mp found).1
  have held : zset.hmap.lookup element = some score := held
  unfold weightedScore
  rw [found, Option.bind_eq_bind, Option.bind_some, held,
    Option.bind_eq_bind, Option.bind_some, weight]
  rfl

/-- The weighted scores of a member of all sets, one after another. -/
theorem combined_indexed
    {zsets : List ValueSortedSet} {weights : Option (List F64)}
    (weighed : Weighed zsets weights) (aggregate : Aggregate)
    (element : Bytes) (indexed : List (ValueSortedSet × Nat))
    (found : ∀ pair ∈ indexed, zsets[pair.2]? = some pair.1)
    (everywhere : ∀ pair ∈ indexed, (pair.1.zscore element).isSome)
    (start : F64) :
    (indexed.map Prod.snd).foldlM (fun score index => do
        pure (combine aggregate score
          (← weightedScore zsets weights element index))) start =
      some ((products (indexed.map fun pair => (pair.1,
        (weightAt weights pair.2).getD Platform.f64One)) element).foldl
          (combine aggregate) start) := by
  induction indexed generalizing start with
  | nil => rfl
  | cons head tail ih =>
      obtain ⟨score, held⟩ := Option.isSome_iff_exists.mp
        (everywhere head List.mem_cons_self)
      have rest := ih (fun pair among => found pair (.tail head among))
        (fun pair among => everywhere pair (.tail head among))
      rw [List.map_cons, List.foldlM_cons, weightedScore_member weighed
        (found head List.mem_cons_self) held]
      refine (rest _).trans ?_
      unfold products entries
      rw [List.map_cons, List.filterMap_cons]
      dsimp only
      rw [held]
      rfl

/-- The weighted score of a member of all sets, computed as `zinter` does. -/
theorem weighted_combined
    {first : ValueSortedSet} {rest : List ValueSortedSet}
    {weights : Option (List F64)} (weighed : Weighed (first :: rest) weights)
    (aggregate : Aggregate) {element : Bytes}
    (everywhere : ∀ zset ∈ first :: rest, (zset.zscore element).isSome) :
    (do
      let start ← weightedScore (first :: rest) weights element 0
      (List.range' 1 rest.length).foldlM (fun score index => do
        pure (combine aggregate score
          (← weightedScore (first :: rest) weights element index))) start) =
    some (combined aggregate
      (products (weightedSets (first :: rest) weights) element)) := by
  obtain ⟨score, isScore⟩ := Option.isSome_iff_exists.mp
    (everywhere first List.mem_cons_self)
  have start := weightedScore_member weighed List.getElem?_cons_zero isScore
  have found : ∀ pair ∈ rest.zipIdx 1,
      (first :: rest)[pair.2]? = some pair.1 := by
    intro pair among
    have listed : pair ∈ (first :: rest).zipIdx := by
      rw [List.zipIdx_cons]
      exact .tail _ among
    exact List.mem_zipIdx_iff_getElem?.mp listed
  have follows := combined_indexed weighed aggregate element
    (rest.zipIdx 1) found
    (fun pair among => everywhere pair.1
      (List.mem_of_getElem? (found pair among)))
  rw [List.zipIdx_map_snd] at follows
  rw [start]
  refine (follows _).trans ?_
  unfold weightedSets products entries
  rw [List.zipIdx_cons, List.map_cons, List.filterMap_cons]
  dsimp only
  rw [isScore]
  rfl

/-- Members are added one by one with their scores. -/
theorem zscore_replacedAll
    {compute : Bytes → Option F64} {score : Bytes → F64}
    (names : List Bytes)
    (computed : ∀ name ∈ names, compute name = some (score name))
    (set : ValueSortedSet) :
    ∃ merged, names.foldlM (fun set name => do
        let score ← compute name
        pure (set.added score name false)) set = some merged ∧
      ∀ element, merged.zscore element =
        if element ∈ names then some (zeroed (score element))
        else set.zscore element := by
  induction names generalizing set with
  | nil => exact ⟨set, rfl, fun _ => rfl⟩
  | cons head tail ih =>
      obtain ⟨merged, ran, scores⟩ := ih
        (fun name among => computed name (.tail head among))
        (set.added (score head) head false)
      refine ⟨merged, ?_, ?_⟩
      · rw [List.foldlM_cons, computed head List.mem_cons_self]
        exact ran
      · intro element
        rw [scores, zscore_replaced]
        by_cases later : element ∈ tail
        · rw [if_pos later, if_pos (.tail head later)]
        · rw [if_neg later]
          by_cases isHead : element = head
          · subst isHead
            rw [if_pos rfl, if_pos List.mem_cons_self]
          · rw [if_neg isHead, if_neg (by simp [isHead, later])]

/-- The score of a member of the intersection is combined from its scores in
the inputs. -/
theorem zscore_zinter
    {ordered : Finset Bytes → List Bytes} (lists : Lists ordered)
    {zsets : List ValueSortedSet} {weights : Option (List F64)}
    (weighed : Weighed zsets weights) (given : zsets ≠ [])
    (aggregate : Aggregate) :
    ∃ merged, zinter ordered zsets weights aggregate = some merged ∧
      ∀ element, merged.zscore element =
        if ∀ zset ∈ zsets, (zset.zscore element).isSome then
          some (zeroed (combined aggregate
            (products (weightedSets zsets weights) element)))
        else none := by
  obtain ⟨first, rest, rfl⟩ := List.exists_cons_of_ne_nil given
  have held : ∀ (zset : ValueSortedSet) (element : Bytes),
      element ∈ zset.hmap.keys ↔ (zset.zscore element).isSome := by
    intro zset element
    rw [Finmap.mem_keys, ← Finmap.lookup_isSome]
    rfl
  have shared : ∀ element, element ∈ ordered
        (rest.foldl (fun keys zset => keys ∩ zset.hmap.keys)
          first.hmap.keys) ↔
      ∀ zset ∈ first :: rest, (zset.zscore element).isSome := by
    intro element
    rw [lists.mem, ValueSet.mem_foldl_inter (fun zset : ValueSortedSet =>
      zset.hmap.keys), List.forall_mem_cons, held]
    simp only [held]
  obtain ⟨merged, ran, scores⟩ := zscore_replacedAll _
    (fun name among => weighted_combined weighed aggregate
      ((shared name).mp among)) new
  refine ⟨merged, ?_, ?_⟩
  · rw [← ran]
    unfold zinter
    simp only [bind_assoc]
  · intro element
    rw [scores]
    by_cases everywhere : ∀ zset ∈ first :: rest,
        (zset.zscore element).isSome
    · rw [if_pos everywhere, if_pos ((shared element).mpr everywhere)]
    · rw [if_neg everywhere, if_neg (everywhere ∘ (shared element).mp)]
      rfl

/-! ## What a merge is for -/

/-- The sum of scores, from the first one on. -/
def total : List F64 → F64
  | [] => Platform.f64Zero
  | first :: rest => rest.foldl Platform.f64Add first

/-- A number among scores that none of them is better than. -/
structure Extreme (aggregate : Aggregate) (scores : List F64) (score : F64) :
    Prop where
  number : Platform.f64IsNan score = false
  member : score ∈ scores
  most : ∀ other ∈ scores, better aggregate score other = false

/-- What scores are merged into.  Zero stands for the best of no numbers. -/
def Scored (aggregate : Aggregate) (scores : List F64) (score : F64) : Prop :=
  match aggregate with
  | .sum => Platform.f64IsNan (total scores) = false → score = total scores
  | aggregate =>
      Extreme aggregate scores score ∨
        (∀ other ∈ scores, Platform.f64IsNan other = true) ∧
          score = Platform.f64Zero

/-- The members of a union or of an intersection. -/
def Contains (union : Bool) (inputs : List (ValueSortedSet × F64))
    (element : Bytes) : Prop :=
  if union then ∃ input ∈ inputs, (input.1.zscore element).isSome
  else ∀ input ∈ inputs, (input.1.zscore element).isSome

/-- The union or intersection of inputs with its scores. -/
structure Merged (union : Bool) (aggregate : Aggregate)
    (inputs : List (ValueSortedSet × F64)) (result : ValueSortedSet) :
    Prop where
  members : ∀ element,
    (result.zscore element).isSome ↔ Contains union inputs element
  scored : ∀ element score, result.zscore element = some score →
    Scored aggregate (products inputs element) score

/-- No member depends on how a comparison starts: in a union some score is
better than the sentinel, and in an intersection the first score is a number
or zero is right. -/
def Regular (union : Bool) (aggregate : Aggregate)
    (inputs : List (ValueSortedSet × F64)) : Prop :=
  aggregate = .sum ∨ ∀ element, Contains union inputs element →
    if union then
      ∃ score ∈ products inputs element,
        better aggregate (sentinel aggregate) score = true
    else
      (products inputs element).head?.all (!Platform.f64IsNan ·) = true ∨
        Scored aggregate (products inputs element) Platform.f64Zero

section

variable {aggregate : Aggregate}

theorem better_irrefl (a : F64) : better aggregate a a = false := by
  cases aggregate <;> exact Platform.f64_lt_irrefl a

theorem better_trans (a b c : F64) (first : better aggregate a b = true)
    (second : better aggregate b c = true) : better aggregate a c = true := by
  cases aggregate with
  | min => exact Platform.f64_lt_trans c b a second first
  | sum => exact Platform.f64_lt_trans a b c first second
  | max => exact Platform.f64_lt_trans a b c first second

theorem better_number
    (laws : Platform.Arithmetic) {best score : F64}
    (isBetter : better aggregate best score = true) :
    Platform.f64IsNan best = false ∧ Platform.f64IsNan score = false := by
  cases aggregate with
  | min => exact (laws.lt_number score best isBetter).symm
  | sum => exact laws.lt_number best score isBetter
  | max => exact laws.lt_number best score isBetter

theorem combine_better (compares : aggregate ≠ .sum) :
    combine aggregate = Util.better (better aggregate) := by
  cases aggregate with
  | sum => exact absurd rfl compares
  | min => rfl
  | max => rfl

theorem scored_iff (compares : aggregate ≠ .sum) {scores : List F64}
    {score : F64} :
    Scored aggregate scores score ↔ Extreme aggregate scores score ∨
      (∀ other ∈ scores, Platform.f64IsNan other = true) ∧
        score = Platform.f64Zero := by
  cases aggregate with
  | sum => exact absurd rfl compares
  | min => rfl
  | max => rfl

/-! ## Sums -/

/-- A sum that is a number has been one all along. -/
theorem number_of_sum
    (laws : Platform.Arithmetic) {scores : List F64} {start : F64}
    (number : Platform.f64IsNan (scores.foldl Platform.f64Add start) =
      false) :
    Platform.f64IsNan start = false := by
  induction scores generalizing start with
  | nil => exact number
  | cons head tail ih => exact (laws.add_number _ _ (ih number)).1

theorem unionStep_sum
    (laws : Platform.Arithmetic) (list : List (F64 × F64)) (start : F64)
    (number : Platform.f64IsNan ((list.map fun (score, weight) =>
      Platform.f64Mul score weight).foldl Platform.f64Add start) = false) :
    list.foldl (unionStep .sum) (some start) =
      some ((list.map fun (score, weight) =>
        Platform.f64Mul score weight).foldl Platform.f64Add start) := by
  induction list generalizing start with
  | nil => rfl
  | cons head tail ih =>
      rw [List.map_cons, List.foldl_cons] at number
      have isNumber := number_of_sum laws number
      have swapped := laws.mul_comm _ _ (laws.add_number _ _ isNumber).2
      have step : unionStep .sum (some start) head =
          some (Platform.f64Add start (Platform.f64Mul head.1 head.2)) := by
        unfold unionStep
        dsimp only
        rw [swapped, laws.add_comm _ _ isNumber, zeroed_number isNumber]
      rw [List.foldl_cons, step]
      exact ih _ number

theorem unionStep_sum_some (list : List (F64 × F64)) (old : Option F64)
    (given : old.isSome = true ∨ list ≠ []) :
    (list.foldl (unionStep .sum) old).isSome = true := by
  induction list generalizing old with
  | nil => exact given.resolve_right fun none => none rfl
  | cons head tail ih => exact ih _ (.inl rfl)

theorem union_scored_sum
    (laws : Platform.Arithmetic) {inputs : List (ValueSortedSet × F64)}
    {element : Bytes} {score : F64}
    (folded : (entries inputs element).foldl (unionStep .sum) none =
      some score) :
    Scored .sum (products inputs element) score := by
  intro number
  unfold products at number ⊢
  cases listed : entries inputs element with
  | nil =>
      rw [listed] at folded
      cases folded
  | cons head tail =>
      rw [listed] at folded number
      have isNumber := number_of_sum laws number
      have step : unionStep .sum none head =
          some (Platform.f64Mul head.1 head.2) := by
        unfold unionStep
        dsimp only
        rw [laws.mul_comm _ _ isNumber, zeroed_number isNumber]
      rw [List.foldl_cons, step, unionStep_sum laws tail _ number] at folded
      exact (Option.some.inj folded).symm

/-! ## Best scores -/

theorem unionStep_better
    (laws : Platform.Arithmetic) (compares : aggregate ≠ .sum)
    (old : Option F64) (entry : F64 × F64) :
    unionStep aggregate old entry =
      betterAbove (better aggregate) (sentinel aggregate) old
        (Platform.f64Mul entry.1 entry.2) := by
  have step : unionStep aggregate old entry =
      if better aggregate (old.getD (sentinel aggregate))
          (Platform.f64Mul entry.1 entry.2) then
        some (zeroed (Platform.f64Mul entry.1 entry.2))
      else old := by
    cases aggregate with
    | sum => exact absurd rfl compares
    | min => rfl
    | max => rfl
  rw [step]
  unfold betterAbove
  split
  · rename_i improves
    rw [zeroed_number (better_number laws improves).2]
  · rfl

/-- A member of the union has the best of its scores if one is better than
the sentinel. -/
theorem union_best
    (laws : Platform.Arithmetic) (compares : aggregate ≠ .sum)
    (inputs : List (ValueSortedSet × F64)) (element : Bytes) :
    IsBestAbove (better aggregate) (sentinel aggregate)
      (products inputs element)
      ((entries inputs element).foldl (unionStep aggregate) none) := by
  have steps : (entries inputs element).foldl (unionStep aggregate) none =
      (products inputs element).foldl
        (betterAbove (better aggregate) (sentinel aggregate)) none := by
    unfold products
    rw [List.foldl_map]
    congr 1
    funext old entry
    exact unionStep_better laws compares old entry
  rw [steps]
  exact isBestAbove_foldl better_irrefl better_trans _ _

/-- A comparison that starts with a number ends with the best one, and one
that does not stays where it is. -/
theorem combined_best
    (laws : Platform.Arithmetic) (compares : aggregate ≠ .sum)
    (first : F64) (rest : List F64) :
    (Platform.f64IsNan first = false →
      Extreme aggregate (first :: rest)
        (combined aggregate (first :: rest))) ∧
      (Platform.f64IsNan first = true →
        combined aggregate (first :: rest) = first) := by
  have isBest : IsBest (better aggregate) (first :: rest) _ :=
    isBest_foldl better_irrefl better_trans first rest
  unfold combined
  dsimp only
  rw [combine_better compares]
  constructor
  · intro number
    refine ⟨?_, isBest.member, isBest.most⟩
    clear isBest
    induction rest generalizing first with
    | nil => exact number
    | cons head tail ih =>
        apply ih
        unfold Util.better
        split
        · rename_i improves
          exact (better_number laws improves).2
        · exact number
  · intro nan
    clear isBest
    induction rest with
    | nil => rfl
    | cons head tail ih =>
        have stays : Util.better (better aggregate) first head = first := by
          unfold Util.better
          apply if_neg
          intro improves
          cases nan.symm.trans (better_number laws improves).1
        rw [List.foldl_cons, stays]
        exact ih

end

/-! ## Unions and intersections -/

theorem entries_ne_nil
    {inputs : List (ValueSortedSet × F64)} {element : Bytes} :
    entries inputs element ≠ [] ↔ Contains true inputs element := by
  unfold entries Contains
  rw [if_pos rfl, ne_eq, List.filterMap_eq_nil_iff]
  push Not
  simp [Option.isSome_iff_ne_none]

theorem contained_of_products
    {inputs : List (ValueSortedSet × F64)} {element : Bytes} {score : F64}
    (among : score ∈ products inputs element) :
    Contains true inputs element := by
  obtain ⟨entry, listed, -⟩ := List.mem_map.mp among
  exact entries_ne_nil.mp (List.ne_nil_of_mem listed)

/-- A union is what it is for when some score of each member is better than
the sentinel. -/
theorem union_merged
    (laws : Platform.Arithmetic) {aggregate : Aggregate}
    {inputs : List (ValueSortedSet × F64)} {merged : ValueSortedSet}
    (scores : ∀ element, merged.zscore element =
      (entries inputs element).foldl (unionStep aggregate) none) :
    Merged true aggregate inputs merged ↔ Regular true aggregate inputs := by
  by_cases sums : aggregate = .sum
  · subst sums
    refine iff_of_true ⟨?_, ?_⟩ (.inl rfl)
    · intro element
      rw [scores, ← entries_ne_nil]
      constructor
      · rintro found empty
        rw [empty] at found
        cases found
      · exact fun given => unionStep_sum_some _ none (.inr given)
    · intro element score found
      exact union_scored_sum laws ((scores element).symm.trans found)
  · have best := union_best laws sums inputs
    simp only [← scores] at best
    have kept : ∀ element, (merged.zscore element).isSome ↔
        ∃ score ∈ products inputs element,
          better aggregate (sentinel aggregate) score = true := by
      intro element
      have isBest := best element
      cases found : merged.zscore element with
      | none =>
          rw [found] at isBest
          refine iff_of_false nofun ?_
          rintro ⟨score, among, improves⟩
          cases improves.symm.trans (isBest score among)
      | some score =>
          rw [found] at isBest
          exact iff_of_true rfl ⟨score, isBest.1.member, isBest.2⟩
    constructor
    · intro isMerged
      refine .inr fun element contained => ?_
      rw [if_pos rfl]
      exact (kept element).mp ((isMerged.members element).mpr contained)
    · intro regular
      have improves := regular.resolve_left sums
      refine ⟨?_, ?_⟩
      · intro element
        rw [kept]
        constructor
        · rintro ⟨score, among, -⟩
          exact contained_of_products among
        · intro contained
          have some := improves element contained
          rw [if_pos rfl] at some
          exact some
      · intro element score found
        have isBest := best element
        rw [found] at isBest
        rw [scored_iff sums]
        exact .inl ⟨(better_number laws isBest.2).2, isBest.1.member,
          isBest.1.most⟩

/-- An intersection is what it is for when the first score of each member is a
number or zero is right. -/
theorem inter_merged
    (laws : Platform.Arithmetic) {aggregate : Aggregate}
    {inputs : List (ValueSortedSet × F64)} (given : inputs ≠ [])
    {merged : ValueSortedSet}
    (scores : ∀ element, merged.zscore element =
      if ∀ input ∈ inputs, (input.1.zscore element).isSome then
        some (zeroed (combined aggregate (products inputs element)))
      else none) :
    Merged false aggregate inputs merged ↔
      Regular false aggregate inputs := by
  have members : ∀ element, (merged.zscore element).isSome ↔
      Contains false inputs element := by
    intro element
    rw [scores]
    by_cases everywhere : ∀ input ∈ inputs, (input.1.zscore element).isSome
    · rw [if_pos everywhere]
      exact iff_of_true rfl everywhere
    · rw [if_neg everywhere]
      exact iff_of_false nofun everywhere
  have isMerged : Merged false aggregate inputs merged ↔
      ∀ element, Contains false inputs element →
        Scored aggregate (products inputs element)
          (zeroed (combined aggregate (products inputs element))) := by
    constructor
    · intro merges element contained
      refine merges.scored element _ ?_
      rw [scores]
      exact if_pos contained
    · intro all
      refine ⟨members, ?_⟩
      intro element score found
      have contained := (members element).mp (by rw [found]; rfl)
      rw [scores] at found
      cases (if_pos contained).symm.trans found
      exact all element contained
  rw [isMerged]
  by_cases sums : aggregate = .sum
  · subst sums
    refine iff_of_true ?_ (.inl rfl)
    intro element _ number
    exact zeroed_number number
  · unfold Regular
    rw [or_iff_right sums]
    refine forall_congr' fun element => forall_congr' fun contained => ?_
    rw [if_neg Bool.false_ne_true]
    obtain ⟨first, rest, isList⟩ :
        ∃ first rest, products inputs element = first :: rest := by
      obtain ⟨head, tail, rfl⟩ := List.exists_cons_of_ne_nil given
      obtain ⟨score, held⟩ := Option.isSome_iff_exists.mp
        (contained head List.mem_cons_self)
      refine ⟨Platform.f64Mul score head.2, products tail element, ?_⟩
      unfold products entries
      rw [List.filterMap_cons]
      dsimp only
      rw [held]
      rfl
    obtain ⟨number, stays⟩ := combined_best laws sums first rest
    rw [isList, List.head?_cons, Option.all_some, Bool.not_eq_true']
    cases isNan : Platform.f64IsNan first with
    | false =>
        have extreme := number isNan
        refine iff_of_true ?_ (.inl rfl)
        rw [zeroed_number extreme.number, scored_iff sums]
        exact .inl extreme
    | true =>
        have isZero : zeroed first = Platform.f64Zero := by
          unfold zeroed
          exact if_pos isNan
        rw [stays isNan, isZero, or_iff_right nofun]

/-- Neither of two scores is below the other. -/
def Ties (first second : F64) : Prop :=
  Platform.f64Lt first second = false ∧ Platform.f64Lt second first = false

theorem products_perm
    {inputs others : List (ValueSortedSet × F64)} (perm : inputs.Perm others)
    (element : Bytes) :
    (products inputs element).Perm (products others element) :=
  (perm.filterMap _).map _

/-- The best scores do not depend on the order of the inputs. -/
theorem Merged.agree
    {union : Bool} {aggregate : Aggregate} (compares : aggregate ≠ .sum)
    {inputs others : List (ValueSortedSet × F64)} (perm : inputs.Perm others)
    {left right : ValueSortedSet} (first : Merged union aggregate inputs left)
    (second : Merged union aggregate others right) (element : Bytes) :
    ((left.zscore element).isSome ↔ (right.zscore element).isSome) ∧
      ∀ a b, left.zscore element = some a → right.zscore element = some b →
        Ties a b := by
  constructor
  · rw [first.members, second.members]
    unfold Contains
    simp only [perm.mem_iff]
  · intro a b isLeft isRight
    have perm := products_perm perm element
    have leftScored := (scored_iff compares).mp (first.scored _ _ isLeft)
    have rightScored := (scored_iff compares).mp (second.scored _ _ isRight)
    rcases leftScored with leftBest | ⟨leftNan, rfl⟩
    · rcases rightScored with rightBest | ⟨rightNan, -⟩
      · have above := leftBest.most b (perm.mem_iff.mpr rightBest.member)
        have below := rightBest.most a (perm.mem_iff.mp leftBest.member)
        cases aggregate with
        | sum => exact absurd rfl compares
        | min => exact ⟨below, above⟩
        | max => exact ⟨above, below⟩
      · have nan := rightNan a (perm.mem_iff.mp leftBest.member)
        cases leftBest.number.symm.trans nan
    · rcases rightScored with rightBest | ⟨-, rfl⟩
      · have nan := leftNan b (perm.mem_iff.mpr rightBest.member)
        cases rightBest.number.symm.trans nan
      · exact ⟨Platform.f64_lt_irrefl _, Platform.f64_lt_irrefl _⟩

end

end ValueSortedSet

end RedVector
