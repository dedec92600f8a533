import RedVector.Command.Overwrite
import RedVector.Command.Present
import RedVector.Command.RangeBounds
import RedVector.Value.Merges

/-!
# Stored unions and intersections

ZUNIONSTORE and ZINTERSTORE read sorted sets, merge them and overwrite the
destination.  A key that does not exist counts as an empty sorted set; any
other value, a set included, is of the wrong type.
-/

namespace RedVector.Command

open Util ValueSortedSet Effect Database

section

variable [Platform] {argv : Arguments} {destination : Bytes}
  {sources : List Bytes} {weights : Option (List F64)}
  {aggregate : Aggregate} {env : Env} {db : Database} {dbindex : Nat}

/-- The arguments name a destination, as many sources as they announce and
readable options. -/
structure Merging (argv : Arguments) (destination : Bytes)
    (sources : List Bytes) (weights : Option (List F64))
    (aggregate : Aggregate) : Prop where
  given : sources ≠ []
  destination : argv.getVec 1 = .ok destination
  numkeys : argv.getI64 2 = .ok sources.length
  listed : (argv.drop 3).take sources.length = sources
  options : storeOptions sources.length (argv.drop (3 + sources.length)) =
    .ok (weights, aggregate)

/-- The value of a source. -/
def sourceAt (env : Env) (db : Database) (dbindex : Nat) (key : Bytes) :
    Value :=
  (db.visible env (dbindex, key)).getD .nil

/-- A value that stands for a sorted set, the missing one for the empty
one. -/
def mergeable : Value → Bool
  | .nil | .sortedSet _ => true
  | _ => false

/-- The sorted set that a value stands for. -/
def asSortedSet : Value → ValueSortedSet
  | .sortedSet set => set
  | _ => .new

/-- The sources as sorted sets with their weights. -/
def inputsAt (env : Env) (db : Database) (dbindex : Nat)
    (sources : List Bytes) (weights : Option (List F64)) :
    List (ValueSortedSet × F64) :=
  weightedSets
    (sources.map fun source => asSortedSet (sourceAt env db dbindex source))
    weights

/-! ## Options -/

omit [Platform] in
theorem length_mapM
    {α β ε : Type} {read : α → Except ε β} {inputs : List α}
    {outputs : List β} (done : inputs.mapM read = .ok outputs) :
    outputs.length = inputs.length := by
  induction inputs generalizing outputs with
  | nil =>
      cases done
      rfl
  | cons head tail ih =>
      rw [List.mapM_cons] at done
      cases first : read head with
      | error error =>
          rw [first] at done
          cases done
      | ok output =>
          rw [first] at done
          cases rest : tail.mapM read with
          | error error =>
              rw [rest] at done
              cases done
          | ok others =>
              rw [rest] at done
              cases done
              rw [List.length_cons, List.length_cons, ih rest]

theorem weightOptions_length
    {numkeys : Nat} {rest after : List Bytes} {given : List F64}
    (parsed : weightOptions numkeys rest = .ok (some given, after)) :
    given.length = numkeys := by
  unfold weightOptions at parsed
  split at parsed
  · cases parsed
  · rename_i option others
    split at parsed
    · split at parsed
      · unfold validate at parsed
        split at parsed
        · rename_i enough
          cases read : (others.take numkeys).mapM fun weight =>
              tryValidate (Arguments.getF64 [weight] 0)
                "ERR weight value is not a float" with
          | error error =>
              simp only [bind, Except.bind, read] at parsed
              cases parsed
          | ok weights =>
              simp only [bind, Except.bind, read] at parsed
              cases parsed
              have enough : numkeys ≤ others.length := by simpa using enough
              rw [length_mapM read, List.length_take]
              omega
        · cases parsed
      · cases parsed
    · cases parsed

/-- Every source has a weight. -/
theorem storeOptions_weighed
    {zsets : List ValueSortedSet} {rest : List Bytes}
    (parsed : storeOptions zsets.length rest = .ok (weights, aggregate)) :
    Weighed zsets weights := by
  intro given isGiven
  subst isGiven
  unfold storeOptions at parsed
  cases read : weightOptions zsets.length rest with
  | error error =>
      rw [read] at parsed
      cases parsed
  | ok first =>
      rw [read] at parsed
      obtain ⟨weights, after⟩ := first
      have isWeights : weights = some given := by
        simp only [bind, Except.bind] at parsed
        split at parsed
        · cases parsed
        · split at parsed
          · cases parsed
          · cases parsed
            rfl
      subst isWeights
      exact (weightOptions_length read).ge

/-! ## Sources -/

theorem getZsetList_eq (values : List Value) :
    Value.getZsetList values =
      if values.all mergeable then .ok (values.map asSortedSet)
      else .error .wrongTypeError := by
  induction values with
  | nil => rfl
  | cons head tail ih =>
      rw [List.all_cons]
      cases head
      case nil | sortedSet =>
        unfold Value.getZsetList
        rw [ih, List.map_cons]
        unfold mergeable
        rw [Bool.true_and]
        split <;> rfl
      all_goals rfl

/-- Both operations on values merge the sorted sets that the values stand
for. -/
theorem merge_eq
    {order : Finset Bytes → List Bytes} {values : List Value}
    (all : values.all mergeable = true) :
    (Value.zunion order values weights aggregate =
      (ValueSortedSet.zunion order (values.map asSortedSet) weights
        aggregate).map fun merged => .ok (.sortedSet merged)) ∧
    Value.zinter order values weights aggregate =
      (ValueSortedSet.zinter order (values.map asSortedSet) weights
        aggregate).map fun merged => .ok (.sortedSet merged) := by
  unfold Value.zunion Value.zinter
  rw [getZsetList_eq, if_pos all]
  dsimp only
  constructor
  · cases ValueSortedSet.zunion order (values.map asSortedSet) weights
      aggregate <;> rfl
  · cases ValueSortedSet.zinter order (values.map asSortedSet) weights
      aggregate <;> rfl

/-- The merged value of the sources. -/
def mergeOf (env : Env) (union : Bool) (values : List Value)
    (weights : Option (List F64)) (aggregate : Aggregate) :
    Option (Operation Value) :=
  if union then Value.zunion env.order values weights aggregate
  else Value.zinter env.order values weights aggregate

theorem mergeOf_refuses
    (env : Env) (union : Bool) (weights : Option (List F64))
    (aggregate : Aggregate) {values : List Value}
    (wrong : values.all mergeable = false) :
    mergeOf env union values weights aggregate =
      some (.error .wrongTypeError) := by
  unfold mergeOf Value.zunion Value.zinter
  rw [getZsetList_eq, wrong]
  exact ite_self _

/-- The sorted sets of the sources are merged as their purpose asks. -/
theorem mergeOf_merged
    (laws : Platform.Arithmetic) (env : Env) (union : Bool)
    (aggregate : Aggregate) {values : List Value}
    (all : values.all mergeable = true) (given : values ≠ [])
    (weighed : Weighed (values.map asSortedSet) weights) :
    ∃ merged, mergeOf env union values weights aggregate =
        some (.ok (.sortedSet merged)) ∧ Sound merged ∧
      (Merged union aggregate
          (weightedSets (values.map asSortedSet) weights) merged ↔
        Regular union aggregate
          (weightedSets (values.map asSortedSet) weights)) := by
  have lists : Lists env.order := ⟨env.order_nodup, env.mem_order⟩
  have given : values.map asSortedSet ≠ [] := by simpa using given
  unfold mergeOf
  rw [(merge_eq all).1, (merge_eq all).2]
  generalize values.map asSortedSet = zsets at weighed given ⊢
  cases union with
  | true =>
      obtain ⟨merged, ran, scores⟩ :=
        zscore_zunion lists weighed aggregate
      refine ⟨merged, ?_, zunion_sound ran, union_merged laws scores⟩
      rw [if_pos rfl, ran]
      rfl
  | false =>
      obtain ⟨merged, ran, scores⟩ :=
        zscore_zinter lists weighed given aggregate
      have inputs : weightedSets zsets weights ≠ [] := by
        unfold weightedSets
        simpa using given
      refine ⟨merged, ?_, zinter_sound ran, inter_merged laws inputs ?_⟩
      · rw [if_neg Bool.false_ne_true, ran]
        rfl
      · intro element
        rw [scores]
        have same : ∀ property : ValueSortedSet → Prop,
            (∀ zset ∈ zsets, property zset) ↔
              ∀ input ∈ weightedSets zsets weights, property input.1 := by
          intro property
          have first : (weightedSets zsets weights).map Prod.fst = zsets := by
            unfold weightedSets
            rw [List.map_map]
            exact List.zipIdx_map_fst 0 zsets
          have each := List.forall_mem_map (f := Prod.fst)
            (l := weightedSets zsets weights) (P := property)
          rwa [first] at each
        simp only [same]

/-! ## The commands -/

/-- The handler reads the sources, merges them and overwrites the destination
with the result. -/
theorem zinterUnionStore_stores
    {union : Bool}
    (merging : Merging argv destination sources weights aggregate)
    {post : Except Response Response → Database → Prop}
    (fails : ∀ error, mergeOf env union
        (sources.map (sourceAt env db dbindex)) weights aggregate =
          some (.error error) →
      post (.ok (.error error.message)) db)
    (stores : ∀ value after, mergeOf env union
        (sources.map (sourceAt env db dbindex)) weights aggregate =
          some (.ok value) →
      Overwrites env db after (dbindex, destination) value →
      post (.ok (respond value.zcard fun count => .integer count)) after) :
    Ensures env (zinterUnionStore argv dbindex union) post db := by
  have count : 0 < sources.length := List.length_pos_of_ne_nil merging.given
  have enough : 3 + sources.length ≤ argv.length := by
    have same := congrArg List.length merging.listed
    rw [List.length_take, List.length_drop] at same
    omega
  unfold zinterUnionStore
  refine Program.ensures_ofExcept_bind ?_ ?_
  · intro error invalid
    unfold validate at invalid
    rw [if_pos (by simp; omega)] at invalid
    cases invalid
  intro _ _
  rw [merging.destination]
  refine ensures_valid (by rintro _ _ ⟨⟩) ?_
  rintro _ ⟨⟩
  rw [merging.numkeys]
  refine ensures_valid (by rintro _ _ ⟨⟩) ?_
  rintro _ ⟨⟩
  rw [if_neg (by omega), Int.toNat_natCast]
  refine ensures_gte (fun _ few => absurd enough (by omega)) ?_
  intro _
  rw [merging.listed]
  refine ensures_getValues ?_
  rw [merging.options]
  refine Program.ensures_ofExcept_bind (by rintro _ ⟨⟩) ?_
  rintro _ ⟨⟩
  have finishes : ∀ merged : Operation Value,
      mergeOf env union (sources.map (sourceAt env db dbindex)) weights
        aggregate = some merged →
      Ensures env (storeMerged dbindex destination merged) post db := by
    intro merged isMerged
    cases merged with
    | error error => exact Program.ensures_pure (fails error isMerged)
    | ok value =>
        refine ensures_overwrites ?_
        intro after overwrites
        exact Program.ensures_pure (stores value after isMerged overwrites)
  cases union with
  | true =>
      refine ensures_op (.read (.zunion _ weights aggregate)) ?_
      intro merged after performed
      obtain ⟨_, read, answered⟩ := Option.map_eq_some_iff.mp performed
      cases answered
      exact finishes merged read
  | false =>
      refine ensures_op (.read (.zinter _ weights aggregate)) ?_
      intro merged after performed
      obtain ⟨_, read, answered⟩ := Option.map_eq_some_iff.mp performed
      cases answered
      exact finishes merged read

end

section

attribute [local instance] Platform.exact

end

end RedVector.Command
