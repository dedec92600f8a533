import RedVector.Command.SetCommands

/-!
# Stored differences, intersections and unions

SDIFFSTORE, SINTERSTORE and SUNIONSTORE on keys that hold sets or nothing, in
any database.  The destination holds the result unless the first key of
SDIFFSTORE is missing, in which case the destination is left alone, or a member
with a plus sign is taken for a number.
-/

namespace RedVector

open Util Effect Database

section

variable [Platform] {env : Env} {db : Database} {index : Nat}

namespace SetCommand

/-! ## Sources -/

/-- A key that holds a set or nothing. -/
def SetSource (env : Env) (db : Database) (index : Nat) (key : Bytes) :
    Prop :=
  ∀ value, db.visible env (index, key) = some value →
    ∃ set, value = .set set ∧ set.Bounded

/-- The set of a key, which is empty when there is none. -/
def sourceSet (env : Env) (db : Database) (index : Nat) (key : Bytes) :
    ValueSet :=
  match db.visible env (index, key) with
  | some (.set set) => set
  | _ => .new

/-- The sets of byte strings of all keys. -/
def sourceSets (env : Env) (db : Database) (index : Nat) : KeySets :=
  fun key => (sourceSet env db index key).members

/-- A key holds exactly the elements, and nothing when there are none. -/
def HoldsSet (env : Env) (db : Database) (index : Nat) (key : Bytes)
    (elements : Finset Bytes) : Prop :=
  match db.visible env (index, key) with
  | none => elements = ∅
  | some (.set set) => elements ≠ ∅ ∧ set.members = elements
  | some _ => False

theorem SetSource.cases {key : Bytes} (source : SetSource env db index key) :
    (db.visible env (index, key) = none ∧
        sourceSet env db index key = .new ∨
      db.visible env (index, key) =
        some (.set (sourceSet env db index key))) ∧
      (sourceSet env db index key).Bounded := by
  unfold sourceSet
  cases found : db.visible env (index, key) with
  | none => exact ⟨.inl ⟨rfl, rfl⟩, ValueSet.bounded_new⟩
  | some value =>
      obtain ⟨set, rfl, bounded⟩ := source value found
      exact ⟨.inr rfl, bounded⟩

theorem getSetList_sources
    {keys : List Bytes} (sources : ∀ key ∈ keys, SetSource env db index key) :
    Value.getSetList (keys.map fun key =>
        (db.visible env (index, key)).getD .nil) =
      .ok (keys.map (sourceSet env db index)) := by
  induction keys with
  | nil => rfl
  | cons key keys ih =>
      have rest := ih fun other among => sources other (.tail key among)
      rw [List.map_cons, List.map_cons]
      rcases (sources key List.mem_cons_self).cases.1 with
        ⟨absent, isNew⟩ | held
      · rw [absent, isNew, Option.getD_none, Value.getSetList, rest]
        rfl
      · rw [held, Option.getD_some, Value.getSetList, rest]
        rfl

/-! ## The destination -/

/-- The set that was stored is the one that is meant when the elements are and
none of them is rewritten. -/
theorem holdsSet_stored
    {after between : Database} {key : Bytes} {computed meant : Finset Bytes}
    (persistent : between.expiration (index, key) = none)
    (overwrites : Overwrites env between after (index, key)
      (.createSet computed)) :
    HoldsSet env after index key meant ↔
      (ValueSet.createWithHashset computed).members = meant := by
  have alive : after.lapsed env (index, key) = false := by
    rw [lapsed_eq, overwrites.persistent persistent]
    simp
  have visible : after.visible env (index, key) =
      after.value (index, key) := by
    unfold Database.visible
    rw [alive]
    rfl
  have empty : (Value.createSet computed).isEmpty = true ↔
      (ValueSet.createWithHashset computed).members = ∅ := by
    rw [← Finset.card_eq_zero, ValueSet.card_members]
    simp [Value.createSet, Value.isEmpty]
  unfold HoldsSet
  rw [visible, overwrites.value]
  by_cases isEmpty : (Value.createSet computed).isEmpty = true
  · rw [if_pos isEmpty, empty.mp isEmpty]
    exact eq_comm
  · rw [if_neg isEmpty]
    change _ ∧ _ ↔ _
    constructor
    · exact And.right
    · rintro rfl
      exact ⟨isEmpty ∘ empty.mpr, rfl⟩

omit [Platform] in
/-- The number and the elements are right exactly when the operation is not
confused and nothing is rewritten. -/
theorem stored_iff
    {confuses : Prop} {computed meant : Finset Bytes}
    (clear : ¬confuses → computed = meant)
    (confused : confuses → computed.card ≠ meant.card) :
    (computed.card = meant.card ∧
        (ValueSet.createWithHashset computed).members = meant) ↔
      ¬confuses ∧ ¬ValueSet.rewrites meant := by
  by_cases wrong : confuses
  · exact iff_of_false (fun both => confused wrong both.1)
      (fun both => both.1 wrong)
  · rw [clear wrong, ValueSet.createWithHashset_iff]
    simp [wrong]

/-! ## The commands -/

/-- When the destination ends up with what the operation makes of the keys:
the first key of SDIFFSTORE exists or the destination does not, no member with
a sign is taken for a number of the first set, and none is rewritten. -/
def Exact (env : Env) (db : Database) (index : Nat)
    (operation : SetOperation) (destination key : Bytes)
    (keys : List Bytes) : Prop :=
  let set := sourceSet env db index key
  let others := keys.map (sourceSet env db index)
  let plain :=
    ¬ValueSet.rewrites (operation.apply (sourceSets env db index) key keys)
  match operation with
  | .diff =>
      if db.visible env (index, key) = none then
        db.visible env (index, destination) = none
      else ¬set.diffConfuses others ∧ plain
  | .inter => ¬set.interConfuses others ∧ plain
  | .union => plain

/-- The destination holds what the operation makes of the keys, and the reply
tells how much that is. -/
def Stores (env : Env) (db : Database) (index : Nat)
    (operation : SetOperation) (destination key : Bytes)
    (keys : List Bytes) (result : Except Response Response)
    (after : Database) : Prop :=
  let meant := operation.apply (sourceSets env db index) key keys
  result = .ok (.integer meant.card) ∧
    HoldsSet env after index destination meant

/-- A destination that was written holds what is meant exactly when the
operation is not confused and nothing is rewritten. -/
theorem stores_iff
    {operation : SetOperation} {destination key : Bytes} {keys : List Bytes}
    {between after : Database} {confuses : Prop} {computed : Finset Bytes}
    (removed : Sets db between (index, destination) none none)
    (overwrites : Overwrites env between after (index, destination)
      (.createSet computed))
    (clear : ¬confuses →
      computed = operation.apply (sourceSets env db index) key keys)
    (confused : confuses → computed.card ≠
      (operation.apply (sourceSets env db index) key keys).card) :
    Stores env db index operation destination key keys
        (.ok (.integer computed.card)) after ↔
      ¬confuses ∧ ¬ValueSet.rewrites
        (operation.apply (sourceSets env db index) key keys) := by
  unfold Stores
  dsimp only
  rw [holdsSet_stored removed.expiration_self overwrites,
    ← stored_iff clear confused]
  simp

theorem mem_apply_diff
    (key : Bytes) (keys : List Bytes) (element : Bytes) :
    element ∈ SetOperation.diff.apply (sourceSets env db index) key keys ↔
      element ∈ (sourceSet env db index key).members ∧
        ∀ other ∈ keys.map (sourceSet env db index),
          element ∉ other.members := by
  rw [List.forall_mem_map]
  exact ValueSet.mem_foldl_sdiff (sourceSets env db index) keys _ element

theorem mem_apply_inter
    (key : Bytes) (keys : List Bytes) (element : Bytes) :
    element ∈ SetOperation.inter.apply (sourceSets env db index) key keys ↔
      element ∈ (sourceSet env db index key).members ∧
        ∀ other ∈ keys.map (sourceSet env db index),
          element ∈ other.members := by
  rw [List.forall_mem_map]
  exact ValueSet.mem_foldl_inter (sourceSets env db index) keys _ element

section Sources

variable {key : Bytes} {keys : List Bytes}
  (sources : ∀ source ∈ key :: keys, SetSource env db index source)

include sources

theorem others_bounded :
    ∀ other ∈ keys.map (sourceSet env db index), other.Bounded := by
  rw [List.forall_mem_map]
  exact fun other among => (sources other (.tail key among)).cases.2

theorem sdiffstore_stores (destination : Bytes) :
    Ensures env ((store .diff destination key keys).handle index)
      (fun result after =>
        Stores env db index .diff destination key keys result after ↔
          Exact env db index .diff destination key keys) db := by
  obtain ⟨first, bounded⟩ := (sources key List.mem_cons_self).cases
  have othersBounded := others_bounded sources
  have member : ∀ element,
      element ∈ SetOperation.diff.apply (sourceSets env db index) key keys ↔
        _ := mem_apply_diff key keys
  refine ensures_algebraStore ?_ ?_
  · intro missing
    rw [Option.or_none] at missing
    have empty : SetOperation.diff.apply (sourceSets env db index) key keys =
        ∅ := by
      have isNew : sourceSet env db index key = .new := by
        unfold sourceSet
        rw [missing]
      apply Finset.eq_empty_of_forall_notMem
      intro element among
      have held := ((member element).mp among).1
      rw [isNew] at held
      exact Finset.notMem_empty element held
    unfold Stores Exact
    dsimp only
    rw [if_pos missing, empty]
    unfold HoldsSet
    cases db.visible env (index, destination) with
    | none => exact iff_of_true ⟨rfl, rfl⟩ rfl
    | some value =>
        refine iff_of_false ?_ nofun
        rintro ⟨-, holds⟩
        cases value
        case set => exact holds.1 rfl
        all_goals exact holds
  · intro value found
    rw [Option.or_none] at found
    have present : db.visible env (index, key) ≠ none := by
      rw [found]
      exact nofun
    rcases first with ⟨absent, -⟩ | held
    · exact absurd absent present
    · cases found.symm.trans held
      refine ⟨(sourceSet env db index key).sdiff
        (keys.map (sourceSet env db index)), ?_, ?_⟩
      · unfold Value.sdiff
        rw [getSetList_sources fun other among =>
          sources other (.tail key among)]
        rfl
      · intro between after removed overwrites
        unfold Exact
        dsimp only
        rw [if_neg present]
        refine stores_iff removed overwrites ?_ ?_
        · intro clear
          ext element
          rw [ValueSet.sdiff_members bounded othersBounded clear, member]
        · exact fun confuses =>
            (ValueSet.card_sdiff_lt bounded othersBounded confuses member).ne

theorem sinterstore_stores (destination : Bytes) :
    Ensures env ((store .inter destination key keys).handle index)
      (fun result after =>
        Stores env db index .inter destination key keys result after ↔
          Exact env db index .inter destination key keys) db := by
  obtain ⟨first, bounded⟩ := (sources key List.mem_cons_self).cases
  have othersBounded := others_bounded sources
  have member : ∀ element,
      element ∈ SetOperation.inter.apply (sourceSets env db index) key keys ↔
        _ := mem_apply_inter key keys
  refine ensures_algebraStore ?_ ?_
  · intro missing
    cases (Option.or_eq_none_iff.mp missing).2
  · intro value found
    have computes : Value.sinter (keys.map fun other =>
          (db.visible env (index, other)).getD .nil) value =
        .ok ((sourceSet env db index key).sinter
          (keys.map (sourceSet env db index))) := by
      rcases first with ⟨absent, isNew⟩ | held
      · rw [absent] at found
        cases found
        -- nothing is left of the empty set of numbers
        have empty : ValueSet.new.sinter
            (keys.map (sourceSet env db index)) = ∅ := by
          apply Finset.eq_empty_of_forall_notMem
          intro element among
          obtain ⟨number, known, -⟩ :=
            (ValueSet.mem_sinter_integer othersBounded).mp among
          exact Finset.notMem_empty number known
        rw [isNew, empty]
        rfl
      · rw [held] at found
        cases found
        unfold Value.sinter
        rw [getSetList_sources fun other among =>
          sources other (.tail key among)]
        rfl
    refine ⟨_, computes, ?_⟩
    intro between after removed overwrites
    refine stores_iff removed overwrites ?_ ?_
    · intro clear
      ext element
      rw [ValueSet.sinter_members bounded othersBounded clear, member]
    · exact fun confuses =>
        (ValueSet.card_sinter_lt bounded othersBounded confuses member).ne'

theorem sunionstore_stores (destination : Bytes) :
    Ensures env ((store .union destination key keys).handle index)
      (fun result after =>
        Stores env db index .union destination key keys result after ↔
          Exact env db index .union destination key keys) db := by
  obtain ⟨first, -⟩ := (sources key List.mem_cons_self).cases
  refine ensures_algebraStore ?_ ?_
  · intro missing
    cases (Option.or_eq_none_iff.mp missing).2
  · intro value found
    have computes : Value.sunion (keys.map fun other =>
          (db.visible env (index, other)).getD .nil) value =
        .ok ((sourceSet env db index key).sunion
          (keys.map (sourceSet env db index))) := by
      unfold Value.sunion
      rw [getSetList_sources fun other among =>
        sources other (.tail key among)]
      rcases first with ⟨absent, isNew⟩ | held
      · rw [absent] at found
        cases found
        rw [isNew]
        rfl
      · rw [held] at found
        cases found
        rfl
    refine ⟨_, computes, ?_⟩
    intro between after removed overwrites
    unfold Exact
    dsimp only
    rw [← true_and (¬ValueSet.rewrites _), ← not_false_eq_true]
    refine stores_iff removed overwrites ?_ nofun
    intro _
    ext element
    rw [ValueSet.sunion_members]
    simp only [List.mem_map, exists_exists_and_eq_and]
    exact (ValueSet.mem_foldl_union (sourceSets env db index) keys _
      element).symm

end Sources

end SetCommand

end

section

attribute [local instance] Platform.integral

namespace SetCommand

end SetCommand

end

end RedVector
