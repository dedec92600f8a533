import RedVector.Effect.Listing
import RedVector.Gpu.FlatIndex

/-!
# Runs of a flat index

The index is compared with a map from the ids that were added and not removed
to their latest vectors.  It agrees with the map along a run exactly if every
addition is of new ids and nothing that is stored is removed.
-/

namespace RedVector.Gpu

open Effect Util

/-- The ids that were added and not removed, with their latest vectors. -/
abbrev Live (F : Type) := HashMap UInt64 (List F)

inductive FlatOperation (F : Type) where
  | add (ids : List UInt64) (vectors : List F)
  | remove (ids : List UInt64)
  | clear

inductive FlatReply where
  | added (result : Except GpuError Unit)
  | removed (result : Except GpuError Nat)
  | cleared (result : Except GpuError Unit)

/-- As many ids as vectors, and no component is left over. -/
def Sized {F : Type} (dim : Nat) (ids : List UInt64) (vectors : List F) :
    Prop :=
  vectors.length % dim = 0 ∧ ids.length = vectors.length / dim

instance {F : Type} (dim : Nat) (ids : List UInt64) (vectors : List F) :
    Decidable (Sized dim ids vectors) :=
  inferInstanceAs (Decidable (_ ∧ _))

/-- The vectors of an addition with their ids. -/
def added {F : Type} (dim : Nat) (ids : List UInt64) (vectors : List F) :
    List (Entry F) :=
  ids.zip (rowsOf dim vectors)

/-- What an operation makes of the map. -/
def FlatOperation.expected {F : Type} (dim : Nat) (live : Live F) :
    FlatOperation F → Live F
  | add ids vectors =>
      if Sized dim ids vectors then insertAll live (added dim ids vectors)
      else live
  | remove ids => eraseAll live ids
  | clear => ∅

/-- The condition on an operation. -/
def FlatOperation.Allowed {F : Type} (dim stride : Nat) (live : Live F) :
    FlatOperation F → Prop
  | add ids vectors =>
      dim ≠ 0 ∧ (Sized dim ids vectors →
        ids.Nodup ∧ (∀ id ∈ ids, id ∉ live.keys) ∧
          (ids ≠ [] → dim ≤ stride ∧
            (live.keys.card + ids.length) * stride ≤ vecMax))
  | remove ids => ∀ id ∈ ids, id ∉ live.keys
  | clear => True

def Sound {F : Type} (dim stride : Nat) (live : Live F) :
    List (FlatOperation F) → Prop
  | [] => True
  | operation :: rest =>
      operation.Allowed dim stride live ∧
        Sound dim stride (operation.expected dim live) rest

section

variable {F : Type} [Single F]

/-- The answer with the best vectors. -/
structure Best (metric : DistanceMetric) (query : List F) (live : Live F)
    (k : Nat) (results : List (SearchResult F)) : Prop where
  once : (results.map SearchResult.id).Nodup
  scores : ∀ result ∈ results, ∃ vector,
    live.lookup result.id = some vector ∧
      result.score = metric.compute query vector
  length : results.length = min k live.keys.card
  ordered : results.Pairwise fun a b =>
    metric.notBehind a.score b.score = true
  best : ∀ result ∈ results, ∀ id vector, live.lookup id = some vector →
    id ∉ results.map SearchResult.id →
      metric.notBehind result.score (metric.compute query vector) = true

namespace GpuFlatIndex

/-- The index answers for the map. -/
structure Holds (index : GpuFlatIndex F) (live : Live F) : Prop where
  len : index.len = live.keys.card
  finds : ∀ query : List F, query.length = index.dim →
    (∀ id vector, live.lookup id = some vector →
      Single.isNan (index.metric.compute query vector) = false) →
    ∀ k, ∃ results, index.search query k = some (.ok results) ∧
      Best index.metric query live k results

/-- The reply that an operation should get; what is rejected changes
nothing. -/
def Answered (before after : GpuFlatIndex F) (live : Live F)
    (reply : FlatReply) : FlatOperation F → Prop
  | .add ids vectors =>
      if Sized before.dim ids vectors then reply = .added (.ok ())
      else (∃ error, reply = .added (.error error)) ∧ after = before
  | .remove ids =>
      reply = .removed (.ok (live.keys ∩ ids.toFinset).card)
  | .clear => reply = .cleared (.ok ())

variable [Platform]

def perform (index : GpuFlatIndex F) :
    FlatOperation F → Option (FlatReply × GpuFlatIndex F)
  | .add ids vectors =>
      (index.add ids vectors).map fun (result, after) =>
        (.added result, after)
  | .remove ids => some (.removed (index.remove ids).1, (index.remove ids).2)
  | .clear => some (.cleared index.clear.1, index.clear.2)

/-- The index answers for the map all along a run. -/
def Right (index : GpuFlatIndex F) (live : Live F) :
    List (FlatOperation F) → Prop
  | [] => index.Holds live
  | operation :: rest =>
      index.Holds live ∧ ∃ reply after,
        index.perform operation = some (reply, after) ∧
          index.Answered after live reply operation ∧
          after.Right (operation.expected index.dim live) rest

end GpuFlatIndex

end

/-! ## The invariant -/

/-- The index stores the vectors of the map, each once. -/
structure Kept {F : Type} [Single F] (dim stride : Nat)
    (metric : DistanceMetric) (index : GpuFlatIndex F) (live : Live F)
    (entries : List (Entry F)) : Prop where
  stores : Stores dim stride metric index entries
  distinct : (entries.map Prod.fst).Nodup
  agrees : ∀ id vector, live.lookup id = some vector ↔ (id, vector) ∈ entries

section

variable {F : Type} {dim stride : Nat} {metric : DistanceMetric}
  {index : GpuFlatIndex F} {live : Live F} {entries : List (Entry F)}
  {ids : List UInt64} {vectors : List F}

theorem added_ids (sized : Sized dim ids vectors) :
    (added dim ids vectors).map Prod.fst = ids := by
  unfold added
  apply List.map_fst_zip
  rw [rowsOf_length]
  exact Nat.le_of_eq sized.2

theorem added_wide :
    ∀ entry ∈ added dim ids vectors, entry.2.length = dim :=
  fun _ member => length_of_mem_rowsOf (List.of_mem_zip member).2

variable [Single F]

namespace Kept

theorem keys (kept : Kept dim stride metric index live entries) :
    live.keys = (entries.map Prod.fst).toFinset := by
  ext id
  rw [Finmap.mem_keys, Finmap.mem_iff, List.mem_toFinset, List.mem_map]
  constructor
  · rintro ⟨vector, found⟩
    exact ⟨(id, vector), (kept.agrees id vector).mp found, rfl⟩
  · rintro ⟨entry, member, rfl⟩
    exact ⟨entry.2, (kept.agrees entry.1 entry.2).mpr member⟩

theorem card (kept : Kept dim stride metric index live entries) :
    live.keys.card = entries.length := by
  rw [kept.keys, List.toFinset_card_of_nodup kept.distinct, List.length_map]

theorem known_iff (kept : Kept dim stride metric index live entries)
    (id : UInt64) : id ∈ index.idToIndex ↔ id ∈ live.keys := by
  rw [kept.keys, List.mem_toFinset]
  exact kept.stores.known id

/-- The first results of the ranking are the best ones. -/
theorem best (kept : Kept dim stride metric index live entries)
    {query : List F} (numbers : Numbers metric query (entries.map Prod.snd))
    (k : Nat) :
    Best metric query live k ((ranking metric query entries).take k) := by
  have perm : (ranking metric query entries).Perm
      (entries.map (resultOf metric query)) := List.mergeSort_perm _ _
  have ids : ((ranking metric query entries).map SearchResult.id).Perm
      (entries.map Prod.fst) := by
    have mapped := perm.map SearchResult.id
    rwa [List.map_map] at mapped
  have distinct := ids.nodup_iff.mpr kept.distinct
  have ordered := ranking_ordered numbers
  have parts := List.take_append_drop k (ranking metric query entries)
  constructor
  · exact distinct.sublist ((List.take_sublist k _).map SearchResult.id)
  · intro result member
    obtain ⟨entry, isEntry, rfl⟩ :=
      List.mem_map.mp (perm.mem_iff.mp (List.mem_of_mem_take member))
    exact ⟨entry.2, (kept.agrees entry.1 entry.2).mpr isEntry, rfl⟩
  · rw [List.length_take, perm.length_eq, List.length_map, kept.card]
  · exact ordered.sublist (List.take_sublist k _)
  · intro result member id vector found missing
    have isEntry := (kept.agrees id vector).mp found
    have ranked : resultOf metric query (id, vector) ∈
        ranking metric query entries :=
      perm.mem_iff.mpr (List.mem_map_of_mem isEntry)
    rw [← parts, List.mem_append] at ranked
    rcases ranked with here | later
    · exact absurd (List.mem_map_of_mem here) missing
    · rw [← parts, List.pairwise_append] at ordered
      exact ordered.2.2 result member _ later

theorem holds (kept : Kept dim stride metric index live entries) :
    index.Holds live := by
  constructor
  · rw [kept.card]
    exact kept.stores.count
  · intro query fits numbers k
    rw [kept.stores.isMetric] at numbers ⊢
    have scores : Numbers metric query (entries.map Prod.snd) := by
      intro vector member
      obtain ⟨entry, isEntry, rfl⟩ := List.mem_map.mp member
      exact numbers entry.1 entry.2 ((kept.agrees _ _).mpr isEntry)
    refine ⟨_, ?_, kept.best scores k⟩
    unfold GpuFlatIndex.search
    rw [if_neg (not_not.mpr fits)]
    exact kept.stores.searchCpu_run scores k

end Kept

/-! ## Steps -/

variable [Platform]

theorem add_rejected (isDim : index.dim = dim) (positive : dim ≠ 0)
    (misfits : ¬Sized dim ids vectors) :
    ∃ error, index.add ids vectors = some (.error error, index) := by
  unfold GpuFlatIndex.add
  rw [isDim, if_neg positive]
  split
  · exact ⟨_, rfl⟩
  · rename_i whole
    rw [not_not] at whole
    rw [if_pos fun same => misfits ⟨whole, same⟩]
    exact ⟨_, rfl⟩

theorem add_accepted (isDim : index.dim = dim) (positive : dim ≠ 0)
    (sized : Sized dim ids vectors) :
    index.add ids vectors =
      ((added dim ids vectors).foldlM GpuFlatIndex.push index).map
        fun after => (.ok (), after) := by
  unfold GpuFlatIndex.add
  rw [isDim, if_neg positive, if_neg (not_not.mpr sized.1),
    if_neg (not_not.mpr sized.2)]
  unfold added
  cases (ids.zip (rowsOf dim vectors)).foldlM GpuFlatIndex.push index with
  | none => rfl
  | some after => rfl

omit [Platform] in
theorem Stores.clear (stores : Stores dim stride metric index entries) :
    Stores dim stride metric index.clear.2 [] where
  isDim := stores.isDim
  rowDim := stores.rowDim
  isStride := stores.isStride
  isMetric := stores.isMetric
  data := rfl
  count := rfl
  ids := rfl
  known _ := ⟨fun known => absurd known Finmap.notMem_empty, nofun⟩
  wide := nofun
  padded nonempty := absurd rfl nonempty
  padding := stores.padding

omit [Platform] in
/-- Nothing is stored for nothing. -/
theorem Stores.empty (stores : Stores dim stride metric index []) :
    Kept dim stride metric index ∅ [] where
  stores := stores
  distinct := List.nodup_nil
  agrees id vector := by
    rw [Finmap.lookup_empty]
    exact ⟨nofun, nofun⟩

namespace Kept

/-- An allowed operation gets its reply and keeps the agreement. -/
theorem step (kept : Kept dim stride metric index live entries)
    {operation : FlatOperation F}
    (allowed : operation.Allowed dim stride live) :
    ∃ reply after stored, index.perform operation = some (reply, after) ∧
      index.Answered after live reply operation ∧
      Kept dim stride metric after (operation.expected dim live) stored := by
  have isDim := kept.stores.isDim
  cases operation with
  | add ids vectors =>
      obtain ⟨positive, allowed⟩ := allowed
      by_cases sized : Sized dim ids vectors
      · obtain ⟨distinct, fresh, fits⟩ := allowed sized
        have isIds := added_ids sized
        have length : (added dim ids vectors).length = ids.length := by
          rw [← isIds, List.length_map, isIds]
        obtain ⟨after, pushed⟩ := Option.isSome_iff_exists.mp
          ((kept.stores.pushes_isSome positive added_wide).mpr (by
            intro nonempty
            rw [length, ← kept.card]
            apply fits
            rintro rfl
            exact nonempty (List.eq_nil_of_length_eq_zero length)))
        refine ⟨.added (.ok ()), after, entries ++ added dim ids vectors, ?_,
          ?_, ?_⟩
        · rw [GpuFlatIndex.perform, add_accepted isDim positive sized, pushed]
          rfl
        · rw [GpuFlatIndex.Answered, isDim]
          exact (if_pos sized).mpr rfl
        · rw [FlatOperation.expected, if_pos sized]
          refine ⟨kept.stores.pushes positive added_wide pushed, ?_, ?_⟩
          · rw [List.map_append, isIds]
            refine kept.distinct.append distinct ?_
            intro id stored again
            apply fresh id again
            rw [kept.keys]
            exact List.mem_toFinset.mpr stored
          · intro id vector
            rw [List.mem_append, ← kept.agrees]
            apply lookup_insertAll_fresh
            · rwa [isIds]
            · intro entry member stored
              apply fresh entry.1 _ (Finmap.mem_keys.mpr stored)
              rw [← isIds]
              exact List.mem_map_of_mem member
      · obtain ⟨error, rejected⟩ : ∃ error,
            index.add ids vectors = some (.error error, index) :=
          add_rejected isDim positive sized
        refine ⟨.added (.error error), index, entries, ?_, ?_, ?_⟩
        · rw [GpuFlatIndex.perform, rejected]
          rfl
        · rw [GpuFlatIndex.Answered, isDim]
          exact (if_neg sized).mpr ⟨⟨error, rfl⟩, rfl⟩
        · rw [FlatOperation.expected, if_neg sized]
          exact kept
  | remove ids =>
      refine ⟨_, index, entries, rfl, ?_, ?_⟩
      · have count : ids.countP (fun id => id ∈ index.idToIndex) = 0 := by
          rw [List.countP_eq_zero]
          intro id member known
          exact allowed id member
            ((kept.known_iff id).mp (of_decide_eq_true known))
        have nothing : live.keys ∩ ids.toFinset = ∅ := by
          rw [← Finset.disjoint_iff_inter_eq_empty,
            Finset.disjoint_right]
          exact fun id member => allowed id (List.mem_toFinset.mp member)
        rw [GpuFlatIndex.Answered, GpuFlatIndex.remove, count, nothing]
        rfl
      · have same : eraseAll live ids = live :=
          eraseAll_of_notMem fun id member stored =>
            allowed id member (Finmap.mem_keys.mpr stored)
        rw [FlatOperation.expected, same]
        exact kept
  | clear =>
      exact ⟨_, _, [], rfl, rfl, kept.stores.clear.empty⟩

/-- An operation after which the index agrees with the map was allowed. -/
theorem allowed (kept : Kept dim stride metric index live entries)
    {operation : FlatOperation F} {reply : FlatReply} {after : GpuFlatIndex F}
    (performed : index.perform operation = some (reply, after))
    (holds : after.Holds (operation.expected dim live)) :
    operation.Allowed dim stride live := by
  have isDim := kept.stores.isDim
  have agrees := holds.len
  cases operation with
  | add ids vectors =>
      have positive : dim ≠ 0 := by
        rintro zero
        rw [GpuFlatIndex.perform, GpuFlatIndex.add, isDim, if_pos zero]
          at performed
        cases performed
      refine ⟨positive, fun sized => ?_⟩
      have isIds := added_ids sized
      have length : (added dim ids vectors).length = ids.length := by
        rw [← isIds, List.length_map, isIds]
      rw [GpuFlatIndex.perform, add_accepted isDim positive sized,
        Option.map_map] at performed
      obtain ⟨last, pushed, same⟩ := Option.map_eq_some_iff.mp performed
      cases same
      have stored := kept.stores.pushes positive added_wide pushed
      rw [FlatOperation.expected, if_pos sized, GpuFlatIndex.len,
        stored.count, List.length_append, length, ← kept.card,
        keys_insertAll, isIds] at agrees
      obtain ⟨distinct, fresh⟩ := fresh_of_card agrees.symm
      refine ⟨distinct, fresh, fun nonempty => ?_⟩
      have fits := (kept.stores.pushes_isSome positive added_wide).mp
        (Option.isSome_iff_exists.mpr ⟨_, pushed⟩)
      rw [length, ← kept.card] at fits
      apply fits
      rintro none
      rw [none] at length
      exact nonempty (List.eq_nil_of_length_eq_zero length.symm)
  | remove ids =>
      cases performed
      rw [FlatOperation.expected, GpuFlatIndex.len, GpuFlatIndex.remove,
        kept.stores.count, ← kept.card, keys_eraseAll] at agrees
      have same := Finset.eq_of_subset_of_card_le Finset.sdiff_subset
        (Nat.le_of_eq agrees)
      intro id member stored
      rw [← same, Finset.mem_sdiff] at stored
      exact stored.2 (List.mem_toFinset.mpr member)
  | clear => trivial

theorem right_iff (kept : Kept dim stride metric index live entries)
    (operations : List (FlatOperation F)) :
    index.Right live operations ↔ Sound dim stride live operations := by
  induction operations generalizing index live entries with
  | nil => exact ⟨fun _ => trivial, fun _ => kept.holds⟩
  | cons operation rest ih =>
      have isDim := kept.stores.isDim
      constructor
      · rintro ⟨-, reply, after, performed, -, right⟩
        rw [isDim] at right
        have holds : after.Holds (operation.expected dim live) := by
          cases rest with
          | nil => exact right
          | cons next rest => exact right.1
        have allowed := kept.allowed performed holds
        obtain ⟨_, next, stored, again, -, keeps⟩ := kept.step allowed
        rw [performed] at again
        cases again
        exact ⟨allowed, (ih keeps).mp right⟩
      · rintro ⟨allowed, sound⟩
        obtain ⟨reply, after, stored, performed, answered, keeps⟩ :=
          kept.step allowed
        refine ⟨kept.holds, reply, after, performed, answered, ?_⟩
        rw [isDim]
        exact (ih keeps).mpr sound

end Kept

/-- Along a run of a new index it answers for the map exactly if all operations
are allowed. -/
theorem GpuFlatIndex.one_vector_iff {config : GpuConfig}
    (created : GpuFlatIndex.new dim metric config = some index)
    (operations : List (FlatOperation F)) :
    index.Right ∅ operations ↔
      Sound dim index.vectors.stride ∅ operations :=
  (stores_new created).empty.right_iff operations

end

section

attribute [local instance] Platform.integral Single.exact

/-- A new index for numbers, each in a row of 32. -/
def newFlat : GpuFlatIndex ExactFloat :=
  { dim := 1
    metric := .l2
    vectors := { data := [], dim := 1, count := 0, stride := 32 }
    ids := []
    idToIndex := ∅ }

theorem newFlat_created :
    GpuFlatIndex.new 1 .l2 { dimensionAlignment := 32 } = some newFlat :=
  rfl

/-- Two vectors, an addition with a missing id, a removal of an unknown id, and
the first id again after everything is cleared. -/
def freshAdditions : List (FlatOperation ExactFloat) :=
  [.add [1, 2] [.number 0, .number 3], .add [] [.number 4], .remove [7], .clear,
    .add [1] [.number 5]]

theorem freshAdditions_right : newFlat.Right ∅ freshAdditions := by
  refine (GpuFlatIndex.one_vector_iff newFlat_created freshAdditions).mpr ?_
  have none : ∀ ids : List UInt64, ∀ id ∈ ids,
      id ∉ (∅ : Live ExactFloat).keys :=
    fun _ id _ => Finset.notMem_empty id
  refine ⟨⟨by decide, fun _ => ⟨by decide, none _, fun _ => by decide⟩⟩,
    ⟨by decide, fun sized => absurd sized (by decide)⟩, ?_, trivial,
    ⟨by decide, fun _ => ⟨by decide, none _, fun _ => by decide⟩⟩, trivial⟩
  intro id member
  rw [List.mem_singleton.mp member]
  decide

/-- A second vector for an id is stored beside the first one, and an id that is
removed is still there. -/
theorem second_vector_not_right :
    ¬newFlat.Right ∅ [.add [1] [.number 0], .add [1] [.number 5]] ∧
      ¬newFlat.Right ∅ [.add [1] [.number 0], .remove [1]] := by
  have kept := (stores_new newFlat_created).empty
  constructor
  · rw [kept.right_iff]
    rintro ⟨-, ⟨-, allowed⟩, -⟩
    exact (allowed (by decide)).2.1 1 (by decide) (by decide)
  · rw [kept.right_iff]
    rintro ⟨-, allowed, -⟩
    exact allowed 1 (by decide) (by decide)

end

end RedVector.Gpu
