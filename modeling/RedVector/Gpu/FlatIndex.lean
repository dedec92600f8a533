import RedVector.Gpu.Distance
import RedVector.Util.Loops
import RedVector.Util.Rows
import RedVector.Value.Hash

/-!
# The flat index

Brute-force search without a device: vectors in rows that are padded to a
stride, the ids in their order, and a map from the ids to the rows.
-/

namespace RedVector.Gpu

open Util

/-- How many numbers of single precision a `Vec` has at most. -/
def vecMax : Nat := 2305843009213693951

structure AlignedVectors (F : Type) where
  data : List F
  dim : Nat
  count : Nat
  stride : Nat

namespace AlignedVectors

section

variable {F : Type} [Platform]

/-- The dimension, rounded up to a multiple of the alignment. -/
def strideOf (dim alignment : Nat) : Option Nat :=
  if 0 < alignment then do
    let sum ← usize (dim + alignment : Nat)
    let last ← usize ((sum : Int) - 1)
    pure (last / alignment * alignment)
  else some dim

def new (dim alignment : Nat) : Option (AlignedVectors F) := do
  let stride ← strideOf dim alignment
  pure { data := [], dim := dim, count := 0, stride := stride }

variable [Single F]

/-- Adds a row and its padding; what does not fit into a `Vec` panics. -/
def addRow (storage : AlignedVectors F) (src : List F) :
    Option (AlignedVectors F) := do
  let padding ← usize ((storage.stride : Int) - storage.dim)
  if storage.data.length + src.length + padding ≤ vecMax then
    pure { storage with
      data := storage.data ++ src ++ List.replicate padding Single.zero
      count := storage.count + 1 }
  else none

/-- A dimension of zero panics. -/
def add (storage : AlignedVectors F) (vectors : List F) :
    Option (AlignedVectors F) :=
  if storage.dim = 0 then none
  else (rowsOf storage.dim vectors).foldlM addRow storage

end

variable {F : Type} (storage : AlignedVectors F)

def get (index : Nat) : Option (Option (List F)) :=
  if storage.count ≤ index then some none
  else do
    let start := index * storage.stride
    let vector ← subslice storage.data start (start + storage.dim)
    pure (some vector)

def clear : AlignedVectors F :=
  { storage with data := [], count := 0 }

end AlignedVectors

structure GpuConfig where
  dimensionAlignment : Nat

structure GpuFlatIndex (F : Type) where
  dim : Nat
  metric : DistanceMetric
  vectors : AlignedVectors F
  ids : List UInt64
  idToIndex : HashMap UInt64 Nat

namespace GpuFlatIndex

section

variable {F : Type} [Platform]

def new (dim : Nat) (metric : DistanceMetric) (config : GpuConfig) :
    Option (GpuFlatIndex F) := do
  let vectors ← AlignedVectors.new dim config.dimensionAlignment
  pure
    { dim := dim
      metric := metric
      vectors := vectors
      ids := []
      idToIndex := ∅ }

variable [Single F]

/-- Stores a vector, whether or not its id has one already. -/
def push (index : GpuFlatIndex F) (entry : UInt64 × List F) :
    Option (GpuFlatIndex F) := do
  let vectors ← index.vectors.add entry.2
  pure { index with
    vectors := vectors
    ids := index.ids ++ [entry.1]
    idToIndex := index.idToIndex.insert entry.1 index.vectors.count }

/-- A dimension of zero panics.  There are as many ids as rows when the vectors
are stored. -/
def add (index : GpuFlatIndex F) (ids : List UInt64) (vectors : List F) :
    Option (Except GpuError Unit × GpuFlatIndex F) :=
  if index.dim = 0 then none
  else if vectors.length % index.dim ≠ 0 then
    some (.error (.dimensionMismatch index.dim (vectors.length % index.dim)),
      index)
  else if ids.length ≠ vectors.length / index.dim then
    some (.error (.dimensionMismatch (vectors.length / index.dim) ids.length),
      index)
  else do
    let after ← (ids.zip (rowsOf index.dim vectors)).foldlM push index
    pure (.ok (), after)

end

section

variable {F : Type} [Single F] (index : GpuFlatIndex F)

/-- The result for a row; what `unwrap` or an index does not find panics. -/
def resultAt (query : List F) (i : Nat) : Option (SearchResult F) := do
  let vector ← index.vectors.get i
  let vector ← vector
  let id ← index.ids[i]?
  pure { id := id, score := index.metric.compute query vector }

def searchCpu (query : List F) (k : Nat) :
    Option (Except GpuError (List (SearchResult F))) :=
  if index.vectors.count = 0 then some (.ok [])
  else do
    let results ← (List.range index.vectors.count).mapM (index.resultAt query)
    let sorted ← index.metric.sortBy SearchResult.score results
    pure (.ok (sorted.take k))

def search (query : List F) (k : Nat) :
    Option (Except GpuError (List (SearchResult F))) :=
  if query.length ≠ index.dim then
    some (.error (.dimensionMismatch index.dim query.length))
  else index.searchCpu query k

end

section

variable {F : Type} (index : GpuFlatIndex F)

def len : Nat :=
  index.vectors.count

/-- Counts the ids that are known; none of them is removed. -/
def remove (ids : List UInt64) : Except GpuError Nat × GpuFlatIndex F :=
  (.ok (ids.countP fun id => id ∈ index.idToIndex), index)

def clear : Except GpuError Unit × GpuFlatIndex F :=
  (.ok (), { index with vectors := index.vectors.clear, ids := [],
                        idToIndex := ∅ })

end

end GpuFlatIndex

/-!
## What a flat index stores

The rows, the ids and the map stay aligned, and a search ranks all vectors
that were stored.
-/

section

/-- A vector and its id. -/
abbrev Entry (F : Type) := UInt64 × List F

section

variable {F : Type} [Single F]

/-- The result for a vector. -/
def resultOf (metric : DistanceMetric) (query : List F) (entry : Entry F) :
    SearchResult F :=
  { id := entry.1, score := metric.compute query entry.2 }

/-- The results for all vectors, the best first. -/
def ranking (metric : DistanceMetric) (query : List F)
    (entries : List (Entry F)) : List (SearchResult F) :=
  (entries.map (resultOf metric query)).mergeSort fun a b =>
    metric.notBehind a.score b.score

/-- No score of the query is NaN. -/
def Numbers (metric : DistanceMetric) (query : List F)
    (vectors : List (List F)) : Prop :=
  ∀ vector ∈ vectors, Single.isNan (metric.compute query vector) = false

/-- A vector and the padding up to the stride. -/
def paddedRow (dim stride : Nat) (entry : Entry F) : List F :=
  entry.2 ++ List.replicate (stride - dim) Single.zero

/-- The index stores these vectors in this order. -/
structure Stores (dim stride : Nat) (metric : DistanceMetric)
    (index : GpuFlatIndex F) (entries : List (Entry F)) : Prop where
  isDim : index.dim = dim
  rowDim : index.vectors.dim = dim
  isStride : index.vectors.stride = stride
  isMetric : index.metric = metric
  data : index.vectors.data = entries.flatMap (paddedRow dim stride)
  count : index.vectors.count = entries.length
  ids : index.ids = entries.map Prod.fst
  known : ∀ id, id ∈ index.idToIndex ↔ id ∈ entries.map Prod.fst
  wide : ∀ entry ∈ entries, entry.2.length = dim
  padded : entries ≠ [] → dim ≤ stride
  padding : stride - dim ≤ usizeMax

end

variable {F : Type} [Single F] {dim stride : Nat} {metric : DistanceMetric}
  {index : GpuFlatIndex F} {entries : List (Entry F)}

theorem paddedRow_length {entry : Entry F} (own : entry.2.length = dim)
    (padded : dim ≤ stride) : (paddedRow dim stride entry).length = stride := by
  unfold paddedRow
  rw [List.length_append, List.length_replicate, own]
  exact Nat.add_sub_of_le padded

/-- Results with numbers as scores are ranked. -/
theorem results_ranks {query : List F}
    (numbers : Numbers metric query (entries.map Prod.snd)) :
    Ranks (fun a b : SearchResult F => metric.notBehind a.score b.score)
      (entries.map (resultOf metric query)) := by
  let vectors := entries.map Prod.snd
  have scores : ∀ score ∈ vectors.map (metric.compute query),
      Single.isNan score = false := by
    intro score member
    obtain ⟨vector, among, rfl⟩ := List.mem_map.mp member
    exact numbers vector among
  refine (DistanceMetric.numbers_ranked scores).of_values SearchResult.score ?_
  intro result member
  obtain ⟨entry, isEntry, rfl⟩ := List.mem_map.mp member
  exact List.mem_map_of_mem (List.mem_map_of_mem isEntry)

theorem ranking_ordered {query : List F}
    (numbers : Numbers metric query (entries.map Prod.snd)) :
    (ranking metric query entries).Pairwise fun a b =>
      metric.notBehind a.score b.score = true :=
  (results_ranks numbers).mergeSort

namespace Stores

theorem rows (stores : Stores dim stride metric index entries) :
    ∀ entry ∈ entries, (paddedRow dim stride entry).length = stride :=
  fun entry member => paddedRow_length (stores.wide entry member)
    (stores.padded (List.ne_nil_of_mem member))

theorem data_length (stores : Stores dim stride metric index entries) :
    index.vectors.data.length = entries.length * stride := by
  rw [stores.data]
  exact length_rows stores.rows

/-! ## Searches -/

theorem get_run (stores : Stores dim stride metric index entries) {i : Nat}
    {entry : Entry F} (found : entries[i]? = some entry) :
    index.vectors.get i = some (some entry.2) := by
  obtain ⟨inside, -⟩ := List.getElem?_eq_some_iff.mp found
  have member := List.mem_of_getElem? found
  have padded := stores.padded (List.ne_nil_of_mem member)
  have row : (index.vectors.data.drop (i * stride)).take stride =
      paddedRow dim stride entry := by
    rw [stores.data]
    exact row_at stores.rows found
  have vector : (index.vectors.data.drop (i * stride)).take dim = entry.2 := by
    rw [← Nat.min_eq_left padded, ← List.take_take, row]
    unfold paddedRow
    rw [← stores.wide entry member, List.take_left]
  have bound : i * stride + dim ≤ index.vectors.data.length := by
    have rowEnd := Nat.mul_le_mul_right stride (Nat.succ_le_of_lt inside)
    rw [Nat.succ_mul] at rowEnd
    rw [stores.data_length]
    omega
  have taken : subslice index.vectors.data (i * stride) (i * stride + dim) =
      some entry.2 := by
    unfold subslice
    rw [if_pos ⟨Nat.le_add_right _ _, bound⟩, Nat.add_sub_cancel_left, vector]
  unfold AlignedVectors.get
  rw [stores.count, if_neg (Nat.not_le_of_lt inside), stores.isStride,
    stores.rowDim]
  dsimp only
  rw [taken]
  rfl

theorem resultAt_run (stores : Stores dim stride metric index entries)
    (query : List F) {i : Nat} {entry : Entry F}
    (found : entries[i]? = some entry) :
    index.resultAt query i = some (resultOf metric query entry) := by
  unfold GpuFlatIndex.resultAt
  rw [stores.get_run found, Option.bind_eq_bind, Option.bind_some,
    Option.bind_eq_bind, Option.bind_some, stores.ids, List.getElem?_map,
    found, stores.isMetric]
  rfl

/-- A search ranks all vectors. -/
theorem searchCpu_run (stores : Stores dim stride metric index entries)
    {query : List F}
    (numbers : Numbers metric query (entries.map Prod.snd)) (k : Nat) :
    index.searchCpu query k =
      some (.ok ((ranking metric query entries).take k)) := by
  unfold GpuFlatIndex.searchCpu
  split
  · rename_i empty
    rw [stores.count] at empty
    have nothing : ranking metric query ([] : List (Entry F)) = [] :=
      List.mergeSort_nil
    rw [List.eq_nil_of_length_eq_zero empty, nothing, List.take_nil]
  · have results : (List.range index.vectors.count).mapM
        (index.resultAt query) =
          some (entries.map (resultOf metric query)) := by
      rw [stores.count]
      apply mapM_of_getElem?
      · rw [List.length_range, List.length_map]
      · intro place i result isPlace found
        obtain ⟨_, same⟩ := List.getElem?_eq_some_iff.mp isPlace
        rw [List.getElem_range] at same
        subst same
        rw [List.getElem?_map] at found
        obtain ⟨entry, isEntry, rfl⟩ := Option.map_eq_some_iff.mp found
        exact stores.resultAt_run query isEntry
    have scores : ∀ result ∈ entries.map (resultOf metric query),
        Single.isNan (SearchResult.score result) = false := by
      intro result member
      obtain ⟨entry, isEntry, rfl⟩ := List.mem_map.mp member
      exact numbers entry.2 (List.mem_map_of_mem isEntry)
    rw [results, Option.bind_eq_bind, Option.bind_some, stores.isMetric,
      DistanceMetric.sortBy_run scores]
    rfl

/-! ## Additions -/

variable [Platform]

theorem addRow_eq (stores : Stores dim stride metric index entries)
    {entry : Entry F} (own : entry.2.length = dim) :
    index.vectors.addRow entry.2 =
      if dim ≤ stride ∧ (entries.length + 1) * stride ≤ vecMax then
        some
          { data := index.vectors.data ++ paddedRow dim stride entry
            dim := dim
            count := index.vectors.count + 1
            stride := stride }
      else none := by
  unfold AlignedVectors.addRow
  rw [stores.isStride, stores.rowDim, stores.data_length, own]
  by_cases padded : dim ≤ stride
  · have sum : entries.length * stride + dim + (stride - dim) =
        (entries.length + 1) * stride := by
      rw [Nat.succ_mul]
      omega
    have padding : usize ((stride : Int) - dim) = some (stride - dim) :=
      usize_of (by omega) stores.padding
    rw [padding, Option.bind_eq_bind, Option.bind_some, sum]
    by_cases fits : (entries.length + 1) * stride ≤ vecMax
    · rw [if_pos fits, if_pos ⟨padded, fits⟩, List.append_assoc]
      rfl
    · rw [if_neg fits, if_neg fun both => fits both.2]
  · rw [if_neg fun both => padded both.1, usize_below (by omega)]
    split
    · rfl
    · -- The padding that is wrapped around does not fit into memory.
      rw [Option.bind_eq_bind, Option.bind_some, if_neg]
      unfold vecMax
      omega

/-- A vector is stored if it fits. -/
theorem push_eq (stores : Stores dim stride metric index entries)
    (positive : dim ≠ 0) {entry : Entry F} (own : entry.2.length = dim) :
    index.push entry =
      if dim ≤ stride ∧ (entries.length + 1) * stride ≤ vecMax then
        some { index with
          vectors :=
            { data := index.vectors.data ++ paddedRow dim stride entry
              dim := dim
              count := index.vectors.count + 1
              stride := stride }
          ids := index.ids ++ [entry.1]
          idToIndex := index.idToIndex.insert entry.1 index.vectors.count }
      else none := by
  have row : rowsOf dim entry.2 = [entry.2] :=
    rowsOf_row (Nat.pos_of_ne_zero positive) own
  have single : index.vectors.add entry.2 = index.vectors.addRow entry.2 := by
    unfold AlignedVectors.add
    rw [stores.rowDim, if_neg positive, row, List.foldlM_cons]
    exact bind_pure _
  unfold GpuFlatIndex.push
  rw [single, stores.addRow_eq own]
  split
  · rfl
  · rfl

theorem push (stores : Stores dim stride metric index entries)
    (positive : dim ≠ 0) {entry : Entry F} (own : entry.2.length = dim)
    {after : GpuFlatIndex F} (pushed : index.push entry = some after) :
    Stores dim stride metric after (entries ++ [entry]) := by
  rw [stores.push_eq positive own] at pushed
  split at pushed
  · rename_i fits
    cases pushed
    constructor
    · exact stores.isDim
    · rfl
    · rfl
    · exact stores.isMetric
    · rw [List.flatMap_append, List.flatMap_singleton, stores.data]
    · rw [List.length_append, List.length_singleton, stores.count]
    · rw [List.map_append, List.map_singleton, stores.ids]
    · intro id
      rw [Finmap.mem_insert, List.map_append, List.map_singleton,
        List.mem_append, List.mem_singleton, stores.known id, or_comm]
    · intro other member
      rcases List.mem_append.mp member with before | last
      · exact stores.wide other before
      · rw [List.mem_singleton.mp last]
        exact own
    · exact fun _ => fits.1
    · exact stores.padding
  · cases pushed

/-- What an addition of several vectors leaves. -/
theorem pushes (stores : Stores dim stride metric index entries)
    (positive : dim ≠ 0) {added : List (Entry F)}
    (wide : ∀ entry ∈ added, entry.2.length = dim) {after : GpuFlatIndex F}
    (pushed : added.foldlM GpuFlatIndex.push index = some after) :
    Stores dim stride metric after (entries ++ added) := by
  induction added generalizing index entries with
  | nil =>
      cases pushed
      rw [List.append_nil]
      exact stores
  | cons entry rest ih =>
      rw [List.foldlM_cons] at pushed
      obtain ⟨next, first, others⟩ := Option.bind_eq_some_iff.mp pushed
      have own := wide entry List.mem_cons_self
      have result := ih (stores.push positive own first)
        (fun other member => wide other (List.mem_cons_of_mem _ member)) others
      rw [List.append_assoc] at result
      exact result

/-- Several vectors are stored exactly if they fit. -/
theorem pushes_isSome (stores : Stores dim stride metric index entries)
    (positive : dim ≠ 0) {added : List (Entry F)}
    (wide : ∀ entry ∈ added, entry.2.length = dim) :
    (added.foldlM GpuFlatIndex.push index).isSome = true ↔
      (added ≠ [] → dim ≤ stride ∧
        (entries.length + added.length) * stride ≤ vecMax) := by
  induction added generalizing index entries with
  | nil => exact ⟨fun _ nonempty => absurd rfl nonempty, fun _ => rfl⟩
  | cons entry rest ih =>
      have own := wide entry List.mem_cons_self
      have others := fun other member =>
        wide other (List.mem_cons_of_mem entry member)
      have equation := stores.push_eq positive own
      have length : entries.length + (entry :: rest).length =
          (entries ++ [entry]).length + rest.length := by
        simp only [List.length_cons, List.length_append, List.length_nil]
        omega
      rw [List.foldlM_cons, length, Option.isSome_iff_exists]
      constructor
      · rintro ⟨last, returns⟩ _
        obtain ⟨after, pushed, rest'⟩ := Option.bind_eq_some_iff.mp returns
        have fits := (ih (stores.push positive own pushed) others).mp
          (Option.isSome_iff_exists.mpr ⟨last, rest'⟩)
        rw [pushed] at equation
        split at equation
        · rename_i both
          refine ⟨both.1, ?_⟩
          cases rest with
          | nil => simpa using both.2
          | cons next rest => exact (fits nofun).2
        · cases equation
      · intro fits
        obtain ⟨padded, all⟩ := fits nofun
        have first : (entries.length + 1) * stride ≤ vecMax := by
          refine (Nat.mul_le_mul_right stride ?_).trans all
          simp only [List.length_append, List.length_singleton]
          omega
        rw [if_pos ⟨padded, first⟩] at equation
        obtain ⟨last, rest'⟩ := Option.isSome_iff_exists.mp
          ((ih (stores.push positive own equation) others).mpr fun _ =>
            ⟨padded, all⟩)
        exact ⟨last, Option.bind_eq_some_iff.mpr ⟨_, equation, rest'⟩⟩

end Stores

/-! ## Creation -/

/-- The stride that was computed for a new index. -/
theorem stores_new [Platform] {config : GpuConfig}
    (created : GpuFlatIndex.new dim metric config = some index) :
    Stores dim index.vectors.stride metric index [] := by
  obtain ⟨vectors, storage, created⟩ := Option.bind_eq_some_iff.mp created
  cases created
  obtain ⟨stride, computed, storage⟩ := Option.bind_eq_some_iff.mp storage
  cases storage
  refine ⟨rfl, rfl, rfl, rfl, rfl, rfl, rfl, ?_, nofun, nofun, ?_⟩
  · intro id
    exact ⟨fun known => absurd known Finmap.notMem_empty, nofun⟩
  · dsimp only
    unfold AlignedVectors.strideOf at computed
    split at computed
    · obtain ⟨sum, -, computed⟩ := Option.bind_eq_some_iff.mp computed
      obtain ⟨last, isLast, computed⟩ := Option.bind_eq_some_iff.mp computed
      cases computed
      have bound := (usize_spec isLast).1
      have most := Nat.div_mul_le_self last config.dimensionAlignment
      omega
    · cases computed
      omega

end

end RedVector.Gpu
