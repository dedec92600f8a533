import RedVector.Gpu.FlatIndex
import RedVector.Gpu.Ivf

/-!
# The inverted lists of an index

Training gives one centroid for each list.  Whatever is added, the lists
together hold the vectors that were stored.
-/

namespace RedVector.Gpu

open Util

/-! ## Training -/

section

variable {F : Type} [Single F] {dim k : Nat}

/-- So many rows of the dimension. -/
structure Shaped (dim k : Nat) (rows : List (List F)) : Prop where
  length : rows.length = k
  wide : ∀ row ∈ rows, row.length = dim

/-- What an assignment keeps of its sums. -/
structure Sums.Shaped (clusters : Sums F) (dim k : Nat) : Prop where
  sums : Gpu.Shaped dim k clusters.sums
  counts : clusters.counts.length = k

theorem assignPoint_shaped {centroids : List (List F)} {point : List F}
    (own : point.length = dim) {before after : Sums F}
    (shaped : before.Shaped dim k)
    (assigned : assignPoint centroids before point = some after) :
    after.Shaped dim k := by
  obtain ⟨count, -, assigned⟩ := Option.bind_eq_some_iff.mp assigned
  obtain ⟨row, isRow, assigned⟩ := Option.bind_eq_some_iff.mp assigned
  cases assigned
  have wide := shaped.sums.wide row (List.mem_of_getElem? isRow)
  refine ⟨⟨?_, ?_⟩, ?_⟩
  · rw [List.length_set, shaped.sums.length]
  · intro other member
    rcases List.mem_or_eq_of_mem_set member with before | rfl
    · exact shaped.sums.wide other before
    · rw [List.length_zipWith, wide, own, Nat.min_self]
  · rw [List.length_set, shaped.counts]

theorem iteration_shaped {points : List (List F)}
    (isWide : ∀ point ∈ points, point.length = dim)
    {centroids moved : List (List F)} (shaped : Shaped dim k centroids)
    (moves : iteration points dim centroids = some moved) :
    Shaped dim k moved := by
  obtain ⟨clusters, assigned, moves⟩ := Option.bind_eq_some_iff.mp moves
  cases moves
  have begins : Sums.Shaped
      { sums := List.replicate centroids.length
          (List.replicate dim (Single.zero : F))
        counts := List.replicate centroids.length 0 } dim k := by
    refine ⟨⟨?_, ?_⟩, ?_⟩
    · rw [List.length_replicate, shaped.length]
    · intro row member
      rw [List.eq_of_mem_replicate member, List.length_replicate]
    · rw [List.length_replicate, shaped.length]
  have sized : clusters.Shaped dim k :=
    foldlM_invariant (fun point member before after before_shaped =>
      assignPoint_shaped (isWide point member) before_shaped) begins assigned
  constructor
  · rw [List.length_zipWith, List.length_zip, shaped.length,
      sized.sums.length, sized.counts, Nat.min_self, Nat.min_self]
  · intro row member
    obtain ⟨place, found⟩ := List.mem_iff_getElem?.mp member
    rw [List.getElem?_zipWith_eq_some] at found
    obtain ⟨centroid, ⟨total, count⟩, isCentroid, isCluster, rfl⟩ := found
    dsimp only
    split
    · rw [List.length_map]
      exact sized.sums.wide total
        (List.of_mem_zip (List.mem_of_getElem? isCluster)).1
    · exact shaped.wide centroid (List.mem_of_getElem? isCentroid)

theorem iterations_shaped {points : List (List F)}
    (isWide : ∀ point ∈ points, point.length = dim) {rounds : Nat}
    {centroids final : List (List F)} (shaped : Shaped dim k centroids)
    (moves : iterations points dim rounds centroids = some final) :
    Shaped dim k final := by
  induction rounds generalizing centroids with
  | zero =>
      cases moves
      exact shaped
  | succ rounds ih =>
      rw [iterations] at moves
      obtain ⟨moved, first, others⟩ := Option.bind_eq_some_iff.mp moves
      exact ih (iteration_shaped isWide shaped first) others

theorem kmeansTrain_length [Platform] {data centroids : List F}
    {nIter : Nat}
    (trained : kmeansTrain data dim k nIter = some centroids) :
    centroids.length = k * dim := by
  obtain ⟨initial, starts, trained⟩ := Option.bind_eq_some_iff.mp trained
  obtain ⟨final, moves, trained⟩ := Option.bind_eq_some_iff.mp trained
  cases trained
  have isWide : ∀ point ∈ rowsOf dim data, point.length = dim :=
    fun point => length_of_mem_rowsOf
  obtain ⟨length, chosen⟩ := getElem?_of_mapM_range starts
  have shaped : Shaped dim k initial := by
    refine ⟨length, ?_⟩
    intro row member
    obtain ⟨place, found⟩ := List.mem_iff_getElem?.mp member
    have inside := (List.getElem?_eq_some_iff.mp found).1
    have compute := chosen place (by omega)
    rw [found] at compute
    obtain ⟨scaled, -, compute⟩ := Option.bind_eq_some_iff.mp compute
    split at compute
    · cases compute
    · exact isWide row (List.mem_of_getElem? compute)
  obtain ⟨count, wide⟩ := iterations_shaped isWide shaped moves
  have flat : ∀ row ∈ final, (id row : List F).length = dim := wide
  rw [← List.flatMap_id, length_rows flat, count]

end

/-! ## The lists -/

section

variable {F : Type}

/-- The vectors of a list and their ids. -/
def entriesOf (dim : Nat) (list : InvertedList F) : List (Entry F) :=
  list.ids.zip (rowsOf dim (list.vectors.getD []))

/-- A list has the components of as many vectors as ids. -/
def Aligned (dim : Nat) (list : InvertedList F) : Prop :=
  ∃ vectors, list.vectors = some vectors ∧
    vectors.length = list.ids.length * dim

variable {dim : Nat} {list : InvertedList F}

theorem Aligned.entries_length (aligned : Aligned dim list)
    (positive : 0 < dim) : (entriesOf dim list).length = list.ids.length := by
  obtain ⟨vectors, held, length⟩ := aligned
  unfold entriesOf
  rw [List.length_zip, rowsOf_length, held, Option.getD_some, length,
    Nat.mul_div_cancel _ positive, Nat.min_self]

/-- The id and the row at a place. -/
theorem Aligned.entry_at (aligned : Aligned dim list) {place : Nat}
    {entry : Entry F} (found : (entriesOf dim list)[place]? = some entry) :
    list.ids[place]? = some entry.1 ∧
      ∃ vectors, list.vectors = some vectors ∧
        subslice vectors (place * dim) ((place + 1) * dim) =
          some entry.2 := by
  obtain ⟨vectors, held, length⟩ := aligned
  unfold entriesOf at found
  rw [held, Option.getD_some, List.getElem?_zip_eq_some] at found
  obtain ⟨isId, isRow⟩ := found
  refine ⟨isId, vectors, held, ?_⟩
  have among := (List.getElem?_eq_some_iff.mp isRow).1
  rw [rowsOf_length] at among
  rw [getElem?_rowsOf among] at isRow
  have bound : (place + 1) * dim ≤ vectors.length :=
    (Nat.mul_le_mul_right dim among).trans (Nat.div_mul_le_self _ dim)
  unfold subslice
  rw [if_pos ⟨Nat.mul_le_mul_right dim (Nat.le_succ place), bound⟩,
    Nat.succ_mul, Nat.add_sub_cancel_left, isRow]

/-- A list with one more vector. -/
theorem Aligned.append (aligned : Aligned dim list) (positive : 0 < dim)
    {vectors : List F} (held : list.vectors = some vectors)
    {entry : Entry F} (own : entry.2.length = dim) (longer : InvertedList F)
    (ids : longer.ids = list.ids ++ [entry.1])
    (holds : longer.vectors = some (vectors ++ entry.2)) :
    Aligned dim longer ∧
      entriesOf dim longer = entriesOf dim list ++ [entry] := by
  obtain ⟨same, isSame, length⟩ := aligned
  rw [held] at isSame
  cases isSame
  constructor
  · refine ⟨_, holds, ?_⟩
    rw [ids, List.length_append, List.length_append, length, own,
      List.length_singleton, Nat.succ_mul]
  · unfold entriesOf
    rw [ids, holds, held, Option.getD_some, Option.getD_some,
      rowsOf_append positive length own, List.zip_append]
    · rfl
    · rw [rowsOf_length, length, Nat.mul_div_cancel _ positive]

end

/-- Lists that together hold these vectors. -/
structure Partitions {F : Type} (dim count : Nat)
    (lists : List (InvertedList F)) (stored : List (Entry F)) : Prop where
  length : lists.length = count
  aligned : ∀ list ∈ lists, Aligned dim list
  perm : (lists.flatMap (entriesOf dim)).Perm stored

theorem Partitions.set {F : Type} {dim count place : Nat}
    {lists : List (InvertedList F)} {stored : List (Entry F)}
    (partitions : Partitions dim count lists stored)
    {list longer : InvertedList F} {entry : Entry F}
    (found : lists[place]? = some list) (aligned : Aligned dim longer)
    (appended : entriesOf dim longer = entriesOf dim list ++ [entry]) :
    Partitions dim count (lists.set place longer) (stored ++ [entry]) := by
  obtain ⟨inside, isList⟩ := List.getElem?_eq_some_iff.mp found
  refine ⟨?_, ?_, ?_⟩
  · rw [List.length_set, partitions.length]
  · intro other member
    rcases List.mem_or_eq_of_mem_set member with before | rfl
    · exact partitions.aligned other before
    · exact aligned
  · have split : lists =
        lists.take place ++ list :: lists.drop (place + 1) := by
      rw [← isList, ← List.drop_eq_getElem_cons inside,
        List.take_append_drop]
    have before := partitions.perm
    rw [split, List.flatMap_append, List.flatMap_cons] at before
    rw [List.set_eq_take_append_cons_drop, if_pos inside,
      List.flatMap_append, List.flatMap_cons, appended]
    refine List.Perm.trans ?_ (before.append_right [entry])
    rw [List.append_assoc, List.append_assoc, List.append_assoc]
    exact ((List.perm_append_comm).append_left _).append_left _

/-! ## The index -/

/-- The lists of an index without quantization hold what is stored. -/
structure Holding {F Q : Type} (dim : Nat) (metric : DistanceMetric)
    (config : IvfConfig Q) (index : GpuIvfIndex F Q)
    (stored : List (Entry F)) : Prop where
  isDim : index.dim = dim
  isMetric : index.metric = metric
  isConfig : index.ivfConfig = config
  isFlat : index.quantizer = none
  lists : Partitions dim config.nClusters index.invertedLists stored
  total : index.totalVectors = stored.length

/-- There is a centroid for each list. -/
structure Centered {F Q : Type} (dim : Nat) (config : IvfConfig Q)
    (index : GpuIvfIndex F Q) : Prop where
  trained : index.trained = true
  positive : 0 < dim
  centroids : index.centroids.length = config.nClusters * dim

section

variable {F : Type} [Single F]

/-- The best place is one of the places, or the first one. -/
theorem nearestOf_lt (metric : DistanceMetric) {values : List F} {count : Nat}
    (length : values.length = count) (positive : 0 < count) :
    nearestOf metric values < count := by
  have places : ∀ next ∈ values.zipIdx, next.2 < count := by
    intro next member
    have found := List.mem_zipIdx_iff_getElem?.mp member
    rw [← length]
    exact (List.getElem?_eq_some_iff.mp found).1
  have run : ∀ (rest : List (F × Nat)) (best : F × Nat),
      (∀ next ∈ rest, next.2 < count) → best.2 < count →
        (rest.foldl (nearer metric) best).2 < count := by
    intro rest
    induction rest with
    | nil => exact fun best _ inside => inside
    | cons next others ih =>
        intro best all inside
        refine ih _ (fun other member =>
          all other (List.mem_cons_of_mem next member)) ?_
        have either : nearer metric best next = next ∨
            nearer metric best next = best := ite_eq_or_eq _ _ _
        rcases either with same | same
        · rw [same]
          exact all next List.mem_cons_self
        · rw [same]
          exact inside
  exact run _ _ places positive

variable {Q : Type} {dim : Nat} {metric : DistanceMetric}
  {config : IvfConfig Q} {index : GpuIvfIndex F Q} {stored : List (Entry F)}

namespace Holding

theorem centroidScores_run
    (holding : Holding dim metric config index stored)
    (centered : Centered dim config index) (vector : List F) :
    index.centroidScores vector =
      some ((rowsOf dim index.centroids).map (metric.compute vector)) := by
  have rows : (rowsOf dim index.centroids).length = config.nClusters := by
    rw [rowsOf_length, centered.centroids,
      Nat.mul_div_cancel _ centered.positive]
  unfold GpuIvfIndex.centroidScores
  rw [holding.isConfig, holding.isDim, holding.isMetric]
  apply mapM_of_getElem?
  · rw [List.length_range, List.length_map, rows]
  · intro place i score isPlace found
    obtain ⟨_, same⟩ := List.getElem?_eq_some_iff.mp isPlace
    rw [List.getElem_range] at same
    subst same
    rw [List.getElem?_map] at found
    obtain ⟨row, isRow, rfl⟩ := Option.map_eq_some_iff.mp found
    have among := (List.getElem?_eq_some_iff.mp isRow).1
    rw [rowsOf_length] at among
    rw [getElem?_rowsOf among] at isRow
    have bound : (place + 1) * dim ≤ index.centroids.length :=
      (Nat.mul_le_mul_right dim among).trans (Nat.div_mul_le_self _ dim)
    unfold subslice
    rw [if_pos ⟨Nat.mul_le_mul_right dim (Nat.le_succ place), bound⟩,
      Nat.succ_mul, Nat.add_sub_cancel_left, isRow]
    rfl

theorem findNearestCluster_run
    (holding : Holding dim metric config index stored)
    (centered : Centered dim config index) (vector : List F)
    (clusters : 0 < config.nClusters) :
    ∃ cluster < config.nClusters,
      index.findNearestCluster vector = some cluster := by
  unfold GpuIvfIndex.findNearestCluster
  rw [holding.centroidScores_run centered vector]
  refine ⟨_, nearestOf_lt index.metric ?_ clusters, rfl⟩
  rw [List.length_map, rowsOf_length, centered.centroids,
    Nat.mul_div_cancel _ centered.positive]

variable [Quantizer F Q]

/-- A vector is added to one of the lists. -/
theorem addVector (holding : Holding dim metric config index stored)
    (positive : 0 < dim) {lists longer : List (InvertedList F)}
    {held : List (Entry F)}
    (partitions : Partitions dim config.nClusters lists held)
    {entry : Entry F} (own : entry.2.length = dim)
    (added : index.addVector lists entry = some longer) :
    Partitions dim config.nClusters longer (held ++ [entry]) := by
  obtain ⟨cluster, -, added⟩ := Option.bind_eq_some_iff.mp added
  obtain ⟨list, found, added⟩ := Option.bind_eq_some_iff.mp added
  rw [holding.isFlat] at added
  obtain ⟨vectors, isVectors, added⟩ := Option.bind_eq_some_iff.mp added
  cases added
  obtain ⟨aligned, appended⟩ :=
    (partitions.aligned list (List.mem_of_getElem? found)).append positive
      isVectors own
      { list with
        ids := list.ids ++ [entry.1]
        vectors := some (vectors ++ entry.2) } rfl rfl
  exact partitions.set found aligned appended

theorem addVector_isSome (holding : Holding dim metric config index stored)
    (centered : Centered dim config index)
    (clusters : 0 < config.nClusters) {lists : List (InvertedList F)}
    {held : List (Entry F)}
    (partitions : Partitions dim config.nClusters lists held)
    (entry : Entry F) : (index.addVector lists entry).isSome = true := by
  obtain ⟨cluster, inside, nearest⟩ :=
    holding.findNearestCluster_run centered entry.2 clusters
  have found := List.getElem?_eq_getElem (partitions.length.symm ▸ inside)
  obtain ⟨vectors, isVectors, -⟩ :=
    partitions.aligned _ (List.mem_of_getElem? found)
  unfold GpuIvfIndex.addVector
  rw [nearest, Option.bind_eq_bind, Option.bind_some, found,
    Option.bind_eq_bind, Option.bind_some, holding.isFlat]
  dsimp only
  rw [isVectors]
  rfl

end Holding

end

end RedVector.Gpu
