import RedVector.Gpu.FlatRuns
import RedVector.Gpu.Partition

/-!
# Searches of all lists

An index that looks at all its lists finds what the flat index finds: every
list is ranked and cut before the lists are ranked together, which loses
nothing.
-/

namespace RedVector.Gpu

open Util

inductive IvfOperation (F : Type) where
  | train (trainingData : List F)
  | add (ids : List UInt64) (vectors : List F)
  | remove (ids : List UInt64)
  | clear

/-- What is stored after an operation of a trained index. -/
def IvfOperation.storedAfter {F : Type} (dim : Nat) (stored : List (Entry F)) :
    IvfOperation F → List (Entry F)
  | add ids vectors =>
      if ids.length = vectors.length / dim then
        stored ++ added dim ids vectors
      else stored
  | clear => []
  | train _ | remove _ => stored

section

variable {F Q : Type} [Single F] [Quantizer F Q]

namespace GpuIvfIndex

def perform [Platform] (index : GpuIvfIndex F Q) :
    IvfOperation F → Option (GpuIvfIndex F Q)
  | .train trainingData => (index.train trainingData).map Prod.snd
  | .add ids vectors => (index.add ids vectors).map Prod.snd
  | .remove ids => some (index.remove ids).2
  | .clear => some index.clear.2

/-- The lists hold each stored vector once, and a search finds the scores of
the ranking of all of them, which is what a flat index finds. -/
structure Exact [Platform] (index : GpuIvfIndex F Q)
    (stored : List (Entry F)) : Prop where
  total : index.totalVectors = stored.length
  aligned : ∀ list ∈ index.invertedLists, Aligned index.dim list
  partition :
    (index.invertedLists.flatMap (entriesOf index.dim)).Perm stored
  adds : 0 < index.ivfConfig.nClusters → ∀ ids vectors,
    (index.add ids vectors).isSome = true
  finds : ∀ query : List F, query.length = index.dim →
    Numbers index.metric query (rowsOf index.dim index.centroids) →
    Numbers index.metric query (stored.map Prod.snd) →
    ∀ k, ∃ results, index.search query k = some (.ok results) ∧
      List.Forall₂ (fun a b => Single.eq a b = true)
        (results.map SearchResult.score)
        (((ranking index.metric query stored).take k).map
          SearchResult.score)
  flat : ∀ config fresh flat,
    GpuFlatIndex.new index.dim index.metric config = some fresh →
    fresh.add (stored.map Prod.fst) (stored.flatMap Prod.snd) =
      some (.ok (), flat) →
    ∀ query : List F, Numbers index.metric query (stored.map Prod.snd) →
      ∀ k, flat.searchCpu query k =
        some (.ok ((ranking index.metric query stored).take k))

/-- The vectors of the list at a place. -/
def part (dim : Nat) (index : GpuIvfIndex F Q) (place : Nat) :
    List (Entry F) :=
  (index.invertedLists[place]?.map (entriesOf dim)).getD []

end GpuIvfIndex

variable {dim : Nat} {metric : DistanceMetric} {config : IvfConfig Q}
  {index after : GpuIvfIndex F Q} {stored : List (Entry F)}

namespace Holding

/-! ## Runs -/

theorem addVectors (holding : Holding dim metric config index stored)
    (positive : 0 < dim) {entries : List (Entry F)}
    (wide : ∀ entry ∈ entries, entry.2.length = dim)
    {lists longer : List (InvertedList F)} {held : List (Entry F)}
    (partitions : Partitions dim config.nClusters lists held)
    (added : entries.foldlM index.addVector lists = some longer) :
    Partitions dim config.nClusters longer (held ++ entries) := by
  induction entries generalizing lists held with
  | nil =>
      cases added
      rw [List.append_nil]
      exact partitions
  | cons entry rest ih =>
      rw [List.foldlM_cons] at added
      obtain ⟨next, first, others⟩ := Option.bind_eq_some_iff.mp added
      have own := wide entry List.mem_cons_self
      have result := ih
        (fun other member => wide other (List.mem_cons_of_mem _ member))
        (holding.addVector positive partitions own first) others
      rw [List.append_assoc] at result
      exact result

theorem addVectors_isSome (holding : Holding dim metric config index stored)
    (centered : Centered dim config index)
    (clusters : 0 < config.nClusters) {entries : List (Entry F)}
    (wide : ∀ entry ∈ entries, entry.2.length = dim)
    {lists : List (InvertedList F)} {held : List (Entry F)}
    (partitions : Partitions dim config.nClusters lists held) :
    (entries.foldlM index.addVector lists).isSome = true := by
  induction entries generalizing lists held with
  | nil => rfl
  | cons entry rest ih =>
      obtain ⟨next, first⟩ := Option.isSome_iff_exists.mp
        (holding.addVector_isSome centered clusters partitions entry)
      have own := wide entry List.mem_cons_self
      rw [List.foldlM_cons, first]
      exact ih
        (fun other member => wide other (List.mem_cons_of_mem _ member))
        (holding.addVector centered.positive partitions own first)

theorem add_isSome (holding : Holding dim metric config index stored)
    (centered : Centered dim config index)
    (clusters : 0 < config.nClusters) (ids : List UInt64)
    (vectors : List F) : (index.add ids vectors).isSome = true := by
  have wide : ∀ entry ∈ Gpu.added dim ids vectors, entry.2.length = dim :=
    added_wide
  have runs := holding.addVectors_isSome centered clusters wide holding.lists
  obtain ⟨lists, added⟩ := Option.isSome_iff_exists.mp runs
  unfold GpuIvfIndex.add
  rw [if_neg (by simp [centered.trained]),
    if_neg (by rw [holding.isDim]; exact centered.positive.ne')]
  split
  · rfl
  · unfold Gpu.added at added
    rw [holding.isDim, added]
    rfl

theorem step [Platform] (holding : Holding dim metric config index stored)
    (centered : Centered dim config index) {operation : IvfOperation F}
    (performed : index.perform operation = some after) :
    Holding dim metric config after (operation.storedAfter dim stored) ∧
      Centered dim config after := by
  cases operation with
  | train trainingData =>
      obtain ⟨reply, trains, rfl⟩ := Option.map_eq_some_iff.mp performed
      unfold GpuIvfIndex.train at trains
      rw [if_neg (by rw [holding.isDim]; exact centered.positive.ne')]
        at trains
      split at trains
      · cases trains
        exact ⟨holding, centered⟩
      · obtain ⟨centroids, moves, trains⟩ :=
          Option.bind_eq_some_iff.mp trains
        rw [holding.isFlat] at trains
        cases trains
        have length := kmeansTrain_length moves
        rw [holding.isConfig, holding.isDim] at length
        exact ⟨⟨holding.isDim, holding.isMetric, holding.isConfig, rfl,
          holding.lists, holding.total⟩, rfl, centered.positive, length⟩
  | add ids vectors =>
      obtain ⟨reply, adds, rfl⟩ := Option.map_eq_some_iff.mp performed
      unfold GpuIvfIndex.add at adds
      rw [if_neg (by simp [centered.trained]), holding.isDim,
        if_neg centered.positive.ne'] at adds
      split at adds
      · rename_i misfits
        cases adds
        rw [IvfOperation.storedAfter, if_neg misfits]
        exact ⟨holding, centered⟩
      · rename_i fits
        rw [not_not] at fits
        obtain ⟨lists, pushed, adds⟩ := Option.bind_eq_some_iff.mp adds
        cases adds
        rw [IvfOperation.storedAfter, if_pos fits]
        refine ⟨⟨rfl, holding.isMetric, holding.isConfig, holding.isFlat, ?_,
          ?_⟩, centered.trained, centered.positive, centered.centroids⟩
        · exact holding.addVectors centered.positive added_wide holding.lists
            pushed
        · dsimp only
          unfold added
          rw [holding.total, List.length_append, List.length_zip,
            rowsOf_length, fits, Nat.min_self]
  | remove ids =>
      cases performed
      exact ⟨holding, centered⟩
  | clear =>
      cases performed
      refine ⟨⟨holding.isDim, holding.isMetric, holding.isConfig,
        holding.isFlat, ⟨?_, ?_, ?_⟩, rfl⟩, centered.trained,
          centered.positive, centered.centroids⟩
      · exact (List.length_map _).trans holding.lists.length
      · intro list member
        obtain ⟨before, isBefore, rfl⟩ := List.mem_map.mp member
        obtain ⟨vectors, held, -⟩ := holding.lists.aligned before isBefore
        refine ⟨[], ?_, (Nat.zero_mul dim).symm⟩
        show before.vectors.map _ = _
        rw [held]
        rfl
      · refine List.perm_nil.mpr (List.flatMap_eq_nil_iff.mpr ?_)
        intro list member
        obtain ⟨before, -, rfl⟩ := List.mem_map.mp member
        exact List.zip_nil_left

theorem run [Platform] (holding : Holding dim metric config index stored)
    (centered : Centered dim config index)
    {operations : List (IvfOperation F)}
    (runs : operations.foldlM GpuIvfIndex.perform index = some after) :
    Holding dim metric config after
        (operations.foldl (IvfOperation.storedAfter dim) stored) ∧
      Centered dim config after := by
  induction operations generalizing index stored with
  | nil =>
      cases runs
      exact ⟨holding, centered⟩
  | cons operation rest ih =>
      rw [List.foldlM_cons] at runs
      obtain ⟨next, first, others⟩ := Option.bind_eq_some_iff.mp runs
      obtain ⟨holds, centers⟩ := holding.step centered first
      exact ih holds centers others

/-! ## Searches -/

theorem listScores_run (holding : Holding dim metric config index stored)
    (positive : 0 < dim) {list : InvertedList F}
    (member : list ∈ index.invertedLists) (query : List F) :
    index.listScores list query =
      some ((entriesOf dim list).map fun entry =>
        metric.compute query entry.2) := by
  have aligned := holding.lists.aligned list member
  obtain ⟨vectors, held, -⟩ := aligned
  have length := (holding.lists.aligned list member).entries_length positive
  unfold GpuIvfIndex.listScores
  rw [holding.isFlat]
  dsimp only
  rw [held, Option.bind_eq_bind, Option.bind_some]
  apply mapM_of_getElem?
  · rw [List.length_range, List.length_map, length]
  · intro place i score isPlace found
    obtain ⟨_, same⟩ := List.getElem?_eq_some_iff.mp isPlace
    rw [List.getElem_range] at same
    subst same
    rw [List.getElem?_map] at found
    obtain ⟨entry, isEntry, rfl⟩ := Option.map_eq_some_iff.mp found
    obtain ⟨-, own, isOwn, taken⟩ :=
      (holding.lists.aligned list member).entry_at isEntry
    rw [held] at isOwn
    cases isOwn
    rw [holding.isDim, taken, holding.isMetric]
    rfl

omit [Quantizer F Q] in
/-- The scores of a list get its ids. -/
theorem results_run (holding : Holding dim metric config index stored)
    {list : InvertedList F} (member : list ∈ index.invertedLists)
    (query : List F) :
    (((entriesOf dim list).map fun entry =>
      metric.compute query entry.2).zipIdx.mapM fun (score, i) => do
        let id ← list.ids[i]?
        pure ({ id := id, score := score } : SearchResult F)) =
      some ((entriesOf dim list).map (resultOf metric query)) := by
  apply mapM_of_getElem?
  · rw [List.length_zipIdx, List.length_map, List.length_map]
  · rintro i ⟨score, j⟩ result isScore isResult
    rw [List.getElem?_zipIdx, Nat.zero_add] at isScore
    obtain ⟨score, isScore, same⟩ := Option.map_eq_some_iff.mp isScore
    cases same
    rw [List.getElem?_map] at isScore isResult
    obtain ⟨entry, isEntry, rfl⟩ := Option.map_eq_some_iff.mp isResult
    rw [isEntry] at isScore
    cases isScore
    have isId := ((holding.lists.aligned list member).entry_at isEntry).1
    dsimp only
    rw [isId]
    rfl

/-- A list is ranked and cut. -/
theorem searchCluster_run (holding : Holding dim metric config index stored)
    (positive : 0 < dim) {place : Nat} {list : InvertedList F}
    (found : index.invertedLists[place]? = some list) {query : List F}
    (numbers : Numbers metric query ((entriesOf dim list).map Prod.snd))
    (k : Nat) :
    index.searchCluster place query k =
      some ((ranking metric query (entriesOf dim list)).take k) := by
  have member := List.mem_of_getElem? found
  have length := (holding.lists.aligned list member).entries_length positive
  unfold GpuIvfIndex.searchCluster
  rw [found, Option.bind_eq_bind, Option.bind_some]
  split
  · rename_i empty
    rw [empty] at length
    rw [List.eq_nil_of_length_eq_zero length]
    have nothing : ranking metric query ([] : List (Entry F)) = [] :=
      List.mergeSort_nil
    rw [nothing, List.take_nil]
    rfl
  · have scores : ∀ result ∈ (entriesOf dim list).map (resultOf metric query),
        Single.isNan (SearchResult.score result) = false := by
      intro result isResult
      obtain ⟨entry, isEntry, rfl⟩ := List.mem_map.mp isResult
      exact numbers entry.2 (List.mem_map_of_mem isEntry)
    rw [holding.listScores_run positive member, Option.bind_eq_bind,
      Option.bind_some, holding.results_run member, Option.bind_eq_bind,
      Option.bind_some,
      holding.isMetric, DistanceMetric.sortBy_run scores]
    rfl

omit [Quantizer F Q] in
/-- The scores of the clusters with their places. -/
def placesOf (scores : List F) : List (Nat × F) :=
  scores.zipIdx.map fun (dist, i) => (i, dist)

/-- All lists are looked at. -/
theorem findNearestClusters_run
    (holding : Holding dim metric config index stored)
    (centered : Centered dim config index) {query : List F}
    (numbers : Numbers metric query (rowsOf dim index.centroids)) {k : Nat}
    (probes : config.nClusters ≤ k) :
    ∃ clusters, index.findNearestClusters query k = some clusters ∧
      (clusters.map Prod.fst).Perm (List.range config.nClusters) := by
  let scores := (rowsOf dim index.centroids).map (metric.compute query)
  have length : scores.length = config.nClusters := by
    rw [List.length_map, rowsOf_length, centered.centroids,
      Nat.mul_div_cancel _ centered.positive]
  have areNumbers : ∀ place ∈ placesOf scores,
      Single.isNan place.2 = false := by
    intro place member
    obtain ⟨pair, isPair, rfl⟩ := List.mem_map.mp member
    have isScore := List.fst_mem_of_mem_zipIdx isPair
    obtain ⟨row, isRow, same⟩ := List.mem_map.mp isScore
    show Single.isNan pair.1 = false
    rw [← same]
    exact numbers row isRow
  have firsts : (placesOf scores).map Prod.fst =
      List.range config.nClusters := by
    unfold placesOf
    rw [List.map_map, ← length, List.range_eq_range']
    exact List.zipIdx_map_snd 0 scores
  unfold GpuIvfIndex.findNearestClusters
  rw [holding.centroidScores_run centered, Option.bind_eq_bind,
    Option.bind_some, holding.isMetric]
  change ∃ clusters, (metric.sortBy Prod.snd (placesOf scores) >>=
    fun sorted => pure (sorted.take k)) = some clusters ∧ _
  rw [DistanceMetric.sortBy_run areNumbers]
  refine ⟨_, rfl, ?_⟩
  have most : ((placesOf scores).mergeSort fun a b =>
      metric.notBehind a.2 b.2).length ≤ k := by
    unfold placesOf
    rw [List.length_mergeSort, List.length_map, List.length_zipIdx, length]
    exact probes
  rw [List.take_of_length_le most, ← firsts]
  exact (List.mergeSort_perm _ _).map Prod.fst

omit [Quantizer F Q] in
/-- The results of the lists, in any order of the lists, are those of all
vectors. -/
theorem results_perm (holding : Holding dim metric config index stored)
    (query : List F) {places : List Nat}
    (all : places.Perm (List.range config.nClusters)) :
    (places.map fun place =>
      (index.part dim place).map (resultOf metric query)).flatten.Perm
        (stored.map (resultOf metric query)) := by
  have inOrder : (List.range config.nClusters).map (index.part dim) =
      index.invertedLists.map (entriesOf dim) := by
    apply List.ext_getElem?
    intro place
    rw [List.getElem?_map, List.getElem?_map, ← holding.lists.length]
    by_cases inside : place < index.invertedLists.length
    · rw [List.getElem?_range inside, Option.map_some]
      unfold GpuIvfIndex.part
      rw [List.getElem?_eq_getElem inside]
      rfl
    · rw [List.getElem?_eq_none (by rwa [List.length_range, ← not_lt]),
        List.getElem?_eq_none (not_lt.mp inside)]
      rfl
  have entries : (places.map (index.part dim)).flatten.Perm stored := by
    refine ((all.map (index.part dim)).flatten).trans ?_
    rw [inOrder, ← List.flatMap_def]
    exact holding.lists.perm
  have mapped := entries.map (resultOf metric query)
  rw [List.map_flatten, List.map_map] at mapped
  exact mapped

omit [Quantizer F Q] in
/-- Tied results have equal scores. -/
theorem equal_scores {results exact : List (SearchResult F)}
    (numbers : ∀ result ∈ results, Single.isNan result.score = false)
    (exactNumbers : ∀ result ∈ exact, Single.isNan result.score = false)
    (tied : List.Forall₂ (Tied fun a b : SearchResult F =>
      metric.notBehind a.score b.score) results exact) :
    List.Forall₂ (fun a b => Single.eq a b = true)
      (results.map SearchResult.score) (exact.map SearchResult.score) := by
  rw [List.forall₂_map_left_iff, List.forall₂_map_right_iff]
  refine List.forall₂_iff_zip.mpr ⟨tied.length_eq, ?_⟩
  intro a b pair
  obtain ⟨inResults, inExact⟩ := List.of_mem_zip pair
  obtain ⟨forth, back⟩ := List.forall₂_zip tied pair
  exact DistanceMetric.eq_of_tied (numbers a inResults)
    (exactNumbers b inExact) forth back

/-- Each of the lists that are looked at is ranked. -/
theorem clusters_searched (holding : Holding dim metric config index stored)
    (positive : 0 < dim) {query : List F} {clusters : List (Nat × F)}
    (all : (clusters.map Prod.fst).Perm (List.range config.nClusters))
    (numbers : ∀ place ∈ clusters.map Prod.fst,
      Numbers metric query ((index.part dim place).map Prod.snd)) (k : Nat) :
    (clusters.mapM fun (place, _) => index.searchCluster place query k) =
      some (clusters.map fun cluster =>
        (ranking metric query (index.part dim cluster.1)).take k) := by
  apply mapM_of_forall
  intro cluster member
  have isPlace : cluster.1 ∈ clusters.map Prod.fst :=
    List.mem_map_of_mem member
  have inside := List.mem_range.mp (all.mem_iff.mp isPlace)
  obtain ⟨list, found⟩ :
      ∃ list, index.invertedLists[cluster.1]? = some list :=
    ⟨_, List.getElem?_eq_getElem (holding.lists.length.symm ▸ inside)⟩
  have isPart : index.part dim cluster.1 = entriesOf dim list := by
    unfold GpuIvfIndex.part
    rw [found]
    rfl
  rw [isPart]
  refine holding.searchCluster_run positive found ?_ k
  rw [← isPart]
  exact numbers cluster.1 isPlace

/-- A search of all lists finds the first scores. -/
theorem search_run (holding : Holding dim metric config index stored)
    (centered : Centered dim config index)
    (probes : config.nClusters ≤ config.nProbe) {query : List F}
    (fits : query.length = dim)
    (numbers : Numbers metric query (rowsOf dim index.centroids))
    (scores : Numbers metric query (stored.map Prod.snd)) (k : Nat) :
    ∃ results, index.search query k = some (.ok results) ∧
      List.Forall₂ (fun a b => Single.eq a b = true)
        (results.map SearchResult.score)
        (((ranking metric query stored).take k).map
          SearchResult.score) := by
  obtain ⟨clusters, nearest, all⟩ :=
    holding.findNearestClusters_run centered numbers probes
  let parts := (clusters.map Prod.fst).map fun place =>
    (index.part dim place).map (resultOf metric query)
  have same : parts.flatten.Perm (stored.map (resultOf metric query)) :=
    holding.results_perm query all
  have areNumbers : ∀ result ∈ parts.flatten,
      Single.isNan result.score = false := by
    intro result member
    obtain ⟨entry, isStored, rfl⟩ :=
      List.mem_map.mp (same.mem_iff.mp member)
    exact scores entry.2 (List.mem_map_of_mem isStored)
  have searched := holding.clusters_searched centered.positive all
    (fun place isPlace vector isVector => by
      obtain ⟨entry, isEntry, rfl⟩ := List.mem_map.mp isVector
      exact areNumbers (resultOf metric query entry)
        (List.mem_flatten.mpr ⟨_, List.mem_map_of_mem isPlace,
          List.mem_map_of_mem isEntry⟩)) k
  have found : (clusters.map fun cluster =>
      (ranking metric query (index.part dim cluster.1)).take k).flatten =
        parts.flatMap fun part => (part.mergeSort fun a b =>
          metric.notBehind a.score b.score).take k := by
    rw [List.flatMap_def, List.map_map, List.map_map]
    rfl
  have cut : ∀ result ∈ parts.flatMap (fun part => (part.mergeSort fun a b =>
      metric.notBehind a.score b.score).take k),
        Single.isNan result.score = false := by
    intro result member
    obtain ⟨part, isPart, among⟩ := List.mem_flatMap.mp member
    exact areNumbers result (List.mem_flatten.mpr ⟨part, isPart,
      List.mem_mergeSort.mp (List.mem_of_mem_take among)⟩)
  have tied := (results_ranks scores).merged_take same k
  refine ⟨_, ?_, equal_scores ?_ ?_ tied⟩
  rotate_left
  · exact fun result member =>
      cut result (List.mem_mergeSort.mp (List.mem_of_mem_take member))
  · exact fun result member => areNumbers result (same.mem_iff.mpr
      (List.mem_mergeSort.mp (List.mem_of_mem_take member)))
  unfold GpuIvfIndex.search
  rw [if_neg (by simp [centered.trained]), holding.isDim,
    if_neg (not_not.mpr fits), holding.isConfig, nearest,
    Option.bind_eq_bind, Option.bind_some, searched, Option.bind_eq_bind,
    Option.bind_some, found, holding.isMetric, DistanceMetric.sortBy_run cut]
  rfl

omit [Single F] [Quantizer F Q] in
theorem wide (holding : Holding dim metric config index stored) :
    ∀ entry ∈ stored, entry.2.length = dim := by
  intro entry member
  obtain ⟨list, -, among⟩ :=
    List.mem_flatMap.mp (holding.lists.perm.mem_iff.mpr member)
  exact length_of_mem_rowsOf (List.of_mem_zip among).2

omit [Quantizer F Q] in
/-- A flat index to which all vectors were added stores them. -/
theorem flat_stores [Platform]
    (holding : Holding dim metric config index stored)
    (centered : Centered dim config index) {flatConfig : GpuConfig}
    {fresh flat : GpuFlatIndex F}
    (created : GpuFlatIndex.new dim metric flatConfig = some fresh)
    (adds : fresh.add (stored.map Prod.fst) (stored.flatMap Prod.snd) =
      some (.ok (), flat)) :
    Stores dim fresh.vectors.stride metric flat stored := by
  have empty := stores_new created
  have rows : rowsOf dim (stored.flatMap Prod.snd) = stored.map Prod.snd :=
    rowsOf_flatMap centered.positive holding.wide
  have length : (stored.flatMap Prod.snd).length = stored.length * dim :=
    length_rows holding.wide
  have sized : Sized dim (stored.map Prod.fst) (stored.flatMap Prod.snd) := by
    unfold Sized
    rw [length, List.length_map, Nat.mul_div_cancel _ centered.positive]
    exact ⟨Nat.mul_mod_left _ _, rfl⟩
  have entries : added dim (stored.map Prod.fst)
      (stored.flatMap Prod.snd) = stored := by
    unfold added
    rw [rows]
    exact (List.zip_of_prod rfl rfl).symm
  rw [add_accepted empty.isDim centered.positive.ne' sized, entries] at adds
  obtain ⟨last, pushed, same⟩ := Option.map_eq_some_iff.mp adds
  cases same
  exact empty.pushes centered.positive.ne' holding.wide pushed

/-- Every state of a trained index is exact. -/
theorem exact [Platform] (holding : Holding dim metric config index stored)
    (centered : Centered dim config index)
    (probes : config.nClusters ≤ config.nProbe) : index.Exact stored where
  total := holding.total
  aligned := by
    rw [holding.isDim]
    exact holding.lists.aligned
  partition := by
    rw [holding.isDim]
    exact holding.lists.perm
  adds clusters := by
    rw [holding.isConfig] at clusters
    exact holding.add_isSome centered clusters
  finds query fits numbers scores k := by
    rw [holding.isDim] at fits numbers
    rw [holding.isMetric] at numbers scores ⊢
    exact holding.search_run centered probes fits numbers scores k
  flat flatConfig fresh flat created stores query scores k := by
    rw [holding.isDim] at created
    rw [holding.isMetric] at created scores ⊢
    exact (holding.flat_stores centered created stores).searchCpu_run scores k

end Holding

/-! ## Trained indexes -/

omit [Single F] [Quantizer F Q] in
theorem holding_new (dim : Nat) (metric : DistanceMetric)
    {config : IvfConfig Q} (isFlat : config.quantizer = none) :
    Holding dim metric config
      (GpuIvfIndex.new dim metric config : GpuIvfIndex F Q) [] := by
  have fresh : ∀ list ∈ (GpuIvfIndex.new dim metric config :
      GpuIvfIndex F Q).invertedLists, list = .new true := by
    intro list member
    have same := List.eq_of_mem_replicate member
    rwa [isFlat] at same
  refine ⟨rfl, rfl, rfl, isFlat, ⟨List.length_replicate, ?_, ?_⟩, rfl⟩
  · intro list member
    rw [fresh list member]
    exact ⟨[], rfl, (Nat.zero_mul dim).symm⟩
  · refine List.perm_nil.mpr (List.flatMap_eq_nil_iff.mpr ?_)
    intro list member
    rw [fresh list member]
    rfl

/-- The first training of an index. -/
theorem trained_new [Platform] (isFlat : config.quantizer = none)
    {trainingData : List F}
    (trains : (GpuIvfIndex.new dim metric config : GpuIvfIndex F Q).train
      trainingData = some (.ok (), after)) :
    Holding dim metric config after [] ∧ Centered dim config after := by
  have holding : Holding dim metric config
      (GpuIvfIndex.new dim metric config : GpuIvfIndex F Q) [] :=
    holding_new dim metric isFlat
  unfold GpuIvfIndex.train at trains
  split at trains
  · cases trains
  · rename_i positive
    split at trains
    · cases trains
    · obtain ⟨centroids, moves, trains⟩ := Option.bind_eq_some_iff.mp trains
      rw [holding.isFlat] at trains
      cases trains
      exact ⟨⟨rfl, rfl, rfl, rfl, holding.lists, rfl⟩, rfl,
        Nat.pos_of_ne_zero positive, kmeansTrain_length moves⟩

/-- In every run of a trained index that looks at all its lists, a search finds
what the flat index finds. -/
theorem GpuIvfIndex.full_probe_exact [Platform]
    (isFlat : config.quantizer = none)
    (probes : config.nClusters ≤ config.nProbe) {trainingData : List F}
    {trained : GpuIvfIndex F Q}
    (trains : (new dim metric config : GpuIvfIndex F Q).train trainingData =
      some (.ok (), trained))
    (operations : List (IvfOperation F))
    (runs : operations.foldlM perform trained = some after) :
    after.Exact (operations.foldl (IvfOperation.storedAfter dim) []) := by
  obtain ⟨holding, centered⟩ := trained_new isFlat trains
  obtain ⟨holds, centers⟩ := holding.run centered runs
  exact holds.exact centers probes

end

section

attribute [local instance] Platform.integral Single.exact

/-- No quantizer at all. -/
local instance : Quantizer ExactFloat Empty where
  train := nofun
  encode := nofun
  scores := nofun

/-- Two clusters, both of which are looked at. -/
def twoClusters : IvfConfig Empty :=
  { nClusters := 2, nProbe := 2, quantizer := none, trainingIterations := 1 }

def trainedClusters : GpuIvfIndex ExactFloat Empty :=
  { GpuIvfIndex.new 1 .innerProduct twoClusters with
    centroids := [.number (-10), .number 10]
    trained := true }

theorem trainedClusters_trained :
    (GpuIvfIndex.new 1 .innerProduct twoClusters :
      GpuIvfIndex ExactFloat Empty).train [.number (-10), .number 10] =
        some (.ok (), trainedClusters) :=
  rfl

/-- Three numbers replace two others. -/
def replacements : List (IvfOperation ExactFloat) :=
  [.add [1, 2] [.number 3, .number (-9)], .clear,
    .add [4, 5, 6] [.number 8, .number (-1), .number (-2)]]

/-- The lists of the negative and the positive numbers. -/
def replacedClusters : GpuIvfIndex ExactFloat Empty :=
  { trainedClusters with
    invertedLists :=
      [{ ids := [5, 6]
         codes := []
         vectors := some [.number (-1), .number (-2)] },
        { ids := [4], codes := [], vectors := some [.number 8] }]
    totalVectors := 3 }

theorem replacedClusters_exact :
    replacedClusters.Exact
      [(4, [.number 8]), (5, [.number (-1)]), (6, [.number (-2)])] :=
  GpuIvfIndex.full_probe_exact rfl (Nat.le_refl 2) trainedClusters_trained
    replacements rfl

end

end RedVector.Gpu
