import RedVector.Quantization.PqShapes

/-!
# The nearest centroids

The scans find the first nearest centroid, and its place is then narrowed to a
byte.  The codes are right exactly if one of the places of a byte is that of a
nearest centroid.
-/

namespace RedVector.Quantization

open Kernels Util

/-- The part of a vector in a subspace. -/
def partOf (width : Nat) (v : List ℚ) (sub : Nat) : List ℚ :=
  (v.drop (sub * width)).take width

/-- The distances of the part of a vector from the centroids of a subspace. -/
def distancesOf (distance : List ℚ → List ℚ → ℚ) (codebook : Codebook)
    (width : Nat) (v : List ℚ) (sub : Nat) : List ℚ :=
  codebook.map (distance (partOf width v sub))

/-- Every code is the place of a nearest centroid of its subspace. -/
def NearestCodes (distance : List ℚ → List ℚ → ℚ) (codebooks : List Codebook)
    (width : Nat) (v : List ℚ) (codes : Bytes) : Prop :=
  codes.length = codebooks.length ∧
    ∀ (sub : Nat) codebook code, codebooks[sub]? = some codebook →
      codes[sub]? = some code →
        Nearest (distancesOf distance codebook width v sub) code.toNat

/-- The centroids that codes are the places of. -/
def Selects (codebooks : List Codebook) (codes : Bytes)
    (centroids : List (List ℚ)) : Prop :=
  centroids.length = codes.length ∧
    ∀ (sub : Nat) codebook (code : UInt8), codebooks[sub]? = some codebook →
      codes[sub]? = some code → centroids[sub]? = codebook[code.toNat]?

/-- One of the first 256 centroids of every subspace is nearest. -/
def NearestInByte (distance : List ℚ → List ℚ → ℚ)
    (codebooks : List Codebook) (width : Nat) (v : List ℚ) : Prop :=
  ∀ (sub : Nat) codebook, codebooks[sub]? = some codebook →
    ∃ place < 256, Nearest (distancesOf distance codebook width v sub) place

/-- The scan begins at a distance that a centroid is below, or the first
centroid is nearest. -/
def NearestInRange (distance : List ℚ → List ℚ → ℚ)
    (codebooks : List Codebook) (width : Nat) (v : List ℚ) : Prop :=
  ∀ (sub : Nat) codebook, codebooks[sub]? = some codebook →
    (∃ d ∈ distancesOf distance codebook width v sub, d < f32Max) ∨
      Nearest (distancesOf distance codebook width v sub) 0

section

variable {distance : List ℚ → List ℚ → ℚ} {codebooks : List Codebook}
  {width : Nat} {v : List ℚ}

theorem nearestCodes_iff (place : Nat → Nat) :
    NearestCodes distance codebooks width v
        ((List.range codebooks.length).map fun sub => .ofNat (place sub)) ↔
      ∀ (sub : Nat) codebook, codebooks[sub]? = some codebook →
        Nearest (distancesOf distance codebook width v sub)
          (place sub % 256) := by
  have code : ∀ (sub : Nat) codebook, codebooks[sub]? = some codebook →
      ((List.range codebooks.length).map fun sub =>
        UInt8.ofNat (place sub))[sub]? = some (.ofNat (place sub)) := by
    intro sub codebook found
    rw [List.getElem?_map,
      List.getElem?_range (List.getElem?_eq_some_iff.mp found).1]
    rfl
  constructor
  · rintro ⟨-, nearest⟩ sub codebook found
    have own := nearest sub codebook _ found (code sub codebook found)
    rwa [UInt8.toNat_ofNat'] at own
  · intro nearest
    refine ⟨by rw [List.length_map, List.length_range], ?_⟩
    intro sub codebook number found coded
    rw [code sub codebook found] at coded
    cases coded
    rw [UInt8.toNat_ofNat']
    exact nearest sub codebook found

theorem part_run {start : Nat} (inside : start + width ≤ v.length) :
    subvector v start (start + width) = some ((v.drop start).take width) := by
  unfold subvector
  rw [if_pos ⟨Nat.le_add_right _ _, inside⟩, Nat.add_sub_cancel_left]

theorem part_inside {subspaces sub : Nat} (sized : v.length = subspaces * width)
    (among : sub < subspaces) : sub * width + width ≤ v.length := by
  have rows := Nat.mul_le_mul_right width (Nat.succ_le_of_lt among)
  rw [Nat.succ_mul] at rows
  omega

theorem partOf_length {subspaces sub : Nat}
    (sized : v.length = subspaces * width) (among : sub < subspaces) :
    (partOf width v sub).length = width := by
  have inside := part_inside sized among
  unfold partOf
  rw [List.length_take, List.length_drop]
  omega

end

/-! ## The first implementation -/

/-- Whatever the target, the distance is the scalar one. -/
theorem euclideanDistanceSimd_run (target : Target) (sqrt : ℚ → ℚ)
    {a b : List ℚ} (same : a.length = b.length) :
    euclideanDistanceSimd target sqrt a b =
      some (euclideanDistanceScalarFallback sqrt a b) := by
  have kernel : ∀ isa, (euclideanDistanceWith isa sqrt a b .none).map
      Prod.fst = some (euclideanDistanceScalarFallback sqrt a b) := by
    intro isa
    rw [euclideanDistanceWith_run isa sqrt same]
    rfl
  unfold euclideanDistanceSimd Target.dispatch
  rw [if_neg (not_not.mpr same)]
  cases target with
  | x86 avx512f avx2 sse41 =>
      cases avx512f with
      | true => exact kernel .avx512
      | false =>
          cases avx2 with
          | true => exact kernel .avx2
          | false =>
              cases sse41 with
              | true => exact kernel .sse
              | false => rfl
  | aarch64 => exact kernel .neon
  | other => rfl

namespace ProductQuantizer

variable {target : Target} {sqrt : ℚ → ℚ} {pq : ProductQuantizer}
  {v : List ℚ} (shaped : Shaped pq.codebooks pq.numSubspaces pq.subspaceDim)
  (sized : v.length = pq.numSubspaces * pq.subspaceDim)

include shaped sized

theorem centroidDistances_run {sub : Nat} {codebook : Codebook}
    (found : pq.codebooks[sub]? = some codebook) :
    pq.part v sub = some (partOf pq.subspaceDim v sub) ∧
      (∀ centroid ∈ codebook,
        euclideanDistanceSimd target sqrt (partOf pq.subspaceDim v sub)
            centroid =
          some (euclideanDistanceScalarFallback sqrt
            (partOf pq.subspaceDim v sub) centroid)) ∧
        pq.centroidDistances target sqrt v sub =
          some (distancesOf (euclideanDistanceScalarFallback sqrt) codebook
            pq.subspaceDim v sub) := by
  have among : sub < pq.numSubspaces := by
    rw [← shaped.length]
    exact (List.getElem?_eq_some_iff.mp found).1
  have taken : pq.part v sub = some (partOf pq.subspaceDim v sub) :=
    part_run (part_inside sized among)
  have distances : ∀ centroid ∈ codebook,
      euclideanDistanceSimd target sqrt (partOf pq.subspaceDim v sub)
          centroid =
        some (euclideanDistanceScalarFallback sqrt
          (partOf pq.subspaceDim v sub) centroid) := by
    intro centroid member
    apply euclideanDistanceSimd_run
    rw [partOf_length sized among,
      shaped.wide codebook (List.mem_of_getElem? found) centroid member]
  refine ⟨taken, distances, ?_⟩
  unfold centroidDistances
  rw [taken, found]
  exact mapM_of_forall distances

theorem encode_run :
    pq.encode target sqrt v = some ((List.range pq.codebooks.length).map
      fun sub => .ofNat (argmin f32Max (distancesOf
        (euclideanDistanceScalarFallback sqrt)
        ((pq.codebooks[sub]?).getD []) pq.subspaceDim v sub))) := by
  unfold encode
  rw [← shaped.length]
  apply mapM_of_forall
  intro sub member
  have found := List.getElem?_eq_getElem (List.mem_range.mp member)
  rw [(centroidDistances_run shaped sized found).2.2, found]
  rfl

/-- A row of the table has the distances that are computed directly. -/
theorem distanceWithTable_eq (code : Bytes) :
    ((pq.computeDistanceTable target sqrt v).bind fun table =>
        pq.distanceWithTable sqrt table code) =
      pq.distanceAdc target sqrt v code := by
  have table : pq.computeDistanceTable target sqrt v =
      some ((List.range pq.codebooks.length).map fun sub => distancesOf
        (euclideanDistanceScalarFallback sqrt)
        ((pq.codebooks[sub]?).getD []) pq.subspaceDim v sub) := by
    unfold computeDistanceTable
    rw [← shaped.length]
    apply mapM_of_forall
    intro sub member
    have found := List.getElem?_eq_getElem (List.mem_range.mp member)
    rw [(centroidDistances_run shaped sized found).2.2, found]
    rfl
  rw [table, Option.bind_some]
  unfold distanceWithTable distanceAdc
  congr 1
  apply foldlM_congr
  intro sub member total
  rw [← shaped.length] at member
  obtain ⟨codebook, found⟩ : ∃ codebook, pq.codebooks[sub]? = some codebook :=
    ⟨_, List.getElem?_eq_getElem (List.mem_range.mp member)⟩
  obtain ⟨taken, distances, -⟩ : _ ∧ _ ∧
      pq.centroidDistances target sqrt v sub = _ :=
    centroidDistances_run shaped sized found
  have row : ((List.range pq.codebooks.length).map fun sub => distancesOf
      (euclideanDistanceScalarFallback sqrt) ((pq.codebooks[sub]?).getD [])
      pq.subspaceDim v sub)[sub]? = some (distancesOf
        (euclideanDistanceScalarFallback sqrt) codebook pq.subspaceDim v
        sub) := by
    rw [List.getElem?_map, List.getElem?_range (List.mem_range.mp member),
      Option.map_some, found, Option.getD_some]
  rw [row, taken, found]
  cases code[sub]? with
  | none => rfl
  | some number =>
      show Option.bind ((codebook.map _)[number.toNat]?) _ =
        Option.bind (codebook[number.toNat]?) _
      rw [List.getElem?_map]
      cases place : codebook[number.toNat]? with
      | none => rfl
      | some centroid =>
          rw [Option.map_some, Option.bind_some, Option.bind_some,
            distances centroid (List.mem_of_getElem? place)]
          rfl

/-- The codes of a vector are right exactly if a byte has room for a nearest
centroid and the scan begins above one. -/
theorem encode_nearest_iff :
    (∃ code, pq.encode target sqrt v = some code ∧
        NearestCodes (euclideanDistanceScalarFallback sqrt) pq.codebooks
          pq.subspaceDim v code) ↔
      NearestInByte (euclideanDistanceScalarFallback sqrt) pq.codebooks
          pq.subspaceDim v ∧
        NearestInRange (euclideanDistanceScalarFallback sqrt) pq.codebooks
          pq.subspaceDim v := by
  rw [encode_run shaped sized]
  simp only [Option.some.injEq, exists_eq_left']
  rw [nearestCodes_iff]
  have each : ∀ (sub : Nat) codebook, pq.codebooks[sub]? = some codebook →
      (Nearest (distancesOf (euclideanDistanceScalarFallback sqrt) codebook
          pq.subspaceDim v sub) (argmin f32Max (distancesOf
            (euclideanDistanceScalarFallback sqrt)
            ((pq.codebooks[sub]?).getD []) pq.subspaceDim v sub) % 256) ↔
        (∃ place < 256, Nearest (distancesOf
            (euclideanDistanceScalarFallback sqrt) codebook pq.subspaceDim v
            sub) place) ∧
          ((∃ d ∈ distancesOf (euclideanDistanceScalarFallback sqrt) codebook
              pq.subspaceDim v sub, d < f32Max) ∨
            Nearest (distancesOf (euclideanDistanceScalarFallback sqrt)
              codebook pq.subspaceDim v sub) 0)) := by
    intro sub codebook found
    rw [found, Option.getD_some]
    exact nearest_narrowed_iff f32Max _ (by decide)
  constructor
  · intro nearest
    exact ⟨fun sub codebook found =>
        ((each sub codebook found).mp (nearest sub codebook found)).1,
      fun sub codebook found =>
        ((each sub codebook found).mp (nearest sub codebook found)).2⟩
  · rintro ⟨inByte, inRange⟩ sub codebook found
    exact (each sub codebook found).mpr
      ⟨inByte sub codebook found, inRange sub codebook found⟩

end ProductQuantizer

/-! ## The second implementation -/

theorem nearest_coe_iff {values : List ℚ} {place : Nat} :
    Nearest (values.map fun value : ℚ => (value : WithTop ℚ)) place ↔
      Nearest values place := by
  unfold Nearest
  constructor
  · rintro ⟨least, found, most⟩
    rw [List.getElem?_map] at found
    obtain ⟨value, isValue, rfl⟩ := Option.map_eq_some_iff.mp found
    refine ⟨value, isValue, fun other member => ?_⟩
    exact WithTop.coe_le_coe.mp (most _ (List.mem_map_of_mem member))
  · rintro ⟨least, found, most⟩
    refine ⟨least, by rw [List.getElem?_map, found]; rfl, ?_⟩
    intro other member
    obtain ⟨value, isValue, rfl⟩ := List.mem_map.mp member
    exact WithTop.coe_le_coe.mpr (most value isValue)

/-- Every distance is below infinity. -/
theorem nearestCentroid_iff (codebook : Codebook) (width : Nat) (v : List ℚ)
    (sub : Nat) :
    Nearest (distancesOf squaredDistance codebook width v sub)
        (nearestCentroid codebook (partOf width v sub) % 256) ↔
      ∃ place < 256,
        Nearest (distancesOf squaredDistance codebook width v sub) place := by
  have narrowed := nearest_narrowed_iff ⊤
    ((distancesOf squaredDistance codebook width v sub).map
      fun value : ℚ => (value : WithTop ℚ)) (by decide : 0 < 256)
  simp only [nearest_coe_iff] at narrowed
  have scanned : argmin ⊤ ((distancesOf squaredDistance codebook width v
      sub).map fun value : ℚ => (value : WithTop ℚ)) =
        nearestCentroid codebook (partOf width v sub) := by
    unfold nearestCentroid distancesOf
    rw [List.map_map]
    rfl
  rw [scanned] at narrowed
  rw [narrowed]
  refine and_iff_left_of_imp ?_
  rintro ⟨place, -, least, found, -⟩
  exact .inl ⟨least, List.mem_map_of_mem (List.mem_of_getElem? found),
    WithTop.coe_lt_top least⟩

theorem squaredDistance_append {a b c d : List ℚ} (same : a.length = b.length) :
    squaredDistance (a ++ c) (b ++ d) =
      squaredDistance a b + squaredDistance c d := by
  unfold squaredDistance
  rw [List.zipWith_append same, List.sum_append]

namespace PqQuantizer

variable {pq : PqQuantizer} {v : List ℚ}
  (shaped : Shaped pq.codebooks pq.m pq.dsub)
  (sized : v.length = pq.m * pq.dsub)

include shaped sized

theorem encodeRow_run :
    pq.encodeRow v = some ((List.range pq.codebooks.length).map fun sub =>
      .ofNat (nearestCentroid ((pq.codebooks[sub]?).getD [])
        (partOf pq.dsub v sub))) := by
  unfold encodeRow
  rw [← shaped.length]
  apply mapM_of_forall
  intro sub member
  have among := List.mem_range.mp member
  have found := List.getElem?_eq_getElem among
  have taken : pq.part v sub = some (partOf pq.dsub v sub) :=
    part_run (part_inside sized (shaped.length ▸ among))
  rw [taken, found]
  rfl

theorem encode_nearest_iff (dims : pq.dim = pq.m * pq.dsub)
    (positive : 0 < pq.dim) :
    (∃ codes, pq.encode v = some codes ∧
        NearestCodes squaredDistance pq.codebooks pq.dsub v codes) ↔
      NearestInByte squaredDistance pq.codebooks pq.dsub v := by
  have encodes : pq.encode v = some
      ((List.range pq.codebooks.length).map fun sub =>
        .ofNat (nearestCentroid ((pq.codebooks[sub]?).getD [])
          (partOf pq.dsub v sub))) := by
    unfold encode
    rw [if_neg positive.ne', rowsOf_row positive (sized.trans dims.symm),
      List.mapM_cons, encodeRow_run shaped sized]
    simp
  rw [encodes]
  simp only [Option.some.injEq, exists_eq_left']
  rw [nearestCodes_iff]
  constructor
  · intro nearest sub codebook found
    have own := nearest sub codebook found
    rw [found, Option.getD_some] at own
    exact (nearestCentroid_iff codebook pq.dsub v sub).mp own
  · intro inByte sub codebook found
    rw [found, Option.getD_some]
    exact (nearestCentroid_iff codebook pq.dsub v sub).mpr
      (inByte sub codebook found)

omit sized in
/-- The centroids of codes, one after the other. -/
theorem decode_run (positive : 0 < pq.m) {codes : Bytes}
    (nearest : NearestCodes squaredDistance pq.codebooks pq.dsub v codes) :
    ∃ centroids : List (List ℚ),
      pq.decode codes = some centroids.flatten ∧
        Selects pq.codebooks codes centroids := by
  obtain ⟨length, each⟩ := nearest
  rw [shaped.length] at length
  let centroid := fun sub => (pq.pick codes sub).getD []
  have chosen : ∀ sub ∈ List.range pq.m,
      pq.pick codes sub = some (centroid sub) := by
    intro sub member
    have among := List.mem_range.mp member
    have book := List.getElem?_eq_getElem (shaped.length ▸ among)
    have code := List.getElem?_eq_getElem (length ▸ among)
    obtain ⟨least, found, -⟩ := each sub _ _ book code
    unfold distancesOf at found
    rw [List.getElem?_map] at found
    obtain ⟨own, isOwn, -⟩ := Option.map_eq_some_iff.mp found
    have picked : pq.pick codes sub = some own := by
      unfold pick
      rw [book, Option.bind_eq_bind, Option.bind_some, code,
        Option.bind_eq_bind, Option.bind_some, isOwn]
    simp only [centroid]
    rw [picked, Option.getD_some]
  refine ⟨(List.range pq.m).map centroid, ?_, ?_, ?_⟩
  · unfold decode decodeRow
    rw [if_neg positive.ne', rowsOf_row positive length, List.mapM_cons,
      mapM_of_forall chosen]
    simp
  · rw [List.length_map, List.length_range, length]
  · intro sub codebook code book coded
    have among : sub < pq.m := by
      rw [← shaped.length]
      exact (List.getElem?_eq_some_iff.mp book).1
    have own := chosen sub (List.mem_range.mpr among)
    unfold pick at own
    rw [book, Option.bind_eq_bind, Option.bind_some, coded,
      Option.bind_eq_bind, Option.bind_some] at own
    rw [List.getElem?_map, List.getElem?_range among, own]
    rfl

omit sized in
theorem pick_length {codes : Bytes} {sub : Nat} {centroid : List ℚ}
    (picked : pq.pick codes sub = some centroid) :
    centroid.length = pq.dsub := by
  obtain ⟨codebook, book, picked⟩ := Option.bind_eq_some_iff.mp picked
  obtain ⟨code, -, found⟩ := Option.bind_eq_some_iff.mp picked
  exact shaped.wide codebook (List.mem_of_getElem? book) centroid
    (List.mem_of_getElem? found)

omit sized in
theorem decodeRow_length {codes : Bytes} {count : Nat}
    {centroids : List (List ℚ)}
    (picked : (List.range count).mapM (pq.pick codes) = some centroids) :
    centroids.flatten.length = count * pq.dsub := by
  obtain ⟨length, each⟩ := getElem?_of_mapM_range picked
  have wide : ∀ centroid ∈ centroids,
      (id centroid : List ℚ).length = pq.dsub := by
    intro centroid member
    obtain ⟨place, found⟩ := List.mem_iff_getElem?.mp member
    have inside := (List.getElem?_eq_some_iff.mp found).1
    exact pick_length shaped ((each place (length ▸ inside)).trans found)
  rw [← List.flatMap_id, length_rows wide, length]

/-- The rows of the distances from all centroids. -/
def distanceRows (pq : PqQuantizer) (v : List ℚ) : List (List ℚ) :=
  (List.range pq.codebooks.length).map fun sub =>
    distancesOf squaredDistance ((pq.codebooks[sub]?).getD []) pq.dsub v sub

omit sized in
/-- A place of a row has the distance of the centroid of the code. -/
theorem adcStep_eq {codes : Bytes} {sub : Nat} (among : sub < pq.m)
    (dist : ℚ) :
    adcStep (pq.distanceRows v) codes dist sub =
      (pq.pick codes sub).map fun centroid =>
        dist + squaredDistance (partOf pq.dsub v sub) centroid := by
  obtain ⟨codebook, found⟩ : ∃ codebook, pq.codebooks[sub]? = some codebook :=
    ⟨_, List.getElem?_eq_getElem (shaped.length ▸ among)⟩
  unfold adcStep pick distanceRows
  rw [List.getElem?_map, List.getElem?_range (shaped.length ▸ among),
    Option.map_some, found, Option.getD_some]
  cases codes[sub]? with
  | none => rfl
  | some code =>
      show Option.bind ((codebook.map _)[code.toNat]?) _ =
        Option.map _ (codebook[code.toNat]?)
      rw [List.getElem?_map]
      cases codebook[code.toNat]? with
      | none => rfl
      | some centroid => rfl

/-- The distances of the parts add up to that of what is decoded. -/
theorem adcLoop_eq (codes : Bytes) {count : Nat} (most : count ≤ pq.m) :
    (List.range count).foldlM (adcStep (pq.distanceRows v) codes) 0 =
      ((List.range count).mapM (pq.pick codes)).map fun centroids =>
        squaredDistance (v.take (count * pq.dsub)) centroids.flatten := by
  induction count with
  | zero =>
      rw [Nat.zero_mul, List.take_zero]
      rfl
  | succ count ih =>
      have among := Nat.lt_of_succ_le most
      rw [List.range_succ, List.foldlM_append, ih (Nat.le_of_succ_le most),
        List.mapM_append]
      cases picked : (List.range count).mapM (pq.pick codes) with
      | none => rfl
      | some centroids =>
          have length := decodeRow_length shaped picked
          have inside := part_inside sized among
          have taken : (v.take (count * pq.dsub)).length =
              count * pq.dsub := List.length_take_of_le (by omega)
          rw [Option.map_some, Option.bind_eq_bind, Option.bind_some,
            List.foldlM_cons, adcStep_eq shaped among]
          cases next : pq.pick codes count with
          | none => simp [next]
          | some centroid =>
              have last : squaredDistance (v.take ((count + 1) * pq.dsub))
                  (centroids.flatten ++ centroid) =
                    squaredDistance (v.take (count * pq.dsub))
                        centroids.flatten +
                      squaredDistance (partOf pq.dsub v count) centroid := by
                rw [Nat.succ_mul, List.take_add,
                  squaredDistance_append (taken.trans length.symm)]
                rfl
              simp [next, last]

variable (books : ∀ codebook ∈ pq.codebooks, codebook.length = pq.k)

include books

theorem computeDistanceTable_run :
    pq.computeDistanceTable v = some (pq.distanceRows v) := by
  unfold computeDistanceTable
  rw [← shaped.length]
  apply mapM_of_forall
  intro sub member
  have among := List.mem_range.mp member
  have found := List.getElem?_eq_getElem among
  have taken : pq.part v sub = some (partOf pq.dsub v sub) :=
    part_run (part_inside sized (shaped.length ▸ among))
  have length := books _ (List.getElem_mem among)
  unfold tableRow
  rw [taken, Option.bind_eq_bind, Option.bind_some, found,
    Option.bind_eq_bind, Option.bind_some, if_pos (Nat.le_of_eq length),
    length, Nat.sub_self, List.replicate_zero, List.append_nil]
  rfl

/-- The table gives the distance from what is decoded. -/
theorem computeDistanceAdc_eq (positive : 0 < pq.m) {codes : Bytes}
    (coded : codes.length = pq.m) :
    ((pq.computeDistanceTable v).bind fun table =>
        pq.computeDistanceAdc table codes) =
      (pq.decode codes).map (squaredDistance v) := by
  have decodes : pq.decode codes =
      ((List.range pq.m).mapM (pq.pick codes)).map List.flatten := by
    unfold decode decodeRow
    rw [if_neg positive.ne', rowsOf_row positive coded, List.mapM_cons]
    show Option.bind (Option.bind (Option.bind
      ((List.range pq.m).mapM (pq.pick codes)) _) _) _ = _
    cases (List.range pq.m).mapM (pq.pick codes) with
    | none => rfl
    | some centroids => simp
  have whole : v.take (pq.m * pq.dsub) = v := by
    rw [← sized, List.take_length]
  rw [computeDistanceTable_run shaped sized books, Option.bind_some, decodes,
    Option.map_map]
  unfold computeDistanceAdc
  rw [adcLoop_eq shaped sized codes (Nat.le_refl _), whole]
  rfl

end PqQuantizer

/-!
## Trained product quantizers

The codes of both implementations are those of nearest centroids exactly if a
nearest centroid of every subspace is among the first 256.
-/

/-- A quantizer of one of the two implementations that its training
accepted. -/
inductive TrainedPq [Platform] (target : Target) (sqrt : ℚ → ℚ)
    (sampler : Sampler) where
  | product (vectors : List (List ℚ)) (numSubspaces numClusters : Nat)
      (pq : ProductQuantizer)
      (trained : ProductQuantizer.train target sqrt sampler vectors
        numSubspaces numClusters = some (.ok pq))
  | inverted (dim m nbits : Nat) (fresh : PqQuantizer) (vectors : List ℚ)
      (nIter : Nat) (pq : PqQuantizer)
      (created : PqQuantizer.new dim m nbits = some fresh)
      (trained : fresh.train vectors nIter = some pq)

namespace TrainedPq

section

variable [Platform] {target : Target} {sqrt : ℚ → ℚ} {sampler : Sampler}

def dimension : TrainedPq target sqrt sampler → Nat
  | product _ _ _ pq _ => pq.dimension
  | inverted _ _ _ _ _ _ pq _ _ => pq.dim

/-- The codes of a vector are those of nearest centroids, they are decoded to
these centroids, and for every code the table gives the direct distance. -/
def Correct (v : List ℚ) : TrainedPq target sqrt sampler → Prop
  | product _ _ _ pq _ =>
      (∃ code, pq.encode target sqrt v = some code ∧
        NearestCodes (euclideanDistanceScalarFallback sqrt) pq.codebooks
          pq.subspaceDim v code) ∧
      ∀ query : List ℚ, query.length = pq.dimension → ∀ code,
        ((pq.computeDistanceTable target sqrt query).bind fun table =>
            pq.distanceWithTable sqrt table code) =
          pq.distanceAdc target sqrt query code
  | inverted _ _ _ _ _ _ pq _ _ =>
      (∃ codes, pq.encode v = some codes ∧
        NearestCodes squaredDistance pq.codebooks pq.dsub v codes ∧
          ∃ centroids : List (List ℚ),
            pq.decode codes = some centroids.flatten ∧
              Selects pq.codebooks codes centroids) ∧
      ∀ query : List ℚ, query.length = pq.dim →
        ∀ codes : Bytes, codes.length = pq.m →
          ((pq.computeDistanceTable query).bind fun table =>
              pq.computeDistanceAdc table codes) =
            (pq.decode codes).map (squaredDistance query)

/-- In every subspace one of the first 256 centroids is nearest; the first
implementation also needs a centroid nearer than the largest number, or the
first one to be nearest. -/
def Fits (v : List ℚ) : TrainedPq target sqrt sampler → Prop
  | product _ _ _ pq _ =>
      NearestInByte (euclideanDistanceScalarFallback sqrt) pq.codebooks
          pq.subspaceDim v ∧
        NearestInRange (euclideanDistanceScalarFallback sqrt) pq.codebooks
          pq.subspaceDim v
  | inverted _ _ _ _ _ _ pq _ _ =>
      NearestInByte squaredDistance pq.codebooks pq.dsub v

theorem pq_nearest_iff (quantizer : TrainedPq target sqrt sampler)
    {v : List ℚ} (sized : v.length = quantizer.dimension) :
    quantizer.Correct v ↔ quantizer.Fits v := by
  cases quantizer with
  | product vectors numSubspaces numClusters pq trained =>
      obtain ⟨shaped, dims⟩ := ProductQuantizer.train_shaped trained
      refine (and_iff_left ?_).trans
        (ProductQuantizer.encode_nearest_iff shaped (sized.trans dims))
      intro query queried code
      exact ProductQuantizer.distanceWithTable_eq shaped
        (queried.trans dims) code
  | inverted dim m nbits fresh vectors nIter pq created trained =>
      obtain ⟨shaped, books, dims, positive, some⟩ :=
        PqQuantizer.train_shaped created trained
      have nearest := PqQuantizer.encode_nearest_iff shaped
        (sized.trans dims) dims positive
      constructor
      · rintro ⟨⟨codes, encodes, own, -⟩, -⟩
        exact nearest.mp ⟨codes, encodes, own⟩
      · intro fits
        obtain ⟨codes, encodes, own⟩ := nearest.mpr fits
        refine ⟨⟨codes, encodes, own,
          PqQuantizer.decode_run shaped some own⟩, ?_⟩
        intro query queried others coded
        exact PqQuantizer.computeDistanceAdc_eq shaped (queried.trans dims)
          books some coded

end

section

attribute [local instance] Platform.integral

/-- The first elements of the data. -/
def firstElements : Sampler where
  choose _ data count := data.take count
  mem_of_chosen _ _ _ _ member := List.mem_of_mem_take member
  length_chosen _ _ _ := List.length_take

/-- Two points of a line, each of them a centroid. -/
def twoCentroids : TrainedPq .other id firstElements :=
  .inverted 1 1 1
    { dim := 1, m := 1, dsub := 1, k := 2, codebooks := [[[0], [0]]],
      trained := false } [0, 4] 0
    { dim := 1, m := 1, dsub := 1, k := 2, codebooks := [[[0], [4]]],
      trained := true } rfl rfl

theorem pq_nearest_three : twoCentroids.Correct [3] := by
  refine (pq_nearest_iff twoCentroids rfl).mpr ?_
  rintro (_ | sub) codebook found
  · cases found
    refine ⟨1, by decide, 1, ?_, ?_⟩
    · show some (squaredDistance [3] [4]) = some 1
      norm_num [squaredDistance]
    · intro value member
      rcases List.mem_cons.mp member with rfl | last
      · norm_num [squaredDistance, partOf]
      · rw [List.mem_singleton.mp last]
        norm_num [squaredDistance, partOf]
  · cases found

/-! ## More centroids than a byte has numbers -/

def linePoint (i : Nat) : List ℚ := [(i : ℚ)]

/-- The first points of a line. -/
def line (count : Nat) : List ℚ :=
  (List.range count).flatMap linePoint

theorem rowsOf_line (count : Nat) :
    rowsOf 1 (line count) = (List.range count).map linePoint :=
  rowsOf_flatMap Nat.one_pos fun _ _ => rfl

/-- Without a round the centroids are the points that the training starts
with. -/
theorem kmeans_line {count : Nat} (fits : count * count ≤ usizeMax) :
    kmeans (line count) 1 count 0 =
      some ((List.range count).map linePoint) := by
  have starts : initialCentroids ((List.range count).map linePoint) count =
      some ((List.range count).map linePoint) := by
    unfold initialCentroids
    rw [List.length_map, List.length_range]
    apply mapM_of_forall
    intro i member
    have among := List.mem_range.mp member
    have positive : 0 < count := by omega
    have scaled : usize (i * count : Nat) = some (i * count) :=
      usize_of rfl ((Nat.mul_le_mul_right count among.le).trans fits)
    rw [scaled, Option.bind_eq_bind, Option.bind_some, if_neg positive.ne',
      Nat.mul_div_cancel _ positive, Nat.mod_eq_of_lt among,
      List.getElem?_map, List.getElem?_range among]
    rfl
  unfold kmeans
  rw [if_neg Nat.one_ne_zero, rowsOf_line]
  dsimp only
  rw [starts]
  rfl

def lineQuantizer (k : Nat) (codebook : Codebook) (trained : Bool) :
    PqQuantizer where
  dim := 1
  m := 1
  dsub := 1
  k := k
  codebooks := [codebook]
  trained := trained

theorem new_line (nbits : Nat) (fits : nbits < 64) :
    PqQuantizer.new 1 1 nbits =
      some (lineQuantizer (2 ^ nbits)
        (List.replicate (2 ^ nbits) [0]) false) := by
  unfold PqQuantizer.new PqQuantizer.shiftedOne
  rw [if_neg (by decide), if_pos fits]
  rfl

theorem train_line {k : Nat} (codebook : Codebook)
    (fits : k * k ≤ usizeMax) :
    (lineQuantizer k codebook false).train (line k) 0 =
      some (lineQuantizer k ((List.range k).map linePoint) true) := by
  have parts : (lineQuantizer k codebook false).subvectors (line k) 0 =
      line k := by
    show (rowsOf 1 (line k)).flatMap (fun row => (row.drop 0).take 1) = _
    rw [rowsOf_line, List.flatMap_map]
    rfl
  have enough : (line k).length = k := by
    have single : ∀ i ∈ List.range k, (linePoint i).length = 1 :=
      fun _ _ => rfl
    unfold line
    rw [length_rows single, List.length_range, Nat.mul_one]
  unfold PqQuantizer.train
  show (if (1 : Nat) = 0 ∨ (line k).length / 1 < k then none
    else ([0] : List Nat).mapM _ >>= _) = _
  rw [if_neg (by rw [enough, Nat.div_one]; omega), List.mapM_cons, parts]
  show (kmeans (line k) 1 k 0 >>= _) >>= _ = _
  rw [kmeans_line fits]
  rfl

/-- Nine bits make 512 centroids. -/
def manyCentroids : TrainedPq .other id firstElements :=
  .inverted 1 1 9 _ (line (2 ^ 9)) 0 _ (new_line 9 (by decide))
    (train_line _ (by decide))

/-- The vector is the centroid at the place 256, whose code is zero. -/
theorem many_not_correct : ¬manyCentroids.Correct [256] := by
  rintro ⟨⟨codes, encodes, nearest, -⟩, -⟩
  obtain ⟨shaped, -, dims, positive, -⟩ :=
    PqQuantizer.train_shaped (new_line 9 (by decide))
      (train_line _ (by decide))
  obtain ⟨place, inside, least, found, most⟩ :=
    (PqQuantizer.encode_nearest_iff shaped rfl dims positive).mp
      ⟨codes, encodes, nearest⟩ 0 _ rfl
  have distances : distancesOf squaredDistance
      ((List.range (2 ^ 9)).map linePoint) 1 [256] 0 =
        (List.range (2 ^ 9)).map fun i : Nat => (256 - (i : ℚ)) ^ 2 := by
    unfold distancesOf
    rw [List.map_map]
    apply List.map_congr_left
    intro i _
    simp [squaredDistance, partOf, linePoint]
  change (distancesOf squaredDistance ((List.range (2 ^ 9)).map linePoint) 1
    [256] 0)[place]? = some least at found
  rw [distances, List.getElem?_map, List.getElem?_range (by omega)] at found
  cases found
  have zero := most 0 (by
    change (0 : ℚ) ∈ distancesOf squaredDistance
      ((List.range (2 ^ 9)).map linePoint) 1 [256] 0
    rw [distances]
    exact List.mem_map.mpr ⟨256, List.mem_range.mpr (by decide), by norm_num⟩)
  have apart : (0 : ℚ) < 256 - (place : ℚ) := by
    have below : (place : ℚ) < 256 := by exact_mod_cast inside
    linarith
  have positive := pow_pos apart 2
  dsimp only at zero
  linarith

end

end TrainedPq

end RedVector.Quantization
