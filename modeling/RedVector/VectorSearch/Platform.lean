import Mathlib.Algebra.Ring.Int.Defs
import Mathlib.Data.List.Induction
import Mathlib.Data.List.Perm.Subperm
import RedVector.Util.Bytes

/-!
# What the vector search takes from outside

Single-precision arithmetic, the case mapping of Unicode, the vector
instructions behind `simd_metrics` and the `hnsw_rs` crate are parameters of
the model.
-/

namespace RedVector

class VectorPlatform where
  /-- `str::to_uppercase` and `str::to_lowercase`. -/
  strToUppercase : Bytes → Bytes
  strToLowercase : Bytes → Bytes
  F32 : Type
  /-- `str::trim` and `str::parse::<f32>`. -/
  f32Parse : Bytes → Option F32
  /-- `format!("{:.6}", x)`. -/
  f32ToString : F32 → Bytes
  f32Lt : F32 → F32 → Bool
  f32Neg : F32 → F32
  /-- `1.0 - x`. -/
  f32OneMinus : F32 → F32
  cosineSimilaritySimd : List F32 → List F32 → F32
  euclideanDistanceSimd : List F32 → List F32 → F32
  innerProductSimd : List F32 → List F32 → F32
  /-- The distance of `DistCosine`. -/
  distCosine : List F32 → List F32 → F32
  Hnsw : Type
  /-- `Hnsw::new(m, nb_elem, nb_layer, ef_construction, dist)`. -/
  hnswNew : Nat → Nat → Nat → Nat → Hnsw
  hnswInsert : Hnsw → List F32 → Nat → Hnsw
  /-- The numbers and the distances of the neighbours. -/
  hnswSearch : Hnsw → List F32 → Nat → Nat → List (Nat × F32)

export VectorPlatform (F32)

/-- A `Vec<f32>`. -/
abbrev Vector32 [VectorPlatform] := List F32

section Graph

variable [VectorPlatform]

/-- The graph after these insertions. -/
def hnswOf (m nbElem nbLayer efConstruction : Nat)
    (points : List (Vector32 × Nat)) : VectorPlatform.Hnsw :=
  points.foldl (fun graph point =>
    VectorPlatform.hnswInsert graph point.1 point.2)
    (VectorPlatform.hnswNew m nbElem nbLayer efConstruction)

/-- What the crate is taken to do: a search answers points that were inserted,
each once, and as many as were asked for at most. -/
def HnswSound : Prop :=
  ∀ m nbElem nbLayer efConstruction points query knbn ef,
    ∃ neighbours : List (Vector32 × Nat), neighbours.Subperm points ∧
      neighbours.length ≤ knbn ∧
      VectorPlatform.hnswSearch
          (hnswOf m nbElem nbLayer efConstruction points) query knbn ef =
        neighbours.map fun point =>
          (point.2, VectorPlatform.distCosine query point.1)

/-- A search finds some point if there are any. -/
def HnswFinds : Prop :=
  ∀ m nbElem nbLayer efConstruction points query knbn ef,
    points ≠ [] → 0 < knbn →
    VectorPlatform.hnswSearch
      (hnswOf m nbElem nbLayer efConstruction points) query knbn ef ≠ []

end Graph

/-! ## A concrete platform -/

/-- The square of the euclidean distance. -/
def squaredDistance (a b : List Int) : Int :=
  ((a.zipWith (fun x y => (x - y) * (x - y)) b)).sum

/-- The points of a list that are nearest to a query. -/
def nearest (points : List (List Int × Nat)) (query : List Int)
    (knbn : Nat) : List (List Int × Nat) :=
  (points.mergeSort fun a b =>
    squaredDistance query a.1 ≤ squaredDistance query b.1).take knbn

/-- Vectors of integers whose graph is the list of its points. -/
@[reducible] def VectorPlatform.integral : VectorPlatform where
  strToUppercase := List.map fun byte =>
    if 97 ≤ byte && byte ≤ 122 then byte - 32 else byte
  strToLowercase := Util.lowercase
  F32 := Int
  f32Parse := Util.parseInteger
  f32ToString := Util.intToString
  f32Lt := fun a b => decide (a < b)
  f32Neg := fun a => -a
  f32OneMinus := fun a => 1 - a
  cosineSimilaritySimd := fun a b => (a.zipWith (· * ·) b).sum
  euclideanDistanceSimd := squaredDistance
  innerProductSimd := fun a b => (a.zipWith (· * ·) b).sum
  distCosine := squaredDistance
  Hnsw := List (List Int × Nat)
  hnswNew := fun _ _ _ _ => []
  hnswInsert := fun graph vector id => graph ++ [(vector, id)]
  hnswSearch := fun graph query knbn _ =>
    (nearest graph query knbn).map fun point =>
      (point.2, squaredDistance query point.1)

theorem hnswOf_integral (m nbElem nbLayer efConstruction : Nat)
    (points : List (List Int × Nat)) :
    @hnswOf VectorPlatform.integral m nbElem nbLayer efConstruction points =
      points := by
  induction points using List.reverseRecOn with
  | nil => rfl
  | append_singleton points point ih =>
      unfold hnswOf at ih ⊢
      rw [List.foldl_append, ih]
      rfl

section

attribute [local instance] VectorPlatform.integral

/-- A vector of integers. -/
abbrev integers (numbers : List Int) : Vector32 :=
  numbers

theorem hnswSound_integral : HnswSound := by
  intro m nbElem nbLayer efConstruction points query knbn ef
  rw [hnswOf_integral]
  refine ⟨nearest points query knbn, ?_, List.length_take_le _ _, rfl⟩
  exact (List.take_sublist _ _).subperm.trans
    (List.mergeSort_perm _ _).subperm

theorem hnswFinds_integral : HnswFinds := by
  intro m nbElem nbLayer efConstruction points query knbn ef some positive
  rw [hnswOf_integral]
  intro none
  have empty : nearest points query knbn = [] := List.map_eq_nil_iff.mp none
  have length := congrArg List.length empty
  simp only [nearest, List.length_take, List.length_mergeSort,
    List.length_nil] at length
  have := List.length_pos_of_ne_nil some
  omega

end

end RedVector
