import RedVector.Kernels.SimdMetrics

/-!
# Chunked metrics are the scalar ones

A register accumulates the sum over the chunks, and the remainder completes it,
whatever the number of lanes.
-/

namespace RedVector.Kernels

open Util

variable {a b : List ℚ} {isa : InstructionSet}

/-- Where the remainder starts. -/
abbrev remainderStart (isa : InstructionSet) (length : Nat) : Nat :=
  length / isa.lanes * isa.lanes

theorem remainderStart_le (isa : InstructionSet) (length : Nat) :
    remainderStart isa length ≤ length :=
  Nat.div_mul_le_self length isa.lanes

/-- Both slices of the remainder are read to the end. -/
def remainderPlaces (isa : InstructionSet) (length : Nat) : List Nat :=
  List.range' (remainderStart isa length) (length - remainderStart isa length)

theorem chunks_remainder (isa : InstructionSet) (length : Nat) :
    List.range (remainderStart isa length) ++ remainderPlaces isa length =
      List.range length := by
  have reaches := remainderStart_le isa length
  have whole := List.range'_append_1 (s := 0)
    (m := remainderStart isa length) (n := length - remainderStart isa length)
  rw [Nat.zero_add, Nat.add_sub_cancel' reaches] at whole
  rw [List.range_eq_range', List.range_eq_range']
  exact whole

/-- The sums of two registers that a product is accumulated to. -/
theorem sum_multiplyAdd (va vb sum : Lanes isa.lanes) :
    isa.horizontalSum (isa.multiplyAdd va vb sum) =
      isa.horizontalSum sum + ∑ lane, va lane * vb lane := by
  rw [isa.horizontalSum_eq, isa.horizontalSum_eq, ← Finset.sum_add_distrib]
  exact Finset.sum_congr rfl fun lane _ => isa.multiplyAdd_eq va vb sum lane

theorem sum_setzero : isa.horizontalSum setzeroPs = 0 := by
  rw [isa.horizontalSum_eq]
  exact Finset.sum_const_zero

/-- What is accumulated from chunks and completed by the remainder. -/
theorem completes {β : Type} {b : List β} {total : ℚ} (term : ℚ → β → ℚ)
    (start : Nat) (chunks : total = 0 + ((a.zipWith term b).take start).sum) :
    total + ((a.drop start).zipWith term (b.drop start)).sum =
      (a.zipWith term b).sum := by
  rw [chunks, zero_add, ← List.drop_zipWith, List.sum_take_add_sum_drop]

/-- Terms of one of the vectors only. -/
theorem sum_zipWith_left {M : Type} [AddCommMonoid M] (term : ℚ → M)
    (same : a.length = b.length) :
    (a.zipWith (fun x _ => term x) b).sum = (a.map term).sum := by
  congr 1
  apply List.ext_getElem
  · rw [List.length_zipWith, List.length_map]
    omega
  · intro place _ _
    rw [List.getElem_zipWith, List.getElem_map]

theorem sum_zipWith_right {M : Type} [AddCommMonoid M] (term : ℚ → M)
    (same : a.length = b.length) :
    (a.zipWith (fun _ y => term y) b).sum = (b.map term).sum := by
  congr 1
  apply List.ext_getElem
  · rw [List.length_zipWith, List.length_map]
    omega
  · intro place _ _
    rw [List.getElem_zipWith, List.getElem_map]

section Runs

variable (isa) (sqrt : ℚ → ℚ) (same : a.length = b.length)

include same

theorem innerProductWith_run : innerProductWith isa a b .none =
    some (innerProductScalarFallback a b,
      Reads.none.both (List.range a.length)) := by
  have inside := remainderStart_le isa a.length
  obtain ⟨dot, runs, grows⟩ := chunkLoop_run same
    (fun va vb dot => isa.multiplyAdd va vb dot) setzeroPs .none inside
  have dotSum := grows isa.horizontalSum (fun x y => x * y) sum_multiplyAdd
  rw [sum_setzero] at dotSum
  unfold innerProductWith
  refine (congrArg (Option.bind · _) runs).trans ?_
  refine (congrArg (Option.bind · _)
    (readBoth_inside same inside _)).trans ?_
  rw [Reads.both_both]
  show some (isa.horizontalSum dot + _, _) = _
  rw [completes _ _ dotSum]
  exact congrArg (fun places => some (_, Reads.none.both places))
    (chunks_remainder isa a.length)

theorem euclideanDistanceWith_run : euclideanDistanceWith isa sqrt a b .none =
    some (euclideanDistanceScalarFallback sqrt a b,
      Reads.none.both (List.range a.length)) := by
  have inside := remainderStart_le isa a.length
  obtain ⟨sumSq, runs, grows⟩ := chunkLoop_run same
    (fun va vb sumSq => isa.multiplyAdd (subPs va vb) (subPs va vb) sumSq)
    setzeroPs .none inside
  have sumSqTotal := grows isa.horizontalSum (fun x y => (x - y) ^ 2) (by
    intro va vb sum
    rw [sum_multiplyAdd]
    simp only [subPs, sq])
  rw [sum_setzero] at sumSqTotal
  unfold euclideanDistanceWith
  refine (congrArg (Option.bind · _) runs).trans ?_
  refine (congrArg (Option.bind · _)
    (readBoth_inside same inside _)).trans ?_
  rw [Reads.both_both]
  show some (sqrt (isa.horizontalSum sumSq + _), _) = _
  rw [completes _ _ sumSqTotal]
  exact congrArg (fun places => some (_, Reads.none.both places))
    (chunks_remainder isa a.length)

theorem cosineSimilarityWith_run : cosineSimilarityWith isa sqrt a b .none =
    some (cosineSimilarityScalarFallback sqrt a b,
      Reads.none.both (List.range a.length ++
        remainderPlaces isa a.length)) := by
  have inside := remainderStart_le isa a.length
  obtain ⟨sums, runs, grows⟩ := chunkLoop_run same
    (fun va vb (sums : Norms (Lanes isa.lanes)) =>
      { dot := isa.multiplyAdd va vb sums.dot
        normASq := isa.multiplyAdd va va sums.normASq
        normBSq := isa.multiplyAdd vb vb sums.normBSq : Norms _ })
    ⟨setzeroPs, setzeroPs, setzeroPs⟩ .none inside
  have dotSum := grows (fun sums => isa.horizontalSum sums.dot)
    (fun x y => x * y) fun va vb sums => sum_multiplyAdd va vb sums.dot
  have normASum := grows (fun sums => isa.horizontalSum sums.normASq)
    (fun x _ => x * x) fun va _ sums => sum_multiplyAdd va va sums.normASq
  have normBSum := grows (fun sums => isa.horizontalSum sums.normBSq)
    (fun _ y => y * y) fun _ vb sums => sum_multiplyAdd vb vb sums.normBSq
  rw [sum_setzero] at dotSum normASum normBSum
  have restSame : (a.drop (remainderStart isa a.length)).length =
      (b.drop (remainderStart isa a.length)).length := by
    rw [List.length_drop, List.length_drop, same]
  have normA := completes _ _ normASum
  have normB := completes _ _ normBSum
  rw [sum_zipWith_left (fun x => x * x) restSame,
    sum_zipWith_left (fun x => x * x) same] at normA
  rw [sum_zipWith_right (fun y => y * y) restSame,
    sum_zipWith_right (fun y => y * y) same] at normB
  unfold cosineSimilarityWith
  refine (congrArg (Option.bind · _) runs).trans ?_
  refine (congrArg (Option.bind · _)
    (readBoth_inside same inside _)).trans ?_
  refine (congrArg (Option.bind · _)
    (readBoth_inside same inside _)).trans ?_
  rw [Reads.both_both, Reads.both_both]
  show some (cosineOf sqrt ⟨_, _, _⟩, _) = _
  rw [completes _ _ dotSum, normA, normB, ← List.append_assoc]
  exact congrArg (fun places => some (_, Reads.none.both
    (places ++ remainderPlaces isa a.length)))
    (chunks_remainder isa a.length)

end Runs

/-! ## The four instruction sets -/

inductive Isa where
  | avx512
  | avx2
  | sse
  | neon

namespace Isa

def set : Isa → InstructionSet
  | .avx512 => .avx512
  | .avx2 => .avx2
  | .sse => .sse
  | .neon => .neon

def innerProduct : Isa → List ℚ → List ℚ → Kernel ℚ
  | .avx512 => innerProductAvx512
  | .avx2 => innerProductAvx2
  | .sse => innerProductSse
  | .neon => innerProductNeon

def euclideanDistance : Isa → (ℚ → ℚ) → List ℚ → List ℚ → Kernel ℚ
  | .avx512 => euclideanDistanceAvx512
  | .avx2 => euclideanDistanceAvx2
  | .sse => euclideanDistanceSse
  | .neon => euclideanDistanceNeon

def cosineSimilarity : Isa → (ℚ → ℚ) → List ℚ → List ℚ → Kernel ℚ
  | .avx512 => cosineSimilarityAvx512
  | .avx2 => cosineSimilarityAvx2
  | .sse => cosineSimilaritySse
  | .neon => cosineSimilarityNeon

end Isa

/-- The kernels compute what the fallbacks compute.  Products and distances
read every element once and in order, and a cosine similarity reads the
remainder a second time. -/
theorem kernels_chunked (isa : Isa) (sqrt : ℚ → ℚ) {a b : List ℚ}
    (same : a.length = b.length) :
    isa.innerProduct a b .none =
        some (innerProductScalarFallback a b,
          Reads.none.both (List.range a.length)) ∧
      isa.euclideanDistance sqrt a b .none =
        some (euclideanDistanceScalarFallback sqrt a b,
          Reads.none.both (List.range a.length)) ∧
      isa.cosineSimilarity sqrt a b .none =
        some (cosineSimilarityScalarFallback sqrt a b,
          Reads.none.both (List.range a.length ++
            remainderPlaces isa.set a.length)) := by
  have runs : ∀ set : InstructionSet, _ ∧ _ ∧ _ := fun set =>
    ⟨innerProductWith_run set same, euclideanDistanceWith_run set sqrt same,
      cosineSimilarityWith_run set sqrt same⟩
  cases isa with
  | avx512 => exact runs .avx512
  | avx2 => exact runs .avx2
  | sse => exact runs .sse
  | neon => exact runs .neon

theorem kernels_chunked_five :
    Isa.neon.innerProduct [1, 2, 3, 4, 5] [5, 4, 3, 2, 1] .none =
      some (innerProductScalarFallback [1, 2, 3, 4, 5] [5, 4, 3, 2, 1],
        Reads.none.both (List.range 5)) := by
  have same : ([1, 2, 3, 4, 5] : List ℚ).length =
      ([5, 4, 3, 2, 1] : List ℚ).length := rfl
  exact (kernels_chunked .neon id same).1

/-- A kernel computes a value and reads every element of both vectors once. -/
def ReadsOnce (kernel : Kernel ℚ) (value : ℚ) (length : Nat) : Prop :=
  ∃ reads, kernel .none = some (value, reads) ∧
    reads.left.Perm (List.range length) ∧
    reads.right.Perm (List.range length)

/-- A vector of one element is left over as a whole. -/
theorem cosine_reads_twice :
    ¬∀ (isa : Isa) (sqrt : ℚ → ℚ) (a b : List ℚ), a.length = b.length →
      ReadsOnce (isa.innerProduct a b) (innerProductScalarFallback a b)
          a.length ∧
        ReadsOnce (isa.euclideanDistance sqrt a b)
          (euclideanDistanceScalarFallback sqrt a b) a.length ∧
        ReadsOnce (isa.cosineSimilarity sqrt a b)
          (cosineSimilarityScalarFallback sqrt a b) a.length := by
  intro once
  obtain ⟨-, -, reads, ran, leftOnce, -⟩ := once .neon id [0] [0] rfl
  have twice := ran.symm.trans
    (cosineSimilarityWith_run .neon id (a := [0]) (b := [0]) rfl)
  cases twice
  exact absurd leftOnce.length_eq (by decide)

end RedVector.Kernels
