import Mathlib.Data.Rat.Floor
import RedVector.Util.Registers

/-!
# Metrics over vector registers

`simd_metrics` with single-precision numbers taken as exact and the square root
as any function.  The kernels of the four instruction sets differ in their
lanes, in how they multiply and add, and in how they sum up a register.
-/

namespace RedVector.Kernels

open Util

abbrev Lanes (lanes : Nat) := Register ℚ lanes

/-! ## Instructions -/

section Instructions

variable {lanes : Nat}

/-- `_mm512_setzero_ps` and its siblings. -/
def setzeroPs : Lanes lanes := fun _ => 0

def addPs (a b : Lanes lanes) : Lanes lanes := fun lane => a lane + b lane

def subPs (a b : Lanes lanes) : Lanes lanes := fun lane => a lane - b lane

def mulPs (a b : Lanes lanes) : Lanes lanes := fun lane => a lane * b lane

def fmaddPs (a b c : Lanes lanes) : Lanes lanes :=
  fun lane => a lane * b lane + c lane

/-- `vfmaq_f32`, whose accumulator comes first. -/
def vfmaqF32 (a b c : Lanes lanes) : Lanes lanes :=
  fun lane => a lane + b lane * c lane

def reduceAddPs (v : Lanes lanes) : ℚ := (List.ofFn v).sum

/-- `_mm256_extractf128_ps` of the upper half. -/
def extractf128Ps (v : Lanes 8) : Lanes 4 := ![v 4, v 5, v 6, v 7]

def castps256Ps128 (v : Lanes 8) : Lanes 4 := ![v 0, v 1, v 2, v 3]

def movehdupPs (v : Lanes 4) : Lanes 4 := ![v 1, v 1, v 3, v 3]

def movehlPs (a b : Lanes 4) : Lanes 4 := ![b 2, b 3, a 2, a 3]

/-- `_mm_shuffle_ps` of one vector that moves its second lane down. -/
def shuffleSecond (v : Lanes 4) : Lanes 4 := ![v 1, v 0, v 0, v 0]

def addSs (a b : Lanes 4) : Lanes 4 := ![a 0 + b 0, a 1, a 2, a 3]

def cvtssF32 (v : Lanes 4) : ℚ := v 0

end Instructions

def horizontalSumAvx (v : Lanes 8) : ℚ :=
  let high := extractf128Ps v
  let low := castps256Ps128 v
  let sum128 := addPs high low
  let shuf := movehdupPs sum128
  let sums := addPs sum128 shuf
  let shuf := movehlPs sums sums
  let sums := addSs sums shuf
  cvtssF32 sums

def horizontalSumSse (v : Lanes 4) : ℚ :=
  let shuf := movehdupPs v
  let sums := addPs v shuf
  let shuf := movehlPs sums sums
  let sums := addSs sums shuf
  cvtssF32 sums

theorem horizontalSumAvx_eq (v : Lanes 8) :
    horizontalSumAvx v = ∑ lane, v lane := by
  rw [Fin.sum_univ_eight]
  simp [horizontalSumAvx, extractf128Ps, castps256Ps128, addPs, movehdupPs,
    movehlPs, addSs, cvtssF32]
  ring

theorem horizontalSumSse_eq (v : Lanes 4) :
    horizontalSumSse v = ∑ lane, v lane := by
  rw [Fin.sum_univ_four]
  simp [horizontalSumSse, addPs, movehdupPs, movehlPs, addSs, cvtssF32]
  ring

theorem fmaddPs_eq (a b sum : Lanes lanes) (lane : Fin lanes) :
    fmaddPs a b sum lane = sum lane + a lane * b lane :=
  add_comm _ _

/-- What the kernels of an instruction set have of their own. -/
structure InstructionSet where
  lanes : Nat
  /-- Adds the product of two registers to an accumulator. -/
  multiplyAdd : Lanes lanes → Lanes lanes → Lanes lanes → Lanes lanes
  horizontalSum : Lanes lanes → ℚ
  multiplyAdd_eq : ∀ a b sum lane,
    multiplyAdd a b sum lane = sum lane + a lane * b lane
  horizontalSum_eq : ∀ v, horizontalSum v = ∑ lane, v lane

namespace InstructionSet

def avx512 : InstructionSet where
  lanes := 16
  multiplyAdd := fmaddPs
  horizontalSum := reduceAddPs
  multiplyAdd_eq := fmaddPs_eq
  horizontalSum_eq _ := List.sum_ofFn

def avx2 : InstructionSet where
  lanes := 8
  multiplyAdd := fmaddPs
  horizontalSum := horizontalSumAvx
  multiplyAdd_eq := fmaddPs_eq
  horizontalSum_eq := horizontalSumAvx_eq

def sse : InstructionSet where
  lanes := 4
  multiplyAdd a b sum := addPs (mulPs a b) sum
  horizontalSum := horizontalSumSse
  multiplyAdd_eq _ _ _ _ := add_comm _ _
  horizontalSum_eq := horizontalSumSse_eq

/-- The sum is `vaddvq_f32`. -/
def neon : InstructionSet where
  lanes := 4
  multiplyAdd a b sum := vfmaqF32 sum a b
  horizontalSum := reduceAddPs
  multiplyAdd_eq _ _ _ _ := rfl
  horizontalSum_eq _ := List.sum_ofFn

end InstructionSet

/-! ## The kernels -/

/-- The sums of a cosine similarity. -/
structure Norms (α : Type) where
  dot : α
  normASq : α
  normBSq : α

/-- What a cosine similarity makes of its sums. -/
def cosineOf (sqrt : ℚ → ℚ) (sums : Norms ℚ) : ℚ :=
  let normA := sqrt sums.normASq
  let normB := sqrt sums.normBSq
  if normA = 0 ∨ normB = 0 then 0 else sums.dot / (normA * normB)

section Kernels

variable (isa : InstructionSet) (sqrt : ℚ → ℚ)

def innerProductWith (a b : List ℚ) : Kernel ℚ := do
  let chunks := a.length / isa.lanes
  let dot ← chunkLoop isa.lanes a b
    (fun va vb dot => isa.multiplyAdd va vb dot) chunks setzeroPs
  let dotSum := isa.horizontalSum dot
  let (restA, restB) ← readBoth a b (chunks * isa.lanes)
  let dotRem := (restA.zipWith (fun x y => x * y) restB).sum
  pure (dotSum + dotRem)

def euclideanDistanceWith (a b : List ℚ) : Kernel ℚ := do
  let chunks := a.length / isa.lanes
  let sumSq ← chunkLoop isa.lanes a b
    (fun va vb sumSq =>
      let diff := subPs va vb
      isa.multiplyAdd diff diff sumSq) chunks setzeroPs
  let sumSqTotal := isa.horizontalSum sumSq
  let (restA, restB) ← readBoth a b (chunks * isa.lanes)
  let remainderSumSq := (restA.zipWith (fun x y => (x - y) ^ 2) restB).sum
  pure (sqrt (sumSqTotal + remainderSumSq))

/-- The remainder is read once for the product and once for the norms. -/
def cosineSimilarityWith (a b : List ℚ) : Kernel ℚ := do
  let chunks := a.length / isa.lanes
  let sums ← chunkLoop isa.lanes a b
    (fun va vb sums =>
      { dot := isa.multiplyAdd va vb sums.dot
        normASq := isa.multiplyAdd va va sums.normASq
        normBSq := isa.multiplyAdd vb vb sums.normBSq : Norms _ })
    chunks ⟨setzeroPs, setzeroPs, setzeroPs⟩
  let (restA, restB) ← readBoth a b (chunks * isa.lanes)
  let dotRem := (restA.zipWith (fun x y => x * y) restB).sum
  let (restA, restB) ← readBoth a b (chunks * isa.lanes)
  let normARemSq := (restA.map fun x => x * x).sum
  let normBRemSq := (restB.map fun x => x * x).sum
  pure (cosineOf sqrt
    { dot := isa.horizontalSum sums.dot + dotRem
      normASq := isa.horizontalSum sums.normASq + normARemSq
      normBSq := isa.horizontalSum sums.normBSq + normBRemSq })

end Kernels

def innerProductAvx512 := innerProductWith .avx512
def innerProductAvx2 := innerProductWith .avx2
def innerProductSse := innerProductWith .sse
def innerProductNeon := innerProductWith .neon

def euclideanDistanceAvx512 := euclideanDistanceWith .avx512
def euclideanDistanceAvx2 := euclideanDistanceWith .avx2
def euclideanDistanceSse := euclideanDistanceWith .sse
def euclideanDistanceNeon := euclideanDistanceWith .neon

def cosineSimilarityAvx512 := cosineSimilarityWith .avx512
def cosineSimilarityAvx2 := cosineSimilarityWith .avx2
def cosineSimilaritySse := cosineSimilarityWith .sse
def cosineSimilarityNeon := cosineSimilarityWith .neon

/-! ## The scalar fallbacks -/

def innerProductScalarFallback (a b : List ℚ) : ℚ :=
  (a.zipWith (fun x y => x * y) b).sum

def euclideanDistanceScalarFallback (sqrt : ℚ → ℚ) (a b : List ℚ) : ℚ :=
  sqrt (a.zipWith (fun x y => (x - y) ^ 2) b).sum

def cosineSimilarityScalarFallback (sqrt : ℚ → ℚ) (a b : List ℚ) : ℚ :=
  cosineOf sqrt
    { dot := (a.zipWith (fun x y => x * y) b).sum
      normASq := (a.map fun x => x * x).sum
      normBSq := (b.map fun x => x * x).sum }

/-! ## The dispatch -/

/-- The target of a build and what a processor of it is detected to have. -/
inductive Target where
  | x86 (avx512f avx2 sse41 : Bool)
  | aarch64
  | other

/-- The kernel that is chosen of those for the four instruction sets and the
fallback; lengths that differ panic. -/
def Target.dispatch (target : Target) (avx512 avx2 sse neon : List ℚ →
    List ℚ → Kernel ℚ) (scalar : List ℚ → List ℚ → ℚ) (a b : List ℚ) :
    Option ℚ :=
  if a.length ≠ b.length then none
  else
    let run (kernel : List ℚ → List ℚ → Kernel ℚ) :=
      (kernel a b .none).map Prod.fst
    match target with
    | .x86 true _ _ => run avx512
    | .x86 false true _ => run avx2
    | .x86 false false true => run sse
    | .x86 false false false => some (scalar a b)
    | .aarch64 => run neon
    | .other => some (scalar a b)

def innerProductSimd (target : Target) (a b : List ℚ) : Option ℚ :=
  target.dispatch innerProductAvx512 innerProductAvx2 innerProductSse
    innerProductNeon innerProductScalarFallback a b

def euclideanDistanceSimd (target : Target) (sqrt : ℚ → ℚ) (a b : List ℚ) :
    Option ℚ :=
  target.dispatch (euclideanDistanceAvx512 sqrt) (euclideanDistanceAvx2 sqrt)
    (euclideanDistanceSse sqrt) (euclideanDistanceNeon sqrt)
    (euclideanDistanceScalarFallback sqrt) a b

def cosineSimilaritySimd (target : Target) (sqrt : ℚ → ℚ) (a b : List ℚ) :
    Option ℚ :=
  target.dispatch (cosineSimilarityAvx512 sqrt) (cosineSimilarityAvx2 sqrt)
    (cosineSimilaritySse sqrt) (cosineSimilarityNeon sqrt)
    (cosineSimilarityScalarFallback sqrt) a b

/-!
## Single precision taken as exact

Rounding and the casts between numbers and codes of one byte.
-/

/-- `f32::round`, which takes half-way cases away from zero. -/
def roundAway (x : ℚ) : ℤ :=
  if 0 ≤ x then ⌊x + 1 / 2⌋ else ⌈x - 1 / 2⌉

/-- `x.round().clamp(-127.0, 127.0) as i8`. -/
def toCode (x : ℚ) : Int8 :=
  .ofInt (max (-127) (min (roundAway x) 127))

/-- `code as f32`. -/
def codeValue (code : Int8) : ℚ := code.toInt

end RedVector.Kernels
