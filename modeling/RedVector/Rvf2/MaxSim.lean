import Mathlib.Data.Int.Log
import RedVector.Kernels.SimdMetrics
import RedVector.Util.Loops
import RedVector.Value.Rdb

/-!
# The SQ8 codec

Vectors are quantized in blocks that share a scale, which is stored in half
precision.  Single precision is taken as exact, and half precision is what the
`half` crate makes of it.
-/

namespace RedVector.Rvf2

open Kernels Util

/-- `f16::to_f32` and `f16::from_f32`, by the bits of the number. -/
class HalfPlatform where
  f16ToF32 : UInt16 → ℚ
  f16FromF32 : ℚ → UInt16

namespace HalfPlatform

/-- The value of the bits of a finite number. -/
def toF32 (bits : UInt16) : ℚ :=
  let exponent := bits.toNat / 1024 % 32
  let fraction : ℚ := (bits.toNat % 1024 : Nat)
  let magnitude := if exponent = 0 then fraction / 2 ^ 24
    else (1024 + fraction) * 2 ^ exponent / 2 ^ 25
  if bits.toNat < 32768 then magnitude else -magnitude

/-- Rounds half-way cases to the even neighbour. -/
def roundEven (x : ℚ) : ℤ :=
  if x - ⌊x⌋ < 1 / 2 then ⌊x⌋
  else if 1 / 2 < x - ⌊x⌋ then ⌊x⌋ + 1
  else ⌊x⌋ + ⌊x⌋ % 2

/-- The bits of the closest number, of which those from 2¹⁶ on are infinity. -/
def fromF32 (x : ℚ) : UInt16 :=
  let exponent := max (Int.log 2 |x|) (-14)
  let significand := roundEven (|x| * 2 ^ (10 - exponent))
  let magnitude := min ((exponent + 14) * 1024 + significand) 31744
  .ofNat (magnitude.toNat + if x < 0 then 32768 else 0)

/-- Half precision on finite numbers. -/
@[reducible] def finite : HalfPlatform where
  f16ToF32 := toF32
  f16FromF32 := fromF32

end HalfPlatform

/-- A vector has no more bytes than `isize::MAX`. -/
structure EncodedVectors where
  codes : Bytes
  aux : Bytes
  nVectors : Nat
  dims : Nat
  codesFit : codes.length ≤ 9223372036854775807
  auxFit : aux.length ≤ 9223372036854775807

structure Sq8Codec where
  blockSize : Nat
  isWord : blockSize ≤ usizeMax

namespace Sq8Codec

/-- The largest absolute value of a block. -/
def computeBlockScale (vectors : List ℚ) : ℚ :=
  (vectors.map abs).foldl max 0

variable [Platform] [HalfPlatform]

/-- How many blocks so many vectors make; a division by zero panics. -/
def numBlocks (codec : Sq8Codec) (nVectors : Nat) : Option Nat := do
  let sum ← usize (nVectors + codec.blockSize : Nat)
  let below ← usize ((sum : Int) - 1)
  if codec.blockSize = 0 then none else pure (below / codec.blockSize)

/-- The first vector of a block and the one behind its last one. -/
def blockBounds (codec : Sq8Codec) (nVectors block : Nat) :
    Option (Nat × Nat) := do
  let start ← usize (block * codec.blockSize : Nat)
  let stop ← usize (start + codec.blockSize : Nat)
  pure (start, min stop nVectors)

/-! ## Encoding -/

/-- The codes and the scale of a block. -/
def encodeBlock (codec : Sq8Codec) (vectors : List ℚ) (dims nVectors : Nat)
    (block : Nat) : Option (Bytes × Bytes) := do
  let (start, stop) ← codec.blockBounds nVectors block
  let members := (vectors.drop (start * dims)).take ((stop - start) * dims)
  let scale := computeBlockScale members
  let scaleF16 := HalfPlatform.f16FromF32 scale
  let invScale := if 0 < scale then 127 / scale else 0
  pure (members.map fun v => (toCode (v * invScale)).toUInt8,
    Rdb.lowBytes 2 scaleF16.toNat)

/-- A vector that would have more bytes than there can be panics. -/
def encode (codec : Sq8Codec) (vectors : List ℚ) (dims : Nat) :
    Option EncodedVectors := do
  if dims = 0 then none
  else do
    let nVectors := vectors.length / dims
    let blocks ← codec.numBlocks nVectors
    let parts ← (List.range blocks).mapM
      (codec.encodeBlock vectors dims nVectors)
    let codes := parts.flatMap Prod.fst
    let aux := parts.flatMap Prod.snd
    if fits : codes.length ≤ 9223372036854775807 ∧
        aux.length ≤ 9223372036854775807 then
      pure
        { codes := codes
          aux := aux
          nVectors := nVectors
          dims := dims
          codesFit := fits.1
          auxFit := fits.2 }
    else none

/-! ## Decoding -/

/-- The scale of a block; an index behind the end panics. -/
def blockScale (aux : Bytes) (block : Nat) : Option ℚ := do
  let low ← aux[block * 2]?
  let high ← aux[block * 2 + 1]?
  pure (HalfPlatform.f16ToF32 (.ofNat (Rdb.littleEndian [low, high])))

omit [Platform] [HalfPlatform] in
def decodeComponent (encoded : EncodedVectors) (scaleFactor : ℚ)
    (vector : Nat) (output : List ℚ) (d : Nat) : Option (List ℚ) := do
  let code ← encoded.codes[vector * encoded.dims + d]?
  store output (vector * encoded.dims + d)
    (codeValue code.toInt8 * scaleFactor)

omit [Platform] [HalfPlatform] in
def decodeVector (encoded : EncodedVectors) (scaleFactor : ℚ)
    (output : List ℚ) (vector : Nat) : Option (List ℚ) :=
  (List.range encoded.dims).foldlM
    (decodeComponent encoded scaleFactor vector) output

def decodeBlock (codec : Sq8Codec) (encoded : EncodedVectors)
    (output : List ℚ) (block : Nat) : Option (List ℚ) := do
  let scale ← blockScale encoded.aux block
  let scaleFactor := scale / 127
  let (start, stop) ← codec.blockBounds encoded.nVectors block
  (List.range' start (stop - start)).foldlM
    (decodeVector encoded scaleFactor) output

/-- Decodes into a buffer; the error is the text of `Rvf2Error::Codec`. -/
def decode (codec : Sq8Codec) (encoded : EncodedVectors) (output : List ℚ) :
    Option (Except Bytes (List ℚ)) := do
  let needed ← usize (encoded.nVectors * encoded.dims : Nat)
  if output.length < needed then
    pure (.error (text "Output buffer too small"))
  else do
    let blocks ← codec.numBlocks encoded.nVectors
    let output ← (List.range blocks).foldlM (codec.decodeBlock encoded) output
    pure (.ok output)

end Sq8Codec

/-!
## MaxSim

The sum over the query tokens of the largest similarity with a patch.  The two
scorers differ in their products, which the vectorized one computes as the
target has instructions for them.
-/

/-! ## Products -/

/-- A horizontal sum whose last step is a shuffle. -/
def horizontalSumShuffled (v : Lanes 8) : ℚ :=
  let sum128 := addPs (castps256Ps128 v) (extractf128Ps v)
  let sum64 := addPs sum128 (movehlPs sum128 sum128)
  let sum32 := addSs sum64 (shuffleSecond sum64)
  cvtssF32 sum32

theorem horizontalSumShuffled_eq (v : Lanes 8) :
    horizontalSumShuffled v = ∑ lane, v lane := by
  rw [Fin.sum_univ_eight]
  simp [horizontalSumShuffled, extractf128Ps, castps256Ps128, addPs, movehlPs,
    shuffleSecond, addSs, cvtssF32]
  ring

/-- The instructions of `dot_f32_avx2_fma`. -/
def avx2Fma : InstructionSet where
  lanes := 8
  multiplyAdd := fmaddPs
  horizontalSum := horizontalSumShuffled
  multiplyAdd_eq := InstructionSet.avx2.multiplyAdd_eq
  horizontalSum_eq := horizontalSumShuffled_eq

/-- The instructions of `dot_f32_i8_avx2`. -/
def avx2Codes : InstructionSet where
  lanes := 8
  multiplyAdd a b sum := addPs sum (mulPs a b)
  horizontalSum := horizontalSumShuffled
  multiplyAdd_eq _ _ _ _ := rfl
  horizontalSum_eq := horizontalSumShuffled_eq

def remainderTurn {β : Type} (value : β → ℚ) (a : List ℚ) (b : List β)
    (result : ℚ) (i : Nat) : Option ℚ := do
  let x ← a[i]?
  let y ← b[i]?
  pure (result + x * value y)

/-- The remainder of a product, element by element. -/
def addRemainder {β : Type} (value : β → ℚ) (a : List ℚ) (b : List β)
    (start : Nat) (result : ℚ) : Option ℚ :=
  (List.range' start (a.length - start)).foldlM (remainderTurn value a b)
    result

/-- A product whose loop loads a register of both vectors in every turn. -/
def dotWith (isa : InstructionSet) {β : Type} (value : β → ℚ)
    (a : List ℚ) (b : List β) : Option ℚ := do
  let chunks := a.length / isa.lanes
  let (sum, _) ← chunkLoop isa.lanes a b
    (fun va vb sum => isa.multiplyAdd va (fun lane => value (vb lane)) sum)
    chunks setzeroPs .none
  addRemainder value a b (chunks * isa.lanes) (isa.horizontalSum sum)

def dotF32Avx2Fma : List ℚ → List ℚ → Option ℚ := dotWith avx2Fma id

def dotF32Neon : List ℚ → List ℚ → Option ℚ := dotWith .neon id

/-- The codes are widened to 16 bits, of which the lower eight are kept, then
to 32 bits and to numbers. -/
def dotF32I8Avx2 : List ℚ → List Int8 → Option ℚ :=
  dotWith avx2Codes fun code => (code.toInt16.toInt32.toInt : ℚ)

/-- A turn loads four numbers and eight codes, of which it takes the first
four. -/
def neonTurn (a : List ℚ) (codes : List Int8) (start : Nat) (sum : Lanes 4)
    (turn : Nat) : Kernel (Lanes 4) := do
  let offset := turn * 4
  let va ← load .left a 4 offset
  let vbI8 ← load .right codes 8 (start + offset)
  let vbF32 : Lanes 4 := fun lane =>
    ((vbI8 (lane.castLE (by decide))).toInt16.toInt32.toInt : ℚ)
  pure (vfmaqF32 sum va vbF32)

/-- The codes are a slice of a longer vector. -/
def dotF32I8Neon (a : List ℚ) (codes : List Int8) (start : Nat) :
    Option ℚ := do
  let chunks := a.length / 4
  let (sum, _) ←
    ((List.range chunks).foldlM (neonTurn a codes start) setzeroPs).run .none
  addRemainder codeValue a ((codes.drop start).take a.length) (chunks * 4)
    (reduceAddPs sum)

/-- The products of a scorer; the codes are a slice from a place on of a longer
vector. -/
structure Products where
  dot : List ℚ → List ℚ → Option ℚ
  dotCodes : List ℚ → List Int8 → Nat → Option ℚ

def scalarProducts : Products where
  dot a b := some (a.zipWith (fun x y => x * y) b).sum
  dotCodes a codes start := some
    (a.zipWith (fun x y => x * codeValue y)
      ((codes.drop start).take a.length)).sum

/-- What a build for a target has instructions for. -/
inductive SimdTarget where
  | x86 (avx2 fma : Bool)
  | aarch64
  | other

def SimdTarget.products : SimdTarget → Products
  | .x86 avx2 fma =>
    { dot := if avx2 && fma then dotF32Avx2Fma else scalarProducts.dot
      dotCodes := fun a codes start =>
        if avx2 then dotF32I8Avx2 a ((codes.drop start).take a.length)
        else scalarProducts.dotCodes a codes start }
  | .aarch64 => { dot := dotF32Neon, dotCodes := dotF32I8Neon }
  | .other => scalarProducts

/-! ## Scorers -/

/-- `MaxSimScorer` and `SimdMaxSimScorer`. -/
inductive Scorer where
  | scalar
  | simd (target : SimdTarget)

namespace Scorer

def products : Scorer → Products
  | .scalar => scalarProducts
  | .simd target => target.products

/-- The slice of a token or of a patch. -/
def slice {α : Type} (vectors : List α) (dims place : Nat) : List α :=
  (vectors.drop (place * dims)).take dims

/-- The largest similarity with a patch, which starts below all numbers. -/
def maxSim (nPatches : Nat) (sim : Nat → Option ℚ) : Option (WithBot ℚ) :=
  (List.range nPatches).foldlM (fun maxSim patch => do
    pure (max maxSim ((← sim patch : ℚ) : WithBot ℚ))) ⊥

def total (nTokens nPatches : Nat) (sim : Nat → Nat → Option ℚ) :
    Option (WithBot ℚ) :=
  (List.range nTokens).foldlM (fun total token => do
    pure (total + (← maxSim nPatches (sim token)))) 0

variable (scorer : Scorer) (dims : Nat)

def compute (query patches : List ℚ) : Option (WithBot ℚ) :=
  if dims = 0 then none
  else
    total (query.length / dims) (patches.length / dims) fun token patch =>
      scorer.products.dot (slice query dims token) (slice patches dims patch)

/-- The scale of a block; a missing one counts as one. -/
def scaleAt [HalfPlatform] (scales : List UInt16) (block : Nat) : ℚ :=
  ((scales[block]?).map HalfPlatform.f16ToF32).getD 1 / 127

def computeSq8 [HalfPlatform] (query : List ℚ) (codes : List Int8)
    (scales : List UInt16) (blockSize : Nat) : Option (WithBot ℚ) :=
  if dims = 0 then none
  else
    total (query.length / dims) (codes.length / dims) fun token patch => do
      if blockSize = 0 then none
      else do
        let scale := scaleAt scales (patch / blockSize)
        let product ← scorer.products.dotCodes (slice query dims token) codes
          (patch * dims)
        pure (product * scale)

end Scorer

end RedVector.Rvf2
