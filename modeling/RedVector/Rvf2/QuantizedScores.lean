import RedVector.Quantization.Sq8Quantizer
import RedVector.Rvf2.DecodedMaxSim
import RedVector.Util.Rows

/-!
# Scores of what is encoded

What the encoder returns has the layout that the decoder and the scorers read.
The scores agree exactly if the number of blocks can be computed and the
product of the scorer stays inside the codes.
-/

namespace RedVector.Rvf2

open Kernels Quantization Util

namespace Sq8Codec

section

variable [Platform] [HalfPlatform] {codec : Sq8Codec} {vectors : List ℚ}
  {dims nVectors block : Nat}

/-- The components of the vectors of a block. -/
def members (codec : Sq8Codec) (vectors : List ℚ) (dims nVectors block : Nat) :
    List ℚ :=
  (vectors.drop (block * codec.blockSize * dims)).take
    ((min (block * codec.blockSize + codec.blockSize) nVectors -
      block * codec.blockSize) * dims)

omit [Platform] [HalfPlatform] in
/-- The vectors of the first blocks, one after the other. -/
theorem members_flatMap (positive : 0 < codec.blockSize) {count : Nat}
    (among : count ≤ codec.blocks nVectors) :
    (List.range count).flatMap (codec.members vectors dims nVectors) =
      vectors.take (min (count * codec.blockSize) nVectors * dims) := by
  induction count with
  | zero => simp
  | succ count ih =>
      have begins := block_start_lt positive among
      rw [List.range_succ, List.flatMap_append, ih (by omega),
        List.flatMap_singleton, Nat.min_eq_left begins.le]
      unfold members
      rw [← List.take_add, ← Nat.add_mul, Nat.succ_mul]
      congr 2
      omega

omit [Platform] [HalfPlatform] in
theorem length_blocks {α : Type} (positive : 0 < codec.blockSize)
    (whole : nVectors * dims ≤ vectors.length) (part : List ℚ → ℚ → α)
    {count : Nat} (among : count ≤ codec.blocks nVectors) :
    ((List.range count).flatMap fun block =>
        (codec.members vectors dims nVectors block).map
          (part (codec.members vectors dims nVectors block))).length =
      min (count * codec.blockSize) nVectors * dims := by
  have all := congrArg List.length
    (@members_flatMap codec vectors dims nVectors positive _ among)
  have short := Nat.mul_le_mul_right dims
    (Nat.min_le_right (count * codec.blockSize) nVectors)
  rw [List.length_flatMap, List.length_take,
    Nat.min_eq_left (short.trans whole)] at all
  rw [List.length_flatMap, ← all]
  simp only [List.length_map]

/-- The code of a component of a block. -/
def blockCode (members : List ℚ) (x : ℚ) : Int8 :=
  toCode (x * if 0 < computeBlockScale members then
    127 / computeBlockScale members else 0)

/-- The codes and the scale of the vectors of a block. -/
def encodedBlock (members : List ℚ) : Bytes × Bytes :=
  (members.map fun x => (blockCode members x).toUInt8,
    Rdb.lowBytes 2
      (HalfPlatform.f16FromF32 (computeBlockScale members)).toNat)

theorem encodeBlock_run (positive : 0 < codec.blockSize)
    (fits : nVectors + codec.blockSize ≤ usizeMax)
    (among : block < codec.blocks nVectors) :
    codec.encodeBlock vectors dims nVectors block =
      some (encodedBlock (codec.members vectors dims nVectors block)) := by
  unfold encodeBlock
  rw [blockBounds_run (block_start_lt positive among) fits]
  rfl

omit [Platform] [HalfPlatform] in
/-- What is done with every component of the first blocks and with its place is
done in every block. -/
theorem mapIdx_blocks {α β : Type} (positive : 0 < codec.blockSize)
    (whole : nVectors * dims ≤ vectors.length) (part : List ℚ → ℚ → α)
    (read : Nat → α → β) {count : Nat}
    (among : count ≤ codec.blocks nVectors) :
    ((List.range count).flatMap fun block =>
        (codec.members vectors dims nVectors block).map
          (part (codec.members vectors dims nVectors block))).mapIdx
        (fun place => read (place / dims / codec.blockSize)) =
      (List.range count).flatMap fun block =>
        (codec.members vectors dims nVectors block).map fun x =>
          read block (part (codec.members vectors dims nVectors block) x) := by
  induction count with
  | zero => rfl
  | succ count ih =>
      have begins := block_start_lt positive among
      rw [List.range_succ, List.flatMap_append, List.flatMap_append,
        List.mapIdx_append, ih (by omega),
        length_blocks positive whole part (by omega),
        Nat.min_eq_left begins.le, List.flatMap_singleton,
        List.flatMap_singleton]
      refine congrArg _ (List.mapIdx_eq_iff.mpr fun place => ?_)
      rw [List.getElem?_map, List.getElem?_map, Option.map_map]
      cases found : (codec.members vectors dims nVectors count)[place]? with
      | none => rfl
      | some x =>
          have inside := (List.getElem?_eq_some_iff.mp found).1.trans_le
            (List.length_take_le _ _)
          have wide : place < dims * codec.blockSize := by
            rw [Nat.mul_comm]
            exact inside.trans_le (Nat.mul_le_mul_right dims (by omega))
          have own : (place + count * codec.blockSize * dims) / dims /
              codec.blockSize = count := by
            rw [Nat.add_mul_div_right _ _ (Nat.pos_of_mul_pos_right
                (Nat.zero_lt_of_lt wide)),
              Nat.add_mul_div_right _ _ positive,
              Nat.div_eq_of_lt (Nat.div_lt_of_lt_mul wide), Nat.zero_add]
          exact congrArg (fun block => some (read block _)) own.symm

omit [Platform] [HalfPlatform] in
theorem scales_at {encoded : EncodedVectors}
    (inside : block < encoded.aux.length / 2) :
    encoded.scales[block]? = some (.ofNat
      (Rdb.littleEndian ((encoded.aux.drop (block * 2)).take 2))) := by
  unfold EncodedVectors.scales
  rw [List.getElem?_map, List.getElem?_range inside]
  rfl

omit [Platform] [HalfPlatform] in
theorem ofNat_lowBytes (value : UInt16) :
    UInt16.ofNat (Rdb.littleEndian (Rdb.lowBytes 2 value.toNat)) = value := by
  have read := Rdb.littleEndian_lowBytes 2 value.toNat
  have fits := value.toNat_lt
  have same : Rdb.littleEndian (Rdb.lowBytes 2 value.toNat) = value.toNat := by
    omega
  rw [same, UInt16.ofNat_toNat]

/-- What is encoded is laid out in blocks, each with the codes and the scale of
the vectors that it holds. -/
theorem encode_laid (positive : 0 < codec.blockSize)
    (fits : vectors.length / dims + codec.blockSize ≤ usizeMax)
    {encoded : EncodedVectors}
    (made : codec.encode vectors dims = some encoded) :
    encoded.nVectors = vectors.length / dims ∧ encoded.dims = dims ∧
      codec.Laid encoded ∧
      (encoded.codes = (List.range (codec.blocks encoded.nVectors)).flatMap
        fun block => (encodedBlock
          (codec.members vectors dims encoded.nVectors block)).1) ∧
        ∀ block < codec.blocks encoded.nVectors, encoded.scales[block]? =
          some (HalfPlatform.f16FromF32 (computeBlockScale
            (codec.members vectors dims encoded.nVectors block))) := by
  have two : ∀ block ∈ List.range (codec.blocks (vectors.length / dims)),
      (encodedBlock (codec.members vectors dims (vectors.length / dims)
        block)).2.length = 2 := fun block _ => Rdb.lowBytes_length _ _
  unfold encode at made
  split at made
  · cases made
  · dsimp only at made
    rw [Option.bind_eq_bind, numBlocks_run positive fits,
      Option.bind_some, mapM_of_forall fun block member =>
        encodeBlock_run positive fits (List.mem_range.mp member),
      Option.bind_eq_bind, Option.bind_some] at made
    split at made
    · cases made
      refine ⟨rfl, rfl, ⟨?_, ?_⟩, List.flatMap_map .., ?_⟩
      · dsimp only
        rw [List.flatMap_map]
        refine (length_blocks positive (Nat.div_mul_le_self _ _)
          (fun members x => (blockCode members x).toUInt8)
          (Nat.le_refl _)).trans ?_
        rw [Nat.min_eq_right (blocks_cover positive)]
      · dsimp only
        rw [List.flatMap_map, length_rows two, List.length_range]
      · intro block among
        have found :
            (List.range (codec.blocks (vectors.length / dims)))[block]? =
              some block := List.getElem?_range among
        dsimp only
        rw [scales_at]
        · dsimp only
          rw [List.flatMap_map, row_at two found]
          exact congrArg some (ofNat_lowBytes _)
        · dsimp only
          rw [List.flatMap_map, length_rows two, List.length_range,
            Nat.mul_div_cancel _ (by decide)]
          exact among
    · cases made

/-! ### Reading back what was encoded -/

/-- The scale of a block in half precision. -/
def storedScale (members : List ℚ) : ℚ :=
  HalfPlatform.f16ToF32 (HalfPlatform.f16FromF32 (computeBlockScale members))

def readBack (members : List ℚ) (x : ℚ) : ℚ :=
  codeValue (blockCode members x) * (storedScale members / 127)

omit [Platform] in
/-- A component is off by half a step and by what half precision makes of the
scale. -/
theorem readBack_close {members : List ℚ} {x : ℚ} (member : x ∈ members) :
    |readBack members x - x| ≤ computeBlockScale members / 254 +
      |storedScale members - computeBlockScale members| := by
  have within : |x| ≤ computeBlockScale members := by
    have held := List.mem_map_of_mem (f := abs) member
    unfold computeBlockScale
    rw [List.foldl_max_eq_max (List.ne_nil_of_mem held)]
    exact (List.le_max_of_mem held).trans (le_max_right _ _)
  unfold readBack blockCode
  generalize computeBlockScale members = scale at within ⊢
  by_cases positive : 0 < scale
  · rw [if_pos positive]
    have small : |x * (127 / scale)| ≤ 127 := by
      rw [abs_mul, abs_of_pos (by positivity : 0 < 127 / scale), mul_div,
        div_le_iff₀ positive, mul_comm]
      gcongr
    have close := toCode_close small
    have code : |codeValue (toCode (x * (127 / scale)))| ≤ 127 := by
      have range := toCode_range (x * (127 / scale))
      unfold codeValue
      exact_mod_cast abs_le.mpr range
    generalize codeValue (toCode (x * (127 / scale))) = y at close code ⊢
    have apart : y * (storedScale members / 127) - x =
        (y - x * (127 / scale)) * (scale / 127) +
          y / 127 * (storedScale members - scale) := by
      field_simp
      ring
    rw [apart]
    refine (abs_add_le _ _).trans (add_le_add ?_ ?_)
    · rw [abs_mul, abs_of_pos (by positivity : 0 < scale / 127)]
      nlinarith
    · rw [abs_mul]
      refine mul_le_of_le_one_left (abs_nonneg _) ?_
      rw [abs_div, abs_of_pos (by norm_num : (0 : ℚ) < 127)]
      exact (div_le_one (by norm_num)).mpr code
  · have nothing : scale = 0 :=
      le_antisymm (not_lt.mp positive) ((abs_nonneg x).trans within)
    rw [nothing] at within
    have zero : codeValue (toCode 0) = 0 := by decide +kernel
    rw [if_neg positive, abs_nonpos_iff.mp within, mul_zero, zero, nothing,
      zero_mul, sub_zero, abs_zero, zero_div, zero_add]
    exact abs_nonneg _

/-- What was encoded is decoded: the vectors in their order, without what is
not a whole vector, every component with the scale of its block. -/
theorem encode_read_back (positive : 0 < codec.blockSize)
    (fits : vectors.length / dims + codec.blockSize ≤ usizeMax)
    {encoded : EncodedVectors}
    (made : codec.encode vectors dims = some encoded) {buffer : List ℚ}
    (sized : buffer.length = encoded.codes.length) :
    ((List.range (codec.blocks encoded.nVectors)).flatMap
        (codec.members vectors dims encoded.nVectors) =
      vectors.take (vectors.length / dims * dims)) ∧
      codec.decode encoded buffer = some (.ok
        ((List.range (codec.blocks encoded.nVectors)).flatMap fun block =>
          (codec.members vectors dims encoded.nVectors block).map
            (readBack (codec.members vectors dims encoded.nVectors block)))) ∧
      ∀ members : List ℚ, ∀ x ∈ members, |readBack members x - x| ≤
        computeBlockScale members / 254 +
          |storedScale members - computeBlockScale members| := by
  obtain ⟨count, wide, laid, codes, scales⟩ := encode_laid positive fits made
  refine ⟨?_, ?_, fun members x member => readBack_close member⟩
  · rw [members_flatMap positive (Nat.le_refl _), count,
      Nat.min_eq_right (blocks_cover positive)]
  · have turns := @mapIdx_blocks codec vectors dims _ _ _ positive
      (count ▸ Nat.div_mul_le_self vectors.length dims)
      (fun members => UInt8.toInt8 ∘ fun x => (blockCode members x).toUInt8)
      (fun block code =>
        codeValue code * Scorer.scaleAt encoded.scales block)
      _ (Nat.le_refl (codec.blocks encoded.nVectors))
    rw [decode_run laid sized positive (count ▸ fits)]
    refine congrArg (fun read => some (Except.ok read)) ?_
    unfold decoded EncodedVectors.codesI8
    simp only [wide, codes, List.map_flatMap, encodedBlock, List.map_map]
    refine turns.trans (List.flatMap_congr fun block among => ?_)
    unfold Scorer.scaleAt
    rw [scales block (List.mem_range.mp among)]
    rfl

end

/-- The number of blocks is computed exactly if its sum does not overflow. -/
theorem fits_of_numBlocks [platform : Platform]
    {codec : Sq8Codec} {nVectors blocks : Nat}
    (counted : @numBlocks (platform.built true) codec nVectors =
      some blocks) :
    nVectors + codec.blockSize ≤ usizeMax := by
  obtain ⟨sum, summed, -⟩ := Option.bind_eq_some_iff.mp counted
  have fits := (checked_usize summed).2.1
  omega

end Sq8Codec

namespace Scorer

variable [platform : Platform] [HalfPlatform] {scorer : Scorer}
  {codec : Sq8Codec} {encoded : EncodedVectors} {query buffer : List ℚ}

omit platform in
/-- Every patch is decoded with the scale of its block. -/
theorem slice_inBlock (positive : 0 < codec.blockSize)
    (laid : codec.Laid encoded) {block vector : Nat}
    (within : codec.InBlock encoded.nVectors block vector) :
    vector / codec.blockSize = block ∧ block < encoded.scales.length ∧
      slice (codec.decoded encoded) encoded.dims vector =
        (slice encoded.codesI8 encoded.dims vector).map fun code =>
          codeValue code * scaleAt encoded.scales block := by
  obtain ⟨after, before⟩ := within
  have own : vector / codec.blockSize = block :=
    Nat.div_eq_of_lt_le after (by rw [Nat.succ_mul]; omega)
  have among : block < codec.blocks encoded.nVectors := by
    rw [← own]
    exact Sq8Codec.div_lt_blocks positive (by omega)
  refine ⟨own, ?_, ?_⟩
  · unfold EncodedVectors.scales
    rw [List.length_map, List.length_range, laid.scales,
      Nat.mul_div_cancel _ (by decide)]
    exact among
  · rw [← own]
    exact slice_decoded codec encoded vector

end Scorer

section

attribute [local instance] Platform.integral HalfPlatform.finite

def twoPerBlock : Sq8Codec where
  blockSize := 2
  isWord := by decide

/-- Two whole vectors in one block and one in the next. -/
theorem encode_read_back_three :
    ∃ encoded, twoPerBlock.encode [1, 0, 1 / 2, -1, 1 / 64, 2] 2 =
        some encoded ∧
      ∃ output, twoPerBlock.decode encoded
        (.replicate encoded.codes.length 0) = some (.ok output) := by
  have made : (twoPerBlock.encode [1, 0, 1 / 2, -1, 1 / 64, 2] 2).isSome := by
    decide +kernel
  obtain ⟨encoded, made⟩ := Option.isSome_iff_exists.mp made
  exact ⟨encoded, made, _, (Sq8Codec.encode_read_back (by decide) (by decide)
    made List.length_replicate).2.1⟩

/-- Three vectors, of which the last one is alone in its block. -/
def threeEncoded : EncodedVectors where
  codes := [127, 0, 64, 129, 1, 127]
  aux := [0, 60, 0, 64]
  nVectors := 3
  dims := 2
  codesFit := by decide
  auxFit := by decide

/-- One vector of a length for which the registers are used. -/
def fourEncoded : EncodedVectors where
  codes := [127, 0, 64, 129]
  aux := [0, 60]
  nVectors := 1
  dims := 4
  codesFit := by decide
  auxFit := by decide

end

end RedVector.Rvf2
