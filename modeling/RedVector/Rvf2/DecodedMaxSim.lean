import RedVector.Rvf2.Products

/-!
# MaxSim on codes and on decoded patches

The decoder fills its buffer from the front, each patch with the scale of its
block, and a scale that is the factor of a product can be taken out of it.
-/

namespace RedVector.Rvf2

open Kernels Util

namespace EncodedVectors

/-- The codes as the scorers take them. -/
def codesI8 (encoded : EncodedVectors) : List Int8 :=
  encoded.codes.map UInt8.toInt8

/-- The scales as the scorers take them, two bytes each. -/
def scales (encoded : EncodedVectors) : List UInt16 :=
  (List.range (encoded.aux.length / 2)).map fun block =>
    .ofNat (Rdb.littleEndian ((encoded.aux.drop (block * 2)).take 2))

end EncodedVectors

namespace Sq8Codec

/-- So many blocks hold so many vectors, the last one maybe in part. -/
def blocks (codec : Sq8Codec) (nVectors : Nat) : Nat :=
  (nVectors + codec.blockSize - 1) / codec.blockSize

/-- The layout of what is encoded. -/
structure Laid (codec : Sq8Codec) (encoded : EncodedVectors) : Prop where
  codes : encoded.codes.length = encoded.nVectors * encoded.dims
  scales : encoded.aux.length = codec.blocks encoded.nVectors * 2

/-- A vector is encoded with a block. -/
def InBlock (codec : Sq8Codec) (nVectors block vector : Nat) : Prop :=
  block * codec.blockSize ≤ vector ∧
    vector < min (block * codec.blockSize + codec.blockSize) nVectors

variable {codec : Sq8Codec} {encoded : EncodedVectors} {nVectors : Nat}

theorem div_lt_blocks {vector : Nat} (positive : 0 < codec.blockSize)
    (among : vector < nVectors) :
    vector / codec.blockSize < codec.blocks nVectors := by
  unfold blocks
  have below := Nat.div_mul_le_self vector codec.blockSize
  refine (Nat.le_div_iff_mul_le positive).mpr ?_
  rw [Nat.add_one_mul]
  omega

theorem block_start_lt {block : Nat} (positive : 0 < codec.blockSize)
    (among : block < codec.blocks nVectors) :
    block * codec.blockSize < nVectors := by
  have reaches := (Nat.le_div_iff_mul_le positive).mp (Nat.succ_le_of_lt among)
  rw [Nat.succ_mul] at reaches
  omega

theorem blocks_cover (positive : 0 < codec.blockSize) :
    nVectors ≤ codec.blocks nVectors * codec.blockSize := by
  have whole := Nat.div_add_mod' (nVectors + codec.blockSize - 1)
    codec.blockSize
  have rest := Nat.mod_lt (nVectors + codec.blockSize - 1) positive
  unfold blocks
  omega

/-! The blocks, as they are counted and as their bounds are computed. -/

section Bounds

variable [Platform]

theorem numBlocks_run (positive : 0 < codec.blockSize)
    (fits : nVectors + codec.blockSize ≤ usizeMax) :
    codec.numBlocks nVectors = some (codec.blocks nVectors) := by
  have sum : usize (nVectors + codec.blockSize : Nat) =
      some (nVectors + codec.blockSize) := usize_of rfl fits
  have below : usize (((nVectors + codec.blockSize : Nat) : Int) - 1) =
      some (nVectors + codec.blockSize - 1) :=
    usize_of (by omega) (by omega)
  unfold numBlocks
  rw [sum, Option.bind_eq_bind, Option.bind_some, below, Option.bind_some,
    if_neg (by omega)]
  rfl

theorem blockBounds_run {block : Nat}
    (begins : block * codec.blockSize < nVectors)
    (fits : nVectors + codec.blockSize ≤ usizeMax) :
    codec.blockBounds nVectors block =
      some (block * codec.blockSize,
        min (block * codec.blockSize + codec.blockSize) nVectors) := by
  have start : usize (block * codec.blockSize : Nat) =
      some (block * codec.blockSize) := usize_of rfl (by omega)
  have stop : usize (block * codec.blockSize + codec.blockSize : Nat) =
      some (block * codec.blockSize + codec.blockSize) :=
    usize_of rfl (by omega)
  unfold blockBounds
  rw [start, Option.bind_eq_bind, Option.bind_some, stop]
  rfl

end Bounds

section Decoding

variable [HalfPlatform]

/-- The decoder and the scorers take the same scale. -/
theorem blockScale_eq {block : Nat} (inside : block < encoded.scales.length) :
    (blockScale encoded.aux block).map (· / 127) =
      some (Scorer.scaleAt encoded.scales block) := by
  have pairs : block * 2 + 1 < encoded.aux.length := by
    unfold EncodedVectors.scales at inside
    rw [List.length_map, List.length_range] at inside
    omega
  have two : (encoded.aux.drop (block * 2)).take 2 =
      [encoded.aux[block * 2], encoded.aux[block * 2 + 1]] := by
    rw [List.drop_eq_getElem_cons (by omega),
      List.drop_eq_getElem_cons (by omega)]
    rfl
  have scale : encoded.scales[block] = .ofNat (Rdb.littleEndian
      [encoded.aux[block * 2], encoded.aux[block * 2 + 1]]) := by
    rw [← two]
    simp [EncodedVectors.scales]
  unfold blockScale Scorer.scaleAt
  rw [List.getElem?_eq_getElem inside, scale,
    List.getElem?_eq_getElem (by omega), List.getElem?_eq_getElem pairs]
  rfl

/-- What is decoded: every code with the scale of its block. -/
def decoded (codec : Sq8Codec) (encoded : EncodedVectors) : List ℚ :=
  encoded.codesI8.mapIdx fun place code => codeValue code *
    Scorer.scaleAt encoded.scales (place / encoded.dims / codec.blockSize)

theorem decoded_length (codec : Sq8Codec) (encoded : EncodedVectors) :
    (codec.decoded encoded).length = encoded.codes.length := by
  unfold decoded EncodedVectors.codesI8
  rw [List.length_mapIdx, List.length_map]

theorem decoded_at (codec : Sq8Codec) (encoded : EncodedVectors)
    (place : Nat) :
    (codec.decoded encoded)[place]? = (encoded.codes[place]?).map fun code =>
      codeValue code.toInt8 * Scorer.scaleAt encoded.scales
        (place / encoded.dims / codec.blockSize) := by
  unfold decoded EncodedVectors.codesI8
  rw [List.getElem?_mapIdx, List.getElem?_map, Option.map_map]
  rfl

variable {buffer : List ℚ} (laid : codec.Laid encoded)
  (sized : buffer.length = encoded.codes.length)

include laid sized

theorem decodeComponent_run {vector d : Nat}
    (among : vector < encoded.nVectors) (below : d < encoded.dims) :
    decodeComponent encoded
        (Scorer.scaleAt encoded.scales (vector / codec.blockSize)) vector
        (filled (codec.decoded encoded) buffer (vector * encoded.dims + d)) d =
      some (filled (codec.decoded encoded) buffer
        (vector * encoded.dims + (d + 1))) := by
  have inside : vector * encoded.dims + d < encoded.codes.length := by
    have rows := Nat.mul_le_mul_right encoded.dims (Nat.succ_le_of_lt among)
    rw [Nat.succ_mul] at rows
    rw [laid.codes]
    omega
  have row : (vector * encoded.dims + d) / encoded.dims = vector := by
    rw [Nat.mul_comm, Nat.mul_add_div (by omega), Nat.div_eq_of_lt below,
      Nat.add_zero]
  have value := decoded_at codec encoded (vector * encoded.dims + d)
  rw [List.getElem?_eq_getElem inside, row] at value
  unfold decodeComponent
  rw [List.getElem?_eq_getElem inside]
  refine store_filled ?_ value
  rw [decoded_length, sized]

theorem decodeVector_run {vector : Nat} (among : vector < encoded.nVectors) :
    decodeVector encoded
        (Scorer.scaleAt encoded.scales (vector / codec.blockSize))
        (filled (codec.decoded encoded) buffer (vector * encoded.dims)) vector =
      some (filled (codec.decoded encoded) buffer
        ((vector + 1) * encoded.dims)) := by
  have runs := foldlM_stages
    (fun d => filled (codec.decoded encoded) buffer
      (vector * encoded.dims + d))
    fun d _ below => decodeComponent_run laid sized among
      (Nat.lt_of_lt_of_eq below (Nat.zero_add _))
  rw [Nat.zero_add, Nat.add_zero] at runs
  rw [Nat.succ_mul]
  unfold decodeVector
  rw [List.range_eq_range']
  exact runs

variable [Platform] (positive : 0 < codec.blockSize)
  (fits : encoded.nVectors + codec.blockSize ≤ usizeMax)

include positive fits

theorem decodeBlock_run {block : Nat}
    (among : block < codec.blocks encoded.nVectors) :
    codec.decodeBlock encoded (filled (codec.decoded encoded) buffer
        (min (block * codec.blockSize) encoded.nVectors * encoded.dims))
        block =
      some (filled (codec.decoded encoded) buffer
        (min ((block + 1) * codec.blockSize) encoded.nVectors *
          encoded.dims)) := by
  have begins := block_start_lt positive among
  have bounds := blockBounds_run begins fits
  have inside : block < encoded.scales.length := by
    unfold EncodedVectors.scales
    rw [List.length_map, List.length_range, laid.scales,
      Nat.mul_div_cancel _ (by decide)]
    exact among
  obtain ⟨scale, isScale, factor⟩ :=
    Option.map_eq_some_iff.mp (blockScale_eq inside)
  have count : block * codec.blockSize + (min (block * codec.blockSize +
      codec.blockSize) encoded.nVectors - block * codec.blockSize) =
        min (block * codec.blockSize + codec.blockSize) encoded.nVectors := by
    omega
  have turns : ∀ vector, block * codec.blockSize ≤ vector →
      vector < block * codec.blockSize + (min (block * codec.blockSize +
        codec.blockSize) encoded.nVectors - block * codec.blockSize) →
      decodeVector encoded (scale / 127)
          (filled (codec.decoded encoded) buffer (vector * encoded.dims))
          vector =
        some (filled (codec.decoded encoded) buffer
          ((vector + 1) * encoded.dims)) := by
    intro vector after before
    have own : vector / codec.blockSize = block :=
      Nat.div_eq_of_lt_le after (by rw [Nat.succ_mul]; omega)
    rw [factor, ← own]
    exact decodeVector_run laid sized (by omega)
  have runs := foldlM_stages (fun vector =>
    filled (codec.decoded encoded) buffer (vector * encoded.dims)) turns
  rw [count] at runs
  rw [Nat.min_eq_left begins.le, Nat.succ_mul]
  unfold decodeBlock
  rw [isScale, Option.bind_eq_bind, Option.bind_some, bounds]
  exact runs

theorem decode_run :
    codec.decode encoded buffer = some (.ok (codec.decoded encoded)) := by
  have needed : usize (encoded.nVectors * encoded.dims : Nat) =
      some (encoded.nVectors * encoded.dims) := by
    have bounded := encoded.codesFit
    rw [laid.codes] at bounded
    exact usize_of rfl (by unfold usizeMax; omega)
  have enough : ¬buffer.length < encoded.nVectors * encoded.dims := by
    rw [sized, laid.codes]
    exact Nat.lt_irrefl _
  have runs := foldlM_stages (fun block =>
      filled (codec.decoded encoded) buffer
        (min (block * codec.blockSize) encoded.nVectors * encoded.dims))
    fun block _ before => decodeBlock_run laid sized positive fits
      (Nat.lt_of_lt_of_eq before (Nat.zero_add _))
  have complete : filled (codec.decoded encoded) buffer
      (encoded.nVectors * encoded.dims) = codec.decoded encoded := by
    rw [← laid.codes, ← decoded_length codec encoded]
    exact filled_length (by rw [decoded_length, sized])
  rw [Nat.zero_add, Nat.zero_mul, Nat.zero_min, Nat.zero_mul, filled_zero,
    Nat.min_eq_right (blocks_cover positive), complete] at runs
  unfold decode
  rw [needed, Option.bind_eq_bind, Option.bind_some, if_neg enough,
    numBlocks_run positive fits, Option.bind_some,
    List.range_eq_range', runs]
  rfl

end Decoding

end Sq8Codec

/-! ## Both ways of scoring -/

namespace Scorer

theorem maxSim_congr {nPatches : Nat} {sim other : Nat → Option ℚ}
    (same : ∀ patch < nPatches, sim patch = other patch) :
    maxSim nPatches sim = maxSim nPatches other :=
  foldlM_congr (fun patch isPatch _ => congrArg (Option.bind · _)
    (same patch (List.mem_range.mp isPatch))) _

theorem total_congr {nTokens nPatches : Nat}
    {sim other : Nat → Nat → Option ℚ}
    (same : ∀ token < nTokens, ∀ patch < nPatches,
      sim token patch = other token patch) :
    total nTokens nPatches sim = total nTokens nPatches other :=
  foldlM_congr (fun token isToken _ => congrArg (Option.bind · _)
    (maxSim_congr (same token (List.mem_range.mp isToken)))) _

theorem isSome_bind_pure {α β : Type} {x : Option α} {f : α → β}
    (returns : x.isSome = true) :
    (do pure (f (← x)) : Option β).isSome = true := by
  obtain ⟨a, rfl⟩ := Option.isSome_iff_exists.mp returns
  rfl

theorem maxSim_isSome {nPatches : Nat} {sim : Nat → Option ℚ}
    (returns : ∀ patch < nPatches, (sim patch).isSome = true) :
    (maxSim nPatches sim).isSome = true :=
  foldlM_isSome (fun patch isPatch _ => isSome_bind_pure
    (returns patch (List.mem_range.mp isPatch))) _

theorem total_isSome {nTokens nPatches : Nat} {sim : Nat → Nat → Option ℚ}
    (returns : ∀ token < nTokens, ∀ patch < nPatches,
      (sim token patch).isSome = true) :
    (total nTokens nPatches sim).isSome = true :=
  foldlM_isSome (fun token isToken _ => isSome_bind_pure
    (maxSim_isSome (returns token (List.mem_range.mp isToken)))) _

/-- A product that reads beyond the codes ends the scoring. -/
theorem total_none {nTokens nPatches : Nat} {sim : Nat → Nat → Option ℚ}
    (tokens : 0 < nTokens) (patches : 0 < nPatches)
    (fails : sim 0 (nPatches - 1) = none) :
    total nTokens nPatches sim = none := by
  have first : maxSim nPatches (sim 0) = none := by
    unfold maxSim
    rw [← Nat.sub_add_cancel patches, List.range_succ]
    refine foldlM_last_none ?_ _
    intro best
    exact congrArg (Option.bind · _) fails
  unfold total
  rw [← Nat.sub_add_cancel tokens, List.range_succ_eq_map, List.foldlM_cons,
    first]
  rfl

/-- A common factor of the codes is a factor of the product. -/
theorem sum_scaled (a : List ℚ) (codes : List Int8) (scale : ℚ) :
    (a.zipWith (fun x y => x * y)
        (codes.map fun code => codeValue code * scale)).sum =
      (a.zipWith (fun x y => x * codeValue y) codes).sum * scale := by
  have terms : a.zipWith (fun x y => x * (codeValue y * scale)) codes =
      (a.zipWith (fun x y => x * codeValue y) codes).map (· * scale) := by
    rw [List.map_zipWith]
    congr 1
    funext x y
    exact (mul_assoc _ _ _).symm
  rw [List.zipWith_map_right, terms]
  have product := List.sum_map_mul_right
    (a.zipWith (fun x y => x * codeValue y) codes) id scale
  rw [List.map_id] at product
  exact product

variable [HalfPlatform] {codec : Sq8Codec} {encoded : EncodedVectors}

theorem slice_decoded (codec : Sq8Codec) (encoded : EncodedVectors)
    (vector : Nat) :
    slice (codec.decoded encoded) encoded.dims vector =
      (slice encoded.codesI8 encoded.dims vector).map fun code =>
        codeValue code *
          scaleAt encoded.scales (vector / codec.blockSize) := by
  apply List.ext_getElem?
  intro d
  unfold slice
  rw [List.getElem?_take, List.getElem?_map, List.getElem?_take]
  split
  · rename_i below
    have row : (vector * encoded.dims + d) / encoded.dims = vector := by
      rw [Nat.mul_comm, Nat.mul_add_div (by omega), Nat.div_eq_of_lt below,
        Nat.add_zero]
    rw [List.getElem?_drop, List.getElem?_drop, Sq8Codec.decoded_at, row]
    unfold EncodedVectors.codesI8
    rw [List.getElem?_map, Option.map_map]
    rfl
  · rfl

/-- Both products of a token and a patch. -/
theorem sims_agree {scorer : Scorer}
    (exact : scorer.products.Exact encoded.dims)
    (laid : codec.Laid encoded) {query : List ℚ} {token vector : Nat}
    (isToken : token < query.length / encoded.dims)
    (among : vector < encoded.nVectors) :
    ∃ product, scorer.products.dotCodes (slice query encoded.dims token)
        encoded.codesI8 (vector * encoded.dims) = some product ∧
      scorer.products.dot (slice query encoded.dims token)
          (slice (codec.decoded encoded) encoded.dims vector) =
        some (product * scaleAt encoded.scales (vector / codec.blockSize)) := by
  have tokenFits : token * encoded.dims + encoded.dims ≤ query.length := by
    have rows := (Nat.mul_le_mul_right encoded.dims
      (Nat.succ_le_of_lt isToken)).trans (Nat.div_mul_le_self _ _)
    rw [Nat.succ_mul] at rows
    exact rows
  have vectorFits : vector * encoded.dims + encoded.dims ≤
      encoded.codesI8.length := by
    have rows := Nat.mul_le_mul_right encoded.dims (Nat.succ_le_of_lt among)
    rw [Nat.succ_mul] at rows
    unfold EncodedVectors.codesI8
    rw [List.length_map, laid.codes]
    exact rows
  have scaled : ((slice encoded.codesI8 encoded.dims vector).map fun code =>
      codeValue code *
        scaleAt encoded.scales (vector / codec.blockSize)).length =
        encoded.dims := by
    rw [List.length_map]
    exact length_slice vectorFits
  refine ⟨_, exact.dotCodes_eq _ _ _ (length_slice tokenFits) vectorFits, ?_⟩
  rw [slice_decoded codec encoded vector]
  refine (exact.dot_eq _ _ (length_slice tokenFits) scaled).trans ?_
  rw [sum_scaled]
  rfl

/-- Codes and decoded patches score alike, and every patch has the scale of
the block that it was encoded with. -/
def Agrees [Platform] (scorer : Scorer) (codec : Sq8Codec)
    (encoded : EncodedVectors) (query buffer : List ℚ) : Prop :=
  ∀ checks, ∃ output score,
    @Sq8Codec.decode (.built checks) _ codec encoded buffer =
        some (.ok output) ∧
      scorer.compute encoded.dims query output = some score ∧
      scorer.computeSq8 encoded.dims query encoded.codesI8 encoded.scales
        codec.blockSize = some score ∧
      ∀ block vector, codec.InBlock encoded.nVectors block vector →
        vector / codec.blockSize = block ∧ block < encoded.scales.length ∧
          slice output encoded.dims vector =
            (slice encoded.codesI8 encoded.dims vector).map fun code =>
              codeValue code * scaleAt encoded.scales block

/-- Where the product of a scorer stays inside the codes. -/
def StaysInside (scorer : Scorer) (encoded : EncodedVectors)
    (query : List ℚ) : Prop :=
  scorer = .simd .aarch64 → 4 ≤ encoded.dims →
    query.length < encoded.dims ∨ encoded.nVectors = 0

omit [HalfPlatform] in
theorem products_exact (scorer : Scorer) {dims : Nat}
    (short : scorer = .simd .aarch64 → dims < 4) :
    scorer.products.Exact dims := by
  cases scorer with
  | scalar => exact scalarProducts_exact dims
  | simd target =>
      cases target with
      | x86 avx2 fma => exact x86_exact avx2 fma dims
      | aarch64 => exact neon_exact (short rfl)
      | other => exact scalarProducts_exact dims

/-- The scores agree where the products do, or where there is nothing to
multiply. -/
theorem scores_agree {scorer : Scorer} {query : List ℚ}
    (some : 0 < encoded.dims) (positive : 0 < codec.blockSize)
    (laid : codec.Laid encoded) (inside : scorer.StaysInside encoded query) :
    ∃ score, scorer.compute encoded.dims query (codec.decoded encoded) =
        Option.some score ∧
      scorer.computeSq8 encoded.dims query encoded.codesI8 encoded.scales
        codec.blockSize = Option.some score := by
  have patches : (codec.decoded encoded).length / encoded.dims =
      encoded.nVectors := by
    rw [Sq8Codec.decoded_length, laid.codes, Nat.mul_div_cancel _ some]
  have codes : encoded.codesI8.length / encoded.dims = encoded.nVectors := by
    unfold EncodedVectors.codesI8
    rw [List.length_map, laid.codes, Nat.mul_div_cancel _ some]
  have sims : ∀ token < query.length / encoded.dims,
      ∀ vector < encoded.nVectors, ∃ product,
        scorer.products.dotCodes (slice query encoded.dims token)
          encoded.codesI8 (vector * encoded.dims) = Option.some product ∧
        scorer.products.dot (slice query encoded.dims token)
            (slice (codec.decoded encoded) encoded.dims vector) =
          Option.some (product *
            scaleAt encoded.scales (vector / codec.blockSize)) := by
    intro token isToken vector among
    refine sims_agree (products_exact scorer fun isNeon => ?_) laid isToken
      among
    by_contra long
    rcases inside isNeon (Nat.le_of_not_lt long) with short | none
    · rw [Nat.div_eq_of_lt short] at isToken
      exact Nat.not_lt_zero _ isToken
    · rw [none] at among
      exact Nat.not_lt_zero _ among
  have returns : ∀ token < query.length / encoded.dims,
      ∀ vector < encoded.nVectors,
        (scorer.products.dot (slice query encoded.dims token)
          (slice (codec.decoded encoded) encoded.dims vector)).isSome =
            true := by
    intro token isToken vector among
    obtain ⟨product, -, decoded⟩ := sims token isToken vector among
    rw [decoded]
    rfl
  obtain ⟨score, computed⟩ :=
    Option.isSome_iff_exists.mp (total_isSome returns)
  refine ⟨score, ?_, ?_⟩
  · unfold compute
    rw [if_neg (Nat.pos_iff_ne_zero.mp some), patches]
    exact computed
  · unfold computeSq8
    rw [if_neg (Nat.pos_iff_ne_zero.mp some), codes, ← computed]
    apply total_congr
    intro token isToken vector among
    obtain ⟨product, ofCodes, decoded⟩ := sims token isToken vector among
    rw [if_neg (Nat.pos_iff_ne_zero.mp positive), ofCodes, decoded]
    rfl

/-- The last turn of the product with the last patch reads beyond the codes. -/
theorem computeSq8_neon_none {query : List ℚ} (long : 4 ≤ encoded.dims)
    (positive : 0 < codec.blockSize) (laid : codec.Laid encoded)
    (tokens : encoded.dims ≤ query.length) (vectors : 0 < encoded.nVectors) :
    (simd .aarch64).computeSq8 encoded.dims query encoded.codesI8
      encoded.scales codec.blockSize = none := by
  have some : 0 < encoded.dims := by omega
  have length : encoded.codesI8.length = encoded.nVectors * encoded.dims := by
    unfold EncodedVectors.codesI8
    rw [List.length_map, laid.codes]
  have token : (slice query encoded.dims 0).length = encoded.dims :=
    length_slice (by omega)
  have last : (encoded.nVectors - 1) * encoded.dims +
      (slice query encoded.dims 0).length = encoded.codesI8.length := by
    rw [token, length, Nat.sub_mul, Nat.one_mul]
    have one := Nat.le_mul_of_pos_left encoded.dims vectors
    omega
  unfold computeSq8
  rw [if_neg (Nat.pos_iff_ne_zero.mp some), length,
    Nat.mul_div_cancel _ some]
  apply total_none (Nat.div_pos tokens some) vectors
  rw [if_neg (Nat.pos_iff_ne_zero.mp positive)]
  exact congrArg (Option.bind · _) (neon_beyond (by omega) last)

end Scorer

end RedVector.Rvf2
