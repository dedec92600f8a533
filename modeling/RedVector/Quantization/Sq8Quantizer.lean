import RedVector.Kernels.SimdMetrics
import RedVector.Util.Bytes
import RedVector.Util.Loops
import RedVector.Util.Rows

/-!
# The SQ8 quantizer

Every dimension has a scale and an offset of its own.  Single precision is
taken as exact.
-/

namespace RedVector.Quantization

open Kernels Util

/-- The scale and the offset of a dimension. -/
structure Grid where
  scale : ℚ
  offset : ℚ
  positive : 0 < scale

namespace Grid

/-- The range of a dimension is mapped to the codes from -127 to 127. -/
def ofRange (min max : ℚ) : Grid :=
  if proper : 0 < max - min then
    { scale := (max - min) / 254
      offset := min + (max - min) / 2
      positive := div_pos proper (by norm_num) }
  else
    { scale := 1
      offset := min
      positive := one_pos }

def encode (grid : Grid) (v : ℚ) : Int8 :=
  toCode ((v - grid.offset) / grid.scale)

def decode (grid : Grid) (code : Int8) : ℚ :=
  codeValue code * grid.scale + grid.offset

end Grid

/-- The scales and the offsets are kept side by side. -/
structure Sq8Quantizer where
  dim : Nat
  grids : List Grid
  trained : Bool
  sized : grids.length = dim

namespace Sq8Quantizer

def new (dim : Nat) : Sq8Quantizer where
  dim := dim
  grids := List.replicate dim ⟨1, 0, one_pos⟩
  trained := false
  sized := List.length_replicate

theorem foldl_zipWith_length {f : ℚ → ℚ → ℚ} {rows : List (List ℚ)}
    {start : List ℚ} (same : ∀ row ∈ rows, row.length = start.length) :
    (rows.foldl (List.zipWith f) start).length = start.length := by
  induction rows generalizing start with
  | nil => rfl
  | cons row rest ih =>
      have kept : (start.zipWith f row).length = start.length := by
        rw [List.length_zipWith, same row List.mem_cons_self, Nat.min_self]
      rw [List.foldl_cons, ih fun other member =>
        (same other (List.mem_cons_of_mem _ member)).trans kept.symm, kept]

/-- The smallest and the largest value of every dimension, beginning with the
first vector instead of the infinities. -/
def train (quantizer : Sq8Quantizer) (vectors : List ℚ) :
    Option Sq8Quantizer :=
  if quantizer.dim = 0 then none
  else
    match rows : rowsOf quantizer.dim vectors with
    | [] => some quantizer
    | first :: rest =>
        let mins := rest.foldl (List.zipWith min) first
        let maxs := rest.foldl (List.zipWith max) first
        some
          { quantizer with
            grids := mins.zipWith Grid.ofRange maxs
            trained := true
            sized := by
              have wide : ∀ row ∈ first :: rest, row.length = quantizer.dim :=
                fun row member => length_of_mem_rowsOf (rows ▸ member)
              have same : ∀ row ∈ rest, row.length = first.length :=
                fun row member =>
                  (wide row (List.mem_cons_of_mem _ member)).trans
                    (wide first List.mem_cons_self).symm
              rw [List.length_zipWith, foldl_zipWith_length same,
                foldl_zipWith_length same, Nat.min_self]
              exact wide first List.mem_cons_self }

def encodeRow (quantizer : Sq8Quantizer) (row : List ℚ) : List Int8 :=
  row.zipWith (fun v grid => grid.encode v) quantizer.grids

def encode (quantizer : Sq8Quantizer) (vectors : List ℚ) :
    Option (List Int8) :=
  if quantizer.dim = 0 then none
  else some ((rowsOf quantizer.dim vectors).flatMap quantizer.encodeRow)

def decodeRow (quantizer : Sq8Quantizer) (row : List Int8) : List ℚ :=
  row.zipWith (fun code grid => grid.decode code) quantizer.grids

def decode (quantizer : Sq8Quantizer) (codes : List Int8) :
    Option (List ℚ) :=
  if quantizer.dim = 0 then none
  else some ((rowsOf quantizer.dim codes).flatMap quantizer.decodeRow)

/-- A loop over the dimensions; an index behind the end panics. -/
def computeL2Squared (quantizer : Sq8Quantizer) (query : List ℚ)
    (codes : List Int8) : Option ℚ :=
  (List.range quantizer.dim).foldlM (fun sumSq d => do
    let code ← codes[d]?
    let grid ← quantizer.grids[d]?
    let decoded := codeValue code * grid.scale + grid.offset
    let diff := (← query[d]?) - decoded
    pure (sumSq + diff * diff)) 0

def computeInnerProduct (quantizer : Sq8Quantizer) (query : List ℚ)
    (codes : List Int8) : Option ℚ :=
  (List.range quantizer.dim).foldlM (fun dot d => do
    let code ← codes[d]?
    let grid ← quantizer.grids[d]?
    let decoded := codeValue code * grid.scale + grid.offset
    pure (dot + (← query[d]?) * decoded)) 0

end Sq8Quantizer

/-! ## Inverted lists of codes -/

/-- The ids and the codes of an inverted list. -/
structure CodeList where
  ids : List UInt64
  codes : Bytes

namespace CodeList

/-- What `add` does with a vector of the cluster. -/
def addSq8 (list : CodeList) (quantizer : Sq8Quantizer) (id : UInt64)
    (vector : List ℚ) : Option CodeList := do
  let codes ← quantizer.encode vector
  pure
    { ids := list.ids ++ [id]
      codes := list.codes ++ codes.map Int8.toUInt8 }

/-- The codes of a vector as `search_cluster` takes them; a slice beyond the
end panics. -/
def codesI8 (list : CodeList) (dim place : Nat) : Option (List Int8) :=
  if (place + 1) * dim ≤ list.codes.length then
    some (((list.codes.drop (place * dim)).take dim).map UInt8.toInt8)
  else none

end CodeList

/-!
## The error of the SQ8 quantizer

Within the range that a dimension was trained on, rounding never meets the
clamp, and what is decoded is off by half a scale at most.
-/

/-! ## Rounding -/

theorem roundAway_close (x : ℚ) : |(roundAway x : ℚ) - x| ≤ 1 / 2 := by
  unfold roundAway
  rw [abs_le]
  split
  · have most := Int.floor_le (x + 1 / 2)
    have least := Int.lt_floor_add_one (x + 1 / 2)
    constructor
    · linarith
    · linarith
  · have least := Int.le_ceil (x - 1 / 2)
    have most := Int.ceil_lt_add_one (x - 1 / 2)
    constructor
    · linarith
    · linarith

/-- A number that is close to an integer is rounded to it. -/
theorem roundAway_int (n : ℤ) : roundAway n = n := by
  have close := abs_le.mp (roundAway_close n)
  have above : (roundAway n : ℚ) < (n : ℚ) + 1 := by linarith
  have below : (n : ℚ) < (roundAway n : ℚ) + 1 := by linarith
  have above : roundAway n < n + 1 := by exact_mod_cast above
  have below : n < roundAway n + 1 := by exact_mod_cast below
  omega

theorem roundAway_le {x : ℚ} {n : ℕ} (within : |x| ≤ n) :
    -(n : ℤ) ≤ roundAway x ∧ roundAway x ≤ n := by
  have close := abs_le.mp (roundAway_close x)
  have bounds := abs_le.mp within
  have above : (roundAway x : ℚ) < (n : ℚ) + 1 := by linarith
  have below : -(n : ℚ) - 1 < (roundAway x : ℚ) := by linarith
  have above : roundAway x < (n : ℤ) + 1 := by exact_mod_cast above
  have below : -(n : ℤ) - 1 < roundAway x := by exact_mod_cast below
  omega

theorem toCode_toInt (x : ℚ) :
    (toCode x).toInt = max (-127) (min (roundAway x) 127) :=
  Int8.toInt_ofInt_of_le (by omega) (by omega)

theorem toCode_range (x : ℚ) :
    -127 ≤ (toCode x).toInt ∧ (toCode x).toInt ≤ 127 := by
  rw [toCode_toInt]
  omega

/-- The clamp does nothing within the range of the codes. -/
theorem toCode_close {x : ℚ} (within : |x| ≤ 127) :
    |codeValue (toCode x) - x| ≤ 1 / 2 := by
  have bounds := roundAway_le (n := 127) within
  have same : (toCode x).toInt = roundAway x := by
    rw [toCode_toInt]
    omega
  unfold codeValue
  rw [same]
  exact roundAway_close x

theorem toCode_codeValue {code : Int8} (least : -127 ≤ code.toInt) :
    toCode (codeValue code) = code := by
  have most := code.toInt_lt
  apply Int8.toInt_inj.mp
  rw [toCode_toInt]
  unfold codeValue
  rw [roundAway_int]
  omega

/-! ## One dimension -/

namespace Grid

variable {grid : Grid}

theorem encode_decode {code : Int8} (least : -127 ≤ code.toInt) :
    grid.encode (grid.decode code) = code := by
  unfold encode decode
  rw [add_sub_cancel_right, mul_div_cancel_right₀ _ grid.positive.ne']
  exact toCode_codeValue least

/-- Half a scale for what is within 127 scales of the offset. -/
theorem decode_close {v : ℚ} (within : |v - grid.offset| ≤ 127 * grid.scale) :
    |grid.decode (grid.encode v) - v| ≤ grid.scale / 2 := by
  have positive := grid.positive
  have scaled : |(v - grid.offset) / grid.scale| ≤ 127 := by
    rw [abs_div, abs_of_pos positive, div_le_iff₀ positive]
    exact within
  have error : grid.decode (grid.encode v) - v =
      (codeValue (toCode ((v - grid.offset) / grid.scale)) -
        (v - grid.offset) / grid.scale) * grid.scale := by
    unfold decode encode
    rw [sub_mul, div_mul_cancel₀ _ positive.ne']
    ring
  rw [error, abs_mul, abs_of_pos positive]
  have close := mul_le_mul_of_nonneg_right (toCode_close scaled) positive.le
  linarith

/-- A trained range lies within 127 scales, also if it is a single point. -/
theorem within_ofRange {least most v : ℚ} (low : least ≤ v) (high : v ≤ most) :
    |v - (ofRange least most).offset| ≤ 127 * (ofRange least most).scale := by
  unfold ofRange
  rw [abs_le]
  split
  · dsimp only
    constructor
    · linarith
    · linarith
  · dsimp only
    constructor
    · linarith
    · linarith

end Grid

/-! ## Training -/

/-- A fold keeps on one side of all that it went over. -/
theorem foldl_zipWith_bound {f : ℚ → ℚ → ℚ} {bound : ℚ → ℚ → Prop}
    [IsPreorder ℚ bound] (left : ∀ a b, bound (f a b) a)
    (right : ∀ a b, bound (f a b) b) {rows : List (List ℚ)} {start : List ℚ}
    (same : ∀ row ∈ rows, row.length = start.length) {d : Nat} {best : ℚ}
    (found : (rows.foldl (List.zipWith f) start)[d]? = some best) :
    ∀ row ∈ start :: rows, ∀ x, row[d]? = some x → bound best x := by
  induction rows generalizing start with
  | nil =>
      intro row member x value
      cases List.mem_singleton.mp member
      rw [List.foldl_nil, value] at found
      cases found
      exact refl best
  | cons first rest ih =>
      have wide := same first List.mem_cons_self
      have kept : (start.zipWith f first).length = start.length := by
        rw [List.length_zipWith, wide, Nat.min_self]
      have others := ih (fun row member =>
        (same row (List.mem_cons_of_mem _ member)).trans kept.symm) found
      have both : ∀ a b, start[d]? = some a → first[d]? = some b →
          bound best (f a b) := by
        intro a b isA isB
        refine others _ List.mem_cons_self _ ?_
        rw [List.getElem?_zipWith, isA, isB]
      have inside : ∀ {row : List ℚ} {x : ℚ}, row.length = start.length →
          row[d]? = some x → d < start.length := by
        intro row x length value
        rw [← length]
        exact (List.getElem?_eq_some_iff.mp value).1
      intro row member x value
      rcases List.mem_cons.mp member with rfl | later
      · have among := inside rfl value
        exact IsTrans.trans _ _ _ (both x _ value
          (List.getElem?_eq_getElem (by rw [wide]; exact among))) (left _ _)
      · rcases List.mem_cons.mp later with rfl | rest
        · have among := inside wide value
          exact IsTrans.trans _ _ _
            (both _ x (List.getElem?_eq_getElem among) value) (right _ _)
        · exact others row (List.mem_cons_of_mem _ rest) x value

namespace Sq8Quantizer

variable {quantizer trained : Sq8Quantizer} {training : List ℚ}

/-- Every dimension has the range of its training values. -/
theorem train_run (quantizer : Sq8Quantizer)
    (nonempty : 0 < training.length / quantizer.dim) :
    ∃ trained, quantizer.train training = some trained ∧
      trained.dim = quantizer.dim ∧
        ∀ (d : Nat) (grid : Grid), trained.grids[d]? = some grid → ∃ least most,
          grid = .ofRange least most ∧
            ∀ row ∈ rowsOf quantizer.dim training, ∀ x, row[d]? = some x →
              least ≤ x ∧ x ≤ most := by
  have positive : quantizer.dim ≠ 0 := by
    rintro none
    rw [none, Nat.div_zero] at nonempty
    cases nonempty
  have wide : ∀ row ∈ rowsOf quantizer.dim training,
      row.length = quantizer.dim := fun row => length_of_mem_rowsOf
  have count := rowsOf_length quantizer.dim training
  unfold train
  rw [if_neg positive]
  split
  · rename_i none
    rw [none] at count
    rw [← count] at nonempty
    cases nonempty
  · rename_i first rest rows
    rw [rows] at wide
    have same : ∀ row ∈ rest, row.length = first.length :=
      fun row member => (wide row (List.mem_cons_of_mem _ member)).trans
        (wide first List.mem_cons_self).symm
    refine ⟨_, rfl, rfl, ?_⟩
    intro d grid found
    dsimp only at found
    rw [List.getElem?_zipWith_eq_some] at found
    obtain ⟨least, most, isLeast, isMost, rfl⟩ := found
    refine ⟨least, most, rfl, ?_⟩
    intro row member x value
    rw [rows] at member
    exact ⟨@foldl_zipWith_bound min (· ≤ ·) _ min_le_left min_le_right rest
        first same d least isLeast row member x value,
      @foldl_zipWith_bound max (· ≥ ·) _ le_max_left le_max_right rest first
        same d most isMost row member x value⟩

/-! ## Rows of codes -/

theorem encodeRow_length (quantizer : Sq8Quantizer) {row : List ℚ}
    (wide : row.length = quantizer.dim) :
    (quantizer.encodeRow row).length = quantizer.dim := by
  unfold encodeRow
  rw [List.length_zipWith, wide, quantizer.sized, Nat.min_self]

theorem decodeRow_length (quantizer : Sq8Quantizer) {row : List Int8}
    (wide : row.length = quantizer.dim) :
    (quantizer.decodeRow row).length = quantizer.dim := by
  unfold decodeRow
  rw [List.length_zipWith, wide, quantizer.sized, Nat.min_self]

theorem encodeRow_range {row : List ℚ} {code : Int8}
    (member : code ∈ quantizer.encodeRow row) :
    -127 ≤ code.toInt ∧ code.toInt ≤ 127 := by
  obtain ⟨d, found⟩ := List.mem_iff_getElem?.mp member
  unfold encodeRow at found
  rw [List.getElem?_zipWith_eq_some] at found
  obtain ⟨v, grid, -, -, rfl⟩ := found
  exact toCode_range _

/-- The codes of a row are encoded again as they are. -/
theorem encodeRow_decodeRow (quantizer : Sq8Quantizer) {row : List ℚ}
    (wide : row.length = quantizer.dim) :
    quantizer.encodeRow (quantizer.decodeRow (quantizer.encodeRow row)) =
      quantizer.encodeRow row := by
  apply List.ext_getElem?
  intro d
  by_cases inside : d < quantizer.dim
  · have value := List.getElem?_eq_getElem (l := row)
      (by rw [wide]; exact inside)
    have grid := List.getElem?_eq_getElem (l := quantizer.grids)
      (by rw [quantizer.sized]; exact inside)
    simp only [encodeRow, decodeRow, List.getElem?_zipWith, value, grid]
    exact congrArg some (Grid.encode_decode (toCode_range _).1)
  · have encoded := quantizer.encodeRow_length wide
    have decoded := quantizer.decodeRow_length encoded
    rw [List.getElem?_eq_none, List.getElem?_eq_none]
    · rw [encoded]
      omega
    · rw [quantizer.encodeRow_length decoded]
      omega

/-- The loop over the dimensions adds up the terms of what is decoded. -/
theorem loop_run {query : List ℚ} {codes : List Int8}
    (queried : query.length = quantizer.dim)
    (coded : codes.length = quantizer.dim) (term : ℚ → ℚ → ℚ) :
    (List.range quantizer.dim).foldlM (fun sum d => do
        let code ← codes[d]?
        let grid ← quantizer.grids[d]?
        let decoded := codeValue code * grid.scale + grid.offset
        pure (sum + term (← query[d]?) decoded)) 0 =
      some (query.zipWith term (quantizer.decodeRow codes)).sum := by
  have decoded := quantizer.decodeRow_length coded
  have length : (query.zipWith term (quantizer.decodeRow codes)).length =
      quantizer.dim := by
    rw [List.length_zipWith, queried, decoded, Nat.min_self]
  rw [← length]
  apply foldlM_sum
  intro d value sum found
  rw [List.getElem?_zipWith_eq_some] at found
  obtain ⟨x, y, isX, isY, rfl⟩ := found
  unfold decodeRow at isY
  rw [List.getElem?_zipWith_eq_some] at isY
  obtain ⟨code, grid, isCode, isGrid, rfl⟩ := isY
  rw [isCode, isGrid, isX]
  rfl

theorem computeL2Squared_run {query : List ℚ} {codes : List Int8}
    (queried : query.length = quantizer.dim)
    (coded : codes.length = quantizer.dim) :
    quantizer.computeL2Squared query codes =
      some (query.zipWith (fun x y => (x - y) * (x - y))
        (quantizer.decodeRow codes)).sum :=
  loop_run queried coded fun x y => (x - y) * (x - y)

theorem computeInnerProduct_run {query : List ℚ} {codes : List Int8}
    (queried : query.length = quantizer.dim)
    (coded : codes.length = quantizer.dim) :
    quantizer.computeInnerProduct query codes =
      some (query.zipWith (fun x y => x * y)
        (quantizer.decodeRow codes)).sum :=
  loop_run queried coded fun x y => x * y

/-! ## Vectors and lists -/

theorem encode_row (positive : 0 < quantizer.dim) {row : List ℚ}
    (wide : row.length = quantizer.dim) :
    quantizer.encode row = some (quantizer.encodeRow row) := by
  unfold encode
  rw [if_neg positive.ne', rowsOf_row positive wide, List.flatMap_singleton]

theorem decode_row (positive : 0 < quantizer.dim) {row : List Int8}
    (wide : row.length = quantizer.dim) :
    quantizer.decode row = some (quantizer.decodeRow row) := by
  unfold decode
  rw [if_neg positive.ne', rowsOf_row positive wide, List.flatMap_singleton]

/-- All codes that can be encoded are stable. -/
theorem encode_stable (positive : 0 < quantizer.dim) {vectors : List ℚ}
    {codes : List Int8} (encoded : quantizer.encode vectors = some codes) :
    ∃ decoded, quantizer.decode codes = some decoded ∧
      quantizer.encode decoded = some codes := by
  have wide : ∀ row ∈ rowsOf quantizer.dim vectors,
      row.length = quantizer.dim := fun row => length_of_mem_rowsOf
  have coded : ∀ row ∈ rowsOf quantizer.dim vectors,
      (quantizer.encodeRow row).length = quantizer.dim :=
    fun row member => quantizer.encodeRow_length (wide row member)
  have decoded : ∀ row ∈ rowsOf quantizer.dim vectors,
      (quantizer.decodeRow (quantizer.encodeRow row)).length =
        quantizer.dim :=
    fun row member => quantizer.decodeRow_length (coded row member)
  unfold encode at encoded
  rw [if_neg positive.ne'] at encoded
  cases encoded
  refine ⟨(rowsOf quantizer.dim vectors).flatMap fun row =>
    quantizer.decodeRow (quantizer.encodeRow row), ?_, ?_⟩
  · unfold decode
    rw [if_neg positive.ne', rowsOf_flatMap positive coded, List.flatMap_map]
  · unfold encode
    rw [if_neg positive.ne', rowsOf_flatMap positive decoded,
      List.flatMap_map]
    exact congrArg some (List.flatMap_congr fun row member =>
      quantizer.encodeRow_decodeRow (wide row member))

/-- The vectors of a cluster, added one after the other. -/
def stored (quantizer : Sq8Quantizer) (entries : List (UInt64 × List ℚ)) :
    Option CodeList :=
  entries.foldlM (fun list entry => list.addSq8 quantizer entry.1 entry.2)
    ⟨[], []⟩

theorem stored_run (positive : 0 < quantizer.dim)
    {entries : List (UInt64 × List ℚ)}
    (wide : ∀ entry ∈ entries, entry.2.length = quantizer.dim)
    (list : CodeList) :
    entries.foldlM
        (fun list entry => list.addSq8 quantizer entry.1 entry.2) list =
      some
        { ids := list.ids ++ entries.map Prod.fst
          codes := list.codes ++ entries.flatMap fun entry =>
            (quantizer.encodeRow entry.2).map Int8.toUInt8 } := by
  induction entries generalizing list with
  | nil =>
      rw [List.map_nil, List.flatMap_nil, List.append_nil, List.append_nil]
      rfl
  | cons entry rest ih =>
      have first : list.addSq8 quantizer entry.1 entry.2 = some
          { ids := list.ids ++ [entry.1]
            codes := list.codes ++
              (quantizer.encodeRow entry.2).map Int8.toUInt8 } := by
        unfold CodeList.addSq8
        rw [encode_row positive (wide entry List.mem_cons_self)]
        rfl
      rw [List.foldlM_cons, first, Option.bind_eq_bind, Option.bind_some,
        ih fun other member => wide other (List.mem_cons_of_mem _ member)]
      dsimp only
      rw [List.map_cons, List.flatMap_cons, List.append_assoc,
        List.append_assoc]
      rfl

/-- A vector of a list has the codes that it was encoded with. -/
theorem stored_codes (positive : 0 < quantizer.dim)
    {entries : List (UInt64 × List ℚ)}
    (wide : ∀ entry ∈ entries, entry.2.length = quantizer.dim) :
    ∃ list, quantizer.stored entries = some list ∧
      list.ids = entries.map Prod.fst ∧
        ∀ (place : Nat) (entry : UInt64 × List ℚ),
          entries[place]? = some entry →
            list.codesI8 quantizer.dim place = quantizer.encode entry.2 := by
  refine ⟨_, stored_run positive wide ⟨[], []⟩, rfl, ?_⟩
  intro place entry found
  have member := List.mem_of_getElem? found
  have bytes : ∀ entry ∈ entries,
      ((quantizer.encodeRow entry.2).map Int8.toUInt8).length =
        quantizer.dim := by
    intro other isEntry
    rw [List.length_map]
    exact quantizer.encodeRow_length (wide other isEntry)
  have inside : (place + 1) * quantizer.dim ≤
      (entries.flatMap fun entry =>
        (quantizer.encodeRow entry.2).map Int8.toUInt8).length := by
    rw [length_rows bytes]
    exact Nat.mul_le_mul_right _ (List.getElem?_eq_some_iff.mp found).1
  have back : UInt8.toInt8 ∘ Int8.toUInt8 = id :=
    funext Int8.toInt8_toUInt8
  unfold CodeList.codesI8
  dsimp only
  rw [List.nil_append, if_pos inside, row_at bytes found, List.map_map, back,
    List.map_id, encode_row positive (wide entry member)]

/-! ## The bound -/

/-- Every component lies between two values of its dimension in the training
set. -/
structure WithinTrained (dim : Nat) (training v : List ℚ) : Prop where
  length : v.length = dim
  low : ∀ (d : Nat) x, v[d]? = some x →
    ∃ row ∈ rowsOf dim training, ∃ least, row[d]? = some least ∧ least ≤ x
  high : ∀ (d : Nat) x, v[d]? = some x →
    ∃ row ∈ rowsOf dim training, ∃ most, row[d]? = some most ∧ x ≤ most

/-- What the codes of a vector are good for. -/
structure Approximates (quantizer : Sq8Quantizer) (v : List ℚ)
    (codes : List Int8) (decoded : List ℚ) : Prop where
  encoded : quantizer.encode v = some codes
  isDecoded : quantizer.decode codes = some decoded
  coded : codes.length = quantizer.dim
  sized : decoded.length = quantizer.dim
  range : ∀ code ∈ codes, -127 ≤ code.toInt ∧ code.toInt ≤ 127
  close : ∀ (d : Nat) x y (grid : Grid), v[d]? = some x →
    decoded[d]? = some y → quantizer.grids[d]? = some grid →
      |y - x| ≤ grid.scale / 2
  distance : ∀ query : List ℚ, query.length = quantizer.dim →
    quantizer.computeL2Squared query codes =
      some (query.zipWith (fun x y => (x - y) * (x - y)) decoded).sum
  product : ∀ query : List ℚ, query.length = quantizer.dim →
    quantizer.computeInnerProduct query codes =
      some (query.zipWith (fun x y => x * y) decoded).sum

/-- On every nonempty training set: the codes of the vectors within its range
are off by half a scale at most, codes are stable, and they survive being
stored as bytes. -/
theorem sq8_bound (quantizer : Sq8Quantizer) (training : List ℚ)
    (nonempty : 0 < training.length / quantizer.dim) :
    ∃ trained, quantizer.train training = some trained ∧
      (∀ v, WithinTrained quantizer.dim training v →
        ∃ codes decoded, trained.Approximates v codes decoded) ∧
      (∀ vectors codes, trained.encode vectors = some codes →
        ∃ decoded, trained.decode codes = some decoded ∧
          trained.encode decoded = some codes) ∧
      ∀ entries : List (UInt64 × List ℚ),
        (∀ entry ∈ entries, entry.2.length = quantizer.dim) →
          ∃ list, trained.stored entries = some list ∧
            list.ids = entries.map Prod.fst ∧
              ∀ (place : Nat) (entry : UInt64 × List ℚ),
                entries[place]? = some entry →
                  list.codesI8 quantizer.dim place =
                    trained.encode entry.2 := by
  obtain ⟨trained, trains, dims, ranges⟩ := train_run quantizer nonempty
  have positive : 0 < trained.dim := by
    rw [dims]
    refine Nat.pos_of_ne_zero fun none => ?_
    rw [none, Nat.div_zero] at nonempty
    cases nonempty
  rw [← dims]
  refine ⟨trained, trains, ?_, ?_, ?_⟩
  · intro v within
    have wide := within.length
    have coded := trained.encodeRow_length wide
    refine ⟨trained.encodeRow v, trained.decodeRow (trained.encodeRow v), ?_⟩
    exact
      { encoded := encode_row positive wide
        isDecoded := decode_row positive coded
        coded := coded
        sized := trained.decodeRow_length coded
        range := fun code => encodeRow_range
        close := by
          intro d x y grid isX isY isGrid
          obtain ⟨least, most, rfl, bounds⟩ := ranges d grid isGrid
          rw [← dims] at bounds
          obtain ⟨lowest, isLow, low, lowAt, below⟩ := within.low d x isX
          obtain ⟨highest, isHigh, high, highAt, above⟩ := within.high d x isX
          simp only [encodeRow, decodeRow, List.getElem?_zipWith, isX,
            isGrid] at isY
          cases isY
          exact Grid.decode_close (Grid.within_ofRange
            ((bounds lowest isLow low lowAt).1.trans below)
            (above.trans (bounds highest isHigh high highAt).2))
        distance := fun query queried => computeL2Squared_run queried coded
        product := fun query queried =>
          computeInnerProduct_run queried coded }
  · exact fun vectors codes => encode_stable positive
  · exact fun entries wide => stored_codes positive wide

/-- One dimension with a range and one without. -/
theorem sq8_bound_pair :
    ∃ trained, (new 2).train [1, 5, 3, 5] = some trained ∧
      ∃ codes decoded, trained.Approximates [2, 5] codes decoded := by
  obtain ⟨trained, trains, bound, -⟩ :=
    sq8_bound (new 2) [1, 5, 3, 5] (by decide)
  refine ⟨trained, trains, bound [2, 5] ?_⟩
  have rows : rowsOf (new 2).dim ([1, 5, 3, 5] : List ℚ) =
      [[1, 5], [3, 5]] := rfl
  refine ⟨rfl, ?_, ?_⟩
  · rintro (_ | _ | d) x found
    · cases found
      exact ⟨[1, 5], by rw [rows]; simp, 1, rfl, by norm_num⟩
    · cases found
      exact ⟨[1, 5], by rw [rows]; simp, 5, rfl, le_refl 5⟩
    · cases found
  · rintro (_ | _ | d) x found
    · cases found
      exact ⟨[3, 5], by rw [rows]; simp, 3, rfl, by norm_num⟩
    · cases found
      exact ⟨[3, 5], by rw [rows]; simp, 5, rfl, le_refl 5⟩
    · cases found

end Sq8Quantizer

end RedVector.Quantization
