import Mathlib.Tactic.LinearCombination
import Mathlib.Tactic.Positivity
import RedVector.Value.Dump

/-!
# Reading serialized values

A decoder for the format that DUMP writes, and what it reads back.  Every
string comes back as it was, except a text that spells a short integer in
another way than it is printed.
-/

namespace RedVector

open Util Codec

namespace Rdb

/-! ## Numbers -/

/-- The number whose bytes these are, from the lowest on. -/
def littleEndian (bytes : Bytes) : Nat :=
  bytes.foldr (fun byte high => byte.toNat + 256 * high) 0

/-- The same for a signed number. -/
def signed (bytes : Bytes) : Int :=
  (littleEndian bytes : Int).bmod (256 ^ bytes.length)

@[simp] theorem lowBytes_length (count : Nat) (value : Int) :
    (lowBytes count value).length = count := by
  simp [lowBytes]

theorem byteAt_succ (value : Int) (index : Nat) :
    byteAt value (index + 1) = byteAt (value / 256) index := by
  unfold byteAt
  rw [Int.pow_succ', Int.ediv_ediv_of_nonneg (by decide)]

theorem lowBytes_succ (count : Nat) (value : Int) :
    lowBytes (count + 1) value =
      byteAt value 0 :: lowBytes count (value / 256) := by
  unfold lowBytes
  rw [List.range_succ_eq_map, List.map_cons, List.map_map]
  congr 1
  apply List.map_congr_left
  intro index _
  exact byteAt_succ value index

theorem byteAt_zero (value : Int) :
    ((byteAt value 0).toNat : Int) = value % 256 := by
  unfold byteAt
  have positive := Int.emod_nonneg value (show (256 : Int) ≠ 0 by decide)
  have small := Int.emod_lt_of_pos value (show (0 : Int) < 256 by decide)
  rw [Int.pow_zero, Int.ediv_one]
  have same : (value % 256).toNat.toUInt8.toNat = (value % 256).toNat := by
    apply Nat.mod_eq_of_lt
    omega
  rw [same]
  omega

/-- The remainder by a product, one factor after the other. -/
theorem emod_step (value : Int) {modulus : Int} (positive : 0 < modulus) :
    value % (modulus * 256) =
      value % 256 + 256 * (value / 256 % modulus) := by
  have least := Int.emod_nonneg (value / 256) positive.ne'
  have most := Int.emod_lt_of_pos (value / 256) positive
  have whole := Int.mul_ediv_add_emod (value / 256) modulus
  have low := Int.mul_ediv_add_emod value 256
  have lowLeast := Int.emod_nonneg value (show (256 : Int) ≠ 0 by decide)
  have lowMost := Int.emod_lt_of_pos value (show (0 : Int) < 256 by decide)
  have both : value / (modulus * 256) = value / 256 / modulus ∧
      value % (modulus * 256) =
        value % 256 + 256 * (value / 256 % modulus) := by
    apply (Int.ediv_emod_unique (by omega)).mpr
    refine ⟨?_, ?_, ?_⟩
    · linear_combination low + 256 * whole
    · omega
    · omega
  exact both.2

/-- The low bytes stand for the number as far as they go. -/
theorem littleEndian_lowBytes (count : Nat) (value : Int) :
    (littleEndian (lowBytes count value) : Int) = value % 256 ^ count := by
  induction count generalizing value with
  | zero => simp [lowBytes, littleEndian]
  | succ count ih =>
      have others := ih (value / 256)
      have step : littleEndian (lowBytes (count + 1) value) =
          (byteAt value 0).toNat +
            256 * littleEndian (lowBytes count (value / 256)) := by
        rw [lowBytes_succ]
        rfl
      rw [step, Int.pow_succ, emod_step value (by positivity)]
      push_cast
      rw [others, byteAt_zero]

/-- A number that fits is read back from its bytes. -/
theorem signed_lowBytes
    {count : Nat} {value : Int}
    (least : -(256 ^ count / 2) ≤ value) (most : value < 256 ^ count / 2) :
    signed (lowBytes count value) = value := by
  unfold signed
  rw [littleEndian_lowBytes, lowBytes_length]
  have same := Int.emod_bmod value (256 ^ count)
  push_cast at same
  rw [same]
  apply Int.bmod_eq_of_le
  · push_cast
    exact least
  · push_cast
    omega

/-! ## Decoding -/

inductive Prefix where
  | length (len : Nat)
  | special (kind : UInt8)

/-- What the first bytes of a length or a string tell. -/
def readPrefix : Decoder UInt8 Prefix := do
  let first ← symbol
  let low := first &&& 63
  if first >>> 6 = bitlen6 then pure (.length low.toNat)
  else if first >>> 6 = bitlen14 then do
    let next ← symbol
    pure (.length (low.toNat * 256 + next.toNat))
  else if first >>> 6 = bitlen32 then do
    let bytes ← symbols 4
    pure (.length (littleEndian bytes.reverse))
  else pure (.special low)

def readLen : Decoder UInt8 Nat := do
  match ← readPrefix with
  | .length len => pure len
  | .special _ => ofOption none

/-- In how many bytes an integer of a kind is written. -/
def intWidth (kind : UInt8) : Option Nat :=
  if kind = encInt8 then some 1
  else if kind = encInt16 then some 2
  else if kind = encInt32 then some 4
  else none

def readString : Decoder UInt8 Bytes := do
  match ← readPrefix with
  | .length len => symbols len
  | .special kind => do
      let width ← ofOption (intWidth kind)
      let bytes ← symbols width
      pure (intToString (signed bytes))

/-- A string that is not an integer. -/
def readPlain : Decoder UInt8 Bytes := do
  let len ← readLen
  symbols len

/-! ## Prefixes and strings -/

/-- A length of six bits. -/
theorem prefix_short {len : Nat} (small : len < 2 ^ 6) :
    (byteAt len 0 ||| (bitlen6 <<< 6)) >>> 6 = bitlen6 ∧
      ((byteAt len 0 ||| (bitlen6 <<< 6)) &&& 63).toNat = len := by
  unfold byteAt
  interval_cases len
  all_goals decide

/-- The first byte of a length of fourteen bits. -/
theorem prefix_long {high : Nat} (small : high < 2 ^ 6) :
    (high.toUInt8 ||| (bitlen14 <<< 6)) >>> 6 = bitlen14 ∧
      ((high.toUInt8 ||| (bitlen14 <<< 6)) &&& 63).toNat = high := by
  interval_cases high
  all_goals decide

theorem htonl_eq (number : Nat) : htonl number = (lowBytes 4 number).reverse :=
  rfl

theorem reads_encodeLen
    {len : Nat} {bytes : Bytes} (encoded : encodeLen len = some bytes) :
    Reads readPrefix bytes (.length len) := by
  unfold encodeLen at encoded
  split at encoded
  · cases encoded
  rename_i fits
  split at encoded
  · rename_i small
    cases encoded
    obtain ⟨kind, low⟩ := prefix_short small
    refine reads_symbol_bind ?_
    rw [if_pos kind, low]
    exact reads_pure _
  split at encoded
  · rename_i large small
    cases encoded
    have isHigh : byteAt len 1 = (len / 256).toUInt8 := by
      unfold byteAt
      congr 1
      omega
    obtain ⟨kind, low⟩ := prefix_long (show len / 256 < 2 ^ 6 by omega)
    have next : (byteAt len 0).toNat = len % 256 := by
      have exact := byteAt_zero len
      omega
    refine reads_symbol_bind ?_
    rw [isHigh, kind, if_neg (by decide), if_pos rfl, low]
    refine reads_symbol_bind ?_
    rw [next, Nat.div_add_mod']
    exact reads_pure _
  · rename_i large
    cases encoded
    have four : (htonl len).length = 4 := rfl
    have isLen : littleEndian (htonl len).reverse = len := by
      have exact := littleEndian_lowBytes 4 len
      rw [htonl_eq, List.reverse_reverse]
      unfold u32Max at fits
      omega
    refine reads_symbol_bind ?_
    rw [if_neg (by decide), if_neg (by decide), if_pos (by decide), ← four]
    refine (reads_symbols _).ends ?_
    rw [isLen]
    exact reads_pure _

theorem reads_len
    {len : Nat} {bytes : Bytes} (encoded : encodeLen len = some bytes) :
    Reads readLen bytes len :=
  (reads_encodeLen encoded).ends (reads_pure len)

/-- A string behind its length. -/
theorem reads_plain
    {data bytes : Bytes} (encoded : encodeSlice data false = some bytes) :
    Reads readPlain bytes data ∧ Reads readString bytes data := by
  obtain ⟨len, length, rfl⟩ := Option.map_eq_some_iff.mp encoded
  constructor
  · exact (reads_len length).bind (reads_symbols data)
  · exact (reads_encodeLen length).bind (reads_symbols data)

/-- A short integer stands behind its kind, which tells how wide it is. -/
structure Special (kind : UInt8) (width : Nat) (value : Int) : Prop where
  special : ((encval <<< 6) ||| kind) >>> 6 = encval ∧
    ((encval <<< 6) ||| kind) &&& 63 = kind
  wide : intWidth kind = some width
  least : -(256 ^ width / 2) ≤ value
  most : value < 256 ^ width / 2

theorem encodeI64_special
    {value : Int} {bytes : Bytes} (encoded : encodeI64 value = some bytes) :
    ∃ kind width, Special kind width value ∧
      bytes = ((encval <<< 6) ||| kind) :: lowBytes width value := by
  unfold encodeI64 at encoded
  split at encoded
  · rename_i fits
    cases encoded
    exact ⟨encInt8, 1, ⟨by decide, rfl, by omega, by omega⟩, rfl⟩
  split at encoded
  · rename_i fits
    cases encoded
    exact ⟨encInt16, 2, ⟨by decide, rfl, by omega, by omega⟩, rfl⟩
  split at encoded
  · rename_i fits
    cases encoded
    exact ⟨encInt32, 4, ⟨by decide, rfl, by omega, by omega⟩, rfl⟩
  · cases encoded

namespace Special

variable {kind : UInt8} {width : Nat} {value : Int}

theorem reads_prefix (special : Special kind width value) :
    Reads readPrefix [(encval <<< 6) ||| kind] (.special kind) := by
  refine reads_symbol_bind ?_
  rw [special.special.1, special.special.2, if_neg (by decide),
    if_neg (by decide), if_neg (by decide)]
  exact reads_pure _

/-- The bytes behind the kind are those of the integer. -/
theorem reads_bytes
    {α : Type} (special : Special kind width value)
    (next : Int → Decoder UInt8 α) {result : α}
    (ends : Reads (next value) [] result) :
    Reads (do
        let width ← ofOption (intWidth kind)
        let bytes ← symbols width
        next (signed bytes))
      (lowBytes width value) result := by
  refine (reads_ofOption special.wide).bind ?_
  have taken := reads_symbols (lowBytes width value)
  rw [lowBytes_length] at taken
  refine taken.ends ?_
  rw [signed_lowBytes special.least special.most]
  exact ends

end Special

/-- An integer comes back as it is printed. -/
theorem reads_encodeI64
    {value : Int} {bytes : Bytes} (encoded : encodeI64 value = some bytes) :
    Reads readString bytes (intToString value) := by
  obtain ⟨kind, width, special, rfl⟩ := encodeI64_special encoded
  exact special.reads_prefix.bind (special.reads_bytes
    (fun number => pure (intToString number)) (reads_pure _))

/-- What a string comes back as. -/
def returned (data : Bytes) : Bytes :=
  if (shortcut data).isSome then ((parseI64 data).map intToString).getD data
  else data

theorem reads_slice
    {data bytes : Bytes} (encoded : encodeSlice data true = some bytes) :
    Reads readString bytes (returned data) := by
  unfold encodeSlice at encoded
  unfold returned
  cases short : shortcut data with
  | none =>
      rw [short] at encoded
      have plain : encodeSlice data false = some bytes := encoded
      exact (reads_plain plain).2
  | some integer =>
      rw [short] at encoded
      cases encoded
      unfold shortcut at short
      split at short
      · obtain ⟨number, parsed, written⟩ := Option.bind_eq_some_iff.mp short
        rw [parsed]
        exact reads_encodeI64 written
      · cases short

/-- What came back once is not changed any more. -/
theorem returned_returned (data : Bytes) :
    returned (returned data) = returned data := by
  unfold returned
  cases short : shortcut data with
  | none =>
      simp [short]
  | some integer =>
      unfold shortcut at short
      split at short
      · obtain ⟨number, parsed, written⟩ := Option.bind_eq_some_iff.mp short
        have fits : inI64 number = true :=
          (Option.filter_eq_some_iff.mp parsed).2
        simp only [Option.isSome_some, if_true, parsed, Option.map_some,
          Option.getD_some, parseI64_intToString fits, ite_self]
      · cases short

/-- A short text that spells an integer of 32 bits in another way than the
integer is printed. -/
def Disguised (data : Bytes) : Prop :=
  data.length ≤ 11 ∧ isUtf8 data = true ∧
    ∃ number, parseI64 data = some number ∧
      -2 ^ 31 ≤ number ∧ number < 2 ^ 31 ∧ intToString number ≠ data

theorem encodeI64_isSome (value : Int) :
    (encodeI64 value).isSome ↔ -2 ^ 31 ≤ value ∧ value < 2 ^ 31 := by
  unfold encodeI64
  split
  · simp only [Option.isSome_some, true_iff]
    omega
  split
  · simp only [Option.isSome_some, true_iff]
    omega
  split
  · rename_i fits
    exact iff_of_true rfl fits
  · rename_i large
    exact iff_of_false (by simp) large

theorem shortcut_isSome (data : Bytes) :
    (shortcut data).isSome ↔ data.length ≤ 11 ∧ isUtf8 data = true ∧
      ∃ number, parseI64 data = some number ∧
        -2 ^ 31 ≤ number ∧ number < 2 ^ 31 := by
  unfold shortcut
  split
  · rename_i short
    simp only [short, true_and, Option.isSome_bind, Option.any_eq_true,
      encodeI64_isSome]
  · rename_i long
    refine iff_of_false (by simp) ?_
    rintro ⟨few, utf8, -⟩
    exact long ⟨few, utf8⟩

/-- A string comes back as it was unless it is disguised. -/
theorem returned_iff (data : Bytes) :
    returned data = data ↔ ¬Disguised data := by
  have short := shortcut_isSome data
  unfold returned
  split
  · rename_i taken
    obtain ⟨few, utf8, number, parsed, least, most⟩ := short.mp taken
    rw [parsed]
    constructor
    · rintro same ⟨-, -, other, otherParsed, -, -, different⟩
      cases parsed.symm.trans otherParsed
      exact different same
    · intro plain
      by_contra different
      exact plain ⟨few, utf8, number, parsed, least, most, different⟩
  · rename_i kept
    refine iff_of_true rfl ?_
    rintro ⟨few, utf8, number, parsed, least, most, -⟩
    exact kept (short.mpr ⟨few, utf8, number, parsed, least, most⟩)

theorem encodeLen_isSome (len : Nat) :
    (encodeLen len).isSome ↔ len ≤ u32Max := by
  unfold encodeLen
  split
  · rename_i large
    exact iff_of_false (by simp) (by omega)
  · rename_i fits
    refine iff_of_true ?_ (by omega)
    split
    · rfl
    · split
      · rfl
      · rfl

/-- A string can be written if its length can. -/
theorem encodeSlice_isSome (data : Bytes) (asInt : Bool) :
    (encodeSlice data asInt).isSome ↔ data.length ≤ u32Max := by
  have plain : ((encodeLen data.length).map
      fun len => len ++ data).isSome ↔ data.length ≤ u32Max := by
    rw [Option.isSome_map, encodeLen_isSome]
  unfold encodeSlice
  cases asInt with
  | false => exact plain
  | true =>
      rw [if_pos rfl]
      cases short : shortcut data with
      | none => exact plain
      | some integer =>
          obtain ⟨few, -⟩ := (shortcut_isSome data).mp (by rw [short]; rfl)
          refine iff_of_true rfl ?_
          unfold u32Max
          omega

end Rdb

/-! ## What a value holds -/

/-- What a value stands for, whatever its encoding. -/
inductive Content [Platform] where
  | string (bytes : Bytes)
  | list (elements : List Bytes)
  | set (members : Finset Bytes)
  | sortedSet (scores : HashMap Bytes F64)
  | hash (fields : HashMap Bytes Bytes)

section

variable [Platform]

open Rdb

def Value.content : Value → Option Content
  | .nil => none
  | .string value => some (.string value.toVec)
  | .list value => some (.list value)
  | .set value => some (.set value.members)
  | .sortedSet value => some (.sortedSet value.hmap)
  | .hash value => some (.hash value.fields)
  | .bloom _ => none

namespace Rdb

def readScore : Decoder UInt8 F64
  | 253 :: _ => none
  | 254 :: rest => some (Platform.f64Infinity, rest)
  | 255 :: rest => some (Platform.f64NegInfinity, rest)
  | input => (readPlain >>= fun score => ofOption (Platform.f64Parse score))
      input

/-- The members of a set of numbers; their width is written in front. -/
def readIntset : Decoder UInt8 (List Int) := do
  let encoding ← littleEndian <$> symbols 4
  let count ← littleEndian <$> symbols 4
  many (signed <$> symbols encoding) count

/-- The map with these entries. -/
def mapOf {β : Type} : List (Bytes × β) → HashMap Bytes β
  | [] => ∅
  | (key, value) :: rest => (mapOf rest).insert key value

def readPair {β : Type} (second : Decoder UInt8 β) :
    Decoder UInt8 (Bytes × β) := do
  let first ← readString
  let other ← second
  pure (first, other)

def readContent : Decoder UInt8 Content := do
  let type ← symbol
  if type = typeString then .string <$> readString
  else if type = typeSetIntset then do
    let data ← readPlain
    let numbers ← ofOption (complete readIntset data)
    pure (.set (numbers.map intToString).toFinset)
  else do
    let len ← readLen
    if type = typeList then .list <$> many readString len
    else if type = typeSet then
      (fun members => .set members.toFinset) <$> many readString len
    else if type = typeZset then
      (fun entries => .sortedSet (mapOf entries)) <$>
        many (readPair readScore) len
    else if type = typeHash then
      (fun entries => .hash (mapOf entries)) <$>
        many (readPair readString) len
    else ofOption none

/-- Reads a value and the version behind it. -/
def readFramed : Decoder UInt8 Content := do
  let content ← readContent
  let written ← symbols 2
  ofOption (if littleEndian written = version then some content else none)

/-- Reads a payload, whose last eight bytes are its checksum. -/
def decode (payload : Bytes) : Option Content :=
  let data := payload.take (payload.length - 8)
  if payload.drop (payload.length - 8) =
      lowBytes 8 (Platform.crc64 data).toNat then
    complete readFramed data
  else none

/-! ## What comes back -/

omit [Platform] in
theorem encodeLen_head
    {len : Nat} {bytes : Bytes} (encoded : encodeLen len = some bytes) :
    ∃ first more, bytes = first :: more ∧ first < 192 := by
  unfold encodeLen at encoded
  split at encoded
  · cases encoded
  split at encoded
  · rename_i small
    cases encoded
    refine ⟨_, _, rfl, ?_⟩
    unfold byteAt
    interval_cases len
    all_goals decide
  split at encoded
  · rename_i large small
    cases encoded
    refine ⟨_, _, rfl, ?_⟩
    have isHigh : byteAt len 1 = (len / 256).toUInt8 := by
      unfold byteAt
      congr 1
      omega
    have high : len / 256 < 2 ^ 6 := by
      omega
    rw [isHigh]
    generalize len / 256 = front at high
    interval_cases front
    all_goals decide
  · cases encoded
    exact ⟨_, _, rfl, by decide⟩

/-- What a score comes back as. -/
def returnedScore (score : F64) : F64 :=
  if Platform.f64IsInfinite score then score else Platform.f64Abs score

theorem reads_score
    {score : F64} {bytes : Bytes}
    (isNumber : Platform.f64IsNan score = false)
    (encoded : ValueSortedSet.encodeScore score = some bytes) :
    Reads readScore bytes (returnedScore score) := by
  unfold ValueSortedSet.encodeScore at encoded
  unfold returnedScore
  rw [isNumber, if_neg (by decide)] at encoded
  split at encoded
  · rename_i infinite
    have isScore := Platform.f64_infinite score infinite
    rw [if_pos infinite]
    split at encoded
    · rename_i positive
      rw [if_pos positive] at isScore
      cases encoded
      rw [isScore]
      exact fun _ => rfl
    · rename_i negative
      rw [if_neg negative] at isScore
      cases encoded
      rw [isScore]
      exact fun _ => rfl
  · rename_i finite
    rw [if_neg finite]
    have parses := Platform.f64_parse_toString (Platform.f64Abs score)
      ((Platform.f64_abs_not_nan score).trans isNumber)
    have reads : Reads (readPlain >>= fun score =>
        ofOption (Platform.f64Parse score)) bytes (Platform.f64Abs score) :=
      (reads_plain encoded).1.ends (reads_ofOption parses)
    obtain ⟨len, length, rfl⟩ := Option.map_eq_some_iff.mp encoded
    obtain ⟨first, more, rfl, small⟩ := encodeLen_head length
    intro rest
    have plain := reads rest
    show readScore (first :: (more ++ _ ++ rest)) = _
    unfold readScore
    split
    · rename_i same
      cases same
      exact absurd small (by decide)
    · rename_i same
      cases same
      exact absurd small (by decide)
    · rename_i same
      cases same
      exact absurd small (by decide)
    · exact plain

omit [Platform] in
theorem reads_pair
    {β : Type} {first more : Bytes} {key : Bytes} {value : β}
    {second : Decoder UInt8 β} (keyReads : Reads readString first key)
    (valueReads : Reads second more value) :
    Reads (readPair second) (first ++ more) (key, value) := by
  refine keyReads.bind ?_
  exact valueReads.ends (reads_pure _)

theorem reads_framed
    {type : UInt8} {v : Bytes} {content : Content}
    (reads : Reads readContent (type :: v) content) :
    Reads readFramed (framed type v) content := by
  refine reads.bind ?_
  exact (reads_symbols (lowBytes 2 version)).ends (reads_ofOption rfl)

theorem decode_checksummed
    {data : Bytes} {content : Content}
    (reads : Reads readFramed data content) :
    decode (checksummed data) = some content := by
  have front : (checksummed data).take ((checksummed data).length - 8) =
      data := by
    simp [checksummed]
  have back : (checksummed data).drop ((checksummed data).length - 8) =
      lowBytes 8 (Platform.crc64 data).toNat := by
    simp [checksummed]
  unfold decode
  rw [front, back, if_pos rfl]
  exact reads.complete

/-- What a string value comes back as. -/
def returnedString : ValueString → Bytes
  | .integer number => intToString number
  | .data bytes => returned bytes

theorem string_reads
    {value : ValueString} {data : Bytes} (dumped : value.dump = some data) :
    decode (checksummed data) = some (.string (returnedString value)) := by
  apply decode_checksummed
  unfold ValueString.dump at dumped
  cases value with
  | integer number =>
      dsimp only at dumped
      split at dumped
      · rename_i encoded written
        cases dumped
        apply reads_framed
        exact reads_symbol_bind ((reads_encodeI64 written).map _)
      · obtain ⟨encoded, written, dumped⟩ := Option.bind_eq_some_iff.mp dumped
        cases dumped
        apply reads_framed
        exact reads_symbol_bind ((reads_plain written).2.map _)
  | data bytes =>
      obtain ⟨encoded, written, dumped⟩ := Option.bind_eq_some_iff.mp dumped
      cases dumped
      apply reads_framed
      exact reads_symbol_bind ((reads_slice written).map _)

theorem list_reads
    {list : ValueList} {data : Bytes} (dumped : list.dump = some data) :
    decode (checksummed data) = some (.list (list.map returned)) := by
  apply decode_checksummed
  unfold ValueList.dump at dumped
  obtain ⟨len, length, dumped⟩ := Option.bind_eq_some_iff.mp dumped
  obtain ⟨items, encoded, dumped⟩ := Option.bind_eq_some_iff.mp dumped
  cases dumped
  apply reads_framed
  refine reads_symbol_bind ?_
  rw [if_neg (by decide), if_neg (by decide)]
  refine (reads_len length).bind ?_
  rw [if_pos rfl]
  exact (reads_many (fun _ _ _ written => reads_slice written) encoded).map _

/-- How a hash map or hash set is listed: each key once. -/
structure Lists {α : Type} (order : Finset α → List α) : Prop where
  nodup : ∀ keys, (order keys).Nodup
  mem : ∀ keys key, key ∈ order keys ↔ key ∈ keys

omit [Platform] in
theorem Lists.length
    {α : Type} {order : Finset α → List α} (lists : Lists order)
    (keys : Finset α) : (order keys).length = keys.card := by
  classical
  rw [← List.toFinset_card_of_nodup (lists.nodup keys)]
  congr 1
  ext key
  rw [List.mem_toFinset, lists.mem]

omit [Platform] in
/-- The entries of a map, listed. -/
theorem mem_entriesOf
    {β : Type} {order : Finset Bytes → List Bytes} (lists : Lists order)
    {map : HashMap Bytes β} {key : Bytes} {value : β} :
    (key, value) ∈ entriesOf order map ↔ map.lookup key = some value := by
  unfold entriesOf
  simp only [List.mem_filterMap, Option.map_eq_some_iff, Prod.mk.injEq]
  constructor
  · rintro ⟨other, -, found, held, rfl, rfl⟩
    exact held
  · intro held
    refine ⟨key, ?_, value, held, rfl, rfl⟩
    rw [lists.mem, Finmap.mem_keys, ← Finmap.lookup_isSome, held]
    rfl

omit [Platform] in
theorem entriesOf_length
    {β : Type} {order : Finset Bytes → List Bytes} (lists : Lists order)
    (map : HashMap Bytes β) :
    (entriesOf order map).length = map.keys.card := by
  rw [← lists.length map.keys]
  unfold entriesOf
  rw [List.length_filterMap_eq_countP, List.countP_eq_length]
  intro key member
  rw [lists.mem, Finmap.mem_keys, ← Finmap.lookup_isSome] at member
  rw [Option.isSome_map]
  exact member

theorem set_reads
    {order : Finset Bytes → List Bytes} {idOrder : Finset Nat → List Nat}
    (lists : Lists order) {elements : Finset Bytes} {data : Bytes}
    (dumped : (ValueSet.data elements).dump order idOrder = some data) :
    decode (checksummed data) = some (.set (elements.image returned)) := by
  apply decode_checksummed
  obtain ⟨len, length, dumped⟩ := Option.bind_eq_some_iff.mp dumped
  obtain ⟨items, encoded, dumped⟩ := Option.bind_eq_some_iff.mp dumped
  cases dumped
  rw [← lists.length elements] at length
  have same : ((order elements).map returned).toFinset =
      elements.image returned := by
    ext member
    simp [lists.mem]
  apply reads_framed
  refine reads_symbol_bind ?_
  rw [if_neg (by decide), if_neg (by decide)]
  refine (reads_len length).bind ?_
  rw [if_neg (by decide), if_pos rfl, ← same]
  exact (reads_many (fun _ _ _ written => reads_slice written) encoded).map _

omit [Platform] in
theorem reads_number
    {count number : Nat} (fits : number < 256 ^ count) :
    Reads (littleEndian <$> symbols count) (lowBytes count number)
      number := by
  have taken : Reads (symbols count) (lowBytes count number)
      (lowBytes count number) := by
    have reads := reads_symbols (lowBytes count number)
    rw [lowBytes_length] at reads
    exact reads
  have exact := littleEndian_lowBytes count number
  rw [Int.emod_eq_of_lt (by omega) (by exact_mod_cast fits)] at exact
  have reads := taken.map littleEndian
  rw [Int.ofNat_inj.mp exact] at reads
  exact reads

omit [Platform] in
/-- Where the members fit, half of the width is enough for them. -/
theorem intsetEncoding_fits
    {max encoding : Nat} (isEncoding : ValueSet.intsetEncoding max =
      some encoding) :
    encoding < 256 ^ 4 ∧ max < 256 ^ encoding / 2 := by
  unfold ValueSet.intsetEncoding at isEncoding
  split at isEncoding
  · cases isEncoding
    omega
  split at isEncoding
  · cases isEncoding
    omega
  split at isEncoding
  · cases isEncoding
    omega
  · cases isEncoding

omit [Platform] in
theorem reads_intset
    {idOrder : Finset Nat → List Nat} (lists : Lists idOrder)
    {numbers : Finset Nat} {encoding : Nat}
    (isEncoding : ValueSet.intsetEncoding (numbers.sup id) = some encoding)
    (few : numbers.card < 256 ^ 4) :
    Reads readIntset (lowBytes 4 encoding ++ lowBytes 4 numbers.card ++
      (idOrder numbers).flatMap fun item : Nat => lowBytes encoding item)
      ((idOrder numbers).map Int.ofNat) := by
  obtain ⟨narrow, fits⟩ := intsetEncoding_fits isEncoding
  rw [List.append_assoc]
  refine (reads_number narrow).bind ?_
  refine (reads_number few).bind ?_
  rw [← lists.length numbers]
  refine reads_many ?_ (encodeAll_total _ _)
  intro item member bytes written
  cases written
  have below : id item ≤ numbers.sup id :=
    Finset.le_sup ((lists.mem numbers item).mp member)
  have taken : Reads (symbols encoding) (lowBytes encoding item)
      (lowBytes encoding item) := by
    have reads := reads_symbols (lowBytes encoding item)
    rw [lowBytes_length] at reads
    exact reads
  have half : (item : Int) < 256 ^ encoding / 2 := by
    exact_mod_cast Nat.lt_of_le_of_lt below fits
  have reads := taken.map signed
  rw [signed_lowBytes (by omega) half] at reads
  exact reads

omit [Platform] in
theorem intset_length
    {idOrder : Finset Nat → List Nat} (lists : Lists idOrder)
    (numbers : Finset Nat) (encoding : Nat) :
    (lowBytes 4 encoding ++ lowBytes 4 numbers.card ++
      (idOrder numbers).flatMap fun item : Nat =>
        lowBytes encoding item).length = 8 + encoding * numbers.card := by
  have members : ((idOrder numbers).flatMap fun item : Nat =>
      lowBytes encoding item).length = encoding * numbers.card := by
    simp [List.length_flatMap, lists.length, Nat.mul_comm]
  rw [List.length_append, List.length_append, members, lowBytes_length,
    lowBytes_length]

theorem intset_reads
    {order : Finset Bytes → List Bytes} {idOrder : Finset Nat → List Nat}
    (lists : Lists idOrder) {numbers : Finset Nat} {data : Bytes}
    (dumped : (ValueSet.integer numbers).dump order idOrder = some data) :
    decode (checksummed data) =
      some (.set (ValueSet.integer numbers).members) := by
  apply decode_checksummed
  obtain ⟨encoding, isEncoding, dumped⟩ :=
    Option.bind_eq_some_iff.mp dumped
  obtain ⟨max, isMax, isEncoding⟩ := Option.bind_eq_some_iff.mp isEncoding
  obtain ⟨len, length, dumped⟩ := Option.bind_eq_some_iff.mp dumped
  cases dumped
  unfold ValueSet.largest at isMax
  split at isMax
  · cases isMax
  cases isMax
  have short := (encodeLen_isSome _).mp (by rw [length]; rfl)
  rw [intset_length lists] at short
  have few : numbers.card < 256 ^ 4 := by
    have wide : 1 ≤ encoding := by
      unfold ValueSet.intsetEncoding at isEncoding
      grind
    have less := Nat.le_mul_of_pos_left numbers.card wide
    unfold u32Max at short
    omega
  have same : (((idOrder numbers).map Int.ofNat).map intToString).toFinset =
      (ValueSet.integer numbers).members := by
    ext member
    simp [ValueSet.members, lists.mem, intToString]
  apply reads_framed
  refine reads_symbol_bind ?_
  rw [if_neg (by decide), if_pos rfl]
  refine ((reads_len length).bind (reads_symbols _)).ends ?_
  refine (reads_ofOption (reads_intset lists isEncoding few).complete).ends ?_
  rw [same]
  exact reads_pure _

theorem zset_reads
    {order : Finset Bytes → List Bytes} (lists : Lists order)
    {zset : ValueSortedSet} {data : Bytes}
    (numeric : ∀ name score, zset.hmap.lookup name = some score →
      Platform.f64IsNan score = false)
    (dumped : zset.dump order = some data) :
    decode (checksummed data) = some (.sortedSet (mapOf
      ((entriesOf order zset.hmap).map fun entry =>
        (returned entry.1, returnedScore entry.2)))) := by
  apply decode_checksummed
  obtain ⟨len, length, dumped⟩ := Option.bind_eq_some_iff.mp dumped
  obtain ⟨items, encoded, dumped⟩ := Option.bind_eq_some_iff.mp dumped
  cases dumped
  rw [← entriesOf_length lists zset.hmap] at length
  apply reads_framed
  refine reads_symbol_bind ?_
  rw [if_neg (by decide), if_neg (by decide)]
  refine (reads_len length).bind ?_
  rw [if_neg (by decide), if_neg (by decide), if_pos rfl]
  refine (reads_many ?_ encoded).map _
  rintro ⟨name, score⟩ member bytes written
  obtain ⟨first, firstWritten, written⟩ := Option.bind_eq_some_iff.mp written
  obtain ⟨second, secondWritten, written⟩ :=
    Option.bind_eq_some_iff.mp written
  cases written
  have isNumber := numeric name score ((mem_entriesOf lists).mp member)
  exact reads_pair (reads_slice firstWritten)
    (reads_score isNumber secondWritten)

theorem hash_reads
    {order : Finset Bytes → List Bytes} (lists : Lists order)
    {hash : ValueHash} {data : Bytes} (dumped : hash.dump order = some data) :
    decode (checksummed data) = some (.hash (mapOf
      ((entriesOf order hash.fields).map fun entry =>
        (returned entry.1, returned entry.2)))) := by
  apply decode_checksummed
  cases hash with
  | hashMap map =>
      obtain ⟨len, length, dumped⟩ := Option.bind_eq_some_iff.mp dumped
      obtain ⟨items, encoded, dumped⟩ := Option.bind_eq_some_iff.mp dumped
      cases dumped
      rw [← entriesOf_length lists map] at length
      apply reads_framed
      refine reads_symbol_bind ?_
      rw [if_neg (by decide), if_neg (by decide)]
      refine (reads_len length).bind ?_
      rw [if_neg (by decide), if_neg (by decide), if_neg (by decide),
        if_pos rfl]
      refine (reads_many ?_ encoded).map _
      rintro ⟨key, value⟩ member bytes written
      obtain ⟨first, firstWritten, written⟩ :=
        Option.bind_eq_some_iff.mp written
      obtain ⟨second, secondWritten, written⟩ :=
        Option.bind_eq_some_iff.mp written
      cases written
      exact reads_pair (reads_slice firstWritten) (reads_slice secondWritten)
  | zipList bytes =>
      have length : encodeLen 0 = some [0] := rfl
      have written : (ValueHash.zipList bytes).dump order =
          some (framed typeHash [0]) := rfl
      cases written.symm.trans dumped
      have none : entriesOf order (ValueHash.zipList bytes).fields = [] := by
        rw [← List.length_eq_zero_iff, entriesOf_length lists]
        rfl
      rw [none]
      apply reads_framed
      refine reads_symbol_bind ?_
      rw [if_neg (by decide), if_neg (by decide)]
      refine (reads_len length).ends ?_
      rw [if_neg (by decide), if_neg (by decide), if_neg (by decide),
        if_pos rfl]
      exact (reads_pure []).map _

end Rdb

end

end RedVector
