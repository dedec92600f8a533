import RedVector.Command.Increments
import RedVector.Command.Keys
import RedVector.Value.Bits
import RedVector.Value.Ranges

/-!
# Bits in a range of bytes

BITCOUNT and BITPOS take their positions as unsigned numbers.  Where they
still answer for the bytes between two positions that count from the end when
they are negative.
-/

namespace RedVector

open Util Effect

namespace Command

/-! ## Bits of the bytes -/

theorem countOnes_eq (byte : UInt8) :
    countOnes byte =
      ((List.range 8).map byte.toBitVec.getMsbD).count true := by
  have each : ∀ index ∈ List.range 8,
      (byte &&& ((1 : UInt8) <<< index.toUInt8) != 0) =
        byte.toBitVec.getMsbD (7 - index) := by
    intro index member
    have small := List.mem_range.mp member
    have mask : (1 : UInt8) <<< index.toUInt8 =
        ValueString.bitMask (7 - index) := by
      interval_cases index
      all_goals rfl
    rw [mask, ValueString.and_bitMask, Nat.mod_eq_of_lt (by omega)]
  have reversed : (List.range 8).map (7 - ·) = (List.range 8).reverse := by
    decide
  unfold countOnes
  calc ((List.range 8).filter fun index =>
        byte &&& ((1 : UInt8) <<< index.toUInt8) != 0).length
      = ((List.range 8).filter fun index =>
          byte.toBitVec.getMsbD (7 - index)).length := by
        rw [List.filter_congr each]
    _ = (((List.range 8).map (7 - ·)).map byte.toBitVec.getMsbD).count
          true := by
        rw [List.map_map, List.count_eq_countP, List.countP_map,
          List.countP_eq_length_filter]
        simp [Function.comp_def]
    _ = ((List.range 8).map byte.toBitVec.getMsbD).count true := by
        rw [reversed, List.map_reverse, List.count_reverse]

theorem sum_countOnes (bytes : Bytes) :
    (bytes.map countOnes).sum = (bits bytes).count true := by
  induction bytes with
  | nil => rfl
  | cons byte rest ih =>
      rw [List.map_cons, List.sum_cons, ih, countOnes_eq, bits_cons,
        List.count_append]

theorem firstBit_eq (target : Bool) (bytes : Bytes) :
    firstBit target bytes = (bits bytes).idxOf? target := by
  unfold firstBit
  apply congrArg (List.idxOf? target)
  induction bytes with
  | nil => rfl
  | cons byte rest ih =>
      rw [List.flatMap_cons, ih, bits_cons]
      refine congrArg₂ (· ++ ·) ?_ rfl
      apply List.map_congr_left
      intro index member
      have small := List.mem_range.mp member
      rw [ValueString.getbit_eq]
      unfold bitAt
      rw [Nat.div_eq_of_lt small, Nat.mod_eq_of_lt small]
      rfl

end Command

/-! ## Ranges of bytes -/

/-- The optional positions of a range of bytes. -/
inductive ByteRange where
  | whole
  | tail (start : Int)
  | between (start stop : Int)

namespace ByteRange

def start : ByteRange → Int
  | whole => 0
  | tail start | between start _ => start

def stop : ByteRange → Int
  | whole | tail _ => -1
  | between _ stop => stop

/-- No end is given. -/
def isOpen : ByteRange → Bool
  | whole | tail _ => true
  | between _ _ => false

/-- The arguments from a position on give the range. -/
def Given (argv : Arguments) (pos : Nat) : ByteRange → Prop
  | whole => argv.length = pos
  | tail start => argv.length = pos + 1 ∧ argv.getI64 pos = .ok start
  | between start stop => pos + 2 ≤ argv.length ∧
      argv.getI64 pos = .ok start ∧ argv.getI64 (pos + 1) = .ok stop

/-- The bytes that GETRANGE copies. -/
def bytes (range : ByteRange) (data : Bytes) : Bytes :=
  slice data range.start range.stop

/-- The bytes behind a range that ends before the end of the string. -/
def behind (range : ByteRange) (data : Bytes) : Bytes :=
  data.drop (max range.start (place range.stop data.length + 1)).toNat

/-- The number of ones in a range. -/
def ones (range : ByteRange) (data : Bytes) : Nat :=
  (bits (range.bytes data)).count true

/-- The index of the first bit in a range that is `on`.  Behind the string,
where no end is given, there are zeros. -/
def bitIndex (range : ByteRange) (data : Bytes) (on : Bool) : Int :=
  match (bits (range.bytes data)).idxOf? on with
  | some offset => 8 * max 0 (place range.start data.length) + offset
  | none =>
      if on = false ∧ range.isOpen = true then 8 * data.length else -1

/-- The range begins at a negative position or reaches to the last byte, so
that the commands see nothing of it. -/
def Unseen (range : ByteRange) : Prop :=
  range.start < 0 ∨ range.stop = -1

instance (range : ByteRange) : Decidable range.Unseen :=
  inferInstanceAs (Decidable (_ ∨ _))

/-- The bytes that BITCOUNT and BITPOS look at. -/
def covered (range : ByteRange) (data : Bytes) : Bytes :=
  if range.Unseen then []
  else if range.stop < 0 then data.drop range.start.toNat
  else (data.take (range.stop + 1).toNat).drop range.start.toNat

variable {range : ByteRange} {data : Bytes}

theorem covered_unseen (unseen : range.Unseen) : range.covered data = [] :=
  if_pos unseen

theorem covered_inside
    (seen : ¬ range.Unseen) (inside : 0 ≤ range.stop) :
    range.covered data = range.bytes data := by
  have start : 0 ≤ range.start := by
    unfold Unseen at seen
    omega
  unfold covered bytes
  rw [if_neg seen, if_neg (by omega), List.drop_take]
  symm
  have placed : place range.stop data.length = range.stop := by
    unfold place
    omega
  have starts : place range.start data.length = range.start := by
    unfold place
    omega
  unfold slice
  dsimp only
  rw [placed, starts, Int.max_eq_right start, List.take_eq_take_iff,
    List.length_drop]
  omega

theorem covered_outside
    (seen : ¬ range.Unseen) (outside : range.stop < 0) :
    range.covered data = range.bytes data ++ range.behind data := by
  have start : 0 ≤ range.start := by
    unfold Unseen at seen
    omega
  have placed : place range.stop data.length = range.stop + data.length := by
    unfold place
    rw [if_pos outside]
  have starts : place range.start data.length = range.start := by
    unfold place
    omega
  have stop : range.stop ≠ -1 := fun last => seen (.inr last)
  unfold covered bytes behind slice
  dsimp only
  rw [if_neg seen, if_pos outside, placed, starts, Int.max_eq_right start]
  have rest : (max range.start (range.stop + data.length + 1)).toNat =
      range.start.toNat + (min ((data.length : Int) - 1)
        (range.stop + data.length) + 1 - range.start).toNat := by
    omega
  rw [rest, ← List.drop_drop, List.take_append_drop]

/-- The bits of an empty range are counted as none, and behind a range that
ends early the rest of the string is counted. -/
theorem count_covered :
    (bits (range.covered data)).count true = range.ones data ↔
      if range.Unseen then ∀ byte ∈ range.bytes data, byte = 0
      else 0 ≤ range.stop ∨ ∀ byte ∈ range.behind data, byte = 0 := by
  unfold ones
  split
  · rename_i unseen
    rw [covered_unseen unseen, ← true_notMem_bits, ← List.count_eq_zero]
    exact eq_comm
  · rename_i seen
    by_cases inside : 0 ≤ range.stop
    · rw [covered_inside seen inside]
      exact iff_of_true rfl (.inl inside)
    · rw [covered_outside seen (by omega), bits_append, List.count_append,
        ← true_notMem_bits, ← List.count_eq_zero]
      omega

/-- What BITPOS answers for the first bit that is `on`. -/
def firstCovered (range : ByteRange) (data : Bytes) (on : Bool) : Int :=
  match (bits (range.covered data)).idxOf? on with
  | some offset => (min (asUsize range.start) data.length * 8 + offset : Nat)
  | none => if on then -1 else 0

theorem bitIndex_of_mem {on : Bool} (found : on ∈ bits (range.bytes data)) :
    ∃ offset, (bits (range.bytes data)).idxOf? on = some offset ∧
      range.bitIndex data on =
        8 * max 0 (place range.start data.length) + offset := by
  obtain ⟨offset, isFound⟩ :=
    Option.isSome_iff_exists.mp (List.isSome_idxOf?.mpr found)
  refine ⟨offset, isFound, ?_⟩
  unfold bitIndex
  rw [isFound]

theorem bitIndex_of_notMem {on : Bool}
    (missing : on ∉ bits (range.bytes data)) :
    range.bitIndex data on =
      if on = false ∧ range.isOpen = true then 8 * (data.length : Int)
      else -1 := by
  unfold bitIndex
  rw [List.idxOf?_eq_none_iff.mpr missing]

/-- A range in which a bit is found is not empty, and it begins inside the
string. -/
theorem bytes_ne_nil {on : Bool} (found : on ∈ bits (range.bytes data)) :
    range.bytes data ≠ [] := by
  intro empty
  rw [empty] at found
  cases found

theorem start_lt (nonempty : range.bytes data ≠ []) :
    max 0 (place range.start data.length) < data.length := by
  by_contra outside
  apply nonempty
  unfold bytes slice
  apply List.eq_nil_of_length_eq_zero
  simp only [List.length_take, List.length_drop]
  omega

/-- The first bit of a range that begins with the string is the first one of
the string. -/
theorem first_bit
    (nonempty : range.bytes data ≠ [])
    (begins : place range.start data.length ≤ 0) :
    (bits (range.bytes data))[0]? = some (bitAt data 0) := by
  have starts : max 0 (place range.start data.length) = 0 := by omega
  unfold bytes slice at nonempty ⊢
  dsimp only at nonempty ⊢
  rw [starts, Int.toNat_zero, List.drop_zero] at nonempty ⊢
  cases data with
  | nil => simp at nonempty
  | cons byte rest =>
      generalize ((min (((byte :: rest).length : Int) - 1) _) + 1 - 0).toNat =
        count at nonempty ⊢
      cases count with
      | zero => simp at nonempty
      | succ count =>
          rw [List.take_succ_cons, bits_cons]
          rfl

theorem idxOf?_zero {on : Bool} {list : List Bool} :
    list.idxOf? on = some 0 ↔ list[0]? = some on := by
  cases list with
  | nil => simp
  | cons head tail => simp [List.idxOf?_cons]

theorem idxOf?_append {on : Bool} {front back : List Bool} {offset : Nat}
    (found : front.idxOf? on = some offset) :
    (front ++ back).idxOf? on = some offset := by
  unfold List.idxOf? at found ⊢
  rw [List.findIdx?_append, found]
  rfl

/-- BITPOS finds the first bit of a range that it sees, and without one it
answers as it should for ones only. -/
theorem firstCovered_seen
    (seen : ¬ range.Unseen) {on : Bool}
    (start : range.start ≤ i64Max) :
    range.firstCovered data on = range.bitIndex data on ↔
      on ∈ bits (range.bytes data) ∨
        on = true ∧ (0 ≤ range.stop ∨
          ∀ byte ∈ range.behind data, byte = 0) := by
  have begins : 0 ≤ range.start := by
    unfold Unseen at seen
    omega
  have isStart : (asUsize range.start : Int) = range.start := by
    unfold asUsize
    unfold i64Max at start
    omega
  have starts : place range.start data.length = range.start := by
    unfold place
    omega
  have closed : range.isOpen = false := by
    cases range with
    | between _ _ => rfl
    | whole => exact absurd (.inr rfl) seen
    | tail _ => exact absurd (.inr rfl) seen
  by_cases found : on ∈ bits (range.bytes data)
  · -- the rest of the string does not matter
    refine iff_of_true ?_ (.inl found)
    obtain ⟨offset, isFound, index⟩ := bitIndex_of_mem found
    have inside := start_lt (bytes_ne_nil found)
    have covers : (bits (range.covered data)).idxOf? on = some offset := by
      by_cases ends : 0 ≤ range.stop
      · rw [covered_inside seen ends, isFound]
      · rw [covered_outside seen (by omega), bits_append]
        exact idxOf?_append isFound
    unfold firstCovered
    rw [covers, index]
    dsimp only
    omega
  rw [or_iff_right found, bitIndex_of_notMem found,
    if_neg (by simp [closed])]
  unfold firstCovered
  by_cases ends : 0 ≤ range.stop
  · rw [covered_inside seen ends, List.idxOf?_eq_none_iff.mpr found]
    cases on with
    | true => simp [ends]
    | false => simp
  rw [covered_outside seen (by omega), bits_append, ← true_notMem_bits,
    or_iff_right ends]
  cases sought : (bits (range.bytes data) ++
      bits (range.behind data)).idxOf? on with
  | some offset =>
      refine iff_of_false (by dsimp only; omega) ?_
      rintro ⟨rfl, clear⟩
      have member : true ∈ bits (range.bytes data) ++
          bits (range.behind data) := by
        rw [← List.isSome_idxOf?, sought]
        rfl
      rcases List.mem_append.mp member with front | back
      · exact found front
      · exact clear back
  | none =>
      have missing := List.idxOf?_eq_none_iff.mp sought
      cases on with
      | true =>
          exact iff_of_true rfl
            ⟨rfl, fun back => missing (List.mem_append_right _ back)⟩
      | false => simp

/-- Where BITPOS sees nothing it answers that there are no ones, or that the
first zero is the first bit of all. -/
theorem firstCovered_unseen
    (unseen : range.Unseen) {on : Bool} :
    range.firstCovered data on = range.bitIndex data on ↔
      if on then ∀ byte ∈ range.bytes data, byte = 0
      else
        (place range.start data.length ≤ 0 ∧ range.bytes data ≠ [] ∧
          bitAt data 0 = false) ∨
        (range.isOpen = true ∧ data = []) := by
  have nothing : range.firstCovered data on = if on then -1 else 0 := by
    unfold firstCovered
    rw [covered_unseen unseen]
    rfl
  rw [nothing]
  cases on with
  | true =>
      rw [if_pos rfl, if_pos rfl, ← true_notMem_bits]
      by_cases found : true ∈ bits (range.bytes data)
      · obtain ⟨offset, -, index⟩ := bitIndex_of_mem found
        refine iff_of_false ?_ (not_not.mpr found)
        rw [index]
        omega
      · refine iff_of_true ?_ found
        rw [bitIndex_of_notMem found]
        rfl
  | false =>
      rw [if_neg (by simp), if_neg (by simp)]
      by_cases found : false ∈ bits (range.bytes data)
      · obtain ⟨offset, isFound, index⟩ := bitIndex_of_mem found
        have nonempty := bytes_ne_nil found
        have inside := start_lt nonempty
        rw [or_iff_left (by
          rintro ⟨-, empty⟩
          rw [empty, List.length_nil] at inside
          omega), index]
        constructor
        · intro zero
          have begins : place range.start data.length ≤ 0 := by omega
          have first : offset = 0 := by omega
          have head := first_bit nonempty begins
          rw [first, idxOf?_zero, head] at isFound
          exact ⟨begins, nonempty, Option.some.inj isFound⟩
        · rintro ⟨begins, -, clear⟩
          have head := first_bit nonempty begins
          rw [clear, ← idxOf?_zero, isFound] at head
          have first := Option.some.inj head
          omega
      · rw [bitIndex_of_notMem found]
        constructor
        · intro zero
          right
          split at zero
          · rename_i opened
            exact ⟨opened.2, List.eq_nil_of_length_eq_zero (by omega)⟩
          · omega
        · rintro (⟨begins, nonempty, clear⟩ | ⟨opened, rfl⟩)
          · have head := first_bit nonempty begins
            rw [clear] at head
            exact absurd (List.mem_of_getElem? head) found
          · rw [if_pos ⟨rfl, opened⟩]
            rfl

end ByteRange

/-! ## The commands -/

namespace Command

open Database

section

variable {argv : Arguments} {pos : Nat} {range : ByteRange}

theorem byteIndex_start
    (given : range.Given argv pos) (message : String) :
    byteIndex argv pos 0 message = .ok (asUsize range.start) := by
  unfold byteIndex
  cases range with
  | whole =>
      rw [if_neg (by have length : argv.length = pos := given; omega)]
      rfl
  | tail start =>
      rw [if_pos (by have length := given.1; omega), given.2]
      rfl
  | between start stop =>
      rw [if_pos (by have length := given.1; omega), given.2.1]
      rfl

theorem byteIndex_stop
    (given : range.Given argv pos) (message : String) :
    byteIndex argv (pos + 1) usizeMax message =
      .ok (asUsize range.stop) := by
  unfold byteIndex
  cases range with
  | whole =>
      rw [if_neg (by have length : argv.length = pos := given; omega)]
      rfl
  | tail start =>
      rw [if_neg (by have length := given.1; omega)]
      rfl
  | between start stop =>
      rw [if_pos (by have length := given.1; omega), given.2.2]
      rfl

theorem given_length (given : range.Given argv pos) : pos ≤ argv.length := by
  cases range with
  | whole => exact le_of_eq (Eq.symm given)
  | tail start => have length := given.1; omega
  | between start stop => have length := given.1; omega

/-- The positions of a range are numbers of 64 bits. -/
theorem given_fits (given : range.Given argv pos) :
    inI64 range.start = true ∧ inI64 range.stop = true := by
  cases range with
  | whole => exact ⟨rfl, rfl⟩
  | tail start => exact ⟨Arguments.getI64_fits given.2, rfl⟩
  | between start stop =>
      exact ⟨Arguments.getI64_fits given.2.1, Arguments.getI64_fits given.2.2⟩

end

section

variable [Platform] {env : Env} {db : Database} {argv : Arguments}
  {dbindex : Nat} {key : Bytes} {value : ValueString} {range : ByteRange}

theorem byteRange_eq (data : Bytes) (start stop : Nat) :
    byteRange data start stop =
      (usize ((stop : Int) + 1)).map fun after =>
        (min start data.length,
          (data.take (min after data.length)).drop
            (min start data.length)) := by
  unfold byteRange
  cases usize ((stop : Int) + 1) with
  | none => rfl
  | some after => rfl

/-- The position after the last one overflows if that is -1 or missing. -/
theorem byteRange_covered
    {data : Bytes} (fits : (data.length : Int) ≤ i64Max)
    (start : inI64 range.start = true) (stop : inI64 range.stop = true) :
    byteRange data (asUsize range.start) (asUsize range.stop) =
      if range.stop = -1 ∧ Platform.overflowChecks = true then none
      else some (min (asUsize range.start) data.length,
        range.covered data) := by
  unfold inI64 i64Min i64Max at start stop
  unfold i64Max at fits
  simp only [Bool.and_eq_true, decide_eq_true_eq] at start stop
  rw [byteRange_eq]
  by_cases last : range.stop = -1
  · have isLast : asUsize range.stop = usizeMax := by
      rw [last]
      rfl
    rw [isLast, ByteRange.covered_unseen (.inr last)]
    by_cases checks : Platform.overflowChecks = true
    · have overflows : usize ((usizeMax : Int) + 1) = none := by
        unfold usize
        rw [if_neg (by decide), if_pos checks]
      rw [overflows, if_pos ⟨last, checks⟩]
      rfl
    · rw [(usize_wraps checks).2, if_neg (fun both => checks both.2)]
      simp
  · have next : usize ((asUsize range.stop : Int) + 1) =
        some (asUsize range.stop + 1) := by
      apply usize_of
      · rfl
      · unfold asUsize usizeMax
        omega
    rw [next, if_neg (fun both => last both.1), Option.map_some]
    refine congrArg some (congrArg (Prod.mk _) ?_)
    unfold ByteRange.covered
    split
    · rename_i unseen
      have before : range.start < 0 := unseen.resolve_right last
      apply List.drop_eq_nil_of_le
      unfold asUsize
      simp only [List.length_take]
      omega
    · rename_i seen
      have starts : 0 ≤ range.start := by
        unfold ByteRange.Unseen at seen
        omega
      have isStart : asUsize range.start = range.start.toNat := by
        unfold asUsize
        omega
      rw [isStart]
      split
      · have whole : min (asUsize range.stop + 1) data.length =
            data.length := by
          unfold asUsize
          omega
        rw [whole, List.take_length]
        by_cases inside : range.start.toNat ≤ data.length
        · rw [Nat.min_eq_left inside]
        · rw [List.drop_of_length_le (by omega),
            List.drop_of_length_le (by omega)]
      · have isStop : asUsize range.stop + 1 = (range.stop + 1).toNat := by
          unfold asUsize
          omega
        rw [isStop, List.drop_take, List.drop_take]
        by_cases inside : range.start.toNat ≤ data.length
        · rw [Nat.min_eq_left inside, List.take_eq_take_iff,
            List.length_drop]
          omega
        · rw [List.drop_of_length_le (by omega),
            List.drop_of_length_le (by omega), List.take_nil,
            List.take_nil]

/-- A program that begins with reading a string that is there. -/
theorem stringOf_run
    (present : Present env db dbindex key (.string value))
    {β : Type} (rest : Option Bytes → Reader β) :
    ((stringOf dbindex key >>= rest).lift readInclusion).run (machine env)
        db =
      ((rest (some value.toVec)).lift readInclusion).run (machine env) db := by
  unfold stringOf
  rw [bind_assoc]
  exact run_get present _

/-- A reading command answers with a number. -/
def Answers (env : Env) (db : Database) (program : Reader Response)
    (number : Int) : Prop :=
  (program.lift readInclusion).run (machine env) db =
    some (.ok (.integer number), db)

/-- BITCOUNT with a name and a range that it can read. -/
theorem bitcount_given (named : argv.getVec 1 = .ok key)
    (given : range.Given argv 2) :
    bitcount argv dbindex = (do
      match ← stringOf dbindex key with
      | some data => do
          let (_, slice) ← orPanic (byteRange data (asUsize range.start)
            (asUsize range.stop))
          pure (.integer (slice.map countOnes).sum)
      | none => pure (.integer 0)) := by
  unfold bitcount
  simp only [validateArgumentsGte, if_neg (Nat.not_lt.mpr (given_length given)),
    named, byteIndex_start given, byteIndex_stop given]
  rfl

theorem bitcount_answers
    (named : argv.getVec 1 = .ok key) (given : range.Given argv 2)
    (present : Present env db dbindex key (.string value))
    (fits : (value.toVec.length : Int) ≤ i64Max) (number : Int) :
    Answers env db (bitcount argv dbindex) number ↔
      ¬ (range.stop = -1 ∧ Platform.overflowChecks = true) ∧
        ((bits (range.covered value.toVec)).count true : Int) = number := by
  obtain ⟨start, stop⟩ := given_fits given
  unfold Answers
  rw [bitcount_given named given, stringOf_run present]
  dsimp only
  rw [byteRange_covered fits start stop]
  split
  · rename_i overflows
    refine iff_of_false ?_ (fun right => right.1 overflows)
    rintro ⟨⟩
  · rename_i computed
    rw [and_iff_right computed, ← sum_countOnes]
    constructor
    · intro ran
      cases ran
      rfl
    · rintro rfl
      rfl

/-- What BITPOS answers with behind its first byte. -/
def bitposAnswer (on : Bool) (startByte : Nat) :
    Option Nat → Reader Response
  | some offset => pure (.integer (startByte * 8 + offset : Nat))
  | none => pure (.integer (if on then -1 else 0))

/-- BITPOS with a name, a bit and a range that it can read. -/
theorem bitpos_given
    {on : Bool} (named : argv.getVec 1 = .ok key)
    (sought : argv.getI64 2 = .ok (if on then 1 else 0))
    (given : range.Given argv 3) :
    bitpos argv dbindex = (do
      match ← stringOf dbindex key with
      | some data => do
          let (startByte, slice) ← orPanic (byteRange data
            (asUsize range.start) (asUsize range.stop))
          bitposAnswer on startByte (firstBit on slice)
      | none => pure (.integer (if on then -1 else 0))) := by
  unfold bitpos
  simp only [validateArgumentsGte, if_neg (Nat.not_lt.mpr (given_length given)),
    named, sought, byteIndex_start given, byteIndex_stop given]
  cases on with
  | true => rfl
  | false => rfl

theorem bitpos_answers
    {on : Bool} (named : argv.getVec 1 = .ok key)
    (sought : argv.getI64 2 = .ok (if on then 1 else 0))
    (given : range.Given argv 3)
    (present : Present env db dbindex key (.string value))
    (fits : (value.toVec.length : Int) ≤ i64Max) (number : Int) :
    Answers env db (bitpos argv dbindex) number ↔
      ¬ (range.stop = -1 ∧ Platform.overflowChecks = true) ∧
        range.firstCovered value.toVec on = number := by
  obtain ⟨start, stop⟩ := given_fits given
  unfold Answers
  rw [bitpos_given named sought given, stringOf_run present]
  dsimp only
  rw [byteRange_covered fits start stop]
  split
  · rename_i overflows
    refine iff_of_false ?_ (fun right => right.1 overflows)
    rintro ⟨⟩
  · rename_i computed
    rw [and_iff_right computed]
    change Program.run (machine env) (Program.lift readInclusion
      (bitposAnswer on (min (asUsize range.start) value.toVec.length)
        (firstBit on (range.covered value.toVec)))) db = _ ↔ _
    unfold ByteRange.firstCovered
    rw [firstBit_eq]
    cases (bits (range.covered value.toVec)).idxOf? on with
    | none =>
        constructor
        · intro ran
          cases ran
          rfl
        · rintro rfl
          rfl
    | some offset =>
        constructor
        · intro ran
          cases ran
          rfl
        · rintro rfl
          rfl

/-- BITCOUNT counts the ones of a range, and BITPOS finds a bit in it, exactly
if the position after the end can be computed, and what is not looked at or is
looked at in excess does not matter. -/
theorem bits_in_range
    (named : argv.getVec 1 = .ok key)
    (present : Present env db dbindex key (.string value))
    (fits : (value.toVec.length : Int) ≤ i64Max) :
    (∀ range : ByteRange, range.Given argv 2 →
      (Answers env db (bitcount argv dbindex) (range.ones value.toVec) ↔
        ¬ (range.stop = -1 ∧ Platform.overflowChecks = true) ∧
          if range.Unseen then ∀ byte ∈ range.bytes value.toVec, byte = 0
          else 0 ≤ range.stop ∨
            ∀ byte ∈ range.behind value.toVec, byte = 0)) ∧
    ∀ (on : Bool) (range : ByteRange),
      argv.getI64 2 = .ok (if on then 1 else 0) → range.Given argv 3 →
      (Answers env db (bitpos argv dbindex) (range.bitIndex value.toVec on) ↔
        ¬ (range.stop = -1 ∧ Platform.overflowChecks = true) ∧
          if range.Unseen then
            if on then ∀ byte ∈ range.bytes value.toVec, byte = 0
            else
              (place range.start value.toVec.length ≤ 0 ∧
                range.bytes value.toVec ≠ [] ∧
                bitAt value.toVec 0 = false) ∨
              (range.isOpen = true ∧ value.toVec = [])
          else on ∈ bits (range.bytes value.toVec) ∨
            on = true ∧ (0 ≤ range.stop ∨
              ∀ byte ∈ range.behind value.toVec, byte = 0)) := by
  constructor
  · intro range given
    rw [bitcount_answers named given present fits, Int.natCast_inj,
      ByteRange.count_covered]
  · intro on range sought given
    have start : range.start ≤ i64Max := by
      have fits := (given_fits given).1
      unfold inI64 at fits
      simp only [Bool.and_eq_true, decide_eq_true_eq] at fits
      exact fits.2
    rw [bitpos_answers named sought given present fits]
    by_cases unseen : range.Unseen
    · rw [if_pos unseen, ByteRange.firstCovered_unseen unseen]
    · rw [if_neg unseen, ByteRange.firstCovered_seen unseen start]

end

/-! ## A string of two bytes -/

section

attribute [local instance] Platform.integral

/-- The ones of the second byte, and the first one in it. -/
theorem bits_in_last_byte :
    Answers (.still 0) (storedString (.data (text "ab")))
        (bitcount [text "BITCOUNT", text "k", text "1", text "1"] 0)
        ((ByteRange.between 1 1).ones (text "ab")) ∧
      Answers (.still 0) (storedString (.data (text "ab")))
        (bitpos [text "BITPOS", text "k", text "1", text "1", text "1"] 0)
        ((ByteRange.between 1 1).bitIndex (text "ab") true) := by
  constructor
  · refine ((bits_in_range rfl (storedString_present _) (by decide)).1
      (.between 1 1) ⟨by decide, by decide, by decide⟩).mpr
      ⟨by simp [ByteRange.stop], ?_⟩
    rw [if_neg (by decide)]
    exact .inl (by decide)
  · refine ((bits_in_range rfl (storedString_present _) (by decide)).2 true
      (.between 1 1) (by decide) ⟨by decide, by decide, by decide⟩).mpr
      ⟨by simp [ByteRange.stop], ?_⟩
    rw [if_neg (by decide)]
    exact .inl (by decide)

/-- All ones of a string, from its first byte on. -/
theorem bits_not_in_range :
    ¬ ∀ (env : Env) (db : Database) (argv : Arguments) (dbindex : Nat)
      (key : Bytes) (value : ValueString), argv.getVec 1 = .ok key →
      Present env db dbindex key (.string value) →
      (value.toVec.length : Int) ≤ i64Max →
      (∀ range : ByteRange, range.Given argv 2 →
        Answers env db (bitcount argv dbindex) (range.ones value.toVec)) ∧
      ∀ (on : Bool) (range : ByteRange),
        argv.getI64 2 = .ok (if on then 1 else 0) → range.Given argv 3 →
        Answers env db (bitpos argv dbindex)
          (range.bitIndex value.toVec on) := by
  intro answers
  let argv := [text "BITCOUNT", text "k"]
  have panics : (((bitcount argv 0).lift readInclusion).run
      (machine (.still 0))
      (storedString (.data (text "ab")))).isNone = true := by
    decide +kernel
  have ran := (answers (.still 0) (storedString _) argv 0 (text "k")
    (.data (text "ab")) rfl (storedString_present _) (by decide)).1 .whole rfl
  unfold Answers at ran
  rw [ran] at panics
  cases panics

end

end Command

end RedVector
