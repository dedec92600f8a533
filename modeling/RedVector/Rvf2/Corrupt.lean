import RedVector.Rvf2.DocIndex

/-!
# Corrupt files

The lookups on any file whose header passes the checks.  They answer without
overflow, and without reading outside of the file, exactly if the offset of
the first entry that they read, or the end of the bytes that are asked for, is
a machine word.
-/

namespace RedVector.Rvf2

open Codec Util

/-! ## Reads with their bounds -/

namespace Segment

variable [Platform]

/-- `&self.mmap[start..stop]`; bounds outside of the file panic. -/
def slice (segment : Segment) (start stop : Nat) : Option Bytes :=
  if start ≤ stop ∧ stop ≤ segment.mmap.length then
    some ((segment.mmap.drop start).take (stop - start))
  else none

/-- The outer `none` is a panic. -/
def getBytes (segment : Segment) (offset len : Nat) :
    Option (Option Bytes) := do
  if segment.mmap.length < (← usize (offset + len : Nat)) then pure none
  else do
    let bytes ← segment.slice offset (← usize (offset + len : Nat))
    pure (some bytes)

/-- `get_record` with every sum and every slice; `none` is a panic, or a read
that leaves the mapping. -/
def readRecord (segment : Segment) (offset len : UInt32) :
    Option (Except Rvf2Error DocRecord) := do
  let offset := offset.toNat
  let len := len.toNat
  let stop ← usize (offset + len : Nat)
  if segment.mmap.length < stop ∨ len < DocRecordHeader.size then
    pure (.error invalidBounds)
  else do
    let (header, _) ← DocRecordHeader.decode.run (segment.mmap.drop offset)
    let pooled := header.pooledLen.toNat
    let patches := header.patchesLen.toNat
    let two ← usize (pooled + patches : Nat)
    let payload ← usize (two + header.scalesLen.toNat : Nat)
    let total ← usize (DocRecordHeader.size + payload : Nat)
    if total ≠ len then
      pure (.error (.io (text "Record size mismatch: header says " ++
        natToString total ++ text ", entry says " ++ natToString len)))
    else do
      let payloadStart ← usize (offset + DocRecordHeader.size : Nat)
      let pooledEnd ← usize (payloadStart + pooled : Nat)
      let patchesEnd ← usize (pooledEnd + patches : Nat)
      let scalesEnd ← usize (patchesEnd + header.scalesLen.toNat : Nat)
      pure (.ok
        { header := header
          pooled := ← segment.slice payloadStart pooledEnd
          patches := ← segment.slice pooledEnd patchesEnd
          scales := ← segment.slice patchesEnd scalesEnd })

end Segment

namespace DocIndex

variable [Platform]

/-- `DocIndexIter::next`, with the position that it leaves. -/
def next (index : DocIndex) (pos : Nat) :
    Option (Option DocEntry × Nat) :=
  if index.len ≤ pos then some (none, pos)
  else do
    match ← index.getByIndex pos with
    | none => pure (none, pos)
    | some entry => do
        let pos ← usize (pos + 1 : Nat)
        pure (some entry, pos)

/-- The entries of an iterator up to its end; the inner `none` is that the
rounds were not enough to reach it. -/
def entriesFrom (index : DocIndex) :
    Nat → Nat → Option (Option (List DocEntry))
  | 0, _ => some none
  | rounds + 1, pos => do
      match ← index.next pos with
      | (none, _) => pure (some [])
      | (some entry, after) => do
          let rest ← entriesFrom index rounds after
          pure (rest.map (entry :: ·))

/-- Every round but the last one takes an entry of the file. -/
def iter (index : DocIndex) : Option (Option (List DocEntry)) :=
  index.entriesFrom (index.mmap.length / DocEntry.size + 1) 0

end DocIndex

/-! ## Records and bytes -/

namespace Segment

theorem takes_docRecordHeader :
    Takes DocRecordHeader.decode DocRecordHeader.size := by
  have u16 : Takes (number 2) 2 := (takes_symbols 2).map _
  have u32 : Takes (number 4) 4 := (takes_symbols 4).map _
  have u64 : Takes (number 8) 8 := (takes_symbols 8).map _
  exact u64.bind fun _ => u16.bind fun _ => u16.bind fun _ =>
    takes_symbol.bind fun _ => takes_symbol.bind fun _ =>
      u16.bind fun _ => u32.bind fun _ => u32.bind fun _ =>
        u32.bind fun _ => u32.bind fun _ => takes_pure _

variable [platform : Platform] {segment : Segment}

omit platform in
theorem slice_run {start count : Nat}
    (inside : start + count ≤ segment.mmap.length) :
    segment.slice start (start + count) =
      some ((segment.mmap.drop start).take count) := by
  unfold slice
  rw [if_pos ⟨Nat.le_add_right _ _, inside⟩, Nat.add_sub_cancel_left]

/-- The sums of 32-bit numbers fit, and a record of the size that is asked for
lies in the file. -/
theorem readRecord_eq (segment : Segment) (offset len : UInt32) :
    segment.readRecord offset len = some (segment.getRecord offset len) := by
  have offsetFits := offset.toNat_lt
  have lenFits := len.toNat_lt
  have sum : ∀ number : Nat, number < 2 ^ 35 → usize number = some number :=
    fun number small => usize_of rfl (by unfold usizeMax; omega)
  unfold readRecord getRecord
  dsimp only
  rw [sum _ (by omega), Option.bind_eq_bind, Option.bind_some]
  by_cases bad : segment.mmap.length < offset.toNat + len.toNat ∨
      len.toNat < DocRecordHeader.size
  · rw [if_pos bad, if_pos bad]
    rfl
  · rw [if_neg bad, if_neg bad]
    rw [not_or, Nat.not_lt, Nat.not_lt] at bad
    obtain ⟨header, decodes⟩ := takes_docRecordHeader.slice
      (bad.1.trans' (Nat.add_le_add_left bad.2 offset.toNat))
    have pooledFits := header.pooledLen.toNat_lt
    have patchesFits := header.patchesLen.toNat_lt
    have scalesFits := header.scalesLen.toNat_lt
    have total : header.totalSize = DocRecordHeader.size +
        (header.pooledLen.toNat + header.patchesLen.toNat +
          header.scalesLen.toNat) := rfl
    have size : DocRecordHeader.size = 32 := rfl
    rw [decodes, Option.bind_eq_bind, Option.bind_some]
    dsimp only
    rw [sum _ (by omega), Option.bind_some,
      sum _ (by omega), Option.bind_some, sum _ (by omega), Option.bind_some,
      ← total]
    by_cases other : header.totalSize ≠ len.toNat
    · rw [if_pos other, if_pos other]
      rfl
    · rw [if_neg other, if_neg other]
      rw [not_not] at other
      rw [sum _ (by omega), Option.bind_some, sum _ (by omega),
        Option.bind_some, sum _ (by omega), Option.bind_some,
        sum _ (by omega), Option.bind_some, slice_run (by omega),
        Option.bind_eq_bind, Option.bind_some, slice_run (by omega),
        Option.bind_some, slice_run (by omega)]
      rfl

theorem getBytes_run {offset len : Nat} (fits : offset + len ≤ usizeMax) :
    (segment.getBytes offset len).isSome = true := by
  have sum : usize (offset + len : Nat) = some (offset + len) :=
    usize_of rfl fits
  unfold getBytes
  rw [sum, Option.bind_eq_bind, Option.bind_some]
  by_cases outside : segment.mmap.length < offset + len
  · rw [if_pos outside]
    rfl
  · rw [if_neg outside, Option.bind_some, slice_run (Nat.not_lt.mp outside)]
    rfl

theorem fits_of_getBytes {offset len : Nat}
    (handled :
      (@getBytes (platform.built true) segment offset len).isSome = true) :
    offset + len ≤ usizeMax := by
  obtain ⟨answer, got⟩ := Option.isSome_iff_exists.mp handled
  obtain ⟨sum, summed, -⟩ := Option.bind_eq_some_iff.mp got
  have fits := (checked_usize summed).2.1
  omega

end Segment

/-! ## Entries -/

/-- The end of an entry is a machine word. -/
def EntryFits (place : Nat) : Prop :=
  DocIndexHeader.size + place * DocEntry.size + DocEntry.size ≤ usizeMax

instance (place : Nat) : Decidable (EntryFits place) :=
  inferInstanceAs (Decidable (_ ≤ _))

namespace DocIndex

theorem takes_docEntry : Takes DocEntry.decode DocEntry.size := by
  have u16 : Takes (number 2) 2 := (takes_symbols 2).map _
  have u32 : Takes (number 4) 4 := (takes_symbols 4).map _
  have u64 : Takes (number 8) 8 := (takes_symbols 8).map _
  exact u64.bind fun _ => u32.bind fun _ => u32.bind fun _ =>
    u32.bind fun _ => u16.bind fun _ => u16.bind fun _ => takes_pure _

/-- The entry at a place, if the file has it. -/
def entryAt (index : DocIndex) (place : Nat) : Option DocEntry :=
  if index.len ≤ place ∨ index.mmap.length <
      DocIndexHeader.size + place * DocEntry.size + DocEntry.size then none
  else
    (DocEntry.decode.run (index.mmap.drop
      (DocIndexHeader.size + place * DocEntry.size))).map Prod.fst

/-- The file has a live entry of a document at a place. -/
def Holds (index : DocIndex) (docId : UInt64) (place : Nat) : Prop :=
  ∃ entry, index.entryAt place = some entry ∧ entry.docId = docId ∧
    entry.isTombstone = false

variable {index : DocIndex} {docId : UInt64} {place : Nat}

theorem inside_of_entryAt {entry : DocEntry}
    (found : index.entryAt place = some entry) :
    place < index.len ∧
      DocIndexHeader.size + place * DocEntry.size + DocEntry.size ≤
        index.mmap.length := by
  unfold entryAt at found
  split at found
  · cases found
  · rename_i inside
    rw [not_or, Nat.not_le, Nat.not_lt] at inside
    exact inside

/-- The entries before one of the file fit. -/
theorem fits_of_entryAt {entry : DocEntry} {before : Nat}
    (mapped : index.mmap.length ≤ 9223372036854775807)
    (found : index.entryAt place = some entry) (earlier : before ≤ place) :
    EntryFits before := by
  have inside := (inside_of_entryAt found).2
  unfold EntryFits
  unfold DocIndexHeader.size DocEntry.size at *
  unfold usizeMax
  omega

section

variable [Platform]

theorem getByIndex_run (fits : index.len ≤ place ∨ EntryFits place) :
    index.getByIndex place = some (index.entryAt place) := by
  unfold getByIndex entryAt
  by_cases behind : index.len ≤ place
  · rw [if_pos behind, if_pos (.inl behind)]
  · have fits := fits.resolve_left behind
    unfold EntryFits at fits
    have before : usize (place * DocEntry.size : Nat) =
        some (place * DocEntry.size) := usize_of rfl (by omega)
    have offset : usize
        (DocIndexHeader.size + place * DocEntry.size : Nat) =
          some (DocIndexHeader.size + place * DocEntry.size) :=
      usize_of rfl (by omega)
    have stop : usize
        (DocIndexHeader.size + place * DocEntry.size + DocEntry.size : Nat) =
          some (DocIndexHeader.size + place * DocEntry.size + DocEntry.size) :=
      usize_of rfl fits
    rw [if_neg behind, before, Option.bind_eq_bind, Option.bind_some, offset,
      Option.bind_some, stop, Option.bind_some]
    by_cases outside : index.mmap.length <
        DocIndexHeader.size + place * DocEntry.size + DocEntry.size
    · rw [if_pos outside, if_pos (.inr outside)]
    · rw [if_neg outside, if_neg (by rw [not_or]; exact ⟨behind, outside⟩)]
      obtain ⟨entry, decodes⟩ :=
        takes_docEntry.slice (Nat.not_lt.mp outside)
      rw [decodes]
      rfl

/-- Where the entries of a range fit, the search in it answers. -/
theorem search_run {rounds left right : Nat} (most : right ≤ index.len)
    (fits : ∀ place < right, EntryFits place) :
    (index.search docId rounds left right).isSome = true := by
  induction rounds generalizing left right with
  | zero => rfl
  | succ rounds ih =>
      rw [search]
      split
      · rename_i proper
        have below : left + (right - left) / 2 < right := by omega
        dsimp only
        rw [getByIndex_run (.inr (fits _ below)), Option.bind_eq_bind,
          Option.bind_some]
        split
        · rfl
        · split
          · split
            · rfl
            · rfl
          · split
            · exact ih most fits
            · exact ih (by omega) fun place inside =>
                fits place (by omega)
      · rfl

/-- The middle entry decides: behind one that the file has all fit. -/
theorem sorted_run (mapped : index.mmap.length ≤ 9223372036854775807)
    (fits : index.len = 0 ∨ EntryFits (index.len / 2)) :
    (index.search docId index.len 0 index.len).isSome = true := by
  cases count : index.len with
  | zero => rfl
  | succ rounds =>
      have middle : EntryFits ((rounds + 1) / 2) := by
        rw [← count]
        exact fits.resolve_left (by omega)
      rw [search, if_pos (Nat.succ_pos rounds)]
      dsimp only
      rw [Nat.zero_add, Nat.sub_zero, getByIndex_run (.inr middle),
        Option.bind_eq_bind, Option.bind_some]
      cases found : index.entryAt ((rounds + 1) / 2) with
      | none => rfl
      | some entry =>
          have inside := (inside_of_entryAt found).2
          have all : ∀ place < rounds + 1, EntryFits place := by
            intro place before
            unfold EntryFits
            unfold DocIndexHeader.size DocEntry.size at *
            unfold usizeMax
            omega
          dsimp only
          split
          · split
            · rfl
            · rfl
          · split
            · exact search_run (Nat.le_of_eq count.symm) all
            · exact search_run (by omega) fun place before =>
                all place (by omega)

theorem scan_run (mapped : index.mmap.length ≤ 9223372036854775807)
    {rounds : Nat}
    (fits : (∀ other < place + rounds, EntryFits other) ∨
      ∃ other, place ≤ other ∧ index.Holds docId other) :
    (index.scan docId rounds place).isSome = true := by
  induction rounds generalizing place with
  | zero => rfl
  | succ rounds ih =>
      have own : EntryFits place := by
        rcases fits with all | ⟨other, behind, entry, found, -⟩
        · exact all place (by omega)
        · exact fits_of_entryAt mapped found behind
      rw [scan, getByIndex_run (.inr own), Option.bind_eq_bind,
        Option.bind_some]
      have rest : (∀ entry, index.entryAt place = some entry →
          (entry.docId = docId && !entry.isTombstone) = false) →
          (index.scan docId rounds (place + 1)).isSome = true := by
        intro passed
        apply ih
        rcases fits with all | ⟨other, behind, entry, found, same, live⟩
        · exact .inl fun other before => all other (by omega)
        · refine .inr ⟨other, ?_, entry, found, same, live⟩
          rcases Nat.eq_or_lt_of_le behind with rfl | after
          · have no := passed entry found
            rw [same, live] at no
            simp at no
          · exact after
      cases found : index.entryAt place with
      | none =>
          dsimp only
          exact rest (by rw [found]; nofun)
      | some entry =>
          dsimp only
          split
          · rfl
          · rename_i other
            refine rest fun same again => ?_
            rw [found] at again
            cases again
            exact Bool.eq_false_of_not_eq_true other

theorem next_run (fits : EntryFits place) :
    index.next place = some (match index.entryAt place with
      | none => (none, place)
      | some entry => (some entry, place + 1)) := by
  unfold next
  by_cases ended : index.len ≤ place
  · have none : index.entryAt place = none := if_pos (.inl ended)
    rw [if_pos ended, none]
  · have after : usize (place + 1 : Nat) = some (place + 1) :=
      usize_of rfl (by
        unfold EntryFits DocEntry.size at fits
        omega)
    rw [if_neg ended, getByIndex_run (.inr fits), Option.bind_eq_bind,
      Option.bind_some]
    cases index.entryAt place with
    | none => rfl
    | some entry =>
        dsimp only
        rw [after]
        rfl

/-- Every entry that is read is one of the file, and the last round finds no
room for another one. -/
theorem entriesFrom_run (mapped : index.mmap.length ≤ 9223372036854775807)
    {rounds pos : Nat}
    (read : DocIndexHeader.size + pos * DocEntry.size ≤ index.mmap.length)
    (enough : pos + rounds = index.mmap.length / DocEntry.size + 1) :
    ∃ entries, index.entriesFrom rounds pos = some (some entries) := by
  induction rounds generalizing pos with
  | zero =>
      unfold DocIndexHeader.size DocEntry.size at *
      omega
  | succ rounds ih =>
      have fits : EntryFits pos := by
        unfold EntryFits
        unfold DocIndexHeader.size DocEntry.size at *
        unfold usizeMax
        omega
      rw [entriesFrom, next_run fits]
      cases found : index.entryAt pos with
      | none => exact ⟨[], rfl⟩
      | some entry =>
          have inside := (inside_of_entryAt found).2
          obtain ⟨entries, rest⟩ := @ih (pos + 1)
            (by rw [Nat.succ_mul, ← Nat.add_assoc]; exact inside) (by omega)
          refine ⟨entry :: entries, ?_⟩
          show ((index.entriesFrom rounds (pos + 1)).bind _) = _
          rw [rest]
          rfl

end

/-! With overflow checks an entry that does not fit ends the lookup. -/

section

variable [platform : Platform]

theorem fits_of_getByIndex
    (handled :
      (@getByIndex (platform.built true) index place).isSome = true) :
    index.len ≤ place ∨ EntryFits place := by
  by_contra other
  rw [not_or] at other
  obtain ⟨answer, got⟩ := Option.isSome_iff_exists.mp handled
  unfold getByIndex at got
  rw [if_neg other.1] at got
  obtain ⟨before, multiplied, got⟩ := Option.bind_eq_some_iff.mp got
  obtain ⟨offset, added, got⟩ := Option.bind_eq_some_iff.mp got
  obtain ⟨stop, summed, -⟩ := Option.bind_eq_some_iff.mp got
  have first := checked_usize multiplied
  have second := checked_usize added
  have third := checked_usize summed
  apply other.2
  unfold EntryFits
  omega

theorem fits_of_sorted
    (handled : (@search (platform.built true) index docId index.len 0
      index.len).isSome = true) :
    index.len = 0 ∨ EntryFits (index.len / 2) := by
  cases count : index.len with
  | zero => exact .inl rfl
  | succ rounds =>
      right
      rw [count] at handled
      unfold search at handled
      rw [if_pos (Nat.succ_pos rounds)] at handled
      dsimp only at handled
      rw [Nat.zero_add, Nat.sub_zero] at handled
      obtain ⟨answer, got⟩ := Option.isSome_iff_exists.mp handled
      obtain ⟨entry, read, -⟩ := Option.bind_eq_some_iff.mp got
      have fits := fits_of_getByIndex (Option.isSome_iff_exists.mpr ⟨_, read⟩)
      exact fits.resolve_left (by omega)

theorem fits_of_scan {rounds : Nat} (most : place + rounds ≤ index.len)
    (handled : (@scan (platform.built true) index docId rounds
      place).isSome = true) :
    (∀ other, place ≤ other → other < place + rounds → EntryFits other) ∨
      ∃ other, index.Holds docId other := by
  induction rounds generalizing place with
  | zero => exact .inl fun other behind before => by omega
  | succ rounds ih =>
      unfold scan at handled
      obtain ⟨answer, got⟩ := Option.isSome_iff_exists.mp handled
      obtain ⟨entry, read, rest⟩ := Option.bind_eq_some_iff.mp got
      have own : EntryFits place :=
        (fits_of_getByIndex
          (Option.isSome_iff_exists.mpr ⟨_, read⟩)).resolve_left (by omega)
      have is := @getByIndex_run index place (platform.built true) (.inr own)
      rw [read] at is
      have further : (@scan (platform.built true) index docId rounds
          (place + 1)).isSome = true →
          (∀ other, place ≤ other → other < place + (rounds + 1) →
            EntryFits other) ∨ ∃ other, index.Holds docId other := by
        intro scanned
        refine (ih (by omega) scanned).imp_left
          fun all other behind before => ?_
        rcases Nat.eq_or_lt_of_le behind with rfl | after
        · exact own
        · exact all other after (by omega)
      cases entry with
      | none => exact further (Option.isSome_iff_exists.mpr ⟨_, rest⟩)
      | some entry =>
          dsimp only at rest
          split at rest
          · rename_i found
            simp only [Bool.and_eq_true, decide_eq_true_eq,
              Bool.not_eq_true'] at found
            exact .inr ⟨place, entry, (Option.some.inj is).symm, found.1,
              found.2⟩
          · exact further (Option.isSome_iff_exists.mpr ⟨_, rest⟩)

end

theorem opened {file : Bytes} (opens : ofFile file = .ok index) :
    index.mmap = file ∧ DocIndexHeader.size ≤ file.length := by
  unfold ofFile at opens
  split at opens
  · cases opens
  · rename_i long
    split at opens
    · cases opens
    · split at opens
      · cases opens
      · split at opens
        · cases opens
        · cases opens
          exact ⟨rfl, Nat.not_lt.mp long⟩

end DocIndex

/-! ## All lookups -/

/-- A lookup in a doc index or in a segment. -/
inductive FileCall where
  | getByIndex (place : UInt64)
  | get (docId : UInt64)
  | iter
  | getRecord (offset len : UInt32)
  | getBytes (offset len : UInt64)

namespace FileCall

/-- The lookup answers, in builds with and without overflow checks. -/
def Handled [platform : Platform] (index : DocIndex) (segment : Segment)
    (call : FileCall) : Prop :=
  ∀ checks, match call with
    | getByIndex place =>
        (@DocIndex.getByIndex (platform.built checks) index
          place.toNat).isSome = true
    | get docId =>
        (@DocIndex.get (platform.built checks) index docId).isSome = true
    | iter =>
        ∃ entries, @DocIndex.iter (platform.built checks) index =
          some (some entries)
    | getRecord offset len =>
        @Segment.readRecord (platform.built checks) segment offset len =
          some (segment.getRecord offset len)
    | getBytes offset len =>
        (@Segment.getBytes (platform.built checks) segment offset.toNat
          len.toNat).isSome = true

/-- The offsets that the lookup computes first are machine words. -/
def Fits (index : DocIndex) : FileCall → Prop
  | getByIndex place => index.len ≤ place.toNat ∨ EntryFits place.toNat
  | get docId =>
      if index.header.flags &&& DocIndexHeader.sorted = 0 then
        DocIndexHeader.size + index.len * DocEntry.size ≤ usizeMax ∨
          ∃ place, index.Holds docId place
      else index.len = 0 ∨ EntryFits (index.len / 2)
  | iter => True
  | getRecord _ _ => True
  | getBytes offset len => offset.toNat + len.toNat ≤ usizeMax

/-- On any file that opens a lookup is handled exactly if the offsets that it
computes first are machine words. -/
theorem handled_iff [platform : Platform] {file : Bytes}
    (mapped : file.length ≤ 9223372036854775807) {index : DocIndex}
    (opens : DocIndex.ofFile file = .ok index) (segment : Segment)
    (call : FileCall) : call.Handled index segment ↔ call.Fits index := by
  obtain ⟨rfl, headed⟩ := DocIndex.opened opens
  cases call with
  | getByIndex place =>
      constructor
      · intro handled
        exact DocIndex.fits_of_getByIndex (handled true)
      · intro fits checks
        show Option.isSome _ = true
        rw [@DocIndex.getByIndex_run _ _ (platform.built checks) fits]
        rfl
  | get docId =>
      show (∀ checks, (@DocIndex.get (platform.built checks) index
        docId).isSome = true) ↔ ite _ _ _
      unfold DocIndex.get DocIndex.linearScan
      by_cases unsorted : index.header.flags &&& DocIndexHeader.sorted = 0
      · simp only [if_pos unsorted]
        constructor
        · intro handled
          refine (DocIndex.fits_of_scan (by omega)
            (handled true)).imp_left fun all => ?_
          by_cases none : index.len = 0
          · rw [none]
            decide
          · have last := all (index.len - 1) (by omega) (by omega)
            unfold EntryFits at last
            unfold DocEntry.size at *
            omega
        · intro fits checks
          refine @DocIndex.scan_run _ _ _ (platform.built checks) mapped _ ?_
          refine fits.imp (fun all other before => ?_) fun ⟨place, holds⟩ =>
            ⟨place, Nat.zero_le place, holds⟩
          unfold EntryFits
          unfold DocEntry.size at *
          omega
      · simp only [if_neg unsorted]
        exact ⟨fun handled => DocIndex.fits_of_sorted (handled true),
          fun fits checks =>
            @DocIndex.sorted_run _ _ (platform.built checks) mapped fits⟩
  | iter =>
      refine ⟨fun _ => trivial, fun _ checks => ?_⟩
      exact @DocIndex.entriesFrom_run _ (platform.built checks) mapped _ 0
        headed (Nat.zero_add _)
  | getRecord offset len =>
      refine ⟨fun _ => trivial, fun _ checks => ?_⟩
      exact @Segment.readRecord_eq (platform.built checks) segment offset len
  | getBytes offset len =>
      exact ⟨fun handled => Segment.fits_of_getBytes (handled true),
        fun fits checks =>
          @Segment.getBytes_run (platform.built checks) segment _ _ fits⟩

end FileCall

section

attribute [local instance] Platform.integral

/-- A sorted index file of a header only, for a number of entries. -/
def headerOnly (entryCount : Bytes) : Bytes :=
  text "RVDI" ++ [2, 0, 0, 0] ++ entryCount ++ [1, 0, 0, 0] ++
    List.replicate 12 0

def headerOnlyIndex (entryCount : UInt64) (file : Bytes) : DocIndex where
  mmap := file
  header :=
    { magic := docIndexMagic
      version := version
      entryCount := entryCount
      flags := DocIndexHeader.sorted
      reserved := List.replicate 12 0 }

def emptySegment : Segment where
  mmap := []
  header := .new 0 .sq8 0 0

/-- The header tells of entries that the file does not have. -/
theorem handled_truncated :
    (FileCall.get 7).Handled
      (headerOnlyIndex 3 (headerOnly [3, 0, 0, 0, 0, 0, 0, 0]))
      emptySegment := by
  have mapped : (headerOnly [3, 0, 0, 0, 0, 0, 0, 0]).length ≤
      9223372036854775807 := by decide
  have opens : DocIndex.ofFile (headerOnly [3, 0, 0, 0, 0, 0, 0, 0]) =
      .ok (headerOnlyIndex 3 (headerOnly [3, 0, 0, 0, 0, 0, 0, 0])) := rfl
  have fits : EntryFits 1 := by decide
  exact (FileCall.handled_iff mapped opens emptySegment (.get 7)).mpr
    (.inr fits)

/-- The search multiplies the middle of 2⁶⁴ - 1 entries by their size. -/
theorem overflows_huge :
    DocIndex.ofFile
        (headerOnly [255, 255, 255, 255, 255, 255, 255, 255]) =
      .ok (headerOnlyIndex 18446744073709551615
        (headerOnly [255, 255, 255, 255, 255, 255, 255, 255])) ∧
      ¬(FileCall.get 7).Handled (headerOnlyIndex 18446744073709551615
        (headerOnly [255, 255, 255, 255, 255, 255, 255, 255]))
        emptySegment := by
  refine ⟨rfl, ?_⟩
  intro handled
  rcases DocIndex.fits_of_sorted (handled true) with none | fits
  · revert none
    decide
  · revert fits
    decide

end

end RedVector.Rvf2
