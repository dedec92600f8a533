import RedVector.Rvf2.Segment

/-!
# Reading segments back

Every record is read back from its entry exactly if the offsets and the sizes
fit the 32 bits that the builder narrows them to.
-/

namespace RedVector.Rvf2

open Codec Util

/-! ## The headers -/

theorem reads_u16 (value : UInt16) :
    Reads (number 2) (Rdb.lowBytes 2 value.toNat) value.toNat :=
  Rdb.reads_number (by exact value.toNat_lt)

theorem reads_u32 (value : UInt32) :
    Reads (number 4) (Rdb.lowBytes 4 value.toNat) value.toNat :=
  Rdb.reads_number (by exact value.toNat_lt)

theorem reads_u64 (value : UInt64) :
    Reads (number 8) (Rdb.lowBytes 8 value.toNat) value.toNat :=
  Rdb.reads_number (by exact value.toNat_lt)

theorem reads_taken
    {count : Nat} {bytes : Bytes} (length : bytes.length = count) :
    Reads (symbols count) bytes bytes := by
  subst length
  exact reads_symbols bytes

/-- The fields of a record header are read back one after the other. -/
theorem reads_docRecordHeader (header : DocRecordHeader) :
    Reads DocRecordHeader.decode header.toBytes header := by
  unfold DocRecordHeader.decode DocRecordHeader.toBytes
  apply (reads_u64 header.docId).bind
  apply (reads_u16 header.nPatches).bind
  apply (reads_u16 header.dims).bind
  apply reads_symbol_bind
  apply reads_symbol_bind
  apply (reads_u16 header.reserved).bind
  apply (reads_u32 header.pooledLen).bind
  apply (reads_u32 header.patchesLen).bind
  apply (reads_u32 header.scalesLen).bind
  apply (reads_u32 header.recordCrc32c).ends
  simp only [UInt64.ofNat_toNat, UInt32.ofNat_toNat, UInt16.ofNat_toNat]
  exact reads_pure header

theorem docRecordHeader_length (header : DocRecordHeader) :
    header.toBytes.length = DocRecordHeader.size := by
  simp [DocRecordHeader.toBytes, DocRecordHeader.size]

theorem reads_segmentHeader
    {header : SegmentHeader} (isMagic : header.magic.length = 4)
    (isReserved : header.reserved.length = 24) :
    Reads SegmentHeader.decode header.fields header := by
  unfold SegmentHeader.decode SegmentHeader.fields
  apply (reads_taken isMagic).bind
  apply (reads_u32 header.version).bind
  apply (reads_u32 header.segmentId).bind
  apply reads_symbol_bind
  apply reads_symbol_bind
  apply (reads_u16 header.headerLen).bind
  apply (reads_u32 header.docCount).bind
  apply (reads_u32 header.indexOffset).bind
  apply (reads_u32 header.indexLen).bind
  apply (reads_u32 header.crc32c).bind
  apply (reads_u16 header.dims).bind
  apply (reads_u16 header.patchesPerDoc).bind
  apply (reads_taken isReserved).ends
  simp only [UInt32.ofNat_toNat, UInt16.ofNat_toNat]
  exact reads_pure header

theorem segmentHeader_length
    {header : SegmentHeader} (isMagic : header.magic.length = 4)
    (isReserved : header.reserved.length = 24) :
    header.toBytes.length = SegmentHeader.size := by
  simp [SegmentHeader.toBytes, SegmentHeader.fields, SegmentHeader.size,
    isMagic, isReserved]

/-! ## What the builder writes -/

/-- How many bytes a record takes in the file. -/
def Record.size (record : Record) : Nat :=
  DocRecordHeader.size +
    (record.pooled.length + record.patches.length + record.scales.length)

/-- The header of a record, with its lengths as they are narrowed. -/
def Record.header (dims : UInt16) (record : Record) : DocRecordHeader where
  docId := record.docId
  nPatches := record.nPatches
  dims := dims
  pooledCodec := record.pooledCodec.toByte
  patchesCodec := record.patchesCodec.toByte
  reserved := 0
  pooledLen := .ofNat record.pooled.length
  patchesLen := .ofNat record.patches.length
  scalesLen := .ofNat record.scales.length
  recordCrc32c := 0

def Record.toBytes (dims : UInt16) (record : Record) : Bytes :=
  (record.header dims).toBytes ++
    (record.pooled ++ (record.patches ++ record.scales))

@[simp] theorem Record.toBytes_length (dims : UInt16) (record : Record) :
    (record.toBytes dims).length = record.size := by
  unfold toBytes size
  rw [List.length_append, docRecordHeader_length]
  simp only [List.length_append]
  omega

/-- The entries of records that begin at an offset. -/
def entries (dims : UInt16) : Nat → List Record → List DocOffset
  | _, [] => []
  | offset, record :: rest =>
      ⟨record.docId, .ofNat offset, .ofNat (record.header dims).totalSize⟩ ::
        entries dims (offset + record.size) rest

section

variable [Platform]

theorem increment_eq
    {count after : UInt32}
    (counted : SegmentBuilder.increment count = some after) :
    after = count + 1 := by
  unfold SegmentBuilder.increment at counted
  split at counted
  · exact (Option.some.inj counted).symm
  · split at counted
    · cases counted
    · exact (Option.some.inj counted).symm

/-- A builder with the data, the entries and the count that records add. -/
structure Extends (builder final : SegmentBuilder) (records : List Record) :
    Prop where
  data : final.data = builder.data ++
    records.flatMap (Record.toBytes builder.header.dims)
  docOffsets : final.docOffsets = builder.docOffsets ++
    entries builder.header.dims builder.data.length records
  header : final.header = { builder.header with
    docCount := builder.header.docCount + .ofNat records.length }

theorem addRecord_extends
    {builder : SegmentBuilder} {record : Record}
    {result : Except Rvf2Error SegmentBuilder}
    (added : builder.addRecord record = some result) :
    ∃ after, result = .ok after ∧ Extends builder after [record] := by
  unfold SegmentBuilder.addRecord at added
  obtain ⟨count, counted, added⟩ := Option.bind_eq_some_iff.mp added
  cases added
  have isCount := increment_eq counted
  subst isCount
  refine ⟨_, rfl, ⟨?_, ?_, ?_⟩⟩
  · simp [Record.toBytes, Record.header]
  · rfl
  · rfl

theorem addRecords_extends
    {builder : SegmentBuilder} {records : List Record}
    {result : Except Rvf2Error SegmentBuilder}
    (added : builder.addRecords records = some result) :
    ∃ final, result = .ok final ∧ Extends builder final records := by
  induction records generalizing builder with
  | nil =>
      cases added
      exact ⟨builder, rfl, ⟨by simp, by simp [entries], by simp⟩⟩
  | cons record rest ih =>
      unfold SegmentBuilder.addRecords at added
      obtain ⟨first, now, added⟩ := Option.bind_eq_some_iff.mp added
      obtain ⟨after, rfl, extended⟩ := addRecord_extends now
      obtain ⟨final, rfl, later⟩ := ih added
      refine ⟨final, rfl, ⟨?_, ?_, ?_⟩⟩
      · rw [later.data, extended.data, extended.header]
        simp
      · rw [later.docOffsets, extended.docOffsets, extended.header,
          extended.data]
        simp [entries]
      · rw [later.header, extended.header]
        simp [UInt32.ofNat_add, UInt32.add_assoc, UInt32.add_comm]

/-- As long as the records can be counted, all of them are added. -/
theorem addRecords_total
    {builder : SegmentBuilder} {records : List Record}
    (few : builder.header.docCount.toNat + records.length < 4294967296) :
    ∃ final, builder.addRecords records = some (.ok final) := by
  induction records generalizing builder with
  | nil => exact ⟨builder, rfl⟩
  | cons record rest ih =>
      rw [List.length_cons] at few
      have counted : SegmentBuilder.increment builder.header.docCount =
          some (builder.header.docCount + 1) := by
        unfold SegmentBuilder.increment
        rw [if_pos (by omega)]
      have now : ∃ after, builder.addRecord record = some (.ok after) ∧
          after.header.docCount = builder.header.docCount + 1 := by
        unfold SegmentBuilder.addRecord
        rw [counted]
        exact ⟨_, rfl, rfl⟩
      obtain ⟨after, now, count⟩ := now
      have next : after.header.docCount.toNat + rest.length < 4294967296 := by
        rw [count, UInt32.toNat_add, UInt32.toNat_one]
        omega
      obtain ⟨final, later⟩ := ih next
      refine ⟨final, ?_⟩
      unfold SegmentBuilder.addRecords
      rw [now]
      exact later

end

/-! ## What the reader reads -/

/-- A record as it was given to the builder. -/
structure Matches (read : DocRecord) (record : Record) : Prop where
  docId : read.header.docId = record.docId
  nPatches : read.header.nPatches = record.nPatches
  pooledCodec : read.header.pooledCodec = record.pooledCodec.toByte
  patchesCodec : read.header.patchesCodec = record.patchesCodec.toByte
  pooled : read.pooled = record.pooled
  patches : read.patches = record.patches
  scales : read.scales = record.scales

theorem u32_exact {count : Nat} (small : count < 4294967296) :
    (UInt32.ofNat count).toNat = count := by
  rw [UInt32.toNat_ofNat']
  exact Nat.mod_eq_of_lt small

/-- The narrowed lengths of a record that fits are its lengths. -/
theorem header_totalSize
    (dims : UInt16) {record : Record} (small : record.size < 4294967296) :
    (record.header dims).totalSize = record.size := by
  unfold Record.size DocRecordHeader.size at small
  unfold Record.header DocRecordHeader.totalSize DocRecordHeader.payloadSize
  dsimp only
  rw [u32_exact (by omega), u32_exact (by omega), u32_exact (by omega)]
  rfl

theorem between
    {whole front middle back : Bytes}
    (parts : whole = front ++ (middle ++ back))
    {start count : Nat} (isStart : start = front.length)
    (isCount : count = middle.length) :
    (whole.drop start).take count = middle := by
  subst parts isStart isCount
  simp

/-- A record that begins and ends within 32 bits is read from where it was
written. -/
theorem getRecord_matches
    {segment : Segment} {dims : UInt16} {record : Record}
    {front back : Bytes}
    (mapped : segment.mmap = front ++ (record.toBytes dims ++ back))
    (begins : front.length < 4294967296)
    (small : record.size < 4294967296) :
    ∃ read, segment.getRecord (.ofNat front.length)
        (.ofNat (record.header dims).totalSize) = .ok read ∧
      Matches read record := by
  have total := header_totalSize dims small
  have least : DocRecordHeader.size ≤ record.size := Nat.le_add_right _ _
  have narrow := small
  unfold Record.size DocRecordHeader.size at narrow
  have pooledLen : (record.header dims).pooledLen.toNat =
      record.pooled.length := u32_exact (by omega)
  have patchesLen : (record.header dims).patchesLen.toNat =
      record.patches.length := u32_exact (by omega)
  have scalesLen : (record.header dims).scalesLen.toNat =
      record.scales.length := u32_exact (by omega)
  have header := docRecordHeader_length (record.header dims)
  have inside : ¬ (segment.mmap.length < front.length + record.size ∨
      record.size < DocRecordHeader.size) := by
    rw [mapped, List.length_append, List.length_append,
      Record.toBytes_length]
    omega
  have written : segment.mmap = front ++ ((record.header dims).toBytes ++
      (record.pooled ++ (record.patches ++ (record.scales ++ back)))) := by
    rw [mapped]
    simp [Record.toBytes]
  have decoded : DocRecordHeader.decode.run
      (segment.mmap.drop front.length) = some (record.header dims,
        record.pooled ++ (record.patches ++ (record.scales ++ back))) := by
    rw [written, List.drop_left]
    exact reads_docRecordHeader _ _
  unfold Segment.getRecord
  rw [total, u32_exact begins, u32_exact small]
  dsimp only
  rw [if_neg inside, decoded]
  dsimp only
  rw [if_neg (by rw [total]; simp)]
  refine ⟨_, rfl, rfl, rfl, rfl, rfl, ?_, ?_, ?_⟩
  · have parts : segment.mmap = (front ++ (record.header dims).toBytes) ++
        (record.pooled ++ (record.patches ++ (record.scales ++ back))) := by
      rw [written, List.append_assoc]
    exact between parts (by rw [List.length_append, header]) pooledLen
  · have parts : segment.mmap =
        (front ++ (record.header dims).toBytes ++ record.pooled) ++
          (record.patches ++ (record.scales ++ back)) := by
      rw [written]
      simp
    apply between parts _ patchesLen
    rw [List.length_append, List.length_append, header, pooledLen]
  · have parts : segment.mmap =
        (front ++ (record.header dims).toBytes ++ record.pooled ++
          record.patches) ++ (record.scales ++ back) := by
      rw [written]
      simp
    apply between parts _ scalesLen
    rw [List.length_append, List.length_append, List.length_append, header,
      pooledLen, patchesLen]

/-- What is read at an entry takes as many bytes as the entry says. -/
theorem size_of_matches
    {segment : Segment} {offset len : UInt32} {read : DocRecord}
    {record : Record} (found : segment.getRecord offset len = .ok read)
    (isRecord : Matches read record) : record.size = len.toNat := by
  unfold Segment.getRecord at found
  dsimp only at found
  split at found
  · cases found
  rename_i inside
  split at found
  · cases found
  rename_i header left decoded
  split at found
  · cases found
  rename_i same
  cases found
  have total : header.totalSize = len.toNat := by
    by_contra different
    exact same different
  have pooled := congrArg List.length isRecord.pooled
  have patches := congrArg List.length isRecord.patches
  have scales := congrArg List.length isRecord.scales
  unfold DocRecordHeader.totalSize DocRecordHeader.payloadSize
    DocRecordHeader.size at total
  unfold DocRecordHeader.size at inside pooled patches scales
  simp only [List.length_take, List.length_drop] at pooled patches scales
  unfold Record.size DocRecordHeader.size
  omega

/-! ## The round trip -/

/-- Records that are written from an offset on begin within 32 bits, and none
of them is larger. -/
def FitsFrom : Nat → List Record → Prop
  | _, [] => True
  | offset, record :: rest => offset < 4294967296 ∧
      record.size < 4294967296 ∧ FitsFrom (offset + record.size) rest

/-- The segment has the record of an entry at its place. -/
def ReadsAt (segment : Segment) (record : Record) (entry : DocOffset) : Prop :=
  entry.docId = record.docId ∧ ∃ read,
    segment.getRecord entry.offset entry.len = .ok read ∧ Matches read record

/-- One entry is behind the other. -/
def Behind (first second : DocOffset) : Prop :=
  first.offset.toNat + first.len.toNat ≤ second.offset.toNat

/-- If all records are read from entries that ascend, they fit. -/
theorem fits_of_reads
    {segment : Segment} {dims : UInt16} {records : List Record} {offset : Nat}
    (begins : offset < 4294967296)
    (reads : List.Forall₂ (ReadsAt segment) records
      (entries dims offset records))
    (ascending : (entries dims offset records).Pairwise Behind) :
    FitsFrom offset records := by
  induction records generalizing offset with
  | nil => trivial
  | cons record rest ih =>
      unfold entries at reads ascending
      obtain ⟨⟨-, read, found, isRecord⟩, others⟩ :=
        List.forall₂_cons.mp reads
      obtain ⟨behind, later⟩ := List.pairwise_cons.mp ascending
      have size := size_of_matches found isRecord
      have small : record.size < 4294967296 := by
        rw [size]
        exact UInt32.toNat_lt _
      refine ⟨begins, small, ?_⟩
      cases rest with
      | nil => trivial
      | cons next more =>
          have next := behind ⟨next.docId, .ofNat (offset + record.size),
            .ofNat (next.header dims).totalSize⟩ List.mem_cons_self
          unfold Behind at next
          dsimp only at next
          rw [← size, u32_exact begins] at next
          have below := UInt32.toNat_lt (.ofNat (offset + record.size))
          exact ih (by omega) others later

/-- Records that fit are read from their entries. -/
theorem reads_of_fits
    {segment : Segment} {dims : UInt16} {records : List Record}
    {front : Bytes} (fits : FitsFrom front.length records)
    (mapped : segment.mmap =
      front ++ records.flatMap (Record.toBytes dims)) :
    List.Forall₂ (ReadsAt segment) records
      (entries dims front.length records) := by
  induction records generalizing front with
  | nil => exact .nil
  | cons record rest ih =>
      obtain ⟨begins, small, later⟩ := fits
      rw [List.flatMap_cons] at mapped
      unfold entries
      refine .cons ⟨rfl, getRecord_matches mapped begins small⟩ ?_
      have next : (front ++ record.toBytes dims).length =
          front.length + record.size := by
        rw [List.length_append, Record.toBytes_length]
      rw [← next] at later ⊢
      apply ih later
      rw [mapped, List.append_assoc]

theorem entries_ascending
    {dims : UInt16} {records : List Record} {offset : Nat}
    (fits : FitsFrom offset records) :
    (entries dims offset records).Pairwise Behind ∧
      ∀ entry ∈ entries dims offset records,
        offset ≤ entry.offset.toNat := by
  induction records generalizing offset with
  | nil => exact ⟨.nil, by simp [entries]⟩
  | cons record rest ih =>
      obtain ⟨begins, small, later⟩ := fits
      obtain ⟨ascending, after⟩ := ih later
      unfold entries
      constructor
      · refine .cons ?_ ascending
        intro entry member
        unfold Behind
        dsimp only
        rw [u32_exact begins, header_totalSize dims small, u32_exact small]
        exact after entry member
      · intro entry member
        rcases List.mem_cons.mp member with rfl | among
        · exact (u32_exact begins).ge
        · exact (Nat.le_add_right _ _).trans (after entry among)

/-- The records but the last one end within 32 bits, with the header in front
of them, and no record is larger. -/
def Addressable (records : List Record) : Prop :=
  SegmentHeader.size + (records.dropLast.map Record.size).sum < 4294967296 ∧
    ∀ record ∈ records, record.size < 4294967296

theorem fitsFrom_iff
    {records : List Record} {offset : Nat} (begins : offset < 4294967296) :
    FitsFrom offset records ↔
      offset + (records.dropLast.map Record.size).sum < 4294967296 ∧
        ∀ record ∈ records, record.size < 4294967296 := by
  induction records generalizing offset with
  | nil => simpa [FitsFrom] using begins
  | cons record rest ih =>
      cases rest with
      | nil => simp [FitsFrom, begins]
      | cons next more =>
          rw [List.dropLast_cons_cons, List.map_cons, List.sum_cons,
            List.forall_mem_cons, ← Nat.add_assoc]
          constructor
          · rintro ⟨-, small, later⟩
            obtain ⟨ends, others⟩ := (ih later.1).mp later
            exact ⟨ends, small, others⟩
          · rintro ⟨ends, small, others⟩
            exact ⟨begins, small, (ih (by omega)).mpr ⟨ends, others⟩⟩

/-- Records that fit can be counted. -/
theorem Addressable.few
    {records : List Record} (addressable : Addressable records) :
    records.length < 4294967296 := by
  have least : ∀ others : List Record,
      others.length ≤ (others.map Record.size).sum := by
    intro others
    induction others with
    | nil => exact Nat.le_refl 0
    | cons record rest ih =>
        have positive : 0 < record.size := by
          unfold Record.size DocRecordHeader.size
          omega
        rw [List.length_cons, List.map_cons, List.sum_cons]
        omega
  have front := least records.dropLast
  have ends := addressable.1
  unfold SegmentHeader.size at ends
  rw [List.length_dropLast] at front
  omega

/-- The file starts with a header that counts the records, and each of them
is read from its entry; the entries ascend without overlapping. -/
structure ReadsBack (crc32 : Bytes → UInt32) (builder : SegmentBuilder)
    (records : List Record) : Prop where
  segment : ∃ segment, Segment.ofFile (builder.build crc32) = .ok segment ∧
    segment.header.magic = magic ∧ segment.header.version = version ∧
    segment.header.docCount.toNat = records.length ∧
    List.Forall₂ (ReadsAt segment) records builder.docOffsets
  ascending : builder.docOffsets.Pairwise Behind

/-- A call is refused, or the segment that is built reads back. -/
def RoundTrips [Platform] (crc32 : Bytes → UInt32) (segmentId : UInt32)
    (codec : CodecType) (dims patchesPerDoc : UInt16)
    (records : List Record) : Prop :=
  match (SegmentBuilder.new segmentId codec dims patchesPerDoc).addRecords
      records with
  | none => False
  | some (.error _) => True
  | some (.ok builder) => ReadsBack crc32 builder records

section

variable [Platform] {segmentId : UInt32}
  {codec : CodecType} {dims patchesPerDoc : UInt16} {records : List Record}

omit [Platform] in
/-- The file of a segment whose records were all added. -/
theorem ofFile_build
    (crc32 : Bytes → UInt32)
    {builder : SegmentBuilder}
    (extended : Extends (.new segmentId codec dims patchesPerDoc) builder
      records) :
    ∃ segment, Segment.ofFile (builder.build crc32) = .ok segment ∧
      segment.header.magic = magic ∧ segment.header.version = version ∧
      segment.header.docCount = .ofNat records.length ∧
      ∃ front, front.length = SegmentHeader.size ∧ segment.mmap =
        front ++ records.flatMap (Record.toBytes dims) := by
  have payload : builder.data.drop SegmentHeader.size =
      records.flatMap (Record.toBytes dims) := by
    have length : (SegmentBuilder.new segmentId codec dims
        patchesPerDoc).data.length = SegmentHeader.size := by
      simp [SegmentBuilder.new]
    rw [extended.data, ← length]
    exact List.drop_left
  have header := extended.header
  have isMagic : builder.header.magic = magic := by
    rw [header]
    rfl
  have isVersion : builder.header.version = version := by
    rw [header]
    rfl
  have isReserved : builder.header.reserved.length = 24 := by
    rw [header]
    rfl
  have count : builder.header.docCount = .ofNat records.length := by
    rw [header]
    exact UInt32.zero_add _
  let written := { builder.header with
    crc32c := crc32 (records.flatMap (Record.toBytes dims)) }
  have file : builder.build crc32 =
      written.toBytes ++ records.flatMap (Record.toBytes dims) := by
    unfold SegmentBuilder.build
    rw [payload]
  have magicLength : written.magic.length = 4 :=
    (congrArg List.length isMagic).trans rfl
  have length := segmentHeader_length magicLength isReserved
  have decoded := reads_segmentHeader magicLength isReserved
    (List.replicate (SegmentHeader.size - written.fields.length) 0 ++
      records.flatMap (Record.toBytes dims))
  rw [← List.append_assoc] at decoded
  refine ⟨{ mmap := builder.build crc32, header := written }, ?_, isMagic,
    isVersion, count, written.toBytes, length, file⟩
  unfold Segment.ofFile
  rw [if_neg (by rw [file, List.length_append, length]; omega), file]
  have opened : SegmentHeader.decode.run
      (written.toBytes ++ records.flatMap (Record.toBytes dims)) =
        some (written, _) := decoded
  rw [opened]
  dsimp only
  rw [if_neg (fun other => other isMagic),
    if_neg (fun other => other isVersion)]

theorem fits_of_roundTrips
    {crc32 : Bytes → UInt32}
    (reads : RoundTrips crc32 segmentId codec dims patchesPerDoc records) :
    FitsFrom SegmentHeader.size records := by
  unfold RoundTrips at reads
  split at reads
  · cases reads
  · rename_i error failed
    obtain ⟨_, same, -⟩ := addRecords_extends failed
    cases same
  · rename_i builder added
    obtain ⟨_, same, extended⟩ := addRecords_extends added
    cases same
    obtain ⟨⟨segment, -, -, -, -, each⟩, ascending⟩ := reads
    rw [extended.docOffsets] at each ascending
    exact fits_of_reads (by decide) each ascending

/-- A segment reads back exactly if its records can be addressed. -/
theorem roundTrips_iff (crc32 : Bytes → UInt32) (segmentId : UInt32)
    (codec : CodecType) (dims patchesPerDoc : UInt16)
    (records : List Record) :
    RoundTrips crc32 segmentId codec dims patchesPerDoc records ↔
      Addressable records := by
  have fits : FitsFrom SegmentHeader.size records ↔ Addressable records :=
    fitsFrom_iff (by decide)
  constructor
  · intro reads
    exact fits.mp (fits_of_roundTrips reads)
  · intro addressable
    obtain ⟨builder, added⟩ := addRecords_total
      (show (SegmentBuilder.new segmentId codec dims
        patchesPerDoc).header.docCount.toNat + records.length < 4294967296
        from by simpa [SegmentBuilder.new, SegmentHeader.new]
          using addressable.few)
    unfold RoundTrips
    rw [added]
    obtain ⟨_, same, extended⟩ := addRecords_extends added
    cases same
    obtain ⟨segment, opened, isMagic, isVersion, count, front, length,
      mapped⟩ := ofFile_build crc32 extended
    have fits := fits.mpr addressable
    have start : (SegmentBuilder.new segmentId codec dims
        patchesPerDoc).data.length = front.length := by
      rw [length]
      simp [SegmentBuilder.new]
    have docOffsets : builder.docOffsets =
        entries dims front.length records := by
      rw [extended.docOffsets, start]
      rfl
    rw [← length] at fits
    refine ⟨⟨segment, opened, isMagic, isVersion, ?_, ?_⟩, ?_⟩
    · rw [count, u32_exact addressable.few]
    · rw [docOffsets]
      exact reads_of_fits fits mapped
    · rw [docOffsets]
      exact (entries_ascending fits).1

end

section

attribute [local instance] Platform.integral

/-- A record with a vector of a number of bytes. -/
def sized (count : Nat) : Record where
  docId := 100
  nPatches := 1
  pooledCodec := .fp32
  patchesCodec := .sq8
  pooled := List.replicate count 0
  patches := []
  scales := []

theorem sized_size (count : Nat) : (sized count).size = 32 + count := by
  simp [Record.size, sized, DocRecordHeader.size]

/-- A vector of four gibibytes, whose length is narrowed to 0. -/
theorem roundTrips_not_oversized :
    ¬ ∀ (crc32 : Bytes → UInt32) (segmentId : UInt32) (codec : CodecType)
      (dims patchesPerDoc : UInt16) (records : List Record),
      RoundTrips crc32 segmentId codec dims patchesPerDoc records := by
  intro roundTrips
  have reads := roundTrips (fun _ => 0) 0 .sq8 128 1024 [sized 4294967296]
  obtain ⟨-, small, -⟩ := fits_of_roundTrips reads
  rw [sized_size] at small
  omega

end

end RedVector.Rvf2
