import RedVector.Value.Rdb

/-!
# Segments

The builder and the reader of a segment file.  The two packed structures that
the reader copies out of the file are decoded field by field, from the lowest
byte on.
-/

namespace RedVector.Rvf2

open Codec Util

/-- `b"RVF2"`. -/
def magic : Bytes := text "RVF2"

def version : UInt32 := 2

inductive CodecType where
  | fp32
  | sq8
  | fp16
  | pq16
  deriving DecidableEq

/-- `codec as u8`. -/
def CodecType.toByte : CodecType → UInt8
  | fp32 => 0
  | sq8 => 1
  | fp16 => 2
  | pq16 => 3

inductive Rvf2Error where
  | io (message : Bytes)
  | invalidMagic (expected got : Bytes)
  | versionMismatch (expected got : UInt32)
  | docNotFound (docId : UInt64)
  | segmentNotFound (segmentId : UInt32)
  | objectStore (message : Bytes)

/-! ## The two headers -/

structure SegmentHeader where
  magic : Bytes
  version : UInt32
  segmentId : UInt32
  codec : UInt8
  flags : UInt8
  headerLen : UInt16
  docCount : UInt32
  indexOffset : UInt32
  indexLen : UInt32
  crc32c : UInt32
  dims : UInt16
  patchesPerDoc : UInt16
  reserved : Bytes

namespace SegmentHeader

/-- `SegmentHeader::SIZE`; the structure has four bytes less. -/
def size : Nat := 64

def new (segmentId : UInt32) (codec : CodecType) (dims patchesPerDoc : UInt16) :
    SegmentHeader where
  magic := Rvf2.magic
  version := Rvf2.version
  segmentId := segmentId
  codec := codec.toByte
  flags := 0
  headerLen := 64
  docCount := 0
  indexOffset := 0
  indexLen := 0
  crc32c := 0
  dims := dims
  patchesPerDoc := patchesPerDoc
  reserved := List.replicate 24 0

def fields (header : SegmentHeader) : Bytes :=
  header.magic ++ (Rdb.lowBytes 4 header.version.toNat ++
    (Rdb.lowBytes 4 header.segmentId.toNat ++ (header.codec ::
      header.flags :: (Rdb.lowBytes 2 header.headerLen.toNat ++
        (Rdb.lowBytes 4 header.docCount.toNat ++
          (Rdb.lowBytes 4 header.indexOffset.toNat ++
            (Rdb.lowBytes 4 header.indexLen.toNat ++
              (Rdb.lowBytes 4 header.crc32c.toNat ++
                (Rdb.lowBytes 2 header.dims.toNat ++
                  (Rdb.lowBytes 2 header.patchesPerDoc.toNat ++
                    header.reserved))))))))))

/-- The fields, in an array that was filled with zeros. -/
def toBytes (header : SegmentHeader) : Bytes :=
  header.fields ++ List.replicate (size - header.fields.length) 0

end SegmentHeader

/-- A number of some bytes, the lowest one first. -/
def number (count : Nat) : Decoder UInt8 Nat :=
  Rdb.littleEndian <$> symbols count

def SegmentHeader.decode : Decoder UInt8 SegmentHeader := do
  let magic ← symbols 4
  let version ← number 4
  let segmentId ← number 4
  let codec ← symbol
  let flags ← symbol
  let headerLen ← number 2
  let docCount ← number 4
  let indexOffset ← number 4
  let indexLen ← number 4
  let crc32c ← number 4
  let dims ← number 2
  let patchesPerDoc ← number 2
  let reserved ← symbols 24
  pure
    { magic := magic
      version := .ofNat version
      segmentId := .ofNat segmentId
      codec := codec
      flags := flags
      headerLen := .ofNat headerLen
      docCount := .ofNat docCount
      indexOffset := .ofNat indexOffset
      indexLen := .ofNat indexLen
      crc32c := .ofNat crc32c
      dims := .ofNat dims
      patchesPerDoc := .ofNat patchesPerDoc
      reserved := reserved }

structure DocRecordHeader where
  docId : UInt64
  nPatches : UInt16
  dims : UInt16
  pooledCodec : UInt8
  patchesCodec : UInt8
  reserved : UInt16
  pooledLen : UInt32
  patchesLen : UInt32
  scalesLen : UInt32
  recordCrc32c : UInt32
  deriving DecidableEq

namespace DocRecordHeader

def size : Nat := 32

def payloadSize (header : DocRecordHeader) : Nat :=
  header.pooledLen.toNat + header.patchesLen.toNat + header.scalesLen.toNat

def totalSize (header : DocRecordHeader) : Nat :=
  size + header.payloadSize

def toBytes (header : DocRecordHeader) : Bytes :=
  Rdb.lowBytes 8 header.docId.toNat ++
    (Rdb.lowBytes 2 header.nPatches.toNat ++
      (Rdb.lowBytes 2 header.dims.toNat ++ (header.pooledCodec ::
        header.patchesCodec :: (Rdb.lowBytes 2 header.reserved.toNat ++
          (Rdb.lowBytes 4 header.pooledLen.toNat ++
            (Rdb.lowBytes 4 header.patchesLen.toNat ++
              (Rdb.lowBytes 4 header.scalesLen.toNat ++
                Rdb.lowBytes 4 header.recordCrc32c.toNat)))))))

def decode : Decoder UInt8 DocRecordHeader := do
  let docId ← number 8
  let nPatches ← number 2
  let dims ← number 2
  let pooledCodec ← symbol
  let patchesCodec ← symbol
  let reserved ← number 2
  let pooledLen ← number 4
  let patchesLen ← number 4
  let scalesLen ← number 4
  let recordCrc32c ← number 4
  pure
    { docId := .ofNat docId
      nPatches := .ofNat nPatches
      dims := .ofNat dims
      pooledCodec := pooledCodec
      patchesCodec := patchesCodec
      reserved := .ofNat reserved
      pooledLen := .ofNat pooledLen
      patchesLen := .ofNat patchesLen
      scalesLen := .ofNat scalesLen
      recordCrc32c := .ofNat recordCrc32c }

end DocRecordHeader

/-! ## Reading -/

/-- A parsed document record. -/
structure DocRecord where
  header : DocRecordHeader
  pooled : Bytes
  patches : Bytes
  scales : Bytes

/-- A segment file that is mapped into memory. -/
structure Segment where
  mmap : Bytes
  header : SegmentHeader

namespace Segment

/-- `Segment::mmap` on the contents of the file. -/
def ofFile (file : Bytes) : Except Rvf2Error Segment :=
  if file.length < SegmentHeader.size then
    .error (.io (text "Segment too short"))
  else
    match SegmentHeader.decode.run file with
    | none => .error (.io (text "Segment too short"))
    | some (header, _) =>
        if header.magic ≠ magic then
          .error (.invalidMagic magic header.magic)
        else if header.version ≠ version then
          .error (.versionMismatch version header.version)
        else .ok { mmap := file, header := header }

def invalidBounds : Rvf2Error :=
  .io (text "Invalid record bounds")

/-- The record at an offset; the payload lies within its bounds once the sizes
are validated. -/
def getRecord (segment : Segment) (offset len : UInt32) :
    Except Rvf2Error DocRecord :=
  let offset := offset.toNat
  let len := len.toNat
  if segment.mmap.length < offset + len ∨ len < DocRecordHeader.size then
    .error invalidBounds
  else
    match DocRecordHeader.decode.run (segment.mmap.drop offset) with
    | none => .error invalidBounds
    | some (header, _) =>
        if header.totalSize ≠ len then
          .error (.io (text "Record size mismatch: header says " ++
            natToString header.totalSize ++ text ", entry says " ++
            natToString len))
        else
          let payloadStart := offset + DocRecordHeader.size
          let pooledEnd := payloadStart + header.pooledLen.toNat
          let patchesEnd := pooledEnd + header.patchesLen.toNat
          .ok
            { header := header
              pooled :=
                (segment.mmap.drop payloadStart).take header.pooledLen.toNat
              patches :=
                (segment.mmap.drop pooledEnd).take header.patchesLen.toNat
              scales :=
                (segment.mmap.drop patchesEnd).take header.scalesLen.toNat }

end Segment

/-! ## Writing -/

/-- The arguments of `add_record`. -/
structure Record where
  docId : UInt64
  nPatches : UInt16
  pooledCodec : CodecType
  patchesCodec : CodecType
  pooled : Bytes
  patches : Bytes
  scales : Bytes

/-- A document with its offset and its length. -/
structure DocOffset where
  docId : UInt64
  offset : UInt32
  len : UInt32

structure SegmentBuilder where
  header : SegmentHeader
  data : Bytes
  docOffsets : List DocOffset

namespace SegmentBuilder

def new (segmentId : UInt32) (codec : CodecType) (dims patchesPerDoc : UInt16) :
    SegmentBuilder where
  header := .new segmentId codec dims patchesPerDoc
  data := List.replicate SegmentHeader.size 0
  docOffsets := []

section

variable [Platform]

/-- `count += 1` on a `u32`. -/
def increment (count : UInt32) : Option UInt32 :=
  if count.toNat + 1 < 4294967296 then some (count + 1)
  else if Platform.overflowChecks then none
  else some (count + 1)

/-- The casts of the lengths and of the offset to `u32` are not checked; the
result is never an error. -/
def addRecord (builder : SegmentBuilder) (record : Record) :
    Option (Except Rvf2Error SegmentBuilder) := do
  let offset := UInt32.ofNat builder.data.length
  let recordHeader : DocRecordHeader :=
    { docId := record.docId
      nPatches := record.nPatches
      dims := builder.header.dims
      pooledCodec := record.pooledCodec.toByte
      patchesCodec := record.patchesCodec.toByte
      reserved := 0
      pooledLen := .ofNat record.pooled.length
      patchesLen := .ofNat record.patches.length
      scalesLen := .ofNat record.scales.length
      recordCrc32c := 0 }
  let len := UInt32.ofNat recordHeader.totalSize
  let count ← increment builder.header.docCount
  pure (.ok
    { header := { builder.header with docCount := count }
      data := builder.data ++ (recordHeader.toBytes ++ (record.pooled ++
        (record.patches ++ record.scales)))
      docOffsets := builder.docOffsets ++ [⟨record.docId, offset, len⟩] })

/-- Adds the records one by one up to the first error. -/
def addRecords (builder : SegmentBuilder) :
    List Record → Option (Except Rvf2Error SegmentBuilder)
  | [] => some (.ok builder)
  | record :: rest => do
      match ← builder.addRecord record with
      | .error error => some (.error error)
      | .ok after => addRecords after rest

end

/-- The file that `build` writes; `crc32` is `crc32fast::hash`. -/
def build (crc32 : Bytes → UInt32) (builder : SegmentBuilder) : Bytes :=
  let payload := builder.data.drop SegmentHeader.size
  let header := { builder.header with crc32c := crc32 payload }
  header.toBytes ++ payload

end SegmentBuilder

end RedVector.Rvf2
