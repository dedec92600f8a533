import RedVector.Rvf2.Segment

/-!
# The doc index

The builder and the reader of the index file.  As for the segments, a packed
structure that the reader copies out of the file is decoded field by field.
-/

namespace RedVector.Rvf2

open Codec Util

/-- `b"RVDI"`. -/
def docIndexMagic : Bytes := text "RVDI"

structure DocIndexHeader where
  magic : Bytes
  version : UInt32
  entryCount : UInt64
  flags : UInt32
  reserved : Bytes

namespace DocIndexHeader

def size : Nat := 32

/-- `flags::SORTED`. -/
def sorted : UInt32 := 1

def toBytes (header : DocIndexHeader) : Bytes :=
  header.magic ++ (Rdb.lowBytes 4 header.version.toNat ++
    (Rdb.lowBytes 8 header.entryCount.toNat ++
      (Rdb.lowBytes 4 header.flags.toNat ++ header.reserved)))

def decode : Decoder UInt8 DocIndexHeader := do
  let magic ← symbols 4
  let version ← number 4
  let entryCount ← number 8
  let flags ← number 4
  let reserved ← symbols 12
  pure
    { magic := magic
      version := .ofNat version
      entryCount := .ofNat entryCount
      flags := .ofNat flags
      reserved := reserved }

end DocIndexHeader

structure DocEntry where
  docId : UInt64
  segmentId : UInt32
  offset : UInt32
  len : UInt32
  flags : UInt16
  reserved : UInt16
  deriving DecidableEq

namespace DocEntry

def size : Nat := 24

def flagTombstone : UInt16 := 1

def new (docId : UInt64) (segmentId offset len : UInt32) : DocEntry where
  docId := docId
  segmentId := segmentId
  offset := offset
  len := len
  flags := 0
  reserved := 0

def isTombstone (entry : DocEntry) : Bool :=
  entry.flags &&& flagTombstone ≠ 0

def markTombstone (entry : DocEntry) : DocEntry :=
  { entry with flags := entry.flags ||| flagTombstone }

def toBytes (entry : DocEntry) : Bytes :=
  Rdb.lowBytes 8 entry.docId.toNat ++
    (Rdb.lowBytes 4 entry.segmentId.toNat ++
      (Rdb.lowBytes 4 entry.offset.toNat ++
        (Rdb.lowBytes 4 entry.len.toNat ++
          (Rdb.lowBytes 2 entry.flags.toNat ++
            Rdb.lowBytes 2 entry.reserved.toNat))))

def decode : Decoder UInt8 DocEntry := do
  let docId ← number 8
  let segmentId ← number 4
  let offset ← number 4
  let len ← number 4
  let flags ← number 2
  let reserved ← number 2
  pure
    { docId := .ofNat docId
      segmentId := .ofNat segmentId
      offset := .ofNat offset
      len := .ofNat len
      flags := .ofNat flags
      reserved := .ofNat reserved }

end DocEntry

/-! ## Reading -/

/-- An index file that is mapped into memory. -/
structure DocIndex where
  mmap : Bytes
  header : DocIndexHeader

namespace DocIndex

/-- `DocIndex::mmap` on the contents of the file. -/
def ofFile (file : Bytes) : Except Rvf2Error DocIndex :=
  if file.length < DocIndexHeader.size then
    .error (.io (text "Doc index too short"))
  else
    match DocIndexHeader.decode.run file with
    | none => .error (.io (text "Doc index too short"))
    | some (header, _) =>
        if header.magic ≠ docIndexMagic then
          .error (.invalidMagic docIndexMagic header.magic)
        else if header.version ≠ version then
          .error (.versionMismatch version header.version)
        else .ok { mmap := file, header := header }

def len (index : DocIndex) : Nat :=
  index.header.entryCount.toNat

section

variable [Platform]

/-- The outer `none` is a panic, or a read that leaves the mapping. -/
def getByIndex (index : DocIndex) (place : Nat) :
    Option (Option DocEntry) :=
  if index.len ≤ place then some none
  else do
    let before ← usize (place * DocEntry.size : Nat)
    let offset ← usize (DocIndexHeader.size + before : Nat)
    let stop ← usize (offset + DocEntry.size : Nat)
    if index.mmap.length < stop then some none
    else do
      let (entry, _) ← DocEntry.decode.run (index.mmap.drop offset)
      some (some entry)

/-- The loop of `get`; every round leaves less than there was, so that the
rounds are enough. -/
def search (index : DocIndex) (docId : UInt64) :
    Nat → Nat → Nat → Option (Except Rvf2Error DocEntry)
  | 0, _, _ => some (.error (.docNotFound docId))
  | rounds + 1, left, right =>
      if left < right then do
        let mid := left + (right - left) / 2
        match ← index.getByIndex mid with
        | none => some (.error (.docNotFound docId))
        | some entry =>
            if entry.docId = docId then
              if entry.isTombstone then some (.error (.docNotFound docId))
              else some (.ok entry)
            else if entry.docId < docId then
              search index docId rounds (mid + 1) right
            else search index docId rounds left mid
      else some (.error (.docNotFound docId))

/-- The rounds of `linear_scan` from a position on. -/
def scan (index : DocIndex) (docId : UInt64) :
    Nat → Nat → Option (Except Rvf2Error DocEntry)
  | 0, _ => some (.error (.docNotFound docId))
  | rounds + 1, place => do
      match ← index.getByIndex place with
      | some entry =>
          if entry.docId = docId && !entry.isTombstone then some (.ok entry)
          else scan index docId rounds (place + 1)
      | none => scan index docId rounds (place + 1)

def linearScan (index : DocIndex) (docId : UInt64) :
    Option (Except Rvf2Error DocEntry) :=
  index.scan docId index.len 0

def get (index : DocIndex) (docId : UInt64) :
    Option (Except Rvf2Error DocEntry) :=
  if index.header.flags &&& DocIndexHeader.sorted = 0 then
    index.linearScan docId
  else index.search docId index.len 0 index.len

end

end DocIndex

/-! ## Writing -/

/-- A vector has no more bytes than `isize::MAX`. -/
structure DocIndexBuilder where
  entries : List DocEntry
  fits : entries.length * DocEntry.size ≤ 9223372036854775807

namespace DocIndexBuilder

def new : DocIndexBuilder where
  entries := []
  fits := Nat.zero_le _

/-- A vector that cannot grow any more panics. -/
def add (builder : DocIndexBuilder) (entry : DocEntry) :
    Option DocIndexBuilder :=
  if fits : (builder.entries ++ [entry]).length * DocEntry.size ≤
      9223372036854775807 then
    some { entries := builder.entries ++ [entry], fits := fits }
  else none

def addAll (builder : DocIndexBuilder) :
    List DocEntry → Option DocIndexBuilder
  | [] => some builder
  | entry :: rest => do addAll (← builder.add entry) rest

/-- `sort_by_key`, which is stable. -/
def sortedByDocId (entries : List DocEntry) : List DocEntry :=
  entries.mergeSort fun a b => a.docId ≤ b.docId

/-- The file that `build` writes. -/
def build (builder : DocIndexBuilder) : Bytes :=
  let entries := sortedByDocId builder.entries
  let header : DocIndexHeader :=
    { magic := docIndexMagic
      version := version
      entryCount := .ofNat entries.length
      flags := DocIndexHeader.sorted
      reserved := List.replicate 12 0 }
  header.toBytes ++ entries.flatMap DocEntry.toBytes

end DocIndexBuilder

end RedVector.Rvf2
