import RedVector.Rvf2.Segment

/-!
# The manifest

The list of the segments of an index, and what it keeps of each of them.
-/

namespace RedVector.Rvf2

open Util

structure SegmentMeta where
  segmentId : UInt32
  fileName : Bytes
  bytes : UInt64
  docCount : UInt32
  crc32c : UInt32
  minDocId : UInt64
  maxDocId : UInt64
  codec : CodecType
  isSealed : Bool
  deriving DecidableEq

namespace SegmentMeta

def new (segmentId : UInt32) (codec : CodecType) : SegmentMeta where
  segmentId := segmentId
  fileName := text "seg_" ++
    (natToString segmentId.toNat).leftpad 6 48 ++ text ".rvf2"
  bytes := 0
  docCount := 0
  crc32c := 0
  minDocId := 18446744073709551615
  maxDocId := 0
  codec := codec
  isSealed := false

def updateDocRange [Platform] (info : SegmentMeta) (docId : UInt64) :
    Option SegmentMeta := do
  let docCount ← SegmentBuilder.increment info.docCount
  pure
    { info with
      minDocId := min info.minDocId docId
      maxDocId := max info.maxDocId docId
      docCount := docCount }

/-- `doc_id >= s.min_doc_id && doc_id <= s.max_doc_id`. -/
def covers (info : SegmentMeta) (docId : UInt64) : Bool :=
  info.minDocId ≤ docId && docId ≤ info.maxDocId

end SegmentMeta

structure Manifest where
  magic : Bytes
  version : UInt32
  dims : UInt16
  codec : CodecType
  patchesPerDoc : UInt16
  segmentTargetBytes : UInt64
  blockSize : UInt16
  segments : List SegmentMeta
  totalDocs : UInt64
  createdAtUnix : UInt64
  updatedAtUnix : UInt64

namespace Manifest

/-- A manifest at a time of the clock. -/
def new (dims patchesPerDoc : UInt16) (now : UInt64) : Manifest where
  magic := Rvf2.magic
  version := Rvf2.version
  dims := dims
  codec := .sq8
  patchesPerDoc := patchesPerDoc
  segmentTargetBytes := 536870912
  blockSize := 32
  segments := []
  totalDocs := 0
  createdAtUnix := now
  updatedAtUnix := now

section

variable [Platform]

/-- A `u64` has the range of a `usize`. -/
def addSegment (manifest : Manifest) (info : SegmentMeta) (now : UInt64) :
    Option Manifest := do
  let totalDocs ← usize (manifest.totalDocs.toNat + info.docCount.toNat : Nat)
  pure
    { manifest with
      totalDocs := .ofNat totalDocs
      segments := manifest.segments ++ [info]
      updatedAtUnix := now }

def nextSegmentId (manifest : Manifest) : Option UInt32 :=
  match (manifest.segments.map SegmentMeta.segmentId).max? with
  | some id => SegmentBuilder.increment id
  | none => some 0

end

def findSegment (manifest : Manifest) (docId : UInt64) : Option SegmentMeta :=
  manifest.segments.find? fun info => info.covers docId

end Manifest

/-!
## Keeping the manifest

Segments are created with the next id, receive documents and are registered.
The books are right as long as each segment is registered before another one
takes its id, and the first segment with documents on both sides of a document
received it.
-/

/-- A segment that was created when so many were registered, with the documents
that it received. -/
structure Filling where
  info : SegmentMeta
  received : List UInt64
  createdAt : Nat
  deriving DecidableEq

/-- A manifest with the segments that are registered in it and those that are
not yet. -/
structure Books where
  manifest : Manifest
  registered : List Filling
  unregistered : List Filling

inductive ManifestEvent where
  | create (codec : CodecType)
  | receive (place : Nat) (docId : UInt64)
  | register (place : Nat) (now : UInt64)

namespace Books

def new (dims patchesPerDoc : UInt16) (now : UInt64) : Books where
  manifest := .new dims patchesPerDoc now
  registered := []
  unregistered := []

section

variable [Platform]

/-- `none` is a panic; at a place without a segment nothing happens. -/
def step (books : Books) : ManifestEvent → Option Books
  | .create codec => do
      let id ← books.manifest.nextSegmentId
      pure
        { books with
          unregistered := books.unregistered ++
            [⟨.new id codec, [], books.registered.length⟩] }
  | .receive place docId =>
      match books.unregistered[place]? with
      | none => some books
      | some filling => do
          let info ← filling.info.updateDocRange docId
          pure
            { books with
              unregistered := books.unregistered.set place
                { filling with
                  info := info
                  received := filling.received ++ [docId] } }
  | .register place now =>
      match books.unregistered[place]? with
      | none => some books
      | some filling => do
          let manifest ← books.manifest.addSegment filling.info now
          pure
            { manifest := manifest
              registered := books.registered ++ [filling]
              unregistered := books.unregistered.eraseIdx place }

def run (books : Books) : List ManifestEvent → Option Books
  | [] => some books
  | event :: rest => do run (← books.step event) rest

end

/-! ## The condition -/

/-- There are documents on both sides of a document, or it is among them. -/
def Spans (received : List UInt64) (docId : UInt64) : Prop :=
  (∃ low ∈ received, low ≤ docId) ∧ ∃ high ∈ received, docId ≤ high

/-- The first segment with documents on both sides of a document received
it. -/
def FirstReceived (registered : List Filling) (docId : UInt64) : Prop :=
  ∀ front filling rest, registered = front ++ filling :: rest →
    (∀ other ∈ front, ¬Spans other.received docId) →
      Spans filling.received docId → docId ∈ filling.received

/-- There are ids and counts left, no segment was registered since the one that
is registered was created, and for each of its documents the first registered
segment with documents on both sides received it. -/
def Allowed (books : Books) : ManifestEvent → Prop
  | .create _ => books.registered.length < 4294967296
  | .receive place _ => ∀ filling, books.unregistered[place]? = some filling →
      filling.received.length < 4294967295
  | .register place _ => ∀ filling, books.unregistered[place]? = some filling →
      filling.createdAt = books.registered.length ∧
        ∀ docId ∈ filling.received, FirstReceived books.registered docId

/-- Every step of a run is allowed. -/
def Meets [Platform] (books : Books) : List ManifestEvent → Prop
  | [] => True
  | event :: rest => books.Allowed event ∧
      ∀ after, books.step event = some after → Meets after rest

/-- What the manifest says is right. -/
structure Right (books : Books) : Prop where
  segments : books.manifest.segments = books.registered.map Filling.info
  ids : (books.manifest.segments.map SegmentMeta.segmentId).Nodup
  counts : ∀ filling ∈ books.registered,
    filling.info.docCount.toNat = filling.received.length
  total : books.manifest.totalDocs.toNat =
    (books.manifest.segments.map fun info => info.docCount.toNat).sum
  finds : ∀ docId info, books.manifest.findSegment docId = some info →
    (∃ filling ∈ books.registered, docId ∈ filling.received) →
      ∃ filling ∈ books.registered, filling.info = info ∧
        docId ∈ filling.received
  misses : ∀ docId, books.manifest.findSegment docId = none →
    ∀ filling ∈ books.registered, docId ∉ filling.received

/-! ## The invariant -/

/-- What a segment is to keep of its documents. -/
structure Faithful (filling : Filling) : Prop where
  count : filling.info.docCount.toNat = filling.received.length
  low : ∀ docId, filling.info.minDocId ≤ docId ↔
    (∃ low ∈ filling.received, low ≤ docId) ∨
      docId = 18446744073709551615
  high : ∀ docId, docId ≤ filling.info.maxDocId ↔
    (∃ high ∈ filling.received, docId ≤ high) ∨ docId = 0

structure Kept (books : Books) : Prop where
  segments : books.manifest.segments = books.registered.map Filling.info
  ids : books.registered.map (fun filling => filling.info.segmentId.toNat) =
    List.range books.registered.length
  few : books.registered.length ≤ 4294967296
  total : books.manifest.totalDocs.toNat =
    (books.registered.map fun filling => filling.info.docCount.toNat).sum
  faithful : ∀ filling ∈ books.registered, Faithful filling
  fillings : ∀ filling ∈ books.unregistered, Faithful filling ∧
    filling.info.segmentId.toNat = filling.createdAt
  firsts : ∀ filling ∈ books.registered, ∀ docId ∈ filling.received,
    FirstReceived books.registered docId

theorem min_le_iff (a b c : UInt64) : min a b ≤ c ↔ a ≤ c ∨ b ≤ c := by
  show (if a ≤ b then a else b) ≤ c ↔ _
  simp only [UInt64.le_iff_toNat_le]
  split
  · omega
  · omega

theorem le_max_iff (a b c : UInt64) : c ≤ max a b ↔ c ≤ a ∨ c ≤ b := by
  show c ≤ (if a ≤ b then b else a) ↔ _
  simp only [UInt64.le_iff_toNat_le]
  split
  · omega
  · omega

instance : Std.LawfulOrderMax UInt32 := by
  refine .of_max_le_iff ?_ ?_
  · intro a b c
    show (if a ≤ b then b else a) ≤ c ↔ _
    simp only [UInt32.le_iff_toNat_le]
    split
    · omega
    · omega
  · intro a b
    show (if a ≤ b then b else a) = a ∨ (if a ≤ b then b else a) = b
    split
    · exact .inr rfl
    · exact .inl rfl

theorem spans_of_mem {received : List UInt64} {docId : UInt64}
    (member : docId ∈ received) : Spans received docId :=
  ⟨⟨docId, member, UInt64.le_refl _⟩, docId, member, UInt64.le_refl _⟩

theorem faithful_new (id : UInt32) (codec : CodecType) (createdAt : Nat) :
    Faithful ⟨.new id codec, [], createdAt⟩ where
  count := rfl
  low docId := by
    have fits := docId.toNat_lt
    simp only [SegmentMeta.new, List.not_mem_nil, false_and, exists_false,
      false_or, UInt64.le_iff_toNat_le, ← UInt64.toNat_inj]
    have largest : (18446744073709551615 : UInt64).toNat =
        18446744073709551615 := rfl
    omega
  high docId := by
    simp only [SegmentMeta.new, List.not_mem_nil, false_and, exists_false,
      false_or, UInt64.le_iff_toNat_le, ← UInt64.toNat_inj]
    have smallest : (0 : UInt64).toNat = 0 := rfl
    omega

/-- A segment covers what its documents span. -/
theorem Faithful.covers_iff {filling : Filling} (kept : Faithful filling)
    (docId : UInt64) :
    filling.info.covers docId = true ↔ Spans filling.received docId := by
  have largest : (18446744073709551615 : UInt64).toNat =
      18446744073709551615 := rfl
  have smallest : (0 : UInt64).toNat = 0 := rfl
  unfold SegmentMeta.covers Spans
  rw [Bool.and_eq_true, decide_eq_true_eq, decide_eq_true_eq, kept.low,
    kept.high]
  constructor
  · rintro ⟨some | isLast, other | isFirst⟩
    · exact ⟨some, other⟩
    · obtain ⟨low, member, below⟩ := some
      refine ⟨⟨low, member, below⟩, low, member, ?_⟩
      rw [isFirst, UInt64.le_iff_toNat_le]
      omega
    · obtain ⟨high, member, above⟩ := other
      refine ⟨⟨high, member, ?_⟩, high, member, above⟩
      have fits := high.toNat_lt
      rw [isLast, UInt64.le_iff_toNat_le]
      omega
    · rw [isLast] at isFirst
      cases isFirst
  · exact fun ⟨low, high⟩ => ⟨.inl low, .inl high⟩

section

variable [Platform]

theorem increment_run (count : UInt32) (fits : count.toNat + 1 < 4294967296) :
    SegmentBuilder.increment count = some (count + 1) ∧
      (count + 1).toNat = count.toNat + 1 := by
  refine ⟨if_pos fits, ?_⟩
  rw [UInt32.toNat_add]
  exact Nat.mod_eq_of_lt fits

/-- The smallest and the largest document are enough for a range. -/
theorem receive_faithful {filling : Filling} (kept : Faithful filling)
    (fits : filling.received.length < 4294967295) (docId : UInt64) :
    ∃ info, filling.info.updateDocRange docId = some info ∧
      info.segmentId = filling.info.segmentId ∧
        Faithful { filling with
          info := info
          received := filling.received ++ [docId] } := by
  obtain ⟨increments, counted⟩ := increment_run filling.info.docCount
    (by rw [kept.count]; omega)
  unfold SegmentMeta.updateDocRange
  rw [increments]
  refine ⟨_, rfl, rfl, ?_, ?_, ?_⟩
  · dsimp only
    rw [counted, kept.count, List.length_append]
    rfl
  · intro other
    dsimp only
    rw [min_le_iff, kept.low]
    simp only [List.mem_append, List.mem_singleton, or_and_right, exists_or,
      exists_eq_left]
    exact or_right_comm
  · intro other
    dsimp only
    rw [le_max_iff, kept.high]
    simp only [List.mem_append, List.mem_singleton, or_and_right, exists_or,
      exists_eq_left]
    exact or_right_comm

/-! ## Registering -/

variable {books : Books}

/-- The next id is the number of the registered segments. -/
theorem Kept.nextSegmentId (kept : Kept books)
    (fits : books.registered.length < 4294967296) :
    ∃ id, books.manifest.nextSegmentId = some id ∧
      id.toNat = books.registered.length := by
  have numbers : (books.manifest.segments.map SegmentMeta.segmentId).map
      UInt32.toNat = List.range books.registered.length := by
    rw [kept.segments, List.map_map, List.map_map]
    exact kept.ids
  unfold Manifest.nextSegmentId
  cases greatest : (books.manifest.segments.map SegmentMeta.segmentId).max? with
  | none =>
      rw [List.max?_eq_none_iff.mp greatest] at numbers
      refine ⟨0, rfl, ?_⟩
      rw [← List.length_range (n := books.registered.length), ← numbers]
      rfl
  | some id =>
      obtain ⟨member, most⟩ := List.max?_eq_some_iff.mp greatest
      have among := List.mem_map_of_mem (f := UInt32.toNat) member
      rw [numbers, List.mem_range] at among
      have last : books.registered.length - 1 ∈
          List.range books.registered.length :=
        List.mem_range.mpr (by omega)
      rw [← numbers] at last
      obtain ⟨other, isId, same⟩ := List.mem_map.mp last
      have order := UInt32.le_iff_toNat_le.mp (most other isId)
      obtain ⟨increments, counted⟩ := increment_run id (by omega)
      exact ⟨id + 1, increments, by omega⟩

omit [Platform] in
/-- A new segment changes nothing for a document that was received before, or
that it received itself. -/
theorem FirstReceived.append {registered : List Filling} {filling : Filling}
    {docId : UInt64} (first : FirstReceived registered docId)
    (received : (∃ other ∈ registered, docId ∈ other.received) ∨
      docId ∈ filling.received) :
    FirstReceived (registered ++ [filling]) docId := by
  intro front chosen rest same none spans
  rcases List.eq_nil_or_concat' rest with rfl | ⟨middle, last, rfl⟩
  · obtain ⟨rfl, isLast⟩ := List.append_inj' same rfl
    cases isLast
    rcases received with ⟨other, member, among⟩ | own
    · exact absurd (spans_of_mem among) (none other member)
    · exact own
  · rw [← List.cons_append, ← List.append_assoc] at same
    obtain ⟨before, -⟩ := List.append_inj' same rfl
    exact first front chosen middle before none spans

omit [Platform] in
theorem Kept.total_le (kept : Kept books) :
    books.manifest.totalDocs.toNat ≤ books.registered.length * 4294967295 := by
  rw [kept.total, ← List.length_map
    (fun filling : Filling => filling.info.docCount.toNat),
    ← Nat.nsmul_eq_mul]
  apply List.sum_le_card_nsmul
  intro count member
  obtain ⟨filling, -, rfl⟩ := List.mem_map.mp member
  have fits := filling.info.docCount.toNat_lt
  omega

/-- Registering the segment that was created last keeps the books. -/
theorem Kept.register (kept : Kept books) {filling : Filling} {place : Nat}
    (found : books.unregistered[place]? = some filling)
    (latest : filling.createdAt = books.registered.length)
    (firsts : ∀ docId ∈ filling.received,
      FirstReceived books.registered docId) (now : UInt64) :
    ∃ manifest, books.manifest.addSegment filling.info now = some manifest ∧
      Kept
        { manifest := manifest
          registered := books.registered ++ [filling]
          unregistered := books.unregistered.eraseIdx place } := by
  obtain ⟨faithful, id⟩ := kept.fillings filling (List.mem_of_getElem? found)
  have idFits := filling.info.segmentId.toNat_lt
  have countFits := filling.info.docCount.toNat_lt
  have most := kept.total_le
  have fits : books.manifest.totalDocs.toNat + filling.info.docCount.toNat ≤
      usizeMax := by
    unfold usizeMax
    omega
  unfold Manifest.addSegment
  rw [usize_of rfl fits]
  refine ⟨_, rfl, ?_⟩
  constructor
  case segments =>
    rw [List.map_append, ← kept.segments]
    rfl
  case ids =>
    rw [List.map_append, kept.ids, List.length_append, List.length_singleton,
      List.range_succ, List.map_singleton, id, latest]
  case few =>
    rw [List.length_append, List.length_singleton]
    omega
  case total =>
    rw [List.map_append, List.sum_append, ← kept.total, List.map_singleton,
      List.sum_singleton]
    exact UInt64.toNat_ofNat_of_lt' (Nat.lt_succ_of_le fits)
  case faithful =>
    intro other member
    rcases List.mem_append.mp member with before | last
    · exact kept.faithful other before
    · rw [List.mem_singleton.mp last]
      exact faithful
  case fillings =>
    intro other member
    exact kept.fillings other (List.mem_of_mem_eraseIdx member)
  case firsts =>
    intro other member docId among
    rcases List.mem_append.mp member with before | last
    · exact (kept.firsts other before docId among).append
        (.inl ⟨other, before, among⟩)
    · rw [List.mem_singleton.mp last] at among
      exact (firsts docId among).append (.inr among)

/-! ## Runs -/

theorem Kept.step (kept : Kept books) {event : ManifestEvent}
    (allowed : books.Allowed event) :
    ∃ after, books.step event = some after ∧ Kept after := by
  cases event with
  | create codec =>
      obtain ⟨id, next, number⟩ := kept.nextSegmentId allowed
      unfold Books.step
      rw [next]
      refine ⟨_, rfl, { kept with fillings := ?_ }⟩
      intro filling member
      rcases List.mem_append.mp member with before | last
      · exact kept.fillings filling before
      · rw [List.mem_singleton.mp last]
        exact ⟨faithful_new id codec _, number⟩
  | receive place docId =>
      unfold Books.step
      cases found : books.unregistered[place]? with
      | none =>
          refine ⟨books, ?_, kept⟩
          dsimp only
          rw [found]
      | some filling =>
          obtain ⟨faithful, number⟩ :=
            kept.fillings filling (List.mem_of_getElem? found)
          obtain ⟨info, updates, same, stays⟩ :=
            receive_faithful faithful (allowed filling found) docId
          dsimp only
          rw [found]
          dsimp only
          rw [updates]
          refine ⟨_, rfl, { kept with fillings := ?_ }⟩
          intro other member
          rcases List.mem_or_eq_of_mem_set member with before | rfl
          · exact kept.fillings other before
          · exact ⟨stays, (congrArg UInt32.toNat same).trans number⟩
  | register place now =>
      unfold Books.step
      cases found : books.unregistered[place]? with
      | none =>
          refine ⟨books, ?_, kept⟩
          dsimp only
          rw [found]
      | some filling =>
          obtain ⟨latest, firsts⟩ := allowed filling found
          obtain ⟨manifest, adds, after⟩ :=
            kept.register found latest firsts now
          dsimp only
          rw [found]
          dsimp only
          rw [adds]
          exact ⟨_, rfl, after⟩

omit [Platform] in
theorem kept_new (dims patchesPerDoc : UInt16) (now : UInt64) :
    Kept (new dims patchesPerDoc now) where
  segments := rfl
  ids := rfl
  few := Nat.zero_le _
  total := rfl
  faithful _ member := nomatch member
  fillings _ member := nomatch member
  firsts _ member := nomatch member

theorem Kept.run (kept : Kept books) {events : List ManifestEvent}
    (meets : books.Meets events) :
    ∃ after, books.run events = some after ∧ Kept after := by
  induction events generalizing books with
  | nil => exact ⟨books, rfl, kept⟩
  | cons event rest ih =>
      obtain ⟨next, steps, keeps⟩ := kept.step meets.1
      rw [Books.run, steps]
      exact ih keeps (meets.2 next steps)

omit [Platform] in
theorem Kept.findSegment (kept : Kept books) (docId : UInt64) :
    books.manifest.findSegment docId =
      (books.registered.find? fun filling => filling.info.covers docId).map
        Filling.info := by
  unfold Manifest.findSegment
  rw [kept.segments, List.find?_map]
  rfl

omit [Platform] in
theorem Kept.right (kept : Kept books) : Right books where
  segments := kept.segments
  ids := by
    have numbers : (books.manifest.segments.map SegmentMeta.segmentId).map
        UInt32.toNat = List.range books.registered.length := by
      rw [kept.segments, List.map_map, List.map_map]
      exact kept.ids
    refine List.Nodup.of_map UInt32.toNat ?_
    rw [numbers]
    exact List.nodup_range
  counts filling member := (kept.faithful filling member).count
  total := by
    rw [kept.total, kept.segments, List.map_map]
    rfl
  finds := by
    rintro docId info found ⟨holder, isHolder, among⟩
    rw [kept.findSegment] at found
    obtain ⟨filling, first, rfl⟩ := Option.map_eq_some_iff.mp found
    obtain ⟨covers, front, rest, split, others⟩ :=
      List.find?_eq_some_iff_append.mp first
    have member : filling ∈ books.registered := by
      rw [split]
      exact List.mem_append_right _ List.mem_cons_self
    refine ⟨filling, member, rfl, ?_⟩
    refine kept.firsts holder isHolder docId among front filling rest split ?_
      (((kept.faithful filling member).covers_iff docId).mp covers)
    intro other before spans
    have isOther : other ∈ books.registered := by
      rw [split]
      exact List.mem_append_left _ before
    have misses := others other before
    rw [((kept.faithful other isOther).covers_iff docId).mpr spans] at misses
    cases misses
  misses := by
    intro docId missing filling member among
    rw [kept.findSegment, Option.map_eq_none_iff, List.find?_eq_none] at missing
    exact missing filling member
      (((kept.faithful filling member).covers_iff docId).mpr
        (spans_of_mem among))

/-- In every run all of whose steps are allowed the manifest is right. -/
theorem manifest_right (dims patchesPerDoc : UInt16) (now : UInt64)
    (events : List ManifestEvent)
    (meets : (new dims patchesPerDoc now).Meets events) :
    ∃ after, (new dims patchesPerDoc now).run events = some after ∧
      Right after := by
  obtain ⟨after, runs, kept⟩ := (kept_new dims patchesPerDoc now).run meets
  exact ⟨after, runs, kept.right⟩

end

section

attribute [local instance] Platform.integral

/-- Documents outside of all registered ones are found where they are. -/
theorem firstReceived_of_outside {registered : List Filling} {docId : UInt64}
    (outside : ∀ filling ∈ registered, ¬Spans filling.received docId) :
    FirstReceived registered docId := by
  rintro front filling rest rfl - spans
  exact absurd spans
    (outside filling (List.mem_append_right _ List.mem_cons_self))

/-- Two segments, the second one with a later document. -/
def ascending : List ManifestEvent :=
  [.create .sq8, .receive 0 5, .register 0 10, .create .fp16, .receive 0 7,
    .register 0 20]

theorem ascending_meets : (new 128 1024 0).Meets ascending := by
  refine ⟨(by decide : 0 < 4294967296), ?_⟩
  rintro _ ⟨⟩
  refine ⟨?_, ?_⟩
  · rintro _ ⟨⟩
    decide
  · rintro _ ⟨⟩
    refine ⟨?_, ?_⟩
    · rintro _ ⟨⟩
      exact ⟨rfl, fun _ _ => firstReceived_of_outside nofun⟩
    · rintro _ ⟨⟩
      refine ⟨(by decide : 1 < 4294967296), ?_⟩
      rintro _ ⟨⟩
      refine ⟨?_, ?_⟩
      · rintro _ ⟨⟩
        decide
      · rintro _ ⟨⟩
        refine ⟨?_, fun _ _ => trivial⟩
        rintro _ ⟨⟩
        refine ⟨rfl, ?_⟩
        intro docId member
        cases List.mem_singleton.mp member
        refine firstReceived_of_outside ?_
        intro filling isFirst
        cases List.mem_singleton.mp isFirst
        rintro ⟨-, high, isHigh, above⟩
        cases List.mem_singleton.mp isHigh
        revert above
        decide

theorem manifest_right_ascending :
    ∃ after, (new 128 1024 0).run ascending = some after ∧ Right after :=
  manifest_right 128 1024 0 ascending ascending_meets

/-- The document of the second segment lies between those of the first one. -/
def between : List ManifestEvent :=
  [.create .sq8, .receive 0 1, .receive 0 3, .register 0 10, .create .sq8,
    .receive 0 2, .register 0 20]

theorem between_not_right :
    ∃ after, (new 128 1024 0).run between = some after ∧ ¬Right after := by
  refine ⟨_, rfl, ?_⟩
  intro right
  obtain ⟨filling, member, same, among⟩ := right.finds 2 _ rfl
    ⟨_, List.mem_cons_of_mem _ List.mem_cons_self, List.mem_cons_self⟩
  rcases List.mem_cons.mp member with rfl | last
  · revert among
    decide
  · rw [List.mem_singleton.mp last] at same
    have number := congrArg SegmentMeta.segmentId same
    revert number
    decide

end

end Books

end RedVector.Rvf2
