import RedVector.Effect.LruCache
import RedVector.Rvf2.TieredStore

/-!
# The ledger of the segment cache

The order lists the cached segments, each of them once, and the cache knows
how many bytes they take.  No operation underflows then.
-/

namespace RedVector.Rvf2.LruSegmentCache

open Effect Util

/-- The bytes that are cached under an id. -/
def cachedSize (cache : LruSegmentCache) (segmentId : UInt32) : Nat :=
  match cache.segments.lookup segmentId with
  | some cached => cached.size
  | none => 0

structure Ledger (cache : LruSegmentCache) : Prop where
  once : cache.order.Nodup
  listed : ∀ segmentId, segmentId ∈ cache.order ↔
    ∃ cached, cache.segments.lookup segmentId = some cached
  total : (cache.order.map cache.cachedSize).sum = cache.currentBytes

/-- What one cache holds, the other holds too. -/
def Within (after before : LruSegmentCache) : Prop :=
  ∀ segmentId cached, after.segments.lookup segmentId = some cached →
    before.segments.lookup segmentId = some cached

theorem Within.trans {first second third : LruSegmentCache}
    (left : Within first second) (right : Within second third) :
    Within first third := by
  intro segmentId cached found
  exact right segmentId cached (left segmentId cached found)

theorem ledger_new (maxBytes : Nat) : Ledger (new maxBytes) where
  once := List.nodup_nil
  listed := by simp [new]
  total := by simp [new]

theorem ledger_clear (cache : LruSegmentCache) : Ledger cache.clear where
  once := List.nodup_nil
  listed := by simp [clear]
  total := by simp [clear]

/-- A hit moves the id to the end of the order. -/
theorem get_ledger {cache after : LruSegmentCache} {segmentId : UInt32}
    {cached : CachedSegment} (ledger : Ledger cache)
    (hit : cache.get segmentId = some (cached, after)) :
    Ledger after ∧ after.segments = cache.segments ∧
      cache.segments.lookup segmentId = some cached := by
  unfold get at hit
  split at hit
  case h_2 => cases hit
  case h_1 found =>
    cases hit
    have present : segmentId ∈ cache.order :=
      (ledger.listed segmentId).mpr ⟨_, found⟩
    have erased : (cache.order.filter fun id => id ≠ segmentId) =
        cache.order.erase segmentId := by
      rw [ledger.once.erase_eq_filter]
      apply List.filter_congr
      intro other _
      by_cases same : other = segmentId
      · simp [same]
      · simp [same]
    have moved : ((cache.order.filter fun id => id ≠ segmentId) ++
        [segmentId]).Perm cache.order := by
      rw [erased]
      apply List.perm_append_comm.trans
      exact (List.perm_cons_erase present).symm
    refine ⟨⟨?_, ?_, ?_⟩, rfl, found⟩
    · exact moved.nodup_iff.mpr ledger.once
    · intro other
      exact moved.mem_iff.trans (ledger.listed other)
    · rw [← ledger.total]
      exact (moved.map _).sum_eq

theorem evict_ledger {cache : LruSegmentCache} (ledger : Ledger cache) :
    ∃ after, cache.evict = some after ∧ Ledger after ∧
      Within after cache := by
  cases listing : cache.order with
  | nil =>
      refine ⟨cache, by simp [evict, listing], ledger, ?_⟩
      intro segmentId cached found
      exact found
  | cons evictId rest =>
      have once := ledger.once
      rw [listing, List.nodup_cons] at once
      obtain ⟨evicted, found⟩ := (ledger.listed evictId).mp (by
        rw [listing]
        exact List.mem_cons_self)
      have total := ledger.total
      rw [listing, List.map_cons, List.sum_cons] at total
      have size : cache.cachedSize evictId = evicted.size := by
        simp [cachedSize, found]
      have apart : ∀ other ∈ rest, other ≠ evictId := by
        intro other member same
        rw [same] at member
        exact once.1 member
      refine ⟨{ cache with
        segments := cache.segments.erase evictId
        order := rest
        currentBytes := cache.currentBytes - evicted.size },
        ?_, ⟨once.2, ?_, ?_⟩, ?_⟩
      · simp only [evict, listing, found]
        exact if_pos (by omega)
      · intro other
        by_cases same : other = evictId
        · subst same
          simp [once.1]
        · have listed := ledger.listed other
          rw [listing, List.mem_cons, or_iff_right same] at listed
          simp only [Finmap.lookup_erase_ne same]
          exact listed
      · have unchanged : rest.map (cachedSize
            { cache with
              segments := cache.segments.erase evictId
              order := rest
              currentBytes := cache.currentBytes - evicted.size }) =
            rest.map cache.cachedSize := by
          apply List.map_congr_left
          intro other member
          simp only [cachedSize,
            Finmap.lookup_erase_ne (apart other member)]
        simp only [unchanged]
        omega
      · intro other cached held
        by_cases same : other = evictId
        · subst same
          simp at held
        · rwa [Finmap.lookup_erase_ne same] at held

theorem makeRoom_ledger (size rounds : Nat) {cache : LruSegmentCache}
    (ledger : Ledger cache) :
    ∃ after, makeRoom size rounds cache = some after ∧ Ledger after ∧
      Within after cache := by
  induction rounds generalizing cache with
  | zero =>
      refine ⟨cache, rfl, ledger, ?_⟩
      intro segmentId cached found
      exact found
  | succ rounds ih =>
      rw [makeRoom]
      split
      · obtain ⟨evicted, evicts, kept, within⟩ := evict_ledger ledger
        obtain ⟨after, room, still, among⟩ := ih kept
        refine ⟨after, ?_, still, among.trans within⟩
        rw [evicts]
        exact room
      · refine ⟨cache, rfl, ledger, ?_⟩
        intro segmentId cached found
        exact found

/-- The ledger with a new entry. -/
theorem insert_ledger {room : LruSegmentCache} {segmentId : UInt32}
    (cached : CachedSegment) (kept : Ledger room)
    (missing : room.segments.lookup segmentId = none) :
    Ledger { room with
      segments := room.segments.insert segmentId cached
      order := room.order ++ [segmentId]
      currentBytes := room.currentBytes + cached.size } := by
  have unlisted : segmentId ∉ room.order := by
    intro member
    obtain ⟨found, held⟩ := (kept.listed segmentId).mp member
    rw [missing] at held
    cases held
  have apart : ∀ other ∈ room.order, other ≠ segmentId := by
    intro other member same
    rw [same] at member
    exact unlisted member
  refine ⟨?_, ?_, ?_⟩
  · apply List.nodup_append'.mpr
    refine ⟨kept.once, List.nodup_singleton _, ?_⟩
    simpa using unlisted
  · intro other
    by_cases same : other = segmentId
    · subst same
      simp
    · simp only [List.mem_append, List.mem_singleton, same, or_false,
        Finmap.lookup_insert_of_ne _ same]
      exact kept.listed other
  · have unchanged : room.order.map (cachedSize
        { room with
          segments := room.segments.insert segmentId cached
          order := room.order ++ [segmentId]
          currentBytes := room.currentBytes + cached.size }) =
        room.order.map room.cachedSize := by
      apply List.map_congr_left
      intro other member
      simp only [cachedSize,
        Finmap.lookup_insert_of_ne _ (apart other member)]
    simp only [List.map_append, List.sum_append, unchanged, kept.total]
    simp [cachedSize]

/-- A new entry comes on top of what is left of the others. -/
theorem put_ledger {cache : LruSegmentCache} {segmentId : UInt32}
    (cached : CachedSegment) (ledger : Ledger cache)
    (absent : cache.segments.lookup segmentId = none) :
    ∃ after, cache.put segmentId cached = some after ∧ Ledger after ∧
      ∀ other found, after.segments.lookup other = some found →
        other = segmentId ∧ found = cached ∨
          cache.segments.lookup other = some found := by
  obtain ⟨room, makes, kept, within⟩ :=
    makeRoom_ledger cached.size cache.order.length ledger
  have missing : room.segments.lookup segmentId = none := by
    cases held : room.segments.lookup segmentId with
    | none => rfl
    | some found =>
        rw [within segmentId found held] at absent
        cases absent
  refine ⟨_, ?_, insert_ledger cached kept missing, ?_⟩
  · rw [put, makes]
    rfl
  · intro other found held
    by_cases same : other = segmentId
    · subst same
      rw [Finmap.lookup_insert] at held
      cases held
      exact .inl ⟨rfl, rfl⟩
    · rw [Finmap.lookup_insert_of_ne _ same] at held
      exact .inr (within other found held)

/-!
## Runs of the segment cache

The cache is used with any sizes, as a build computes them.  It keeps its
ledger and its bound as long as what is put fits and is not there yet.
-/

section

/-! ## What a build computes -/

section Machine

variable [Platform]

/-- One round of the loop in `put`; a `u64` is as wide as a `usize`. -/
def evictIn (cache : LruSegmentCache) : Option LruSegmentCache :=
  match cache.order with
  | [] => some cache
  | evictId :: order =>
      match cache.segments.lookup evictId with
      | some evicted => do
          let currentBytes ← usize ((cache.currentBytes : Int) - evicted.size)
          some { cache with
            segments := cache.segments.erase evictId
            order := order
            currentBytes := currentBytes }
      | none => some { cache with order := order }

/-- The sum is computed before every round and after the last one. -/
def makeRoomIn (size : Nat) : Nat → LruSegmentCache → Option LruSegmentCache
  | 0, cache => do
      let _ ← usize (cache.currentBytes + size)
      some cache
  | rounds + 1, cache => do
      let needed ← usize (cache.currentBytes + size)
      if cache.maxBytes < needed ∧ cache.order ≠ [] then do
        makeRoomIn size rounds (← cache.evictIn)
      else some cache

def putIn (cache : LruSegmentCache) (segmentId : UInt32)
    (cached : CachedSegment) : Option LruSegmentCache := do
  let cache ← makeRoomIn cached.size cache.order.length cache
  let currentBytes ← usize (cache.currentBytes + cached.size)
  some { cache with
    segments := cache.segments.insert segmentId cached
    order := cache.order ++ [segmentId]
    currentBytes := currentBytes }

end Machine

inductive CacheOp where
  | put (segmentId : UInt32) (path : Bytes) (header : SegmentHeader)
      (size : UInt64)
  | get (segmentId : UInt32)
  | clear

def perform [Platform] (cache : LruSegmentCache) :
    CacheOp → Option LruSegmentCache
  | .put segmentId path header size =>
      cache.putIn segmentId
        { path := path, header := header, size := size.toNat }
  | .get segmentId =>
      match cache.get segmentId with
      | some (_, after) => some after
      | none => some cache
  | .clear => some cache.clear

/-- The segments that an operation uses. -/
def uses (cache : LruSegmentCache) : CacheOp → List UInt32
  | .put segmentId _ _ _ => [segmentId]
  | .get segmentId => if (cache.get segmentId).isSome then [segmentId] else []
  | .clear => []

/-- Runs the operations, with the history of the uses. -/
def run [Platform] : List CacheOp → LruSegmentCache × List UInt32 →
    Option (LruSegmentCache × List UInt32)
  | [], state => some state
  | op :: rest, state => do
      let after ← state.1.perform op
      run rest (after, state.2 ++ state.1.uses op)

/-! ## What should hold -/

/-- The order lists the cached segments once, by their last use, and the bytes
that they take are known and bounded. -/
structure Sound (history : List UInt32) (cache : LruSegmentCache) : Prop
    extends Ledger cache where
  bounded : cache.currentBytes ≤ cache.maxBytes
  recent : ByLastUse history cache.order

/-- Nothing underflows, and the segments that make room are those whose last
use is the oldest. -/
structure EvictsOldest (cache after : LruSegmentCache) (segmentId : UInt32)
    (cached : CachedSegment) : Prop where
  exact : cache.put segmentId cached = some after
  oldest : ∃ evicted kept, cache.order = evicted ++ kept ∧
    after.order = kept ++ [segmentId] ∧
    (∀ other ∈ evicted, other ≠ segmentId →
      after.segments.lookup other = none) ∧
    ∀ other ∈ kept,
      after.segments.lookup other = cache.segments.lookup other

def Proceeds (cache after : LruSegmentCache) : CacheOp → Prop
  | .put segmentId path header size => EvictsOldest cache after segmentId
      { path := path, header := header, size := size.toNat }
  | _ => True

/-- What is put fits the cache, its size can be added, and it is not there or
is evicted before: what was used since it was leaves no room. -/
def Admits (cache : LruSegmentCache) : CacheOp → Prop
  | .put segmentId _ _ size =>
      size.toNat ≤ cache.maxBytes ∧
      cache.currentBytes + size.toNat ≤ usizeMax ∧
      ∀ front back, cache.order = front ++ segmentId :: back →
        cache.maxBytes < size.toNat +
          ((segmentId :: back).map cache.cachedSize).sum
  | _ => True

variable {cache after : LruSegmentCache} {history : List UInt32}

/-! ## Making room -/

theorem evict_order {evictId : UInt32} {rest : List UInt32}
    (listing : cache.order = evictId :: rest)
    (evicts : cache.evict = some after) :
    after.order = rest ∧ after.maxBytes = cache.maxBytes ∧
      after.currentBytes ≤ cache.currentBytes := by
  unfold evict at evicts
  rw [listing] at evicts
  dsimp only at evicts
  split at evicts
  · split at evicts
    · cases evicts
      exact ⟨rfl, rfl, Nat.sub_le _ _⟩
    · cases evicts
  · cases evicts
    exact ⟨rfl, rfl, le_rfl⟩

/-- With a right ledger a round is exact in every build. -/
theorem evictIn_eq [Platform] (ledger : Ledger cache)
    (fits : cache.currentBytes ≤ usizeMax) : cache.evictIn = cache.evict := by
  cases listing : cache.order with
  | nil => simp only [evictIn, evict, listing]
  | cons evictId rest =>
      cases found : cache.segments.lookup evictId with
      | none => simp only [evictIn, evict, listing, found]
      | some evicted =>
          have enough : evicted.size ≤ cache.currentBytes := by
            by_contra less
            obtain ⟨after, evicts, -⟩ := evict_ledger ledger
            simp [evict, listing, found, less] at evicts
          have exact : usize ((cache.currentBytes : Int) - evicted.size) =
              some (cache.currentBytes - evicted.size) :=
            usize_of (by omega) (by omega)
          simp only [evictIn, evict, listing, found, if_pos enough, exact]
          rfl

theorem makeRoom_order (size : Nat) {rounds : Nat}
    (ledger : Ledger cache) (enough : cache.order.length ≤ rounds) :
    ∃ after evicted, makeRoom size rounds cache = some after ∧
      Ledger after ∧ Within after cache ∧
      cache.order = evicted ++ after.order ∧
      after.maxBytes = cache.maxBytes ∧
      after.currentBytes ≤ cache.currentBytes ∧
      (after.order = [] ∨ after.currentBytes + size ≤ cache.maxBytes) := by
  induction rounds generalizing cache with
  | zero =>
      have nothing : cache.order = [] :=
        List.eq_nil_of_length_eq_zero (Nat.le_zero.mp enough)
      exact ⟨cache, [], rfl, ledger, fun _ _ found => found, rfl, rfl, le_rfl,
        .inl nothing⟩
  | succ rounds ih =>
      rw [makeRoom]
      split
      · rename_i full
        obtain ⟨evicted, evicts, kept, within⟩ := evict_ledger ledger
        obtain ⟨evictId, rest, listing⟩ := List.exists_cons_of_ne_nil full.2
        obtain ⟨order, bound, less⟩ := evict_order listing evicts
        have shorter : evicted.order.length ≤ rounds := by
          rw [listing, List.length_cons] at enough
          rw [order]
          omega
        obtain ⟨after, others, room, still, among, parts, same, fewer, done⟩ :=
          ih kept shorter
        refine ⟨after, evictId :: others, ?_, still, among.trans within, ?_,
          same.trans bound, fewer.trans less, ?_⟩
        · rw [evicts]
          exact room
        · rw [listing, ← order, parts]
          rfl
        · rwa [bound] at done
      · rename_i roomy
        refine ⟨cache, [], rfl, ledger, fun _ _ found => found, rfl, rfl,
          le_rfl, ?_⟩
        by_cases nothing : cache.order = []
        · exact .inl nothing
        · exact .inr (Nat.le_of_not_lt fun full => roomy ⟨full, nothing⟩)

theorem makeRoomIn_eq [Platform] (size rounds : Nat) (ledger : Ledger cache)
    (fits : cache.currentBytes + size ≤ usizeMax) :
    makeRoomIn size rounds cache = makeRoom size rounds cache := by
  induction rounds generalizing cache with
  | zero =>
      rw [makeRoomIn, usize_of (Int.natCast_add _ _).symm fits]
      rfl
  | succ rounds ih =>
      rw [makeRoomIn, makeRoom, usize_of (Int.natCast_add _ _).symm fits,
        Option.bind_eq_bind, Option.bind_some]
      split
      · rename_i full
        obtain ⟨evicted, evicts, kept, -⟩ := evict_ledger ledger
        obtain ⟨evictId, rest, listing⟩ := List.exists_cons_of_ne_nil full.2
        obtain ⟨-, -, less⟩ := evict_order listing evicts
        rw [evictIn_eq ledger (by omega), evicts, Option.bind_eq_bind,
          Option.bind_some]
        exact ih kept (by omega)
      · rfl

/-! ## Operations -/

/-- The bytes of the entries that are used since one was. -/
theorem sum_back {front back : List UInt32} {segmentId : UInt32}
    (kept : Ledger cache) (listing : cache.order = front ++ segmentId :: back) :
    ((segmentId :: back).map cache.cachedSize).sum ≤ cache.currentBytes := by
  have total := kept.total
  rw [listing, List.map_append, List.sum_append] at total
  omega

theorem Within.cachedSize {segmentId : UInt32}
    (within : Within after cache) (kept : Ledger after)
    (member : segmentId ∈ after.order) :
    after.cachedSize segmentId = cache.cachedSize segmentId := by
  obtain ⟨found, held⟩ := (kept.listed segmentId).mp member
  unfold LruSegmentCache.cachedSize
  rw [held, within segmentId found held]

/-- What is put where it is admitted is not there when there is room. -/
theorem room_lookup {segmentId : UInt32} {size : Nat}
    {evicted : List UInt32} (kept : Ledger after)
    (within : Within after cache)
    (parts : cache.order = evicted ++ after.order)
    (roomy : after.order = [] ∨ after.currentBytes + size ≤ cache.maxBytes)
    (apart : ∀ front back, cache.order = front ++ segmentId :: back →
      cache.maxBytes < size +
        ((segmentId :: back).map cache.cachedSize).sum) :
    after.segments.lookup segmentId = none := by
  cases held : after.segments.lookup segmentId with
  | none => rfl
  | some found =>
      have member := (kept.listed segmentId).mpr ⟨found, held⟩
      obtain ⟨front, back, listing⟩ := List.append_of_mem member
      have full := apart (evicted ++ front) back (by
        rw [parts, listing, List.append_assoc])
      have less := sum_back kept listing
      have same : (segmentId :: back).map after.cachedSize =
          (segmentId :: back).map cache.cachedSize := by
        apply List.map_congr_left
        intro other among
        apply within.cachedSize kept
        rw [listing]
        exact List.mem_append_right front among
      rw [same] at less
      rcases roomy with nothing | enough
      · rw [nothing] at member
        cases member
      · omega

theorem putIn_sound [Platform] {segmentId : UInt32} {path : Bytes}
    {header : SegmentHeader} {size : UInt64} (sound : Sound history cache)
    (admits : cache.Admits (.put segmentId path header size)) :
    ∃ after, cache.putIn segmentId
        { path := path, header := header, size := size.toNat } = some after ∧
      EvictsOldest cache after segmentId
        { path := path, header := header, size := size.toNat } ∧
      Sound (history ++ [segmentId]) after := by
  obtain ⟨fitsCache, fits, apart⟩ := admits
  obtain ⟨room, evicted, makes, kept, within, parts, bound, less, roomy⟩ :=
    makeRoom_order size.toNat sound.toLedger le_rfl
  have missing := room_lookup kept within parts roomy apart
  have bounded : room.currentBytes + size.toNat ≤ cache.maxBytes := by
    rcases roomy with nothing | enough
    · have total := kept.total
      rw [nothing] at total
      simp only [List.map_nil, List.sum_nil] at total
      omega
    · exact enough
  have unlisted : segmentId ∉ room.order := by
    intro member
    obtain ⟨found, held⟩ := (kept.listed segmentId).mp member
    rw [missing] at held
    cases held
  have recent := sound.recent
  rw [parts] at recent
  refine ⟨_, ?_, ⟨?_, evicted, room.order, parts, rfl, ?_, ?_⟩,
    ⟨insert_ledger { path := path, header := header, size := size.toNat }
      kept missing, ?_, recent.drop.add unlisted⟩⟩
  · have summed : usize ((room.currentBytes : Int) + size.toNat) =
        some (room.currentBytes + size.toNat) :=
      usize_of (Int.natCast_add _ _).symm (by omega)
    unfold putIn
    rw [makeRoomIn_eq _ _ sound.toLedger fits, makes]
    show (usize ((room.currentBytes : Int) + size.toNat)).bind _ = _
    rw [summed]
    rfl
  · rw [put, makes]
    rfl
  · intro other member different
    rw [Finmap.lookup_insert_of_ne _ different]
    have once := sound.once
    rw [parts, List.nodup_append] at once
    cases held : room.segments.lookup other with
    | none => rfl
    | some found =>
        have listed := (kept.listed other).mpr ⟨found, held⟩
        exact absurd rfl (once.2.2 other member other listed)
  · intro other member
    have different : other ≠ segmentId := by
      intro same
      rw [same] at member
      exact unlisted member
    obtain ⟨found, held⟩ := (kept.listed other).mp member
    rw [Finmap.lookup_insert_of_ne _ different, held,
      within other found held]
  · rw [bound]
    exact bounded

theorem get_order {segmentId : UInt32} {cached : CachedSegment}
    (hit : cache.get segmentId = some (cached, after)) :
    after = { cache with
      order := (cache.order.filter fun id => id ≠ segmentId) ++
        [segmentId] } := by
  unfold get at hit
  split at hit
  · cases hit
    rfl
  · cases hit

/-- An admitted operation proceeds in every build and keeps what should
hold. -/
theorem perform_sound [Platform] {op : CacheOp}
    (sound : Sound history cache) (admits : cache.Admits op) :
    ∃ after, cache.perform op = some after ∧ Proceeds cache after op ∧
      Sound (history ++ cache.uses op) after := by
  cases op with
  | put segmentId path header size => exact putIn_sound sound admits
  | get segmentId =>
      cases hit : cache.get segmentId with
      | none =>
          refine ⟨cache, by simp only [perform, hit], trivial, ?_⟩
          simp only [uses, hit, Option.isSome_none, Bool.false_eq_true,
            if_false, List.append_nil]
          exact sound
      | some result =>
          obtain ⟨cached, after⟩ := result
          have kept := (get_ledger sound.toLedger hit).1
          have moved := get_order hit
          refine ⟨after, by simp only [perform, hit], trivial, kept, ?_, ?_⟩
          · rw [moved]
            exact sound.bounded
          · simp only [uses, hit, Option.isSome_some, if_true]
            rw [moved]
            exact sound.recent.use segmentId
  | clear =>
      exact ⟨cache.clear, rfl, trivial, ledger_clear cache, Nat.zero_le _,
        .nil _⟩

/-! ## Runs -/

/-- As long as every operation is admitted, the cache is sound in every state
of a run, and every operation proceeds. -/
theorem run_from [Platform] {ops : List CacheOp}
    (sound : Sound history cache)
    (admitted : ∀ before op after state, ops = before ++ op :: after →
      run before (cache, history) = some state → state.1.Admits op)
    {before rest : List CacheOp} (parts : ops = before ++ rest) :
    ∃ state, run before (cache, history) = some state ∧
      Sound state.2 state.1 ∧
      ∀ op after, rest = op :: after → ∃ next,
        state.1.perform op = some next ∧ Proceeds state.1 next op := by
  induction before generalizing ops cache history with
  | nil =>
      refine ⟨(cache, history), rfl, sound, ?_⟩
      rintro op after rfl
      obtain ⟨next, performs, proceeds, -⟩ :=
        perform_sound sound (admitted [] op after _ parts rfl)
      exact ⟨next, performs, proceeds⟩
  | cons op before ih =>
      obtain ⟨next, performs, -, kept⟩ :=
        perform_sound sound (admitted [] op (before ++ rest) _ parts rfl)
      have runs : ∀ others, run (op :: others) (cache, history) =
          run others (next, history ++ cache.uses op) := by
        intro others
        rw [run, performs]
        rfl
      have later : ∀ front other after state,
          before ++ rest = front ++ other :: after →
          run front (next, history ++ cache.uses op) = some state →
            state.1.Admits other := by
        intro front other after state two ran
        refine admitted (op :: front) other after state ?_ ?_
        · rw [parts, List.cons_append, two, List.cons_append]
        · rw [runs]
          exact ran
      obtain ⟨state, ran, still, proceeds⟩ := ih kept later rfl
      refine ⟨state, ?_, still, proceeds⟩
      rw [runs]
      exact ran

theorem sound_new (maxBytes : Nat) : Sound [] (new maxBytes) where
  toLedger := ledger_new maxBytes
  bounded := Nat.zero_le _
  recent := .nil _

/-- In every build: as long as every operation is admitted, the cache is sound
in every state of a run from the beginning, and the next operation proceeds. -/
theorem run_sound [Platform] (maxBytes : UInt64) (ops : List CacheOp)
    (admitted : ∀ before op after state, ops = before ++ op :: after →
      run before (new maxBytes.toNat, []) = some state → state.1.Admits op)
    (before rest : List CacheOp) (parts : ops = before ++ rest) :
    ∃ state, run before (new maxBytes.toNat, []) = some state ∧
      Sound state.2 state.1 ∧
      ∀ op after, rest = op :: after → ∃ next,
        state.1.perform op = some next ∧ Proceeds state.1 next op :=
  run_from (sound_new maxBytes.toNat) admitted parts

section

attribute [local instance] Platform.integral

/-- Puts a segment of a size. -/
def putSized (segmentId : UInt32) (size : UInt64) : CacheOp :=
  .put segmentId (text "seg") (.new segmentId .fp32 0 0) size

/-- The cache of eight bytes with one segment of three bytes. -/
def oneSegment : LruSegmentCache where
  segments := (∅ : HashMap UInt32 CachedSegment).insert 1
    { path := text "seg", header := .new 1 .fp32 0 0, size := 3 }
  order := [1]
  maxBytes := 8
  currentBytes := 3

theorem run_oneSegment :
    run [putSized 1 3] (new (8 : UInt64).toNat, []) =
      some (oneSegment, [1]) :=
  rfl

/-- The second segment makes the first one leave. -/
theorem run_evicting :
    ∃ state, run [putSized 1 3] (new (8 : UInt64).toNat, []) = some state ∧
      Sound state.2 state.1 ∧
      ∃ next, state.1.perform (putSized 2 6) = some next ∧
        Proceeds state.1 next (putSized 2 6) := by
  have admitted : ∀ before op after state,
      [putSized 1 3, putSized 2 6] = before ++ op :: after →
      run before (new (8 : UInt64).toNat, []) = some state →
        state.1.Admits op := by
    intro before op after state parts ran
    match before, parts with
    | [], parts =>
        cases parts
        cases ran
        refine ⟨by decide, by decide, ?_⟩
        intro front back listing
        exact absurd listing (by simp [new])
    | [first], parts =>
        cases parts
        rw [run_oneSegment] at ran
        cases ran
        refine ⟨by decide, by decide, ?_⟩
        intro front back listing
        have member : (2 : UInt32) ∈ oneSegment.order := by
          rw [listing]
          simp
        exact absurd member (by decide)
    | _ :: _ :: front, parts =>
        have lengths := congrArg List.length parts
        simp at lengths
  obtain ⟨state, ran, sound, proceeds⟩ :=
    run_sound 8 [putSized 1 3, putSized 2 6] admitted
      [putSized 1 3] [putSized 2 6] rfl
  exact ⟨state, ran, sound, proceeds _ _ rfl⟩

/-- What is put again is listed twice and counted twice, and what is larger
than the cache is kept. -/
theorem run_unsound :
    (∃ state, run [putSized 1 3, putSized 1 3]
        (new (8 : UInt64).toNat, []) = some state ∧
      state.1.order = [1, 1] ∧ state.1.currentBytes = 6 ∧
      ((state.1.segments.lookup 1).map CachedSegment.size) = some 3) ∧
    ∃ state, run [putSized 1 9] (new (8 : UInt64).toNat, []) = some state ∧
      state.1.maxBytes < state.1.currentBytes := by
  refine ⟨⟨_, rfl, rfl, rfl, ?_⟩, _, rfl, by decide⟩
  rw [Finmap.lookup_insert]
  rfl

end

end

end RedVector.Rvf2.LruSegmentCache
