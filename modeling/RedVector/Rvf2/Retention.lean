import RedVector.Effect.Runs
import RedVector.Rvf2.RoundTrip
import RedVector.Rvf2.SegmentCache

/-!
# Segments are retained

Over a run the tiers together are one map that is written once: whatever was
under an id stays there, and every tier answers it.  This holds as long as a
segment leaves the hot directory only while the object store has it.
-/

namespace RedVector.Rvf2.TieredStore

open Effect Util

/-! ## The names of the files -/

theorem digitsValue_zeros (count : Nat) (digits : Bytes) :
    digitsValue (List.replicate count 48 ++ digits) = digitsValue digits := by
  induction count with
  | zero => rfl
  | succ count ih => exact ih

theorem padded_value (number : Nat) : digitsValue (padded number) = number := by
  rw [padded, digitsValue_zeros, natToString_value]

theorem fileName_injective {first second : UInt32}
    (same : fileName first = fileName second) : first = second := by
  have ends := List.append_cancel_left same
  have digits := List.append_cancel_right ends
  have values := congrArg digitsValue digits
  rw [padded_value, padded_value] at values
  exact UInt32.toNat_inj.mp values

theorem cachePath_injective {first second : UInt32}
    (same : cachePath first = cachePath second) : first = second := by
  apply fileName_injective
  exact List.append_cancel_left same

theorem coldKey_injective {store : TieredStore} {first second : UInt32}
    (same : store.coldKey first = store.coldKey second) : first = second := by
  have ends : text "/" ++ fileName first = text "/" ++ fileName second :=
    List.append_cancel_left same
  exact fileName_injective (List.append_cancel_left ends)

theorem hotPath_ne_cachePath (first second : UInt32) :
    hotPath first ≠ cachePath second := by
  intro same
  have heads := congrArg List.head? same
  cases heads

/-! ## What the tiers hold -/

def Hot (store : TieredStore) (segmentId : UInt32) (bytes : Bytes) : Prop :=
  store.files.lookup (hotPath segmentId) = some bytes

def Warm (store : TieredStore) (segmentId : UInt32) (bytes : Bytes) : Prop :=
  ∃ cached, store.warmCache.segments.lookup segmentId = some cached ∧
    (store.mapped cached).mmap = bytes

def Cold (store : TieredStore) (segmentId : UInt32) (bytes : Bytes) : Prop :=
  store.fetch segmentId = .ok bytes

/-- Some tier has these bytes under the id. -/
def Kept (store : TieredStore) (segmentId : UInt32) (bytes : Bytes) : Prop :=
  store.Hot segmentId bytes ∨ store.Warm segmentId bytes ∨
    store.Cold segmentId bytes

/-- A store that was just made, over a directory and an object store with
segments; what is in both is the same. -/
structure Opened (store : TieredStore) : Prop where
  cache : ∃ maxBytes, store.warmCache = .new maxBytes
  opens : ∀ segmentId bytes, store.Kept segmentId bytes →
    ∃ segment, Segment.ofFile bytes = .ok segment
  agree : ∀ segmentId first second, store.Kept segmentId first →
    store.Kept segmentId second → first = second

/-- An upload under an id of some tier repeats what is there. -/
def PutOnce (store : TieredStore) : TierOp → Prop
  | .upload segmentId data =>
      ∀ bytes, store.Kept segmentId bytes → bytes = data
  | _ => True

/-- What is uploaded is a segment, and what is unpinned is in the object
store as well. -/
def Covered (store : TieredStore) : TierOp → Prop
  | .upload _ data => ∃ segment, Segment.ofFile data = .ok segment
  | .unpin segmentId => ∀ bytes, store.Hot segmentId bytes →
      ∃ object, store.Cold segmentId object
  | _ => True

/-! ## One map that is written once -/

/-- The store keeps these contents: the hot files and the objects are all of
them, and a cached file shows an object. -/
structure Keeps (store : TieredStore) (contents : UInt32 → Option Bytes) :
    Prop where
  ledger : store.warmCache.Ledger
  hot : ∀ segmentId bytes, store.Hot segmentId bytes →
    contents segmentId = some bytes
  cold : ∀ segmentId bytes, store.Cold segmentId bytes →
    contents segmentId = some bytes
  stored : ∀ segmentId bytes, contents segmentId = some bytes →
    store.Hot segmentId bytes ∨ store.Cold segmentId bytes
  opens : ∀ segmentId bytes, contents segmentId = some bytes →
    ∃ segment, Segment.ofFile bytes = .ok segment
  warm : ∀ segmentId cached,
    store.warmCache.segments.lookup segmentId = some cached →
      ∃ bytes, store.Cold segmentId bytes ∧
        cached.path = cachePath segmentId ∧
        store.files.lookup (cachePath segmentId) = some bytes ∧
        Segment.ofFile bytes = .ok { mmap := bytes, header := cached.header }

variable {store : TieredStore} {contents : UInt32 → Option Bytes}
  {segmentId : UInt32} {bytes : Bytes}

theorem Keeps.kept (keeps : store.Keeps contents)
    (kept : store.Kept segmentId bytes) : contents segmentId = some bytes := by
  rcases kept with hot | ⟨cached, found, shown⟩ | cold
  · exact keeps.hot segmentId bytes hot
  · obtain ⟨object, cold, path, file, _⟩ := keeps.warm segmentId cached found
    rw [mapped, path, file, Option.getD_some] at shown
    subst shown
    exact keeps.cold segmentId object cold
  · exact keeps.cold segmentId bytes cold

/-- The cache may lose entries. -/
theorem Keeps.within (keeps : store.Keeps contents)
    {warmCache : LruSegmentCache} (ledger : warmCache.Ledger)
    (within : warmCache.Within store.warmCache) :
    Keeps { store with warmCache := warmCache } contents where
  ledger := ledger
  hot := keeps.hot
  cold := keeps.cold
  stored := keeps.stored
  opens := keeps.opens
  warm := by
    intro other cached found
    exact keeps.warm other cached (within other cached found)

theorem Keeps.counted (keeps : store.Keeps contents)
    (stats : TieredStoreStats) :
    Keeps { store with stats := stats } contents where
  ledger := keeps.ledger
  hot := keeps.hot
  cold := keeps.cold
  stored := keeps.stored
  opens := keeps.opens
  warm := keeps.warm

theorem ofFile_mmap {segment : Segment}
    (opened : Segment.ofFile bytes = .ok segment) :
    segment = { mmap := bytes, header := segment.header } := by
  unfold Segment.ofFile at opened
  split at opened
  · cases opened
  · split at opened
    · cases opened
    · split at opened
      · cases opened
      · split at opened
        · cases opened
        · cases opened
          rfl

/-! ## Reading -/

/-- An object becomes a cached file. -/
theorem Keeps.cacheFetched (keeps : store.Keeps contents)
    (cold : store.Cold segmentId bytes)
    (missing : store.warmCache.segments.lookup segmentId = none) :
    ∃ segment after, Segment.ofFile bytes = .ok segment ∧
      store.cacheFetched segmentId bytes = some (.ok segment, after) ∧
      Keeps after contents := by
  obtain ⟨segment, opened⟩ :=
    keeps.opens segmentId bytes (keeps.cold segmentId bytes cold)
  obtain ⟨warmCache, puts, ledger, entries⟩ :=
    LruSegmentCache.put_ledger
      { path := cachePath segmentId
        header := segment.header
        size := bytes.length } keeps.ledger missing
  have hotFiles : ∀ other,
      (store.files.insert (cachePath segmentId) bytes).lookup
        (hotPath other) = store.files.lookup (hotPath other) := by
    intro other
    exact Finmap.lookup_insert_of_ne _ (hotPath_ne_cachePath other segmentId)
  refine ⟨segment, { store with
    files := store.files.insert (cachePath segmentId) bytes
    warmCache := warmCache
    stats := fetchCold store.stats bytes.length }, opened, ?_,
    ⟨ledger, ?_, keeps.cold, ?_, keeps.opens, ?_⟩⟩
  · simp only [TieredStore.cacheFetched, opened, puts]
    rfl
  · intro other held hot
    rw [Hot, hotFiles] at hot
    exact keeps.hot other held hot
  · intro other held found
    rw [Hot, hotFiles]
    exact keeps.stored other held found
  · intro other cached found
    rcases entries other cached found with ⟨same, new⟩ | old
    · subst same new
      refine ⟨bytes, cold, rfl, Finmap.lookup_insert _, ?_⟩
      rw [opened]
      exact congrArg Except.ok (ofFile_mmap opened)
    · obtain ⟨object, fetched, path, file, shown⟩ :=
        keeps.warm other cached old
      refine ⟨object, fetched, path, ?_, shown⟩
      by_cases same : other = segmentId
      · subst same
        rw [missing] at old
        cases old
      · rw [Finmap.lookup_insert_of_ne]
        · exact file
        · intro paths
          exact same (cachePath_injective paths)

/-- Every tier answers with what the id stands for. -/
theorem Keeps.getSegment (keeps : store.Keeps contents)
    (segmentId : UInt32) :
    ∃ answer after, store.getSegment segmentId = some (answer, after) ∧
      Keeps after contents ∧
      ∀ bytes, contents segmentId = some bytes →
        ∃ segment, Segment.ofFile bytes = .ok segment ∧
          answer = .ok segment := by
  rw [TieredStore.getSegment]
  cases hot : store.files.lookup (hotPath segmentId) with
  | some held =>
      have content := keeps.hot segmentId held hot
      obtain ⟨segment, opened⟩ := keeps.opens segmentId held content
      refine ⟨.ok segment, { store with
        stats := hitHot store.stats held.length }, ?_, keeps.counted _, ?_⟩
      · simp only [opened]
      · intro bytes stands
        cases content.symm.trans stands
        exact ⟨segment, opened, rfl⟩
  | none =>
      cases hit : store.warmCache.get segmentId with
      | some entry =>
          obtain ⟨cached, warmCache⟩ := entry
          obtain ⟨ledger, same, found⟩ :=
            LruSegmentCache.get_ledger keeps.ledger hit
          have within : warmCache.Within store.warmCache := by
            intro other cached present
            rwa [same] at present
          obtain ⟨object, cold, path, file, shown⟩ :=
            keeps.warm segmentId cached found
          refine ⟨_, _, rfl, (keeps.within ledger within).counted _, ?_⟩
          intro bytes stands
          cases (keeps.cold segmentId object cold).symm.trans stands
          refine ⟨_, shown, ?_⟩
          rw [mapped, path, file]
          rfl
      | none =>
          have missing : store.warmCache.segments.lookup segmentId = none := by
            unfold LruSegmentCache.get at hit
            split at hit
            · cases hit
            · assumption
          cases fetched : store.fetch segmentId with
          | error error =>
              refine ⟨_, _, rfl, keeps, ?_⟩
              intro bytes stands
              rcases keeps.stored segmentId bytes stands with held | cold
              · cases hot.symm.trans held
              · cases fetched.symm.trans cold
          | ok object =>
              obtain ⟨segment, after, opened, caches, still⟩ :=
                keeps.cacheFetched fetched missing
              refine ⟨_, _, caches, still, ?_⟩
              intro bytes stands
              cases (keeps.cold segmentId object fetched).symm.trans stands
              exact ⟨segment, opened, rfl⟩

theorem Keeps.prefetch (keeps : store.Keeps contents)
    (segmentIds : List UInt32) :
    ∃ after, store.prefetch segmentIds = some after ∧
      Keeps after contents := by
  induction segmentIds generalizing store with
  | nil => exact ⟨store, rfl, keeps⟩
  | cons segmentId rest ih =>
      obtain ⟨answer, between, gets, still, _⟩ := keeps.getSegment segmentId
      obtain ⟨after, others, finally_⟩ := ih still
      refine ⟨after, ?_, finally_⟩
      rw [TieredStore.prefetch, gets]
      exact others

/-! ## Writing -/

theorem Keeps.pin (keeps : store.Keeps contents) (segmentId : UInt32) :
    Keeps (store.pin segmentId).2 contents := by
  unfold TieredStore.pin
  split
  · exact keeps
  · split
    · exact keeps
    · rename_i object fetched
      refine ⟨keeps.ledger, ?_, keeps.cold, ?_, keeps.opens, ?_⟩
      · intro other bytes hot
        by_cases same : other = segmentId
        · subst same
          rw [Hot, Finmap.lookup_insert] at hot
          cases hot
          exact keeps.cold other object fetched
        · rw [Hot, Finmap.lookup_insert_of_ne] at hot
          · exact keeps.hot other bytes hot
          · intro paths
            exact same (fileName_injective paths)
      · intro other bytes stands
        rcases keeps.stored other bytes stands with hot | cold
        · by_cases same : other = segmentId
          · subst same
            have content := keeps.cold other object fetched
            cases content.symm.trans stands
            exact .inr fetched
          · refine .inl ?_
            rw [Hot, Finmap.lookup_insert_of_ne]
            · exact hot
            · intro paths
              exact same (fileName_injective paths)
        · exact .inr cold
      · intro other cached found
        obtain ⟨held, cold, path, file, shown⟩ := keeps.warm other cached found
        refine ⟨held, cold, path, ?_, shown⟩
        rw [Finmap.lookup_insert_of_ne]
        · exact file
        · exact (hotPath_ne_cachePath segmentId other).symm

theorem Keeps.unpin (keeps : store.Keeps contents)
    (covered : store.Covered (.unpin segmentId)) :
    Keeps (store.unpin segmentId) contents := by
  refine ⟨keeps.ledger, ?_, keeps.cold, ?_, keeps.opens, ?_⟩
  · intro other bytes hot
    by_cases same : other = segmentId
    · subst same
      rw [Hot, TieredStore.unpin, Finmap.lookup_erase] at hot
      cases hot
    · rw [Hot, TieredStore.unpin, Finmap.lookup_erase_ne] at hot
      · exact keeps.hot other bytes hot
      · intro paths
        exact same (fileName_injective paths)
  · intro other bytes stands
    rcases keeps.stored other bytes stands with hot | cold
    · by_cases same : other = segmentId
      · subst same
        obtain ⟨object, cold⟩ := covered bytes hot
        cases (keeps.cold other object cold).symm.trans stands
        exact .inr cold
      · refine .inl ?_
        rw [Hot, TieredStore.unpin, Finmap.lookup_erase_ne]
        · exact hot
        · intro paths
          exact same (fileName_injective paths)
    · exact .inr cold
  · intro other cached found
    obtain ⟨held, cold, path, file, shown⟩ := keeps.warm other cached found
    refine ⟨held, cold, path, ?_, shown⟩
    rw [TieredStore.unpin, Finmap.lookup_erase_ne]
    · exact file
    · exact (hotPath_ne_cachePath segmentId other).symm

/-- An upload adds what it brings. -/
theorem Keeps.upload (keeps : store.Keeps contents)
    (once : store.PutOnce (.upload segmentId bytes))
    (covered : store.Covered (.upload segmentId bytes)) :
    ∃ extended, Keeps (store.upload segmentId bytes).2 extended ∧
      ∀ other held, contents other = some held →
        extended other = some held := by
  unfold TieredStore.upload
  cases configured : store.objectStore with
  | none => exact ⟨contents, keeps, fun _ _ stands => stands⟩
  | some objects =>
      have known : ∀ held, contents segmentId = some held → held = bytes := by
        intro held stands
        apply once
        rcases keeps.stored segmentId held stands with hot | cold
        · exact .inl hot
        · exact .inr (.inr cold)
      have grown : ∀ other held, contents other = some held →
          Function.update contents segmentId (some bytes) other =
            some held := by
        intro other held stands
        by_cases same : other = segmentId
        · subst same
          rw [Function.update_self, known held stands]
        · rw [Function.update_of_ne same, stands]
      have objectsAfter : ∀ other held,
          Cold { store with
            objectStore :=
              some (objects.insert (store.coldKey segmentId) bytes) }
            other held ↔
          other = segmentId ∧ held = bytes ∨
            other ≠ segmentId ∧ store.Cold other held := by
        intro other held
        by_cases same : other = segmentId
        · subst same
          simp [Cold, fetch, coldKey, eq_comm]
        · have keys : store.coldKey other ≠ store.coldKey segmentId := by
            intro keys
            exact same (coldKey_injective keys)
          have kept : (objects.insert (store.coldKey segmentId) bytes).lookup
              (store.coldKey other) = objects.lookup (store.coldKey other) :=
            Finmap.lookup_insert_of_ne objects keys
          simp only [coldKey] at kept
          simp [Cold, fetch, coldKey, configured, same, kept]
      refine ⟨Function.update contents segmentId (some bytes),
        ⟨keeps.ledger, ?_, ?_, ?_, ?_, ?_⟩, grown⟩
      · intro other held hot
        exact grown other held (keeps.hot other held hot)
      · intro other held cold
        rcases (objectsAfter other held).mp cold with ⟨same, new⟩ | ⟨_, old⟩
        · rw [same, new, Function.update_self]
        · exact grown other held (keeps.cold other held old)
      · intro other held stands
        by_cases same : other = segmentId
        · subst same
          rw [Function.update_self] at stands
          cases stands
          exact .inr ((objectsAfter other bytes).mpr (.inl ⟨rfl, rfl⟩))
        · rw [Function.update_of_ne same] at stands
          rcases keeps.stored other held stands with hot | cold
          · exact .inl hot
          · exact .inr ((objectsAfter other held).mpr (.inr ⟨same, cold⟩))
      · intro other held stands
        by_cases same : other = segmentId
        · subst same
          rw [Function.update_self] at stands
          cases stands
          exact covered
        · rw [Function.update_of_ne same] at stands
          exact keeps.opens other held stands
      · intro other cached found
        obtain ⟨held, cold, rest⟩ := keeps.warm other cached found
        refine ⟨held, (objectsAfter other held).mpr ?_, rest⟩
        by_cases same : other = segmentId
        · subst same
          exact .inl ⟨rfl, known held (keeps.cold other held cold)⟩
        · exact .inr ⟨same, cold⟩

/-! ## Runs -/

/-- No operation panics, and whatever was under an id stays there. -/
theorem Keeps.perform (keeps : store.Keeps contents) {op : TierOp}
    (once : store.PutOnce op) (covered : store.Covered op) :
    ∃ after extended, store.perform op = some after ∧
      Keeps after extended ∧
      ∀ other held, contents other = some held →
        extended other = some held := by
  cases op with
  | upload segmentId data =>
      obtain ⟨extended, still, grown⟩ := keeps.upload once covered
      exact ⟨_, extended, rfl, still, grown⟩
  | pin segmentId =>
      exact ⟨_, contents, rfl, keeps.pin segmentId, fun _ _ stands => stands⟩
  | unpin segmentId =>
      exact ⟨_, contents, rfl, keeps.unpin covered, fun _ _ stands => stands⟩
  | getSegment segmentId =>
      obtain ⟨answer, after, gets, still, _⟩ := keeps.getSegment segmentId
      refine ⟨after, contents, ?_, still, fun _ _ stands => stands⟩
      rw [TieredStore.perform, gets]
      rfl
  | prefetch segmentIds =>
      obtain ⟨after, fetches, still⟩ := keeps.prefetch segmentIds
      exact ⟨after, contents, fetches, still, fun _ _ stands => stands⟩
  | evict =>
      obtain ⟨warmCache, evicts, ledger, within⟩ :=
        LruSegmentCache.evict_ledger keeps.ledger
      refine ⟨_, contents, ?_, keeps.within ledger within,
        fun _ _ stands => stands⟩
      rw [TieredStore.perform, evicts]
      rfl
  | clearCache =>
      refine ⟨_, contents, rfl, keeps.within
        (LruSegmentCache.ledger_clear store.warmCache) ?_,
        fun _ _ stands => stands⟩
      intro other cached found
      cases found

/-- A step on a store, in which uploads are put once. -/
def Step (before : TieredStore) (op : TierOp) (after : TieredStore) : Prop :=
  before.PutOnce op ∧ before.perform op = some after

/-- A step that leaves no segment without a copy. -/
def CoveredStep (before : TieredStore) (op : TierOp) (after : TieredStore) :
    Prop :=
  before.Step op after ∧ before.Covered op

theorem keeps_run {before after : TieredStore} {ops : List TierOp}
    (keeps : before.Keeps contents) (run : Runs CoveredStep before ops after) :
    ∃ extended, after.Keeps extended ∧
      ∀ other held, contents other = some held →
        extended other = some held := by
  induction run generalizing contents with
  | done state => exact ⟨contents, keeps, fun _ _ stands => stands⟩
  | next first others ih =>
      obtain ⟨⟨once, performed⟩, covered⟩ := first
      obtain ⟨between, extended, performs, still, grown⟩ :=
        keeps.perform once covered
      cases performed.symm.trans performs
      obtain ⟨finally_, ends, more⟩ := ih still
      refine ⟨finally_, ends, ?_⟩
      intro other held stands
      exact more other held (grown other held stands)

open Classical in
/-- A new store keeps what it finds. -/
theorem Opened.keeps (opened : store.Opened) :
    ∃ contents, store.Keeps contents := by
  obtain ⟨maxBytes, cache⟩ := opened.cache
  have stands : ∀ segmentId bytes,
      (if present : ∃ held, store.Kept segmentId held then
        some present.choose else none) = some bytes ↔
      store.Kept segmentId bytes := by
    intro segmentId bytes
    split
    · rename_i present
      rw [Option.some_inj]
      constructor
      · intro same
        rw [← same]
        exact present.choose_spec
      · exact opened.agree segmentId _ _ present.choose_spec
    · rename_i absent
      constructor
      · intro impossible
        cases impossible
      · intro kept
        exact absurd ⟨bytes, kept⟩ absent
  refine ⟨fun segmentId => if present : ∃ held, store.Kept segmentId held then
    some present.choose else none, ⟨?_, ?_, ?_, ?_, ?_, ?_⟩⟩
  · rw [cache]
    exact LruSegmentCache.ledger_new maxBytes
  · intro segmentId bytes hot
    exact (stands segmentId bytes).mpr (.inl hot)
  · intro segmentId bytes cold
    exact (stands segmentId bytes).mpr (.inr (.inr cold))
  · intro segmentId bytes found
    rcases (stands segmentId bytes).mp found with hot | ⟨_, found, _⟩ | cold
    · exact .inl hot
    · rw [cache] at found
      cases found
    · exact .inr cold
  · intro segmentId bytes found
    exact opened.opens segmentId bytes ((stands segmentId bytes).mp found)
  · intro segmentId cached found
    rw [cache] at found
    cases found

/-- Bytes that are in some tier are what the id yields from then on, and no
operation panics. -/
theorem stays_retrievable {start middle final : TieredStore}
    {earlier later : List TierOp} {segmentId : UInt32} {bytes : Bytes}
    (opened : start.Opened) (first : Runs CoveredStep start earlier middle)
    (kept : middle.Kept segmentId bytes)
    (second : Runs CoveredStep middle later final) :
    (∃ segment after, Segment.ofFile bytes = .ok segment ∧
      segment.mmap = bytes ∧
      final.getSegment segmentId = some (.ok segment, after)) ∧
    ∀ op, final.PutOnce op → final.Covered op →
      ∃ after, final.perform op = some after := by
  obtain ⟨contents, begins⟩ := opened.keeps
  obtain ⟨between, reached, _⟩ := keeps_run begins first
  obtain ⟨ends, still, grown⟩ := keeps_run reached second
  constructor
  · have stands := grown segmentId bytes (reached.kept kept)
    obtain ⟨answer, after, gets, _, yields⟩ := still.getSegment segmentId
    obtain ⟨segment, opens, same⟩ := yields bytes stands
    refine ⟨segment, after, opens, ?_, ?_⟩
    · rw [ofFile_mmap opens]
    · rw [gets, same]
  · intro op once covered
    obtain ⟨after, _, performs, _⟩ := still.perform once covered
    exact ⟨after, performs⟩

/-! ## A store with an object store and one without -/

/-- The file of a segment without documents. -/
def bare : Bytes :=
  (SegmentBuilder.new 1 .fp32 4 0).build fun _ => 0

theorem bare_opens : ∃ segment, Segment.ofFile bare = .ok segment := by
  have extended : Extends (.new 1 .fp32 4 0) (.new 1 .fp32 4 0) [] :=
    ⟨by simp, by simp [entries], by simp⟩
  obtain ⟨segment, opens, _⟩ := ofFile_build (fun _ => 0) extended
  exact ⟨segment, opens⟩

/-- A store over an empty directory and an empty object store. -/
def remote : TieredStore where
  files := ∅
  warmCache := .new 1000
  objectStore := some ∅
  segmentPrefix := text "segments"
  stats := {}

theorem remote_empty (segmentId : UInt32) (bytes : Bytes) :
    ¬ remote.Kept segmentId bytes := by
  rintro (hot | ⟨cached, found, _⟩ | cold)
  · cases hot
  · cases found
  · cases cold

/-- A segment that was uploaded is retrieved after it was pinned and unpinned
again. -/
theorem retains_uploaded :
    ∃ segment after, Segment.ofFile bare = .ok segment ∧
      (((remote.upload 1 bare).2.pin 1).2.unpin 1).getSegment 1 =
        some (.ok segment, after) := by
  have opened : remote.Opened :=
    { cache := ⟨1000, rfl⟩
      opens := fun segmentId bytes kept =>
        absurd kept (remote_empty segmentId bytes)
      agree := fun segmentId first _ kept =>
        absurd kept (remote_empty segmentId first) }
  have uploads : CoveredStep remote (.upload 1 bare)
      (remote.upload 1 bare).2 := by
    refine ⟨⟨?_, rfl⟩, bare_opens⟩
    intro bytes kept
    exact absurd kept (remote_empty 1 bytes)
  have cold : (remote.upload 1 bare).2.Cold 1 bare := by
    simp [Cold, upload, remote, fetch, coldKey]
  have pins : CoveredStep (remote.upload 1 bare).2 (.pin 1)
      ((remote.upload 1 bare).2.pin 1).2 := ⟨⟨trivial, rfl⟩, trivial⟩
  have pinned : ((remote.upload 1 bare).2.pin 1).2.Cold 1 bare := by
    rw [Cold] at cold ⊢
    simp only [pin]
    split
    · exact cold
    · rw [cold]
      exact cold
  have unpins : CoveredStep ((remote.upload 1 bare).2.pin 1).2 (.unpin 1)
      (((remote.upload 1 bare).2.pin 1).2.unpin 1) :=
    ⟨⟨trivial, rfl⟩, fun _ _ => ⟨bare, pinned⟩⟩
  obtain ⟨⟨segment, after, opens, _, gets⟩, _⟩ :=
    stays_retrievable opened (.next uploads (.done _)) (.inr (.inr cold))
      (.next pins (.next unpins (.done _)))
  exact ⟨segment, after, opens, gets⟩

/-- A store over a directory with one segment and no object store. -/
def localOnly : TieredStore where
  files := (∅ : HashMap Bytes Bytes).insert (hotPath 1) bare
  warmCache := .new 1000
  objectStore := none
  segmentPrefix := text "segments"
  stats := {}

theorem localOnly_opened : localOnly.Opened := by
  have only : ∀ segmentId bytes, localOnly.Kept segmentId bytes →
      bytes = bare := by
    rintro segmentId bytes (hot | ⟨cached, found, _⟩ | cold)
    · by_cases same : hotPath segmentId = hotPath 1
      · rw [Hot, localOnly, same, Finmap.lookup_insert] at hot
        cases hot
        rfl
      · rw [Hot, localOnly, Finmap.lookup_insert_of_ne _ same] at hot
        cases hot
    · cases found
    · cases cold
  refine ⟨⟨1000, rfl⟩, ?_, ?_⟩
  · intro segmentId bytes kept
    rw [only segmentId bytes kept]
    exact bare_opens
  · intro segmentId first second left right
    rw [only segmentId first left, only segmentId second right]

/-- Without an object store a segment is lost when it is unpinned. -/
theorem unpin_not_retained :
    ¬ ∀ (start middle final : TieredStore) (earlier later : List TierOp)
        (segmentId : UInt32) (bytes : Bytes), start.Opened →
      Runs Step start earlier middle → middle.Kept segmentId bytes →
      Runs Step middle later final →
      ∃ segment after, segment.mmap = bytes ∧
        final.getSegment segmentId = some (.ok segment, after) := by
  intro retained
  obtain ⟨segment, after, _, gets⟩ :=
    retained localOnly localOnly (localOnly.unpin 1) [] [.unpin 1] 1 bare
      localOnly_opened (.done _) (.inl (Finmap.lookup_insert _))
      (.next ⟨trivial, rfl⟩ (.done _))
  have gone : (localOnly.unpin 1).files.lookup (hotPath 1) = none :=
    Finmap.lookup_erase _ _
  have cacheMiss : (localOnly.unpin 1).warmCache.get 1 = none := rfl
  rw [getSegment, gone] at gets
  simp only [cacheMiss] at gets
  cases gets

end RedVector.Rvf2.TieredStore
