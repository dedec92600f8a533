import RedVector.Effect.Runs
import RedVector.VectorSearch.Storage

/-!
# Interleaved calls of the vector store

Each access to the cache and each transaction is one step.  A call that has
begun waits for its next step while the others take theirs.
-/

namespace RedVector.VectorSearch

open Effect

section

variable [VectorPlatform]

/-- The methods of the store. -/
inductive Call where
  | store (vectors : List (DocId × Vector32))
  | get (docId : DocId)
  | clear

/-- What a call does next, or how it ended. -/
inductive Phase where
  /-- The cache has the vectors, the table does not yet. -/
  | committing (vectors : List (DocId × Vector32))
  /-- The cache does not have the vector. -/
  | reading (docId : DocId)
  /-- The table had the vector, the cache does not yet. -/
  | filling (docId : DocId) (vector : Vector32)
  | stored (vectors : List (DocId × Vector32)) (failed : Bool)
  | got (docId : DocId) (answer : Except Unit (Option Vector32))
  | cleared

namespace Phase

def finished : Phase → Bool
  | .committing _ => false
  | .reading _ => false
  | .filling _ _ => false
  | .stored _ _ => true
  | .got _ _ => true
  | .cleared => true

/-- The call will commit a vector of this number. -/
def Commits (docId : DocId) : Phase → Prop
  | .committing vectors => docId ∈ vectors.map Prod.fst
  | _ => False

/-- The call will cache a vector of this number that it has read. -/
def Fills (docId : DocId) : Phase → Prop
  | .filling other _ => docId = other
  | _ => False

end Phase

inductive Event where
  | start (call : Call)
  /-- The next step of a call, whose transaction fails or not. -/
  | advance (call : Nat) (fails : Bool)

structure System where
  storage : RedbVectorStorage
  calls : List Phase
  /-- What was committed, the last at the end. -/
  commits : List (DocId × Vector32)

namespace System

/-- A store that was opened on tables without vectors. -/
def opened (cacheSize : Nat) (positive : 0 < cacheSize) : System :=
  { storage := .openWithCacheSize .empty cacheSize positive
    calls := []
    commits := [] }

/-- The first access to the cache. -/
def start (system : System) : Call → System
  | .store vectors =>
      if vectors.isEmpty then
        { system with calls := system.calls ++ [.stored vectors false] }
      else
        { system with
          storage := system.storage.cacheVectors vectors
          calls := system.calls ++ [.committing vectors] }
  | .get docId =>
      match system.storage.cache.get docId with
      | (some vector, cache) =>
          { system with
            storage := { system.storage with cache := cache }
            calls := system.calls ++ [.got docId (.ok (some vector))] }
      | (none, _) =>
          { system with calls := system.calls ++ [.reading docId] }
  | .clear =>
      { system with
        storage := system.storage.clearCache
        calls := system.calls ++ [.cleared] }

/-- The next step of a call. -/
def advance (system : System) (call : Nat) (fails : Bool) : Option System :=
  match system.calls[call]? with
  | some (.committing vectors) =>
      if fails then
        some { system with
          calls := system.calls.set call (.stored vectors true) }
      else
        some { storage := system.storage.commitVectors vectors
               calls := system.calls.set call (.stored vectors false)
               commits := system.commits ++ vectors }
  | some (.reading docId) =>
      if fails then
        some { system with
          calls := system.calls.set call (.got docId (.error ())) }
      else
        match system.storage.db.vectors.lookup docId with
        | none =>
            some { system with
              calls := system.calls.set call (.got docId (.ok none)) }
        | some vector =>
            some { system with
              calls := system.calls.set call (.filling docId vector) }
  | some (.filling docId vector) =>
      some { system with
        storage := system.storage.cacheVectors [(docId, vector)]
        calls := system.calls.set call (.got docId (.ok (some vector))) }
  | _ => none

def step (system : System) : Event → Option System
  | .start call => some (system.start call)
  | .advance call fails => system.advance call fails

/-- The vector of the last committed store. -/
def lastCommitted (system : System) (docId : DocId) : Option Vector32 :=
  (insertAll ∅ system.commits).lookup docId

/-- A call alone answers what was committed last. -/
def Answers (system : System) (docId : DocId) : Prop :=
  (system.storage.getVector none docId).1 =
    .ok (system.lastCommitted docId)

/-- A store begins while no other call is about to write one of its numbers,
and a vector is read while no store is about to commit it.  A store fails only
when the cache has none of its numbers any more, and no call has answered its
vectors. -/
def Apart (system : System) : Event → Prop
  | .start (.store vectors) => ∀ docId ∈ vectors.map Prod.fst,
      ∀ phase ∈ system.calls, ¬phase.Commits docId ∧ ¬phase.Fills docId
  | .start _ => True
  | .advance call fails =>
      match system.calls[call]? with
      | some (.committing vectors) => fails = true →
          (∀ docId ∈ vectors.map Prod.fst,
            system.storage.cache.peek docId = none) ∧
          ∀ entry ∈ vectors,
            .got entry.1 (.ok (some entry.2)) ∈ system.calls →
            entry ∈ system.commits
      | some (.reading docId) => fails = false →
          ∀ phase ∈ system.calls, ¬phase.Commits docId
      | _ => True

/-- One step of some call. -/
def Steps (allowed : System → Event → Prop) (before : System) (event : Event)
    (after : System) : Prop :=
  allowed before event ∧ before.step event = some after

/-! ## What the cache holds -/

/-- The cache holds what is stored, or what will be. -/
structure Coherent (system : System) : Prop where
  /-- One call at most will commit a vector of a number. -/
  alone : ∀ (i j : Nat) first second docId,
    system.calls[i]? = some first → system.calls[j]? = some second →
    first.Commits docId → second.Commits docId → i = j
  apart : ∀ first ∈ system.calls, ∀ second ∈ system.calls, ∀ docId,
    first.Commits docId → ¬second.Fills docId
  ahead : ∀ vectors, .committing vectors ∈ system.calls →
    ∀ docId ∈ vectors.map Prod.fst, ∀ vector,
    system.storage.cache.peek docId = some vector →
    (insertAll system.storage.db.vectors vectors).lookup docId = some vector
  settled : ∀ docId, (∀ phase ∈ system.calls, ¬phase.Commits docId) →
    ∀ vector, system.storage.cache.peek docId = some vector →
    system.storage.db.vectors.lookup docId = some vector
  read : ∀ docId vector, .filling docId vector ∈ system.calls →
    system.storage.db.vectors.lookup docId = some vector
  table : system.storage.db.vectors = insertAll ∅ system.commits
  succeeded : ∀ entry ∈ system.commits,
    ∃ vectors, .stored vectors false ∈ system.calls ∧ entry ∈ vectors
  answered : ∀ docId vector,
    .got docId (.ok (some vector)) ∈ system.calls →
    (docId, vector) ∈ system.commits ∨
      ∃ vectors, .committing vectors ∈ system.calls ∧
        (docId, vector) ∈ vectors

theorem coherent_opened (cacheSize : Nat) (positive : 0 < cacheSize) :
    (opened cacheSize positive).Coherent where
  alone := by simp [opened]
  apart := by simp [opened]
  ahead := by simp [opened]
  settled := by
    intro docId none vector cached
    cases cached
  read := by simp [opened]
  table := rfl
  succeeded := by simp [opened]
  answered := by simp [opened]

namespace Coherent

variable {system : System}

/-- What the cache or the table has of a number was committed, or a call will
commit it. -/
theorem cached_known (coherent : system.Coherent) {docId : DocId}
    {vector : Vector32}
    (cached : system.storage.cache.peek docId = some vector) :
    (docId, vector) ∈ system.commits ∨
      ∃ vectors, .committing vectors ∈ system.calls ∧
        (docId, vector) ∈ vectors := by
  have committed : system.storage.db.vectors.lookup docId = some vector →
      (docId, vector) ∈ system.commits := by
    intro stored
    rw [coherent.table] at stored
    rcases mem_of_lookup_insertAll stored with was | none
    · exact was
    · cases none
  by_cases settled : ∀ phase ∈ system.calls, ¬phase.Commits docId
  · exact .inl (committed (coherent.settled docId settled vector cached))
  · push Not at settled
    obtain ⟨phase, member, commits⟩ := settled
    cases phase with
    | committing vectors =>
        rcases mem_of_lookup_insertAll
          (coherent.ahead vectors member docId commits vector cached) with
          added | stored
        · exact .inr ⟨vectors, member, added⟩
        · exact .inl (committed stored)
    | reading => cases commits
    | filling => cases commits
    | stored => cases commits
    | got => cases commits
    | cleared => cases commits

/-- A new call that neither commits nor fills changes the cache at most in
that it has less. -/
theorem concat (coherent : system.Coherent) {phase : Phase}
    {storage : RedbVectorStorage}
    (quiet : ∀ docId, ¬phase.Commits docId ∧ ¬phase.Fills docId)
    (table : storage.db = system.storage.db)
    (less : ∀ docId vector, storage.cache.peek docId = some vector →
      system.storage.cache.peek docId = some vector)
    (known : ∀ docId vector, phase = .got docId (.ok (some vector)) →
      system.storage.cache.peek docId = some vector) :
    Coherent { system with
      storage := storage, calls := system.calls ++ [phase] } := by
  have earlier : ∀ (i : Nat) other docId,
      (system.calls ++ [phase])[i]? = some other → other.Commits docId →
      system.calls[i]? = some other := by
    intro i other docId found commits
    rw [List.getElem?_append] at found
    split at found
    · exact found
    · have same : other = phase := by
        have member := List.mem_of_getElem? found
        exact List.mem_singleton.mp member
      rw [same] at commits
      exact absurd commits (quiet docId).1
  have old : ∀ other ∈ system.calls ++ [phase], ∀ docId,
      other.Commits docId ∨ other.Fills docId → other ∈ system.calls := by
    intro other member docId holds
    rcases List.mem_append.mp member with old | new
    · exact old
    · rw [List.mem_singleton.mp new] at holds
      exact absurd holds (by simpa using quiet docId)
  have kept : ∀ other ∈ system.calls, other ∈ system.calls ++ [phase] :=
    fun other member => List.mem_append_left _ member
  have committing : ∀ vectors, .committing vectors ∈ system.calls ++ [phase] →
      ∀ docId ∈ vectors.map Prod.fst, .committing vectors ∈ system.calls :=
    fun vectors member docId commits =>
      old _ member docId (.inl commits)
  constructor
  · intro i j first second docId isFirst isSecond firstCommits secondCommits
    exact coherent.alone i j first second docId
      (earlier i first docId isFirst firstCommits)
      (earlier j second docId isSecond secondCommits) firstCommits
      secondCommits
  · intro first member second other docId commits fills
    exact coherent.apart first (old first member docId (.inl commits)) second
      (old second other docId (.inr fills)) docId commits fills
  · intro vectors member docId commits vector cached
    rw [table]
    exact coherent.ahead vectors (committing vectors member docId commits)
      docId commits vector (less docId vector cached)
  · intro docId settled vector cached
    rw [table]
    exact coherent.settled docId
      (fun other member => settled other (kept other member)) vector
      (less docId vector cached)
  · intro docId vector member
    rw [table]
    exact coherent.read docId vector (old _ member docId (.inr rfl))
  · rw [table]
    exact coherent.table
  · intro entry member
    obtain ⟨vectors, stored, within⟩ := coherent.succeeded entry member
    exact ⟨vectors, kept _ stored, within⟩
  · intro docId vector member
    have from' : (docId, vector) ∈ system.commits ∨
        ∃ vectors, .committing vectors ∈ system.calls ∧
          (docId, vector) ∈ vectors := by
      rcases List.mem_append.mp member with old | new
      · exact coherent.answered docId vector old
      · exact coherent.cached_known
          (known docId vector (List.mem_singleton.mp new).symm)
    rcases from' with committed | ⟨vectors, member, within⟩
    · exact .inl committed
    · exact .inr ⟨vectors, kept _ member, within⟩

/-- A new store puts its vectors into the cache. -/
theorem startStore (coherent : system.Coherent)
    {vectors : List (DocId × Vector32)}
    (apart : ∀ docId ∈ vectors.map Prod.fst,
      ∀ phase ∈ system.calls, ¬phase.Commits docId ∧ ¬phase.Fills docId) :
    Coherent { system with
      storage := system.storage.cacheVectors vectors
      calls := system.calls ++ [.committing vectors] } := by
  have last : ∀ (i : Nat) other,
      (system.calls ++ [.committing vectors])[i]? = some other →
      system.calls[i]? = some other ∨
        (i = system.calls.length ∧ other = .committing vectors) := by
    intro i other found
    rw [List.getElem?_append] at found
    split at found
    · exact .inl found
    · rw [List.getElem?_singleton] at found
      split at found
      · cases found
        exact .inr ⟨by omega, rfl⟩
      · cases found
  have kept : ∀ other ∈ system.calls,
      other ∈ system.calls ++ [.committing vectors] :=
    fun other member => List.mem_append_left _ member
  have isNew : Phase.committing vectors ∈
      system.calls ++ [.committing vectors] :=
    List.mem_append_right _ (List.mem_singleton_self _)
  constructor
  · intro i j first second docId isFirst isSecond firstCommits secondCommits
    rcases last i first isFirst with old | ⟨isLast, rfl⟩
    · rcases last j second isSecond with other | ⟨-, rfl⟩
      · exact coherent.alone i j first second docId old other firstCommits
          secondCommits
      · exact absurd firstCommits
          (apart docId secondCommits first (List.mem_of_getElem? old)).1
    · rcases last j second isSecond with other | ⟨isLast', rfl⟩
      · exact absurd secondCommits
          (apart docId firstCommits second (List.mem_of_getElem? other)).1
      · exact isLast.trans isLast'.symm
  · intro first member second other docId commits fills
    rcases List.mem_append.mp other with other | isNew
    · rcases List.mem_append.mp member with old | isNew
      · exact coherent.apart first old second other docId commits fills
      · cases List.mem_singleton.mp isNew
        exact (apart docId commits second other).2 fills
    · cases List.mem_singleton.mp isNew
      cases fills
  · intro others member docId commits vector cached
    rcases List.mem_append.mp member with old | isNew
    · have absent : docId ∉ vectors.map Prod.fst :=
        fun within => (apart docId within _ old).1 commits
      exact coherent.ahead others old docId commits vector
        (LruCache.peek_putAll_other absent cached)
    · cases List.mem_singleton.mp isNew
      exact LruCache.peek_putAll
        (coherent.settled docId fun phase member =>
          (apart docId commits phase member).1) cached
  · intro docId settled vector cached
    have absent : docId ∉ vectors.map Prod.fst := settled _ isNew
    exact coherent.settled docId
      (fun other member => settled other (kept other member)) vector
      (LruCache.peek_putAll_other absent cached)
  · intro docId vector member
    rcases List.mem_append.mp member with old | isNew
    · exact coherent.read docId vector old
    · cases List.mem_singleton.mp isNew
  · exact coherent.table
  · intro entry member
    obtain ⟨others, stored, within⟩ := coherent.succeeded entry member
    exact ⟨others, kept _ stored, within⟩
  · intro docId vector member
    rcases List.mem_append.mp member with old | isNew
    · rcases coherent.answered docId vector old with
        committed | ⟨others, member, within⟩
      · exact .inl committed
      · exact .inr ⟨others, kept _ member, within⟩
    · cases List.mem_singleton.mp isNew

end Coherent

/-! ## A call moves on -/

section Replaced

variable {calls : List Phase} {call : Nat} {prior next : Phase}

theorem mem_replaced {other : Phase} (member : other ∈ calls.set call next) :
    other ∈ calls ∨ other = next :=
  List.mem_or_eq_of_mem_set member

theorem replaced_mem {other : Phase} (isPrior : calls[call]? = some prior)
    (different : other ≠ prior) (member : other ∈ calls) :
    other ∈ calls.set call next := by
  obtain ⟨i, found⟩ := List.mem_iff_getElem?.mp member
  have apart : call ≠ i := by
    intro same
    rw [same, found] at isPrior
    cases isPrior
    exact different rfl
  exact List.mem_of_getElem? ((List.getElem?_set_ne apart).trans found)

/-- A call that still commits is where it was. -/
theorem replaced_commits {i : Nat} {other : Phase} {docId : DocId}
    (quiet : ∀ docId, ¬next.Commits docId)
    (found : (calls.set call next)[i]? = some other)
    (commits : other.Commits docId) :
    i ≠ call ∧ calls[i]? = some other := by
  by_cases same : call = i
  · subst same
    rw [List.getElem?_set] at found
    split at found
    · split at found
      · cases found
        exact absurd commits (quiet docId)
      · cases found
    · rename_i different
      exact absurd rfl different
  · rw [List.getElem?_set_ne same] at found
    exact ⟨Ne.symm same, found⟩

theorem replaced_isNew (isPrior : calls[call]? = some prior) :
    next ∈ calls.set call next := by
  obtain ⟨within, -⟩ := List.getElem?_eq_some_iff.mp isPrior
  exact List.mem_set within next

end Replaced

namespace Coherent

variable {system : System}

/-- A call that reads moves on. -/
theorem moveOn (coherent : system.Coherent) {call : Nat}
    {prior next : Phase} {storage : RedbVectorStorage}
    (isPrior : system.calls[call]? = some prior)
    (reads : (∃ docId, prior = .reading docId) ∨
      ∃ docId vector, prior = .filling docId vector)
    (quiet : ∀ docId, ¬next.Commits docId)
    (table : storage.db = system.storage.db)
    (cached : ∀ docId vector, storage.cache.peek docId = some vector →
      system.storage.cache.peek docId = some vector ∨
        (system.storage.db.vectors.lookup docId = some vector ∧
          prior.Fills docId))
    (fills : ∀ docId, next.Fills docId →
      ∀ phase ∈ system.calls, ¬phase.Commits docId)
    (known : ∀ docId vector, next = .filling docId vector ∨
      next = .got docId (.ok (some vector)) →
      system.storage.db.vectors.lookup docId = some vector) :
    Coherent { system with
      storage := storage, calls := system.calls.set call next } := by
  have isCall : prior ∈ system.calls := List.mem_of_getElem? isPrior
  have kept : ∀ other ∈ system.calls,
      (∃ docId, other.Commits docId) ∨ other.finished = true →
      other ∈ system.calls.set call next := by
    intro other member holds
    refine replaced_mem isPrior ?_ member
    intro same
    rw [same] at holds
    rcases reads with ⟨docId, rfl⟩ | ⟨docId, vector, rfl⟩
    · rcases holds with ⟨_, none⟩ | none
      · cases none
      · cases none
    · rcases holds with ⟨_, none⟩ | none
      · cases none
      · cases none
  have old : ∀ other ∈ system.calls.set call next, ∀ docId,
      other.Commits docId → other ∈ system.calls := by
    intro other member docId commits
    rcases mem_replaced member with old | isNext
    · exact old
    · rw [isNext] at commits
      exact absurd commits (quiet docId)
  constructor
  · intro i j first second docId isFirst isSecond firstCommits secondCommits
    exact coherent.alone i j first second docId
      (replaced_commits quiet isFirst firstCommits).2
      (replaced_commits quiet isSecond secondCommits).2 firstCommits
      secondCommits
  · intro first member second other docId commits filling
    have member := old first member docId commits
    rcases mem_replaced other with other | isNext
    · exact coherent.apart first member second other docId commits filling
    · rw [isNext] at filling
      exact fills docId filling first member commits
  · intro vectors member docId commits vector has
    have member := old _ member docId commits
    rw [table]
    rcases cached docId vector has with was | ⟨-, filled⟩
    · exact coherent.ahead vectors member docId commits vector was
    · exact absurd filled (coherent.apart _ member prior isCall docId commits)
  · intro docId settled vector has
    rw [table]
    rcases cached docId vector has with was | ⟨stored, -⟩
    · refine coherent.settled docId ?_ vector was
      intro other member commits
      exact settled other (kept other member (.inl ⟨docId, commits⟩)) commits
    · exact stored
  · intro docId vector member
    rw [table]
    rcases mem_replaced member with old | isNext
    · exact coherent.read docId vector old
    · exact known docId vector (.inl isNext.symm)
  · rw [table]
    exact coherent.table
  · intro entry member
    obtain ⟨vectors, stored, within⟩ := coherent.succeeded entry member
    exact ⟨vectors, kept _ stored (.inr rfl), within⟩
  · intro docId vector member
    rcases mem_replaced member with old | isNext
    · rcases coherent.answered docId vector old with
        committed | ⟨vectors, member, within⟩
      · exact .inl committed
      · exact .inr ⟨vectors, kept _ member
          (.inl ⟨docId, List.mem_map.mpr ⟨_, within, rfl⟩⟩), within⟩
    · have stored := known docId vector (.inr isNext.symm)
      rw [coherent.table] at stored
      rcases mem_of_lookup_insertAll stored with was | none
      · exact .inl was
      · cases none

section Stores

variable {call : Nat} {vectors : List (DocId × Vector32)} {failed : Bool}

theorem stored_quiet (vectors : List (DocId × Vector32)) (failed : Bool)
    (docId : DocId) : ¬(Phase.stored vectors failed).Commits docId :=
  not_false

/-- Once a store has ended, the other stores have other numbers. -/
theorem others_apart (coherent : system.Coherent)
    (isPrior : system.calls[call]? = some (.committing vectors))
    {other : Phase} {docId : DocId}
    (member : other ∈ system.calls.set call (.stored vectors failed))
    (commits : other.Commits docId) :
    other ∈ system.calls ∧ docId ∉ vectors.map Prod.fst := by
  obtain ⟨i, found⟩ := List.mem_iff_getElem?.mp member
  obtain ⟨different, found⟩ :=
    replaced_commits (stored_quiet vectors failed) found commits
  refine ⟨List.mem_of_getElem? found, ?_⟩
  intro within
  exact different (coherent.alone i call other (.committing vectors) docId found
    isPrior commits within)

/-- A number that is not of the store is settled as it was. -/
theorem settled_before
    (isPrior : system.calls[call]? = some (.committing vectors))
    {docId : DocId} (absent : docId ∉ vectors.map Prod.fst)
    (settled : ∀ phase ∈ system.calls.set call (.stored vectors failed),
      ¬phase.Commits docId) :
    ∀ phase ∈ system.calls, ¬phase.Commits docId := by
  intro phase member commits
  by_cases same : phase = .committing vectors
  · rw [same] at commits
    exact absent commits
  · exact settled phase (replaced_mem isPrior same member) commits

/-- What stays true of the calls when a store ends. -/
theorem calls_ended (coherent : system.Coherent) (failed : Bool)
    (isPrior : system.calls[call]? = some (.committing vectors)) :
    (∀ (i j : Nat) first second docId,
      (system.calls.set call (.stored vectors failed))[i]? = some first →
      (system.calls.set call (.stored vectors failed))[j]? = some second →
      first.Commits docId → second.Commits docId → i = j) ∧
    ∀ first ∈ system.calls.set call (.stored vectors failed),
      ∀ second ∈ system.calls.set call (.stored vectors failed), ∀ docId,
      first.Commits docId → ¬second.Fills docId := by
  constructor
  · intro i j first second docId isFirst isSecond firstCommits secondCommits
    exact coherent.alone i j first second docId
      (replaced_commits (stored_quiet vectors failed) isFirst
        firstCommits).2
      (replaced_commits (stored_quiet vectors failed) isSecond
        secondCommits).2
      firstCommits secondCommits
  · intro first member second other docId commits fills
    have member := (coherent.others_apart isPrior member commits).1
    rcases mem_replaced other with other | isNew
    · exact coherent.apart first member second other docId commits fills
    · rw [isNew] at fills
      cases fills

/-- A store commits. -/
theorem commit (coherent : system.Coherent)
    (isPrior : system.calls[call]? = some (.committing vectors)) :
    Coherent { storage := system.storage.commitVectors vectors
               calls := system.calls.set call (.stored vectors false)
               commits := system.commits ++ vectors } := by
  obtain ⟨alone, apart⟩ := coherent.calls_ended false isPrior
  have isCall := List.mem_of_getElem? isPrior
  refine ⟨alone, apart, ?_, ?_, ?_, ?_, ?_, ?_⟩
  · intro others member docId commits vector cached
    obtain ⟨member, absent⟩ := coherent.others_apart isPrior member commits
    have ahead := coherent.ahead others member docId commits vector cached
    have same : (insertAll system.storage.db.vectors vectors).lookup docId =
        system.storage.db.vectors.lookup docId :=
      lookup_insertAll_other absent
    exact (lookup_insertAll_congr same).trans ahead
  · intro docId settled vector cached
    by_cases within : docId ∈ vectors.map Prod.fst
    · exact coherent.ahead vectors isCall docId within vector cached
    · have stored := coherent.settled docId
        (settled_before isPrior within settled) vector cached
      exact (lookup_insertAll_other within).trans stored
  · intro docId vector member
    rcases mem_replaced member with old | isNew
    · have absent : docId ∉ vectors.map Prod.fst :=
        fun within => coherent.apart _ isCall _ old docId within rfl
      exact (lookup_insertAll_other absent).trans
        (coherent.read docId vector old)
    · cases isNew
  · change insertAll system.storage.db.vectors vectors = _
    rw [coherent.table]
    exact (List.foldl_append ..).symm
  · intro entry member
    rcases List.mem_append.mp member with old | isNew
    · obtain ⟨others, stored, within⟩ := coherent.succeeded entry old
      exact ⟨others, replaced_mem isPrior nofun stored, within⟩
    · exact ⟨vectors, replaced_isNew isPrior, isNew⟩
  · intro docId vector member
    rcases mem_replaced member with old | isNew
    · rcases coherent.answered docId vector old with
        committed | ⟨others, member, within⟩
      · exact .inl (List.mem_append_left _ committed)
      · by_cases same : others = vectors
        · rw [same] at within
          exact .inl (List.mem_append_right _ within)
        · refine .inr ⟨others, replaced_mem isPrior ?_ member, within⟩
          intro isSame
          cases isSame
          exact same rfl
    · cases isNew

/-- A store fails. -/
theorem fail (coherent : system.Coherent)
    (isPrior : system.calls[call]? = some (.committing vectors))
    (dropped : ∀ docId ∈ vectors.map Prod.fst,
      system.storage.cache.peek docId = none)
    (unseen : ∀ entry ∈ vectors,
      .got entry.1 (.ok (some entry.2)) ∈ system.calls →
      entry ∈ system.commits) :
    Coherent { system with
      calls := system.calls.set call (.stored vectors true) } := by
  obtain ⟨alone, apart⟩ := coherent.calls_ended true isPrior
  refine ⟨alone, apart, ?_, ?_, ?_, coherent.table, ?_, ?_⟩
  · intro others member docId commits vector cached
    obtain ⟨member, absent⟩ := coherent.others_apart isPrior member commits
    exact coherent.ahead others member docId commits vector cached
  · intro docId settled vector cached
    by_cases within : docId ∈ vectors.map Prod.fst
    · cases (dropped docId within).symm.trans cached
    · exact coherent.settled docId
        (settled_before isPrior within settled) vector cached
  · intro docId vector member
    rcases mem_replaced member with old | isNew
    · exact coherent.read docId vector old
    · cases isNew
  · intro entry member
    obtain ⟨others, stored, within⟩ := coherent.succeeded entry member
    exact ⟨others, replaced_mem isPrior nofun stored, within⟩
  · intro docId vector member
    rcases mem_replaced member with old | isNew
    · rcases coherent.answered docId vector old with
        committed | ⟨others, member, within⟩
      · exact .inl committed
      · by_cases same : others = vectors
        · rw [same] at within
          exact .inl (unseen _ within old)
        · refine .inr ⟨others, replaced_mem isPrior ?_ member, within⟩
          intro isSame
          cases isSame
          exact same rfl
    · cases isNew

end Stores

end Coherent

/-- A step that is apart from the others keeps the cache coherent. -/
theorem step_coherent {system after : System} {event : Event}
    (coherent : system.Coherent) (apart : system.Apart event)
    (stepped : system.step event = some after) : after.Coherent := by
  cases event with
  | start call =>
      cases stepped
      cases call with
      | store vectors =>
          simp only [start]
          split
          · exact coherent.concat (fun _ => ⟨not_false, not_false⟩) rfl
              (fun _ _ cached => cached) nofun
          · exact coherent.startStore apart
      | get docId =>
          have isHit := system.storage.cache.get_fst docId
          have same := system.storage.cache.peek_get docId
          simp only [start]
          split
          · rename_i vector cache got
            rw [got] at isHit same
            refine coherent.concat (fun _ => ⟨not_false, not_false⟩) rfl ?_ ?_
            · intro other found cached
              exact (same other).symm.trans cached
            · intro other found isGot
              cases isGot
              exact isHit.symm
          · exact coherent.concat (fun _ => ⟨not_false, not_false⟩) rfl
              (fun _ _ cached => cached) nofun
      | clear =>
          refine coherent.concat (fun _ => ⟨not_false, not_false⟩) rfl ?_ nofun
          intro docId vector cached
          cases cached
  | advance call fails =>
      simp only [step, advance] at stepped
      simp only [Apart] at apart
      cases isPrior : system.calls[call]? with
      | none =>
          rw [isPrior] at stepped
          cases stepped
      | some phase =>
          rw [isPrior] at stepped apart
          cases phase with
          | committing vectors =>
              dsimp only at stepped apart
              split at stepped
              · rename_i failed
                cases stepped
                obtain ⟨dropped, unseen⟩ := apart failed
                exact coherent.fail isPrior dropped unseen
              · cases stepped
                exact coherent.commit isPrior
          | reading docId =>
              dsimp only at stepped apart
              split at stepped
              · cases stepped
                refine coherent.moveOn isPrior (.inl ⟨docId, rfl⟩)
                  (fun _ => not_false) rfl (fun _ _ cached => .inl cached)
                  (fun _ none => none.elim) ?_
                rintro _ _ (none | none)
                · cases none
                · cases none
              · rename_i succeeds
                cases found : system.storage.db.vectors.lookup docId with
                | none =>
                    rw [found] at stepped
                    cases stepped
                    refine coherent.moveOn isPrior (.inl ⟨docId, rfl⟩)
                      (fun _ => not_false) rfl
                      (fun _ _ cached => .inl cached)
                      (fun _ none => none.elim) ?_
                    rintro _ _ (none | none)
                    · cases none
                    · cases none
                | some vector =>
                    rw [found] at stepped
                    cases stepped
                    refine coherent.moveOn isPrior (.inl ⟨docId, rfl⟩)
                      (fun _ => not_false) rfl
                      (fun _ _ cached => .inl cached) ?_ ?_
                    · rintro _ rfl
                      exact apart (by simpa using succeeds)
                    · rintro _ _ (same | none)
                      · cases same
                        exact found
                      · cases none
          | filling docId vector =>
              cases stepped
              have stored := coherent.read docId vector
                (List.mem_of_getElem? isPrior)
              refine coherent.moveOn isPrior (.inr ⟨docId, vector, rfl⟩)
                (fun _ => not_false) rfl ?_ (fun _ none => none.elim) ?_
              · intro other found cached
                by_cases same : other = docId
                · rw [same] at cached ⊢
                  have isPut := system.storage.cache.peek_put_same docId vector
                  cases isPut.symm.trans cached
                  exact .inr ⟨stored, rfl⟩
                · exact .inl (LruCache.peek_put_other same cached)
              · rintro _ _ (none | same)
                · cases none
                · cases same
                  exact stored
          | stored => cases stepped
          | got => cases stepped
          | cleared => cases stepped

/-- The methods of the store are the steps of a call alone. -/
theorem storeVectorsBatch_steps (system : System) (failure : Option Bytes)
    {vectors : List (DocId × Vector32)} (some : vectors ≠ []) :
    ((system.start (.store vectors)).advance system.calls.length
        failure.isSome).map (fun after => after.storage) =
      Option.some (system.storage.storeVectorsBatch failure vectors).2 := by
  have begun : vectors.isEmpty = false := by simpa using some
  simp only [start, begun, RedbVectorStorage.storeVectorsBatch, advance]
  cases failure with
  | none => simp
  | some error => simp

end System

end

/-! ## A store that fails and a reader that is late -/

section

attribute [local instance] VectorPlatform.integral

namespace System

/-- A store of one vector that fails. -/
def failedStore : List Event :=
  [.start (.store [(1, integers [1])]), .advance 0 true]

/-- A reader caches what it has read before a store of the same number. -/
def lateReader : List Event :=
  [.start (.store [(1, integers [1])]), .advance 0 false, .start .clear,
    .start (.get 1), .advance 2 false, .start (.store [(1, integers [2])]),
    .advance 3 false, .advance 2 false]

end System

end

end RedVector.VectorSearch
