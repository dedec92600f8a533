import RedVector.Database.Creation
import RedVector.Database.Stamps
import RedVector.Database.Writes
import RedVector.Effect.Runs

/-!
# Eviction

Each round of the loop evicts one key that the policy admits, so there are no
more rounds than keys.  What a whole eviction does is said about the list of
the keys that its rounds evict.
-/

namespace RedVector.Database

open Util Effect

variable [Platform]

/-! ## Candidates -/

def volatilePolicies : List Bytes :=
  [text "volatile-lru", text "volatile-random", text "volatile-ttl"]

def allkeysPolicies : List Bytes :=
  [text "allkeys-lru", text "allkeys-random"]

/-- Whether the policy admits the eviction of a slot. -/
def Evictable (db : Database) (policy : Bytes) (slot : Slot) : Prop :=
  db.value slot ≠ none ∧
    (policy ∈ volatilePolicies ∧ db.expiration slot ≠ none ∨
      policy ∈ allkeysPolicies)

/-- What the policy orders slots by. -/
def evictionScore (db : Database) (policy : Bytes) (slot : Slot) : Int :=
  if policy = text "volatile-lru" ∨ policy = text "allkeys-lru" then
    (db.stamp slot).getD 0
  else if policy = text "volatile-ttl" then (db.expiration slot).getD i64Max
  else 0

section

variable {env : Env} {db after : Database} {policy : Bytes} {index : Nat}

theorem evictionScore_lru {slot : Slot}
    (lru : policy = text "volatile-lru" ∨ policy = text "allkeys-lru") :
    db.evictionScore policy slot = (db.stamp slot).getD 0 :=
  if_pos lru

theorem evictionScore_ttl (slot : Slot) :
    db.evictionScore (text "volatile-ttl") slot =
      (db.expiration slot).getD i64Max := by
  have notLru : ¬(text "volatile-ttl" = text "volatile-lru" ∨
      text "volatile-ttl" = text "allkeys-lru") := by decide
  unfold evictionScore
  rw [if_neg notLru, if_pos rfl]

/-- The candidates are the slots that the policy admits. -/
theorem candidate_evictable {candidate : Candidate}
    (member : candidate ∈ db.candidates env policy index) :
    db.Evictable policy (index, candidate.key) ∧
      candidate.score = db.evictionScore policy (index, candidate.key) := by
  have stored := candidates_stored member
  obtain ⟨key, -, made⟩ := List.mem_filterMap.mp member
  dsimp only at made
  rw [Option.ite_none_right_eq_some] at made
  obtain ⟨included, made⟩ := made
  obtain ⟨value, -, made⟩ := Option.bind_eq_some_iff.mp made
  cases made
  refine ⟨⟨stored, ?_⟩, rfl⟩
  split at included
  · rename_i isVolatile
    left
    constructor
    · simpa [volatilePolicies] using isVolatile
    · intro absent
      have absent : (db.dataExpirationMs index).lookup key = none := absent
      rw [absent] at included
      cases included
  · right
    simpa [allkeysPolicies] using included

theorem evictable_candidate {key : Bytes}
    (evictable : db.Evictable policy (index, key)) :
    ∃ candidate ∈ db.candidates env policy index, candidate.key = key := by
  obtain ⟨stored, admitted⟩ := evictable
  obtain ⟨value, isValue⟩ := Option.ne_none_iff_exists'.mp stored
  have isValue : (db.data index).lookup key = some value := isValue
  have listed : key ∈ env.order (db.data index).keys := by
    rw [env.mem_order, Finmap.mem_keys, ← Finmap.lookup_isSome, isValue]
    rfl
  refine ⟨⟨key, db.evictionScore policy (index, key),
    estimateValueSize value key.length⟩, ?_, rfl⟩
  refine List.mem_filterMap.mpr ⟨key, listed, ?_⟩
  dsimp only
  rw [isValue, if_pos]
  · rfl
  · rcases admitted with ⟨isVolatile, expires⟩ | isAll
    · rw [if_pos (by simpa [volatilePolicies] using isVolatile)]
      exact Option.isSome_iff_ne_none.mpr expires
    · split
      · rename_i isVolatile
        simp only [allkeysPolicies, List.mem_cons, List.not_mem_nil,
          or_false] at isAll
        rcases isAll with rfl | rfl
        · exact absurd isVolatile (by decide)
        · exact absurd isVolatile (by decide)
      · simpa [allkeysPolicies] using isAll

omit [Platform] in
theorem firstMin_le
    {α β : Type} [LinearOrder β] {measure : α → β} {elements : List α}
    {least : α} (found : firstMin measure elements = some least) :
    ∀ element ∈ elements, measure least ≤ measure element := by
  induction elements generalizing least with
  | nil => cases found
  | cons head tail ih =>
      intro element member
      rw [firstMin] at found
      cases known : firstMin measure tail with
      | none =>
          rw [known] at found
          cases found
          cases tail with
          | nil =>
              cases List.mem_singleton.mp member
              exact le_refl _
          | cons next rest =>
              rw [firstMin] at known
              split at known
              · cases known
              · split at known
                · cases known
                · cases known
      | some best =>
          have least := ih known
          rw [known] at found
          dsimp only at found
          split at found
          · rename_i less
            cases found
            rcases List.mem_cons.mp member with rfl | member
            · exact less.le
            · exact least element member
          · rename_i notLess
            cases found
            rcases List.mem_cons.mp member with rfl | member
            · exact le_refl _
            · exact (not_lt.mp notLess).trans (least element member)

/-- The key that a policy with an order evicts is least among the slots that
it admits. -/
theorem keyToEvict_least {random : Nat} {key other : Bytes}
    (ordered : policy = text "volatile-lru" ∨ policy = text "allkeys-lru" ∨
      policy = text "volatile-ttl")
    (chosen : db.keyToEvict policy random (db.candidates env policy index) =
      some key)
    (evictable : db.Evictable policy (index, other)) :
    db.evictionScore policy (index, key) ≤
      db.evictionScore policy (index, other) := by
  unfold keyToEvict at chosen
  dsimp only at chosen
  rw [if_pos ordered] at chosen
  obtain ⟨candidate, found, rfl⟩ := Option.map_eq_some_iff.mp chosen
  have considered : ∃ rival ∈ db.candidates env policy index,
      rival.key = other := evictable_candidate evictable
  obtain ⟨rival, member, rfl⟩ := considered
  rw [← (candidate_evictable (mem_of_firstMin found)).2,
    ← (candidate_evictable member).2]
  exact firstMin_le found rival member

theorem keyToEvict_evictable {random : Nat} {key : Bytes}
    (chosen : db.keyToEvict policy random (db.candidates env policy index) =
      some key) : db.Evictable policy (index, key) := by
  obtain ⟨candidate, member, rfl⟩ := keyToEvict_mem chosen
  exact (candidate_evictable member).1

end

/-! ## Rounds -/

/-- Evicts one key. -/
def evictKey (env : Env) (db : Database) (index : Nat) (key : Bytes) :
    Option Database := do
  let (removed, db) ← db.remove env index key
  let counted := { db with evictedKeys := db.evictedKeys + 1 }
  if removed.isSome then
    counted.notifyKeyspaceEvent env index (text "evicted") key 101
  else pure db

/-- What the loop evicts next, if anything. -/
def nextEvicted (env : Env) (policy : Bytes) (index round : Nat)
    (db : Database) : Option Bytes :=
  db.keyToEvict policy (env.random round) (db.candidates env policy index)

/-- The configuration and the patterns decide which notifications panic. -/
theorem sameSubscriptions : Writes fun before after : Database =>
    after.config = before.config ∧
      after.patternSubscribers = before.patternSubscribers where
  refl := fun _ => ⟨rfl, rfl⟩
  trans := fun first second =>
    ⟨second.1.trans first.1, second.2.trans first.2⟩
  data := fun _ _ _ => ⟨rfl, rfl⟩
  expirations := fun _ _ _ => ⟨rfl, rfl⟩
  watched := fun _ _ _ => ⟨rfl, rfl⟩
  keySubscribers := fun _ _ _ => ⟨rfl, rfl⟩
  lru := fun _ _ _ => ⟨rfl, rfl⟩
  sent := fun _ _ => ⟨rfl, rfl⟩
  updates := fun _ _ => ⟨rfl, rfl⟩
  memory := fun _ _ _ => ⟨rfl, rfl⟩
  evicted := fun _ _ => ⟨rfl, rfl⟩
  subscriberId := fun _ => ⟨rfl, rfl⟩

theorem evictLoop_succ (env : Env) (policy : Bytes)
    (index needed maxmemory fuel round : Nat) (db : Database) :
    evictLoop env policy index needed maxmemory (fuel + 1) round db =
      if db.usedMemory + needed ≤ maxmemory then some (true, db)
      else
        match nextEvicted env policy index round db with
        | none => some (false, db)
        | some key =>
            (db.evictKey env index key).bind
              (evictLoop env policy index needed maxmemory fuel
                (round + 1)) := by
  rw [evictLoop]
  split
  · rfl
  · unfold nextEvicted
    cases found : db.candidates env policy index with
    | nil =>
        rw [keyToEvict_nil]
    | cons head tail =>
        dsimp only
        cases db.keyToEvict policy (env.random round) (head :: tail) with
        | none => rfl
        | some key =>
            unfold evictKey
            dsimp only
            cases db.remove env index key with
            | none => rfl
            | some removal =>
                simp only [Option.bind_eq_bind, Option.bind_some]
                cases removal.1.isSome with
                | true => rfl
                | false => rfl

/-- A full round of the loop, which evicts a key. -/
structure Round (env : Env) (policy : Bytes) (index needed maxmemory : Nat)
    (before : Nat × Database) (key : Bytes) (after : Nat × Database) :
    Prop where
  short : maxmemory < before.2.usedMemory + needed
  next : nextEvicted env policy index before.1 before.2 = some key
  evicted : before.2.evictKey env index key = some after.2
  counted : after.1 = before.1 + 1

section

variable {env : Env} {policy : Bytes} {index needed maxmemory : Nat}
  {db after : Database} {keys : List Bytes}

theorem evictKey_spec {key : Bytes}
    (evicted : db.evictKey env index key = some after) :
    Sets db after (index, key) none none ∧ ∀ slot,
      after.stamp slot =
        if slot = (index, key) then none else db.stamp slot := by
  obtain ⟨⟨removed, between⟩, removal, evicted⟩ :=
    Option.bind_eq_some_iff.mp evicted
  obtain ⟨-, sets, -⟩ := remove_spec removal
  have stamps := remove_stamp removal
  dsimp only at evicted
  split at evicted
  · have counted : Kept between
        { between with evictedKeys := between.evictedKeys + 1 } :=
      ⟨⟨rfl, rfl, rfl, rfl⟩, rfl, rfl, ⟨rfl, rfl⟩⟩
    refine ⟨sets.kept (counted.trans (notifyKeyspaceEvent_kept evicted)), ?_⟩
    intro slot
    rw [notifyKeyspaceEvent_stamp evicted]
    exact stamps slot
  · cases evicted
    exact ⟨sets, stamps⟩

theorem evictKey_card {key : Bytes} (stored : db.value (index, key) ≠ none)
    (evicted : db.evictKey env index key = some after) :
    (after.data index).keys.card < (db.data index).keys.card := by
  obtain ⟨sets, -⟩ := evictKey_spec evicted
  have held : ∀ {state : Database} {name : Bytes},
      name ∈ (state.data index).keys ↔ state.value (index, name) ≠ none := by
    intro state name
    rw [Finmap.mem_keys, ← Finmap.lookup_isSome]
    exact Option.isSome_iff_ne_none
  apply Finset.card_lt_card
  rw [Finset.ssubset_iff_of_subset]
  · refine ⟨key, held.mpr stored, ?_⟩
    intro member
    exact held.mp member sets.value_self
  · intro name member
    have present := held.mp member
    rw [sets.value] at present
    rw [held]
    split at present
    · exact absurd rfl present
    · exact present

/-- Evicting a key panics only where a notification does. -/
theorem evictKey_panics {key : Bytes}
    (panics : db.evictKey env index key = none) :
    ∃ (state : Database) (event : Bytes) (kind : UInt8),
      state.config = db.config ∧
      state.patternSubscribers = db.patternSubscribers ∧
      state.notifyKeyspaceEvent env index event key kind = none := by
  unfold evictKey at panics
  simp only [Option.bind_eq_bind] at panics
  cases removal : db.remove env index key with
  | none =>
      simp only [remove, Option.bind_eq_bind] at removal
      split at removal
      · refine ⟨db.setData index ((db.data index).erase key), text "expired",
          120, rfl, rfl, ?_⟩
        rcases Option.bind_eq_none_iff.mp removal with silent
        cases notified : (db.setData index ((db.data index).erase
            key)).notifyKeyspaceEvent env index (text "expired") key 120 with
        | none => rfl
        | some between => cases silent between notified
      · cases removal
  | some result =>
      obtain ⟨removed, between⟩ := result
      have same := sameSubscriptions.remove removal
      rw [removal, Option.bind_some] at panics
      dsimp only at panics
      split at panics
      · exact ⟨{ between with evictedKeys := between.evictedKeys + 1 },
          text "evicted", 101, same.1, same.2, panics⟩
      · cases panics

/-- What is left after keys of a database have been evicted. -/
structure Evicted (index : Nat) (keys : List Bytes) (before after : Database) :
    Prop where
  frame : Frame before after
  value : ∀ slot, after.value slot =
    if slot.1 = index ∧ slot.2 ∈ keys then none else before.value slot
  expiration : ∀ slot, after.expiration slot =
    if slot.1 = index ∧ slot.2 ∈ keys then none else before.expiration slot
  stamp : ∀ slot, after.stamp slot =
    if slot.1 = index ∧ slot.2 ∈ keys then none else before.stamp slot

theorem evicted_nil (index : Nat) (db : Database) : Evicted index [] db db :=
  ⟨.refl db, by simp, by simp, by simp⟩

omit [Platform] in
/-- A part of all slots is evicted after one of them. -/
private theorem evictedPart_cons {α : Type}
    {before between after : Slot → Option α} {key : Bytes}
    (first : ∀ slot, between slot =
      if slot = (index, key) then none else before slot)
    (others : ∀ slot, after slot =
      if slot.1 = index ∧ slot.2 ∈ keys then none else between slot)
    (slot : Slot) : after slot =
      if slot.1 = index ∧ slot.2 ∈ key :: keys then none
      else before slot := by
  obtain ⟨number, name⟩ := slot
  rw [others, first]
  simp only [Prod.mk.injEq, List.mem_cons]
  by_cases here : number = index
  · by_cases known : name ∈ keys
    · simp [here, known]
    · simp [here, known]
  · simp [here]

theorem Evicted.cons {between : Database} {key : Bytes}
    (first : db.evictKey env index key = some between)
    (others : Evicted index keys between after) :
    Evicted index (key :: keys) db after := by
  obtain ⟨sets, stamps⟩ := evictKey_spec first
  exact ⟨sets.frame.trans others.frame,
    evictedPart_cons sets.value others.value,
    evictedPart_cons sets.expiration others.expiration,
    evictedPart_cons stamps others.stamp⟩

/-- What was admitted before an eviction and is still stored was admitted
then. -/
theorem evictable_before {key : Bytes} {slot : Slot}
    (evicted : db.evictKey env index key = some after)
    (evictable : after.Evictable policy slot) : slot ≠ (index, key) ∧
      db.Evictable policy slot ∧
      after.evictionScore policy slot = db.evictionScore policy slot := by
  obtain ⟨sets, stamps⟩ := evictKey_spec evicted
  obtain ⟨stored, admitted⟩ := evictable
  have different : slot ≠ (index, key) := by
    rintro rfl
    exact stored sets.value_self
  rw [sets.value, if_neg different] at stored
  rw [sets.expiration, if_neg different] at admitted
  refine ⟨different, ⟨stored, admitted⟩, ?_⟩
  unfold evictionScore
  rw [sets.expiration, stamps, if_neg different, if_neg different]

/-- What an admitted slot other than the evicted one is afterwards. -/
theorem evictable_after {key : Bytes} {slot : Slot}
    (evicted : db.evictKey env index key = some after)
    (different : slot ≠ (index, key))
    (evictable : db.Evictable policy slot) : after.Evictable policy slot := by
  obtain ⟨sets, -⟩ := evictKey_spec evicted
  unfold Evictable
  rw [sets.value, sets.expiration, if_neg different, if_neg different]
  exact evictable

/-! ## Runs of the loop -/

variable {before reached : Nat × Database}

theorem rounds_evicted
    (rounds : Runs (Round env policy index needed maxmemory) before keys
      reached) : Evicted index keys before.2 reached.2 := by
  induction rounds with
  | done state => exact evicted_nil index state.2
  | next first others ih => exact .cons first.evicted ih

/-- Every evicted key was admitted at the start, and none is evicted twice. -/
theorem rounds_evictable
    (rounds : Runs (Round env policy index needed maxmemory) before keys
      reached) :
    keys.Nodup ∧ ∀ key ∈ keys, before.2.Evictable policy (index, key) := by
  induction rounds with
  | done state => exact ⟨List.nodup_nil, nofun⟩
  | @next before between reached key rest first others ih =>
      obtain ⟨apart, admitted⟩ := ih
      have earlier := fun other member =>
        evictable_before first.evicted (admitted other member)
      constructor
      · refine List.nodup_cons.mpr ⟨?_, apart⟩
        intro again
        exact (earlier key again).1 rfl
      · intro other member
        rcases List.mem_cons.mp member with rfl | member
        · exact keyToEvict_evictable first.next
        · exact (earlier other member).2.1

/-- The number of keys bounds the rounds. -/
theorem rounds_length
    (rounds : Runs (Round env policy index needed maxmemory) before keys
      reached) : keys.length ≤ (before.2.data index).keys.card := by
  obtain ⟨apart, admitted⟩ := rounds_evictable rounds
  rw [← List.toFinset_card_of_nodup apart]
  apply Finset.card_le_card
  intro key member
  have stored := (admitted key (List.mem_toFinset.mp member)).1
  rw [Finmap.mem_keys, ← Finmap.lookup_isSome]
  exact Option.isSome_iff_ne_none.mpr stored

/-- Under a policy with an order, what is evicted comes before what stays. -/
theorem rounds_ordered
    (ordered : policy = text "volatile-lru" ∨ policy = text "allkeys-lru" ∨
      policy = text "volatile-ttl")
    (rounds : Runs (Round env policy index needed maxmemory) before keys
      reached) {key other : Bytes} (member : key ∈ keys)
    (stays : other ∉ keys)
    (evictable : before.2.Evictable policy (index, other)) :
    before.2.evictionScore policy (index, key) ≤
      before.2.evictionScore policy (index, other) := by
  induction rounds with
  | done state => cases member
  | @next before between reached first rest round others ih =>
      rcases List.mem_cons.mp member with rfl | member
      · exact keyToEvict_least ordered round.next evictable
      · have apart : (index, other) ≠ (index, first) := by
          intro same
          exact stays (List.mem_cons.mpr (.inl (Prod.mk.inj same).2))
        have later := evictable_after round.evicted apart evictable
        have le := ih member
          (fun inside => stays (List.mem_cons_of_mem first inside)) later
        have known := (rounds_evictable others).2 key member
        rw [(evictable_before round.evicted known).2.2,
          (evictable_before round.evicted later).2.2] at le
        exact le

/-- A result of the loop is that of a run of rounds. -/
theorem evictLoop_rounds {fuel round : Nat} {done : Bool}
    (evicted : evictLoop env policy index needed maxmemory fuel round db =
      some (done, after)) :
    ∃ keys last, Runs (Round env policy index needed maxmemory) (round, db)
        keys (last, after) ∧
      (done = true ↔ after.usedMemory + needed ≤ maxmemory) := by
  induction fuel generalizing round db with
  | zero => cases evicted
  | succ fuel ih =>
      rw [evictLoop_succ] at evicted
      split at evicted
      · rename_i fits
        cases evicted
        exact ⟨[], round, .done _, fun _ => fits, fun _ => rfl⟩
      rename_i short
      split at evicted
      · cases evicted
        exact ⟨[], round, .done _, nofun, fun fits => absurd fits short⟩
      rename_i key next
      obtain ⟨between, first, rest⟩ := Option.bind_eq_some_iff.mp evicted
      obtain ⟨keys, last, rounds, fits⟩ := ih rest
      exact ⟨key :: keys, last,
        .next ⟨Nat.lt_of_not_le short, next, first, rfl⟩ rounds, fits⟩

/-- A loop that has rounds enough returns unless evicting a key panics. -/
theorem evictLoop_returns {fuel round : Nat}
    (enough : (db.data index).keys.card < fuel)
    (stuck : evictLoop env policy index needed maxmemory fuel round db =
      none) :
    ∃ keys last reached key,
      Runs (Round env policy index needed maxmemory) (round, db) keys
        (last, reached) ∧
      nextEvicted env policy index last reached = some key ∧
      reached.evictKey env index key = none := by
  induction fuel generalizing round db with
  | zero => cases enough
  | succ fuel ih =>
      rw [evictLoop_succ] at stuck
      split at stuck
      · cases stuck
      rename_i short
      split at stuck
      · cases stuck
      rename_i key next
      cases first : db.evictKey env index key with
      | none => exact ⟨[], round, db, key, .done _, next, first⟩
      | some between =>
          rw [first, Option.bind_some] at stuck
          have round : Round env policy index needed maxmemory (round, db)
              key (round + 1, between) :=
            ⟨Nat.lt_of_not_le short, next, first, rfl⟩
          have fewer := evictKey_card (keyToEvict_evictable next).1 first
          obtain ⟨keys, last, reached, key, rounds, panics⟩ :=
            ih (by omega) stuck
          exact ⟨_ :: keys, last, reached, key, .next round rounds, panics⟩

theorem rounds_subscriptions
    (rounds : Runs (Round env policy index needed maxmemory) before keys
      reached) : reached.2.config = before.2.config ∧
        reached.2.patternSubscribers = before.2.patternSubscribers := by
  induction rounds with
  | done state => exact ⟨rfl, rfl⟩
  | next first others ih =>
      obtain ⟨⟨removed, between⟩, removal, evicted⟩ :=
        Option.bind_eq_some_iff.mp first.evicted
      have same := sameSubscriptions.remove removal
      apply sameSubscriptions.trans _ ih
      dsimp only at evicted
      split at evicted
      · refine sameSubscriptions.trans same ?_
        exact sameSubscriptions.trans (sameSubscriptions.evicted between _)
          (sameSubscriptions.notifies evicted)
      · cases evicted
        exact same

end

/-! ## The whole eviction -/

def evictionPolicy (db : Database) : Bytes :=
  lowercase db.config.maxmemoryPolicy

/-- What an eviction may do; a slot without a stamp counts as accessed at
time 0. -/
structure Eviction (db after : Database) (index needed : Nat) (done : Bool) :
    Prop where
  fits : ∀ maxmemory, db.config.maxmemory = some maxmemory → done = true →
    after.usedMemory + needed ≤ maxmemory
  removes : ∀ slot, after.value slot = db.value slot ∨
    slot.1 = index ∧ after.value slot = none
  others : ∀ slot, slot.1 ≠ index →
    after.value slot = db.value slot ∧
      after.expiration slot = db.expiration slot ∧
      after.stamp slot = db.stamp slot
  persistent : db.evictionPolicy ∈ volatilePolicies → ∀ slot,
    db.expiration slot = none → after.value slot = db.value slot
  noeviction : db.evictionPolicy = text "noeviction" → after = db
  recent : db.evictionPolicy = text "volatile-lru" ∨
      db.evictionPolicy = text "allkeys-lru" →
    ∀ removed kept, db.value (index, removed) ≠ none →
      after.value (index, removed) = none →
      db.Evictable db.evictionPolicy (index, kept) →
      after.value (index, kept) ≠ none →
      (db.stamp (index, removed)).getD 0 ≤ (db.stamp (index, kept)).getD 0
  soonest : db.evictionPolicy = text "volatile-ttl" →
    ∀ removed kept first last, db.value (index, removed) ≠ none →
      after.value (index, removed) = none →
      db.Evictable db.evictionPolicy (index, kept) →
      after.value (index, kept) ≠ none →
      db.expiration (index, removed) = some first →
      db.expiration (index, kept) = some last → first ≤ last

theorem eviction_unchanged {db : Database} {index needed : Nat} {done : Bool}
    (fits : ∀ maxmemory, db.config.maxmemory = some maxmemory →
      done = true → db.usedMemory + needed ≤ maxmemory) :
    Eviction db db index needed done where
  fits := fits
  removes := fun _ => .inl rfl
  others := fun _ _ => ⟨rfl, rfl, rfl⟩
  persistent := fun _ _ _ => rfl
  noeviction := fun _ => rfl
  recent := fun _ _ _ stored gone _ _ => absurd gone stored
  soonest := fun _ _ _ _ _ stored gone _ _ _ _ => absurd gone stored

section

variable {env : Env} {db after : Database} {index needed maxmemory : Nat}
  {keys : List Bytes} {round last : Nat}

/-- Rounds by the policy of a database do what an eviction may do. -/
theorem rounds_eviction {done : Bool}
    (limited : db.config.maxmemory = some maxmemory)
    (rounds : Runs (Round env db.evictionPolicy index needed maxmemory)
      (round, db) keys (last, after))
    (fits : done = true → after.usedMemory + needed ≤ maxmemory) :
    Eviction db after index needed done := by
  have left := rounds_evicted rounds
  have admitted := (rounds_evictable rounds).2
  dsimp only at left admitted
  -- which keys are gone
  have gone : ∀ key, db.value (index, key) ≠ none →
      after.value (index, key) = none → key ∈ keys := by
    intro key stored absent
    rw [left.value] at absent
    split at absent
    · rename_i evicted
      exact evicted.2
    · exact absurd absent stored
  have stays : ∀ key, after.value (index, key) ≠ none → key ∉ keys := by
    intro key stored member
    rw [left.value, if_pos ⟨rfl, member⟩] at stored
    exact stored rfl
  constructor
  · intro limit isLimit finished
    cases limited.symm.trans isLimit
    exact fits finished
  · intro slot
    rw [left.value]
    split
    · rename_i evicted
      exact .inr ⟨evicted.1, rfl⟩
    · exact .inl rfl
  · intro slot elsewhere
    have apart : ¬(slot.1 = index ∧ slot.2 ∈ keys) :=
      fun both => elsewhere both.1
    rw [left.value, left.expiration, left.stamp, if_neg apart, if_neg apart,
      if_neg apart]
    exact ⟨rfl, rfl, rfl⟩
  · intro isVolatile slot persists
    rw [left.value]
    split
    · rename_i evicted
      obtain ⟨number, name⟩ := slot
      obtain ⟨here, member⟩ := evicted
      dsimp only at here member
      subst here
      obtain ⟨-, expires | isAll⟩ := admitted name member
      · exact absurd persists expires.2
      · simp only [volatilePolicies, List.mem_cons, List.not_mem_nil,
          or_false] at isVolatile
        rcases isVolatile with same | same | same
        · rw [same] at isAll
          exact absurd isAll (by decide)
        · rw [same] at isAll
          exact absurd isAll (by decide)
        · rw [same] at isAll
          exact absurd isAll (by decide)
    · rfl
  · intro never
    cases rounds with
    | done => rfl
    | next first others =>
        obtain ⟨-, isVolatile | isAll⟩ := keyToEvict_evictable first.next
        · rw [never] at isVolatile
          exact absurd isVolatile.1 (by decide)
        · rw [never] at isAll
          exact absurd isAll (by decide)
  · intro lru removed kept stored absent evictable present
    have ordered := rounds_ordered (or_assoc.mp (.inl lru)) rounds
      (gone _ stored absent) (stays _ present) evictable
    rw [evictionScore_lru lru, evictionScore_lru lru] at ordered
    exact ordered
  · intro ttl removed kept first final stored absent evictable present
      isFirst isFinal
    have ordered := rounds_ordered (.inr (.inr ttl)) rounds
      (gone _ stored absent) (stays _ present) evictable
    rw [ttl, evictionScore_ttl, evictionScore_ttl, isFirst, isFinal]
      at ordered
    exact ordered

end

end RedVector.Database
