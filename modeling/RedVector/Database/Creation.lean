import RedVector.Database.Live

/-!
# Creating a key

A key that is created keeps an expiration that has not lapsed.  When memory is
short other keys are evicted for it; this file says exactly when that happens
and which slots it may touch.
-/

namespace RedVector.Database

open Util Effect

variable [Platform]

/-! ## Eviction -/

/-- Whether making room for so many bytes evicts a key. -/
def evicts (env : Env) (db : Database) (index needed : Nat) : Bool :=
  match db.config.maxmemory with
  | none => false
  | some maxmemory =>
      let policy := lowercase db.config.maxmemoryPolicy
      decide (maxmemory < db.usedMemory + needed) &&
        (db.keyToEvict policy (env.random 0)
          (db.candidates env policy index)).isSome

/-- Whether creating a key evicts another one. -/
def creationEvicts (env : Env) (db : Database) (index : Nat)
    (key : Bytes) : Bool :=
  (db.value (index, key)).isNone &&
    db.evicts env index (estimateValueSize .nil key.length)

omit [Platform] in
theorem mem_of_firstMin
    {α β : Type} [LT β] [DecidableLT β] {measure : α → β}
    {elements : List α} {least : α}
    (found : firstMin measure elements = some least) :
    least ∈ elements := by
  induction elements generalizing least with
  | nil => cases found
  | cons head tail ih =>
      rw [firstMin] at found
      split at found
      · cases found
        exact List.mem_cons_self
      · rename_i best known
        split at found
        · cases found
          exact List.mem_cons_of_mem _ (ih known)
        · cases found
          exact List.mem_cons_self

/-- The key to evict is the key of a candidate. -/
theorem keyToEvict_mem
    {db : Database} {policy : Bytes} {random : Nat}
    {found : List Candidate} {key : Bytes}
    (chosen : db.keyToEvict policy random found = some key) :
    ∃ candidate ∈ found, candidate.key = key := by
  unfold keyToEvict at chosen
  dsimp only at chosen
  split at chosen
  · obtain ⟨candidate, least, named⟩ := Option.map_eq_some_iff.mp chosen
    exact ⟨candidate, mem_of_firstMin least, named⟩
  · split at chosen
    · split at chosen
      · obtain ⟨candidate, least, named⟩ := Option.map_eq_some_iff.mp chosen
        exact ⟨candidate,
          List.mem_of_mem_drop (List.mem_of_mem_take (mem_of_firstMin least)),
          named⟩
      · obtain ⟨candidate, first, named⟩ := Option.map_eq_some_iff.mp chosen
        exact ⟨candidate, List.mem_of_mem_head? first, named⟩
    · cases chosen

theorem candidates_stored
    {env : Env} {db : Database} {policy : Bytes} {index : Nat}
    {candidate : Candidate}
    (member : candidate ∈ db.candidates env policy index) :
    db.value (index, candidate.key) ≠ none := by
  obtain ⟨key, -, made⟩ := List.mem_filterMap.mp member
  dsimp only at made
  rw [Option.ite_none_right_eq_some] at made
  obtain ⟨-, made⟩ := made
  obtain ⟨value, stored, made⟩ := Option.bind_eq_some_iff.mp made
  cases made
  intro absent
  exact Option.some_ne_none value (stored.symm.trans absent)

/-- A key that is to be evicted is stored. -/
theorem keyToEvict_stored
    {env : Env} {db : Database} {policy : Bytes} {random index : Nat}
    {key : Bytes}
    (chosen : db.keyToEvict policy random (db.candidates env policy index) =
      some key) :
    db.value (index, key) ≠ none := by
  obtain ⟨candidate, member, rfl⟩ := keyToEvict_mem chosen
  exact candidates_stored member

theorem keyToEvict_nil (db : Database) (policy : Bytes) (random : Nat) :
    db.keyToEvict policy random [] = none := by
  unfold keyToEvict
  simp [firstMin]

/-- One round of the loop: it ends, or it evicts the chosen key. -/
theorem evictLoop_round
    {env : Env} {policy : Bytes} {index needed maxmemory fuel round : Nat}
    {db after : Database} {done : Bool}
    (evicted : evictLoop env policy index needed maxmemory (fuel + 1) round
      db = some (done, after)) :
    (after = db ∧ (db.usedMemory + needed ≤ maxmemory ∨
      db.keyToEvict policy (env.random round)
        (db.candidates env policy index) = none)) ∨
    ∃ key removed between middle,
      ¬db.usedMemory + needed ≤ maxmemory ∧
      db.keyToEvict policy (env.random round)
        (db.candidates env policy index) = some key ∧
      db.remove env index key = some (removed, between) ∧
      Kept between middle ∧
      evictLoop env policy index needed maxmemory fuel (round + 1) middle =
        some (done, after) := by
  rw [evictLoop] at evicted
  split at evicted
  · rename_i fits
    cases evicted
    exact .inl ⟨rfl, .inl fits⟩
  rename_i short
  split at evicted
  · rename_i empty
    cases evicted
    rw [empty]
    exact .inl ⟨rfl, .inr (keyToEvict_nil db policy _)⟩
  split at evicted
  · rename_i none
    cases evicted
    exact .inl ⟨rfl, .inr none⟩
  rename_i key chosen
  obtain ⟨⟨removed, between⟩, removal, evicted⟩ :=
    Option.bind_eq_some_iff.mp evicted
  dsimp only at evicted
  refine .inr ⟨key, removed, between, ?_⟩
  split at evicted
  · obtain ⟨middle, notified, evicted⟩ := Option.bind_eq_some_iff.mp evicted
    have counted : Kept between
        { between with evictedKeys := between.evictedKeys + 1 } :=
      ⟨⟨rfl, rfl, rfl, rfl⟩, rfl, rfl, ⟨rfl, rfl⟩⟩
    exact ⟨middle, short, chosen, removal,
      counted.trans (notifyKeyspaceEvent_kept notified), evicted⟩
  · exact ⟨between, short, chosen, removal, .refl between, evicted⟩

/-- The expiration of a slot that holds nothing survives. -/
theorem evictLoop_absent
    {env : Env} {policy : Bytes} {index needed maxmemory fuel round : Nat}
    {db after : Database} {done : Bool} {slot : Slot}
    (absent : db.value slot = none)
    (evicted : evictLoop env policy index needed maxmemory fuel round db =
      some (done, after)) :
    after.value slot = none ∧ after.expiration slot = db.expiration slot := by
  induction fuel generalizing round db with
  | zero => cases evicted
  | succ fuel ih =>
      rcases evictLoop_round evicted with ⟨rfl, -⟩ |
        ⟨key, removed, between, middle, -, chosen, removal, kept, rest⟩
      · exact ⟨absent, rfl⟩
      · have different : slot ≠ (index, key) := by
          intro same
          exact keyToEvict_stored chosen (same ▸ absent)
        obtain ⟨-, sets, -⟩ := remove_spec removal
        have still : middle.value slot = none := by
          rw [kept.value, sets.value, if_neg different, absent]
        obtain ⟨value, expiration⟩ := ih still rest
        refine ⟨value, ?_⟩
        rw [expiration, kept.expiration, sets.expiration, if_neg different]

theorem evictKeys_absent
    {env : Env} {db after : Database} {index needed : Nat} {done : Bool}
    {slot : Slot} (absent : db.value slot = none)
    (evicted : db.evictKeys env index needed = some (done, after)) :
    after.value slot = none ∧ after.expiration slot = db.expiration slot := by
  unfold evictKeys at evicted
  split at evicted
  · cases evicted
    exact ⟨absent, rfl⟩
  · exact evictLoop_absent absent evicted

/-- Nothing happens unless a key is evicted. -/
theorem evictKeys_quiet
    {env : Env} {db after : Database} {index needed : Nat} {done : Bool}
    (spare : db.evicts env index needed = false)
    (evicted : db.evictKeys env index needed = some (done, after)) :
    after = db := by
  unfold evictKeys at evicted
  unfold evicts at spare
  split at evicted
  · cases evicted
    rfl
  · rename_i maxmemory limited
    simp only [limited, Bool.and_eq_false_iff, decide_eq_false_iff_not]
      at spare
    rcases evictLoop_round evicted with ⟨same, -⟩ |
      ⟨key, removed, between, middle, short, chosen, -⟩
    · exact same
    · rcases spare with fits | none
      · exact absurd (Nat.le_of_not_lt fits) short
      · rw [chosen] at none
        cases none

/-- A key that is evicted was stored and is gone. -/
theorem evictKeys_removes
    {env : Env} {db after : Database} {index needed : Nat} {done : Bool}
    (short : db.evicts env index needed = true)
    (evicted : db.evictKeys env index needed = some (done, after)) :
    ∃ key, db.value (index, key) ≠ none ∧
      after.value (index, key) = none := by
  unfold evictKeys at evicted
  unfold evicts at short
  split at evicted
  · rename_i unlimited
    simp [unlimited] at short
  · rename_i maxmemory limited
    simp only [limited, Bool.and_eq_true, decide_eq_true_eq] at short
    rcases evictLoop_round evicted with ⟨-, fits | none⟩ |
      ⟨key, removed, between, middle, -, chosen, removal, kept, rest⟩
    · exact absurd fits (Nat.not_le_of_lt short.1)
    · rw [none] at short
      cases short.2
    · refine ⟨key, keyToEvict_stored chosen, ?_⟩
      obtain ⟨-, sets, -⟩ := remove_spec removal
      have gone : middle.value (index, key) = none := by
        rw [kept.value, sets.value_self]
      exact (evictLoop_absent gone rest).1

/-! ## The created key -/

/-- A forgotten expiration is not the one of a candidate. -/
theorem forgotten_evicts
    {env : Env} {db : Database} {index : Nat} {key : Bytes}
    (absent : db.value (index, key) = none) (needed : Nat) :
    (db.forgotten env index key).evicts env index needed =
      db.evicts env index needed := by
  unfold forgotten
  split
  · have same : ∀ policy, (db.removeMsexpiration index key).2.candidates env
        policy index = db.candidates env policy index := by
      intro policy
      refine List.filterMap_congr ?_
      intro other member
      have different : other ≠ key := by
        rintro rfl
        have stored := (env.mem_order _ _).mp member
        rw [Finmap.mem_keys, ← Finmap.lookup_isSome] at stored
        have nothing : (db.data index).lookup other = none := absent
        have present : ((db.data index).lookup other).isSome = true := stored
        rw [nothing] at present
        cases present
      have kept : ((db.removeMsexpiration index key).2.dataExpirationMs
          index).lookup other = (db.dataExpirationMs index).lookup other := by
        have sets := removeMsexpiration_sets db index key
        have other := sets.expiration (index, other)
        rw [if_neg (by simpa using different)] at other
        exact other
      rw [kept]
      rfl
    unfold evicts
    simp only [same]
    rfl
  · rfl

/-- How a key is created: an expiration that has lapsed is forgotten, then
room is made for a key that is not stored. -/
theorem getOrCreate_cases
    {env : Env} {db after : Database} {index : Nat} {key : Bytes}
    {value : Value}
    (created : db.getOrCreate env index key = some (value, after)) :
    ∃ middle,
      value = (middle.value (index, key)).getD .nil ∧
      Sets middle after (index, key) (some value)
        (middle.expiration (index, key)) ∧
      Silent middle after ∧
      ((db.value (index, key) ≠ none ∧
          middle = db.forgotten env index key) ∨
        (db.value (index, key) = none ∧ ∃ done,
          (db.forgotten env index key).evictKeys env index
            (estimateValueSize .nil key.length) = some (done, middle))) := by
  obtain ⟨forgets, -⟩ := forgotten_sets env db index key
  cases getOrCreate_creation created with
  | stored found =>
      have held := forgets.value_self.trans found
      have lru := updateLru_kept env (db.forgotten env index key) index key
      have same := Sets.unchanged (db.forgotten env index key) (index, key)
      rw [held] at same
      refine ⟨_, by rw [held]; rfl, same.kept lru, lru.silent, .inl ⟨?_, rfl⟩⟩
      rw [found]
      exact Option.some_ne_none value
  | @counted done middle absent evicted fits =>
      have vacant := (evictKeys_absent
        (forgets.value_self.trans absent) evicted).1
      obtain ⟨sets, silent⟩ := withCounted_sets env middle index key
      exact ⟨middle, by rw [vacant]; rfl, sets, silent,
        .inr ⟨absent, done, evicted⟩⟩
  | @refused middle absent evicted short =>
      have vacant := (evictKeys_absent
        (forgets.value_self.trans absent) evicted).1
      exact ⟨middle, by rw [vacant]; rfl, put_sets middle index key .nil,
        put_silent middle index key .nil, .inr ⟨absent, false, evicted⟩⟩

/-- What creating a slot leaves behind, whatever is evicted for it. -/
structure Creates (env : Env) (before after : Database) (slot : Slot)
    (value : Value) : Prop where
  frame : Frame before after
  silent : Silent before after
  value : after.value slot = some value
  expiration : after.expiration slot = before.keptExpiration env slot
  others : ∀ other, other ≠ slot →
    after.value other = before.value other ∧
        after.expiration other = before.expiration other ∨
      after.value other = none ∧ after.expiration other = none

theorem getOrCreate_creates
    {env : Env} {db after : Database} {index : Nat} {key : Bytes}
    {value : Value}
    (created : db.getOrCreate env index key = some (value, after)) :
    value = (db.value (index, key)).getD .nil ∧
      Creates env db after (index, key) value := by
  obtain ⟨middle, answer, sets, silent, how⟩ := getOrCreate_cases created
  obtain ⟨forgets, quiet⟩ := forgotten_sets env db index key
  have summary : middle.value (index, key) = db.value (index, key) ∧
      middle.expiration (index, key) =
        db.keptExpiration env (index, key) ∧
      Evicts (db.forgotten env index key) middle := by
    rcases how with ⟨-, rfl⟩ | ⟨absent, done, evicted⟩
    · exact ⟨forgets.value_self, forgets.expiration_self, .refl _⟩
    · have nothing := forgets.value_self.trans absent
      obtain ⟨value, expiration⟩ := evictKeys_absent nothing evicted
      rw [value, expiration, absent]
      exact ⟨rfl, forgets.expiration_self, evictKeys_spec evicted⟩
  obtain ⟨sameValue, sameExpiration, evicted⟩ := summary
  refine ⟨by rw [answer, sameValue], ?_⟩
  constructor
  · exact (forgets.frame.trans evicted.frame).trans sets.frame
  · exact (quiet.trans evicted.silent).trans silent
  · exact sets.value_self
  · rw [sets.expiration_self, sameExpiration]
  · intro other different
    rw [sets.value, sets.expiration, if_neg different, if_neg different]
    have removes := evicted.removes other
    rw [forgets.value, forgets.expiration, if_neg different,
      if_neg different] at removes
    exact removes

/-- A created slot may be written to. -/
theorem Creates.put
    {env : Env} {before after : Database} {index : Nat} {key : Bytes}
    {old : Value} (creates : Creates env before after (index, key) old)
    (value : Value) :
    Creates env before (after.put index key value) (index, key) value := by
  have puts := put_sets after index key value
  constructor
  · exact creates.frame.trans puts.frame
  · exact creates.silent.trans (put_silent after index key value)
  · exact puts.value_self
  · rw [puts.expiration_self, creates.expiration]
  · intro other different
    rw [puts.value, puts.expiration, if_neg different, if_neg different]
    exact creates.others other different

/-- What creating a slot does when nothing is evicted for it. -/
theorem getOrCreate_sets
    {env : Env} {db after : Database} {index : Nat} {key : Bytes}
    {value : Value} (spare : db.creationEvicts env index key = false)
    (created : db.getOrCreate env index key = some (value, after)) :
    Sets db after (index, key) (some value)
      (db.keptExpiration env (index, key)) := by
  obtain ⟨middle, -, sets, -, how⟩ := getOrCreate_cases created
  obtain ⟨forgets, -⟩ := forgotten_sets env db index key
  have same : middle = db.forgotten env index key := by
    rcases how with ⟨-, same⟩ | ⟨absent, done, evicted⟩
    · exact same
    · unfold creationEvicts at spare
      rw [absent, ← forgotten_evicts absent] at spare
      exact evictKeys_quiet spare evicted
  subst same
  rw [forgets.expiration_self] at sets
  exact forgets.trans sets

/-- Otherwise another key of the same database is gone. -/
theorem getOrCreate_evicts
    {env : Env} {db after : Database} {index : Nat} {key : Bytes}
    {value : Value} (short : db.creationEvicts env index key = true)
    (created : db.getOrCreate env index key = some (value, after)) :
    ∃ other, other ≠ key ∧ db.value (index, other) ≠ none ∧
      after.value (index, other) = none := by
  unfold creationEvicts at short
  simp only [Bool.and_eq_true, Option.isNone_iff_eq_none] at short
  obtain ⟨absent, short⟩ := short
  obtain ⟨middle, -, sets, -, how⟩ := getOrCreate_cases created
  obtain ⟨forgets, -⟩ := forgotten_sets env db index key
  rcases how with ⟨stored, -⟩ | ⟨-, done, evicted⟩
  · exact absurd absent stored
  rw [← forgotten_evicts absent] at short
  obtain ⟨other, stored, gone⟩ := evictKeys_removes short evicted
  have different : other ≠ key := by
    rintro rfl
    exact stored (forgets.value_self.trans absent)
  have apart : (index, other) ≠ (index, key) := by simpa using different
  refine ⟨other, different, ?_, ?_⟩
  · rw [forgets.value, if_neg apart] at stored
    exact stored
  · rw [sets.value, if_neg apart, gone]

end RedVector.Database
