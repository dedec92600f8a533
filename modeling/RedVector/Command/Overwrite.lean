import RedVector.Command.InPlace

/-!
# Overwriting a key

The commands that store a whole new value create the key, put the value and
announce the update.  The expiration of the key is not touched by any of this.
-/

namespace RedVector

open Util Effect Database

section

variable [Platform]

namespace Database

/-- What storing a whole new value under a key leaves behind. -/
structure Overwrites (env : Env) (before after : Database) (slot : Slot)
    (stored : Value) : Prop where
  frame : Frame before after
  value : after.value slot = if stored.isEmpty then none else some stored
  expiration : after.expiration slot =
    if stored.isEmpty then none else before.keptExpiration env slot
  others : ∀ other, other ≠ slot →
    after.value other = before.value other ∧
        after.expiration other = before.expiration other ∨
      after.value other = none ∧ after.expiration other = none
  spare : before.creationEvicts env slot.1 slot.2 = false →
    ∀ other, other ≠ slot →
      after.value other = before.value other ∧
        after.expiration other = before.expiration other

/-- A created value that is announced was written whole. -/
theorem overwrites_of_creates
    {env : Env} {db middle after : Database} {index : Nat} {key : Bytes}
    {value : Value}
    (creates : Creates env db middle (index, key) value)
    (spare : db.creationEvicts env index key = false →
      Sets db middle (index, key) (some value)
        (db.keptExpiration env (index, key)))
    (updated : middle.keyUpdated env index key = some after) :
    Overwrites env db after (index, key) value := by
  obtain ⟨updates, -⟩ := keyUpdated_spec updated
  have vanishing : middle.vanishing (index, key) = value.isEmpty := by
    unfold Database.vanishing
    rw [creates.value]
    rfl
  constructor
  · exact creates.frame.trans updates.frame
  · rw [updates.value_self, surviving, vanishing, creates.value]
  · rw [updates.expiration_self, surviving, vanishing, creates.expiration]
  · intro other different
    rw [updates.value, updates.expiration, if_neg different,
      if_neg different]
    exact creates.others other different
  · intro enough other different
    have sets := spare enough
    rw [updates.value, updates.expiration, if_neg different,
      if_neg different, sets.value, sets.expiration, if_neg different,
      if_neg different]
    exact ⟨rfl, rfl⟩

theorem overwrites
    {env : Env} {db created after : Database} {index : Nat} {key : Bytes}
    {old value : Value}
    (creation : db.getOrCreate env index key = some (old, created))
    (updated : (created.put index key value).keyUpdated env index key =
      some after) :
    Overwrites env db after (index, key) value := by
  obtain ⟨-, creates⟩ := getOrCreate_creates creation
  have puts := put_sets created index key value
  apply overwrites_of_creates (creates.put value) _ updated
  intro spare
  have sets := getOrCreate_sets spare creation
  rw [sets.expiration_self] at puts
  exact sets.trans puts

theorem creationEvicts_unlimited
    {db : Database} (unlimited : db.config.maxmemory = none) (env : Env)
    (index : Nat) (key : Bytes) :
    db.creationEvicts env index key = false := by
  simp [creationEvicts, evicts, unlimited]

theorem keptExpiration_congr
    {env : Env} {before after : Database} {slot : Slot}
    (loading : after.loading = before.loading)
    (same : after.expiration slot = before.expiration slot) :
    after.keptExpiration env slot = before.keptExpiration env slot := by
  unfold keptExpiration
  rw [lapsed_congr loading same, same]

theorem keptExpiration_none
    {db : Database} {slot : Slot} (absent : db.expiration slot = none)
    (env : Env) : db.keptExpiration env slot = none := by
  unfold keptExpiration
  rw [absent, ite_self]

/-- An expiration that was kept is kept again. -/
theorem keptExpiration_again
    {env : Env} {before after : Database} {slot : Slot}
    (loading : after.loading = before.loading)
    (kept : after.expiration slot = before.keptExpiration env slot) :
    after.keptExpiration env slot = before.keptExpiration env slot := by
  cases lapsed : before.lapsed env slot with
  | true =>
      have nothing : before.keptExpiration env slot = none := if_pos lapsed
      rw [nothing] at kept ⊢
      exact keptExpiration_none kept env
  | false =>
      have same : before.keptExpiration env slot = before.expiration slot :=
        if_neg (by rw [lapsed]; exact Bool.false_ne_true)
      exact keptExpiration_congr loading (kept.trans same)

namespace Overwrites

variable {env : Env} {before after : Database} {slot : Slot} {value : Value}

/-- A slot without an expiration does not get one. -/
theorem persistent
    (overwrites : Overwrites env before after slot value) {other : Slot}
    (absent : before.expiration other = none) :
    after.expiration other = none := by
  by_cases same : other = slot
  · rw [same, overwrites.expiration, ← same, keptExpiration_none absent,
      ite_self]
  · rcases overwrites.others other same with ⟨-, kept⟩ | gone
    · exact kept.trans absent
    · exact gone.2

/-- A slot whose expiration has gone has not got it back. -/
theorem kept_none
    (overwrites : Overwrites env before after slot value) {other : Slot}
    (lost : before.keptExpiration env other = none) :
    after.keptExpiration env other = none := by
  by_cases same : other = slot
  · apply keptExpiration_none
    rw [same, overwrites.expiration, ← same, lost, ite_self]
  · rcases overwrites.others other same with ⟨-, kept⟩ | gone
    · rw [keptExpiration_congr overwrites.frame.loading kept]
      exact lost
    · exact keptExpiration_none gone.2 env

theorem kept_same
    (overwrites : Overwrites env before after slot value)
    (stays : value.isEmpty = false)
    (spare : before.creationEvicts env slot.1 slot.2 = false)
    (other : Slot) :
    after.keptExpiration env other = before.keptExpiration env other := by
  by_cases same : other = slot
  · subst same
    apply keptExpiration_again overwrites.frame.loading
    rw [overwrites.expiration, stays]
    rfl
  · exact keptExpiration_congr overwrites.frame.loading
      (overwrites.spare spare other same).2

theorem sent {between : Database}
    (overwrites : Overwrites env before between slot value)
    (kept : Kept between after) :
    Overwrites env before after slot value := by
  constructor
  · exact overwrites.frame.trans kept.frame
  · rw [kept.value]
    exact overwrites.value
  · rw [kept.expiration]
    exact overwrites.expiration
  · rw [kept.value, kept.expiration]
    exact overwrites.others
  · rw [kept.value, kept.expiration]
    exact overwrites.spare

end Overwrites

end Database

/-- Storing a whole new value in front of the rest of a handler. -/
theorem ensures_overwrites
    {β : Type} {env : Env} {db : Database} {index : Nat} {key : Bytes}
    {post : Except Response β → Database → Prop} {value : Value}
    {rest : Unit → Writer β}
    (step : ∀ after, Overwrites env db after (index, key) value →
      Ensures env (rest ()) post after) :
    Ensures env
      (Db.getOrCreate index key >>= fun _ => Db.put index key value >>= fun _ =>
        Db.keyUpdated index key >>= rest) post db := by
  refine ensures_getOrCreate ?_
  intro old created creation
  refine ensures_put ?_
  intro inside
  refine ensures_keyUpdated ?_
  intro after updated
  exact step after (overwrites creation updated)

namespace Command

/-! ## Keys and replies -/

/-- The keys among keys and values. -/
def msetKeys : List Bytes → List Bytes
  | key :: _ :: rest => key :: msetKeys rest
  | _ => []

/-- The keys that a command overwrites. -/
def overwritten (known : CommandName) (argv : Arguments) : List Bytes :=
  match known with
  | .set | .getset | .sdiffstore | .sinterstore | .sunionstore
  | .zunionstore | .zinterstore => argv[1]?.toList
  | .bitop => argv[2]?.toList
  | .mset => msetKeys argv.tail
  | .sort =>
      match sortOptions (argv.drop 2) {} with
      | .ok options => options.storeKey.toList
      | .error _ => []
  | _ => []

/-- Whether SET is given without EX and PX. -/
def withoutExpiration (argv : Arguments) : Bool :=
  match setOptions argv argv.length 3 {} with
  | some (.ok options) => options.expiration.isNone
  | _ => false

/-- Whether a command has stored a value, by its reply. -/
def overwrote (known : CommandName) (argv : Arguments) (reply : Response) :
    Bool :=
  match known, reply with
  | .set, .status _ => withoutExpiration argv
  | .set, _ => false
  | .sort, .integer number => number != 0
  | .sort, _ => false
  | _, reply => !reply.isError

/-- The value that ZUNIONSTORE and ZINTERSTORE make of their sources. -/
def mergedValue (env : Env) (db : Database) (argv : Arguments)
    (dbindex : Nat) (union : Bool) : Option Value := do
  let numkeys := (← (argv.getI64 2).toOption).toNat
  let (weights, aggregate) ←
    (storeOptions numkeys (argv.drop (3 + numkeys))).toOption
  let values := ((argv.drop 3).take numkeys).map fun key =>
    (db.visible env (dbindex, key)).getD .nil
  let merged ←
    if union then Value.zunion env.order values weights aggregate
    else Value.zinter env.order values weights aggregate
  merged.toOption

/-- The list that SORT stores. -/
def sortedList (env : Env) (db : Database) (argv : Arguments)
    (dbindex : Nat) : Option (List Bytes) := do
  let (result, _) ← ((sorted argv dbindex).lift readInclusion).run
    (machine env) db
  let (finalResult, _) ← result.toOption
  pure (dataOf finalResult)

/-- The key has no expiration that a new value keeps. -/
def Fresh (env : Env) (db : Database) (dbindex : Nat) (key : Bytes) : Prop :=
  db.keptExpiration env (dbindex, key) = none

/-- When the expirations of the overwritten keys are discarded. -/
def Discards (env : Env) (db : Database) (argv : Arguments) (dbindex : Nat)
    (known : CommandName) : Prop :=
  match known with
  -- these remove the key before they create it again
  | .sinterstore | .sunionstore => True
  | .sdiffstore =>
      (∃ key ∈ argv[2]?, db.visible env (dbindex, key) ≠ none) ∨
        ∀ key ∈ argv[1]?, db.expiration (dbindex, key) = none
  -- an empty value is removed together with the expiration
  | .zunionstore =>
      (∃ value ∈ mergedValue env db argv dbindex true, value.isEmpty) ∨
        ∀ key ∈ argv[1]?, Fresh env db dbindex key
  | .zinterstore =>
      (∃ value ∈ mergedValue env db argv dbindex false, value.isEmpty) ∨
        ∀ key ∈ argv[1]?, Fresh env db dbindex key
  | .sort =>
      sortedList env db argv dbindex = some [] ∨
        ∀ key ∈ overwritten .sort argv, Fresh env db dbindex key
  | known => ∀ key ∈ overwritten known argv, Fresh env db dbindex key

/-- After the command the keys that it has overwritten have no expiration. -/
def Discarded (dbindex : Nat) (known : CommandName) (argv : Arguments)
    (after : Database) : Prop :=
  ∀ key ∈ overwritten known argv, after.expiration (dbindex, key) = none

/-- What a command that overwrites keys ensures. -/
def Discarding (known : CommandName) (env : Env) (argv : Arguments)
    (dbindex : Nat) (db : Database) (result : Except Response Response)
    (after : Database) : Prop :=
  ∀ reply, result = .ok reply → overwrote known argv reply = true →
    (Discards env db argv dbindex known →
      Discarded dbindex known argv after) ∧
    ((known = .mset → db.config.maxmemory = none) →
      Discarded dbindex known argv after →
      Discards env db argv dbindex known)

section Handlers

variable {env : Env} {db : Database} {argv : Arguments} {dbindex : Nat}

theorem discarding_error
    {known : CommandName} {after : Database} (reply : Response) :
    Discarding known env argv dbindex db (.error reply) after :=
  nofun

theorem discarding_iff
    {known : CommandName} {after : Database} {reply : Response}
    (iff : overwrote known argv reply = true →
      (Discarded dbindex known argv after ↔
        Discards env db argv dbindex known)) :
    Discarding known env argv dbindex db (.ok reply) after := by
  intro other same succeeds
  cases same
  exact ⟨(iff succeeds).mpr, fun _ => (iff succeeds).mp⟩

/-- One key was overwritten with a value that stays. -/
theorem overwrites_discarded
    {known : CommandName} {after : Database} {key : Bytes} {value : Value}
    (only : overwritten known argv = [key])
    (stays : value.isEmpty = false)
    (overwrites : Overwrites env db after (dbindex, key) value) :
    Discarded dbindex known argv after ↔
      ∀ key ∈ overwritten known argv, Fresh env db dbindex key := by
  unfold Discarded Fresh
  rw [only, List.forall_mem_singleton, List.forall_mem_singleton,
    overwrites.expiration, stays]
  rfl

theorem genericSet_overwrites
    {key val : Bytes} {nx xx : Bool} :
    Ensures env (genericSet dbindex key val nx xx none)
      (fun result after => result = .ok false ∨ result = .ok true ∧
        Overwrites env db after (dbindex, key) (.setString val)) db := by
  unfold genericSet
  refine ensures_get ?_
  intro _
  split
  · exact Program.ensures_pure (.inl rfl)
  · refine ensures_get ?_
    intro _
    split
    · exact Program.ensures_pure (.inl rfl)
    · refine ensures_overwrites ?_
      intro between overwrites
      refine ensures_notify ?_
      intro after kept
      exact Program.ensures_pure (.inr ⟨rfl, overwrites.sent kept⟩)

theorem set_discarding :
    Ensures env (set argv dbindex) (Discarding .set env argv dbindex db)
      db := by
  unfold set
  refine ensures_gte (fun _ _ => discarding_error _) ?_
  intro _
  refine ensures_valid (fun _ _ _ => discarding_error _) ?_
  intro key keyed
  refine ensures_valid (fun _ _ _ => discarding_error _) ?_
  intro val _
  refine Program.ensures_orPanic_bind ?_
  intro parsed isParsed
  refine Program.ensures_ofExcept_bind (fun _ _ => discarding_error _) ?_
  intro options isOptions
  subst isOptions
  have only : overwritten .set argv = [key] := by
    rw [overwritten, getVec_eq_ok keyed]
    rfl
  -- only a SET without an expiration is asked about
  cases expires : options.expiration with
  | some time =>
      intro result after _ reply _ succeeds
      have refused : overwrote .set argv reply = false := by
        unfold overwrote
        cases reply
        all_goals simp [withoutExpiration, isParsed, expires]
      cases refused.symm.trans succeeds
  | none =>
      refine Program.ensures_bind ?_
      refine Program.Ensures.mono genericSet_overwrites ?_
      rintro result between (rfl | ⟨rfl, overwrites⟩)
      · refine Program.ensures_pure ?_
        apply discarding_iff
        intro succeeds
        cases succeeds
      · refine Program.ensures_pure ?_
        apply discarding_iff
        intro _
        exact overwrites_discarded only rfl overwrites

/-- A string is stored under one key. -/
theorem ensures_overwrite
    {β : Type} {key value : Bytes} {rest : Unit → Writer β}
    {post : Except Response β → Database → Prop}
    (step : ∀ after,
      Overwrites env db after (dbindex, key) (.setString value) →
      Ensures env (rest ()) post after) :
    Ensures env (overwrite dbindex key value >>= rest) post db :=
  ensures_overwrites step

theorem getset_discarding :
    Ensures env (getset argv dbindex)
      (Discarding .getset env argv dbindex db) db := by
  unfold getset
  refine ensures_exact (fun _ _ => discarding_error _) ?_
  intro _
  refine ensures_valid (fun _ _ _ => discarding_error _) ?_
  intro key keyed
  refine ensures_valid (fun _ _ _ => discarding_error _) ?_
  intro value _
  refine ensures_reader (fun _ _ => discarding_error _) ?_
  intro oldValue _
  refine ensures_overwrite ?_
  intro after overwrites
  refine Program.ensures_pure ?_
  apply discarding_iff
  intro _
  refine overwrites_discarded ?_ rfl overwrites
  rw [overwritten, getVec_eq_ok keyed]
  rfl

theorem bitop_discarding :
    Ensures env (bitop argv dbindex) (Discarding .bitop env argv dbindex db)
      db := by
  unfold bitop
  refine ensures_gte (fun _ _ => discarding_error _) ?_
  intro _
  refine ensures_valid (fun _ _ _ => discarding_error _) ?_
  intro op _
  refine ensures_valid (fun _ _ _ => discarding_error _) ?_
  intro destKey keyed
  refine ensures_reader (fun _ _ => discarding_error _) ?_
  intro result _
  refine ensures_overwrite ?_
  intro after overwrites
  refine Program.ensures_pure ?_
  apply discarding_iff
  intro _
  refine overwrites_discarded ?_ rfl overwrites
  rw [overwritten, getVec_eq_ok keyed]
  rfl

/-! ### MSET -/

/-- No key gets an expiration, and without a limit of the memory each key
keeps the one that has not lapsed. -/
theorem overwriteAll_expirations (pairs : List Bytes) :
    Ensures env (overwriteAll dbindex pairs)
      (fun _ after =>
        (∀ slot, db.expiration slot = none →
          after.expiration slot = none) ∧
        ((∀ key ∈ msetKeys pairs, Fresh env db dbindex key) →
          ∀ key ∈ msetKeys pairs, after.expiration (dbindex, key) = none) ∧
        (db.config.maxmemory = none → ∀ slot : Slot,
          after.expiration slot =
            if slot.1 = dbindex ∧ slot.2 ∈ msetKeys pairs then
              db.keptExpiration env slot
            else db.expiration slot)) db := by
  induction pairs using msetKeys.induct generalizing db with
  | case1 key value rest ih =>
      unfold overwriteAll
      refine ensures_overwrite ?_
      intro between overwrites
      refine Program.Ensures.mono ih ?_
      intro result after holds
      obtain ⟨persistent, fresh, unlimited⟩ := holds
      refine ⟨?_, ?_, ?_⟩
      · intro slot absent
        exact persistent slot (overwrites.persistent absent)
      · intro keysFresh other member
        rw [msetKeys, List.forall_mem_cons] at keysFresh
        rcases List.mem_cons.mp member with rfl | later
        · apply persistent
          rw [overwrites.expiration]
          exact keysFresh.1
        · apply fresh _ other later
          intro key member
          exact overwrites.kept_none (keysFresh.2 key member)
      · intro noLimit slot
        have spare := creationEvicts_unlimited noLimit env dbindex key
        rw [unlimited (overwrites.frame.config ▸ noLimit) slot,
          overwrites.kept_same rfl spare slot, msetKeys]
        by_cases later : slot.1 = dbindex ∧ slot.2 ∈ msetKeys rest
        · rw [if_pos later,
            if_pos ⟨later.1, List.mem_cons_of_mem _ later.2⟩]
        · rw [if_neg later]
          by_cases first : slot = (dbindex, key)
          · subst first
            have kept : between.expiration (dbindex, key) =
                db.keptExpiration env (dbindex, key) :=
              overwrites.expiration
            rw [kept, if_pos ⟨rfl, List.mem_cons_self⟩]
          · rw [(overwrites.spare spare slot first).2, if_neg]
            rintro ⟨sameIndex, member⟩
            rcases List.mem_cons.mp member with sameKey | inRest
            · exact first (Prod.ext sameIndex sameKey)
            · exact later ⟨sameIndex, inRest⟩
  | case2 pairs notPair =>
      have nothing : overwriteAll dbindex pairs = (pure () : Writer Unit) := by
        unfold overwriteAll
        split
        · exact absurd rfl (notPair _ _ _)
        · rfl
      have noKeys : msetKeys pairs = [] := by
        unfold msetKeys
        split
        · exact absurd rfl (notPair _ _ _)
        · rfl
      rw [nothing, noKeys]
      refine Program.ensures_pure ⟨fun _ absent => absent, ?_, ?_⟩
      · intro _ key member
        cases member
      · intro _ slot
        rw [if_neg (by simp)]

theorem mset_discarding :
    Ensures env (mset argv dbindex) (Discarding .mset env argv dbindex db)
      db := by
  unfold mset
  refine ensures_gte (fun _ _ => discarding_error _) ?_
  intro _
  refine Program.ensures_ofExcept_bind (fun _ _ => discarding_error _) ?_
  intro _ _
  refine Program.ensures_bind ?_
  refine Program.Ensures.mono (overwriteAll_expirations argv.tail) ?_
  intro result after holds
  obtain ⟨-, fresh, unlimited⟩ := holds
  cases result with
  | error reply => exact discarding_error reply
  | ok _ =>
      refine Program.ensures_pure ?_
      intro reply _ _
      refine ⟨fresh, ?_⟩
      intro noLimit discarded key member
      have kept := unlimited (noLimit rfl) (dbindex, key)
      rw [if_pos ⟨rfl, member⟩] at kept
      exact kept.symm.trans (discarded key member)

/-! ### Stores -/

theorem setAlgebraStore_discards
    {operation : List Value → Value → Operation (Finset Bytes)}
    {default : Option Value} :
    Ensures env (setAlgebraStore operation default argv dbindex)
      (fun result after => ∀ reply, result = .ok reply →
        reply.isError = false → ∃ destination key,
          argv[1]? = some destination ∧ argv[2]? = some key ∧
          if (db.visible env (dbindex, key)).isNone ∧ default.isNone then
            after = db
          else after.expiration (dbindex, destination) = none) db := by
  unfold setAlgebraStore
  refine Program.ensures_ofExcept_bind (fun _ _ => nofun) ?_
  intro _ _
  refine ensures_valid (fun _ _ _ => nofun) ?_
  intro destination isDestination
  refine ensures_valid (fun _ _ _ => nofun) ?_
  intro key isKey
  have isDestination := getVec_eq_ok isDestination
  have isKey := getVec_eq_ok isKey
  refine ensures_get ?_
  intro _
  cases first : (db.visible env (dbindex, key)).or default with
  | none =>
      refine Program.ensures_pure ?_
      intro reply _ _
      have both := Option.or_eq_none_iff.mp first
      refine ⟨destination, key, isDestination, isKey, ?_⟩
      rw [both.1, both.2]
      rfl
  | some value =>
      have notBoth : ¬((db.visible env (dbindex, key)).isNone = true ∧
          default.isNone = true) := by
        simp only [Option.isNone_iff_eq_none]
        intro both
        rw [both.1, both.2] at first
        cases first
      refine ensures_reader (fun _ _ => nofun) ?_
      intro sets _
      split
      · refine Program.ensures_pure ?_
        intro reply same succeeds
        cases same
        cases succeeds
      · refine ensures_remove ?_
        intro between _ removed
        have gone := (remove_spec removed).2.1.expiration_self
        refine ensures_overwrites ?_
        intro after overwrites
        refine Program.ensures_pure ?_
        intro reply _ _
        refine ⟨destination, key, isDestination, isKey, ?_⟩
        rw [if_neg notBoth]
        exact overwrites.persistent gone

/-- The destination was removed before it was created again. -/
theorem setAlgebraStore_discarding
    {known : CommandName}
    {operation : List Value → Value → Operation (Finset Bytes)}
    (plain : ∀ reply, overwrote known argv reply = !reply.isError)
    (destination : overwritten known argv = argv[1]?.toList)
    (always : Discards env db argv dbindex known) :
    Ensures env (setAlgebraStore operation (some .nil) argv dbindex)
      (Discarding known env argv dbindex db) db := by
  refine Program.Ensures.mono setAlgebraStore_discards ?_
  intro result after stores reply replied succeeds
  rw [plain, Bool.not_eq_true'] at succeeds
  obtain ⟨key, _, isKey, _, gone⟩ := stores reply replied succeeds
  rw [if_neg (by simp)] at gone
  refine ⟨fun _ => ?_, fun _ _ => always⟩
  unfold Discarded
  rw [destination, isKey]
  simpa using gone

theorem sdiffstore_discarding :
    Ensures env (sdiffstore argv dbindex)
      (Discarding .sdiffstore env argv dbindex db) db := by
  unfold sdiffstore
  refine Program.Ensures.mono setAlgebraStore_discards ?_
  rintro result after stores reply replied succeeds
  have succeeds : reply.isError = false := by
    simpa [overwrote] using succeeds
  obtain ⟨destination, key, isDestination, isKey, ends⟩ :=
    stores reply replied succeeds
  have only : overwritten .sdiffstore argv = [destination] := by
    rw [overwritten, isDestination]
    rfl
  have iff : Discarded dbindex .sdiffstore argv after ↔
      Discards env db argv dbindex .sdiffstore := by
    unfold Discarded Discards
    rw [only, List.forall_mem_singleton, isDestination, isKey]
    simp only [Option.mem_some_iff, exists_eq_left', forall_eq']
    split at ends
    · rename_i missing
      have absent := Option.isNone_iff_eq_none.mp missing.1
      subst ends
      simp [absent]
    · rename_i present
      have found : db.visible env (dbindex, key) ≠ none := by
        intro absent
        exact present ⟨by rw [absent]; rfl, rfl⟩
      exact iff_of_true ends (.inl found)
  exact ⟨iff.mpr, fun _ => iff.mp⟩

theorem sinterstore_discarding :
    Ensures env (sinterstore argv dbindex)
      (Discarding .sinterstore env argv dbindex db) db :=
  setAlgebraStore_discarding (fun _ => rfl) rfl trivial

theorem sunionstore_discarding :
    Ensures env (sunionstore argv dbindex)
      (Discarding .sunionstore env argv dbindex db) db :=
  setAlgebraStore_discarding (fun _ => rfl) rfl trivial

/-- The values of the keys are those that are visible. -/
theorem ensures_getValues
    {β : Type} {default : Value} {keys : List Bytes}
    {rest : List Value → Writer β}
    {post : Except Response β → Database → Prop}
    (step : Ensures env (rest (keys.map fun key =>
      (db.visible env (dbindex, key)).getD default)) post db) :
    Ensures env ((liftM (getValues dbindex default keys) :
      Writer (List Value)) >>= rest) post db := by
  have reads : Ensures env ((getValues dbindex default keys).lift
      readInclusion) (fun result _ => result = .ok (keys.map fun key =>
        (db.visible env (dbindex, key)).getD default)) db := by
    clear step
    unfold getValues
    induction keys with
    | nil => exact Program.ensures_pure rfl
    | cons key keys ih =>
        rw [List.mapM_cons, Program.lift_bind, Program.lift_bind,
          bind_assoc]
        refine ensures_get ?_
        intro _
        refine Program.ensures_bind (Program.ensures_pure ?_)
        dsimp only
        rw [Program.lift_bind]
        refine Program.ensures_bind ?_
        intro result after ran
        have same := lift_unchanged _ ran
        have values := ih result after ran
        subst same
        subst values
        exact Program.ensures_pure rfl
  refine ensures_reader ?_ ?_
  · intro reply ran
    cases reads _ _ ran
  · intro values ran
    cases reads _ _ ran
    exact step

theorem zinterUnionStore_discards {union : Bool} :
    Ensures env (zinterUnionStore argv dbindex union)
      (fun result after => ∀ reply, result = .ok reply →
        reply.isError = false → ∃ key value, argv[1]? = some key ∧
          mergedValue env db argv dbindex union = some value ∧
          Overwrites env db after (dbindex, key) value) db := by
  unfold zinterUnionStore
  refine Program.ensures_ofExcept_bind (by rintro _ _ _ ⟨⟩) ?_
  intro _ _
  refine ensures_valid (by rintro _ _ _ _ ⟨⟩) ?_
  intro key isKey
  refine ensures_valid (by rintro _ _ _ _ ⟨⟩) ?_
  intro n isNumber
  split
  · refine Program.ensures_pure ?_
    intro reply same succeeds
    cases same
    cases succeeds
  · refine ensures_gte (by rintro _ _ _ ⟨⟩) ?_
    intro _
    refine ensures_getValues ?_
    refine Program.ensures_ofExcept_bind (by rintro _ _ _ ⟨⟩) ?_
    rintro ⟨weights, aggregate⟩ isOptions
    dsimp only
    have number : (argv.getI64 2).toOption = some n := by
      rw [isNumber]
      rfl
    have parsed : (storeOptions n.toNat
        (argv.drop (3 + n.toNat))).toOption = some (weights, aggregate) := by
      rw [isOptions]
      rfl
    generalize isValues : ((argv.drop 3).take n.toNat).map (fun key =>
      (db.visible env (dbindex, key)).getD .nil) = values
    have stores : ∀ merged : Operation Value,
        (∀ value, merged = .ok value →
          mergedValue env db argv dbindex union = some value) →
        Ensures env (storeMerged dbindex key merged)
          (fun result after => ∀ reply, result = .ok reply →
            reply.isError = false → ∃ key value, argv[1]? = some key ∧
              mergedValue env db argv dbindex union = some value ∧
              Overwrites env db after (dbindex, key) value) db := by
      intro merged isMerged
      cases merged with
      | error error =>
          refine Program.ensures_pure ?_
          intro reply same succeeds
          cases same
          cases succeeds
      | ok value =>
          refine ensures_overwrites ?_
          intro after overwrites
          refine Program.ensures_pure ?_
          intro reply _ _
          exact ⟨key, value, getVec_eq_ok isKey, isMerged value rfl,
            overwrites⟩
    cases union with
    | true =>
        refine ensures_op (.read (.zunion values weights aggregate)) ?_
        intro merged after performed
        obtain ⟨_, read, answered⟩ := Option.map_eq_some_iff.mp performed
        cases answered
        apply stores
        rintro value rfl
        have read : Value.zunion env.order values weights aggregate =
            some (.ok value) := read
        unfold mergedValue
        simp only [number, parsed, Option.bind_eq_bind, Option.bind_some,
          isValues, if_true, read]
        rfl
    | false =>
        refine ensures_op (.read (.zinter values weights aggregate)) ?_
        intro merged after performed
        obtain ⟨_, read, answered⟩ := Option.map_eq_some_iff.mp performed
        cases answered
        apply stores
        rintro value rfl
        have read : Value.zinter env.order values weights aggregate =
            some (.ok value) := read
        unfold mergedValue
        simp only [number, parsed, Option.bind_eq_bind, Option.bind_some,
          isValues, Bool.false_eq_true, if_false, read]
        rfl

/-- One key was overwritten with a value that may be empty. -/
theorem overwrites_discarded_iff
    {known : CommandName} {after : Database} {key : Bytes} {value : Value}
    (only : overwritten known argv = [key])
    (overwrites : Overwrites env db after (dbindex, key) value) :
    Discarded dbindex known argv after ↔
      value.isEmpty = true ∨
        ∀ key ∈ overwritten known argv, Fresh env db dbindex key := by
  cases empty : value.isEmpty with
  | true =>
      refine iff_of_true ?_ (.inl rfl)
      unfold Discarded
      rw [only, List.forall_mem_singleton, overwrites.expiration, empty]
      rfl
  | false =>
      rw [overwrites_discarded only empty overwrites]
      simp

theorem zinterUnionStore_discarding
    {known : CommandName} {union : Bool}
    (plain : ∀ reply, overwrote known argv reply = !reply.isError)
    (destination : overwritten known argv = argv[1]?.toList)
    (condition : Discards env db argv dbindex known =
      ((∃ value ∈ mergedValue env db argv dbindex union, value.isEmpty) ∨
        ∀ key ∈ argv[1]?, Fresh env db dbindex key)) :
    Ensures env (zinterUnionStore argv dbindex union)
      (Discarding known env argv dbindex db) db := by
  refine Program.Ensures.mono zinterUnionStore_discards ?_
  intro result after stores reply replied succeeds
  rw [plain, Bool.not_eq_true'] at succeeds
  obtain ⟨key, value, isKey, isMerged, overwrites⟩ :=
    stores reply replied succeeds
  have only : overwritten known argv = [key] := by
    rw [destination, isKey]
    rfl
  have iff : Discarded dbindex known argv after ↔
      Discards env db argv dbindex known := by
    rw [overwrites_discarded_iff only overwrites, condition, only, isKey,
      isMerged]
    simp
  exact ⟨iff.mpr, fun _ => iff.mp⟩

theorem zunionstore_discarding :
    Ensures env (zunionstore argv dbindex)
      (Discarding .zunionstore env argv dbindex db) db :=
  zinterUnionStore_discarding (fun _ => rfl) rfl rfl

theorem zinterstore_discarding :
    Ensures env (zinterstore argv dbindex)
      (Discarding .zinterstore env argv dbindex db) db :=
  zinterUnionStore_discarding (fun _ => rfl) rfl rfl

/-- SORT stores under the key of its last STORE option. -/
theorem sorted_store
    {finalResult : List Response} {store : Bytes}
    (ran : ((sorted argv dbindex).lift readInclusion).run (machine env) db =
      some (.ok (finalResult, some store), db)) :
    overwritten .sort argv = [store] := by
  have stores : Ensures env ((sorted argv dbindex).lift readInclusion)
      (fun result _ => ∀ finalResult store,
        result = .ok (finalResult, some store) →
        overwritten .sort argv = [store]) db := by
    unfold sorted
    refine ensures_lift (fun _ => nofun) ?_
    intro _ _
    refine ensures_lift (fun _ => nofun) ?_
    intro key _
    refine ensures_lift (fun _ => nofun) ?_
    intro found _
    cases found with
    | none => exact Program.ensures_throw nofun
    | some value =>
        dsimp only
        refine ensures_lift (fun _ => nofun) ?_
        intro elements _
        refine ensures_lift (fun _ => nofun) ?_
        intro options parsed
        have parsed : sortOptions (argv.drop 2) {} = .ok options := by
          cases isParsed : sortOptions (argv.drop 2) {} with
          | ok found =>
              rw [isParsed] at parsed
              cases parsed
              rfl
          | error reply =>
              rw [isParsed] at parsed
              cases parsed
        refine ensures_lift (fun _ => nofun) ?_
        intro elements _
        refine ensures_lift (fun _ => nofun) ?_
        intro elements _
        refine ensures_lift (fun _ => nofun) ?_
        intro finalResult _
        refine Program.ensures_pure ?_
        intro other store same
        have named : options.storeKey = some store :=
          congrArg Prod.snd (Except.ok.inj same)
        unfold overwritten
        dsimp only
        rw [parsed]
        dsimp only
        rw [named]
        rfl
  exact stores _ _ ran finalResult store rfl

theorem sort_discarding :
    Ensures env (sort argv dbindex) (Discarding .sort env argv dbindex db)
      db := by
  unfold sort
  refine ensures_reader (fun _ _ => discarding_error _) ?_
  rintro ⟨finalResult, storeKey⟩ isSorted
  dsimp only
  cases storeKey with
  | none =>
      refine Program.ensures_pure ?_
      apply discarding_iff
      intro succeeds
      cases succeeds
  | some store =>
      dsimp only
      split
      · refine ensures_remove ?_
        intro between _ _
        refine Program.ensures_pure ?_
        apply discarding_iff
        intro succeeds
        cases succeeds
      · refine ensures_overwrites ?_
        intro after overwrites
        refine Program.ensures_pure ?_
        apply discarding_iff
        intro _
        have only := sorted_store isSorted
        have listed : sortedList env db argv dbindex =
            some (dataOf finalResult) := by
          unfold sortedList
          rw [isSorted]
          rfl
        rw [overwrites_discarded_iff only overwrites]
        unfold Discards
        rw [listed]
        cases dataOf finalResult with
        | nil => simp [Value.isEmpty, ValueList.llen]
        | cons head tail => simp [Value.isEmpty, ValueList.llen]

end Handlers

end Command

end

end RedVector
