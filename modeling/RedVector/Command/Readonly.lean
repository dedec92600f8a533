import RedVector.Command.Along
import RedVector.Command.Draws
import RedVector.Parser.Encode

/-!
# READONLY commands

Whether a command whose flags contain READONLY leaves the live keys as they
are.  Three such commands write: LREM, LTRIM and SPOP.
-/

namespace RedVector

open Util Effect Database

section

variable [Platform]

namespace Database

/-- An update changes nothing that is live, unless it removes an empty
value. -/
theorem keyUpdated_live
    {env : Env} {db after : Database} {index : Nat} {key : Bytes}
    (updated : db.keyUpdated env index key = some after) :
    (∀ slot, slot ≠ (index, key) →
      after.live env slot = db.live env slot) ∧
    after.live env (index, key) =
      if db.vanishing (index, key) then none
      else db.live env (index, key) := by
  obtain ⟨sets, -⟩ := keyUpdated_spec updated
  refine ⟨fun slot different => sets.live_other different, ?_⟩
  split
  · rename_i vanishing
    rw [live_eq, sets.value_self, surviving, if_pos vanishing]
    simp
  · rename_i staying
    refine live_congr sets.frame.loading ?_ ?_
    · rw [sets.value_self, surviving, if_neg staying]
    · rw [sets.expiration_self, surviving, if_neg staying]

/-- A live value that is replaced and then updated. -/
theorem replaced_live
    {env : Env} {db between after : Database} {index : Nat} {key : Bytes}
    {value changed : Value}
    (alive : db.lapsed env (index, key) = false)
    (stored : db.value (index, key) = some value)
    (sets : Sets db between (index, key) (some changed)
      (db.expiration (index, key)))
    (updated : between.keyUpdated env index key = some after) :
    SameLive env db after ↔ changed = value ∧ changed.isEmpty = false := by
  obtain ⟨others, own⟩ := keyUpdated_live updated
  have before : db.live env (index, key) =
      some (value, db.expiration (index, key)) := by
    rw [live_eq, alive, stored]
    rfl
  have middle : between.live env (index, key) =
      some (changed, db.expiration (index, key)) := by
    have aliveBetween : between.lapsed env (index, key) =
        db.lapsed env (index, key) :=
      lapsed_congr sets.frame.loading sets.expiration_self
    rw [live_eq, aliveBetween, alive, sets.value_self, sets.expiration_self]
    rfl
  have vanishing : between.vanishing (index, key) = changed.isEmpty := by
    rw [Database.vanishing, sets.value_self]
    rfl
  rw [middle, vanishing] at own
  constructor
  · intro same
    have self := same (index, key)
    rw [own, before] at self
    split at self
    · cases self
    · rename_i nonempty
      simp only [Option.some.injEq, Prod.mk.injEq, and_true] at self
      exact ⟨self, by simpa using nonempty⟩
  · rintro ⟨rfl, nonempty⟩ slot
    by_cases same : slot = (index, key)
    · subst same
      rw [own, before, nonempty]
      rfl
    · rw [others slot same, sets.live_other same]

/-- A key that is not live stays so through an update. -/
theorem absent_updated
    {env : Env} {db after : Database} {index : Nat} {key : Bytes}
    (absent : db.visible env (index, key) = none)
    (updated : db.keyUpdated env index key = some after) :
    SameLive env db after := by
  obtain ⟨others, own⟩ := keyUpdated_live updated
  have before : db.live env (index, key) = none := by
    rw [live, absent]
    rfl
  intro slot
  by_cases same : slot = (index, key)
  · subst same
    rw [own, before]
    split
    · rfl
    · rfl
  · exact others slot same

end Database

namespace Command

/-- What a method on a value and the update after it change. -/
theorem mutAndUpdate_live
    {α : Type} {env : Env} {db : Database} {dbindex : Nat} {key : Bytes}
    {method : Value → Option (Value.Change α)} {ok : α → Response}
    {missing : Response} :
    Ensures env (mutAndUpdate dbindex key method ok missing)
      (fun _ after =>
        (db.visible env (dbindex, key) = none → SameLive env db after) ∧
        ∀ value, db.visible env (dbindex, key) = some value →
          ∃ answer changed, method value = some (answer, changed) ∧
            (SameLive env db after ↔
              changed = value ∧ changed.isEmpty = false)) db := by
  unfold mutAndUpdate
  refine ensures_mutThen ?_ ?_
  · intro between absent frame silent live
    refine ensures_keyUpdated ?_
    intro after updated
    have absent' : between.visible env (dbindex, key) = none := by
      rw [live.visible, absent]
    have same := live.trans (absent_updated absent' updated)
    refine Program.ensures_pure ⟨fun _ => same, fun value present => ?_⟩
    cases absent.symm.trans present
  · intro value answer changed between alive stored called sets silent
    refine ensures_keyUpdated ?_
    intro after updated
    have visible : db.visible env (dbindex, key) = some value := by
      simp [Database.visible, alive, stored]
    refine Program.ensures_pure ⟨fun absent => ?_, fun other present => ?_⟩
    · cases absent.symm.trans visible
    · cases visible.symm.trans present
      exact ⟨answer, changed, called, replaced_live alive stored sets updated⟩

/-- SPOP leaves a set as it was when it draws nothing. -/
theorem drawMembers_spec
    {env : Env} {db : Database} {set : ValueSet} {count : Nat}
    {result : Except Response (List Bytes × ValueSet)}
    (ran : ((drawMembers set count).lift readInclusion).run (machine env)
      db = some (result, db)) :
    ∃ picked after, result = .ok (picked, after) ∧
      (after = set ↔ count = 0 ∨ set.scard = 0) := by
  obtain ⟨popped, draws, -, among, length⟩ := run_drawMembers env db set count
  cases ran.symm.trans draws
  refine ⟨_, _, rfl, ?_⟩
  rw [ValueSet.removeAll_unchanged among, ← List.length_eq_zero_iff, length]
  omega

/-! ## The commands that write -/

/-- The value of a live key. -/
def KeyHolds (env : Env) (argv : Arguments) (dbindex : Nat) (db : Database)
    (value : Value) : Prop :=
  ∃ key, argv.getVec 1 = .ok key ∧
    db.visible env (dbindex, key) = some value

/-- LREM removes an element, or a key whose value is empty. -/
def LremRemoves (env : Env) (argv : Arguments) (dbindex : Nat)
    (db : Database) : Prop :=
  argv.length = 4 ∧ ∃ count element value,
    argv.getI64 2 = .ok count ∧ argv.getVec 3 = .ok element ∧
      KeyHolds env argv dbindex db value ∧
      (value.isEmpty = true ∨ ∃ list, value = .list list ∧ element ∈ list)

/-- LTRIM removes a part of a list, or a key whose value is empty. -/
def LtrimRemoves (env : Env) (argv : Arguments) (dbindex : Nat)
    (db : Database) : Prop :=
  argv.length = 4 ∧ ∃ start stop value,
    argv.getI64 2 = .ok start ∧ argv.getI64 3 = .ok stop ∧
      KeyHolds env argv dbindex db value ∧
      (value.isEmpty = true ∨
        ∃ list, value = .list list ∧
          ¬ValueList.Covers list.length start stop)

/-- How many members SPOP draws. -/
def SpopCount (argv : Arguments) (count : Nat) : Prop :=
  argv.length = 2 ∧ count = 1 ∨
    argv.length = 3 ∧ ∃ given, argv.getI64 2 = .ok given ∧
      count = asUsize given

/-- SPOP removes a member, or a key whose value is empty. -/
def SpopRemoves (env : Env) (argv : Arguments) (dbindex : Nat)
    (db : Database) : Prop :=
  ∃ count value, SpopCount argv count ∧
    KeyHolds env argv dbindex db value ∧
    (value.isEmpty = true ∨ count ≠ 0 ∧ ∃ set, value = .set set)

section Handlers

variable {env : Env} {db : Database} {argv : Arguments} {dbindex : Nat}

/-- A method on the key that a command names. -/
private theorem method_live
    {α : Type} {key : Bytes} (removes : Value → Prop)
    {method : Value → Option (Value.Change α)} {ok : α → Response}
    {missing : Response} (keyed : argv.getVec 1 = .ok key)
    (unchanged : ∀ value answer changed,
      method value = some (answer, changed) →
      (changed = value ∧ changed.isEmpty = false ↔ ¬removes value)) :
    Ensures env (mutAndUpdate dbindex key method ok missing)
      (fun _ after => SameLive env db after ↔
        ¬∃ value, KeyHolds env argv dbindex db value ∧ removes value)
      db := by
  refine mutAndUpdate_live.mono ?_
  rintro result after ⟨absent, present⟩
  cases visible : db.visible env (dbindex, key) with
  | none =>
      refine iff_of_true (absent visible) ?_
      rintro ⟨value, ⟨named, sameKey, holds⟩, -⟩
      cases keyed.symm.trans sameKey
      cases visible.symm.trans holds
  | some value =>
      obtain ⟨answer, changed, called, same⟩ := present value visible
      rw [same, unchanged value answer changed called, not_iff_not]
      constructor
      · exact fun removed => ⟨value, ⟨key, keyed, visible⟩, removed⟩
      · rintro ⟨other, ⟨named, sameKey, holds⟩, removed⟩
        cases keyed.symm.trans sameKey
        cases visible.symm.trans holds
        exact removed

/-- A value that stays is not empty, and stays as it is. -/
private theorem unchanged_iff
    {value changed : Value} {differs : Prop}
    (nonempty : value.isEmpty = false → (changed = value ↔ ¬differs)) :
    changed = value ∧ changed.isEmpty = false ↔
      ¬(value.isEmpty = true ∨ differs) := by
  cases isEmpty : value.isEmpty with
  | true =>
      refine iff_of_false ?_ (by simp)
      rintro ⟨rfl, stays⟩
      cases isEmpty.symm.trans stays
  | false =>
      rw [nonempty isEmpty]
      constructor
      · rintro ⟨same, -⟩
        simpa using same
      · intro same
        have same : ¬differs := by simpa using same
        exact ⟨same, (nonempty isEmpty).mpr same ▸ isEmpty⟩

theorem lrem_live :
    Ensures env (lrem argv dbindex)
      (fun _ after =>
        SameLive env db after ↔ ¬LremRemoves env argv dbindex db) db := by
  unfold lrem
  refine ensures_exact ?_ ?_
  · intro reply different
    exact iff_of_true (.refl env db) fun removes => different removes.1
  intro exact
  refine ensures_valid ?_ ?_
  · intro reply error refused
    refine iff_of_true (.refl env db) ?_
    rintro ⟨-, count, element, value, -, -, ⟨key, keyed, -⟩, -⟩
    cases refused.symm.trans keyed
  intro key keyed
  refine ensures_valid ?_ ?_
  · intro reply error refused
    refine iff_of_true (.refl env db) ?_
    rintro ⟨-, count, element, value, counted, -⟩
    cases refused.symm.trans counted
  intro count counted
  refine ensures_valid ?_ ?_
  · intro reply error refused
    refine iff_of_true (.refl env db) ?_
    rintro ⟨-, count, element, value, -, given, -⟩
    cases refused.symm.trans given
  intro element given
  refine (method_live (fun value => value.isEmpty = true ∨
    ∃ list, value = .list list ∧ element ∈ list) keyed ?_).mono ?_
  · intro value answer changed called
    obtain ⟨limit, -, called⟩ := Option.bind_eq_some_iff.mp called
    refine unchanged_iff fun nonempty => ?_
    cases value with
    | nil => cases nonempty
    | list list =>
        have unchanged := ValueList.lrem_unchanged list (decide (count < 0))
          (asUsize limit) element
        have same : changed = .list (list.lrem (decide (count < 0))
            (asUsize limit) element).2 :=
          (congrArg Prod.snd (Option.some.inj called)).symm
        simp [same, ← unchanged]
    | _ =>
        cases called
        simp
  · intro result after same
    rw [same, not_iff_not]
    constructor
    · rintro ⟨value, holds, removed⟩
      exact ⟨exact, count, element, value, counted, given, holds, removed⟩
    · rintro ⟨-, -, other, value, -, sameElement, holds, removed⟩
      cases given.symm.trans sameElement
      exact ⟨value, holds, removed⟩

theorem ltrim_live :
    Ensures env (ltrim argv dbindex)
      (fun _ after =>
        SameLive env db after ↔ ¬LtrimRemoves env argv dbindex db) db := by
  unfold ltrim
  refine ensures_exact ?_ ?_
  · intro reply different
    exact iff_of_true (.refl env db) fun removes => different removes.1
  intro exact
  refine ensures_valid ?_ ?_
  · intro reply error refused
    refine iff_of_true (.refl env db) ?_
    rintro ⟨-, start, stop, value, -, -, ⟨key, keyed, -⟩, -⟩
    cases refused.symm.trans keyed
  intro key keyed
  refine ensures_valid ?_ ?_
  · intro reply error refused
    refine iff_of_true (.refl env db) ?_
    rintro ⟨-, start, stop, value, started, -⟩
    cases refused.symm.trans started
  intro start started
  refine ensures_valid ?_ ?_
  · intro reply error refused
    refine iff_of_true (.refl env db) ?_
    rintro ⟨-, start, stop, value, -, stopped, -⟩
    cases refused.symm.trans stopped
  intro stop stopped
  refine (method_live (fun value => value.isEmpty = true ∨
    ∃ list, value = .list list ∧ ¬ValueList.Covers list.length start stop)
    keyed ?_).mono ?_
  · intro value answer changed called
    refine unchanged_iff fun nonempty => ?_
    cases value with
    | list list =>
        obtain ⟨trimmed, trims, called⟩ := Option.bind_eq_some_iff.mp called
        have unchanged := ValueList.ltrim_unchanged (by
          rintro rfl
          cases nonempty) trims
        cases called
        simp [unchanged]
    | _ =>
        cases called
        simp
  · intro result after same
    rw [same, not_iff_not]
    constructor
    · rintro ⟨value, holds, removed⟩
      exact ⟨exact, start, stop, value, started, stopped, holds, removed⟩
    · rintro ⟨-, otherStart, otherStop, value, sameStart, sameStop, holds,
        removed⟩
      cases started.symm.trans sameStart
      cases stopped.symm.trans sameStop
      exact ⟨value, holds, removed⟩

/-- What SPOP makes of a value that is not empty. -/
theorem spopOf_spec
    {between : Database} {value : Value} {count : Nat}
    {result : Except Response (Value.Change (List Bytes))}
    (ran : ((spopOf value count).lift readInclusion).run (machine env)
      between = some (result, between)) :
    ∃ popped changed, result = .ok (popped, changed) ∧
      (value.isEmpty = false → (changed = value ↔
        ¬(count ≠ 0 ∧ ∃ set, value = .set set))) := by
  cases value with
  | nil =>
      cases ran
      exact ⟨_, _, rfl, nofun⟩
  | set set =>
      rw [spopOf, Program.lift_bind, Program.run_bind] at ran
      obtain ⟨⟨drawn, after⟩, draws, ran⟩ := Option.bind_eq_some_iff.mp ran
      cases lift_unchanged (drawMembers set count) draws
      obtain ⟨picked, changed, rfl, unchanged⟩ := drawMembers_spec draws
      cases ran
      refine ⟨_, _, rfl, fun nonempty => ?_⟩
      have positive : set.scard ≠ 0 := by simpa [Value.isEmpty] using nonempty
      simp [unchanged, positive]
  | _ =>
      cases ran
      exact ⟨_, _, rfl, fun _ => by simp⟩

/-- Drawing from a value and updating its key. -/
private theorem drawn_live
    {key : Bytes} {value : Value} {count : Nat} {between : Database}
    (answer : Operation (List Bytes) → Response)
    (kept : Kept db between)
    (alive : db.lapsed env (dbindex, key) = false)
    (stored : db.value (dbindex, key) = some value) :
    Ensures env (do
        let drawn ← (liftM (spopOf value count) : Writer _)
        Db.put dbindex key drawn.2
        Db.keyUpdated dbindex key
        pure (answer drawn.1))
      (fun _ after => SameLive env db after ↔
        ¬(value.isEmpty = true ∨ count ≠ 0 ∧ ∃ set, value = .set set))
      between := by
  refine ensures_reader ?_ ?_
  · intro reply ran
    obtain ⟨popped, changed, impossible, -⟩ := spopOf_spec ran
    cases impossible
  intro drawn ran
  obtain ⟨popped, changed, same, unchanged⟩ := spopOf_spec ran
  cases same
  refine ensures_put fun _ => ensures_keyUpdated ?_
  intro after updated
  refine Program.ensures_pure ?_
  have puts := put_sets between dbindex key changed
  have sets : Sets db (between.put dbindex key changed) (dbindex, key)
      (some changed) (db.expiration (dbindex, key)) := by
    refine ⟨kept.frame.trans puts.frame, ?_, ?_⟩
    · intro other
      rw [puts.value, kept.value]
    · intro other
      rw [puts.expiration, kept.expiration]
  rw [replaced_live alive stored sets updated]
  exact unchanged_iff unchanged

theorem spop_live :
    Ensures env (spop argv dbindex)
      (fun _ after =>
        SameLive env db after ↔ ¬SpopRemoves env argv dbindex db) db := by
  unfold spop
  refine ensures_gte ?_ ?_
  · intro reply few
    refine iff_of_true (.refl env db) ?_
    rintro ⟨count, value, ⟨two, -⟩ | ⟨three, -⟩, -⟩
    · omega
    · omega
  intro enough
  refine ensures_lte ?_ ?_
  · intro reply many
    refine iff_of_true (.refl env db) ?_
    rintro ⟨count, value, ⟨two, -⟩ | ⟨three, -⟩, -⟩
    · omega
    · omega
  intro limited
  refine ensures_valid ?_ ?_
  · intro reply error refused
    refine iff_of_true (.refl env db) ?_
    rintro ⟨count, value, -, ⟨key, keyed, -⟩, -⟩
    cases refused.symm.trans keyed
  intro key keyed
  refine ensures_getMut ?_
  intro between inside got
  obtain ⟨-, frame, silent, live, present⟩ := getMut_live got
  cases visible : db.visible env (dbindex, key) with
  | none =>
      refine Program.ensures_pure (iff_of_true live ?_)
      rintro ⟨count, value, -, ⟨named, sameKey, holds⟩, -⟩
      cases keyed.symm.trans sameKey
      cases visible.symm.trans holds
  | some value =>
      obtain ⟨kept, alive, stored⟩ := present value visible
      -- what is drawn decides, once its number is known
      have removes : ∀ count, SpopCount argv count →
          (∀ other, SpopCount argv other → other = count) →
          ((value.isEmpty = true ∨ count ≠ 0 ∧ ∃ set, value = .set set) ↔
            SpopRemoves env argv dbindex db) := by
        intro count counted only
        constructor
        · exact fun removed =>
            ⟨count, value, counted, ⟨key, keyed, visible⟩, removed⟩
        · rintro ⟨other, otherValue, otherCounted, ⟨named, sameKey, holds⟩,
            removed⟩
          cases keyed.symm.trans sameKey
          cases visible.symm.trans holds
          exact only other otherCounted ▸ removed
      dsimp only
      split
      · rename_i two
        refine (drawn_live (fun popped => respond popped firstElement) kept
          alive stored).mono fun result after same => ?_
        rw [same, removes 1 (.inl ⟨two, rfl⟩)]
        rintro other (⟨-, one⟩ | ⟨three, -⟩)
        · exact one
        · omega
      · rename_i notTwo
        refine ensures_valid ?_ ?_
        · intro reply error refused
          refine iff_of_true live ?_
          rintro ⟨count, other, ⟨two, -⟩ | ⟨-, given, counted, -⟩, -⟩
          · exact notTwo two
          · cases refused.symm.trans counted
        intro given counted
        refine (drawn_live (fun popped => respond popped dataArray) kept
          alive stored).mono fun result after same => ?_
        rw [same, removes (asUsize given)
          (.inr ⟨by omega, given, counted, rfl⟩)]
        rintro other (⟨two, -⟩ | ⟨-, number, sameCount, rfl⟩)
        · exact absurd two notTwo
        · cases counted.symm.trans sameCount
          rfl

end Handlers

/-! ## All READONLY commands -/

/-- A READONLY command removes something live. -/
def Removes (env : Env) (argv : Arguments) (dbindex : Nat) (db : Database)
    (known : Option CommandName) : Prop :=
  known = some .lrem ∧ LremRemoves env argv dbindex db ∨
    known = some .ltrim ∧ LtrimRemoves env argv dbindex db ∨
    known = some .spop ∧ SpopRemoves env argv dbindex db

/-- Of the handlers that write, three belong to READONLY commands. -/
theorem readonly_writer
    {known : CommandName} {handle : Arguments → Nat → Writer Response}
    (found : Handler.ofName known = some (.writer handle))
    (readonly : (CommandProperties.ofName known).isReadonly = true) :
    known = .lrem ∧ handle = lrem ∨ known = .ltrim ∧ handle = ltrim ∨
      known = .spop ∧ handle = spop := by
  cases known
  case lrem =>
    cases found
    exact .inl ⟨rfl, rfl⟩
  case ltrim =>
    cases found
    exact .inr (.inl ⟨rfl, rfl⟩)
  case spop =>
    cases found
    exact .inr (.inr ⟨rfl, rfl⟩)
  all_goals cases found
  all_goals exact absurd readonly (by decide)

theorem readonly_not_blocking
    {known : CommandName} {handle : Arguments → Nat → Writer Answer}
    (found : Handler.ofName known = some (.blocking handle)) :
    (CommandProperties.ofName known).isReadonly = false := by
  cases known
  case brpoplpush => rfl
  case brpop => rfl
  case blpop => rfl
  all_goals cases found

theorem Untouched.live {env : Env} {before after : Database}
    (untouched : Untouched before after) : SameLive env before after :=
  .of_data untouched.settled.loading untouched.data
    untouched.dataExpirationMs

/-- A handler of a READONLY command. -/
theorem handler_readonly
    {known : CommandName} {handler : Handler}
    (found : Handler.ofName known = some handler)
    (readonly : (CommandProperties.ofName known).isReadonly = true)
    {env : Env} {argv : Arguments} {db : Database} {client : Client}
    {outcome : Outcome}
    (ran : handler.run env argv db client = some outcome) :
    SameLive env db outcome.db ↔
      ¬Removes env argv client.dbindex db (some known) := by
  -- nothing is removed by a command without a handler that writes
  have quiet : SameLive env db outcome.db →
      (∀ handle, handler ≠ .writer handle) →
      (SameLive env db outcome.db ↔
        ¬Removes env argv client.dbindex db (some known)) := by
    intro same notWriter
    refine iff_of_true same ?_
    rintro (⟨isThis, -⟩ | ⟨isThis, -⟩ | ⟨isThis, -⟩)
    all_goals
      cases isThis
      cases found
      exact notWriter _ rfl
  cases handler with
  | reader handle =>
      refine quiet ?_ nofun
      obtain ⟨⟨result, after⟩, programRun, rfl⟩ :=
        Option.map_eq_some_iff.mp ran
      rw [(Handler.finished_db client (result, after)).1]
      obtain ⟨reply, readerRun, -⟩ := Program.run_map_eq_some programRun
      cases lift_unchanged (handle argv client.dbindex) readerRun
      exact .refl env db
  | writer handle =>
      obtain ⟨⟨result, after⟩, programRun, rfl⟩ :=
        Option.map_eq_some_iff.mp ran
      rw [(Handler.finished_db client (result, after)).1]
      obtain ⟨reply, writerRun, -⟩ := Program.run_map_eq_some programRun
      obtain ⟨rfl, rfl⟩ | ⟨rfl, rfl⟩ | ⟨rfl, rfl⟩ :=
        readonly_writer found readonly
      · refine (lrem_live reply after writerRun).trans (not_congr ?_)
        simp [Removes]
      · refine (ltrim_live reply after writerRun).trans (not_congr ?_)
        simp [Removes]
      · refine (spop_live reply after writerRun).trans (not_congr ?_)
        simp [Removes]
  | blocking handle =>
      cases (readonly_not_blocking found).symm.trans readonly
  | server handle =>
      refine quiet ?_ nofun
      obtain ⟨⟨reply, after⟩, handled, finished⟩ :=
        Option.bind_eq_some_iff.mp ran
      cases finished
      exact (untouched_subscribes.server found handled).live
  | session handle =>
      refine quiet ?_ nofun
      obtain ⟨⟨answer, after, afterClient⟩, handled, finished⟩ :=
        Option.bind_eq_some_iff.mp ran
      cases finished
      obtain ⟨-, watches⟩ | ⟨-, sameDb, -⟩ | ⟨-, -, resubscribes⟩ :=
        Handler.session_effect found handled
      · exact .of_data watches.settled.loading watches.data
          watches.dataExpirationMs
      · exact sameDb ▸ .refl env db
      · exact resubscribes.untouched.live

/-- A command reaches its handler and removes something live there. -/
def RemovesLive (env : Env) (name : Bytes) (command : ParsedCommand)
    (db : Database) (client : Client) : Prop :=
  ∃ between, route (CommandName.ofBytes name) command db client =
      .dispatched between ∧
    Removes env command.arguments between.dbindex db
      (CommandName.ofBytes name)

theorem dispatch_readonly
    {env : Env} {name : Bytes} {write : Bool} {command : ParsedCommand}
    {db : Database} {client : Client} {outcome : Outcome}
    (readonly : (commandProperties name).isReadonly = true)
    (dispatched : dispatch env name write command db client =
      some outcome) :
    SameLive env db outcome.db ↔
      ¬Removes env command.arguments client.dbindex db
        (CommandName.ofBytes name) := by
  unfold commandProperties at readonly
  unfold dispatch at dispatched
  cases named : CommandName.ofBytes name with
  | none =>
      rw [named] at readonly
      exact absurd readonly (by decide)
  | some known =>
      rw [named] at readonly
      dsimp only at dispatched
      rw [named, Option.bind_some] at dispatched
      split at dispatched
      · rename_i handler found
        exact (handler_readonly found readonly dispatched :)
      · rename_i missing
        cases dispatched
        refine iff_of_true (.of_data rfl rfl rfl) ?_
        rintro (⟨isThis, -⟩ | ⟨isThis, -⟩ | ⟨isThis, -⟩)
        all_goals
          cases isThis
          cases missing

/-- A READONLY command leaves the live keys as they are exactly if it does
not remove a part of them. -/
theorem readonly_live
    {world : World} {command : ParsedCommand} {db : Database}
    {client : Client} {outcome : Outcome} (name : Bytes)
    (named : commandName db command.arguments = .ok name)
    (readonly : (commandProperties name).isReadonly = true)
    (ran : RedVector.command world command db client = some outcome) :
    SameLive world.here db outcome.db ↔
      ¬RemovesLive world.here name command db client := by
  obtain ⟨executed, executes, rfl⟩ := Option.map_eq_some_iff.mp ran
  obtain ⟨noted, -⟩ := logged_noted world.here command executed
  have logs : SameLive world.here executed.db
      (logged world.here command executed).db :=
    .of_data noted.loading noted.data noted.dataExpirationMs
  have whole : SameLive world.here db
      (logged world.here command executed).db ↔
        SameLive world.here db executed.db := by
    constructor
    · exact fun same slot => (logs slot).symm.trans (same slot)
    · exact fun same => same.trans logs
  rw [whole]
  cases executeCommand_executes executes with
  | empty nothing =>
      have unnamed : commandName db command.arguments ≠ .ok name := by
        rw [nothing]
        nofun
      exact absurd named unnamed
  | unnamed something refused => cases named.symm.trans refused
  | answered something named' routed =>
      cases named.symm.trans named'
      refine iff_of_true (.refl world.here db) ?_
      rintro ⟨between, dispatched, -⟩
      cases routed.symm.trans dispatched
  | exec something named' routed execRan =>
      cases named.symm.trans named'
      unfold commandProperties at readonly
      rw [(route_exec routed).1] at readonly
      exact absurd readonly (by decide)
  | dispatched something named' routed dispatchRan =>
      cases named.symm.trans named'
      rw [dispatch_readonly readonly dispatchRan, not_iff_not]
      constructor
      · exact fun removes => ⟨_, routed, removes⟩
      · rintro ⟨between, dispatched, removes⟩
        cases routed.symm.trans dispatched
        exact removes

end Command

end

/-! ## A list of one element -/

section

attribute [local instance] Platform.integral

namespace Command

/-- A database with a list under a key. -/
def listStored : Database :=
  (Database.new {} none).put 0 (text "k") (.list [text "a"])

/-- LREM removes the list with its last element. -/
theorem readonly_not_sound :
    ¬∀ (world : World) (command : ParsedCommand) (db : Database)
      (client : Client) (outcome : Outcome) (name : Bytes),
      commandName db command.arguments = .ok name →
      (commandProperties name).isReadonly = true →
      RedVector.command world command db client = some outcome →
      SameLive world.here db outcome.db := by
  intro sound
  let world : World := fun _ => .still 0
  let lrem : ParsedCommand :=
    .encoded [text "LREM", text "k", text "0", text "a"] []
      ⟨by decide, by decide⟩
  obtain ⟨outcome, ran⟩ := Option.isSome_iff_exists.mp
    (show (RedVector.command world lrem listStored (.new 0)).isSome = true
      from by decide +kernel)
  have gone : (RedVector.command world lrem listStored (.new 0)).map
      (fun outcome => (outcome.db.live world.here (0, text "k")).isSome) =
        some false := by
    decide +kernel
  have same := sound world lrem listStored (.new 0) outcome (text "lrem")
    rfl (by decide) ran (0, text "k")
  rw [ran, Option.map_some, same] at gone
  revert gone
  decide +kernel

/-- LREM of an element that is not in the list leaves the list. -/
theorem readonly_live_kept :
    ∃ outcome, RedVector.command (fun _ => .still 0)
        (.encoded [text "LREM", text "k", text "0", text "b"] []
          ⟨by decide, by decide⟩) listStored (.new 0) = some outcome ∧
      SameLive (.still 0) listStored outcome.db := by
  obtain ⟨outcome, ran⟩ := Option.isSome_iff_exists.mp
    (show (RedVector.command (fun _ => .still 0)
      (.encoded [text "LREM", text "k", text "0", text "b"] []
        ⟨by decide, by decide⟩) listStored (.new 0)).isSome = true
      from by decide +kernel)
  refine ⟨outcome, ran, (readonly_live (text "lrem") rfl (by decide)
    ran).mpr ?_⟩
  rintro ⟨between, routed, ⟨-, removes⟩ | ⟨isLtrim, -⟩ | ⟨isSpop, -⟩⟩
  · obtain ⟨-, count, element, value, -, given, ⟨key, keyed, holds⟩,
      removed⟩ := removes
    have reached : route (some .lrem) (.encoded [text "LREM", text "k",
        text "0", text "b"] [] ⟨by decide, by decide⟩) listStored (.new 0) =
        .dispatched { Client.new 0 with auth := true } := rfl
    cases reached.symm.trans routed
    have isB : Arguments.getVec [text "LREM", text "k", text "0", text "b"]
        3 = .ok (text "b") := rfl
    cases isB.symm.trans given
    have isK : Arguments.getVec [text "LREM", text "k", text "0", text "b"]
        1 = .ok (text "k") := rfl
    cases isK.symm.trans keyed
    have stored : listStored.visible (.still 0) (0, text "k") =
        some (.list [text "a"]) := rfl
    cases stored.symm.trans holds
    obtain isEmpty | ⟨list, isList, member⟩ := removed
    · cases isEmpty
    · cases isList
      revert member
      decide
  · revert isLtrim
    decide
  · revert isSpop
    decide

end Command

end

end RedVector
