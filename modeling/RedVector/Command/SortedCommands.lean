import RedVector.Command.Overwrite
import RedVector.Database.Stored
import RedVector.Effect.Runs
import RedVector.Value.SortedInvariant

/-!
# Sorted sets over whole runs

The commands that write sorted sets keep both halves of every stored sorted
set alike, as long as ZINCRBY does not run into NaN.
-/

namespace RedVector

open Util Effect Database

section

variable [Platform]

/-- A sorted set that may be stored: both halves agree, and it is not
empty. -/
def Value.Stocked : Value → Prop
  | .sortedSet zset => zset.Sound ∧ zset.skiplist ≠ []
  | _ => True

/-- A sorted set whose halves agree. -/
def Value.Sound : Value → Prop
  | .sortedSet zset => zset.Sound
  | _ => True

namespace Value

theorem Stocked.sound {value : Value} (stocked : value.Stocked) :
    value.Sound := by
  cases value with
  | sortedSet zset => exact stocked.1
  | _ => trivial

/-- What is not empty may be stored. -/
theorem Sound.stocked {value : Value} (sound : value.Sound)
    (nonempty : value.isEmpty = false) : value.Stocked := by
  cases value with
  | sortedSet zset =>
      refine ⟨sound, ?_⟩
      intro empty
      have none : zset.zcard = 0 := by
        unfold ValueSortedSet.zcard
        rw [ValueSortedSet.Sound.card_keys sound, empty]
        rfl
      have isEmpty : (Value.sortedSet zset).isEmpty = true := by
        simp [isEmpty, none]
      cases nonempty.symm.trans isEmpty
  | _ => trivial

theorem zadd_stocked
    {value : Value} (stocked : value.Stocked) (s : F64) (element : Bytes)
    (nx xx ch incr : Bool) :
    (value.zadd s element nx xx ch incr).2.Stocked := by
  cases value with
  | nil =>
      unfold zadd
      dsimp only
      split
      · trivial
      · rename_i absent
        split
        · rename_i changed after added
          refine ⟨ValueSortedSet.zadd_sound ValueSortedSet.sound_new added,
            ?_⟩
          exact ValueSortedSet.zadd_ne_nil added
            (.inr ⟨rfl, by simpa using absent⟩)
        · trivial
  | sortedSet zset =>
      unfold zadd
      dsimp only
      split
      · rename_i changed after added
        exact ⟨ValueSortedSet.zadd_sound stocked.1 added,
          ValueSortedSet.zadd_ne_nil added (.inl stocked.2)⟩
      · exact stocked
  | _ => trivial

/-- What adding one pair keeps, adding all of them keeps. -/
theorem zaddAll_keeps
    (holds : Value → Prop) {options : Command.ZaddOptions}
    (step : ∀ value s element, holds value →
      holds (value.zadd s element options.nx options.xx options.ch
        options.incr).2)
    {value : Value} (start : holds value) (pairs : List (F64 × Bytes)) :
    holds (Command.zaddAll options pairs value).2 := by
  induction pairs generalizing value with
  | nil => exact start
  | cons pair pairs ih =>
      have first := step value pair.1 pair.2 start
      unfold Command.zaddAll
      split
      · rename_i error after added
        rw [added] at first
        exact first
      · rename_i changed after added
        rw [added] at first
        have rest := ih first
        split
        · rename_i error last more
          rw [more] at rest
          exact rest
        · rename_i count last more
          rw [more] at rest
          exact rest

theorem zaddAll_stocked
    {value : Value} (stocked : value.Stocked)
    (options : Command.ZaddOptions) (pairs : List (F64 × Bytes)) :
    (Command.zaddAll options pairs value).2.Stocked :=
  zaddAll_keeps Value.Stocked (fun _ s element stocked =>
    zadd_stocked stocked s element options.nx options.xx options.ch
      options.incr) stocked pairs

theorem zincrby_stocked
    {value : Value} {increment : F64} {member : Bytes}
    (stocked : value.Stocked)
    (clear : ∀ zset, value = .sortedSet zset →
      ¬zset.Spoils increment member) :
    (value.zincrby increment member).2.Stocked := by
  cases value with
  | nil =>
      have added := zadd_stocked stocked increment member false false false
        false
      unfold zincrby
      dsimp only
      split
      · rename_i changed after isAdded
        rw [isAdded] at added
        exact added
      · rename_i error after isAdded
        rw [isAdded] at added
        exact added
  | sortedSet zset =>
      obtain ⟨sound, nonempty⟩ :=
        ValueSortedSet.zincrby_sound stocked.1 (clear zset rfl)
      exact ⟨sound, nonempty stocked.2⟩
  | _ => trivial

/-- A method that counts the members that it removes. -/
structure Removes (before : Value) (change : Value.Change Nat) : Prop where
  sound : change.2.Sound
  idle : (∀ count, change.1 = .ok count → count = 0) → change.2 = before

theorem zrem_each
    {zset : ValueSortedSet} (sound : zset.Sound) (members : List Bytes) :
    ∃ count after, Command.countChanges Value.zrem members
        (.sortedSet zset) = (.ok count, .sortedSet after) ∧
      after.Sound ∧ (count = 0 → after = zset) := by
  induction members generalizing zset with
  | nil => exact ⟨0, zset, rfl, sound, fun _ => rfl⟩
  | cons member members ih =>
      obtain ⟨left, same⟩ :=
        ValueSortedSet.zrem_sound sound member
      obtain ⟨count, after, counted, fits, idle⟩ := ih left
      have first : Value.zrem member (.sortedSet zset) =
          (.ok (zset.zrem member).1, .sortedSet (zset.zrem member).2) := rfl
      cases removed : (zset.zrem member).1 with
      | true =>
          refine ⟨count + 1, after, ?_, fits, nofun⟩
          unfold Command.countChanges
          rw [first, removed]
          dsimp only
          rw [counted]
          rfl
      | false =>
          refine ⟨count, after, ?_, fits, ?_⟩
          · unfold Command.countChanges
            rw [first, removed]
            dsimp only
            rw [counted]
            rfl
          · intro none
            exact (idle none).trans (same removed)

theorem zrem_removes
    {value : Value} (sound : value.Sound) (members : List Bytes) :
    Removes value (Command.countChanges Value.zrem members value) := by
  cases value with
  | sortedSet zset =>
      obtain ⟨count, after, counted, fits, idle⟩ := zrem_each sound members
      rw [counted]
      refine ⟨fits, ?_⟩
      intro none
      exact congrArg Value.sortedSet (idle (none count rfl))
  | nil =>
      have nothing : Command.countChanges Value.zrem members .nil =
          (.ok 0, .nil) := by
        induction members with
        | nil => rfl
        | cons member members ih =>
            unfold Command.countChanges
            rw [zrem]
            dsimp only
            rw [ih]
            rfl
      rw [nothing]
      exact ⟨trivial, fun _ => rfl⟩
  | _ =>
      cases members with
      | nil => exact ⟨trivial, fun _ => rfl⟩
      | cons member members => exact ⟨trivial, fun _ => rfl⟩

/-- The removal of a range, whichever kind it is. -/
theorem removedRange_removes
    {value : Value} {change : Value.Change Nat} (sound : value.Sound) :
    (∀ min max, value.zremrangebyscore min max = some change →
      Removes value change) ∧
    (∀ min max, value.zremrangebylex min max = some change →
      Removes value change) ∧
    (∀ start stop, value.zremrangebyrank start stop = some change →
      Removes value change) := by
  cases value with
  | sortedSet zset =>
      have settle : ∀ {count after}, (after.Sound ∧
          (count = 0 → after = zset)) →
          Removes (.sortedSet zset) (.ok count, .sortedSet after) := by
        intro count after spec
        refine ⟨spec.1, ?_⟩
        intro none
        exact congrArg Value.sortedSet (spec.2 (none count rfl))
      refine ⟨?_, ?_, ?_⟩
      · intro min max removed
        obtain ⟨⟨count, after⟩, ran, isChange⟩ :=
          Option.bind_eq_some_iff.mp removed
        cases isChange
        exact settle ((ValueSortedSet.zremrange_sound sound).1 min max ran)
      · intro min max removed
        obtain ⟨⟨count, after⟩, ran, isChange⟩ :=
          Option.bind_eq_some_iff.mp removed
        cases isChange
        exact settle
          ((ValueSortedSet.zremrange_sound sound).2.1 min max ran)
      · intro start stop removed
        obtain ⟨⟨count, after⟩, ran, isChange⟩ :=
          Option.bind_eq_some_iff.mp removed
        cases isChange
        exact settle
          ((ValueSortedSet.zremrange_sound sound).2.2 start stop ran)
  | _ =>
      refine ⟨?_, ?_, ?_⟩
      · intro min max removed
        cases removed
        exact ⟨trivial, fun _ => rfl⟩
      · intro min max removed
        cases removed
        exact ⟨trivial, fun _ => rfl⟩
      · intro start stop removed
        cases removed
        exact ⟨trivial, fun _ => rfl⟩

end Value

namespace Command

variable {env : Env} {db : Database} {argv : Arguments} {dbindex : Nat}

/-- Every stored sorted set is sound and not empty. -/
abbrev SortedSound (db : Database) : Prop :=
  Stored Value.Stocked db

/-- The update after a method that adds or that removes members. -/
theorem ensures_updateOnCount
    {key : Bytes} {before changed : Value} {answer : Operation Nat}
    (stored : StoredBut Value.Stocked (dbindex, key) db)
    (held : db.value (dbindex, key) = some changed)
    (stocked : before.Stocked)
    (how : changed.Stocked ∨ Value.Removes before (answer, changed)) :
    Ensures env (updateOnCount dbindex key answer)
      (fun _ after => SortedSound after) db := by
  have sound : changed.Sound := by
    rcases how with isStocked | removes
    · exact isStocked.sound
    · exact removes.sound
  have idle : (∀ count, answer = .ok count → count = 0) →
      SortedSound db := by
    intro none
    apply stored.all held
    rcases how with isStocked | removes
    · exact isStocked
    · have same : changed = before := removes.idle none
      rw [same]
      exact stocked
  unfold updateOnCount
  cases answer with
  | error error => exact Program.ensures_pure (idle nofun)
  | ok count =>
      dsimp only
      by_cases positive : 0 < count
      · rw [if_pos positive]
        refine ensures_keyUpdated ?_
        intro after updated
        exact Program.ensures_pure
          (stored.keyUpdated held sound.stocked updated)
      · rw [if_neg positive]
        refine Program.ensures_pure (idle ?_)
        intro other same
        cases same
        exact Nat.eq_zero_of_not_pos positive

theorem zadd_keeps (stored : SortedSound db) :
    Ensures env (zadd argv dbindex) (fun _ after => SortedSound after)
      db := by
  unfold zadd
  refine Program.ensures_ofExcept_bind (fun _ _ => stored) ?_
  intro options _
  refine ensures_valid (fun _ _ _ => stored) ?_
  intro key _
  refine ensures_createThen ?_
  intro answer changed after called creates _
  have stocked := stored.getD trivial (dbindex, key)
  refine ensures_updateOnCount (stored.creates creates) creates.value stocked
    (.inl ?_)
  have added := Value.zaddAll_stocked stocked options.1 options.2
  rw [Option.some.inj called] at added
  exact added

/-- A method that removes members of the value of a key. -/
theorem ensures_removal
    {key : Bytes} {method : Value → Option (Value.Change Nat)}
    (stored : SortedSound db)
    (removes : ∀ value change, value.Sound → method value = some change →
      Value.Removes value change) :
    Ensures env (removeRange dbindex key method)
      (fun _ after => SortedSound after) db := by
  unfold removeRange mutThen
  rw [bind_assoc]
  refine ensures_getMut ?_
  intro middle _ got
  have kept := stored.getMut got
  cases visible : db.visible env (dbindex, key) with
  | none => exact Program.ensures_pure kept
  | some value =>
      have stocked := stored.visible visible
      dsimp only
      rw [bind_assoc]
      refine Program.ensures_orPanic_bind ?_
      intro change called
      rw [bind_assoc]
      refine ensures_put ?_
      intro _
      exact ensures_updateOnCount (kept.but.put change.2)
        (put_sets middle dbindex key change.2).value_self stocked
        (.inr (removes value change stocked.sound called))

theorem zrem_keeps (stored : SortedSound db) :
    Ensures env (zrem argv dbindex) (fun _ after => SortedSound after)
      db := by
  unfold zrem
  refine Program.ensures_ofExcept_bind (fun _ _ => stored) ?_
  intro _ _
  refine ensures_valid (fun _ _ _ => stored) ?_
  intro key _
  refine ensures_removal stored ?_
  intro value change sound called
  cases called
  exact Value.zrem_removes sound _

theorem zremrangebyscore_keeps (stored : SortedSound db) :
    Ensures env (zremrangebyscore argv dbindex)
      (fun _ after => SortedSound after) db := by
  unfold zremrangebyscore
  refine ensures_exact (fun _ _ => stored) ?_
  intro _
  refine ensures_valid (fun _ _ _ => stored) ?_
  intro key _
  refine ensures_valid (fun _ _ _ => stored) ?_
  intro min _
  refine ensures_valid (fun _ _ _ => stored) ?_
  intro max _
  refine ensures_removal stored ?_
  intro value change sound called
  exact (Value.removedRange_removes sound).1 min max called

theorem zremrangebylex_keeps (stored : SortedSound db) :
    Ensures env (zremrangebylex argv dbindex)
      (fun _ after => SortedSound after) db := by
  unfold zremrangebylex
  refine ensures_exact (fun _ _ => stored) ?_
  intro _
  refine ensures_valid (fun _ _ _ => stored) ?_
  intro key _
  refine Program.ensures_ofExcept_bind (fun _ _ => stored) ?_
  intro min _
  refine Program.ensures_ofExcept_bind (fun _ _ => stored) ?_
  intro max _
  refine ensures_removal stored ?_
  intro value change sound called
  exact (Value.removedRange_removes sound).2.1 min max called

theorem zremrangebyrank_keeps (stored : SortedSound db) :
    Ensures env (zremrangebyrank argv dbindex)
      (fun _ after => SortedSound after) db := by
  unfold zremrangebyrank
  refine ensures_exact (fun _ _ => stored) ?_
  intro _
  refine ensures_valid (fun _ _ _ => stored) ?_
  intro key _
  refine ensures_valid (fun _ _ _ => stored) ?_
  intro start _
  refine ensures_valid (fun _ _ _ => stored) ?_
  intro stop _
  refine ensures_removal stored ?_
  intro value change sound called
  exact (Value.removedRange_removes sound).2.2 start stop called

/-- ZINCRBY runs into NaN for a member that it has taken out already. -/
def Spoils (argv : Arguments) (dbindex : Nat) (db : Database) : Prop :=
  argv.length = 4 ∧ ∃ key increment member zset,
    argv.getVec 1 = .ok key ∧ argv.getF64 2 = .ok increment ∧
    argv.getVec 3 = .ok member ∧
    db.value (dbindex, key) = some (.sortedSet zset) ∧
    zset.Spoils increment member

theorem zincrby_keeps
    (stored : SortedSound db) (clear : ¬Spoils argv dbindex db) :
    Ensures env (zincrby argv dbindex) (fun _ after => SortedSound after)
      db := by
  unfold zincrby
  refine ensures_exact (fun _ _ => stored) ?_
  intro exact
  refine ensures_valid (fun _ _ _ => stored) ?_
  intro key isKey
  refine ensures_getOrCreate ?_
  intro value created creation
  obtain ⟨isValue, creates⟩ := getOrCreate_creates creation
  have stocked : value.Stocked := by
    rw [isValue]
    exact stored.getD trivial (dbindex, key)
  have but := stored.creates creates
  have all : SortedSound created := but.all creates.value stocked
  refine ensures_valid (fun _ _ _ => all) ?_
  intro increment isIncrement
  refine ensures_valid (fun _ _ _ => all) ?_
  intro member isMember
  have kept : (value.zincrby increment member).2.Stocked := by
    apply Value.zincrby_stocked stocked
    rintro zset rfl spoils
    apply clear
    refine ⟨exact, key, increment, member, zset, isKey, isIncrement,
      isMember, ?_, spoils⟩
    cases held : db.value (dbindex, key) with
    | none =>
        rw [held] at isValue
        cases isValue
    | some found =>
        rw [held] at isValue
        exact congrArg some isValue.symm
  dsimp only
  refine ensures_put ?_
  intro _
  have held := (put_sets created dbindex key
    (value.zincrby increment member).2).value_self
  have others := but.put (value.zincrby increment member).2
  unfold updateOnSuccess
  cases (value.zincrby increment member).1 with
  | error error => exact Program.ensures_pure (others.all held kept)
  | ok newscore =>
      refine ensures_keyUpdated ?_
      intro after updated
      exact Program.ensures_pure
        (others.keyUpdated held (fun _ => kept) updated)

theorem stored_overwrites
    {holds : Value → Prop} {after : Database} {slot : Slot} {value : Value}
    (stored : Stored holds db)
    (overwrites : Overwrites env db after slot value)
    (isHeld : value.isEmpty = false → holds value) : Stored holds after := by
  intro other found isFound
  by_cases same : other = slot
  · subst same
    rw [overwrites.value] at isFound
    split at isFound
    · cases isFound
    · rename_i stays
      cases isFound
      exact isHeld (by simpa using stays)
  · rcases overwrites.others other same with kept | gone
    · exact stored other found (kept.1.symm.trans isFound)
    · cases gone.1.symm.trans isFound

/-- What is merged is sound, whatever is merged. -/
theorem merged_sound
    {ordered : Finset Bytes → List Bytes} {values : List Value}
    {weights : Option (List F64)} {aggregate : Aggregate} {value : Value} :
    (Value.zunion ordered values weights aggregate = some (.ok value) →
      value.Sound) ∧
    (Value.zinter ordered values weights aggregate = some (.ok value) →
      value.Sound) := by
  constructor
  · intro merged
    unfold Value.zunion at merged
    split at merged
    · cases merged
    · obtain ⟨result, isMerged, isValue⟩ :=
        Option.bind_eq_some_iff.mp merged
      cases isValue
      exact ValueSortedSet.zunion_sound isMerged
  · intro merged
    unfold Value.zinter at merged
    split at merged
    · cases merged
    · obtain ⟨result, isMerged, isValue⟩ :=
        Option.bind_eq_some_iff.mp merged
      cases isValue
      exact ValueSortedSet.zinter_sound isMerged

theorem zinterUnionStore_keeps
    {union : Bool} (stored : SortedSound db) :
    Ensures env (zinterUnionStore argv dbindex union)
      (fun _ after => SortedSound after) db := by
  unfold zinterUnionStore
  refine Program.ensures_ofExcept_bind (fun _ _ => stored) ?_
  intro _ _
  refine ensures_valid (fun _ _ _ => stored) ?_
  intro key _
  refine ensures_valid (fun _ _ _ => stored) ?_
  intro n _
  split
  · exact Program.ensures_pure stored
  · refine ensures_gte (fun _ _ => stored) ?_
    intro _
    refine ensures_getValues ?_
    refine Program.ensures_ofExcept_bind (fun _ _ => stored) ?_
    intro options _
    have stores : ∀ merged : Operation Value,
        (∀ value, merged = .ok value → value.Sound) →
        Ensures env (storeMerged dbindex key merged)
          (fun _ after => SortedSound after) db := by
      intro merged sound
      cases merged with
      | error error => exact Program.ensures_pure stored
      | ok value =>
          refine ensures_overwrites ?_
          intro after overwrites
          exact Program.ensures_pure
            (stored_overwrites stored overwrites (sound value rfl).stocked)
    cases union with
    | true =>
        refine ensures_op (.read (.zunion _ options.1 options.2)) ?_
        intro merged after performed
        obtain ⟨_, read, answered⟩ := Option.map_eq_some_iff.mp performed
        cases answered
        apply stores
        rintro value rfl
        exact merged_sound.1 read
    | false =>
        refine ensures_op (.read (.zinter _ options.1 options.2)) ?_
        intro merged after performed
        obtain ⟨_, read, answered⟩ := Option.map_eq_some_iff.mp performed
        cases answered
        apply stores
        rintro value rfl
        exact merged_sound.2 read

end Command

/-! ## Runs -/

/-- A command that writes sorted sets. -/
inductive SortedCommand where
  | zadd
  | zincrby
  | zrem
  | zremrangebyscore
  | zremrangebylex
  | zremrangebyrank
  | zunionstore
  | zinterstore

namespace SortedCommand

def handle : SortedCommand → Arguments → Nat → Writer Response
  | zadd => Command.zadd
  | zincrby => Command.zincrby
  | zrem => Command.zrem
  | zremrangebyscore => Command.zremrangebyscore
  | zremrangebylex => Command.zremrangebylex
  | zremrangebyrank => Command.zremrangebyrank
  | zunionstore => Command.zunionstore
  | zinterstore => Command.zinterstore

/-- A command that is not a ZINCRBY that runs into NaN. -/
def Clear (command : SortedCommand) (argv : Arguments) (dbindex : Nat)
    (db : Database) : Prop :=
  command = zincrby → ¬Command.Spoils argv dbindex db

theorem handle_keeps
    {env : Env} {db : Database} {command : SortedCommand}
    {argv : Arguments} {dbindex : Nat} (stored : Command.SortedSound db)
    (clear : command.Clear argv dbindex db) :
    Ensures env (command.handle argv dbindex)
      (fun _ after => Command.SortedSound after) db := by
  cases command with
  | zadd => exact Command.zadd_keeps stored
  | zincrby => exact Command.zincrby_keeps stored (clear rfl)
  | zrem => exact Command.zrem_keeps stored
  | zremrangebyscore => exact Command.zremrangebyscore_keeps stored
  | zremrangebylex => exact Command.zremrangebylex_keeps stored
  | zremrangebyrank => exact Command.zremrangebyrank_keeps stored
  | zunionstore => exact Command.zinterUnionStore_keeps stored
  | zinterstore => exact Command.zinterUnionStore_keeps stored

end SortedCommand

/-- A command on sorted sets that is run in an environment. -/
structure SortedCall where
  env : Env
  command : SortedCommand
  argv : Arguments
  dbindex : Nat

namespace SortedCall

/-- The handler takes the database to another one. -/
def Executes (before : Database) (call : SortedCall) (after : Database) :
    Prop :=
  ∃ result, (call.command.handle call.argv call.dbindex).run
    (machine call.env) before = some (result, after)

/-- Both halves of every sorted set agree, and so do the commands that read
them. -/
def Represented (db : Database) : Prop :=
  ∀ slot zset, db.value slot = some (.sortedSet zset) →
    zset.Sound ∧ (zset.skiplist.map SortedSetMember.s).Nodup ∧ zset.Agrees

/-- In every run without a ZINCRBY that runs into NaN the invariant holds. -/
theorem runs_represented
    {config : Config} {aof : Option Bytes} {calls : List SortedCall}
    {after : Database}
    (run : Runs (fun before call between =>
      call.command.Clear call.argv call.dbindex before ∧
        call.Executes before between) (.new config aof) calls after) :
    Represented after := by
  have stored : Command.SortedSound after := by
    refine run.invariant Command.SortedSound ?_ (stored_new _ config aof)
    intro before call between holds step
    obtain ⟨clear, result, ran⟩ := step
    exact SortedCommand.handle_keeps holds clear result between ran
  intro slot zset held
  obtain ⟨sound, nonempty⟩ := stored slot _ held
  exact ⟨sound, sound.once, sound.agrees nonempty⟩

end SortedCall

end

/-! ## An infinite score -/

section

attribute [local instance] Platform.extended

namespace SortedCall

/-- The lengths of the two halves of a sorted set. -/
def halves : Option Value → Nat × Nat
  | some (.sortedSet zset) => (zset.skiplist.length, zset.zcard)
  | _ => (0, 0)

/-- An infinite score and an increment by the opposite infinity. -/
theorem runs_not_represented :
    ¬∀ (config : Config) (aof : Option Bytes) (calls : List SortedCall)
      (after : Database),
      Runs (fun before call between => call.Executes before between)
        (.new config aof) calls after → Represented after := by
  intro represented
  have both : ((Command.zadd [text "ZADD", text "k", text "inf", text "m"]
      0).run (machine (.still 0)) (.new {} none)).bind (fun added =>
        ((Command.zincrby [text "ZINCRBY", text "k", text "-inf", text "m"]
          0).run (machine (.still 0)) added.2).map fun ended =>
            halves (ended.2.value (0, text "k"))) = some (0, 1) := by
    decide +kernel
  obtain ⟨⟨first, between⟩, added, rest⟩ := Option.bind_eq_some_iff.mp both
  obtain ⟨⟨second, after⟩, spoiled, lengths⟩ :=
    Option.map_eq_some_iff.mp rest
  have holds := represented {} none
    [⟨.still 0, .zadd, [text "ZADD", text "k", text "inf", text "m"], 0⟩,
      ⟨.still 0, .zincrby, [text "ZINCRBY", text "k", text "-inf", text "m"],
        0⟩] after (.next ⟨first, added⟩ (.next ⟨second, spoiled⟩
          (.done after))) (0, text "k")
  unfold halves at lengths
  split at lengths
  · rename_i zset held
    have same := (holds zset held).1.card_keys
    have listed := congrArg Prod.fst lengths
    have counted := congrArg Prod.snd lengths
    have counted : zset.hmap.keys.card = 1 := counted
    have listed : zset.skiplist.length = 0 := listed
    omega
  · cases lengths

/-- A member with a number for its score. -/
theorem runs_represented_added :
    ∃ after, Executes (.new {} none) ⟨.still 0, .zadd,
        [text "ZADD", text "k", text "inf", text "m"], 0⟩ after ∧
      Represented after := by
  have replied : ((Command.zadd [text "ZADD", text "k", text "inf",
      text "m"] 0).run (machine (.still 0)) (.new {} none)).map Prod.fst =
        some (.ok (.integer 1)) := by
    rfl
  obtain ⟨⟨result, after⟩, ran, -⟩ := Option.map_eq_some_iff.mp replied
  have step : Executes (.new {} none) ⟨.still 0, .zadd,
      [text "ZADD", text "k", text "inf", text "m"], 0⟩ after :=
    ⟨result, ran⟩
  exact ⟨after, step, runs_represented (.next ⟨nofun, step⟩ (.done after))⟩

end SortedCall

end

end RedVector
