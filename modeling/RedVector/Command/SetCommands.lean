import RedVector.Command.Draws
import RedVector.Command.Overwrite
import RedVector.Effect.Runs

/-!
# Set commands as operations on sets of byte strings

The commands on sets, run one after another on a database of sets, give the
replies that sets of byte strings would give, as long as no number with a
sign meets a set of numbers.
-/

namespace RedVector

open Util Effect

section

variable [Platform]

/-! ## Keys that hold sets of byte strings -/

/-- A set of byte strings for every key. -/
abbrev KeySets := Bytes → Finset Bytes

/-- An algebraic operation that SDIFFSTORE, SINTERSTORE or SUNIONSTORE
stores the result of. -/
inductive SetOperation where
  | diff
  | inter
  | union

/-- What the operation makes of the sets of the keys. -/
def SetOperation.apply (operation : SetOperation) (sets : KeySets) (key : Bytes)
    (keys : List Bytes) : Finset Bytes :=
  match operation with
  | .diff => keys.foldl (fun elements other => elements \ sets other)
      (sets key)
  | .inter => keys.foldl (fun elements other => elements ∩ sets other)
      (sets key)
  | .union => keys.foldl (fun elements other => elements ∪ sets other)
      (sets key)

/-- A command on sets with its arguments. -/
inductive SetCommand where
  | sadd (key first : Bytes) (rest : List Bytes)
  | srem (key first : Bytes) (rest : List Bytes)
  | spop (key : Bytes) (count : Option Bytes)
  | smove (source destination member : Bytes)
  | store (operation : SetOperation) (destination key : Bytes)
      (keys : List Bytes)
  | sismember (key member : Bytes)
  | scard (key : Bytes)
  | smembers (key : Bytes)

namespace SetCommand

/-- How many members SPOP is asked for, unless it cannot be read. -/
def popCount : Option Bytes → Option Nat
  | none => some 1
  | some count =>
      if isUtf8 count then (parseI64 count).map asUsize else none

def popReply (count : Option Bytes) (popped : List Bytes) : Response :=
  match count with
  | none => Command.firstElement popped
  | some _ => Command.dataArray popped

/-- What SPOP pops is among the members, and no more is left out than it is
asked for.  A count that cannot be read pops nothing. -/
def Pops (sets : KeySets) (key : Bytes) (count : Option Bytes)
    (result : Except Response Response) (after : KeySets) : Prop :=
  match popCount count with
  | none => after = sets
  | some amount =>
      ∃ popped : List Bytes, popped.Nodup ∧ popped.toFinset ⊆ sets key ∧
        popped.length = min amount (sets key).card ∧
        result = .ok (popReply count popped) ∧
        after = Function.update sets key (sets key \ popped.toFinset)

/-- The reply of a command and the sets that it leaves, as for sets of byte
strings.  Which members are popped and how members are listed is free. -/
def Means (sets : KeySets) (result : Except Response Response)
    (after : KeySets) : SetCommand → Prop
  | sadd key first rest =>
      let added := (first :: rest).toFinset
      result = .ok (.integer (added \ sets key).card) ∧
        after = Function.update sets key (sets key ∪ added)
  | srem key first rest =>
      let removed := (first :: rest).toFinset
      result = .ok (.integer (removed ∩ sets key).card) ∧
        after = Function.update sets key (sets key \ removed)
  | spop key count => Pops sets key count result after
  | smove source destination member =>
      if member ∈ sets source then
        let left := Function.update sets source ((sets source).erase member)
        result = .ok (.integer 1) ∧
          after = Function.update left destination
            (insert member (left destination))
      else result = .ok (.integer 0) ∧ after = sets
  | store operation destination key keys =>
      let stored := operation.apply sets key keys
      result = .ok (.integer stored.card) ∧
        after = Function.update sets destination stored
  | sismember key member =>
      result = .ok (bit (member ∈ sets key)) ∧ after = sets
  | scard key => result = .ok (.integer (sets key).card) ∧ after = sets
  | smembers key =>
      (∃ listed : List Bytes, listed.Nodup ∧ listed.toFinset = sets key ∧
        result = .ok (Command.dataArray listed)) ∧ after = sets

/-- The argument vector of a command. -/
def arguments : SetCommand → Arguments
  | sadd key first rest => text "SADD" :: key :: first :: rest
  | srem key first rest => text "SREM" :: key :: first :: rest
  | spop key count => text "SPOP" :: key :: count.toList
  | smove source destination member =>
      [text "SMOVE", source, destination, member]
  | store .diff destination key keys =>
      text "SDIFFSTORE" :: destination :: key :: keys
  | store .inter destination key keys =>
      text "SINTERSTORE" :: destination :: key :: keys
  | store .union destination key keys =>
      text "SUNIONSTORE" :: destination :: key :: keys
  | sismember key member => [text "SISMEMBER", key, member]
  | scard key => [text "SCARD", key]
  | smembers key => [text "SMEMBERS", key]

/-- The handler of a command on its arguments. -/
def handle (command : SetCommand) (dbindex : Nat) : Writer Response :=
  let argv := command.arguments
  match command with
  | sadd _ _ _ => Command.sadd argv dbindex
  | srem _ _ _ => Command.srem argv dbindex
  | spop _ _ => Command.spop argv dbindex
  | smove _ _ _ => Command.smove argv dbindex
  | store .diff _ _ _ => Command.sdiffstore argv dbindex
  | store .inter _ _ _ => Command.sinterstore argv dbindex
  | store .union _ _ _ => Command.sunionstore argv dbindex
  | sismember _ _ => liftM (Command.sismember argv dbindex)
  | scard _ => liftM (Command.scard argv dbindex)
  | smembers _ => liftM (Command.smembers argv dbindex)

end SetCommand

/-! ## Databases of sets -/

namespace Database

/-- The set behind a key, which is empty when there is none. -/
def setAt (db : Database) (slot : Slot) : ValueSet :=
  match db.value slot with
  | some (.set set) => set
  | _ => .new

/-- The sets of byte strings of a database index. -/
def keySets (db : Database) (index : Nat) : KeySets :=
  fun key => (db.setAt (index, key)).members

/-- Every key of the index holds a set, and none of them expires. -/
structure OfSets (db : Database) (index : Nat) : Prop where
  isSet : ∀ key value, db.value (index, key) = some value →
    ∃ set, value = .set set ∧ set.Bounded
  persistent : ∀ key, db.expiration (index, key) = none

theorem ofSets_new (config : Config) (aof : Option Bytes) (index : Nat) :
    OfSets (.new config aof) index := by
  constructor
  · intro key value stored
    cases stored
  · intro key
    rfl

namespace OfSets

variable {db : Database} {index : Nat}

theorem alive (ofSets : OfSets db index) (env : Env) (key : Bytes) :
    db.lapsed env (index, key) = false := by
  rw [lapsed_eq, ofSets.persistent key]
  simp

theorem visible (ofSets : OfSets db index) (env : Env) (key : Bytes) :
    db.visible env (index, key) = db.value (index, key) := by
  unfold Database.visible
  rw [ofSets.alive env key]
  rfl

theorem bounded (ofSets : OfSets db index) (key : Bytes) :
    (db.setAt (index, key)).Bounded := by
  unfold setAt
  split
  · rename_i set stored
    obtain ⟨_, same, bounded⟩ := ofSets.isSet key _ stored
    cases same
    exact bounded
  · exact ValueSet.bounded_new

/-- A key either holds a set or does not exist. -/
theorem stored (ofSets : OfSets db index) (key : Bytes) :
    db.value (index, key) = none ∧ db.setAt (index, key) = .new ∨
      db.value (index, key) = some (.set (db.setAt (index, key))) := by
  unfold setAt
  cases held : db.value (index, key) with
  | none => exact .inl ⟨rfl, rfl⟩
  | some value =>
      obtain ⟨set, rfl, -⟩ := ofSets.isSet key value held
      exact .inr rfl

end OfSets

theorem Kept.setAt {db after : Database} (same : Kept db after) :
    after.setAt = db.setAt := by
  funext slot
  unfold Database.setAt
  rw [same.value]

theorem Kept.keySets {db after : Database} (same : Kept db after) :
    after.keySets = db.keySets := by
  funext index key
  unfold Database.keySets
  rw [same.setAt]

theorem setAt_put
    (db : Database) (index : Nat) (key : Bytes) (set : ValueSet)
    (other : Bytes) :
    (db.put index key (.set set)).setAt (index, other) =
      if other = key then set else db.setAt (index, other) := by
  unfold setAt
  rw [(put_sets db index key (.set set)).value]
  by_cases same : other = key
  · rw [if_pos (by rw [same]), if_pos same]
  · rw [if_neg (by simpa using same), if_neg same]

theorem keySets_put
    (db : Database) (index : Nat) (key : Bytes) (set : ValueSet) :
    (db.put index key (.set set)).keySets index =
      Function.update (db.keySets index) key set.members := by
  funext other
  unfold keySets
  rw [setAt_put]
  by_cases same : other = key
  · subst same
    rw [if_pos rfl, Function.update_self]
  · rw [if_neg same, Function.update_of_ne same]

/-- A value that stands for a set of byte strings. -/
inductive Holds : Value → Finset Bytes → Prop where
  | nil : Holds .nil ∅
  | set {set : ValueSet} (bounded : set.Bounded) :
      Holds (.set set) set.members

/-- The sets that are meant, less those that were evicted. -/
def Remains (limited : Bool) (meant after : KeySets) : Prop :=
  ∀ key, after key = meant key ∨ limited = true ∧ after key = ∅

/-- A state with the sets that are meant. -/
structure Yields (db : Database) (index : Nat) (meant : KeySets)
    (after : Database) : Prop where
  config : after.config = db.config
  ofSets : OfSets after index
  remains : Remains db.config.maxmemory.isSome meant (after.keySets index)

namespace Yields

variable {db middle after : Database} {index : Nat} {key : Bytes}
  {meant : KeySets} {env : Env}

theorem refl (ofSets : OfSets db index) :
    Yields db index (db.keySets index) db :=
  ⟨rfl, ofSets, fun _ => .inl rfl⟩

theorem kept (same : Kept db after) (ofSets : OfSets db index) :
    Yields db index (db.keySets index) after := by
  refine ⟨same.frame.config, ⟨?_, ?_⟩, ?_⟩
  · rw [same.value]
    exact ofSets.isSet
  · rw [same.expiration]
    exact ofSets.persistent
  · intro other
    left
    unfold keySets
    rw [same.setAt]

theorem of_config
    (yields : Yields middle index meant after)
    (same : middle.config = db.config) : Yields db index meant after := by
  refine ⟨yields.config.trans same, yields.ofSets, ?_⟩
  rw [← same]
  exact yields.remains

/-- The set of a key changes and other keys may be gone. -/
theorem slot
    (before : Yields db index meant middle)
    (config : after.config = middle.config)
    {content : Finset Bytes}
    (self : (after.value (index, key) = none ∧ content = ∅) ∨
      ∃ set : ValueSet, after.value (index, key) = some (.set set) ∧
        set.Bounded ∧ set.members = content)
    (persistent : after.expiration (index, key) = none)
    (others : ∀ other, other ≠ key →
      after.value (index, other) = middle.value (index, other) ∧
          after.expiration (index, other) =
            middle.expiration (index, other) ∨
        db.config.maxmemory.isSome = true ∧
          after.value (index, other) = none ∧
          after.expiration (index, other) = none) :
    Yields db index (Function.update meant key content) after := by
  refine ⟨config.trans before.config, ⟨?_, ?_⟩, ?_⟩
  · intro other value stored
    by_cases same : other = key
    · subst same
      rcases self with ⟨absent, -⟩ | ⟨set, held, bounded, -⟩
      · cases absent.symm.trans stored
      · cases held.symm.trans stored
        exact ⟨set, rfl, bounded⟩
    · rcases others other same with ⟨kept, -⟩ | ⟨-, gone, -⟩
      · exact before.ofSets.isSet other value (kept.symm.trans stored)
      · cases gone.symm.trans stored
  · intro other
    by_cases same : other = key
    · subst same
      exact persistent
    · rcases others other same with ⟨-, kept⟩ | ⟨-, -, gone⟩
      · exact kept.trans (before.ofSets.persistent other)
      · exact gone
  · intro other
    by_cases same : other = key
    · subst same
      left
      rw [Function.update_self]
      unfold keySets setAt
      rcases self with ⟨absent, empty⟩ | ⟨set, held, -, members⟩
      · rw [absent, empty]
        rfl
      · rw [held]
        exact members
    · rw [Function.update_of_ne same]
      rcases others other same with ⟨kept, -⟩ | ⟨limited, gone, -⟩
      · have unchanged : after.keySets index other =
            middle.keySets index other := by
          unfold keySets setAt
          rw [kept]
        rw [unchanged]
        exact before.remains other
      · right
        refine ⟨limited, ?_⟩
        unfold keySets setAt
        rw [gone]
        rfl

theorem sets
    (before : Yields db index meant middle) {set : ValueSet}
    (sets : Sets middle after (index, key) (some (.set set)) none)
    (bounded : set.Bounded) :
    Yields db index (Function.update meant key set.members) after := by
  apply before.slot sets.frame.config
  · exact .inr ⟨set, sets.value_self, bounded, rfl⟩
  · exact sets.expiration_self
  · intro other different
    left
    have apart : (index, other) ≠ (index, key) := by simpa using different
    rw [sets.value, sets.expiration, if_neg apart, if_neg apart]
    exact ⟨rfl, rfl⟩

theorem creates
    (before : Yields db index meant middle) {set : ValueSet}
    (creates : Creates env middle after (index, key) (.set set))
    (spare : middle.creationEvicts env index key = false →
      Sets middle after (index, key) (some (.set set))
        (middle.keptExpiration env (index, key)))
    (bounded : set.Bounded) :
    Yields db index (Function.update meant key set.members) after := by
  have persistent := keptExpiration_none
    (before.ofSets.persistent key) env
  rw [persistent] at spare
  cases limited : db.config.maxmemory with
  | none =>
      have unlimited : middle.config.maxmemory = none := by
        rw [before.config, limited]
      exact before.sets (spare (creationEvicts_unlimited unlimited env index
        key)) bounded
  | some maxmemory =>
      apply before.slot creates.frame.config
      · exact .inr ⟨set, creates.value, bounded, rfl⟩
      · exact creates.expiration.trans persistent
      · intro other different
        have apart : (index, other) ≠ (index, key) := by simpa using different
        rcases creates.others (index, other) apart with kept | gone
        · exact .inl kept
        · exact .inr ⟨by rw [limited]; rfl, gone⟩

theorem put
    (before : Yields db index meant middle) (key : Bytes) {set : ValueSet}
    (bounded : set.Bounded) :
    Yields db index (Function.update meant key set.members)
      (middle.put index key (.set set)) := by
  have puts := put_sets middle index key (.set set)
  rw [before.ofSets.persistent key] at puts
  exact before.sets puts bounded

/-- An update removes the key of an empty set and nothing else. -/
theorem keyUpdated
    (before : Yields db index meant middle)
    (updated : middle.keyUpdated env index key = some after) :
    Yields db index meant after := by
  obtain ⟨updates, -⟩ := keyUpdated_spec updated
  have vanishes : middle.vanishing (index, key) = true →
      middle.keySets index key = ∅ := by
    intro vanishing
    rcases before.ofSets.stored key with ⟨-, isNew⟩ | held
    · unfold keySets
      rw [isNew]
      rfl
    · have empty : (middle.setAt (index, key)).scard = 0 := by
        simpa [Database.vanishing, held, Value.isEmpty] using vanishing
      rw [← ValueSet.card_members] at empty
      exact Finset.card_eq_zero.mp empty
  refine ⟨updates.frame.config.trans before.config, ⟨?_, ?_⟩, ?_⟩
  · intro other value stored
    rw [updates.value] at stored
    split at stored
    · rename_i self
      cases self
      unfold surviving at stored
      split at stored
      · cases stored
      · exact before.ofSets.isSet key value stored
    · exact before.ofSets.isSet other value stored
  · intro other
    rw [updates.expiration]
    split
    · unfold surviving
      rw [before.ofSets.persistent key, ite_self]
    · exact before.ofSets.persistent other
  · intro other
    have same : after.keySets index other = middle.keySets index other := by
      by_cases self : other = key
      · subst self
        cases vanishing : middle.vanishing (index, other) with
        | true =>
            rw [vanishes vanishing]
            unfold keySets setAt
            rw [updates.value_self, surviving, vanishing]
            rfl
        | false =>
            unfold keySets setAt
            rw [updates.value_self, surviving, vanishing]
            rfl
      · have apart : (index, other) ≠ (index, key) := by simpa using self
        unfold keySets setAt
        rw [updates.value, if_neg apart]
    rw [same]
    exact before.remains other

/-- A value that was written whole. -/
theorem overwrites
    (ofSets : OfSets db index) {value : Value} {content : Finset Bytes}
    (holds : Holds value content)
    (overwrites : Overwrites env db after (index, key) value) :
    Yields db index (Function.update (db.keySets index) key content)
      after := by
  have persistent : after.expiration (index, key) = none :=
    overwrites.persistent (ofSets.persistent key)
  apply (refl ofSets).slot overwrites.frame.config
  · rw [overwrites.value]
    cases holds with
    | nil => exact .inl ⟨rfl, rfl⟩
    | @set set bounded =>
        by_cases empty : (Value.set set).isEmpty = true
        · left
          rw [if_pos empty]
          have none : set.scard = 0 := by simpa [Value.isEmpty] using empty
          rw [← ValueSet.card_members] at none
          exact ⟨rfl, Finset.card_eq_zero.mp none⟩
        · right
          rw [if_neg empty]
          exact ⟨set, rfl, bounded, rfl⟩
  · exact persistent
  · intro other different
    have apart : (index, other) ≠ (index, key) := by simpa using different
    cases limited : db.config.maxmemory with
    | none =>
        exact .inl (overwrites.spare
          (creationEvicts_unlimited limited env index key) _ apart)
    | some maxmemory =>
        rcases overwrites.others _ apart with kept | gone
        · exact .inl kept
        · exact .inr ⟨rfl, gone⟩

end Yields

end Database

namespace SetCommand

open Database

/-- Whether a command on a database of sets meets no number with a sign that
is taken for another byte string. -/
def Clear (db : Database) (index : Nat) : SetCommand → Prop
  | sadd key first rest =>
      ∀ front member back, first :: rest = front ++ member :: back →
        ¬(db.setAt (index, key)).convertsAfter db.config.setMaxIntsetEntries
          front member
  | srem key first rest =>
      ∀ front member back, first :: rest = front ++ member :: back →
        ¬(db.setAt (index, key)).confusesAfter front member
  | spop _ _ => True
  | smove source destination member =>
      (db.setAt (index, source)).confuses member = false ∧
        (member ∈ db.keySets index source →
          (db.setAt (index, destination)).converts
            db.config.setMaxIntsetEntries member = false)
  | store operation destination key keys =>
      let others := keys.map fun other => db.setAt (index, other)
      ¬ValueSet.rewrites (operation.apply (db.keySets index) key keys) ∧
        match operation with
        | .diff =>
            ¬(db.setAt (index, key)).diffConfuses others ∧
              (db.value (index, key) = none →
                db.keySets index destination = ∅)
        | .inter => ¬(db.setAt (index, key)).interConfuses others
        | .union => True
  | sismember key member => (db.setAt (index, key)).confuses member = false
  | scard _ => True
  | smembers _ => True

/-- A command does what it means to the sets of the database. -/
def Does (command : SetCommand) (db : Database) (index : Nat)
    (result : Except Response Response) (after : Database) : Prop :=
  ∃ meant, command.Means (db.keySets index) result meant ∧
    Yields db index meant after

/-! ## Adding and removing -/

omit [Platform] in
/-- The first of the elements is new or not, and so are the others. -/
theorem card_insert_sdiff
    {α : Type} [DecidableEq α] (first : α) (rest known : Finset α) :
    (insert first rest \ known).card =
      if first ∉ known then (rest \ insert first known).card + 1
      else (rest \ insert first known).card := by
  split
  · rename_i new
    have split : insert first rest \ known =
        insert first (rest \ insert first known) := by
      ext element
      simp only [Finset.mem_sdiff, Finset.mem_insert]
      by_cases same : element = first
      · subst same
        simp [new]
      · simp [same]
    rw [split, Finset.card_insert_of_notMem (by simp)]
  · rename_i old
    have old : first ∈ known := not_not.mp old
    rw [Finset.insert_eq_of_mem old, Finset.insert_sdiff_of_mem rest old]

omit [Platform] in
theorem card_insert_inter
    {α : Type} [DecidableEq α] (first : α) (rest known : Finset α) :
    (insert first rest ∩ known).card =
      if first ∈ known then (rest ∩ known.erase first).card + 1
      else (rest ∩ known.erase first).card := by
  split
  · rename_i member
    have split : insert first rest ∩ known =
        insert first (rest ∩ known.erase first) := by
      ext element
      simp only [Finset.mem_inter, Finset.mem_insert, Finset.mem_erase]
      by_cases same : element = first
      · subst same
        simp [member]
      · simp [same]
    rw [split, Finset.card_insert_of_notMem (by simp)]
  · rename_i absent
    rw [Finset.erase_eq_of_notMem absent,
      Finset.insert_inter_of_notMem absent]

/-- Elements that are added one by one are added together. -/
theorem countChanges_sadd
    {set : ValueSet} {maxIntSize : Nat} (elements : List Bytes)
    (bounded : set.Bounded)
    (clear : ∀ front member back, elements = front ++ member :: back →
      ¬set.convertsAfter maxIntSize front member) :
    ∃ after : ValueSet, Command.countChanges
        (fun val value => value.sadd val maxIntSize) elements (.set set) =
          (.ok (elements.toFinset \ set.members).card, .set after) ∧
      after.members = set.members ∪ elements.toFinset ∧ after.Bounded := by
  induction elements generalizing set with
  | nil => exact ⟨set, by simp [Command.countChanges], by simp, bounded⟩
  | cons first rest ih =>
      have plain : set.converts maxIntSize first = false := by
        apply Bool.eq_false_iff.mpr
        exact mt ValueSet.converts_iff.mp (clear [] first rest rfl)
      obtain ⟨answer, members, fits⟩ :=
        ValueSet.sadd_members bounded plain
      obtain ⟨after, counted, all, stays⟩ := ih fits (by
        intro front member back split later
        apply clear (first :: front) member back
        · rw [split]
          rfl
        · exact ValueSet.convertsAfter_sadd later)
      refine ⟨after, ?_, ?_, stays⟩
      · unfold Command.countChanges
        rw [Value.sadd]
        dsimp only
        rw [counted]
        dsimp only
        rw [answer, members, List.toFinset_cons, card_insert_sdiff]
        simp only [decide_eq_true_eq]
      · rw [all, members, List.toFinset_cons, Finset.insert_union,
          Finset.union_insert]

/-- A set that does not exist yet is an empty one. -/
theorem countChanges_sadd_nil
    (maxIntSize : Nat) (first : Bytes) (rest : List Bytes) :
    Command.countChanges (fun val value => value.sadd val maxIntSize)
        (first :: rest) .nil =
      Command.countChanges (fun val value => value.sadd val maxIntSize)
        (first :: rest) (.set .new) := by
  have added : (ValueSet.new.sadd first maxIntSize).1 = true := by
    unfold ValueSet.sadd ValueSet.new ValueSet.members
    dsimp only
    split
    · split
      · simp
      · simp
    · simp
  unfold Command.countChanges
  rw [Value.sadd, Value.sadd]
  dsimp only
  rw [added]

/-- Elements that are removed one by one are removed together. -/
theorem countChanges_srem
    {set : ValueSet} (elements : List Bytes) (bounded : set.Bounded)
    (clear : ∀ front member back, elements = front ++ member :: back →
      ¬set.confusesAfter front member) :
    ∃ after : ValueSet, Command.countChanges
        (fun val value => value.srem val) elements (.set set) =
          (.ok (elements.toFinset ∩ set.members).card, .set after) ∧
      after.members = set.members \ elements.toFinset ∧ after.Bounded := by
  induction elements generalizing set with
  | nil => exact ⟨set, by simp [Command.countChanges], by simp, bounded⟩
  | cons first rest ih =>
      have plain : set.confuses first = false := by
        apply Bool.eq_false_iff.mpr
        exact mt ValueSet.confuses_iff.mp (clear [] first rest rfl)
      obtain ⟨answer, members, fits⟩ :=
        ValueSet.srem_members bounded plain
      obtain ⟨after, counted, all, stays⟩ := ih fits (by
        intro front member back split later
        apply clear (first :: front) member back
        · rw [split]
          rfl
        · exact ValueSet.confusesAfter_srem later)
      refine ⟨after, ?_, ?_, stays⟩
      · unfold Command.countChanges
        rw [Value.srem]
        dsimp only
        rw [counted]
        dsimp only
        rw [answer, members, List.toFinset_cons, card_insert_inter]
        simp only [decide_eq_true_eq]
      · rw [all, members, List.toFinset_cons, Finset.sdiff_insert,
          Finset.erase_sdiff_comm]

/-- Nothing is removed from a set that does not exist. -/
theorem countChanges_srem_nil (elements : List Bytes) :
    Command.countChanges (fun val value => value.srem val) elements .nil =
      (.ok 0, .nil) := by
  induction elements with
  | nil => rfl
  | cons first rest ih =>
      unfold Command.countChanges
      rw [Value.srem]
      dsimp only
      rw [ih]
      rfl

variable {env : Env} {db : Database} {index : Nat}

/-- A change of the elements of a created set. -/
theorem ensures_changeElements
    {argv : Arguments} {key : Bytes} {elements : List Bytes}
    {method : Bytes → Value → Value.Change Bool} {count : Nat}
    {value : Value} {content : Finset Bytes} (ofSets : OfSets db index)
    (isKey : argv.getVec 1 = .ok key) (rest : argv.drop 2 = elements)
    (changes : Command.countChanges method elements
      ((db.value (index, key)).getD .nil) = (.ok count, value))
    (holds : Holds value content) :
    Ensures env (Command.changeElements argv index method)
      (fun result after => result = .ok (.integer count) ∧
        Yields db index (Function.update (db.keySets index) key content)
          after) db := by
  unfold Command.changeElements
  rw [isKey, rest]
  refine ensures_valid (fun _ _ => nofun) ?_
  intro _ same
  cases same
  refine ensures_createThen ?_
  intro answer changed middle called creates spare
  rw [changes] at called
  cases called
  refine ensures_keyUpdated ?_
  intro after updated
  refine Program.ensures_pure ⟨rfl, ?_⟩
  exact .overwrites ofSets holds
    (overwrites_of_creates creates spare updated)

theorem sadd_does
    {key first : Bytes} {rest : List Bytes} (ofSets : OfSets db index)
    (clear : (sadd key first rest).Clear db index) :
    Ensures env ((sadd key first rest).handle index)
      ((sadd key first rest).Does db index) db := by
  obtain ⟨after, counted, members, bounded⟩ :=
    countChanges_sadd (first :: rest) (ofSets.bounded key) clear
  have changes : Command.countChanges
      (fun val value => value.sadd val db.config.setMaxIntsetEntries)
      (first :: rest) ((db.value (index, key)).getD .nil) =
        (.ok ((first :: rest).toFinset \ db.keySets index key).card,
          .set after) := by
    rcases ofSets.stored key with ⟨absent, isNew⟩ | held
    · rw [absent, Option.getD_none, countChanges_sadd_nil, ← isNew]
      exact counted
    · rw [held]
      exact counted
  unfold handle Command.sadd
  refine Program.ensures_ofExcept_bind ?_ ?_
  · intro _ invalid
    cases invalid
  intro _ _
  refine ensures_config ?_
  refine Program.Ensures.mono
    (ensures_changeElements ofSets rfl rfl changes (.set bounded)) ?_
  intro result final does
  refine ⟨_, ⟨does.1, rfl⟩, ?_⟩
  have same : after.members =
      db.keySets index key ∪ (first :: rest).toFinset := members
  rw [← same]
  exact does.2

theorem srem_does
    {key first : Bytes} {rest : List Bytes} (ofSets : OfSets db index)
    (clear : (srem key first rest).Clear db index) :
    Ensures env ((srem key first rest).handle index)
      ((srem key first rest).Does db index) db := by
  obtain ⟨after, counted, members, bounded⟩ :=
    countChanges_srem (first :: rest) (ofSets.bounded key) clear
  have changes : ∃ value, Command.countChanges
      (fun val value => value.srem val) (first :: rest)
      ((db.value (index, key)).getD .nil) =
        (.ok ((first :: rest).toFinset ∩ db.keySets index key).card,
          value) ∧
      Holds value (db.keySets index key \ (first :: rest).toFinset) := by
    rcases ofSets.stored key with ⟨absent, isNew⟩ | held
    · have nothing : db.keySets index key = ∅ := by
        unfold keySets
        rw [isNew]
        rfl
      rw [absent, nothing, Option.getD_none, countChanges_srem_nil,
        Finset.inter_empty, Finset.empty_sdiff]
      exact ⟨.nil, rfl, .nil⟩
    · rw [held]
      have same : after.members =
          db.keySets index key \ (first :: rest).toFinset := members
      rw [← same]
      exact ⟨.set after, counted, .set bounded⟩
  obtain ⟨value, changes, holds⟩ := changes
  unfold handle Command.srem
  refine Program.ensures_ofExcept_bind ?_ ?_
  · intro _ invalid
    cases invalid
  intro _ _
  refine Program.Ensures.mono
    (ensures_changeElements ofSets rfl rfl changes holds) ?_
  intro result final does
  exact ⟨_, ⟨does.1, rfl⟩, does.2⟩

/-! ## Popping and moving -/

/-- What SPOP draws from a set. -/
theorem ensures_spopOf
    {β : Type} {set : ValueSet} {count : Nat}
    {rest : Value.Change (List Bytes) → Writer β}
    {post : Except Response β → Database → Prop}
    (step : ∀ popped : List Bytes, popped.Nodup →
      popped.toFinset ⊆ set.members →
      popped.length = min count set.members.card →
      Ensures env (rest (.ok popped, .set (set.removeAll popped))) post db) :
    Ensures env ((liftM (Command.spopOf (.set set) count) :
      Writer (Value.Change (List Bytes))) >>= rest) post db := by
  obtain ⟨popped, draws, apart, among, length⟩ :=
    Command.run_drawMembers env db set count
  have ran : ((Command.spopOf (.set set) count).lift readInclusion).run
      (machine env) db =
        some (.ok (.ok popped, .set (set.removeAll popped)), db) := by
    rw [Command.spopOf, Program.lift_bind, Program.run_bind, draws]
    rfl
  refine ensures_reader ?_ ?_
  · intro reply fails
    cases fails.symm.trans ran
  · intro change succeeds
    cases succeeds.symm.trans ran
    refine step popped apart ?_ ?_
    · exact fun element member => among element (List.mem_toFinset.mp member)
    · rw [length, ValueSet.card_members]

/-- A key of a database of sets that is looked up for writing. -/
theorem ensures_heldSet
    {β : Type} {key : Bytes} {rest : Option Value → Writer β}
    {post : Except Response β → Database → Prop} (ofSets : OfSets db index)
    (missing : ∀ middle, Kept db middle → db.keySets index key = ∅ →
      Ensures env (rest none) post middle)
    (found : ∀ middle, Kept db middle →
      Ensures env (rest (some (.set (db.setAt (index, key))))) post
        middle) :
    Ensures env (Db.getMut index key >>= rest) post db := by
  refine ensures_getMut ?_
  intro middle inside got
  obtain ⟨-, spec⟩ := getMut_spec got
  rw [if_neg (by simp [ofSets.alive env key])] at spec
  rw [ofSets.visible]
  rcases ofSets.stored key with ⟨absent, isNew⟩ | held
  · rw [absent]
    apply missing middle spec
    unfold keySets
    rw [isNew]
    rfl
  · rw [held]
    exact found middle spec

/-- The members that were drawn are written back without the set. -/
theorem ensures_popped
    {key : Bytes} {count : Option Bytes} {amount : Nat}
    {reply : List Bytes → Response} {middle : Database}
    (ofSets : OfSets db index)
    (yields : Yields db index (db.keySets index) middle)
    (isCount : popCount count = some amount)
    (isReply : popReply count = reply) :
    Ensures env (do
        let change ←
          (liftM (Command.spopOf (.set (db.setAt (index, key))) amount) :
            Writer (Value.Change (List Bytes)))
        Db.put index key change.2
        Db.keyUpdated index key
        pure (respond change.1 reply))
      ((spop key count).Does db index) middle := by
  refine ensures_spopOf ?_
  intro popped distinct among drawn
  refine ensures_put ?_
  intro _
  refine ensures_keyUpdated ?_
  intro after updated
  refine Program.ensures_pure ?_
  have bounded := ValueSet.removeAll_bounded (ofSets.bounded key) popped
  have left := yields.put key bounded
  rw [ValueSet.removeAll_members] at left
  refine ⟨_, ?_, left.keyUpdated updated⟩
  unfold Means Pops
  dsimp only
  rw [isCount, isReply]
  exact ⟨popped, distinct, among, drawn, rfl, rfl⟩

omit [Platform] in
theorem popCount_some (key count : Bytes) :
    popCount (some count) =
      (Arguments.getI64 [text "SPOP", key, count] 2).toOption.map
        asUsize := by
  have third : Arguments.getVec [text "SPOP", key, count] 2 = .ok count := rfl
  unfold popCount Arguments.getI64 Arguments.getStr
  rw [third]
  cases utf8 : isUtf8 count with
  | true =>
      cases parsed : parseI64 count with
      | some number => simp [bind, Except.bind, pure, Except.pure, utf8,
          parsed, Except.toOption]
      | none => simp [bind, Except.bind, pure, Except.pure, utf8, parsed,
          throw, throwThe, MonadExceptOf.throw, Except.toOption]
  | false => simp [bind, Except.bind, utf8, throw, throwThe,
      MonadExceptOf.throw, Except.toOption]

theorem spop_does
    {key : Bytes} {count : Option Bytes} (ofSets : OfSets db index) :
    Ensures env ((spop key count).handle index)
      ((spop key count).Does db index) db := by
  have missing : ∀ middle, Yields db index (db.keySets index) middle →
      db.keySets index key = ∅ →
      (spop key count).Does db index (.ok (popReply count [])) middle := by
    intro middle yields empty
    refine ⟨_, ?_, yields⟩
    unfold Means Pops
    dsimp only
    cases popCount count with
    | none => rfl
    | some amount =>
        refine ⟨[], .nil, by simp, by simp [empty], rfl, ?_⟩
        simp
  unfold handle Command.spop
  cases count with
  | none =>
      refine ensures_gte (fun _ few => ?_) fun _ => ?_
      · exact absurd few (Nat.not_lt.mpr (Nat.le_add_left 2 _))
      refine ensures_lte (fun _ many => ?_) fun _ => ?_
      · exact absurd many (by simp [arguments])
      refine ensures_valid (fun _ _ => nofun) ?_
      intro _ isKey
      cases isKey
      refine ensures_heldSet ofSets ?_ ?_
      · intro middle kept empty
        exact Program.ensures_pure
          (missing middle (.kept kept ofSets) empty)
      · intro middle kept
        have yields := Yields.kept kept ofSets
        dsimp only
        exact ensures_popped ofSets yields rfl rfl
  | some count =>
      refine ensures_gte (fun _ few => ?_) fun _ => ?_
      · exact absurd few (Nat.not_lt.mpr (Nat.le_add_left 2 _))
      refine ensures_lte (fun _ many => ?_) fun _ => ?_
      · exact absurd many (by simp [arguments])
      refine ensures_valid (fun _ _ => nofun) ?_
      intro _ isKey
      cases isKey
      refine ensures_heldSet ofSets ?_ ?_
      · intro middle kept empty
        exact Program.ensures_pure
          (missing middle (.kept kept ofSets) empty)
      · intro middle kept
        have yields := Yields.kept kept ofSets
        dsimp only
        have isReply : popReply (some count) = Command.dataArray := rfl
        have reads := popCount_some key count
        refine ensures_valid ?_ ?_
        · intro reply error invalid
          have invalid : Arguments.getI64 [text "SPOP", key, count] 2 =
              .error error := invalid
          rw [invalid] at reads
          refine ⟨_, ?_, yields⟩
          unfold Means Pops
          dsimp only
          rw [reads]
          rfl
        · intro number valid
          have valid : Arguments.getI64 [text "SPOP", key, count] 2 =
              .ok number := valid
          rw [valid] at reads
          exact ensures_popped ofSets yields reads isReply

/-- The destination of SMOVE does not store a signed number as another
one. -/
theorem converts_moved
    {source destination member : Bytes} {set : ValueSet}
    (ofSets : OfSets db index)
    (clear : (smove source destination member).Clear db index)
    (among : member ∈ db.keySets index source)
    (left : ((db.setAt (index, source)).srem member).2 = set) :
    (if destination = source then set
      else db.setAt (index, destination)).converts
        db.config.setMaxIntsetEntries member = false := by
  split
  · subst left
    have bounded := ofSets.bounded source
    cases held : db.setAt (index, source) with
    | data elements => rfl
    | integer numbers =>
        unfold keySets at among
        rw [held] at among bounded
        obtain ⟨number, -, read, written⟩ :=
          ValueSet.reads_of_mem bounded among
        have unsigned : signed member = false :=
          Bool.eq_false_iff.mpr fun sign =>
            signed_ne_natToString sign number written
        unfold ValueSet.srem
        dsimp only
        rw [read]
        dsimp only [ValueSet.converts]
        rw [unsigned, Bool.and_false]
  · exact clear.2 among

/-- Adding to the set of a key, which may not exist. -/
theorem sadd_getD
    (ofSets : OfSets db index) (key member : Bytes) (maxIntSize : Nat) :
    ∃ added, ((db.value (index, key)).getD .nil).sadd member maxIntSize =
      (.ok added, .set ((db.setAt (index, key)).sadd member maxIntSize).2) := by
  rcases ofSets.stored key with ⟨absent, isNew⟩ | held
  · rw [absent, isNew]
    exact ⟨true, rfl⟩
  · rw [held]
    exact ⟨_, rfl⟩

/-- A member that was removed from its source arrives at its destination. -/
theorem ensures_arrival
    {source destination member : Bytes} {stored : Database}
    (ofSets : OfSets stored index) (config : stored.config = db.config)
    (among : member ∈ db.keySets index source)
    (left : stored.keySets index = Function.update (db.keySets index) source
      ((db.keySets index source).erase member))
    (clear : (stored.setAt (index, destination)).converts
      db.config.setMaxIntsetEntries member = false) :
    Ensures env (do
        let config ← liftM Db.config
        match ← createThen index destination fun value =>
            some (value.sadd member config.setMaxIntsetEntries) with
        | .error _ => orPanic none
        | .ok _ => do
            Db.keyUpdated index source
            Db.keyUpdated index destination
            pure (.integer 1))
      ((smove source destination member).Does db index) stored := by
  rw [← config] at clear
  obtain ⟨added, adds⟩ := sadd_getD ofSets destination member
    stored.config.setMaxIntsetEntries
  obtain ⟨-, joined, fits⟩ :=
    ValueSet.sadd_members (ofSets.bounded destination) clear
  refine ensures_config ?_
  refine ensures_createThen ?_
  intro answer changed created called creates spare
  cases adds.symm.trans (Option.some.inj called)
  dsimp only
  refine ensures_keyUpdated ?_
  intro first updatedSource
  refine ensures_keyUpdated ?_
  intro after updatedDestination
  refine Program.ensures_pure ?_
  have yields := (((Yields.refl ofSets).creates creates spare
    fits).keyUpdated updatedSource).keyUpdated updatedDestination
  refine ⟨_, ?_, yields.of_config config⟩
  unfold Means
  dsimp only
  rw [if_pos among, joined, ← left]
  exact ⟨rfl, rfl⟩

theorem moveMember_does
    {source destination member : Bytes} (ofSets : OfSets db index)
    (clear : (smove source destination member).Clear db index) :
    Ensures env (Command.moveMember index source destination member)
      ((smove source destination member).Does db index) db := by
  obtain ⟨removed, members, bounded⟩ :=
    ValueSet.srem_members (ofSets.bounded source) clear.1
  have absent : ∀ after, Yields db index (db.keySets index) after →
      member ∉ db.keySets index source →
      (smove source destination member).Does db index (.ok (.integer 0))
        after := by
    intro after yields outside
    refine ⟨_, ?_, yields⟩
    unfold Means
    dsimp only
    rw [if_neg outside]
    exact ⟨rfl, rfl⟩
  unfold Command.moveMember mutThen
  rw [bind_assoc]
  refine ensures_heldSet ofSets ?_ ?_
  · intro middle kept empty
    refine Program.ensures_pure (absent middle (.kept kept ofSets) ?_)
    rw [empty]
    exact Finset.notMem_empty member
  · intro middle kept
    dsimp only
    rw [bind_assoc]
    refine Program.ensures_orPanic_bind ?_
    intro change called
    have isChange : change =
        (.ok (decide (member ∈ db.keySets index source)),
          .set ((db.setAt (index, source)).srem member).2) := by
      unfold keySets
      rw [← removed]
      exact (Option.some.inj called).symm
    subst isChange
    rw [bind_assoc]
    refine ensures_put ?_
    intro _
    have yields := (Yields.kept kept ofSets).put source bounded
    have left := keySets_put middle index source
      ((db.setAt (index, source)).srem member).2
    rw [members, kept.keySets] at left
    by_cases among : member ∈ db.keySets index source
    · rw [decide_eq_true among]
      refine ensures_arrival yields.ofSets yields.config among left ?_
      rw [setAt_put, kept.setAt]
      exact converts_moved ofSets clear among rfl
    · rw [decide_eq_false among]
      refine Program.ensures_pure (absent _ ?_ among)
      rw [members] at yields
      have same : (db.setAt (index, source)).members.erase member =
          db.keySets index source := Finset.erase_eq_of_notMem among
      rw [same, Function.update_eq_self] at yields
      exact yields

theorem smove_does
    {source destination member : Bytes} (ofSets : OfSets db index)
    (clear : (smove source destination member).Clear db index) :
    Ensures env ((smove source destination member).handle index)
      ((smove source destination member).Does db index) db := by
  have moves : Ensures env
      (Command.moveMember index source destination member)
      ((smove source destination member).Does db index) db :=
    moveMember_does ofSets clear
  unfold handle Command.smove
  refine ensures_exact (fun _ different => absurd rfl different) ?_
  intro _
  refine ensures_valid (fun _ _ => nofun) ?_
  intro _ isSource
  cases isSource
  refine ensures_valid (fun _ _ => nofun) ?_
  intro _ isDestination
  cases isDestination
  refine ensures_valid (fun _ _ => nofun) ?_
  intro _ isMember
  cases isMember
  refine ensures_get ?_
  intro _
  rw [ofSets.visible]
  rcases ofSets.stored destination with ⟨missing, -⟩ | held
  · rw [missing]
    exact moves
  · rw [held]
    exact moves

/-! ## Storing the result of an operation -/

theorem getSetList_values
    (env : Env) (ofSets : OfSets db index) (keys : List Bytes) :
    Value.getSetList (keys.map fun key =>
        (db.visible env (index, key)).getD .nil) =
      .ok (keys.map fun key => db.setAt (index, key)) := by
  induction keys with
  | nil => rfl
  | cons key keys ih =>
      rw [List.map_cons, List.map_cons, ofSets.visible]
      rcases ofSets.stored key with ⟨absent, isNew⟩ | held
      · rw [absent, isNew, Option.getD_none, Value.getSetList, ih]
        rfl
      · rw [held, Option.getD_some, Value.getSetList, ih]
        rfl

/-- The operations on the sets of keys are those on their members. -/
theorem apply_eq
    (ofSets : OfSets db index) (key : Bytes) (keys : List Bytes) :
    let others := keys.map fun other => db.setAt (index, other)
    (¬(db.setAt (index, key)).diffConfuses others →
      (db.setAt (index, key)).sdiff others =
        SetOperation.diff.apply (db.keySets index) key keys) ∧
    (¬(db.setAt (index, key)).interConfuses others →
      (db.setAt (index, key)).sinter others =
        SetOperation.inter.apply (db.keySets index) key keys) ∧
    (db.setAt (index, key)).sunion others =
      SetOperation.union.apply (db.keySets index) key keys := by
  intro others
  have bounded : ∀ other ∈ others, other.Bounded := by
    intro other among
    obtain ⟨name, -, rfl⟩ := List.mem_map.mp among
    exact ofSets.bounded name
  have all : ∀ holds : ValueSet → Prop, (∀ other ∈ others, holds other) ↔
      ∀ other ∈ keys, holds (db.setAt (index, other)) := by
    intro holds
    exact List.forall_mem_map
  have any : ∀ holds : ValueSet → Prop, (∃ other ∈ others, holds other) ↔
      ∃ other ∈ keys, holds (db.setAt (index, other)) := by
    intro holds
    simp only [others, List.mem_map, exists_exists_and_eq_and]
  refine ⟨?_, ?_, ?_⟩
  · intro clear
    ext element
    rw [ValueSet.sdiff_members (ofSets.bounded key) bounded clear, all]
    exact (ValueSet.mem_foldl_sdiff (db.keySets index) keys _ element).symm
  · intro clear
    ext element
    rw [ValueSet.sinter_members (ofSets.bounded key) bounded clear, all]
    exact (ValueSet.mem_foldl_inter (db.keySets index) keys _ element).symm
  · ext element
    rw [ValueSet.sunion_members, any]
    exact (ValueSet.mem_foldl_union (db.keySets index) keys _ element).symm

/-- A key that was removed holds nothing any more. -/
theorem ofSets_removed
    {between : Database} {key : Bytes} (ofSets : OfSets db index)
    (sets : Sets db between (index, key) none none) :
    OfSets between index ∧
      between.keySets index = Function.update (db.keySets index) key ∅ := by
  refine ⟨⟨?_, ?_⟩, ?_⟩
  · intro other value stored
    rw [sets.value] at stored
    split at stored
    · cases stored
    · exact ofSets.isSet other value stored
  · intro other
    rw [sets.expiration]
    split
    · rfl
    · exact ofSets.persistent other
  · funext other
    by_cases same : other = key
    · subst same
      rw [Function.update_self]
      unfold keySets setAt
      rw [sets.value_self]
      rfl
    · have apart : (index, other) ≠ (index, key) := by simpa using same
      rw [Function.update_of_ne same]
      unfold keySets setAt
      rw [sets.value, if_neg apart]

/-- A handler that stores the result of an operation removes the destination
and writes it whole. -/
theorem ensures_algebraStore
    {operation : List Value → Value → Operation (Finset Bytes)}
    {default : Option Value} {word destination key : Bytes}
    {keys : List Bytes} {post : Except Response Response → Database → Prop}
    (missing : (db.visible env (index, key)).or default = none →
      post (.ok (.integer 0)) db)
    (stores : ∀ value, (db.visible env (index, key)).or default =
        some value →
      ∃ computed, operation (keys.map fun other =>
          (db.visible env (index, other)).getD .nil) value = .ok computed ∧
        ∀ between after, Sets db between (index, destination) none none →
          Overwrites env between after (index, destination)
            (.createSet computed) →
          post (.ok (.integer computed.card)) after) :
    Ensures env (Command.setAlgebraStore operation default
      (word :: destination :: key :: keys) index) post db := by
  unfold Command.setAlgebraStore
  refine Program.ensures_ofExcept_bind ?_ ?_
  · intro _ invalid
    cases invalid
  intro _ _
  refine ensures_valid (fun _ _ => nofun) ?_
  intro _ isDestination
  cases isDestination
  refine ensures_valid (fun _ _ => nofun) ?_
  intro _ isKey
  cases isKey
  refine ensures_get ?_
  intro _
  cases first : (db.visible env (index, key)).or default with
  | none => exact Program.ensures_pure (missing first)
  | some value =>
      obtain ⟨computed, computes, finishes⟩ := stores value first
      refine Command.ensures_getValues ?_
      have isKeys : List.drop 3 (word :: destination :: key :: keys) =
          keys := rfl
      rw [isKeys, computes]
      refine ensures_remove ?_
      intro between _ removed
      refine ensures_overwrites ?_
      intro after overwrites
      exact Program.ensures_pure
        (finishes between after (remove_spec removed).2.1 overwrites)

theorem ensures_stored
    {operation : List Value → Value → Operation (Finset Bytes)}
    {default : Option Value} {word destination key : Bytes}
    {keys : List Bytes} {stored : Finset Bytes} (ofSets : OfSets db index)
    (computes : ∀ value, (db.value (index, key)).or default = some value →
      operation (keys.map fun other =>
        (db.visible env (index, other)).getD .nil) value = .ok stored)
    (nothing : (db.value (index, key)).or default = none →
      stored = ∅ ∧ db.keySets index destination = ∅)
    (clear : ¬ValueSet.rewrites stored) :
    Ensures env (Command.setAlgebraStore operation default
        (word :: destination :: key :: keys) index)
      (fun result after => result = .ok (.integer stored.card) ∧
        Yields db index
          (Function.update (db.keySets index) destination stored) after)
      db := by
  rw [← ofSets.visible env] at computes nothing
  refine ensures_algebraStore ?_ ?_
  · intro missing
    obtain ⟨empty, free⟩ := nothing missing
    rw [empty, ← free, Function.update_eq_self, free]
    exact ⟨rfl, .refl ofSets⟩
  · intro value first
    refine ⟨stored, computes value first, ?_⟩
    intro between after removed overwrites
    refine ⟨rfl, ?_⟩
    obtain ⟨isSets, same⟩ := ofSets_removed ofSets removed
    obtain ⟨members, bounded⟩ :=
      ValueSet.createWithHashset_members clear
    have yields := Yields.overwrites isSets (.set bounded) overwrites
    rw [members, same, Function.update_idem] at yields
    exact yields.of_config removed.frame.config

/-- A set of numbers or of byte strings that is missing is empty. -/
theorem keySets_none
    {key : Bytes} (ofSets : OfSets db index)
    (absent : db.value (index, key) = none) :
    db.setAt (index, key) = .new ∧ db.keySets index key = ∅ := by
  rcases ofSets.stored key with ⟨-, isNew⟩ | held
  · refine ⟨isNew, ?_⟩
    unfold keySets
    rw [isNew]
    rfl
  · cases absent.symm.trans held

/-- Nothing is left of the set of a missing key. -/
theorem apply_none
    {key : Bytes} (ofSets : OfSets db index)
    (absent : db.value (index, key) = none) (keys : List Bytes) :
    SetOperation.diff.apply (db.keySets index) key keys = ∅ ∧
      SetOperation.inter.apply (db.keySets index) key keys = ∅ := by
  have empty := (keySets_none ofSets absent).2
  constructor
  · apply Finset.eq_empty_of_forall_notMem
    intro element member
    have within := (ValueSet.mem_foldl_sdiff _ keys _ element).mp member
    rw [empty] at within
    exact Finset.notMem_empty element within.1
  · apply Finset.eq_empty_of_forall_notMem
    intro element member
    have within := (ValueSet.mem_foldl_inter _ keys _ element).mp member
    rw [empty] at within
    exact Finset.notMem_empty element within.1

theorem store_does
    {operation : SetOperation} {destination key : Bytes} {keys : List Bytes}
    (ofSets : OfSets db index)
    (clear : (store operation destination key keys).Clear db index) :
    Ensures env ((store operation destination key keys).handle index)
      ((store operation destination key keys).Does db index) db := by
  obtain ⟨plain, clear⟩ := clear
  have same := apply_eq ofSets key keys
  have values := getSetList_values env ofSets keys
  have stores : Ensures env
      ((store operation destination key keys).handle index)
      (fun result after => result = .ok (.integer
          (operation.apply (db.keySets index) key keys).card) ∧
        Yields db index (Function.update (db.keySets index) destination
          (operation.apply (db.keySets index) key keys)) after) db := by
    cases operation with
    | diff =>
        obtain ⟨clear, free⟩ := clear
        refine ensures_stored ofSets ?_ ?_ plain
        · intro value first
          rw [Option.or_none] at first
          rcases ofSets.stored key with ⟨absent, -⟩ | held
          · cases absent.symm.trans first
          · cases held.symm.trans first
            unfold Value.sdiff
            rw [values]
            exact congrArg Except.ok (same.1 clear)
        · intro missing
          rw [Option.or_none] at missing
          exact ⟨(apply_none ofSets missing keys).1, free missing⟩
    | inter =>
        refine ensures_stored ofSets ?_ ?_ plain
        · intro value first
          rcases ofSets.stored key with ⟨absent, -⟩ | held
          · rw [absent] at first
            cases first
            rw [(apply_none ofSets absent keys).2]
            rfl
          · rw [held] at first
            cases first
            unfold Value.sinter
            rw [values]
            exact congrArg Except.ok (same.2.1 clear)
        · intro missing
          cases (Option.or_eq_none_iff.mp missing).2
    | union =>
        refine ensures_stored ofSets ?_ ?_ plain
        · intro value first
          unfold Value.sunion
          rw [values]
          rcases ofSets.stored key with ⟨absent, isNew⟩ | held
          · rw [absent] at first
            cases first
            rw [isNew] at same
            exact congrArg Except.ok same.2.2
          · rw [held] at first
            cases first
            exact congrArg Except.ok same.2.2
        · intro missing
          cases (Option.or_eq_none_iff.mp missing).2
  exact stores.mono fun _ _ does => ⟨_, ⟨does.1, rfl⟩, does.2⟩

/-! ## Reading -/

/-- A command that only answers about the set of a key. -/
theorem ensures_answers
    {command : SetCommand} {key : Bytes}
    {answer : Option Value → Writer Response} (ofSets : OfSets db index)
    (absent : db.setAt (index, key) = .new → db.keySets index key = ∅ →
      Ensures env (answer none) (fun result after => after = db ∧
        command.Means (db.keySets index) result (db.keySets index)) db)
    (held : Ensures env (answer (some (.set (db.setAt (index, key)))))
      (fun result after => after = db ∧
        command.Means (db.keySets index) result (db.keySets index)) db) :
    Ensures env ((liftM (Db.get index key) : Writer (Option Value)) >>=
      answer) (command.Does db index) db := by
  refine ensures_get ?_
  intro _
  rw [ofSets.visible]
  rcases ofSets.stored key with ⟨missing, isNew⟩ | stored
  · rw [missing]
    refine (absent isNew (keySets_none ofSets missing).2).mono ?_
    intro result after ends
    rw [ends.1]
    exact ⟨_, ends.2, .refl ofSets⟩
  · rw [stored]
    refine held.mono ?_
    intro result after ends
    rw [ends.1]
    exact ⟨_, ends.2, .refl ofSets⟩

theorem handle_sismember (key member : Bytes) :
    (sismember key member).handle index =
      ((liftM (Db.get index key) : Writer (Option Value)) >>= fun found =>
        Program.lift readInclusion (match found with
          | some value => pure (respond (value.sismember member) bit)
          | none => pure (.integer 0))) :=
  rfl

theorem sismember_does
    {key member : Bytes} (ofSets : OfSets db index)
    (clear : (sismember key member).Clear db index) :
    Ensures env ((sismember key member).handle index)
      ((sismember key member).Does db index) db := by
  rw [handle_sismember]
  refine ensures_answers ofSets ?_ ?_
  · intro _ empty
    refine Program.ensures_pure ⟨rfl, ?_, rfl⟩
    rw [empty]
    rfl
  · refine Program.ensures_pure ⟨rfl, ?_, rfl⟩
    unfold Value.sismember
    dsimp only
    rw [ValueSet.sismember_members (ofSets.bounded key) clear]
    rfl

theorem handle_scard (key : Bytes) :
    (scard key).handle index =
      ((liftM (Db.get index key) : Writer (Option Value)) >>= fun found =>
        Program.lift readInclusion (match found with
          | none => pure (.integer 0)
          | some value => pure (respond value.scard fun count =>
              .integer count))) :=
  rfl

theorem scard_does {key : Bytes} (ofSets : OfSets db index) :
    Ensures env ((scard key).handle index) ((scard key).Does db index)
      db := by
  rw [handle_scard]
  refine ensures_answers ofSets ?_ ?_
  · intro _ empty
    refine Program.ensures_pure ⟨rfl, ?_, rfl⟩
    rw [empty]
    rfl
  · refine Program.ensures_pure ⟨rfl, ?_, rfl⟩
    unfold keySets
    rw [ValueSet.card_members]
    rfl

theorem handle_smembers (key : Bytes) :
    (smembers key).handle index =
      ((liftM (Db.get index key) : Writer (Option Value)) >>= fun found =>
        Program.lift readInclusion (match found with
          | none => pure (.array [])
          | some value => do
              let order ← Db.order
              pure (respond value.smembers fun els =>
                Command.dataArray (order els)))) :=
  rfl

theorem smembers_does {key : Bytes} (ofSets : OfSets db index) :
    Ensures env ((smembers key).handle index)
      ((smembers key).Does db index) db := by
  rw [handle_smembers]
  refine ensures_answers ofSets ?_ ?_
  · intro _ empty
    refine Program.ensures_pure ⟨rfl, ⟨[], .nil, ?_, rfl⟩, rfl⟩
    rw [empty]
    rfl
  · dsimp only
    rw [Program.lift_bind]
    refine ensures_order ?_
    refine Program.ensures_pure ⟨rfl, ⟨env.order (db.keySets index key),
      env.order_nodup _, ?_, rfl⟩, rfl⟩
    ext element
    rw [List.mem_toFinset, env.mem_order]

/-! ## Runs -/

/-- What a command on a database of sets does, whichever it is. -/
theorem handle_does
    {command : SetCommand} (ofSets : OfSets db index)
    (clear : command.Clear db index) :
    Ensures env (command.handle index) (command.Does db index) db := by
  cases command with
  | sadd key first rest => exact sadd_does ofSets clear
  | srem key first rest => exact srem_does ofSets clear
  | spop key count => exact spop_does ofSets
  | smove source destination member => exact smove_does ofSets clear
  | store operation destination key keys => exact store_does ofSets clear
  | sismember key member => exact sismember_does ofSets clear
  | scard key => exact scard_does ofSets
  | smembers key => exact smembers_does ofSets

end SetCommand

/-- A command on sets that was run in an environment, with its result. -/
structure SetCall where
  env : Env
  command : SetCommand
  result : Except Response Response

namespace SetCall

open Database

/-- The handler takes the database to another one with the result. -/
def Executes (index : Nat) (before : Database) (call : SetCall)
    (after : Database) : Prop :=
  (call.command.handle index).run (machine call.env) before =
    some (call.result, after)

/-- Sets of byte strings would give the result; `limited` tells whether keys
may be evicted. -/
def Replies (limited : Bool) (before : KeySets) (call : SetCall)
    (after : KeySets) : Prop :=
  ∃ meant, call.command.Means before call.result meant ∧
    Remains limited meant after

/-- A run of commands, each of which is clear where it starts. -/
theorem runs_replies
    {db after : Database} {index : Nat} {calls : List SetCall}
    (ofSets : OfSets db index)
    (run : Runs (fun before call between =>
      call.command.Clear before index ∧ call.Executes index before between)
      db calls after) :
    OfSets after index ∧
      Runs (Replies db.config.maxmemory.isSome) (db.keySets index) calls
        (after.keySets index) := by
  induction run with
  | done db => exact ⟨ofSets, .done _⟩
  | @next before between after call rest first others ih =>
      obtain ⟨clear, ran⟩ := first
      obtain ⟨meant, means, yields⟩ :=
        SetCommand.handle_does ofSets clear _ _ ran
      obtain ⟨stays, replies⟩ := ih yields.ofSets
      rw [yields.config] at replies
      exact ⟨stays, .next ⟨meant, means, yields.remains⟩ replies⟩

end SetCall

end

/-! ## A number with a sign -/

section

attribute [local instance] Platform.integral

namespace SetCall

open Database

/-- SADD of one number and SISMEMBER of another, in an empty database. -/
theorem adds_asks
    (added asked : Bytes)
    (both : (((SetCommand.sadd (text "k") added []).handle 0).run
      (machine (.still 0)) (.new {} none)).bind (fun ended =>
        (((SetCommand.sismember (text "k") asked).handle 0).run
          (machine (.still 0)) ended.2).map fun again =>
            (ended.1, again.1)) =
      some (.ok (.integer 1), .ok (.integer 1))) :
    ∃ between after,
      Executes 0 (.new {} none)
        ⟨.still 0, .sadd (text "k") added [], .ok (.integer 1)⟩ between ∧
      Executes 0 between
        ⟨.still 0, .sismember (text "k") asked, .ok (.integer 1)⟩ after := by
  obtain ⟨⟨first, between⟩, adds, rest⟩ := Option.bind_eq_some_iff.mp both
  obtain ⟨⟨second, after⟩, asks, results⟩ := Option.map_eq_some_iff.mp rest
  cases results
  exact ⟨between, after, adds, asks⟩

/-- The set {+5} answers that 5 is one of its members. -/
theorem runs_not_replies :
    ¬∀ (index : Nat) (db after : Database) (calls : List SetCall),
      OfSets db index → Runs (Executes index) db calls after →
      Runs (Replies db.config.maxmemory.isSome) (db.keySets index) calls
        (after.keySets index) := by
  intro replies
  obtain ⟨between, after, adds, asks⟩ :=
    adds_asks (text "+5") (text "5") rfl
  have run := replies 0 (.new {} none) after _ (ofSets_new {} none 0)
    (.next adds (.next asks (.done after)))
  cases run with
  | @next _ sets _ _ _ first others =>
      obtain ⟨meant, ⟨-, isMeant⟩, remains⟩ := first
      cases others with
      | next second _ =>
          obtain ⟨_, ⟨answer, -⟩, -⟩ := second
          have holds : sets (text "k") = {text "+5"} := by
            rcases remains (text "k") with same | evicted
            · rw [same, isMeant, Function.update_self]
              rfl
            · cases evicted.1
          have outside : text "5" ∉ ({text "+5"} : Finset Bytes) := by decide
          rw [holds, decide_eq_false outside] at answer
          have replied : (1 : Int) = 0 :=
            Response.integer.inj (Except.ok.inj answer)
          cases replied

/-- The set {5} answers that 5 is one of its members. -/
theorem runs_replies_unsigned :
    ∃ (after : Database) (calls : List SetCall), calls.length = 2 ∧
      Runs (Replies false) ((Database.new {} none).keySets 0) calls
        (after.keySets 0) := by
  obtain ⟨between, after, adds, asks⟩ :=
    adds_asks (text "5") (text "5") rfl
  have clear : (SetCommand.sadd (text "k") (text "5") []).Clear
      (.new {} none) 0 := by
    intro front member back split converted
    have among : member ∈ [text "5"] := by
      rw [split]
      simp
    cases List.mem_singleton.mp among
    exact absurd converted.1 (by decide)
  have alsoClear : (SetCommand.sismember (text "k") (text "5")).Clear
      between 0 :=
    ValueSet.confuses_unsigned (by decide) _
  have run := runs_replies (ofSets_new {} none 0)
    (.next ⟨clear, adds⟩ (.next ⟨alsoClear, asks⟩ (.done after)))
  exact ⟨after, _, rfl, run.2⟩

end SetCall

end

end RedVector
