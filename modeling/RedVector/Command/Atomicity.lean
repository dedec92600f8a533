import RedVector.Command.Failure
import RedVector.Command.Waiting

/-!
# Commands that fail

For every command, when exactly a reply with an error means that the keys are
as they were.  A command that creates its key before it fails revives a lapsed
value or leaves an empty one, a command that announces its errors removes an
empty value, and some commands have already written.
-/

namespace RedVector

open Util Effect Database

section

variable [Platform]

namespace Command

/-! ## The conditions -/

/-- The arguments pass the checks that a command makes in front of the first
key that it touches for writing. -/
def Accepted (argv : Arguments) : CommandName → Prop
  | .incr | .decr | .lpop | .rpop => argv.length = 2
  | .append | .bfAdd | .rpoplpush => argv.length = 3
  | .zincrby | .hset => argv.length = 4
  | .pfadd => 2 ≤ argv.length
  | .pfmerge | .bfMadd | .lpush | .rpush | .lpushx | .rpushx | .sadd
  | .srem => 3 ≤ argv.length
  | .incrby | .decrby => argv.length = 3 ∧ (argv.getI64 2).isOk = true
  | .incrbyfloat => argv.length = 3 ∧ (argv.getF64 2).isOk = true
  | .setrange => argv.length = 4 ∧
      ∃ index, argv.getI64 2 = .ok index ∧ 0 ≤ index
  | .setbit => argv.length = 4 ∧
      (∃ index, argv.getI64 2 = .ok index ∧ 0 ≤ index ∧
        index < 4 * 1024 * 1024 * 1024) ∧
      ∃ value, argv.getI64 3 = .ok value ∧ (value = 0 ∨ value = 1)
  | .bfReserve => argv.length = 4 ∧ (argv.getF64 2).isOk = true ∧
      ∃ capacity, argv.getI64 3 = .ok capacity ∧ 0 < capacity
  | .linsert => argv.length = 5 ∧ ∃ place, argv.getStr 2 = .ok place ∧
      (lowercase place = text "after" ∨ lowercase place = text "before")
  | .lrem | .lset => argv.length = 4 ∧ (argv.getI64 2).isOk = true
  | .ltrim => argv.length = 4 ∧ (argv.getI64 2).isOk = true ∧
      (argv.getI64 3).isOk = true
  | .brpoplpush => argv.length = 4 ∧ (argv.getI64 3).isOk = true
  | .spop => argv.length = 2 ∨
      argv.length = 3 ∧ (argv.getI64 2).isOk = true
  | .zadd => (zaddArguments argv).isOk = true
  | .hmset => 4 ≤ argv.length ∧ (argv.length - 1) % 2 = 1
  | .hincrby => argv.length = 4 ∧ (argv.getI64 3).isOk = true
  | .hincrbyfloat => argv.length = 4 ∧ (argv.getF64 3).isOk = true
  | _ => True

/-- An element that leaves the source finds its place: a destination that has
lapsed holds no other kind of value than a list. -/
def Lands (env : Env) (db : Database) (source destination : Slot) : Prop :=
  ∀ elements value, db.visible env source = some (.list elements) →
    elements ≠ [] → db.lapsed env destination = true →
    db.value destination = some value → value.llen.isOk = true

/-- When a failure after the checks of the arguments leaves the keys intact. -/
def Spared (env : Env) (db : Database) (argv : Arguments) (dbindex : Nat)
    (key : Bytes) : CommandName → Prop
  -- these create the key and do not announce the error
  | .append | .bfReserve | .bfAdd | .bfMadd | .sadd | .srem | .zadd | .hset
  | .hmset | .hincrby | .hincrbyfloat =>
      db.visible env (dbindex, key) ≠ none
  -- these create the key and announce the error
  | .setbit | .incr | .decr | .incrby | .decrby | .incrbyfloat | .pfadd
  | .lpush | .rpush => Solid env db (dbindex, key)
  -- the length is checked after the creation
  | .setrange => ∀ index value length, argv.getI64 2 = .ok index →
      argv[3]? = some value →
      usize (index.toNat + value.length : Nat) = some length →
      if length ≤ maxStringLength then Solid env db (dbindex, key)
      else db.visible env (dbindex, key) ≠ none
  -- these announce the error if the key is there
  | .lpushx | .rpushx | .lpop | .rpop | .linsert | .lrem | .lset | .ltrim
  | .spop => Whole env db (dbindex, key)
  -- the string is stored anew
  | .pfmerge => ∀ value bytes, db.visible env (dbindex, key) = some value →
      value.get = .ok bytes → .setString bytes = value
  -- the member has left the skip list when the sum is not a number
  | .zincrby => db.visible env (dbindex, key) ≠ none ∧
      ∀ score member zset old, argv.getF64 2 = .ok score →
        argv[3]? = some member →
        db.visible env (dbindex, key) = some (.sortedSet zset) →
        zset.hmap.lookup member = some old →
        Platform.f64IsNan (Platform.f64Add old score) = true →
        OrderedSkipList.remove (.new old member) zset.skiplist =
          zset.skiplist
  | .rpoplpush | .brpoplpush => ∀ destination,
      argv[2]? = some destination →
      Lands env db (dbindex, key) (dbindex, destination)
  | _ => True

/-- The condition on the arguments and the state. -/
def Spares (env : Env) (db : Database) (argv : Arguments) (dbindex : Nat)
    (known : CommandName) : Prop :=
  Accepted argv known →
    OnFirst argv fun key => Spared env db argv dbindex key known

section Handlers

variable {α : Type} {asReply : α → Option Response} {env : Env}
  {db between : Database} {argv : Arguments} {dbindex : Nat} {key : Bytes}
  {known : CommandName}

/-- Arguments that are refused. -/
theorem reverts_refused
    {reply : Response} (refused : ¬Accepted argv known) :
    Reverts asReply env db (Spares env db argv dbindex known) (.error reply)
      db :=
  reverts_intact (.refl env db) fun accepted => absurd accepted refused

theorem reverts_refusal
    {value : α} (refused : ¬Accepted argv known) :
    Reverts asReply env db (Spares env db argv dbindex known) (.ok value)
      db :=
  reverts_intact (.refl env db) fun accepted => absurd accepted refused

theorem spares_iff
    (accepted : Accepted argv known) (named : argv[1]? = some key) :
    Spared env db argv dbindex key known ↔
      Spares env db argv dbindex known := by
  rw [onFirst_iff (fun key => Spared env db argv dbindex key known) named]
  constructor
  · exact fun holds _ => holds
  · exact fun spares => spares accepted

omit [Platform] in
theorem not_ok {ε : Type} {read : Except ε α} {error : ε}
    (failed : read = .error error) : ¬read.isOk = true := by
  rw [failed]
  exact Bool.false_ne_true

omit [Platform] in
theorem is_ok {ε : Type} {read : Except ε α} {value : α}
    (succeeded : read = .ok value) : read.isOk = true := by
  rw [succeeded]
  rfl

omit [Platform] in
theorem bit_plain (on : Bool) : (bit on).isError = false :=
  rfl

/-! ### Strings -/

theorem append_reverts (unlimited : db.config.maxmemory = none) :
    Ensures env (append argv dbindex)
      (Reverts some env db (Spares env db argv dbindex .append)) db := by
  unfold Command.append
  refine ensures_exact (fun _ refused => reverts_refused refused) ?_
  intro accepted
  refine ensures_vec (by omega) ?_
  intro key named
  refine ensures_vec (by omega) ?_
  intro val _
  refine ensures_getOrCreate ?_
  intro oldval created creation
  have sets := getOrCreate_sets
    (creationEvicts_unlimited unlimited env dbindex key) creation
  rw [(getOrCreate_creates creation).1] at sets
  have iff : Intact env db created ↔ Spares env db argv dbindex .append :=
    (sets.created_iff.trans created_live_iff).trans
      (spares_iff (show Accepted argv .append from accepted) named)
  split
  · exact Program.ensures_pure fun _ _ _ => iff
  · rename_i oldlen measured
    apply ensures_validate
    · exact fun _ _ _ _ _ => iff
    · intro _
      obtain ⟨length, appended⟩ := Value.append_of_strlen measured val
      cases called : oldval.append val with
      | mk result changed =>
        rw [called] at appended
        dsimp only at appended ⊢
        refine ensures_put ?_
        intro _
        refine ensures_keyUpdated ?_
        intro after _
        apply Program.ensures_pure
        apply reverts_plain
        rw [appended]
        rfl

theorem setrange_reverts (unlimited : db.config.maxmemory = none) :
    Ensures env (setrange argv dbindex)
      (Reverts some env db (Spares env db argv dbindex .setrange)) db := by
  unfold Command.setrange
  refine ensures_exact (fun _ wrong => reverts_refused
    fun accepted => wrong accepted.1) ?_
  intro four
  refine ensures_vec (by omega) ?_
  intro key named
  refine ensures_valid (fun _ _ failed => reverts_refused ?_) ?_
  · rintro ⟨-, index, read, -⟩
    cases failed.symm.trans read
  intro index isIndex
  split
  · rename_i negative
    refine Program.ensures_pure (reverts_refusal ?_)
    rintro ⟨-, other, read, positive⟩
    cases isIndex.symm.trans read
    omega
  · rename_i positive
    have accepted : Accepted argv .setrange :=
      ⟨four, index, isIndex, by omega⟩
    refine ensures_vec (by omega) ?_
    intro value isValue
    refine ensures_get ?_
    intro _
    split
    · exact Program.ensures_pure (reverts_plain rfl)
    · refine ensures_getOrCreate ?_
      intro oldval created creation
      obtain ⟨isOld, -⟩ := getOrCreate_creates creation
      have sets := getOrCreate_sets
        (creationEvicts_unlimited unlimited env dbindex key) creation
      apply Program.ensures_orPanic_bind
      intro length measured
      have only : Spares env db argv dbindex .setrange ↔
          if length ≤ maxStringLength then Solid env db (dbindex, key)
          else db.visible env (dbindex, key) ≠ none := by
        rw [← spares_iff accepted named]
        constructor
        · intro spared
          exact spared index value length isIndex isValue measured
        · intro holds index' value' length' read listed measured'
          cases isIndex.symm.trans read
          cases isValue.symm.trans listed
          cases measured.symm.trans measured'
          exact holds
      apply ensures_validate
      · intro _ long _ _ _
        rw [only, if_neg long]
        rw [isOld] at sets
        exact sets.created_iff.trans created_live_iff
      · intro short
        rw [if_pos short] at only
        apply reverts_congr _ only.symm
        cases called : oldval.setrange index.toNat value with
        | mk result changed =>
          dsimp only
          refine ensures_put ?_
          intro _
          apply announced_reverts
          · exact fun _ => rfl
          · intro error after failed updated
            subst failed
            have puts := put_sets created dbindex key changed
            rw [sets.expiration_self] at puts
            have same := Value.setrange_atomic index.toNat value oldval error
              changed (congrArg some called)
            rw [same, isOld] at puts
            rw [same, isOld] at updated
            exact ((sets.trans puts).updated_iff updated).trans solid_iff

theorem setbit_reverts (unlimited : db.config.maxmemory = none) :
    Ensures env (setbit argv dbindex)
      (Reverts some env db (Spares env db argv dbindex .setbit)) db := by
  unfold setbit
  refine ensures_exact (fun _ wrong => reverts_refused
    fun accepted => wrong accepted.1) ?_
  intro four
  refine ensures_vec (by omega) ?_
  intro key named
  refine ensures_valid (fun _ _ failed => reverts_refused ?_) ?_
  · rintro ⟨-, ⟨index, read, -⟩, -⟩
    cases failed.symm.trans read
  intro index isIndex
  refine ensures_validate (fun _ outside => reverts_refused ?_) ?_
  · rintro ⟨-, ⟨other, read, inside⟩, -⟩
    cases isIndex.symm.trans read
    exact outside inside
  intro inside
  refine ensures_valid (fun _ _ failed => reverts_refused ?_) ?_
  · rintro ⟨-, -, value, read, -⟩
    cases failed.symm.trans read
  intro value isValue
  refine ensures_validate (fun _ other => reverts_refused ?_) ?_
  · rintro ⟨-, -, found, read, isBit⟩
    cases isValue.symm.trans read
    exact other isBit
  intro isBit
  apply reverts_congr (announcedCreation_reverts unlimited
    (Value.setbit_atomic index.toNat (value == 1)) bit_plain)
  exact spares_iff
    (show Accepted argv .setbit from
      ⟨four, ⟨index, isIndex, inside⟩, value, isValue, isBit⟩) named

theorem genericIncr_reverts
    (unlimited : db.config.maxmemory = none) (increment : Int)
    (some' : 1 < argv.length)
    (same : ∀ key, argv[1]? = some key →
      (Solid env db (dbindex, key) ↔ spared)) :
    Ensures env (genericIncr argv dbindex increment)
      (Reverts some env db spared) db := by
  unfold genericIncr
  refine ensures_vec some' ?_
  intro key named
  apply reverts_congr (announcedCreation_reverts unlimited
    (Value.incr_atomic increment) fun _ => rfl)
  exact same key named

theorem incr_reverts (unlimited : db.config.maxmemory = none) :
    Ensures env (incr argv dbindex)
      (Reverts some env db (Spares env db argv dbindex .incr)) db := by
  unfold incr
  refine ensures_exact (fun _ refused => reverts_refused refused) ?_
  intro accepted
  apply genericIncr_reverts unlimited 1 (by omega)
  intro key named
  exact spares_iff (show Accepted argv .incr from accepted) named

theorem decr_reverts (unlimited : db.config.maxmemory = none) :
    Ensures env (decr argv dbindex)
      (Reverts some env db (Spares env db argv dbindex .decr)) db := by
  unfold decr
  refine ensures_exact (fun _ refused => reverts_refused refused) ?_
  intro accepted
  apply genericIncr_reverts unlimited (-1) (by omega)
  intro key named
  exact spares_iff (show Accepted argv .decr from accepted) named

theorem incrby_reverts (unlimited : db.config.maxmemory = none) :
    Ensures env (incrby argv dbindex)
      (Reverts some env db (Spares env db argv dbindex .incrby)) db := by
  unfold incrby
  refine ensures_exact (fun _ wrong => reverts_refused
    fun accepted => wrong accepted.1) ?_
  intro three
  split
  · rename_i increment read
    apply genericIncr_reverts unlimited increment (by omega)
    intro key named
    exact spares_iff (show Accepted argv .incrby from ⟨three, is_ok read⟩)
      named
  · rename_i failed
    exact Program.ensures_pure (reverts_refusal
      fun accepted => not_ok failed accepted.2)

theorem decrby_reverts (unlimited : db.config.maxmemory = none) :
    Ensures env (decrby argv dbindex)
      (Reverts some env db (Spares env db argv dbindex .decrby)) db := by
  unfold decrby
  refine ensures_exact (fun _ wrong => reverts_refused
    fun accepted => wrong accepted.1) ?_
  intro three
  split
  · rename_i decrement read
    apply Program.ensures_orPanic_bind
    intro increment _
    apply genericIncr_reverts unlimited increment (by omega)
    intro key named
    exact spares_iff (show Accepted argv .decrby from ⟨three, is_ok read⟩)
      named
  · rename_i failed
    exact Program.ensures_pure (reverts_refusal
      fun accepted => not_ok failed accepted.2)

theorem incrbyfloat_reverts (unlimited : db.config.maxmemory = none) :
    Ensures env (incrbyfloat argv dbindex)
      (Reverts some env db (Spares env db argv dbindex .incrbyfloat)) db := by
  unfold incrbyfloat
  refine ensures_exact (fun _ wrong => reverts_refused
    fun accepted => wrong accepted.1) ?_
  intro three
  refine ensures_vec (by omega) ?_
  intro key named
  refine ensures_valid (fun _ _ failed => reverts_refused
    fun accepted => not_ok failed accepted.2) ?_
  intro increment read
  apply reverts_congr (announcedCreation_reverts unlimited
    (Value.incrbyfloat_atomic increment) fun _ => rfl)
  exact spares_iff
    (show Accepted argv .incrbyfloat from ⟨three, is_ok read⟩) named

/-! ### HyperLogLogs and Bloom filters -/

theorem presentValues_total (keys : List Bytes) :
    (presentValues dbindex keys).Total := by
  induction keys with
  | nil => exact Program.total_pure []
  | cons key rest ih =>
      unfold presentValues
      apply Program.total_bind (Program.total_perform _)
      intro found
      cases found with
      | none => exact ih
      | some value =>
          apply Program.total_bind ih
          exact fun values => Program.total_pure _

theorem pfadd_reverts (unlimited : db.config.maxmemory = none) :
    Ensures env (pfadd argv dbindex)
      (Reverts some env db (Spares env db argv dbindex .pfadd)) db := by
  unfold pfadd
  refine ensures_gte (fun _ few => reverts_refused few.not_ge) ?_
  intro accepted
  refine ensures_vec (by omega) ?_
  intro key named
  apply reverts_congr (announcedCreation_reverts unlimited
    (Value.pfadd_atomic (argv.drop 2)) bit_plain)
  exact spares_iff (show Accepted argv .pfadd from accepted) named

theorem bfReserve_reverts (unlimited : db.config.maxmemory = none) :
    Ensures env (bfReserve argv dbindex)
      (Reverts some env db (Spares env db argv dbindex .bfReserve)) db := by
  unfold bfReserve
  refine ensures_exact (fun _ wrong => reverts_refused
    fun accepted => wrong accepted.1) ?_
  intro four
  refine ensures_vec (by omega) ?_
  intro key named
  refine ensures_valid (fun _ _ failed => reverts_refused
    fun accepted => not_ok failed accepted.2.1) ?_
  intro errorRate isRate
  refine ensures_valid (fun _ _ failed => reverts_refused ?_) ?_
  · rintro ⟨-, -, capacity, read, -⟩
    cases failed.symm.trans read
  intro capacity isCapacity
  split
  · rename_i low
    refine Program.ensures_pure (reverts_refusal ?_)
    rintro ⟨-, -, other, read, positive⟩
    cases isCapacity.symm.trans read
    omega
  · rename_i positive
    apply reverts_congr (created_reverts unlimited
      (Value.bfReserve_atomic errorRate capacity.toNat) fun _ => rfl)
    exact spares_iff (show Accepted argv .bfReserve from
      ⟨four, is_ok isRate, capacity, isCapacity, by omega⟩) named

theorem bfAdd_reverts (unlimited : db.config.maxmemory = none) :
    Ensures env (bfAdd argv dbindex)
      (Reverts some env db (Spares env db argv dbindex .bfAdd)) db := by
  unfold bfAdd
  refine ensures_exact (fun _ refused => reverts_refused refused) ?_
  intro accepted
  refine ensures_vec (by omega) ?_
  intro key named
  refine ensures_vec (by omega) ?_
  intro item _
  apply reverts_congr (created_reverts unlimited (Value.bfAdd_atomic item)
    bit_plain)
  exact spares_iff (show Accepted argv .bfAdd from accepted) named

theorem bfMadd_reverts (unlimited : db.config.maxmemory = none) :
    Ensures env (bfMadd argv dbindex)
      (Reverts some env db (Spares env db argv dbindex .bfMadd)) db := by
  unfold bfMadd
  refine ensures_gte (fun _ few => reverts_refused few.not_ge) ?_
  intro accepted
  refine ensures_vec (by omega) ?_
  intro key named
  apply reverts_congr (created_reverts unlimited
    (bfAddAll_atomic (argv.drop 2)) fun _ => rfl)
  exact spares_iff (show Accepted argv .bfMadd from accepted) named

/-- The target of a merge that fails is stored as it was read. -/
theorem pfmerge_reverts (unlimited : db.config.maxmemory = none) :
    Ensures env (pfmerge argv dbindex)
      (Reverts some env db (Spares env db argv dbindex .pfmerge)) db := by
  unfold Command.pfmerge
  refine ensures_gte (fun _ few => reverts_refused few.not_ge) ?_
  intro accepted
  refine ensures_vec (by omega) ?_
  intro key named
  refine ensures_get ?_
  intro _
  -- the rest of the handler, for the value that the key is taken to have
  have rest : ∀ val : Value,
      ((if val.isEmpty then none else some val) =
          db.visible env (dbindex, key) ↔
        Spared env db argv dbindex key .pfmerge) →
      Ensures env (mergeSketches argv dbindex key val)
        (Reverts some env db (Spares env db argv dbindex .pfmerge)) db := by
    intro val same
    refine ensures_total_reader (presentValues_total _) ?_
    intro values
    apply Program.ensures_orPanic_bind
    intro change called
    obtain ⟨merged, changed⟩ := change
    dsimp only
    refine ensures_getOrCreate ?_
    intro old created creation
    refine ensures_put ?_
    intro _
    apply announced_reverts
    · exact fun _ => rfl
    · intro error after failed updated
      subst failed
      have sets := getOrCreate_sets
        (creationEvicts_unlimited unlimited env dbindex key) creation
      have puts := put_sets created dbindex key changed
      rw [sets.expiration_self] at puts
      rw [Value.pfmerge_atomic values val error changed called] at puts updated
      have iff := (sets.trans puts).updated_iff updated
      exact (iff.trans (eq_comm.trans same)).trans
        (spares_iff (show Accepted argv .pfmerge from accepted) named)
  have only : Spared env db argv dbindex key .pfmerge ↔
      Spares env db argv dbindex .pfmerge :=
    spares_iff (show Accepted argv .pfmerge from accepted) named
  cases visible : db.visible env (dbindex, key) with
  | none =>
      apply rest .nil
      constructor
      · intro _ value bytes live
        cases visible.symm.trans live
      · exact fun _ => visible.symm
  | some value =>
      apply ensures_valid
      · intro _ error failed
        apply reverts_intact (.refl env db)
        apply only.mp
        intro other bytes live read
        cases visible.symm.trans live
        cases failed.symm.trans read
      · intro bytes read
        apply rest (.setString bytes)
        change some (Value.setString bytes) = _ ↔ _
        rw [visible]
        constructor
        · intro same other bytes' live read'
          cases visible.symm.trans live
          cases read.symm.trans read'
          exact Option.some.inj same
        · exact fun spared => congrArg some (spared value bytes visible read)

/-! ### Lists -/

/-- A method on the value of a key if there is one, with its errors
announced. -/
theorem mutAndUpdate_reverts
    {method : Value → Option (Value.Change α)} {ok : α → Response}
    {missing : Response} (atomic : Value.Atomic method)
    (plain : ∀ value, (ok value).isError = false) :
    Ensures env (mutAndUpdate dbindex key method ok missing)
      (Reverts some env db (Whole env db (dbindex, key))) db := by
  unfold mutAndUpdate
  refine ensures_found ?_ ?_
  · intro between invisible intact absent
    refine ensures_keyUpdated ?_
    intro after updated
    apply Program.ensures_pure
    apply reverts_intact (intact.trans (keyUpdated_absent absent updated))
    intro value visible
    cases invisible.symm.trans visible
  · intro value answer changed between visible called sets
    apply announced_reverts plain
    intro error after failed updated
    subst failed
    rw [atomic _ _ _ called] at sets
    rw [sets.updated_iff updated, visible]
    constructor
    · intro same other found
      cases visible.symm.trans found
      cases empty : value.isEmpty with
      | true =>
          rw [empty, if_pos rfl] at same
          cases same
      | false => rfl
    · intro whole
      rw [whole value visible]
      rfl

theorem genericPop_reverts
    {right : Bool} (two : Accepted argv known ↔ argv.length = 2)
    (same : ∀ key, argv[1]? = some key → Accepted argv known →
      (Whole env db (dbindex, key) ↔ Spares env db argv dbindex known)) :
    Ensures env (genericPop argv dbindex right)
      (Reverts some env db (Spares env db argv dbindex known)) db := by
  unfold genericPop
  refine ensures_exact (fun _ wrong => reverts_refused
    fun accepted => wrong (two.mp accepted)) ?_
  intro accepted
  refine ensures_vec (by omega) ?_
  intro key named
  apply reverts_congr (mutAndUpdate_reverts (Value.pop_atomic right) ?_)
  · exact same key named (two.mpr accepted)
  · intro popped
    cases popped with
    | none => rfl
    | some val => rfl

theorem lpop_reverts :
    Ensures env (lpop argv dbindex)
      (Reverts some env db (Spares env db argv dbindex .lpop)) db := by
  apply genericPop_reverts Iff.rfl
  intro key named accepted
  exact spares_iff accepted named

theorem rpop_reverts :
    Ensures env (rpop argv dbindex)
      (Reverts some env db (Spares env db argv dbindex .rpop)) db := by
  apply genericPop_reverts Iff.rfl
  intro key named accepted
  exact spares_iff accepted named

theorem linsert_reverts :
    Ensures env (linsert argv dbindex)
      (Reverts some env db (Spares env db argv dbindex .linsert)) db := by
  unfold linsert
  refine ensures_exact (fun _ wrong => reverts_refused
    fun accepted => wrong accepted.1) ?_
  intro five
  refine ensures_vec (by omega) ?_
  intro key named
  refine ensures_valid (fun _ _ failed => reverts_refused ?_) ?_
  · rintro ⟨-, place, read, -⟩
    cases failed.symm.trans read
  intro place isPlace
  refine ensures_vec (by omega) ?_
  intro pivot _
  refine ensures_vec (by omega) ?_
  intro value _
  have inserts : ∀ before : Bool,
      (lowercase place = text "after" ∨ lowercase place = text "before") →
      Ensures env (mutAndUpdate dbindex key
          (fun list => some (list.linsert before pivot value))
          insertedReply (.integer (-1)))
        (Reverts some env db (Spares env db argv dbindex .linsert)) db := by
    intro before isPlace'
    apply reverts_congr (mutAndUpdate_reverts
      (Value.linsert_atomic before pivot value) ?_)
    · exact spares_iff (show Accepted argv .linsert from
        ⟨five, place, isPlace, isPlace'⟩) named
    · intro inserted
      cases inserted with
      | none => rfl
      | some length => rfl
  split
  · rename_i isAfter
    exact inserts false (.inl isAfter)
  · rename_i notAfter
    split
    · rename_i isBefore
      exact inserts true (.inr isBefore)
    · rename_i notBefore
      refine Program.ensures_throw (reverts_refused ?_)
      rintro ⟨-, other, read, isPlace'⟩
      cases isPlace.symm.trans read
      exact isPlace'.elim notAfter notBefore

theorem lrem_reverts :
    Ensures env (lrem argv dbindex)
      (Reverts some env db (Spares env db argv dbindex .lrem)) db := by
  unfold lrem
  refine ensures_exact (fun _ wrong => reverts_refused
    fun accepted => wrong accepted.1) ?_
  intro four
  refine ensures_vec (by omega) ?_
  intro key named
  refine ensures_valid (fun _ _ failed => reverts_refused
    fun accepted => not_ok failed accepted.2) ?_
  intro count read
  refine ensures_vec (by omega) ?_
  intro value _
  apply reverts_congr (mutAndUpdate_reverts ?_ fun _ => rfl)
  · exact spares_iff (show Accepted argv .lrem from ⟨four, is_ok read⟩) named
  · intro list error after failed
    obtain ⟨limit, -, called⟩ := Option.bind_eq_some_iff.mp failed
    exact Value.lrem_atomic _ _ _ _ _ _ called

theorem lset_reverts :
    Ensures env (lset argv dbindex)
      (Reverts some env db (Spares env db argv dbindex .lset)) db := by
  unfold lset
  refine ensures_exact (fun _ wrong => reverts_refused
    fun accepted => wrong accepted.1) ?_
  intro four
  refine ensures_vec (by omega) ?_
  intro key named
  refine ensures_valid (fun _ _ failed => reverts_refused
    fun accepted => not_ok failed accepted.2) ?_
  intro index read
  refine ensures_vec (by omega) ?_
  intro value _
  apply reverts_congr (mutAndUpdate_reverts (Value.lset_atomic index value)
    fun _ => rfl)
  exact spares_iff (show Accepted argv .lset from ⟨four, is_ok read⟩) named

theorem ltrim_reverts :
    Ensures env (ltrim argv dbindex)
      (Reverts some env db (Spares env db argv dbindex .ltrim)) db := by
  unfold ltrim
  refine ensures_exact (fun _ wrong => reverts_refused
    fun accepted => wrong accepted.1) ?_
  intro four
  refine ensures_vec (by omega) ?_
  intro key named
  refine ensures_valid (fun _ _ failed => reverts_refused
    fun accepted => not_ok failed accepted.2.1) ?_
  intro start isStart
  refine ensures_valid (fun _ _ failed => reverts_refused
    fun accepted => not_ok failed accepted.2.2) ?_
  intro stop isStop
  apply reverts_congr (mutAndUpdate_reverts (Value.ltrim_atomic start stop)
    fun _ => rfl)
  exact spares_iff (show Accepted argv .ltrim from
    ⟨four, is_ok isStart, is_ok isStop⟩) named

/-- A push that fails leaves the key as it was first created, for it is the
first of them that fails. -/
theorem pushAll_fails
    {right create : Bool} {vals : List Bytes} {r : Response} (old : Value)
    {value : Value} (unlimited : db.config.maxmemory = none)
    (sets : Sets db between (dbindex, key) (some value)
      (db.keptExpiration env (dbindex, key)))
    (how : value = old ∨ ∃ elements, value = .list elements)
    (start : r.isError = true → value = old) :
    Ensures env (pushAll dbindex key right create vals r)
      (fun result after => ∀ reply, replied some result = some reply →
        reply.isError = true →
        (∃ response, result = .ok response) ∧
        Sets db after (dbindex, key) (some old)
          (db.keptExpiration env (dbindex, key))) between := by
  induction vals generalizing r between value with
  | nil =>
      apply Program.ensures_pure
      intro reply said failed
      cases said
      rw [start failed] at sets
      exact ⟨⟨_, rfl⟩, sets⟩
  | cons val rest ih =>
      unfold pushAll
      have again : between.keptExpiration env (dbindex, key) =
          db.keptExpiration env (dbindex, key) :=
        keptExpiration_again sets.frame.loading sets.expiration_self
      -- one push, then the others
      have continued : ∀ answer changed after,
          value.push val right = (answer, changed) →
          Sets between after (dbindex, key) (some changed)
            (between.keptExpiration env (dbindex, key)) →
          Ensures env (pushAll dbindex key right create rest
              (respond answer fun length => .integer length))
            (fun result after => ∀ reply, replied some result = some reply →
              reply.isError = true →
              (∃ response, result = .ok response) ∧
              Sets db after (dbindex, key) (some old)
                (db.keptExpiration env (dbindex, key))) after := by
        intro answer changed after called pushed
        rw [again] at pushed
        cases answer with
        | error error =>
            have same := Value.push_atomic val right value error changed
              (congrArg some called)
            have isOld : value = old := by
              rcases how with same | ⟨elements, isList⟩
              · exact same
              · rw [isList] at called
                cases called
            rw [same] at pushed
            exact ih (sets.trans pushed) (.inl isOld) fun _ => isOld
        | ok length =>
            have isList : ∃ elements, changed = .list elements := by
              cases value with
              | nil =>
                  cases called
                  exact ⟨_, rfl⟩
              | list elements =>
                  cases called
                  exact ⟨_, rfl⟩
              | _ => cases called
            exact ih (sets.trans pushed) (.inr isList) (by rintro ⟨⟩)
      cases create with
      | true =>
          simp only [if_true, map_eq_pure_bind, bind_assoc]
          refine ensures_created ?_ ?_
          · rw [sets.frame.config]
            exact unlimited
          · intro answer changed after called pushed
            rw [sets.value_self] at called
            exact continued answer changed after (Option.some.inj called)
              pushed
      | false =>
          simp only [Bool.false_eq_true, if_false]
          refine ensures_found ?_ ?_
          · intro after _ _ _
            apply Program.ensures_throw
            intro reply said failed
            cases said
            cases failed
          · intro found answer changed after visible called pushed
            have stored := (visible_eq_some.mp visible).2
            cases sets.value_self.symm.trans stored
            exact continued answer changed after (Option.some.inj called)
              pushed

/-- A live value is the only one that a slot holds. -/
theorem solid_iff_whole
    {slot : Slot} (live : db.visible env slot ≠ none) :
    Solid env db slot ↔ Whole env db slot := by
  obtain ⟨value, visible⟩ := Option.ne_none_iff_exists'.mp live
  obtain ⟨alive, stored⟩ := visible_eq_some.mp visible
  unfold Solid Whole
  rw [stored, visible, alive]
  constructor
  · exact fun solid other same => (solid other same).symm
  · exact fun whole other same => (whole other same).symm

/-- Pushes that fail leave the value under the key, which is live unless it
was created. -/
structure PushFails (create : Bool) (env : Env) (db : Database) (slot : Slot)
    (result : Except Response Response) (after : Database) : Prop where
  answers : ∃ response, result = .ok response
  sets : Sets db after slot (some ((db.value slot).getD .nil))
    (db.keptExpiration env slot)
  live : create = false → db.visible env slot ≠ none

theorem pushAll_pushFails
    {right create : Bool} {val : Bytes} {vals : List Bytes}
    (unlimited : db.config.maxmemory = none) :
    Ensures env (pushAll dbindex key right create (val :: vals) .nil)
      (fun result after => ∀ reply, replied some result = some reply →
        reply.isError = true →
        PushFails create env db (dbindex, key) result after) db := by
  -- after the first push
  have continued : ∀ (value : Value) (answer : Operation Nat)
      (changed : Value) (after : Database),
      (db.value (dbindex, key)).getD .nil = value →
      (create = false → db.visible env (dbindex, key) ≠ none) →
      value.push val right = (answer, changed) →
      Sets db after (dbindex, key) (some changed)
        (db.keptExpiration env (dbindex, key)) →
      Ensures env (pushAll dbindex key right create vals
          (respond answer fun length => .integer length))
        (fun result after => ∀ reply, replied some result = some reply →
        reply.isError = true →
        PushFails create env db (dbindex, key) result after) after := by
    intro value answer changed after isOld live called sets
    subst isOld
    cases answer with
    | error error =>
        have same := Value.push_atomic val right _ error changed
          (congrArg some called)
        refine Program.Ensures.mono
          (pushAll_fails _ unlimited sets (.inl same) fun _ => same) ?_
        intro result last holds reply said failed
        obtain ⟨answers, kept⟩ := holds reply said failed
        exact ⟨answers, kept, live⟩
    | ok length =>
        have isList : ∃ elements, changed = .list elements := by
          cases held : (db.value (dbindex, key)).getD .nil with
          | nil =>
              rw [held] at called
              cases called
              exact ⟨_, rfl⟩
          | list elements =>
              rw [held] at called
              cases called
              exact ⟨_, rfl⟩
          | _ =>
              rw [held] at called
              cases called
        refine Program.Ensures.mono
          (pushAll_fails ((db.value (dbindex, key)).getD .nil) unlimited sets
            (.inr isList) fun failed => ?_) ?_
        · cases failed
        · intro result last holds reply said failed
          obtain ⟨answers, kept⟩ := holds reply said failed
          exact ⟨answers, kept, live⟩
  unfold pushAll
  cases create with
  | true =>
      simp only [if_true, map_eq_pure_bind, bind_assoc]
      refine ensures_created unlimited ?_
      intro answer changed after called sets
      exact continued _ answer changed after rfl nofun
        (Option.some.inj called) sets
  | false =>
      simp only [Bool.false_eq_true, if_false]
      refine ensures_found ?_ ?_
      · intro after _ _ _
        apply Program.ensures_throw
        intro reply said failed
        cases said
        cases failed
      · intro value answer changed after visible called sets
        apply continued value answer changed after _ _
          (Option.some.inj called) sets
        · rw [(visible_eq_some.mp visible).2]
          rfl
        · rw [visible]
          exact fun _ => Option.some_ne_none value

theorem genericPush_reverts
    {right create : Bool} (unlimited : db.config.maxmemory = none)
    (three : Accepted argv known ↔ 3 ≤ argv.length)
    (same : ∀ key, argv[1]? = some key → Accepted argv known →
      (create = false → db.visible env (dbindex, key) ≠ none) →
      (Solid env db (dbindex, key) ↔ Spares env db argv dbindex known)) :
    Ensures env (genericPush argv dbindex right create)
      (Reverts some env db (Spares env db argv dbindex known)) db := by
  unfold genericPush
  refine ensures_validate (fun _ few => reverts_refused
    fun accepted => few (three.mp accepted)) ?_
  intro enough
  refine ensures_vec (by omega) ?_
  intro key named
  obtain ⟨val, vals, isVals⟩ : ∃ val vals, argv.drop 2 = val :: vals := by
    cases isVals : argv.drop 2 with
    | nil =>
        have short := List.drop_eq_nil_iff.mp isVals
        omega
    | cons val vals => exact ⟨val, vals, rfl⟩
  rw [isVals]
  apply Program.ensures_bind
  refine Program.Ensures.mono (pushAll_pushFails unlimited) ?_
  intro result between fails
  cases result with
  | error reply =>
      intro other said failed
      obtain ⟨response, impossible⟩ := (fails other said failed).answers
      cases impossible
  | ok response =>
      refine ensures_keyUpdated ?_
      intro after updated
      apply Program.ensures_pure
      intro reply said failed
      have holds := fails reply said failed
      rw [holds.sets.updated_iff updated, solid_iff]
      exact same key named (three.mpr enough) holds.live

theorem lpush_reverts (unlimited : db.config.maxmemory = none) :
    Ensures env (lpush argv dbindex)
      (Reverts some env db (Spares env db argv dbindex .lpush)) db := by
  apply genericPush_reverts unlimited Iff.rfl
  intro key named accepted _
  exact spares_iff accepted named

theorem rpush_reverts (unlimited : db.config.maxmemory = none) :
    Ensures env (rpush argv dbindex)
      (Reverts some env db (Spares env db argv dbindex .rpush)) db := by
  apply genericPush_reverts unlimited Iff.rfl
  intro key named accepted _
  exact spares_iff accepted named

theorem lpushx_reverts (unlimited : db.config.maxmemory = none) :
    Ensures env (lpushx argv dbindex)
      (Reverts some env db (Spares env db argv dbindex .lpushx)) db := by
  apply genericPush_reverts unlimited Iff.rfl
  intro key named accepted live
  exact (solid_iff_whole (live rfl)).trans (spares_iff accepted named)

theorem rpushx_reverts (unlimited : db.config.maxmemory = none) :
    Ensures env (rpushx argv dbindex)
      (Reverts some env db (Spares env db argv dbindex .rpushx)) db := by
  apply genericPush_reverts unlimited Iff.rfl
  intro key named accepted live
  exact (solid_iff_whole (live rfl)).trans (spares_iff accepted named)

/-- An element that was popped is lost when the destination refuses it. -/
theorem moveElement_loses
    {source destination el : Bytes} {elements rest : ValueList}
    {answer : Operation Nat} {error : OperationError} {changed : Value}
    {after : Database}
    (visible : db.visible env (dbindex, source) = some (.list elements))
    (popped : elements.pop true = (some el, rest))
    (isList : ∀ value, db.visible env (dbindex, destination) = some value →
      value.llen.isOk = true)
    (others : ∀ slot, slot ≠ (dbindex, source) →
      between.value slot = db.value slot)
    (shorter : between.value (dbindex, source) = some (.list rest))
    (failed : answer = .error error)
    (called : ((between.value (dbindex, destination)).getD .nil).push el
      false = (answer, changed))
    (sets : Sets between after (dbindex, destination) (some changed)
      (between.keptExpiration env (dbindex, destination))) :
    Intact env db after ↔
      Lands env db (dbindex, source) (dbindex, destination) := by
  subst failed
  have refused : ((between.value (dbindex, destination)).getD .nil).llen.isOk
      = false := by
    cases held : (between.value (dbindex, destination)).getD .nil with
    | nil =>
        rw [held] at called
        cases called
    | list elements =>
        rw [held] at called
        cases called
    | _ => rfl
  have apart : (dbindex, destination) ≠ (dbindex, source) := by
    intro same
    rw [same, shorter] at refused
    cases refused
  have lost : rest.length < elements.length := by
    have isDrop : elements.dropLast = rest := congrArg Prod.snd popped
    have isLast : elements.getLast? = some el := congrArg Prod.fst popped
    cases elements with
    | nil => cases isLast
    | cons head tail =>
        rw [← isDrop]
        simp
  constructor
  · intro intact
    have live : after.visible env (dbindex, source) =
        some (.list elements) := by
      rw [intact.visible]
      exact visible
    have stored := (visible_eq_some.mp live).2
    rw [sets.value, if_neg apart.symm, shorter] at stored
    cases stored
    exact absurd lost (Nat.lt_irrefl _)
  · intro lands
    rw [others _ apart] at refused
    cases held : db.value (dbindex, destination) with
    | none =>
        rw [held] at refused
        cases refused
    | some value =>
        rw [held] at refused
        cases lapsed : db.lapsed env (dbindex, destination) with
        | false =>
            have ok := isList value (visible_eq_some.mpr ⟨lapsed, held⟩)
            cases refused.symm.trans ok
        | true =>
            have some' : elements ≠ [] := by
              intro nothing
              rw [nothing] at lost
              exact absurd lost (Nat.not_lt_zero _)
            have ok := lands elements value visible some' lapsed held
            cases refused.symm.trans ok

theorem moveElement_reverts
    {source destination : Bytes} (unlimited : db.config.maxmemory = none)
    (isList : ∀ value, db.visible env (dbindex, destination) = some value →
      value.llen.isOk = true) :
    Ensures env (moveElement dbindex source destination)
      (Reverts some env db
        (Lands env db (dbindex, source) (dbindex, destination))) db := by
  unfold moveElement
  refine ensures_getMut ?_
  intro middle _ got
  have intact := (getMut_intact got).1
  cases visible : db.visible env (dbindex, source) with
  | none => exact Program.ensures_pure (reverts_plain rfl)
  | some sourcelist =>
      have kept := ((getMut_live got).2.2.2.2 sourcelist visible).1
      have unaccepted : ∀ reply : Response, sourcelist.isList = false →
          Ensures env (pure reply) (Reverts some env db
            (Lands env db (dbindex, source) (dbindex, destination)))
            middle := by
        intro reply notList
        apply Program.ensures_pure
        apply reverts_intact intact
        intro elements value isSource
        cases visible.symm.trans isSource
        cases notList
      cases sourcelist with
      | nil =>
          refine ensures_put ?_
          intro _
          exact Program.ensures_pure (reverts_plain rfl)
      | list elements =>
          cases popped : elements.pop true with
          | mk answer rest =>
            have change : (Value.list elements).pop true =
                (.ok answer, .list rest) := by
              unfold Value.pop
              dsimp only
              rw [popped]
            dsimp only
            rw [change]
            refine ensures_put ?_
            intro _
            have puts := put_sets middle dbindex source (.list rest)
            cases answer with
            | none => exact Program.ensures_pure (reverts_plain rfl)
            | some el =>
                refine ensures_created ?_ ?_
                · rw [puts.frame.config, kept.frame.config]
                  exact unlimited
                · intro answer changed after called sets
                  cases answer with
                  | error error =>
                      apply Program.ensures_pure
                      intro _ _ _
                      apply moveElement_loses visible popped isList _
                        puts.value_self rfl (Option.some.inj called) sets
                      intro slot different
                      rw [puts.value, if_neg different, kept.value]
                  | ok length =>
                      refine ensures_keyUpdated ?_
                      intro _ _
                      refine ensures_keyUpdated ?_
                      intro _ _
                      exact Program.ensures_pure (reverts_plain rfl)
      | _ => exact unaccepted _ rfl

theorem genericRpoplpush_reverts
    {source destination : Bytes} (unlimited : db.config.maxmemory = none) :
    Ensures env (genericRpoplpush dbindex source destination)
      (Reverts some env db
        (Lands env db (dbindex, source) (dbindex, destination))) db := by
  unfold genericRpoplpush
  refine ensures_get ?_
  intro _
  cases visible : db.visible env (dbindex, destination) with
  | none =>
      apply moveElement_reverts unlimited
      intro value live
      cases visible.symm.trans live
  | some value =>
      dsimp only
      split
      · rename_i isList
        apply moveElement_reverts unlimited
        intro other live
        cases visible.symm.trans live
        exact isList
      · apply Program.ensures_throw
        apply reverts_intact (.refl env db)
        intro elements other _ _ lapsed _
        cases (visible_eq_some.mp visible).1.symm.trans lapsed

theorem lands_iff
    {source destination : Bytes}
    (named : argv[1]? = some source) (second : argv[2]? = some destination)
    (accepted : Accepted argv known)
    (moves : ∀ key, Spared env db argv dbindex key known ↔
      ∀ destination, argv[2]? = some destination →
        Lands env db (dbindex, key) (dbindex, destination)) :
    Lands env db (dbindex, source) (dbindex, destination) ↔
      Spares env db argv dbindex known := by
  rw [← spares_iff accepted named, moves]
  constructor
  · intro lands other same
    cases second.symm.trans same
    exact lands
  · intro all
    exact all destination second

theorem rpoplpush_reverts (unlimited : db.config.maxmemory = none) :
    Ensures env (rpoplpush argv dbindex)
      (Reverts some env db (Spares env db argv dbindex .rpoplpush)) db := by
  unfold rpoplpush
  refine ensures_exact (fun _ refused => reverts_refused refused) ?_
  intro accepted
  refine ensures_vec (by omega) ?_
  intro source named
  refine ensures_vec (by omega) ?_
  intro destination second
  apply reverts_congr (genericRpoplpush_reverts unlimited)
  exact lands_iff named second (show Accepted argv .rpoplpush from accepted)
    fun _ => Iff.rfl

/-- A command that waits does not reply. -/
theorem waitFor_reverts
    {keys arguments : List Bytes} {timeout : Int} :
    Ensures env (waitFor dbindex keys arguments timeout)
      (Reverts Except.toOption env db spared) between := by
  refine Program.Ensures.mono waitFor_noAnswer ?_
  intro result after noAnswer
  obtain ⟨error, isError⟩ := noAnswer
  subst isError
  intro reply said
  cases said

theorem brpoplpush_reverts (unlimited : db.config.maxmemory = none) :
    Ensures env (brpoplpush argv dbindex)
      (Reverts Except.toOption env db
        (Spares env db argv dbindex .brpoplpush)) db := by
  unfold brpoplpush
  refine ensures_validate (fun _ wrong => reverts_refused
    fun accepted => wrong accepted.1) ?_
  intro four
  refine ensures_vec (by omega) ?_
  intro source named
  refine ensures_vec (by omega) ?_
  intro destination second
  refine ensures_valid (fun _ _ failed => reverts_refused
    fun accepted => not_ok failed accepted.2) ?_
  intro timeout read
  have only : Lands env db (dbindex, source) (dbindex, destination) ↔
      Spares env db argv dbindex .brpoplpush :=
    lands_iff named second
      (show Accepted argv .brpoplpush from ⟨four, is_ok read⟩)
      fun _ => Iff.rfl
  apply Program.ensures_bind
  refine Program.Ensures.mono (genericRpoplpush_reverts unlimited) ?_
  intro result between reverts
  have reverts := reverts.congr only
  cases result with
  | error reply => exact reverts
  | ok reply =>
      dsimp only
      split
      · exact waitFor_reverts
      · exact Program.ensures_pure reverts

/-! ### Sets -/

theorem changeElements_reverts
    {method : Bytes → Value → Value.Change Bool}
    (unlimited : db.config.maxmemory = none)
    (atomic : Value.Atomic fun value =>
      some (countChanges method (argv.drop 2) value))
    (many : 2 < argv.length)
    (same : ∀ key, argv[1]? = some key →
      (db.visible env (dbindex, key) ≠ none ↔ spared)) :
    Ensures env (changeElements argv dbindex method)
      (Reverts some env db spared) db := by
  unfold changeElements
  refine ensures_vec (by omega) ?_
  intro key named
  apply reverts_congr (created_reverts unlimited atomic fun _ => rfl)
  exact same key named

theorem sadd_reverts (unlimited : db.config.maxmemory = none) :
    Ensures env (sadd argv dbindex)
      (Reverts some env db (Spares env db argv dbindex .sadd)) db := by
  unfold sadd
  refine ensures_validate (fun _ few => reverts_refused few) ?_
  intro accepted
  refine ensures_config ?_
  apply changeElements_reverts unlimited (saddAll_atomic _ _) accepted
  intro key named
  exact spares_iff (show Accepted argv .sadd from accepted) named

theorem srem_reverts (unlimited : db.config.maxmemory = none) :
    Ensures env (srem argv dbindex)
      (Reverts some env db (Spares env db argv dbindex .srem)) db := by
  unfold srem
  refine ensures_validate (fun _ few => reverts_refused few) ?_
  intro accepted
  apply changeElements_reverts unlimited (sremAll_atomic _) accepted
  intro key named
  exact spares_iff (show Accepted argv .srem from accepted) named

/-- Only what is not a set is not drawn from, and it stays as it was. -/
theorem spopOf_atomic
    {value : Value} {count : Nat} {result : Value.Change (List Bytes)}
    {error : OperationError}
    (ran : ((spopOf value count).lift readInclusion).run (machine env) db =
      some (.ok result, db)) (failed : result.1 = .error error) :
    result.2 = value := by
  have draws : Ensures env ((spopOf value count).lift readInclusion)
      (fun outcome _ => ∀ change, outcome = .ok change →
        (∃ picked, change.1 = .ok picked) ∨ change.2 = value) db := by
    clear ran
    cases value with
    | nil =>
        apply Program.ensures_pure
        intro change same
        cases same
        exact .inl ⟨_, rfl⟩
    | set members =>
        unfold spopOf
        refine ensures_lift (fun _ => nofun) ?_
        intro picked _
        apply Program.ensures_pure
        intro change same
        cases same
        exact .inl ⟨_, rfl⟩
    | _ =>
        apply Program.ensures_pure
        intro change same
        cases same
        exact .inr rfl
  rcases draws _ _ ran result rfl with ⟨picked, succeeds⟩ | same
  · cases failed.symm.trans succeeds
  · exact same

theorem spopOf_total (value : Value) (count : Nat) :
    (spopOf value count).Total := by
  have draws : ∀ members : ValueSet, (drawMembers members count).Total := by
    intro members
    unfold drawMembers
    apply Program.total_bind (Program.total_perform _)
    intro order
    split
    · exact Program.total_pure _
    · exact Program.total_bind (Program.total_perform _)
        fun _ => Program.total_orPanic _
  cases value with
  | set members =>
      exact Program.total_bind (draws members) fun _ => Program.total_pure _
  | _ => exact Program.total_pure _

/-- Drawing from a key that is there. -/
theorem drawn_reverts
    {value : Value} {count : Nat} {ok : List Bytes → Response}
    (visible : db.visible env (dbindex, key) = some value)
    (kept : Kept db between)
    (plain : ∀ picked, (ok picked).isError = false) :
    Ensures env (do
        let (popped, after) ← (spopOf value count : Reader _)
        Db.put dbindex key after
        Db.keyUpdated dbindex key
        pure (respond popped ok))
      (Reverts some env db (Whole env db (dbindex, key))) between := by
  apply ensures_reader
  · intro reply ran
    obtain ⟨_, isOk⟩ :=
      ((spopOf_total value count).lift readInclusion).ensures _ _ _ _ ran
    cases isOk
  · intro change ran
    obtain ⟨popped, changed⟩ := change
    dsimp only
    refine ensures_put ?_
    intro _
    apply announced_reverts plain
    intro error after failed updated
    have same := spopOf_atomic ran failed
    dsimp only at same
    subst same
    obtain ⟨alive, stored⟩ := visible_eq_some.mp visible
    have puts := put_sets between dbindex key changed
    have sets : Sets db (between.put dbindex key changed) (dbindex, key)
        (some changed) (db.keptExpiration env (dbindex, key)) := by
      rw [keptExpiration_live alive]
      constructor
      · exact kept.frame.trans puts.frame
      · intro other
        rw [puts.value, kept.value]
      · intro other
        rw [puts.expiration, kept.expiration]
    rw [sets.updated_iff updated, visible]
    constructor
    · intro same other found
      cases visible.symm.trans found
      cases empty : changed.isEmpty with
      | true =>
          rw [empty, if_pos rfl] at same
          cases same
      | false => rfl
    · intro whole
      rw [whole changed visible]
      rfl

theorem spop_reverts :
    Ensures env (spop argv dbindex)
      (Reverts some env db (Spares env db argv dbindex .spop)) db := by
  unfold spop
  refine ensures_gte (fun _ few => reverts_refused fun accepted => ?_) ?_
  · rcases accepted with two | ⟨three, -⟩
    · omega
    · omega
  intro enough
  refine ensures_lte (fun _ many => reverts_refused fun accepted => ?_) ?_
  · rcases accepted with two | ⟨three, -⟩
    · omega
    · omega
  intro notMany
  refine ensures_vec (by omega) ?_
  intro key named
  refine ensures_getMut ?_
  intro middle _ got
  have intact := (getMut_intact got).1
  cases visible : db.visible env (dbindex, key) with
  | none =>
      apply Program.ensures_pure
      apply reverts_plain
      split
      · rfl
      · rfl
  | some value =>
      have kept := ((getMut_live got).2.2.2.2 value visible).1
      dsimp only
      split
      · rename_i two
        apply reverts_congr (drawn_reverts visible kept ?_)
        · exact spares_iff (show Accepted argv .spop from .inl two) named
        · intro picked
          cases picked with
          | nil => rfl
          | cons head tail => rfl
      · rename_i notTwo
        apply ensures_valid
        · intro _ _ failed
          apply reverts_intact intact
          intro accepted
          rcases accepted with two | ⟨three, read⟩
          · exact absurd two notTwo
          · exact absurd read (not_ok failed)
        · intro count read
          apply reverts_congr (drawn_reverts visible kept fun _ => rfl)
          exact spares_iff (show Accepted argv .spop from
            .inr ⟨by omega, is_ok read⟩) named

/-! ### Sorted sets -/

theorem zadd_reverts (unlimited : db.config.maxmemory = none) :
    Ensures env (zadd argv dbindex)
      (Reverts some env db (Spares env db argv dbindex .zadd)) db := by
  unfold Command.zadd
  apply Program.ensures_ofExcept_bind
  · intro error failed
    exact reverts_refused (not_ok failed)
  · intro arguments read
    obtain ⟨options, pairs⟩ := arguments
    dsimp only
    have enough : 1 < argv.length := by
      by_contra few
      have short : ¬4 ≤ argv.length := by omega
      unfold zaddArguments validate at read
      rw [if_neg (by simpa using short)] at read
      cases read
    refine ensures_vec enough ?_
    intro key named
    have only : db.visible env (dbindex, key) ≠ none ↔
        Spares env db argv dbindex .zadd :=
      spares_iff (show Accepted argv .zadd from is_ok read) named
    refine ensures_created unlimited ?_
    intro answer changed after called sets
    cases answer with
    | error error =>
        apply Program.ensures_pure
        intro _ _ _
        have same := zaddAll_atomic (zaddArguments_scores read) _ _ _ called
        rw [same] at sets
        exact (sets.created_iff.trans created_live_iff).trans only
    | ok count =>
        unfold updateOnCount
        dsimp only
        split
        · refine ensures_keyUpdated ?_
          intro last _
          exact Program.ensures_pure (reverts_plain rfl)
        · exact Program.ensures_pure (reverts_plain rfl)

/-- What an increment leaves when it fails. -/
theorem zincrby_fails
    {value changed : Value} {score : F64} {member : Bytes}
    {error : OperationError}
    (failed : value.zincrby score member = (.error error, changed)) :
    changed = value ↔ ∀ zset old, value = .sortedSet zset →
      zset.hmap.lookup member = some old →
      Platform.f64IsNan (Platform.f64Add old score) = true →
      OrderedSkipList.remove (.new old member) zset.skiplist =
        zset.skiplist := by
  cases value with
  | nil =>
      unfold Value.zincrby at failed
      dsimp only at failed
      split at failed
      · cases failed
      · rename_i called
        cases failed
        have same := Value.zadd_atomic _ _ _ _ _ _ _ _ _
          (congrArg some called)
        exact ⟨fun _ _ _ => nofun, fun _ => same⟩
  | sortedSet zset =>
      unfold Value.zincrby ValueSortedSet.zincrby at failed
      dsimp only at failed
      cases found : zset.hmap.lookup member with
      | none =>
          rw [found] at failed
          dsimp only at failed
          split at failed
          · cases failed
            constructor
            · intro _ other old same held
              cases same
              cases found.symm.trans held
            · exact fun _ => rfl
          · cases failed
      | some old =>
          rw [found] at failed
          dsimp only at failed
          split at failed
          · rename_i isNan
            cases failed
            constructor
            · intro same other old' isSet held _
              cases isSet
              cases found.symm.trans held
              injection same with same
              exact congrArg ValueSortedSet.skiplist same
            · intro all
              rw [all zset old rfl found isNan]
          · cases failed
  | _ =>
      cases failed
      exact ⟨fun _ _ _ => nofun, fun _ => rfl⟩

theorem zincrby_reverts (unlimited : db.config.maxmemory = none) :
    Ensures env (zincrby argv dbindex)
      (Reverts some env db (Spares env db argv dbindex .zincrby)) db := by
  unfold Command.zincrby
  refine ensures_exact (fun _ refused => reverts_refused refused) ?_
  intro accepted
  refine ensures_vec (by omega) ?_
  intro key named
  have only : Spared env db argv dbindex key .zincrby ↔
      Spares env db argv dbindex .zincrby :=
    spares_iff (show Accepted argv .zincrby from accepted) named
  refine ensures_getOrCreate ?_
  intro value created creation
  have sets := getOrCreate_sets
    (creationEvicts_unlimited unlimited env dbindex key) creation
  have isValue := (getOrCreate_creates creation).1
  apply ensures_valid
  · intro _ error failed _ _ _
    rw [isValue] at sets
    rw [sets.created_iff, created_live_iff, ← only]
    constructor
    · refine fun live => ⟨live, ?_⟩
      intro score _ _ _ read
      cases failed.symm.trans read
    · exact fun spared => spared.1
  · intro score isScore
    refine ensures_vec (by omega) ?_
    intro member isMember
    cases called : value.zincrby score member with
    | mk result changed =>
      dsimp only
      refine ensures_put ?_
      intro _
      have puts := put_sets created dbindex key changed
      rw [sets.expiration_self] at puts
      apply updateOnSuccess_reverts fun _ => rfl
      intro error failed
      subst failed
      rw [(sets.trans puts).created_iff, ← only]
      have held : ∀ found, db.visible env (dbindex, key) = some found →
          found = value := by
        intro found visible
        rw [isValue, (visible_eq_some.mp visible).2]
        rfl
      constructor
      · intro visible
        constructor
        · rw [visible]
          exact Option.some_ne_none changed
        · intro score' member' zset old read second isSet
          cases isScore.symm.trans read
          cases isMember.symm.trans second
          have same := held changed visible
          rw [← held _ isSet] at called same
          exact (zincrby_fails called).mp same zset old rfl
      · intro spared
        obtain ⟨found, visible⟩ := Option.ne_none_iff_exists'.mp spared.1
        rw [visible]
        have same := held found visible
        subst same
        apply congrArg some
        apply Eq.symm
        apply (zincrby_fails called).mpr
        intro zset old isSet
        exact spared.2 score member zset old isScore isMember
          (visible.trans (congrArg some isSet))

/-! ### Hashes -/

theorem hset_reverts (unlimited : db.config.maxmemory = none) :
    Ensures env (hset argv dbindex)
      (Reverts some env db (Spares env db argv dbindex .hset)) db := by
  unfold Command.hset
  refine ensures_exact (fun _ refused => reverts_refused refused) ?_
  intro accepted
  refine ensures_vec (by omega) ?_
  intro key named
  refine ensures_vec (by omega) ?_
  intro field _
  refine ensures_vec (by omega) ?_
  intro value _
  apply reverts_congr (created_reverts unlimited
    (Value.hset_atomic field value) bit_plain)
  exact spares_iff (show Accepted argv .hset from accepted) named

theorem hmset_reverts (unlimited : db.config.maxmemory = none) :
    Ensures env (hmset argv dbindex)
      (Reverts some env db (Spares env db argv dbindex .hmset)) db := by
  unfold hmset
  refine ensures_gte (fun _ few => reverts_refused
    fun accepted => few.not_ge accepted.1) ?_
  intro enough
  refine ensures_validate (fun _ even => reverts_refused
    fun accepted => even accepted.2) ?_
  intro odd
  refine ensures_vec (by omega) ?_
  intro key named
  apply reverts_congr (created_reverts unlimited
    (hsetAll_atomic (argv.drop 2)) fun _ => rfl)
  exact spares_iff (show Accepted argv .hmset from ⟨enough, odd⟩) named

theorem hincrby_reverts (unlimited : db.config.maxmemory = none) :
    Ensures env (hincrby argv dbindex)
      (Reverts some env db (Spares env db argv dbindex .hincrby)) db := by
  unfold Command.hincrby
  refine ensures_exact (fun _ wrong => reverts_refused
    fun accepted => wrong accepted.1) ?_
  intro four
  refine ensures_vec (by omega) ?_
  intro key named
  refine ensures_vec (by omega) ?_
  intro field _
  refine ensures_valid (fun _ _ failed => reverts_refused
    fun accepted => not_ok failed accepted.2) ?_
  intro increment read
  apply reverts_congr (created_reverts unlimited
    (Value.hincrby_atomic field increment) fun _ => rfl)
  exact spares_iff (show Accepted argv .hincrby from ⟨four, is_ok read⟩)
    named

theorem hincrbyfloat_reverts (unlimited : db.config.maxmemory = none) :
    Ensures env (hincrbyfloat argv dbindex)
      (Reverts some env db (Spares env db argv dbindex .hincrbyfloat)) db := by
  unfold Command.hincrbyfloat
  refine ensures_exact (fun _ wrong => reverts_refused
    fun accepted => wrong accepted.1) ?_
  intro four
  refine ensures_vec (by omega) ?_
  intro key named
  refine ensures_vec (by omega) ?_
  intro field _
  refine ensures_valid (fun _ _ failed => reverts_refused
    fun accepted => not_ok failed accepted.2) ?_
  intro increment read
  apply reverts_congr (created_reverts unlimited
    (Value.hincrbyfloat_atomic field increment) fun _ => rfl)
  exact spares_iff
    (show Accepted argv .hincrbyfloat from ⟨four, is_ok read⟩) named

end Handlers

end Command

end

end RedVector
