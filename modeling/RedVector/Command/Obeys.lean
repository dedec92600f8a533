import RedVector.Command.Dispatch
import RedVector.Command.Specs
import RedVector.Effect.Contract
import RedVector.Response.Framing

/-!
# What handlers may call and reply

Every handler only passes indexes below the number of databases to the
database, and the only text of a client in the lines of its replies is the
word of the command itself.
-/

namespace RedVector

open Util Effect

variable [Platform]

/-! ## The contract -/

/-- Every index that the operation passes to the database is below. -/
def ReadOp.Below (databases : Nat) : ReadOp → Prop
  | .get index _ | .getMsexpiration index _ | .dbsize index
  | .iterDb index => index < databases
  | _ => True

def WriteOp.Below (databases : Nat) : WriteOp → Prop
  | .read op => op.Below databases
  | .getMut index _ | .getOrCreate index _ | .put index _ _
  | .remove index _ | .setMsexpiration index _ _
  | .removeMsexpiration index _ | .clear index | .keyUpdated index _
  | .keySubscribe index _ _ => index < databases
  -- the index is only a part of a name
  | .notifyKeyspaceEvent _ _ _ _ => True
  | .clearall | .channel => True

/-- What handlers rely on in an answer. -/
def ReadOp.Honest (databases : Nat) : (op : ReadOp) → op.Ret → Prop
  | .config, found => found.databases ≤ databases
  | .debugObject _, description => isLine description = true
  | _, _ => True

def WriteOp.Honest (databases : Nat) : (op : WriteOp) → op.Ret → Prop
  | .read op, answer => op.Honest databases answer
  | _, _ => True

def readContract (databases : Nat) : Contract readInterface :=
  { calls := ReadOp.Below databases, answers := ReadOp.Honest databases }

def writeContract (databases : Nat) : Contract writeInterface :=
  { calls := WriteOp.Below databases, answers := WriteOp.Honest databases }

namespace Command

section Operations

variable {databases index : Nat} {key : Bytes} {α ε : Type}

open Program

@[simp] theorem obeys_lift_read
    {ends : Except Response α → Prop} (program : Reader α) :
    (liftM program : Writer α).Obeys (writeContract databases) ends ↔
      program.Obeys (readContract databases) ends := by
  refine (obeys_lift program).trans (iff_of_eq ?_)
  congr 1
  simp only [readContract, Contract.mk.injEq]
  constructor
  · rfl
  · funext op answer
    apply propext
    constructor
    · rintro ⟨given, honest, rfl⟩
      exact honest
    · intro honest
      exact ⟨answer, honest, rfl⟩

@[simp] theorem obeys_config {ends : Except Response Config → Prop} :
    Db.config.Obeys (readContract databases) ends ↔
      ∀ config : Config, config.databases ≤ databases → ends (.ok config) :=
  and_iff_right trivial

@[simp] theorem obeys_mstime
    {ends : Except Response Int → Prop} :
    (Db.mstime).Obeys (readContract databases) ends ↔
      ∀ answer, ends (.ok answer) :=
  (and_iff_right trivial).trans
    ⟨fun all answer => all answer trivial, fun all answer _ => all answer⟩

@[simp] theorem obeys_get
    {ends : Except Response (Option Value) → Prop} :
    (Db.get index key).Obeys (readContract databases) ends ↔
      index < databases ∧ ∀ answer, ends (.ok answer) :=
  and_congr_right fun _ =>
    ⟨fun all answer => all answer trivial, fun all answer _ => all answer⟩

@[simp] theorem obeys_getMsexpiration
    {ends : Except Response (Option Int) → Prop} :
    (Db.getMsexpiration index key).Obeys (readContract databases) ends ↔
      index < databases ∧ ∀ answer, ends (.ok answer) :=
  and_congr_right fun _ =>
    ⟨fun all answer => all answer trivial, fun all answer _ => all answer⟩

@[simp] theorem obeys_dbsize
    {ends : Except Response Nat → Prop} :
    (Db.dbsize index).Obeys (readContract databases) ends ↔
      index < databases ∧ ∀ answer, ends (.ok answer) :=
  and_congr_right fun _ =>
    ⟨fun all answer => all answer trivial, fun all answer _ => all answer⟩

@[simp] theorem obeys_iterDb
    {ends : Except Response (List Bytes) → Prop} :
    (Db.iterDb index).Obeys (readContract databases) ends ↔
      index < databases ∧ ∀ answer, ends (.ok answer) :=
  and_congr_right fun _ =>
    ⟨fun all answer => all answer trivial, fun all answer _ => all answer⟩

@[simp] theorem obeys_order
    {ends : Except Response (Finset Bytes → List Bytes) → Prop} :
    (Db.order).Obeys (readContract databases) ends ↔
      ∀ answer, ends (.ok answer) :=
  (and_iff_right trivial).trans
    ⟨fun all answer => all answer trivial, fun all answer _ => all answer⟩

@[simp] theorem obeys_random
    {call : Nat}
    {ends : Except Response Nat → Prop} :
    (Db.random call).Obeys (readContract databases) ends ↔
      ∀ answer, ends (.ok answer) :=
  (and_iff_right trivial).trans
    ⟨fun all answer => all answer trivial, fun all answer _ => all answer⟩

@[simp] theorem obeys_randomPositions
    {length count : Nat}
    {allowDuplicates : Bool}
    {ends : Except Response (List Nat) → Prop} :
    (Db.randomPositions length count allowDuplicates).Obeys (readContract databases) ends ↔
      ∀ answer, ends (.ok answer) :=
  (and_iff_right trivial).trans
    ⟨fun all answer => all answer trivial, fun all answer _ => all answer⟩

@[simp] theorem obeys_zunion
    {values : List Value}
    {weights : Option (List F64)}
    {aggregate : Aggregate}
    {ends : Except Response (Operation Value) → Prop} :
    (Db.zunion values weights aggregate).Obeys (readContract databases) ends ↔
      ∀ answer, ends (.ok answer) :=
  (and_iff_right trivial).trans
    ⟨fun all answer => all answer trivial, fun all answer _ => all answer⟩

@[simp] theorem obeys_zinter
    {values : List Value}
    {weights : Option (List F64)}
    {aggregate : Aggregate}
    {ends : Except Response (Operation Value) → Prop} :
    (Db.zinter values weights aggregate).Obeys (readContract databases) ends ↔
      ∀ answer, ends (.ok answer) :=
  (and_iff_right trivial).trans
    ⟨fun all answer => all answer trivial, fun all answer _ => all answer⟩

@[simp] theorem obeys_dump
    {value : Value}
    {ends : Except Response (Operation Bytes) → Prop} :
    (Db.dump value).Obeys (readContract databases) ends ↔
      ∀ answer, ends (.ok answer) :=
  (and_iff_right trivial).trans
    ⟨fun all answer => all answer trivial, fun all answer _ => all answer⟩

@[simp] theorem obeys_debugObject
    {value : Value} {ends : Except Response Bytes → Prop} :
    (Db.debugObject value).Obeys (readContract databases) ends ↔
      ∀ description : Bytes, isLine description = true →
        ends (.ok description) :=
  and_iff_right trivial

@[simp] theorem obeys_getMut
    {ends : Except Response (Option Value) → Prop} :
    (Db.getMut index key).Obeys (writeContract databases) ends ↔
      index < databases ∧ ∀ answer, ends (.ok answer) :=
  and_congr_right fun _ =>
    ⟨fun all answer => all answer trivial, fun all answer _ => all answer⟩

@[simp] theorem obeys_getOrCreate
    {ends : Except Response Value → Prop} :
    (Db.getOrCreate index key).Obeys (writeContract databases) ends ↔
      index < databases ∧ ∀ answer, ends (.ok answer) :=
  and_congr_right fun _ =>
    ⟨fun all answer => all answer trivial, fun all answer _ => all answer⟩

@[simp] theorem obeys_put
    {value : Value}
    {ends : Except Response Unit → Prop} :
    (Db.put index key value).Obeys (writeContract databases) ends ↔
      index < databases ∧ ends (.ok ()) :=
  and_congr_right fun _ =>
    ⟨fun all => all () trivial, fun one _ _ => one⟩

@[simp] theorem obeys_remove
    {ends : Except Response (Option Value) → Prop} :
    (Db.remove index key).Obeys (writeContract databases) ends ↔
      index < databases ∧ ∀ answer, ends (.ok answer) :=
  and_congr_right fun _ =>
    ⟨fun all answer => all answer trivial, fun all answer _ => all answer⟩

@[simp] theorem obeys_setMsexpiration
    {msexpiration : Int}
    {ends : Except Response Unit → Prop} :
    (Db.setMsexpiration index key msexpiration).Obeys (writeContract databases) ends ↔
      index < databases ∧ ends (.ok ()) :=
  and_congr_right fun _ =>
    ⟨fun all => all () trivial, fun one _ _ => one⟩

@[simp] theorem obeys_removeMsexpiration
    {ends : Except Response (Option Int) → Prop} :
    (Db.removeMsexpiration index key).Obeys (writeContract databases) ends ↔
      index < databases ∧ ∀ answer, ends (.ok answer) :=
  and_congr_right fun _ =>
    ⟨fun all answer => all answer trivial, fun all answer _ => all answer⟩

@[simp] theorem obeys_clear
    {ends : Except Response Unit → Prop} :
    (Db.clear index).Obeys (writeContract databases) ends ↔
      index < databases ∧ ends (.ok ()) :=
  and_congr_right fun _ =>
    ⟨fun all => all () trivial, fun one _ _ => one⟩

@[simp] theorem obeys_clearall
    {ends : Except Response Unit → Prop} :
    (Db.clearall).Obeys (writeContract databases) ends ↔
      ends (.ok ()) :=
  (and_iff_right trivial).trans
    ⟨fun all => all () trivial, fun one _ _ => one⟩

@[simp] theorem obeys_keyUpdated
    {ends : Except Response Unit → Prop} :
    (Db.keyUpdated index key).Obeys (writeContract databases) ends ↔
      index < databases ∧ ends (.ok ()) :=
  and_congr_right fun _ =>
    ⟨fun all => all () trivial, fun one _ _ => one⟩

@[simp] theorem obeys_notifyKeyspaceEvent
    {eventType : Bytes}
    {commandType : UInt8}
    {ends : Except Response Unit → Prop} :
    (Db.notifyKeyspaceEvent index eventType key commandType).Obeys (writeContract databases) ends ↔
      ends (.ok ()) :=
  (and_iff_right trivial).trans
    ⟨fun all => all () trivial, fun one _ _ => one⟩

@[simp] theorem obeys_channel
    {ends : Except Response Nat → Prop} :
    (Db.channel).Obeys (writeContract databases) ends ↔
      ∀ answer, ends (.ok answer) :=
  (and_iff_right trivial).trans
    ⟨fun all answer => all answer trivial, fun all answer _ => all answer⟩

@[simp] theorem obeys_keySubscribe
    {mailbox : Nat}
    {ends : Except Response Nat → Prop} :
    (Db.keySubscribe index key mailbox).Obeys (writeContract databases) ends ↔
      index < databases ∧ ∀ answer, ends (.ok answer) :=
  and_congr_right fun _ =>
    ⟨fun all answer => all answer trivial, fun all answer _ => all answer⟩

end Operations

omit [Platform] in
@[simp] theorem obeys_panics
    {I : Interface} {ε α : Type} {contract : Contract I}
    {ends : Except ε α → Prop} (computed : Option α) :
    (orPanic computed : Program I ε α).Obeys contract ends ↔
      ∀ value, computed = some value → ends (.ok value) :=
  Program.obeys_orPanic computed

omit [Platform] in
@[simp] theorem except_map_ok
    {ε α β : Type} (transform : α → β) (value : α) :
    (Except.ok value : Except ε α).map transform = .ok (transform value) :=
  rfl

omit [Platform] in
@[simp] theorem except_map_error
    {ε α β : Type} (transform : α → β) (error : ε) :
    (Except.error error : Except ε α).map transform = .error error :=
  rfl

/-! ## Replies -/

omit [Platform] in
@[simp] theorem isLine_message (error : OperationError) :
    isLine error.message = true := by
  cases error with
  | valueError message => exact message.2
  | _ => decide

omit [Platform] in
@[simp] theorem framed_bit (on : Bool) : (bit on).framed = true :=
  rfl

omit [Platform] in
@[simp] theorem framed_respond
    {α : Type} (result : Operation α) (ok : α → Response) :
    (respond result ok).framed = true ↔
      ∀ value, result = .ok value → (ok value).framed = true := by
  cases result with
  | ok value => simp [respond]
  | error error => simp [respond]

omit [Platform] in
@[simp] theorem framed_wrongNumber (argv : Arguments) :
    (wrongNumberOfArguments argv).framed = true ↔
      isLine (argv.headD []) = true := by
  have before : isLine (text "ERR wrong number of arguments for '") = true := by
    decide
  have behind : isLine (text "' command") = true := by decide
  simp [wrongNumberOfArguments, before, behind]

/-- The reply has no client text in its lines other than the first word of
the command. -/
def Quotes (argv : Arguments) (result : Except Response Response) : Prop :=
  isLine (argv.headD []) = true → (replyOf result).framed = true

omit [Platform] in
@[simp] theorem quotes_ok (argv : Arguments) (reply : Response) :
    Quotes argv (.ok reply) ↔
      (isLine (argv.headD []) = true → reply.framed = true) :=
  Iff.rfl

omit [Platform] in
@[simp] theorem quotes_error (argv : Arguments) (reply : Response) :
    Quotes argv (.error reply) ↔
      (isLine (argv.headD []) = true → reply.framed = true) :=
  Iff.rfl

/-- The same for a command that may have to wait. -/
def QuotesAnswer (argv : Arguments) : Except Response Answer → Prop
  | .error reply => Quotes argv (.error reply)
  | .ok (.ok reply) => Quotes argv (.ok reply)
  | .ok (.error _) => True

omit [Platform] in
@[simp] theorem quotesAnswer_ok (argv : Arguments) (reply : Response) :
    QuotesAnswer argv (.ok (.ok reply)) ↔
      (isLine (argv.headD []) = true → reply.framed = true) :=
  Iff.rfl

omit [Platform] in
@[simp] theorem quotesAnswer_error (argv : Arguments) (reply : Response) :
    QuotesAnswer argv (.error reply) ↔
      (isLine (argv.headD []) = true → reply.framed = true) :=
  Iff.rfl

/-! ## Checks -/

section Checks

open Program

variable {I : Interface} {α β ε : Type} {contract : Contract I}
  {ends : Except Response β → Prop} {argv : Arguments}

omit [Platform] in
@[simp] theorem then_exact
    {expected : Nat} {rest : Unit → Program I Response β} :
    Then contract ends rest (validateArgumentsExact argv expected) ↔
      (argv.length = expected → (rest ()).Obeys contract ends) ∧
        (argv.length ≠ expected →
          ends (.error (wrongNumberOfArguments argv))) := by
  unfold validateArgumentsExact
  split
  · simp_all
  · simp_all

omit [Platform] in
@[simp] theorem then_gte
    {expected : Nat} {rest : Unit → Program I Response β} :
    Then contract ends rest (validateArgumentsGte argv expected) ↔
      (expected ≤ argv.length → (rest ()).Obeys contract ends) ∧
        (argv.length < expected →
          ends (.error (wrongNumberOfArguments argv))) := by
  unfold validateArgumentsGte
  split
  · simp_all
  · simp_all

omit [Platform] in
@[simp] theorem then_lte
    {expected : Nat} {rest : Unit → Program I Response β} :
    Then contract ends rest (validateArgumentsLte argv expected) ↔
      (argv.length ≤ expected → (rest ()).Obeys contract ends) ∧
        (expected < argv.length →
          ends (.error (wrongNumberOfArguments argv))) := by
  unfold validateArgumentsLte
  split
  · simp_all
  · simp_all

omit [Platform] in
@[simp] theorem then_validate
    {holds : Bool} {message : String}
    {rest : Unit → Program I Response β} :
    Then contract ends rest (validate holds message) ↔
      (holds = true → (rest ()).Obeys contract ends) ∧
        (holds = false → ends (.error (.fail message))) := by
  cases holds with
  | true => simp [validate]
  | false => simp [validate]

omit [Platform] in
@[simp] theorem then_valid
    {read : Except ε α} {message : String}
    {rest : α → Program I Response β} :
    Then contract ends rest (tryValidate read message) ↔
      (∀ value, read = .ok value → (rest value).Obeys contract ends) ∧
        ∀ error, read = .error error → ends (.error (.fail message)) := by
  cases read with
  | ok value => simp [tryValidate]
  | error error => simp [tryValidate]

omit [Platform] in
@[simp] theorem obeys_ite
    {condition : Prop} [Decidable condition]
    {first second : Program I Response β} :
    (if condition then first else second).Obeys contract ends ↔
      (condition → first.Obeys contract ends) ∧
        (¬condition → second.Obeys contract ends) := by
  split
  · simp_all
  · simp_all

/-- A check that only fails with the lines of the source. -/
def Plain (check : Except Response α) : Prop :=
  ∀ reply, check = .error reply → reply.framed = true

omit [Platform] in
@[simp] theorem plain_ok (value : α) : Plain (.ok value) :=
  nofun

omit [Platform] in
@[simp] theorem plain_pure (value : α) : Plain (Pure.pure value) :=
  nofun

omit [Platform] in
@[simp] theorem plain_error (reply : Response) :
    Plain (.error reply : Except Response α) ↔ reply.framed = true := by
  simp [Plain]

omit [Platform] in
@[simp] theorem plain_throw (reply : Response) :
    Plain (MonadExcept.throw reply : Except Response α) ↔
      reply.framed = true :=
  plain_error reply

omit [Platform] in
@[simp] theorem plain_bind
    (check : Except Response α) (next : α → Except Response β) :
    Plain (check >>= next) ↔
      Plain check ∧ ∀ value, check = .ok value → Plain (next value) := by
  cases check with
  | ok value => simp [bind, Except.bind]
  | error reply => simp [bind, Except.bind]

omit [Platform] in
@[simp] theorem plain_map
    (check : Except Response α) (transform : α → β) :
    Plain (transform <$> check) ↔ Plain check := by
  cases check with
  | ok value => simp [Functor.map, Except.map]
  | error reply => simp [Functor.map, Except.map]

omit [Platform] in
@[simp] theorem plain_valid (read : Except ε α) (message : String) :
    Plain (tryValidate read message) ↔
      ∀ error, read = .error error → isLine (text message) = true := by
  cases read with
  | ok value => simp [tryValidate]
  | error error => simp [tryValidate]

omit [Platform] in
@[simp] theorem plain_validate (holds : Bool) (message : String) :
    Plain (validate holds message) ↔
      (holds = false → isLine (text message) = true) := by
  cases holds with
  | true => simp [validate]
  | false => simp [validate]

omit [Platform] in
@[simp] theorem plain_ite
    {condition : Prop} [Decidable condition]
    {first second : Except Response α} :
    Plain (if condition then first else second) ↔
      (condition → Plain first) ∧ (¬condition → Plain second) := by
  split
  · simp_all
  · simp_all

omit [Platform] in
/-- A plain check in front of a program. -/
theorem Plain.then
    {check : Except Response α} {rest : α → Program I Response β}
    (plain : Plain check)
    (fails : ∀ reply, reply.framed = true → ends (.error reply))
    (succeeds : ∀ value, check = .ok value →
      (rest value).Obeys contract ends) :
    Then contract ends rest check := by
  cases check with
  | ok value => exact succeeds value rfl
  | error reply => exact fails reply (plain reply rfl)

end Checks

end Command

/-! ## The database answers as promised -/

theorem ValueBloom.debugObject_line (bloom : ValueBloom) :
    isLine bloom.debugObject = true := by
  have number := isLine_iff.mpr (Platform.f64_toString_line bloom.errorRate)
  simp only [ValueBloom.debugObject, isLine_append, number,
    Response.isLine_natToString, and_true]
  decide

omit [Platform] in
theorem aboutSerialized_line
    {encoding : String} (line : isLine (text encoding) = true)
    (serialized : Bytes) :
    isLine (aboutSerialized encoding serialized) = true := by
  simp only [aboutSerialized, isLine_append, line,
    Response.isLine_natToString, and_true]
  decide

theorem Value.debugObject_line
    {order : Finset Bytes → List Bytes} {idOrder : Finset Nat → List Nat}
    {value : Value} {description : Bytes}
    (described : value.debugObject order idOrder = some description) :
    isLine description = true := by
  have about : ∀ (encoding : String) (dumped : Option Bytes),
      isLine (text encoding) = true →
      dumped.map (aboutSerialized encoding) = some description →
      isLine description = true := by
    intro encoding dumped line same
    obtain ⟨serialized, -, rfl⟩ := Option.map_eq_some_iff.mp same
    exact aboutSerialized_line line serialized
  cases value with
  | nil =>
      cases described
      decide
  | string value =>
      cases value with
      | integer number => exact about "int" _ (by decide) described
      | data bytes => exact about "raw" _ (by decide) described
  | list value => exact about _ _ (by decide) described
  | set value =>
      cases value with
      | integer numbers => exact about "intset" _ (by decide) described
      | data elements => exact about "hashtable" _ (by decide) described
  | sortedSet value => exact about _ _ (by decide) described
  | hash value =>
      cases value with
      | zipList bytes =>
          exact about "ziplist" ((ValueHash.zipList bytes).dump order)
            (by decide) described
      | hashMap fields =>
          exact about "hashtable" ((ValueHash.hashMap fields).dump order)
            (by decide) described
  | bloom value =>
      cases described
      exact value.debugObject_line

namespace Database

/-- The database answers what handlers rely on and keeps its number. -/
theorem machine_honest
    {env : Env} {databases : Nat} {op : WriteOp} {db after : Database}
    {answer : op.Ret} (config : db.config.databases ≤ databases)
    (performed : (machine env).step op db = some (answer, after)) :
    op.Honest databases answer ∧ after.config.databases ≤ databases := by
  constructor
  · cases op with
    | read op =>
        obtain ⟨_, read, same⟩ := Option.map_eq_some_iff.mp performed
        cases same
        cases op with
        | config =>
            cases read
            exact config
        | debugObject value => exact value.debugObject_line read
        | _ => trivial
    | _ => trivial
  · rw [(perform_frame performed).1.config]
    exact config

end Database

open Command in
/-- What a handler may call and reply, for a client with this index. -/
def Handler.Obeys (databases dbindex : Nat) (argv : Arguments) :
    Handler → Prop
  | .reader handle =>
      (handle argv dbindex).Obeys (readContract databases) (Quotes argv)
  | .writer handle =>
      (handle argv dbindex).Obeys (writeContract databases) (Quotes argv)
  | .blocking handle =>
      (handle argv dbindex).Obeys (writeContract databases)
        (QuotesAnswer argv)
  | .server _ => True
  | .session _ => True

end RedVector
