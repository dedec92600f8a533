import RedVector.Command.Obeys

/-!
# Every handler obeys

One lemma for every handler, by the operations in its body.
-/

namespace RedVector.Command

open Util Effect Program

variable [Platform]

attribute [local simp] Option.forall

variable {databases dbindex : Nat} {α : Type} {argv : Arguments}

/-! ## Shared parts -/

section Parts

variable {key : Bytes} {method : Value → Option (Value.Change α)}

@[simp] theorem obeys_createThen
    {ends : Except Response (Operation α) → Prop} :
    (createThen dbindex key method).Obeys (writeContract databases) ends ↔
      dbindex < databases ∧ ∀ value answer after,
        method value = some (answer, after) → ends (.ok answer) := by
  simp only [createThen, obeys_bind, obeys_getOrCreate, then_ok,
    obeys_panics, obeys_put, obeys_pure, Prod.forall]
  constructor
  · rintro ⟨below, each⟩
    exact ⟨below, fun value answer after called =>
      (each value answer after called).2⟩
  · rintro ⟨below, each⟩
    exact ⟨below, fun value answer after called =>
      ⟨below, each value answer after called⟩⟩

@[simp] theorem obeys_mutThen
    {ends : Except Response (Option (Operation α)) → Prop} :
    (mutThen dbindex key method).Obeys (writeContract databases) ends ↔
      dbindex < databases ∧ ends (.ok none) ∧ ∀ value answer after,
        method value = some (answer, after) → ends (.ok (some answer)) := by
  simp only [mutThen, obeys_bind, obeys_getMut, then_ok, Option.forall,
    obeys_panics, obeys_put, obeys_pure, Prod.forall]
  constructor
  · rintro ⟨below, none, each⟩
    exact ⟨below, none, fun value answer after called =>
      (each value answer after called).2⟩
  · rintro ⟨below, none, each⟩
    exact ⟨below, none, fun value answer after called =>
      ⟨below, each value answer after called⟩⟩

@[simp] theorem obeys_updateOnSuccess
    {ends : Except Response Response → Prop} {result : Operation α}
    {ok : α → Response} (below : dbindex < databases) :
    (updateOnSuccess dbindex key result ok).Obeys (writeContract databases)
        ends ↔
      ends (.ok (respond result ok)) := by
  cases result with
  | ok value => simp [updateOnSuccess, respond, below]
  | error error => simp [updateOnSuccess, respond]

@[simp] theorem obeys_updateOnCount
    {ends : Except Response Response → Prop} {result : Operation Nat}
    (below : dbindex < databases) :
    (updateOnCount dbindex key result).Obeys (writeContract databases)
        ends ↔
      ends (.ok (respond result fun count => .integer count)) := by
  cases result with
  | ok count =>
      simp only [updateOnCount, respond]
      split
      · simp [below]
      · simp
  | error error => simp [updateOnCount, respond]

end Parts

/-! ## Strings -/

section Strings

theorem genericSet_obeys
    {key val : Bytes} {nx xx : Bool} {expiration : Option Int}
    {ends : Except Response Bool → Prop} (below : dbindex < databases)
    (always : ∀ done, ends (.ok done)) :
    (genericSet dbindex key val nx xx expiration).Obeys
      (writeContract databases) ends := by
  cases expiration with
  | none => simp [genericSet, below, always]
  | some msexp => simp [genericSet, below, always]

theorem genericGet_obeys
    {key : Bytes} {errOnWrongtype : Bool}
    {ends : Except Response Response → Prop} (below : dbindex < databases)
    (always : ∀ reply, reply.framed = true → ends (.ok reply)) :
    (genericGet dbindex key errOnWrongtype).Obeys (readContract databases)
      ends := by
  simp only [genericGet, obeys_bind, obeys_get, then_ok, Option.forall]
  refine ⟨below, always _ rfl, ?_⟩
  intro value
  cases value.get with
  | ok bytes => exact always _ rfl
  | error error =>
      apply always
      cases errOnWrongtype with
      | true => exact isLine_message error
      | false => rfl

theorem overwriteAll_obeys
    {pairs : List Bytes} {ends : Except Response Unit → Prop}
    (below : dbindex < databases) (always : ends (.ok ())) :
    (overwriteAll dbindex pairs).Obeys (writeContract databases) ends := by
  fun_induction overwriteAll dbindex pairs with
  | case1 key value rest ih => simp [overwrite, below, ih]
  | case2 => simp [always]

theorem anyExists_obeys
    {pairs : List Bytes} {ends : Except Response Bool → Prop}
    (below : dbindex < databases) (always : ∀ found, ends (.ok found)) :
    (anyExists dbindex pairs).Obeys (readContract databases) ends := by
  fun_induction anyExists dbindex pairs with
  | case1 key value rest ih => simp [below, ih, always]
  | case2 => simp [always]

theorem presentValues_obeys
    {keys : List Bytes} {ends : Except Response (List Value) → Prop}
    (below : dbindex < databases) (always : ∀ values, ends (.ok values)) :
    (presentValues dbindex keys).Obeys (readContract databases) ends := by
  induction keys generalizing ends with
  | nil => simp [presentValues, always]
  | cons key rest ih =>
      simp only [presentValues, obeys_bind, obeys_get, then_ok,
        Option.forall]
      refine ⟨below, ih always, ?_⟩
      intro value
      apply ih
      intro values
      exact always (value :: values)

/-- A part that is run for each element of a list. -/
theorem mapM_obeys
    {β : Type} {part : α → Reader β} {elements : List α}
    (good : β → Prop) {ends : Except Response (List β) → Prop}
    (each : ∀ element (ends : Except Response β → Prop),
      (∀ answer, good answer → ends (.ok answer)) →
        (part element).Obeys (readContract databases) ends)
    (always : ∀ answers, (∀ answer ∈ answers, good answer) →
      ends (.ok answers)) :
    (elements.mapM part).Obeys (readContract databases) ends := by
  induction elements generalizing ends with
  | nil =>
      rw [List.mapM_nil]
      exact always [] nofun
  | cons element rest ih =>
      rw [List.mapM_cons, obeys_bind]
      apply each
      intro answer isGood
      rw [then_ok, obeys_bind]
      apply ih
      intro answers areGood
      exact always _ (List.forall_mem_cons.mpr ⟨isGood, areGood⟩)

theorem setOptions_plain
    {remaining i : Nat} {options : SetOptions}
    {found : Except Response SetOptions}
    (read : setOptions argv remaining i options = some found) :
    Plain found := by
  fun_induction setOptions argv remaining i options with
  | case1 => cases read; simp
  | case2 => cases read; simp
  | case4 => rename_i ih; exact ih read
  | case5 => rename_i ih; exact ih read
  | case7 => rename_i ih; exact ih read
  | case9 =>
      rename_i ih
      obtain ⟨px, -, read⟩ := Option.bind_eq_some_iff.mp read
      exact ih px read
  | _ => cases read; simp +decide

/-- The replies about items that were added. -/
theorem bfAddAll_framed
    {items : List Bytes} {value after : Value} {replies : List Response}
    (added : bfAddAll items value = (.ok replies, after)) :
    ∀ reply ∈ replies, reply.framed = true := by
  fun_induction bfAddAll items value generalizing replies after with
  | case1 => cases added; simp
  | case4 item rest value one later _ result final more ih =>
      cases added
      exact List.forall_mem_cons.mpr ⟨rfl, ih more⟩
  | _ => cases added

omit [Platform] in
/-- What a check makes of each element of a list. -/
theorem forall_of_mapM
    {ε β : Type} {check : α → Except ε β} {good : β → Prop}
    {elements : List α} {answers : List β}
    (each : ∀ element answer, check element = .ok answer → good answer)
    (ran : elements.mapM check = .ok answers) :
    ∀ answer ∈ answers, good answer := by
  induction elements generalizing answers with
  | nil =>
      cases ran
      exact nofun
  | cons element rest ih =>
      rw [List.mapM_cons] at ran
      cases first : check element with
      | error error =>
          rw [first] at ran
          cases ran
      | ok answer =>
          rw [first] at ran
          cases others : rest.mapM check with
          | error error =>
              rw [others] at ran
              cases ran
          | ok more =>
              rw [others] at ran
              cases ran
              exact List.forall_mem_cons.mpr
                ⟨each element answer first, ih others⟩

omit [Platform] in
theorem plain_mapM
    {β : Type} {check : α → Except Response β} {elements : List α}
    (each : ∀ element, Plain (check element)) :
    Plain (elements.mapM check) := by
  induction elements with
  | nil => simp
  | cons element rest ih => simp [each, ih]

variable (argv) (below : dbindex < databases)

include below

theorem set_obeys :
    (set argv dbindex).Obeys (writeContract databases) (Quotes argv) := by
  simp +decide [set]
  intro _ key _ val _ options read
  apply (setOptions_plain read).then
  · exact fun reply framed _ => framed
  · intro options _
    rw [obeys_bind]
    apply genericSet_obeys below
    intro done
    cases done with
    | true => simp
    | false => simp

theorem setnx_obeys :
    (setnx argv dbindex).Obeys (writeContract databases) (Quotes argv) := by
  simp +decide [setnx, genericSet, below]

theorem setex_obeys :
    (setex argv dbindex).Obeys (writeContract databases) (Quotes argv) := by
  simp +decide [setex, genericSet, below]

theorem psetex_obeys :
    (psetex argv dbindex).Obeys (writeContract databases) (Quotes argv) := by
  simp +decide [psetex, genericSet, below]

theorem append_obeys :
    (append argv dbindex).Obeys (writeContract databases) (Quotes argv) := by
  simp +decide [append, tooLong, below]
  intros
  split
  · simp
  · simp +decide [below]

theorem get_obeys :
    (get argv dbindex).Obeys (readContract databases) (Quotes argv) := by
  simp +decide [get]
  intros
  exact genericGet_obeys below fun reply framed _ => framed

theorem getset_obeys :
    (getset argv dbindex).Obeys (writeContract databases) (Quotes argv) := by
  simp +decide [getset]
  intros
  apply genericGet_obeys below
  intro reply framed
  simp [overwrite, below, framed]

theorem mset_obeys :
    (mset argv dbindex).Obeys (writeContract databases) (Quotes argv) := by
  simp +decide [mset]
  intros
  apply overwriteAll_obeys below
  simp

theorem msetnx_obeys :
    (msetnx argv dbindex).Obeys (writeContract databases) (Quotes argv) := by
  simp +decide [msetnx]
  intros
  apply anyExists_obeys below
  intro found
  cases found with
  | true => simp
  | false =>
      simp
      apply overwriteAll_obeys below
      simp

theorem mget_obeys :
    (mget argv dbindex).Obeys (readContract databases) (Quotes argv) := by
  simp +decide [mget]
  intros
  apply mapM_obeys fun reply : Response => reply.framed = true
  · intro key ends always
    exact genericGet_obeys below always
  · intro replies framed
    simpa using fun _ => framed

theorem getrange_obeys :
    (getrange argv dbindex).Obeys (readContract databases) (Quotes argv) := by
  simp +decide [getrange, below]

theorem setrange_obeys :
    (setrange argv dbindex).Obeys (writeContract databases) (Quotes argv) := by
  simp +decide [setrange, tooLong, below]

theorem setbit_obeys :
    (setbit argv dbindex).Obeys (writeContract databases) (Quotes argv) := by
  simp +decide [setbit, below]

theorem getbit_obeys :
    (getbit argv dbindex).Obeys (readContract databases) (Quotes argv) := by
  simp +decide [getbit, below]

theorem strlen_obeys :
    (strlen argv dbindex).Obeys (readContract databases) (Quotes argv) := by
  simp +decide [strlen, below]

theorem genericIncr_obeys (increment : Int) :
    (genericIncr argv dbindex increment).Obeys (writeContract databases)
      (Quotes argv) := by
  simp +decide [genericIncr, below]

theorem incr_obeys :
    (incr argv dbindex).Obeys (writeContract databases) (Quotes argv) := by
  simp +decide [incr, genericIncr_obeys argv below]

theorem decr_obeys :
    (decr argv dbindex).Obeys (writeContract databases) (Quotes argv) := by
  simp +decide [decr, genericIncr_obeys argv below]

theorem incrby_obeys :
    (incrby argv dbindex).Obeys (writeContract databases) (Quotes argv) := by
  simp +decide [incrby]
  intros
  split
  · exact genericIncr_obeys argv below _
  · simp +decide

theorem decrby_obeys :
    (decrby argv dbindex).Obeys (writeContract databases) (Quotes argv) := by
  simp +decide [decrby]
  intros
  split
  · simp [genericIncr_obeys argv below]
  · simp +decide

theorem incrbyfloat_obeys :
    (incrbyfloat argv dbindex).Obeys (writeContract databases)
      (Quotes argv) := by
  simp +decide [incrbyfloat, below]

theorem pfadd_obeys :
    (pfadd argv dbindex).Obeys (writeContract databases) (Quotes argv) := by
  simp +decide [pfadd, below]

theorem pfcount_obeys :
    (pfcount argv dbindex).Obeys (readContract databases) (Quotes argv) := by
  simp +decide [pfcount, below]
  intros
  apply presentValues_obeys below
  intro values
  simp
  intro merged val _
  cases merged with
  | error error => simp
  | ok done => simp

theorem pfmerge_obeys :
    (pfmerge argv dbindex).Obeys (writeContract databases) (Quotes argv) := by
  simp +decide [pfmerge, below]
  intros
  constructor
  · apply presentValues_obeys below
    simp [below]
  · intros
    apply presentValues_obeys below
    simp [below]

theorem pfdebug_obeys :
    (pfdebug argv dbindex).Obeys (readContract databases) (Quotes argv) := by
  simp +decide [pfdebug, pfdebugString, below]
  intro _ subcommand _ key _
  constructor
  · intro _ value
    cases value <;> simp +decide
  · intro _ _ _ value
    cases value <;> simp +decide

theorem bfReserve_obeys :
    (bfReserve argv dbindex).Obeys (writeContract databases)
      (Quotes argv) := by
  simp +decide [bfReserve, below]

theorem bfAdd_obeys :
    (bfAdd argv dbindex).Obeys (writeContract databases) (Quotes argv) := by
  simp +decide [bfAdd, below]

theorem bfMadd_obeys :
    (bfMadd argv dbindex).Obeys (writeContract databases) (Quotes argv) := by
  simp +decide [bfMadd, below]
  intro _ key _ value answer after added _ replies same
  exact bfAddAll_framed (same ▸ added)

theorem bfExists_obeys :
    (bfExists argv dbindex).Obeys (readContract databases) (Quotes argv) := by
  simp +decide [bfExists, below]

theorem bfMexists_obeys :
    (bfMexists argv dbindex).Obeys (readContract databases)
      (Quotes argv) := by
  simp +decide [bfMexists, below]
  intro _ key _ value _ replies found
  refine forall_of_mapM ?_ found
  intro item reply replied
  cases checked : value.bfExists item with
  | ok here =>
      rw [checked] at replied
      cases replied
      rfl
  | error error =>
      rw [checked] at replied
      cases replied

end Strings

/-! ## Keys -/

section Keys

theorem delAll_obeys
    {keys : List Bytes} {ends : Except Response Nat → Prop}
    (below : dbindex < databases) (always : ∀ count, ends (.ok count)) :
    (delAll dbindex keys).Obeys (writeContract databases) ends := by
  induction keys generalizing ends with
  | nil => simp [delAll, always]
  | cons key rest ih =>
      simp [delAll, below]
      constructor
      · exact ih always
      · intro value
        apply ih
        exact fun count => always (count + 1)

omit [Platform] in
@[simp] theorem framed_scanReply (cursor : Nat) (entries : List Bytes) :
    (scanReply cursor entries).framed = true := by
  rw [scanReply, Response.framed_array]
  simp only [List.forall_mem_cons]
  refine ⟨rfl, ?_, nofun⟩
  rw [Response.framed_array]
  simp

omit [Platform] in
theorem sortOptions_plain (arguments : List Bytes) (options : SortOptions) :
    Plain (sortOptions arguments options) := by
  fun_induction sortOptions arguments options with
  | _ => simp_all +decide [numberOf]

theorem stringOf_obeys
    {key : Bytes} {ends : Except Response (Option Bytes) → Prop}
    (below : dbindex < databases) (always : ∀ found, ends (.ok found)) :
    (stringOf dbindex key).Obeys (readContract databases) ends := by
  simp [stringOf, below, always]

theorem weighted_obeys
    {pattern : Bytes} {elements : List Bytes}
    {ends : Except Response (List (F64 × Bytes)) → Prop}
    (below : dbindex < databases) (always : ∀ weights, ends (.ok weights)) :
    (weighted dbindex pattern elements).Obeys (readContract databases)
      ends := by
  induction elements generalizing ends with
  | nil => simp [weighted, always]
  | cons element rest ih =>
      rw [weighted, obeys_bind]
      apply stringOf_obeys below
      intro found
      rw [then_ok, obeys_bind]
      apply ih
      intro weights
      exact always _

theorem sortElements_obeys
    {options : SortOptions} {elements : List Bytes}
    {ends : Except Response (List Bytes) → Prop}
    (below : dbindex < databases) (always : ∀ sorted, ends (.ok sorted)) :
    (sortElements dbindex options elements).Obeys (readContract databases)
      ends := by
  unfold sortElements
  split
  · rw [obeys_bind]
    apply weighted_obeys below
    simp [always]
  · simp [always]

theorem getPattern_obeys
    {element pattern : Bytes} {ends : Except Response Response → Prop}
    (below : dbindex < databases)
    (always : ∀ reply, reply.framed = true → ends (.ok reply)) :
    (getPattern dbindex element pattern).Obeys (readContract databases)
      ends := by
  unfold getPattern
  split
  · exact always _ rfl
  · rw [obeys_bind]
    apply stringOf_obeys below
    intro found
    cases found with
    | some bytes => exact always _ rfl
    | none => exact always _ rfl

theorem sortResult_obeys
    {options : SortOptions} {elements : List Bytes}
    {ends : Except Response (List Response) → Prop}
    (below : dbindex < databases)
    (always : ∀ replies, (∀ reply ∈ replies, reply.framed = true) →
      ends (.ok replies)) :
    (sortResult dbindex options elements).Obeys (readContract databases)
      ends := by
  unfold sortResult
  split
  · apply always
    simp
  · rw [obeys_bind]
    apply mapM_obeys fun row : List Response =>
      ∀ reply ∈ row, reply.framed = true
    · intro element ends always
      apply mapM_obeys fun reply : Response => reply.framed = true
      · intro pattern ends always
        exact getPattern_obeys below always
      · exact always
    · intro rows framed
      apply always
      simpa using fun reply row member among => framed row member reply among

theorem sortSource_obeys
    {value : Value} {ends : Except Response (List Bytes) → Prop}
    (fails : ∀ reply, reply.framed = true → ends (.error reply))
    (always : ∀ elements, ends (.ok elements)) :
    (sortSource value).Obeys (readContract databases) ends := by
  cases value with
  | list list => exact always list
  | set set => simp [sortSource, always]
  | sortedSet zset => exact always _
  | _ => exact fails _ (by decide)

theorem sorted_obeys
    {ends : Except Response (List Response × Option Bytes) → Prop}
    (below : dbindex < databases)
    (fails : ∀ reply, (isLine (argv.headD []) = true →
      reply.framed = true) → ends (.error reply))
    (always : ∀ replies store, (∀ reply ∈ replies, reply.framed = true) →
      ends (.ok (replies, store))) :
    (sorted argv dbindex).Obeys (readContract databases) ends := by
  have plain : ∀ reply : Response, reply.framed = true →
      ends (.error reply) :=
    fun reply framed => fails reply fun _ => framed
  simp only [sorted, obeys_bind, obeys_ofExcept, then_gte, then_valid,
    obeys_get, then_ok, Option.forall]
  refine ⟨fun _ => ⟨fun key _ => ⟨below, plain _ (by decide), ?_⟩,
    fun _ _ => plain _ (by decide)⟩,
    fun _ => fails _ (framed_wrongNumber argv).mpr⟩
  intro value
  apply sortSource_obeys plain
  intro elements
  rw [then_ok, obeys_bind, obeys_ofExcept]
  apply (sortOptions_plain _ _).then plain
  intro options _
  rw [obeys_bind]
  apply sortElements_obeys below
  intro elements
  simp only [then_ok, obeys_bind, obeys_panics]
  intro elements _
  apply sortResult_obeys below
  intro replies framed
  exact always replies _ framed

theorem stringsOf_obeys
    {keys : List Bytes} {ends : Except Response (List (Option Bytes)) → Prop}
    (below : dbindex < databases) (always : ∀ found, ends (.ok found)) :
    (stringsOf dbindex keys).Obeys (readContract databases) ends := by
  apply mapM_obeys fun _ => True
  · intro key ends always
    exact stringOf_obeys below fun found => always found trivial
  · exact fun found _ => always found

theorem bitopResult_obeys
    {op : Bytes} {sources : List Bytes} {ends : Except Response Bytes → Prop}
    (below : dbindex < databases)
    (fails : ∀ reply, reply.framed = true → ends (.error reply))
    (always : ∀ result, ends (.ok result)) :
    (bitopResult op dbindex sources).Obeys (readContract databases) ends := by
  unfold bitopResult
  split
  · rw [obeys_ite]
    refine ⟨fun _ => fails _ (by decide), fun _ => ?_⟩
    rw [obeys_bind]
    apply stringsOf_obeys below
    simp [always]
  · split
    · split
      · rw [obeys_bind]
        apply stringOf_obeys below
        simp [always]
      · exact fails _ (by decide)
    · exact fails _ (by decide)

variable (argv) (below : dbindex < databases)

include below

theorem exists_obeys :
    (exists' argv dbindex).Obeys (readContract databases) (Quotes argv) := by
  simp +decide [exists', below]

theorem del_obeys :
    (del argv dbindex).Obeys (writeContract databases) (Quotes argv) := by
  simp +decide [del]
  intros
  apply delAll_obeys below
  simp

theorem debug_obeys :
    (debug argv dbindex).Obeys (readContract databases) (Quotes argv) := by
  simp +decide [debug, below]
  intro _ subcommand _
  refine ⟨fun _ _ key _ value description line _ => line, fun _ => ?_⟩
  refine ⟨fun _ => ?_, fun _ => ⟨fun _ => ?_, fun _ _ _ seconds _ => ?_⟩⟩
  · unfold validateArgumentsExact
    split
    · simp +decide
    · simp
  · unfold validateArgumentsExact
    split
    · simp +decide
    · simp
  · split
    · simp +decide
    · simp +decide

theorem dbsize_obeys :
    (dbsize argv dbindex).Obeys (readContract databases) (Quotes argv) := by
  simp +decide [dbsize, below]

theorem dump_obeys :
    (dump argv dbindex).Obeys (readContract databases) (Quotes argv) := by
  simp +decide [dump, below]

theorem restore_obeys :
    (restore argv dbindex).Obeys (readContract databases) (Quotes argv) := by
  simp +decide [restore, below]

theorem sort_obeys :
    (sort argv dbindex).Obeys (writeContract databases) (Quotes argv) := by
  simp +decide [sort]
  apply sorted_obeys below
  · exact fun reply framed => framed
  · intro replies store framed
    cases store with
    | some key => simp [below]
    | none => simpa using fun _ => framed

theorem expireWith_obeys (absolute : Int → Int → Option Int) :
    (expireWith absolute argv dbindex).Obeys (writeContract databases)
      (Quotes argv) := by
  simp +decide [expireWith, genericExpire, below]

theorem expireAtWith_obeys (absolute : Int → Option Int) :
    (expireAtWith absolute argv dbindex).Obeys (writeContract databases)
      (Quotes argv) := by
  simp +decide [expireAtWith, genericExpire, below]

theorem ttl_obeys :
    (ttl argv dbindex).Obeys (readContract databases) (Quotes argv) := by
  simp +decide [ttl, genericTtl, below]

theorem pttl_obeys :
    (pttl argv dbindex).Obeys (readContract databases) (Quotes argv) := by
  simp +decide [pttl, genericTtl, below]

theorem persist_obeys :
    (persist argv dbindex).Obeys (writeContract databases) (Quotes argv) := by
  simp +decide [persist, below]

theorem flushdb_obeys :
    (flushdb argv dbindex).Obeys (writeContract databases) (Quotes argv) := by
  simp +decide [flushdb, below]

omit below in
theorem flushall_obeys :
    (flushall argv dbindex).Obeys (writeContract databases) (Quotes argv) := by
  simp +decide [flushall]

theorem dbtype_obeys :
    (dbtype argv dbindex).Obeys (readContract databases) (Quotes argv) := by
  simp +decide [dbtype, below]

theorem keys_obeys :
    (keys argv dbindex).Obeys (readContract databases) (Quotes argv) := by
  simp +decide [keys, below]

theorem randomkey_obeys :
    (randomkey argv dbindex).Obeys (readContract databases) (Quotes argv) := by
  simp +decide [randomkey, below]

theorem moveKey_obeys :
    (moveKey argv dbindex).Obeys (writeContract databases) (Quotes argv) := by
  simp +decide [moveKey, below]
  intro _ key _ target _ config same lower upper _ value
  have inside : target.toNat < databases := by omega
  exact ⟨inside, fun _ => inside⟩

theorem renameTo_obeys
    {key newkey : Bytes} {value : Value} {ends : Except Response Unit → Prop}
    (always : ends (.ok ())) :
    (renameTo dbindex key newkey value).Obeys (writeContract databases)
      ends := by
  simp [renameTo, below, always]

theorem rename_obeys :
    (rename argv dbindex).Obeys (writeContract databases) (Quotes argv) := by
  simp +decide [rename, below]
  intros
  apply renameTo_obeys below
  simp

theorem renamenx_obeys :
    (renamenx argv dbindex).Obeys (writeContract databases) (Quotes argv) := by
  simp +decide [renamenx, below]
  intros
  apply renameTo_obeys below
  simp

theorem object_obeys :
    (object argv dbindex).Obeys (readContract databases) (Quotes argv) := by
  simp +decide [object, aboutKey, below]
  intro _ subcommand _ key _ _ value
  cases encodingName value <;> simp

omit [Platform] below in
theorem scanOptions_plain (arguments : List Bytes) (options : ScanOptions) :
    Plain (scanOptions arguments options) := by
  fun_induction scanOptions arguments options with
  | _ => simp_all +decide [numberOf]

theorem scan_obeys :
    (scan argv dbindex).Obeys (readContract databases) (Quotes argv) := by
  simp +decide [scan]
  intros
  apply (scanOptions_plain _ _).then
  · exact fun reply framed _ => framed
  · simp [below]

theorem scanKey_obeys {entries : (Finset Bytes → List Bytes) → Value →
      Operation (List α)}
    {name : α → Bytes} {entry : α → List Bytes}  :
    (scanKey entries name entry argv dbindex).Obeys (readContract databases)
      (Quotes argv) := by
  simp +decide [scanKey]
  intros
  apply (scanOptions_plain _ _).then
  · exact fun reply framed _ => framed
  · simp [below]
    intro options _ value order
    cases entries order value <;> simp

omit [Platform] below in
theorem byteIndex_plain
    {pos default : Nat} {message : String}
    (line : isLine (text message) = true) :
    Plain (byteIndex argv pos default message) := by
  simp [byteIndex, line]

theorem bitcount_obeys :
    (bitcount argv dbindex).Obeys (readContract databases) (Quotes argv) := by
  simp +decide [bitcount]
  intros
  refine Plain.then (byteIndex_plain argv ?_) ?_ ?_
  · decide
  · exact fun reply framed _ => framed
  intro start _
  rw [obeys_bind, obeys_ofExcept]
  refine Plain.then (byteIndex_plain argv ?_) ?_ ?_
  · decide
  · exact fun reply framed _ => framed
  intro stop _
  rw [obeys_bind]
  apply stringOf_obeys below
  intro found
  cases found <;> simp

theorem bitpos_obeys :
    (bitpos argv dbindex).Obeys (readContract databases) (Quotes argv) := by
  simp +decide [bitpos]
  intros
  refine Plain.then (byteIndex_plain argv ?_) ?_ ?_
  · decide
  · exact fun reply framed _ => framed
  intro start _
  rw [obeys_bind, obeys_ofExcept]
  refine Plain.then (byteIndex_plain argv ?_) ?_ ?_
  · decide
  · exact fun reply framed _ => framed
  intro stop _
  rw [obeys_bind]
  apply stringOf_obeys below
  intro found
  cases found with
  | none => simp
  | some data =>
      simp
      intro first slice _
      split <;> simp

theorem bitop_obeys :
    (bitop argv dbindex).Obeys (writeContract databases) (Quotes argv) := by
  simp +decide [bitop]
  intros
  apply bitopResult_obeys below
  · exact fun reply framed _ => framed
  · simp [overwrite, below]

end Keys

/-! ## Lists -/

section Lists

omit [Platform] in
@[simp] theorem framed_poppedReply (popped : Option Bytes) :
    (poppedReply popped).framed = true := by
  cases popped with
  | some val => rfl
  | none => rfl

omit [Platform] in
@[simp] theorem framed_dataArray (items : List Bytes) :
    (dataArray items).framed = true := by
  rw [dataArray, Response.framed_array]
  simp

theorem pushAll_obeys
    {key : Bytes} {right create : Bool} {values : List Bytes} {r : Response}
    {ends : Except Response Response → Prop} (below : dbindex < databases)
    (framed : r.framed = true)
    (fails : ∀ reply, reply.framed = true → ends (.error reply))
    (always : ∀ reply, reply.framed = true → ends (.ok reply)) :
    (pushAll dbindex key right create values r).Obeys
      (writeContract databases) ends := by
  induction values generalizing r with
  | nil => exact always r framed
  | cons val rest ih =>
      cases create with
      | true =>
          simp [pushAll, below]
          intro value answer after _
          apply ih
          simp
      | false =>
          simp [pushAll, below]
          refine ⟨fails _ rfl, ?_⟩
          intro value answer after _
          apply ih
          simp

theorem mutAndUpdate_obeys
    {key : Bytes} {method : Value → Option (Value.Change α)}
    {ok : α → Response} {missing : Response} (below : dbindex < databases)
    (plain : ∀ value, (ok value).framed = true)
    (missingPlain : missing.framed = true) :
    (mutAndUpdate dbindex key method ok missing).Obeys
      (writeContract databases) (Quotes argv) := by
  simp [mutAndUpdate, below, plain, missingPlain]

theorem moveElement_obeys
    {source destination : Bytes} {ends : Except Response Response → Prop}
    (below : dbindex < databases)
    (always : ∀ reply, reply.framed = true → ends (.ok reply)) :
    (moveElement dbindex source destination).Obeys
      (writeContract databases) ends := by
  simp only [moveElement, obeys_bind, obeys_getMut, then_ok, Option.forall]
  refine ⟨below, always _ rfl, ?_⟩
  intro list
  split
  · rw [obeys_bind, obeys_put]
    refine ⟨below, ?_⟩
    cases (list.pop true).1 with
    | error error => exact always _ (isLine_message error)
    | ok popped =>
        cases popped with
        | none => exact always _ rfl
        | some el =>
            simp [below]
            intro value answer after _
            cases answer with
            | error error => exact always _ (isLine_message error)
            | ok length =>
                simp [below]
                exact always _ rfl
  · exact always _ (by decide)

theorem genericRpoplpush_obeys
    {source destination : Bytes} {ends : Except Response Response → Prop}
    (below : dbindex < databases)
    (fails : ∀ reply, reply.framed = true → ends (.error reply))
    (always : ∀ reply, reply.framed = true → ends (.ok reply)) :
    (genericRpoplpush dbindex source destination).Obeys
      (writeContract databases) ends := by
  simp [genericRpoplpush, below, moveElement_obeys below always]
  intro _ _
  exact fails _ (by decide)

theorem waitFor_obeys
    {keys arguments : List Bytes} {timeout : Int}
    {ends : Except Response Answer → Prop} (below : dbindex < databases)
    (always : ∀ wait, ends (.ok (.error (.wait wait)))) :
    (waitFor dbindex keys arguments timeout).Obeys
      (writeContract databases) ends := by
  simp [waitFor]
  intro time mailbox
  generalize ({ arguments, timeout, time, mailbox } : Wait) = wait
  induction keys with
  | nil => exact always wait
  | cons key rest ih =>
      rw [List.forM_cons]
      simp [below]
      exact ih

theorem popFirst_obeys
    {right : Bool} {keys : List Bytes}
    {ends : Except Response (Option Response) → Prop}
    (below : dbindex < databases)
    (always : ∀ popped : Option Response,
      (∀ reply ∈ popped, reply.framed = true) → ends (.ok popped)) :
    (popFirst dbindex right keys).Obeys (writeContract databases) ends := by
  induction keys with
  | nil => exact always none nofun
  | cons key rest ih =>
      simp [popFirst, below]
      refine ⟨ih, ?_⟩
      intro value answer after _
      match answer with
      | .error error =>
          refine always (some _) ?_
          rintro reply ⟨⟩
          exact isLine_message error
      | .ok none => exact ih
      | .ok (some val) => 
          simp [below]
          apply always
          simp +decide

variable (argv) (below : dbindex < databases)

include below

theorem genericPush_obeys (right create : Bool) :
    (genericPush argv dbindex right create).Obeys (writeContract databases)
      (Quotes argv) := by
  simp +decide [genericPush]
  intros
  apply pushAll_obeys below rfl
  · exact fun reply framed _ => framed
  · intro reply framed
    simp [below, framed]

theorem genericPop_obeys (right : Bool) :
    (genericPop argv dbindex right).Obeys (writeContract databases)
      (Quotes argv) := by
  simp +decide [genericPop]
  intros
  exact mutAndUpdate_obeys below framed_poppedReply rfl

theorem rpoplpush_obeys :
    (rpoplpush argv dbindex).Obeys (writeContract databases)
      (Quotes argv) := by
  simp +decide [rpoplpush]
  intros
  apply genericRpoplpush_obeys below
  · exact fun reply framed _ => framed
  · exact fun reply framed _ => framed

theorem brpoplpush_obeys :
    (brpoplpush argv dbindex).Obeys (writeContract databases)
      (QuotesAnswer argv) := by
  simp +decide [brpoplpush]
  intro _ source _ destination _ timeout _
  apply genericRpoplpush_obeys below
  · exact fun reply framed _ => framed
  · intro reply framed
    rw [then_ok]
    split
    · exact waitFor_obeys below fun _ => trivial
    · exact fun _ => framed

theorem genericBpop_obeys (right : Bool) :
    (genericBpop argv dbindex right).Obeys (writeContract databases)
      (QuotesAnswer argv) := by
  simp +decide [genericBpop]
  intro _
  apply popFirst_obeys below
  intro popped framed
  rw [then_ok]
  cases popped with
  | some reply => exact fun _ => framed reply rfl
  | none =>
      simp +decide
      intro timeout _
      exact waitFor_obeys below fun _ => trivial

theorem lindex_obeys :
    (lindex argv dbindex).Obeys (readContract databases) (Quotes argv) := by
  simp +decide [lindex, below]

theorem linsert_obeys :
    (linsert argv dbindex).Obeys (writeContract databases) (Quotes argv) := by
  simp +decide [linsert]
  intro _ key _ place _ pivot _ value _
  have plain : ∀ length : Option Nat, (insertedReply length).framed = true := by
    intro length
    cases length <;> rfl
  exact ⟨fun _ => mutAndUpdate_obeys below plain rfl,
    fun _ _ => mutAndUpdate_obeys below plain rfl⟩

theorem llen_obeys :
    (llen argv dbindex).Obeys (readContract databases) (Quotes argv) := by
  simp +decide [llen, below]

theorem lrange_obeys :
    (lrange argv dbindex).Obeys (readContract databases) (Quotes argv) := by
  simp +decide [lrange, below]

theorem lrem_obeys :
    (lrem argv dbindex).Obeys (writeContract databases) (Quotes argv) := by
  simp +decide [lrem]
  intros
  exact mutAndUpdate_obeys below (fun _ => rfl) (by decide)

theorem lset_obeys :
    (lset argv dbindex).Obeys (writeContract databases) (Quotes argv) := by
  simp +decide [lset]
  intros
  exact mutAndUpdate_obeys below (fun _ => rfl) (by decide)

theorem ltrim_obeys :
    (ltrim argv dbindex).Obeys (writeContract databases) (Quotes argv) := by
  simp +decide [ltrim]
  intros
  exact mutAndUpdate_obeys below (fun _ => rfl) (by decide)

end Lists

/-! ## Sets -/

section Sets

variable (argv) (below : dbindex < databases)

include below

theorem changeElements_obeys
    (method : Bytes → Value → Value.Change Bool) :
    (changeElements argv dbindex method).Obeys (writeContract databases)
      (Quotes argv) := by
  simp +decide [changeElements, below]

theorem sadd_obeys :
    (sadd argv dbindex).Obeys (writeContract databases) (Quotes argv) := by
  simp +decide [sadd, changeElements_obeys argv below]

theorem srem_obeys :
    (srem argv dbindex).Obeys (writeContract databases) (Quotes argv) := by
  simp +decide [srem, changeElements_obeys argv below]

theorem sismember_obeys :
    (sismember argv dbindex).Obeys (readContract databases)
      (Quotes argv) := by
  simp +decide [sismember, below]

omit below in
theorem srandmemberOf_obeys
    {value : Value} {count : Nat} {allowDuplicates : Bool}
    {ends : Except Response (Operation (List Bytes)) → Prop}
    (always : ∀ members, ends (.ok members)) :
    (srandmemberOf value count allowDuplicates).Obeys
      (readContract databases) ends := by
  cases value <;> simp [srandmemberOf, always]

theorem srandmember_obeys :
    (srandmember argv dbindex).Obeys (readContract databases)
      (Quotes argv) := by
  simp +decide [srandmember, below]
  intro _ _ key _
  constructor
  · split <;> simp
  · intro value
    constructor
    · intro _
      apply srandmemberOf_obeys
      simp [firstElement]
    · intros
      apply srandmemberOf_obeys
      simp

theorem smembers_obeys :
    (smembers argv dbindex).Obeys (readContract databases)
      (Quotes argv) := by
  simp +decide [smembers, below]

omit below in
theorem spopOf_obeys
    {value : Value} {count : Nat}
    {ends : Except Response (Value.Change (List Bytes)) → Prop}
    (always : ∀ change, ends (.ok change)) :
    (spopOf value count).Obeys (readContract databases) ends := by
  cases value <;> simp [spopOf, drawMembers, always]

theorem spop_obeys :
    (spop argv dbindex).Obeys (writeContract databases) (Quotes argv) := by
  simp +decide [spop, below]
  intro _ _ key _
  constructor
  · split <;> simp
  · intro value
    constructor
    · intro _
      apply spopOf_obeys
      simp [firstElement, below]
    · intros
      apply spopOf_obeys
      simp [below]

theorem smove_obeys :
    (smove argv dbindex).Obeys (writeContract databases) (Quotes argv) := by
  simp only [smove, obeys_bind, obeys_ofExcept, then_exact, then_valid,
    obeys_lift_read, obeys_get, then_ok, Option.forall]
  refine ⟨fun _ => ⟨fun source _ => ⟨fun destination _ =>
    ⟨fun member _ => ?_, ?_⟩, ?_⟩, ?_⟩, ?_⟩
  · refine ⟨below, ?_, fun value => obeys_ite.mpr ⟨fun _ =>
      (obeys_bind _ _ _).mpr ?_, fun _ => ?_⟩⟩
    rotate_right
    · simp +decide
    -- the member is moved in the same way with and without a destination
    all_goals
      simp [below]
      intro value answer after _
      rcases answer with error | _ | _
      · simp
      · simp
      · simp [below]
        intro config _ target added more _
        cases added <;> simp [below]
  · simp +decide
  · simp +decide
  · simp +decide
  · simp

theorem scard_obeys :
    (scard argv dbindex).Obeys (readContract databases) (Quotes argv) := by
  simp +decide [scard, below]

theorem getValues_obeys
    {default : Value} {keys : List Bytes}
    {ends : Except Response (List Value) → Prop}
    (always : ∀ values, ends (.ok values)) :
    (getValues dbindex default keys).Obeys (readContract databases)
      ends := by
  apply mapM_obeys fun _ => True
  · intro key ends always
    simp [below, always]
  · exact fun values _ => always values

theorem setAlgebra_obeys
    (operation : List Value → Value → Operation (Finset Bytes))
    (default : Option Value) :
    (setAlgebra operation default argv dbindex).Obeys
      (readContract databases) (Quotes argv) := by
  simp +decide [setAlgebra, below]
  intro key _
  constructor
  · cases default with
    | none => simp
    | some value =>
        simp
        apply getValues_obeys below
        simp
  · intro value
    apply getValues_obeys below
    simp

theorem setAlgebraStore_obeys
    (operation : List Value → Value → Operation (Finset Bytes))
    (default : Option Value) :
    (setAlgebraStore operation default argv dbindex).Obeys
      (writeContract databases) (Quotes argv) := by
  simp +decide [setAlgebraStore, below]
  intro _ destination _ key _
  constructor
  · cases default with
    | none => simp
    | some value =>
        simp
        apply getValues_obeys below
        intro sets
        rw [then_ok]
        cases operation sets value <;> simp [below]
  · intro value
    apply getValues_obeys below
    intro sets
    rw [then_ok]
    cases operation sets value <;> simp [below]

end Sets

/-! ## Hashes -/

section Hashes

variable (argv) (below : dbindex < databases)

include below

theorem hset_obeys :
    (hset argv dbindex).Obeys (writeContract databases) (Quotes argv) := by
  simp +decide [hset, below]

theorem hsetnx_obeys :
    (hsetnx argv dbindex).Obeys (writeContract databases) (Quotes argv) := by
  simp +decide [hsetnx, setNew, below]
  intro _ key _ field _ value _ el
  split <;> simp [below]

theorem hget_obeys :
    (hget argv dbindex).Obeys (readContract databases) (Quotes argv) := by
  simp +decide [hget, below]

theorem hmset_obeys :
    (hmset argv dbindex).Obeys (writeContract databases) (Quotes argv) := by
  simp +decide [hmset, below]

theorem hmget_obeys :
    (hmget argv dbindex).Obeys (readContract databases) (Quotes argv) := by
  simp +decide [hmget, below]
  intro _ key _ el _ replies found
  refine forall_of_mapM ?_ found
  intro field reply replied
  cases got : el.hget field with
  | ok value =>
      rw [got] at replied
      cases replied
      exact framed_poppedReply value
  | error error =>
      rw [got] at replied
      cases replied

theorem hdel_obeys :
    (hdel argv dbindex).Obeys (writeContract databases) (Quotes argv) := by
  simp +decide [hdel, below]

theorem hlen_obeys :
    (hlen argv dbindex).Obeys (readContract databases) (Quotes argv) := by
  simp +decide [hlen, below]

theorem hstrlen_obeys :
    (hstrlen argv dbindex).Obeys (readContract databases) (Quotes argv) := by
  simp +decide [hstrlen, below]

theorem listHash_obeys (entry : Bytes × Bytes → List Bytes) :
    (listHash entry argv dbindex).Obeys (readContract databases)
      (Quotes argv) := by
  simp +decide [listHash, below]

theorem hexists_obeys :
    (hexists argv dbindex).Obeys (readContract databases) (Quotes argv) := by
  simp +decide [hexists, below]

theorem hincrby_obeys :
    (hincrby argv dbindex).Obeys (writeContract databases)
      (Quotes argv) := by
  simp +decide [hincrby, below]

theorem hincrbyfloat_obeys :
    (hincrbyfloat argv dbindex).Obeys (writeContract databases)
      (Quotes argv) := by
  simp +decide [hincrbyfloat, below]

end Hashes

/-! ## Sorted sets -/

section SortedSets

variable (argv) (below : dbindex < databases)

theorem scoredMembers_plain (pairs : List Bytes) :
    Plain (scoredMembers pairs) := by
  fun_induction scoredMembers pairs with
  | _ => simp_all +decide

theorem zaddArguments_plain : Plain (zaddArguments argv) := by
  simp +decide [zaddArguments, scoredMembers_plain]

include below

theorem zadd_obeys :
    (zadd argv dbindex).Obeys (writeContract databases) (Quotes argv) := by
  simp only [zadd, obeys_bind, obeys_ofExcept]
  apply (zaddArguments_plain argv).then
  · exact fun reply framed _ => framed
  · simp +decide [below]

theorem zcard_obeys :
    (zcard argv dbindex).Obeys (readContract databases) (Quotes argv) := by
  simp +decide [zcard, below]

theorem zscore_obeys :
    (zscore argv dbindex).Obeys (readContract databases) (Quotes argv) := by
  simp +decide [zscore, below]

theorem zincrby_obeys :
    (zincrby argv dbindex).Obeys (writeContract databases)
      (Quotes argv) := by
  simp +decide [zincrby, below]

theorem zrem_obeys :
    (zrem argv dbindex).Obeys (writeContract databases) (Quotes argv) := by
  simp +decide [zrem, below]

theorem zremrangebyscore_obeys :
    (zremrangebyscore argv dbindex).Obeys (writeContract databases)
      (Quotes argv) := by
  simp +decide [zremrangebyscore, removeRange, notAFloat, below]

omit [Platform] below in
theorem lexBound_plain (pos : Nat) : Plain (lexBound argv pos) := by
  simp +decide [lexBound, notARangeItem]
  intro bound _
  cases bound <;> simp +decide [getVecBound, notARangeItem]

theorem zremrangebylex_obeys :
    (zremrangebylex argv dbindex).Obeys (writeContract databases)
      (Quotes argv) := by
  simp +decide [zremrangebylex]
  intros
  apply (lexBound_plain argv 2).then
  · exact fun reply framed _ => framed
  intro min _
  rw [obeys_bind, obeys_ofExcept]
  apply (lexBound_plain argv 3).then
  · exact fun reply framed _ => framed
  intro max _
  simp [removeRange, below]

theorem zremrangebyrank_obeys :
    (zremrangebyrank argv dbindex).Obeys (writeContract databases)
      (Quotes argv) := by
  simp +decide [zremrangebyrank, removeRange, below]

theorem zcount_obeys :
    (zcount argv dbindex).Obeys (readContract databases) (Quotes argv) := by
  simp +decide [zcount, notAFloat, below]

theorem genericZrange_obeys (rev : Bool) :
    (genericZrange argv dbindex rev).Obeys (readContract databases)
      (Quotes argv) := by
  simp +decide [genericZrange, listRange, below]

omit [Platform] below in
theorem rangeOptions_plain (arguments : List Bytes) (options : RangeOptions) :
    Plain (rangeOptions arguments options) := by
  fun_induction rangeOptions arguments options with
  | _ => simp_all +decide [numberOf]

theorem genericZrangebyscore_obeys (rev : Bool) :
    (genericZrangebyscore argv dbindex rev).Obeys (readContract databases)
      (Quotes argv) := by
  simp +decide [genericZrangebyscore, notAFloat]
  intros
  apply (rangeOptions_plain _ _).then
  · exact fun reply framed _ => framed
  · simp [listRange, below]

theorem genericZrangebylex_obeys (rev : Bool) :
    (genericZrangebylex argv dbindex rev).Obeys (readContract databases)
      (Quotes argv) := by
  simp +decide [genericZrangebylex]
  intros
  apply (lexBound_plain argv 2).then
  · exact fun reply framed _ => framed
  intro min _
  rw [obeys_bind, obeys_ofExcept]
  apply (lexBound_plain argv 3).then
  · exact fun reply framed _ => framed
  intro max _
  simp +decide [listRange, below]

theorem zlexcount_obeys :
    (zlexcount argv dbindex).Obeys (readContract databases)
      (Quotes argv) := by
  simp +decide [zlexcount]
  intros
  apply (lexBound_plain argv 2).then
  · exact fun reply framed _ => framed
  intro min _
  rw [obeys_bind, obeys_ofExcept]
  apply (lexBound_plain argv 3).then
  · exact fun reply framed _ => framed
  intro max _
  simp [below]

theorem genericZrank_obeys {key member : Bytes} {rev : Bool} :
    (genericZrank dbindex key member rev).Obeys (readContract databases)
      (Quotes argv) := by
  simp +decide [genericZrank, below]
  intro value
  cases value.zcard with
  | error error => simp
  | ok card =>
      simp
      intro place _
      match place with
      | .error error => simp
      | .ok none => simp
      | .ok (some v) => cases rev <;> simp

theorem zrank_obeys :
    (zrank argv dbindex).Obeys (readContract databases) (Quotes argv) := by
  simp +decide [zrank, genericZrank_obeys argv below]

theorem zrevrank_obeys :
    (zrevrank argv dbindex).Obeys (readContract databases)
      (Quotes argv) := by
  simp +decide [zrevrank, genericZrank_obeys argv below]

omit below in
theorem weightOptions_plain (numkeys : Nat) (rest : List Bytes) :
    Plain (weightOptions numkeys rest) := by
  cases rest with
  | nil => simp [weightOptions]
  | cons option after =>
      simp +decide [weightOptions]
      intros
      apply plain_mapM
      simp +decide

omit [Platform] below in
theorem aggregateOption_plain (rest : List Bytes) :
    Plain (aggregateOption rest) := by
  cases rest with
  | nil => simp [aggregateOption]
  | cons option after =>
      cases after <;> simp +decide [aggregateOption]

omit below in
theorem storeOptions_plain (numkeys : Nat) (rest : List Bytes) :
    Plain (storeOptions numkeys rest) := by
  simp +decide [storeOptions, weightOptions_plain, aggregateOption_plain]

theorem zinterUnionStore_obeys (union : Bool) :
    (zinterUnionStore argv dbindex union).Obeys (writeContract databases)
      (Quotes argv) := by
  simp +decide [zinterUnionStore]
  intro _ key _ n _ _ _
  apply getValues_obeys below
  intro zsets
  rw [then_ok, obeys_bind, obeys_ofExcept]
  apply (storeOptions_plain _ _).then
  · exact fun reply framed _ => framed
  intro options _
  cases union with
  | true =>
      simp
      intro merged
      cases merged <;> simp [below]
  | false =>
      simp
      intro merged
      cases merged <;> simp [below]

end SortedSets

/-! ## All handlers -/

theorem ofName_obeys
    (name : CommandName) (argv : Arguments) (below : dbindex < databases) :
    (Handler.ofName name).elim True fun handler =>
      handler.Obeys databases dbindex argv := by
  cases name with
  | pexpireat => exact expireAtWith_obeys argv below _
  | pexpire => exact expireWith_obeys argv below _
  | expireat => exact expireAtWith_obeys argv below _
  | expire => exact expireWith_obeys argv below _
  | ttl => exact ttl_obeys argv below
  | pttl => exact pttl_obeys argv below
  | persist => exact persist_obeys argv below
  | type => exact dbtype_obeys argv below
  | object => exact object_obeys argv below
  | bitop => exact bitop_obeys argv below
  | bitcount => exact bitcount_obeys argv below
  | bitpos => exact bitpos_obeys argv below
  | set => exact set_obeys argv below
  | setnx => exact setnx_obeys argv below
  | setex => exact setex_obeys argv below
  | psetex => exact psetex_obeys argv below
  | debug => exact debug_obeys argv below
  | del => exact del_obeys argv below
  | dbsize => exact dbsize_obeys argv below
  | append => exact append_obeys argv below
  | get => exact get_obeys argv below
  | getrange => exact getrange_obeys argv below
  | mget => exact mget_obeys argv below
  | substr => exact getrange_obeys argv below
  | setrange => exact setrange_obeys argv below
  | setbit => exact setbit_obeys argv below
  | getbit => exact getbit_obeys argv below
  | strlen => exact strlen_obeys argv below
  | incr => exact incr_obeys argv below
  | decr => exact decr_obeys argv below
  | incrby => exact incrby_obeys argv below
  | decrby => exact decrby_obeys argv below
  | incrbyfloat => exact incrbyfloat_obeys argv below
  | pfadd => exact pfadd_obeys argv below
  | pfcount => exact pfcount_obeys argv below
  | pfmerge => exact pfmerge_obeys argv below
  | bfReserve => exact bfReserve_obeys argv below
  | bfAdd => exact bfAdd_obeys argv below
  | bfMadd => exact bfMadd_obeys argv below
  | bfExists => exact bfExists_obeys argv below
  | bfMexists => exact bfMexists_obeys argv below
  | pfselftest => exact fun _ => rfl
  | pfdebug => exact pfdebug_obeys argv below
  | exists' => exact exists_obeys argv below
  | flushdb => exact flushdb_obeys argv below
  | flushall => exact flushall_obeys argv
  | sort => exact sort_obeys argv below
  | lpush => exact genericPush_obeys argv below false true
  | rpush => exact genericPush_obeys argv below true true
  | lpushx => exact genericPush_obeys argv below false false
  | rpushx => exact genericPush_obeys argv below true false
  | lpop => exact genericPop_obeys argv below false
  | rpop => exact genericPop_obeys argv below true
  | lindex => exact lindex_obeys argv below
  | linsert => exact linsert_obeys argv below
  | llen => exact llen_obeys argv below
  | lrange => exact lrange_obeys argv below
  | lrem => exact lrem_obeys argv below
  | lset => exact lset_obeys argv below
  | ltrim => exact ltrim_obeys argv below
  | rpoplpush => exact rpoplpush_obeys argv below
  | brpoplpush => exact brpoplpush_obeys argv below
  | brpop => exact genericBpop_obeys argv below true
  | blpop => exact genericBpop_obeys argv below false
  | sadd => exact sadd_obeys argv below
  | srem => exact srem_obeys argv below
  | sismember => exact sismember_obeys argv below
  | smembers => exact smembers_obeys argv below
  | srandmember => exact srandmember_obeys argv below
  | spop => exact spop_obeys argv below
  | smove => exact smove_obeys argv below
  | scard => exact scard_obeys argv below
  | sdiff => exact setAlgebra_obeys argv below _ _
  | sdiffstore => exact setAlgebraStore_obeys argv below _ _
  | sinter => exact setAlgebra_obeys argv below _ _
  | sinterstore => exact setAlgebraStore_obeys argv below _ _
  | sunion => exact setAlgebra_obeys argv below _ _
  | sunionstore => exact setAlgebraStore_obeys argv below _ _
  | zadd => exact zadd_obeys argv below
  | zcard => exact zcard_obeys argv below
  | zscore => exact zscore_obeys argv below
  | zincrby => exact zincrby_obeys argv below
  | zrem => exact zrem_obeys argv below
  | zremrangebylex => exact zremrangebylex_obeys argv below
  | zremrangebyscore => exact zremrangebyscore_obeys argv below
  | zremrangebyrank => exact zremrangebyrank_obeys argv below
  | zcount => exact zcount_obeys argv below
  | zlexcount => exact zlexcount_obeys argv below
  | zrange => exact genericZrange_obeys argv below false
  | zrevrange => exact genericZrange_obeys argv below true
  | zrangebyscore => exact genericZrangebyscore_obeys argv below false
  | zrevrangebyscore => exact genericZrangebyscore_obeys argv below true
  | zrangebylex => exact genericZrangebylex_obeys argv below false
  | zrevrangebylex => exact genericZrangebylex_obeys argv below true
  | zrank => exact zrank_obeys argv below
  | zrevrank => exact zrevrank_obeys argv below
  | zunionstore => exact zinterUnionStore_obeys argv below true
  | zinterstore => exact zinterUnionStore_obeys argv below false
  | hset => exact hset_obeys argv below
  | hsetnx => exact hsetnx_obeys argv below
  | hget => exact hget_obeys argv below
  | hmset => exact hmset_obeys argv below
  | hmget => exact hmget_obeys argv below
  | hdel => exact hdel_obeys argv below
  | hlen => exact hlen_obeys argv below
  | hstrlen => exact hstrlen_obeys argv below
  | hkeys => exact listHash_obeys argv below _
  | hvals => exact listHash_obeys argv below _
  | hgetall => exact listHash_obeys argv below _
  | hexists => exact hexists_obeys argv below
  | hincrby => exact hincrby_obeys argv below
  | hincrbyfloat => exact hincrbyfloat_obeys argv below
  | hscan => exact scanKey_obeys argv below
  | getset => exact getset_obeys argv below
  | mset => exact mset_obeys argv below
  | msetnx => exact msetnx_obeys argv below
  | randomkey => exact randomkey_obeys argv below
  | move => exact moveKey_obeys argv below
  | rename => exact rename_obeys argv below
  | renamenx => exact renamenx_obeys argv below
  | dump => exact dump_obeys argv below
  | restore => exact restore_obeys argv below
  | keys => exact keys_obeys argv below
  | scan => exact scan_obeys argv below
  | sscan => exact scanKey_obeys argv below
  | zscan => exact scanKey_obeys argv below
  | _ => exact trivial

end RedVector.Command
