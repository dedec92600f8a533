import RedVector.Command.Atomicity
import RedVector.Command.Transfer
import RedVector.Parser.Encode

/-!
# Errors of all commands

The commands that are not named in the condition fail before they change
anything, or not at all.  With them the condition is exact for every command,
also inside a transaction.
-/

namespace RedVector

open Util Effect Database

section

variable [Platform]

namespace Command

section Handlers

variable {α β : Type} {asReply : α → Option Response} {env : Env}
  {db between : Database} {argv : Arguments} {dbindex : Nat} {key : Bytes}
  {spared : Prop}

/-! ## Parts without errors -/

/-- An operation does not fail. -/
theorem op_total (op : WriteOp) : (.call op .pure : Writer op.Ret).Total :=
  fun _ => trivial

theorem total_op
    {op : WriteOp} {rest : op.Ret → Writer β}
    (next : ∀ answer, (rest answer).Total) :
    ((.call op .pure : Writer op.Ret) >>= rest).Total :=
  next

theorem total_read
    {op : ReadOp} {rest : op.Ret → Writer β}
    (next : ∀ answer, (rest answer).Total) :
    ((liftM (.call op .pure : Reader op.Ret) : Writer op.Ret) >>=
      rest).Total :=
  next

theorem genericSet_total
    {val : Bytes} {nx xx : Bool} {expiration : Option Int} :
    (genericSet dbindex key val nx xx expiration).Total := by
  unfold genericSet
  apply total_read
  intro found
  split
  · exact Program.total_pure false
  · apply total_read
    intro found
    split
    · exact Program.total_pure false
    · apply total_op
      intro _
      apply total_op
      intro _
      apply total_op
      intro _
      have notifies : ∀ done : Unit, (do
          Db.notifyKeyspaceEvent dbindex (text "set") key 36
          pure true : Writer Bool).Total := by
        intro _
        apply total_op
        exact fun _ => Program.total_pure true
      cases expiration with
      | none => exact notifies ()
      | some msexp =>
          apply total_read
          intro now
          apply Program.total_bind (Program.total_orPanic _)
          intro time
          apply total_op
          exact notifies

theorem overwrite_total {value : Bytes} :
    (overwrite dbindex key value).Total := by
  unfold overwrite
  apply total_op
  intro _
  apply total_op
  intro _
  exact op_total (.keyUpdated dbindex key)

theorem overwriteAll_total (pairs : List Bytes) :
    (overwriteAll dbindex pairs).Total := by
  induction pairs using overwriteAll.induct with
  | case1 key value rest ih =>
      unfold overwriteAll
      exact Program.total_bind overwrite_total fun _ => ih
  | case2 pairs short =>
      unfold overwriteAll
      split
      · exact (short _ _ _ rfl).elim
      · exact Program.total_pure ()

theorem anyExists_total (pairs : List Bytes) :
    (anyExists dbindex pairs).Total := by
  induction pairs using anyExists.induct with
  | case1 key value rest ih =>
      unfold anyExists
      apply Program.total_bind (Program.total_perform _)
      intro found
      split
      · exact Program.total_pure true
      · exact ih
  | case2 pairs short =>
      unfold anyExists
      split
      · exact (short _ _ _ rfl).elim
      · exact Program.total_pure false

theorem delAll_total (keys : List Bytes) :
    (delAll dbindex keys).Total := by
  induction keys with
  | nil => exact Program.total_pure 0
  | cons key rest ih =>
      unfold delAll
      apply total_op
      intro removed
      split
      · apply total_op
        intro _
        apply total_op
        intro _
        exact Program.total_bind ih fun _ => Program.total_pure _
      · exact ih

theorem getValues_total (default : Value) (keys : List Bytes) :
    (getValues dbindex default keys).Total := by
  unfold getValues
  induction keys with
  | nil => exact Program.total_pure []
  | cons key rest ih =>
      rw [List.mapM_cons]
      apply Program.total_bind
      · apply Program.total_bind (Program.total_perform _)
        exact fun _ => Program.total_pure _
      · intro value
        exact Program.total_bind ih fun _ => Program.total_pure _

theorem relocate_total {source destination : Slot} {value : Value} :
    (relocate source destination value).Total := by
  unfold relocate
  apply total_op
  intro expiration
  apply total_op
  intro _
  apply total_op
  intro _
  cases expiration with
  | none => exact op_total (.keyUpdated destination.1 destination.2)
  | some exp =>
      apply total_op
      intro _
      exact op_total (.keyUpdated destination.1 destination.2)

/-! ## Replies -/

theorem reverts_unchanged (reply : Response) :
    Reverts asReply env db True (.error reply) db :=
  reverts_intact (.refl env db) trivial

theorem reverts_answered (value : α) :
    Reverts asReply env db True (.ok value) db :=
  reverts_intact (.refl env db) trivial

/-- What follows does not fail and ends in a reply that is no error. -/
theorem ensures_plain
    {program : Writer α} {ok : α → Response} (total : program.Total)
    (plain : ∀ value, (ok value).isError = false) :
    Ensures env (program >>= fun value => pure (ok value))
      (Reverts some env db spared) between := by
  refine Program.ensures_total_bind total ?_
  intro value after
  exact Program.ensures_pure (reverts_plain (plain value))

/-! ### Strings -/

theorem set_reverts :
    Ensures env (set argv dbindex) (Reverts some env db True) db := by
  unfold set
  refine ensures_gte (fun _ _ => reverts_unchanged _) ?_
  intro _
  refine ensures_valid (fun _ _ _ => reverts_unchanged _) ?_
  intro key _
  refine ensures_valid (fun _ _ _ => reverts_unchanged _) ?_
  intro val _
  apply Program.ensures_orPanic_bind
  intro options _
  apply Program.ensures_ofExcept_bind (fun _ _ => reverts_unchanged _)
  intro options _
  refine Program.ensures_total_bind genericSet_total ?_
  intro done after
  split
  · exact Program.ensures_pure (reverts_plain rfl)
  · exact Program.ensures_pure (reverts_plain rfl)

theorem setnx_reverts :
    Ensures env (setnx argv dbindex) (Reverts some env db True) db := by
  unfold setnx
  refine ensures_exact (fun _ _ => reverts_unchanged _) ?_
  intro _
  refine ensures_valid (fun _ _ _ => reverts_unchanged _) ?_
  intro key _
  refine ensures_valid (fun _ _ _ => reverts_unchanged _) ?_
  intro val _
  exact ensures_plain genericSet_total bit_plain

theorem setex_reverts :
    Ensures env (setex argv dbindex) (Reverts some env db True) db := by
  unfold setex
  refine ensures_exact (fun _ _ => reverts_unchanged _) ?_
  intro _
  refine ensures_valid (fun _ _ _ => reverts_unchanged _) ?_
  intro key _
  refine ensures_valid (fun _ _ _ => reverts_unchanged _) ?_
  intro exp _
  refine ensures_validate (fun _ _ => reverts_unchanged _) ?_
  intro _
  refine ensures_valid (fun _ _ _ => reverts_unchanged _) ?_
  intro val _
  apply Program.ensures_orPanic_bind
  intro expiration _
  exact ensures_plain genericSet_total fun _ => rfl

theorem psetex_reverts :
    Ensures env (psetex argv dbindex) (Reverts some env db True) db := by
  unfold psetex
  refine ensures_exact (fun _ _ => reverts_unchanged _) ?_
  intro _
  refine ensures_valid (fun _ _ _ => reverts_unchanged _) ?_
  intro key _
  refine ensures_valid (fun _ _ _ => reverts_unchanged _) ?_
  intro exp _
  refine ensures_validate (fun _ _ => reverts_unchanged _) ?_
  intro _
  refine ensures_valid (fun _ _ _ => reverts_unchanged _) ?_
  intro val _
  exact ensures_plain genericSet_total fun _ => rfl

/-- A value of another type is read as nothing. -/
theorem genericGet_plain
    {reply : Response}
    (ran : ((genericGet dbindex key false).lift readInclusion).run
      (machine env) db = some (.ok reply, db)) : reply.isError = false := by
  have reads : Ensures env ((genericGet dbindex key false).lift
      readInclusion) (fun result _ => ∀ reply, result = .ok reply →
        reply.isError = false) db := by
    unfold genericGet
    refine ensures_lift (fun _ => nofun) ?_
    intro found _
    cases found with
    | none =>
        apply Program.ensures_pure
        intro other same
        cases same
        rfl
    | some value =>
        dsimp only
        split
        · apply Program.ensures_pure
          intro other same
          cases same
          rfl
        · apply Program.ensures_pure
          intro other same
          cases same
          rfl
  exact reads _ _ ran reply rfl

theorem getset_reverts :
    Ensures env (getset argv dbindex) (Reverts some env db True) db := by
  unfold getset
  refine ensures_exact (fun _ _ => reverts_unchanged _) ?_
  intro _
  refine ensures_valid (fun _ _ _ => reverts_unchanged _) ?_
  intro key _
  refine ensures_valid (fun _ _ _ => reverts_unchanged _) ?_
  intro value _
  refine ensures_reader (fun _ _ => reverts_unchanged _) ?_
  intro oldValue ran
  exact ensures_plain overwrite_total fun _ => genericGet_plain ran

theorem mset_reverts :
    Ensures env (mset argv dbindex) (Reverts some env db True) db := by
  unfold mset
  refine ensures_gte (fun _ _ => reverts_unchanged _) ?_
  intro _
  refine ensures_validate (fun _ _ => reverts_unchanged _) ?_
  intro _
  exact ensures_plain (overwriteAll_total _) fun _ => rfl

theorem msetnx_reverts :
    Ensures env (msetnx argv dbindex) (Reverts some env db True) db := by
  unfold msetnx
  refine ensures_gte (fun _ _ => reverts_unchanged _) ?_
  intro _
  refine ensures_validate (fun _ _ => reverts_unchanged _) ?_
  intro _
  refine ensures_total_reader (anyExists_total _) ?_
  intro found
  split
  · exact Program.ensures_pure (reverts_plain rfl)
  · exact ensures_plain (overwriteAll_total _) fun _ => rfl

theorem bitop_reverts :
    Ensures env (bitop argv dbindex) (Reverts some env db True) db := by
  unfold bitop
  refine ensures_gte (fun _ _ => reverts_unchanged _) ?_
  intro _
  refine ensures_valid (fun _ _ _ => reverts_unchanged _) ?_
  intro op _
  refine ensures_valid (fun _ _ _ => reverts_unchanged _) ?_
  intro destKey _
  refine ensures_reader (fun _ _ => reverts_unchanged _) ?_
  intro result _
  exact ensures_plain overwrite_total fun _ => rfl

/-! ### Keys -/

theorem del_reverts :
    Ensures env (del argv dbindex) (Reverts some env db True) db := by
  unfold del
  refine ensures_validate (fun _ _ => reverts_unchanged _) ?_
  intro _
  exact ensures_plain (delAll_total _) fun _ => rfl

theorem sort_reverts :
    Ensures env (sort argv dbindex) (Reverts some env db True) db := by
  unfold sort
  refine ensures_reader (fun _ _ => reverts_unchanged _) ?_
  intro found _
  obtain ⟨finalResult, storeKey⟩ := found
  dsimp only
  cases storeKey with
  | none => exact Program.ensures_pure (reverts_plain rfl)
  | some store =>
      dsimp only
      split
      · exact ensures_plain (op_total (.remove dbindex store))
          fun _ => rfl
      · refine ensures_getOrCreate ?_
        intro _ _ _
        refine ensures_put ?_
        intro _
        exact ensures_plain
          (op_total (.keyUpdated dbindex store)) fun _ => rfl

theorem genericExpire_reverts {msexpiration : Int} :
    Ensures env (genericExpire dbindex key msexpiration)
      (Reverts some env db spared) between := by
  unfold genericExpire
  refine ensures_get ?_
  intro _
  cases between.visible env (dbindex, key) with
  | none => exact Program.ensures_pure (reverts_plain rfl)
  | some value =>
      refine ensures_setMsexpiration ?_
      intro _ _
      refine ensures_keyUpdated ?_
      intro _ _
      refine ensures_notify ?_
      intro _ _
      exact Program.ensures_pure (reverts_plain rfl)

theorem expireWith_reverts (absolute : Int → Int → Option Int) :
    Ensures env (expireWith absolute argv dbindex) (Reverts some env db True)
      db := by
  unfold expireWith
  refine ensures_exact (fun _ _ => reverts_unchanged _) ?_
  intro _
  refine ensures_valid (fun _ _ _ => reverts_unchanged _) ?_
  intro key _
  refine ensures_valid (fun _ _ _ => reverts_unchanged _) ?_
  intro expiration _
  refine ensures_total_reader (Program.total_perform _) ?_
  intro now
  apply Program.ensures_orPanic_bind
  intro time _
  exact genericExpire_reverts

theorem expireAtWith_reverts (absolute : Int → Option Int) :
    Ensures env (expireAtWith absolute argv dbindex)
      (Reverts some env db True) db := by
  unfold expireAtWith
  refine ensures_exact (fun _ _ => reverts_unchanged _) ?_
  intro _
  refine ensures_valid (fun _ _ _ => reverts_unchanged _) ?_
  intro key _
  refine ensures_valid (fun _ _ _ => reverts_unchanged _) ?_
  intro expiration _
  apply Program.ensures_orPanic_bind
  intro time _
  exact genericExpire_reverts

theorem persist_reverts :
    Ensures env (persist argv dbindex) (Reverts some env db True) db := by
  unfold persist
  refine ensures_exact (fun _ _ => reverts_unchanged _) ?_
  intro _
  refine ensures_valid (fun _ _ _ => reverts_unchanged _) ?_
  intro key _
  refine ensures_removeMsexpiration ?_
  exact ensures_plain (op_total (.keyUpdated dbindex key))
    fun _ => bit_plain _

theorem flushdb_reverts :
    Ensures env (flushdb argv dbindex) (Reverts some env db True) db := by
  unfold flushdb
  refine ensures_exact (fun _ _ => reverts_unchanged _) ?_
  intro _
  exact ensures_plain (op_total (.clear dbindex)) fun _ => rfl

theorem flushall_reverts :
    Ensures env (flushall argv dbindex) (Reverts some env db True) db := by
  unfold flushall
  refine ensures_exact (fun _ _ => reverts_unchanged _) ?_
  intro _
  exact ensures_plain (op_total .clearall) fun _ => rfl

theorem moveKey_reverts :
    Ensures env (moveKey argv dbindex) (Reverts some env db True) db := by
  unfold moveKey
  refine ensures_exact (fun _ _ => reverts_unchanged _) ?_
  intro _
  refine ensures_valid (fun _ _ _ => reverts_unchanged _) ?_
  intro key _
  refine ensures_valid (fun _ _ _ => reverts_unchanged _) ?_
  intro targetDb _
  refine ensures_config ?_
  refine ensures_validate (fun _ _ => reverts_unchanged _) ?_
  intro _
  dsimp only
  split
  · exact Program.ensures_pure (reverts_plain rfl)
  · refine ensures_remove ?_
    intro after _ _
    cases db.visible env (dbindex, key) with
    | none => exact Program.ensures_pure (reverts_plain rfl)
    | some value =>
        have moves : Ensures env
            (relocate (dbindex, key) (targetDb.toNat, key) value >>= fun _ =>
              pure (Response.integer 1)) (Reverts some env db True) after :=
          ensures_plain relocate_total fun _ => rfl
        rw [relocate_bind] at moves
        exact moves

/-- Removing what is not live changes nothing. -/
theorem remove_intact
    {after : Database} {result : Option Value}
    (missing : db.visible env (dbindex, key) = none)
    (removed : db.remove env dbindex key = some (result, after)) :
    Intact env db after :=
  (remove_spec removed).2.1.cleared_intact missing

theorem rename_reverts :
    Ensures env (rename argv dbindex) (Reverts some env db True) db := by
  unfold rename
  refine ensures_exact (fun _ _ => reverts_unchanged _) ?_
  intro _
  refine ensures_valid (fun _ _ _ => reverts_unchanged _) ?_
  intro key _
  refine ensures_valid (fun _ _ _ => reverts_unchanged _) ?_
  intro newkey _
  split
  · exact Program.ensures_pure (reverts_answered _)
  · refine ensures_remove ?_
    intro after _ removed
    cases missing : db.visible env (dbindex, key) with
    | none =>
        apply Program.ensures_pure
        exact reverts_intact (remove_intact missing removed) trivial
    | some value =>
        dsimp only
        rw [renameTo_eq]
        refine Program.ensures_total_bind relocate_total ?_
        intro _ _
        refine ensures_notify ?_
        intro _ _
        refine ensures_notify ?_
        intro _ _
        exact Program.ensures_pure (reverts_plain rfl)

theorem renamenx_reverts :
    Ensures env (renamenx argv dbindex) (Reverts some env db True) db := by
  unfold renamenx
  refine ensures_exact (fun _ _ => reverts_unchanged _) ?_
  intro _
  refine ensures_valid (fun _ _ _ => reverts_unchanged _) ?_
  intro key _
  refine ensures_valid (fun _ _ _ => reverts_unchanged _) ?_
  intro newkey _
  split
  · exact Program.ensures_pure (reverts_plain rfl)
  · refine ensures_get ?_
    intro _
    split
    · exact Program.ensures_pure (reverts_plain rfl)
    · refine ensures_remove ?_
      intro after _ removed
      cases missing : db.visible env (dbindex, key) with
      | none =>
          apply Program.ensures_pure
          exact reverts_intact (remove_intact missing removed) trivial
      | some value =>
          dsimp only
          rw [renameTo_eq]
          exact ensures_plain relocate_total fun _ => rfl

/-! ### Sets, sorted sets and hashes -/

theorem setAlgebraStore_reverts
    {operation : List Value → Value → Operation (Finset Bytes)}
    {default : Option Value} :
    Ensures env (setAlgebraStore operation default argv dbindex)
      (Reverts some env db True) db := by
  unfold setAlgebraStore
  refine ensures_validate (fun _ _ => reverts_unchanged _) ?_
  intro _
  refine ensures_valid (fun _ _ _ => reverts_unchanged _) ?_
  intro destinationKey _
  refine ensures_valid (fun _ _ _ => reverts_unchanged _) ?_
  intro key _
  refine ensures_get ?_
  intro _
  cases (db.visible env (dbindex, key)).or default with
  | none => exact Program.ensures_pure (reverts_plain rfl)
  | some value =>
      dsimp only
      refine ensures_total_reader (getValues_total _ _) ?_
      intro sets
      cases operation sets value with
      | error error => exact Program.ensures_pure (reverts_answered _)
      | ok found =>
          dsimp only
          refine ensures_remove ?_
          intro _ _ _
          refine ensures_getOrCreate ?_
          intro _ _ _
          refine ensures_put ?_
          intro _
          exact ensures_plain (op_total (.keyUpdated dbindex destinationKey))
            fun _ => rfl

/-- What a union or an intersection stores has a cardinality. -/
theorem zcard_of_merge
    {ordered : Finset Bytes → List Bytes} {values : List Value}
    {weights : Option (List F64)} {aggregate : Aggregate} {value : Value}
    (merged : Value.zunion ordered values weights aggregate =
        some (.ok value) ∨
      Value.zinter ordered values weights aggregate = some (.ok value)) :
    ∃ count, value.zcard = .ok count := by
  unfold Value.zunion Value.zinter at merged
  cases found : Value.getZsetList values with
  | error error => simp [found] at merged
  | ok zsets =>
      rw [found] at merged
      rcases merged with merged | merged
      · obtain ⟨result, -, isResult⟩ := Option.bind_eq_some_iff.mp merged
        cases isResult
        exact ⟨_, rfl⟩
      · obtain ⟨result, -, isResult⟩ := Option.bind_eq_some_iff.mp merged
        cases isResult
        exact ⟨_, rfl⟩

theorem zinterUnionStore_reverts {union : Bool} :
    Ensures env (zinterUnionStore argv dbindex union)
      (Reverts some env db True) db := by
  unfold zinterUnionStore
  refine ensures_validate (fun _ _ => reverts_unchanged _) ?_
  intro _
  refine ensures_valid (fun _ _ _ => reverts_unchanged _) ?_
  intro key _
  refine ensures_valid (fun _ _ _ => reverts_unchanged _) ?_
  intro n _
  split
  · exact Program.ensures_pure (reverts_answered _)
  · refine ensures_gte (fun _ _ => reverts_unchanged _) ?_
    intro _
    refine ensures_total_reader (getValues_total _ _) ?_
    intro zsets
    apply Program.ensures_ofExcept_bind (fun _ _ => reverts_unchanged _)
    intro options _
    obtain ⟨weights, aggregate⟩ := options
    dsimp only
    have stores : ∀ merged : Operation Value,
        (∀ value, merged = .ok value → ∃ count, value.zcard = .ok count) →
        Ensures env (storeMerged dbindex key merged)
          (Reverts some env db True) db := by
      intro merged counted
      cases merged with
      | error error => exact Program.ensures_pure (reverts_answered _)
      | ok value =>
          obtain ⟨count, isCount⟩ := counted value rfl
          refine ensures_getOrCreate ?_
          intro _ _ _
          refine ensures_put ?_
          intro _
          rw [isCount]
          exact ensures_plain (op_total (.keyUpdated dbindex key))
            fun _ => rfl
    cases union with
    | true =>
        refine ensures_read (.zunion zsets weights aggregate) ?_
        intro merged read
        apply stores
        intro value isOk
        subst isOk
        exact zcard_of_merge (.inl read)
    | false =>
        refine ensures_read (.zinter zsets weights aggregate) ?_
        intro merged read
        apply stores
        intro value isOk
        subst isOk
        exact zcard_of_merge (.inr read)

theorem smove_reverts :
    Ensures env (smove argv dbindex) (Reverts some env db True) db := by
  unfold smove
  refine ensures_exact (fun _ _ => reverts_unchanged _) ?_
  intro _
  refine ensures_valid (fun _ _ _ => reverts_unchanged _) ?_
  intro source _
  refine ensures_valid (fun _ _ _ => reverts_unchanged _) ?_
  intro destination _
  refine ensures_valid (fun _ _ _ => reverts_unchanged _) ?_
  intro member _
  have moves : Ensures env (moveMember dbindex source destination member)
      (Reverts some env db True) db := by
    unfold moveMember
    refine ensures_found ?_ ?_
    · intro after _ _ _
      exact Program.ensures_pure (reverts_plain rfl)
    · intro value answer changed after visible called sets
      match answer with
      | .error error =>
          apply Program.ensures_pure
          exact reverts_intact (found_intact (Value.srem_atomic member)
            visible called sets) trivial
      | .ok false => exact Program.ensures_pure (reverts_plain rfl)
      | .ok true =>
          refine ensures_config ?_
          refine ensures_createThen ?_
          intro added _ _ _ _ _
          cases added with
          | error error =>
              intro _ _ ran
              cases ran
          | ok added =>
              refine ensures_keyUpdated ?_
              intro _ _
              exact ensures_plain (op_total (.keyUpdated dbindex destination))
                fun _ => rfl
  refine ensures_get ?_
  intro _
  cases db.visible env (dbindex, destination) with
  | none => exact moves
  | some value =>
      dsimp only
      split
      · exact moves
      · exact Program.ensures_throw (reverts_unchanged _)

/-- The members that a command removes. -/
theorem updateOnCount_reverts
    {method : Value → Option (Value.Change Nat)}
    (atomic : Value.Atomic method) :
    Ensures env (mutThen dbindex key method >>= fun found =>
        match found with
        | none => pure (.integer 0)
        | some r => updateOnCount dbindex key r)
      (Reverts some env db True) db := by
  refine ensures_found ?_ ?_
  · intro after _ _ _
    exact Program.ensures_pure (reverts_plain rfl)
  · intro value answer changed after visible called sets
    cases answer with
    | error error =>
        apply Program.ensures_pure
        exact reverts_intact (found_intact atomic visible called sets)
          trivial
    | ok count =>
        dsimp only
        unfold updateOnCount
        dsimp only
        split
        · exact ensures_plain (op_total (.keyUpdated dbindex key))
            fun _ => rfl
        · exact Program.ensures_pure (reverts_plain rfl)

theorem zrem_reverts :
    Ensures env (zrem argv dbindex) (Reverts some env db True) db := by
  unfold Command.zrem
  refine ensures_validate (fun _ _ => reverts_unchanged _) ?_
  intro _
  refine ensures_valid (fun _ _ _ => reverts_unchanged _) ?_
  intro key _
  exact updateOnCount_reverts (zremAll_atomic _)

theorem zremrangebyscore_reverts :
    Ensures env (zremrangebyscore argv dbindex) (Reverts some env db True)
      db := by
  unfold Command.zremrangebyscore
  refine ensures_exact (fun _ _ => reverts_unchanged _) ?_
  intro _
  refine ensures_valid (fun _ _ _ => reverts_unchanged _) ?_
  intro key _
  refine ensures_valid (fun _ _ _ => reverts_unchanged _) ?_
  intro min _
  refine ensures_valid (fun _ _ _ => reverts_unchanged _) ?_
  intro max _
  exact updateOnCount_reverts (Value.zremrangebyscore_atomic min max)

theorem zremrangebylex_reverts :
    Ensures env (zremrangebylex argv dbindex) (Reverts some env db True)
      db := by
  unfold Command.zremrangebylex
  refine ensures_exact (fun _ _ => reverts_unchanged _) ?_
  intro _
  refine ensures_valid (fun _ _ _ => reverts_unchanged _) ?_
  intro key _
  apply Program.ensures_ofExcept_bind (fun _ _ => reverts_unchanged _)
  intro min _
  apply Program.ensures_ofExcept_bind (fun _ _ => reverts_unchanged _)
  intro max _
  exact updateOnCount_reverts (Value.zremrangebylex_atomic min max)

theorem zremrangebyrank_reverts :
    Ensures env (zremrangebyrank argv dbindex) (Reverts some env db True)
      db := by
  unfold Command.zremrangebyrank
  refine ensures_exact (fun _ _ => reverts_unchanged _) ?_
  intro _
  refine ensures_valid (fun _ _ _ => reverts_unchanged _) ?_
  intro key _
  refine ensures_valid (fun _ _ _ => reverts_unchanged _) ?_
  intro start _
  refine ensures_valid (fun _ _ _ => reverts_unchanged _) ?_
  intro stop _
  exact updateOnCount_reverts (Value.zremrangebyrank_atomic start stop)

theorem hdel_reverts :
    Ensures env (hdel argv dbindex) (Reverts some env db True) db := by
  unfold Command.hdel
  refine ensures_gte (fun _ _ => reverts_unchanged _) ?_
  intro _
  refine ensures_valid (fun _ _ _ => reverts_unchanged _) ?_
  intro key _
  refine ensures_found ?_ ?_
  · intro after _ _ _
    exact Program.ensures_pure (reverts_plain rfl)
  · intro value answer changed after visible called sets
    apply updateOnSuccess_reverts fun _ => rfl
    intro error failed
    subst failed
    exact iff_of_true
      (found_intact (Value.hdel_atomic _) visible called sets) trivial

theorem hsetnx_reverts :
    Ensures env (hsetnx argv dbindex) (Reverts some env db True) db := by
  unfold hsetnx
  refine ensures_exact (fun _ _ => reverts_unchanged _) ?_
  intro _
  refine ensures_valid (fun _ _ _ => reverts_unchanged _) ?_
  intro key _
  refine ensures_valid (fun _ _ _ => reverts_unchanged _) ?_
  intro field _
  refine ensures_valid (fun _ _ _ => reverts_unchanged _) ?_
  intro value _
  refine ensures_getMut ?_
  intro middle _ got
  obtain ⟨intact, absent⟩ := getMut_intact got
  cases visible : db.visible env (dbindex, key) with
  | none =>
      refine ensures_createThen ?_
      intro answer changed after called _ _
      rw [absent visible] at called
      cases called
      exact ensures_plain (op_total (.keyUpdated dbindex key)) fun _ => rfl
  | some el =>
      -- what can be asked for a field can be given one
      have sets : ∀ (r : Operation Bool) (between : Database),
          (∃ isNew, r = .ok isNew) →
          Ensures env (setNew dbindex key r) (Reverts some env db True)
            between := by
        intro r between succeeds
        obtain ⟨isNew, isOk⟩ := succeeds
        subst isOk
        exact ensures_plain (op_total (.keyUpdated dbindex key)) fun _ => rfl
      cases el with
      | nil =>
          refine ensures_put ?_
          intro _
          exact sets _ _ ⟨_, rfl⟩
      | hash fields =>
          cases held : fields.hexists field with
          | true =>
              unfold Value.hexists
              dsimp only
              rw [held]
              exact Program.ensures_pure (reverts_plain rfl)
          | false =>
              unfold Value.hexists
              dsimp only
              rw [held]
              refine ensures_put ?_
              intro _
              exact sets _ _ ⟨_, rfl⟩
      | _ =>
          exact Program.ensures_pure (reverts_intact intact trivial)

/-! ### Blocking commands -/

/-- The keys before the one that is popped have nothing to pop. -/
theorem popFirst_intact {right : Bool} {keys : List Bytes} :
    Ensures env (popFirst dbindex right keys)
      (fun result after => ∃ popped, result = .ok popped ∧
        ((∀ reply, popped = some reply → reply.isError = true) →
          Intact env db after)) db := by
  induction keys generalizing db with
  | nil => exact Program.ensures_pure ⟨none, rfl, fun _ => .refl env db⟩
  | cons key rest ih =>
      have continued : ∀ between, Intact env db between →
          Ensures env (popFirst dbindex right rest)
            (fun result after => ∃ popped, result = .ok popped ∧
              ((∀ reply, popped = some reply → reply.isError = true) →
                Intact env db after)) between := by
        intro between intact
        refine ih.mono ?_
        intro result after holds
        obtain ⟨popped, isOk, later⟩ := holds
        exact ⟨popped, isOk, fun fails => intact.trans (later fails)⟩
      unfold popFirst
      refine ensures_found ?_ ?_
      · intro after _ intact _
        exact continued after intact
      · intro value answer changed after visible called sets
        cases answer with
        | error error =>
            apply Program.ensures_pure
            exact ⟨_, rfl, fun _ => found_intact (Value.pop_atomic right)
              visible called sets⟩
        | ok popped =>
            cases popped with
            | some val =>
                refine ensures_keyUpdated ?_
                intro last _
                apply Program.ensures_pure
                refine ⟨_, rfl, ?_⟩
                intro fails
                cases fails _ rfl
            | none =>
                apply continued after
                have same := (pop_nothing (Option.some.inj called)).2 rfl
                rw [same] at sets
                exact sets.created_iff.mpr visible

theorem genericBpop_reverts {right : Bool} :
    Ensures env (genericBpop argv dbindex right)
      (Reverts Except.toOption env db True) db := by
  unfold genericBpop
  refine ensures_validate (fun _ _ => reverts_unchanged _) ?_
  intro _
  apply Program.ensures_bind
  refine Program.Ensures.mono popFirst_intact ?_
  intro result between holds
  obtain ⟨popped, isOk, intact⟩ := holds
  subst isOk
  cases popped with
  | some r =>
      apply Program.ensures_pure
      intro reply said failed
      cases said
      refine iff_of_true (intact ?_) trivial
      intro other same
      cases same
      exact failed
  | none =>
      have intact := intact nofun
      apply ensures_valid
      · intro _ _ _
        exact reverts_intact intact trivial
      · intro timeout _
        exact waitFor_reverts

/-! ## All commands -/

theorem spares_plain
    {known : CommandName}
    (spares : ∀ key, Spared env db argv dbindex key known = True) :
    True ↔ Spares env db argv dbindex known := by
  apply iff_of_true trivial
  intro _ key _
  rw [spares key]
  trivial

theorem writer_reverts
    {known : CommandName} {handle : Arguments → Nat → Writer Response}
    (found : Handler.ofName known = some (.writer handle))
    (unlimited : db.config.maxmemory = none) :
    Ensures env (handle argv dbindex)
      (Reverts some env db (Spares env db argv dbindex known)) db := by
  cases known
  case append =>
    cases found
    exact append_reverts unlimited
  case setrange =>
    cases found
    exact setrange_reverts unlimited
  case setbit =>
    cases found
    exact setbit_reverts unlimited
  case incr =>
    cases found
    exact incr_reverts unlimited
  case decr =>
    cases found
    exact decr_reverts unlimited
  case incrby =>
    cases found
    exact incrby_reverts unlimited
  case decrby =>
    cases found
    exact decrby_reverts unlimited
  case incrbyfloat =>
    cases found
    exact incrbyfloat_reverts unlimited
  case pfadd =>
    cases found
    exact pfadd_reverts unlimited
  case bfMadd =>
    cases found
    exact bfMadd_reverts unlimited
  case pfmerge =>
    cases found
    exact pfmerge_reverts unlimited
  case bfReserve =>
    cases found
    exact bfReserve_reverts unlimited
  case bfAdd =>
    cases found
    exact bfAdd_reverts unlimited
  case lpush =>
    cases found
    exact lpush_reverts unlimited
  case rpush =>
    cases found
    exact rpush_reverts unlimited
  case lpushx =>
    cases found
    exact lpushx_reverts unlimited
  case rpushx =>
    cases found
    exact rpushx_reverts unlimited
  case lpop =>
    cases found
    exact lpop_reverts
  case rpop =>
    cases found
    exact rpop_reverts
  case linsert =>
    cases found
    exact linsert_reverts
  case lrem =>
    cases found
    exact lrem_reverts
  case lset =>
    cases found
    exact lset_reverts
  case ltrim =>
    cases found
    exact ltrim_reverts
  case rpoplpush =>
    cases found
    exact rpoplpush_reverts unlimited
  case sadd =>
    cases found
    exact sadd_reverts unlimited
  case srem =>
    cases found
    exact srem_reverts unlimited
  case spop =>
    cases found
    exact spop_reverts
  case zadd =>
    cases found
    exact zadd_reverts unlimited
  case zincrby =>
    cases found
    exact zincrby_reverts unlimited
  case hset =>
    cases found
    exact hset_reverts unlimited
  case hmset =>
    cases found
    exact hmset_reverts unlimited
  case hincrby =>
    cases found
    exact hincrby_reverts unlimited
  case hincrbyfloat =>
    cases found
    exact hincrbyfloat_reverts unlimited
  case set =>
    cases found
    exact reverts_congr set_reverts (spares_plain fun _ => rfl)
  case setnx =>
    cases found
    exact reverts_congr setnx_reverts (spares_plain fun _ => rfl)
  case setex =>
    cases found
    exact reverts_congr setex_reverts (spares_plain fun _ => rfl)
  case psetex =>
    cases found
    exact reverts_congr psetex_reverts (spares_plain fun _ => rfl)
  case getset =>
    cases found
    exact reverts_congr getset_reverts (spares_plain fun _ => rfl)
  case mset =>
    cases found
    exact reverts_congr mset_reverts (spares_plain fun _ => rfl)
  case msetnx =>
    cases found
    exact reverts_congr msetnx_reverts (spares_plain fun _ => rfl)
  case bitop =>
    cases found
    exact reverts_congr bitop_reverts (spares_plain fun _ => rfl)
  case del =>
    cases found
    exact reverts_congr del_reverts (spares_plain fun _ => rfl)
  case sort =>
    cases found
    exact reverts_congr sort_reverts (spares_plain fun _ => rfl)
  case expire =>
    cases found
    exact reverts_congr (expireWith_reverts _) (spares_plain fun _ => rfl)
  case pexpire =>
    cases found
    exact reverts_congr (expireWith_reverts _) (spares_plain fun _ => rfl)
  case expireat =>
    cases found
    exact reverts_congr (expireAtWith_reverts _) (spares_plain fun _ => rfl)
  case pexpireat =>
    cases found
    exact reverts_congr (expireAtWith_reverts _) (spares_plain fun _ => rfl)
  case persist =>
    cases found
    exact reverts_congr persist_reverts (spares_plain fun _ => rfl)
  case flushdb =>
    cases found
    exact reverts_congr flushdb_reverts (spares_plain fun _ => rfl)
  case flushall =>
    cases found
    exact reverts_congr flushall_reverts (spares_plain fun _ => rfl)
  case move =>
    cases found
    exact reverts_congr moveKey_reverts (spares_plain fun _ => rfl)
  case rename =>
    cases found
    exact reverts_congr rename_reverts (spares_plain fun _ => rfl)
  case renamenx =>
    cases found
    exact reverts_congr renamenx_reverts (spares_plain fun _ => rfl)
  case sdiffstore =>
    cases found
    exact reverts_congr setAlgebraStore_reverts (spares_plain fun _ => rfl)
  case sinterstore =>
    cases found
    exact reverts_congr setAlgebraStore_reverts (spares_plain fun _ => rfl)
  case sunionstore =>
    cases found
    exact reverts_congr setAlgebraStore_reverts (spares_plain fun _ => rfl)
  case zunionstore =>
    cases found
    exact reverts_congr zinterUnionStore_reverts (spares_plain fun _ => rfl)
  case zinterstore =>
    cases found
    exact reverts_congr zinterUnionStore_reverts (spares_plain fun _ => rfl)
  case smove =>
    cases found
    exact reverts_congr smove_reverts (spares_plain fun _ => rfl)
  case zrem =>
    cases found
    exact reverts_congr zrem_reverts (spares_plain fun _ => rfl)
  case zremrangebyscore =>
    cases found
    exact reverts_congr zremrangebyscore_reverts (spares_plain fun _ => rfl)
  case zremrangebylex =>
    cases found
    exact reverts_congr zremrangebylex_reverts (spares_plain fun _ => rfl)
  case zremrangebyrank =>
    cases found
    exact reverts_congr zremrangebyrank_reverts (spares_plain fun _ => rfl)
  case hdel =>
    cases found
    exact reverts_congr hdel_reverts (spares_plain fun _ => rfl)
  case hsetnx =>
    cases found
    exact reverts_congr hsetnx_reverts (spares_plain fun _ => rfl)
  all_goals cases found

theorem blocking_reverts
    {known : CommandName} {handle : Arguments → Nat → Writer Answer}
    (found : Handler.ofName known = some (.blocking handle))
    (unlimited : db.config.maxmemory = none) :
    Ensures env (handle argv dbindex)
      (Reverts Except.toOption env db (Spares env db argv dbindex known))
      db := by
  cases known
  case brpoplpush =>
    cases found
    exact brpoplpush_reverts unlimited
  case brpop =>
    cases found
    exact reverts_congr genericBpop_reverts (spares_plain fun _ => rfl)
  case blpop =>
    cases found
    exact reverts_congr genericBpop_reverts (spares_plain fun _ => rfl)
  all_goals cases found

/-- Nothing is asked of the commands that do not write. -/
theorem spares_others
    {known : CommandName}
    (notWriter : ∀ handle, Handler.ofName known ≠ some (.writer handle))
    (notBlocking : ∀ handle,
      Handler.ofName known ≠ some (.blocking handle)) :
    Spares env db argv dbindex known := by
  cases known
  case append => exact absurd rfl (notWriter _)
  case setrange => exact absurd rfl (notWriter _)
  case setbit => exact absurd rfl (notWriter _)
  case incr => exact absurd rfl (notWriter _)
  case decr => exact absurd rfl (notWriter _)
  case incrby => exact absurd rfl (notWriter _)
  case decrby => exact absurd rfl (notWriter _)
  case incrbyfloat => exact absurd rfl (notWriter _)
  case pfadd => exact absurd rfl (notWriter _)
  case bfMadd => exact absurd rfl (notWriter _)
  case pfmerge => exact absurd rfl (notWriter _)
  case bfReserve => exact absurd rfl (notWriter _)
  case bfAdd => exact absurd rfl (notWriter _)
  case lpush => exact absurd rfl (notWriter _)
  case rpush => exact absurd rfl (notWriter _)
  case lpushx => exact absurd rfl (notWriter _)
  case rpushx => exact absurd rfl (notWriter _)
  case lpop => exact absurd rfl (notWriter _)
  case rpop => exact absurd rfl (notWriter _)
  case linsert => exact absurd rfl (notWriter _)
  case lrem => exact absurd rfl (notWriter _)
  case lset => exact absurd rfl (notWriter _)
  case ltrim => exact absurd rfl (notWriter _)
  case rpoplpush => exact absurd rfl (notWriter _)
  case sadd => exact absurd rfl (notWriter _)
  case srem => exact absurd rfl (notWriter _)
  case spop => exact absurd rfl (notWriter _)
  case zadd => exact absurd rfl (notWriter _)
  case zincrby => exact absurd rfl (notWriter _)
  case hset => exact absurd rfl (notWriter _)
  case hmset => exact absurd rfl (notWriter _)
  case hincrby => exact absurd rfl (notWriter _)
  case hincrbyfloat => exact absurd rfl (notWriter _)
  case brpoplpush => exact absurd rfl (notBlocking _)
  all_goals exact fun _ _ _ => trivial

end Handlers

section All

variable {env : Env} {db : Database} {client : Client} {outcome : Outcome}
  {reply : Response} {known : CommandName}

theorem finished_answer
    {result : Except Response Answer} {after : Database}
    (answered : (Handler.finished client (result, after)).answer =
      .ok reply) :
    replied Except.toOption result = some reply := by
  cases result with
  | ok answer =>
      cases answer with
      | ok other =>
          cases answered
          rfl
      | error error => cases answered
  | error other =>
      cases answered
      rfl

theorem handler_reverts
    {handler : Handler} {argv : Arguments}
    (found : Handler.ofName known = some handler)
    (unlimited : db.config.maxmemory = none)
    (ran : handler.run env argv db client = some outcome)
    (answered : outcome.answer = .ok reply)
    (failed : reply.isError = true) :
    Intact env db outcome.db ↔ Spares env db argv client.dbindex known := by
  cases handler with
  | reader handle =>
      obtain ⟨⟨result, after⟩, programRan, isOutcome⟩ :=
        Option.map_eq_some_iff.mp ran
      subst isOutcome
      rw [(Handler.finished_db client (result, after)).1]
      obtain ⟨first, readerRan, -⟩ := Program.run_map_eq_some programRan
      rw [lift_unchanged _ readerRan]
      apply iff_of_true (.refl env db)
      apply spares_others
      · intro other isWriter
        cases found.symm.trans isWriter
      · intro other isBlocking
        cases found.symm.trans isBlocking
  | writer handle =>
      obtain ⟨⟨result, after⟩, programRan, isOutcome⟩ :=
        Option.map_eq_some_iff.mp ran
      subst isOutcome
      rw [(Handler.finished_db client (result, after)).1]
      have said := finished_answer answered
      obtain ⟨first, writerRan, isResult⟩ :=
        Program.run_map_eq_some programRan
      subst isResult
      apply writer_reverts found unlimited first after writerRan reply _
        failed
      cases first with
      | ok other => exact said
      | error other => exact said
  | blocking handle =>
      obtain ⟨⟨result, after⟩, programRan, isOutcome⟩ :=
        Option.map_eq_some_iff.mp ran
      subst isOutcome
      rw [(Handler.finished_db client (result, after)).1]
      exact blocking_reverts found unlimited result after programRan reply
        (finished_answer answered) failed
  | server handle =>
      simp only [Handler.run, Option.bind_eq_bind, Option.bind_eq_some_iff]
        at ran
      obtain ⟨⟨_, after⟩, handled, finished⟩ := ran
      cases finished
      have untouched := untouched_subscribes.server found handled
      apply iff_of_true
      · exact .of_data untouched.settled.loading untouched.data
          untouched.dataExpirationMs
      · apply spares_others
        · intro other isWriter
          cases found.symm.trans isWriter
        · intro other isBlocking
          cases found.symm.trans isBlocking
  | session handle =>
      simp only [Handler.run, Option.bind_eq_bind, Option.bind_eq_some_iff]
        at ran
      obtain ⟨⟨answer, after, afterClient⟩, handled, finished⟩ := ran
      cases finished
      apply iff_of_true
      · rcases Handler.session_effect found handled with
          ⟨-, watches⟩ | ⟨-, sameDb, -⟩ | ⟨-, -, resubscribes⟩
        · exact .of_data watches.settled.loading watches.data
            watches.dataExpirationMs
        · dsimp only at sameDb
          subst sameDb
          exact .refl env after
        · exact .of_data resubscribes.untouched.settled.loading
            resubscribes.untouched.data
            resubscribes.untouched.dataExpirationMs
      · apply spares_others
        · intro other isWriter
          cases found.symm.trans isWriter
        · intro other isBlocking
          cases found.symm.trans isBlocking

/-- The condition for a command that may be stopped in front of its
handler. -/
def SparesKeys (env : Env) (db : Database) (client : Client)
    (command : ParsedCommand) : Prop :=
  ∀ name known between, commandName db command.arguments = .ok name →
    CommandName.ofBytes name = some known →
    route (some known) command db client = .dispatched between →
    Spares env db command.arguments between.dbindex known

theorem dispatch_intact_iff
    {name : Bytes} {command : ParsedCommand} {between : Client}
    (unlimited : db.config.maxmemory = none)
    (named : commandName db command.arguments = .ok name)
    (routed : route (CommandName.ofBytes name) command db client =
      .dispatched between)
    (ran : dispatch env name (writeFlag name) command db between =
      some outcome)
    (answered : outcome.answer = .ok reply)
    (failed : reply.isError = true) :
    Intact env db outcome.db ↔ SparesKeys env db client command := by
  unfold dispatch at ran
  dsimp only at ran
  have nothing : (∀ known, CommandName.ofBytes name = some known →
      Handler.ofName known = none) → SparesKeys env db client command := by
    intro unhandled name' known between' named' isKnown _
    cases named.symm.trans named'
    have missing := unhandled known isKnown
    apply spares_others
    · intro other isWriter
      cases missing.symm.trans isWriter
    · intro other isBlocking
      cases missing.symm.trans isBlocking
  split at ran
  · rename_i handler found
    obtain ⟨known, isKnown, found⟩ := Option.bind_eq_some_iff.mp found
    let recorded : Database :=
      { db with
        dispatched := db.dispatched ++
          [⟨between.dbindex, command, writeFlag name⟩] }
    have reverts : Intact env recorded outcome.db ↔
        Spares env recorded command.arguments between.dbindex known :=
      handler_reverts found unlimited ran answered failed
    refine Iff.trans reverts ?_
    constructor
    · intro spares name' known' between' named' isKnown' dispatched
      cases named.symm.trans named'
      cases isKnown.symm.trans isKnown'
      rw [isKnown] at routed
      cases routed.symm.trans dispatched
      exact spares
    · intro spares
      rw [isKnown] at routed
      exact spares name known between named isKnown routed
  · rename_i unhandled
    cases ran
    apply iff_of_true
    · exact .of_data rfl rfl rfl
    · apply nothing
      intro known isKnown
      rw [isKnown] at unhandled
      exact unhandled

/-- A command that replies with an error leaves the keys intact exactly under
the condition, also where EXEC runs it. -/
theorem error_intact_iff
    {depth : Nat} {world : World} {command : ParsedCommand}
    (unlimited : db.config.maxmemory = none)
    (ran : commandAt depth world command db client = some outcome)
    (answered : outcome.answer = .ok reply)
    (failed : reply.isError = true) :
    Intact world.here db outcome.db ↔
      SparesKeys world.here db client command := by
  cases depth with
  | zero => cases ran
  | succ depth =>
      obtain ⟨executed, executes, isOutcome⟩ :=
        Option.map_eq_some_iff.mp ran
      subst isOutcome
      obtain ⟨noted, -, sameAnswer, -⟩ :=
        logged_noted world.here command executed
      rw [sameAnswer] at answered
      have logs : Intact world.here executed.db
          (logged world.here command executed).db :=
        .of_data noted.loading noted.data noted.dataExpirationMs
      have unlogs : Intact world.here
          (logged world.here command executed).db executed.db :=
        .of_data noted.loading.symm noted.data.symm
          noted.dataExpirationMs.symm
      have iff : Intact world.here db executed.db ↔
          SparesKeys world.here db client command := by
        cases executeCommand_executes executes with
        | empty nothing => cases answered
        | unnamed something refused =>
            apply iff_of_true (.refl _ db)
            intro name known between named
            cases refused.symm.trans named
        | answered something named routed =>
            apply iff_of_true (.refl _ db)
            intro name known between named' isKnown dispatched
            cases named.symm.trans named'
            rw [isKnown] at routed
            cases routed.symm.trans dispatched
        | exec something named routed execRan =>
            unfold exec at execRan
            split at execRan
            · cases execRan
              apply iff_of_true (.refl _ db)
              intro name known between named' isKnown dispatched
              cases named.symm.trans named'
              rw [isKnown] at routed
              cases routed.symm.trans dispatched
            · -- the replies of a queue are no error
              dsimp only at execRan
              split at execRan
              · cases execRan
                cases answered
                cases failed
              · simp only [Option.bind_eq_bind, Option.bind_eq_some_iff]
                  at execRan
                obtain ⟨⟨replies, place⟩, -, finished⟩ := execRan
                cases finished
                cases answered
                cases failed
        | dispatched something named routed dispatchRan =>
            exact dispatch_intact_iff unlimited named routed dispatchRan
              answered failed
      rw [← iff]
      exact ⟨fun intact => intact.trans unlogs, fun intact => intact.trans logs⟩

end All


end Command

end

/-! ## An increment that is no number -/

section

attribute [local instance] Platform.integral

namespace Command

/-- ZINCRBY creates the key before it reads the increment. -/
theorem error_not_intact :
    ¬∀ (world : World) (command : ParsedCommand) (db : Database)
      (client : Client) (outcome : Outcome) (reply : Response),
      db.config.maxmemory = none →
      RedVector.command world command db client = some outcome →
      outcome.answer = .ok reply → reply.isError = true →
      Intact world.here db outcome.db := by
  intro intact
  let world : World := fun _ => .still 0
  let zincrby : ParsedCommand :=
    .encoded [text "ZINCRBY", text "k", text "x", text "m"] []
      ⟨by decide, by decide⟩
  let db : Database := .new {} none
  have replied : (RedVector.command world zincrby db (.new 0)).map
      Outcome.answer = some (.ok (.fail "ERR value is not a valid float")) :=
    rfl
  have created : (RedVector.command world zincrby db (.new 0)).map
      (fun outcome => (outcome.db.live world.here (0, text "k")).isSome) =
        some true := by
    decide +kernel
  obtain ⟨outcome, ran, answered⟩ := Option.map_eq_some_iff.mp replied
  have same := (intact world zincrby db (.new 0) outcome _ rfl ran answered
    rfl).same_live (0, text "k")
  rw [ran, Option.map_some, same] at created
  revert created
  decide +kernel

/-- INCR of a live string that is no number leaves it. -/
theorem error_intact_incr :
    ∃ outcome, RedVector.command (fun _ => .still 0)
        (.encoded [text "INCR", text "a"] [] ⟨by decide, by decide⟩)
        persistentKey (.new 0) = some outcome ∧
      Intact (.still 0) persistentKey outcome.db := by
  have replied : (RedVector.command (fun _ => .still 0)
      (.encoded [text "INCR", text "a"] [] ⟨by decide, by decide⟩)
      persistentKey (.new 0)).map Outcome.answer =
        some (.ok (.fail "ERR value is not a valid integer")) :=
    rfl
  obtain ⟨outcome, ran, answered⟩ := Option.map_eq_some_iff.mp replied
  refine ⟨outcome, ran, (error_intact_iff rfl ran answered rfl).mpr ?_⟩
  intro name known between named isKnown routed
  have isIncr : commandName persistentKey [text "INCR", text "a"] =
      .ok (text "incr") := rfl
  cases isIncr.symm.trans named
  have incr : CommandName.ofBytes (text "incr") = some .incr := by decide
  cases incr.symm.trans isKnown
  have reached : route (some .incr) (.encoded [text "INCR", text "a"] []
      ⟨by decide, by decide⟩) persistentKey (.new 0) =
      .dispatched { Client.new 0 with auth := true } := rfl
  cases reached.symm.trans routed
  intro _ key isKey value stored
  cases isKey
  cases stored
  decide +kernel

end Command

end

end RedVector
