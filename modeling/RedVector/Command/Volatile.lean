import RedVector.Command.Overwrite
import RedVector.Command.Transfer
import RedVector.Value.Empty

/-!
# Expirations of updated keys

A command that overwrites a key should discard its expiration, and an update
in place should keep it.
-/

namespace RedVector

open Util Effect Database

section

variable [Platform]

namespace Command

/-! ## Updates that leave a value -/

/-- The updates in place whose success leaves a value that is not empty. -/
def additive : CommandName → Bool
  | .append | .incr | .setrange | .lpush | .sadd | .hset => true
  | _ => false

/-- A live key that is updated with success still holds a value. -/
def Stores (env : Env) (argv : Arguments) (dbindex : Nat) (db : Database)
    (result : Except Response Response) (after : Database) : Prop :=
  ∀ reply key, result = .ok reply → reply.isError = false →
    argv[1]? = some key → db.visible env (dbindex, key) ≠ none →
    after.value (dbindex, key) ≠ none

section Handlers

variable {α : Type} {env : Env} {db between : Database} {argv : Arguments}
  {dbindex : Nat} {key : Bytes}

theorem stores_error {after : Database} (reply : Response) :
    Stores env argv dbindex db (.error reply) after :=
  nofun

theorem stores_failed
    {after : Database} {reply : Response} (failed : reply.isError = true) :
    Stores env argv dbindex db (.ok reply) after := by
  intro other _ same succeeds
  cases same
  cases failed.symm.trans succeeds

/-- The update of a key that holds what a method left. -/
theorem stores_updated
    {changed : Value} {result : Operation α} {ok : α → Response}
    (named : argv[1]? = some key)
    (held : between.value (dbindex, key) = some changed)
    (stays : ∀ answer, result = .ok answer → changed.isEmpty = false) :
    Ensures env (do
      Db.keyUpdated dbindex key
      pure (respond result ok)) (Stores env argv dbindex db) between := by
  refine ensures_keyUpdated ?_
  intro after updated
  refine Program.ensures_pure ?_
  cases result with
  | error error => exact stores_failed rfl
  | ok answer =>
      intro reply other _ _ same _
      cases named.symm.trans same
      rw [(keyUpdated_stays held (stays answer rfl) updated).1]
      exact Option.some_ne_none changed

theorem stores_updateOnSuccess
    {changed : Value} {result : Operation α} {ok : α → Response}
    (named : argv[1]? = some key)
    (held : between.value (dbindex, key) = some changed)
    (stays : ∀ answer, result = .ok answer → changed.isEmpty = false) :
    Ensures env (updateOnSuccess dbindex key result ok)
      (Stores env argv dbindex db) between := by
  cases result with
  | error error => exact Program.ensures_pure (stores_failed rfl)
  | ok answer =>
      have updated : Ensures env (do
          Db.keyUpdated dbindex key
          pure (respond (.ok answer) ok)) (Stores env argv dbindex db)
          between :=
        stores_updated named held stays
      exact updated

theorem append_stores :
    Ensures env (append argv dbindex) (Stores env argv dbindex db) db := by
  unfold append
  refine ensures_exact (fun _ _ => stores_error _) ?_
  intro _
  refine ensures_valid (fun _ _ _ => stores_error _) ?_
  intro key keyed
  refine ensures_valid (fun _ _ _ => stores_error _) ?_
  intro val _
  refine ensures_getOrCreate ?_
  intro oldval created _
  split
  · exact Program.ensures_pure (stores_failed rfl)
  · refine Program.ensures_ofExcept_bind (fun _ _ => stores_error _) ?_
    intro _ _
    refine ensures_put ?_
    intro _
    refine stores_updated (getVec_eq_ok keyed)
      (put_sets created dbindex key _).value_self ?_
    intro length done
    exact Value.append_stays (Prod.ext done rfl)

theorem incr_stores :
    Ensures env (incr argv dbindex) (Stores env argv dbindex db) db := by
  unfold incr genericIncr
  refine ensures_exact (fun _ _ => stores_error _) ?_
  intro _
  refine ensures_valid (fun _ _ _ => stores_error _) ?_
  intro key keyed
  refine ensures_createThen ?_
  intro answer changed created called creates _
  refine stores_updated (getVec_eq_ok keyed) creates.value ?_
  rintro number rfl
  exact Value.incr_stays (Option.some.inj called)

theorem setrange_stores :
    Ensures env (setrange argv dbindex) (Stores env argv dbindex db) db := by
  unfold setrange
  refine ensures_exact (fun _ _ => stores_error _) ?_
  intro _
  refine ensures_valid (fun _ _ _ => stores_error _) ?_
  intro key keyed
  refine ensures_valid (fun _ _ _ => stores_error _) ?_
  intro index _
  split
  · exact Program.ensures_pure (stores_failed rfl)
  · refine ensures_valid (fun _ _ _ => stores_error _) ?_
    intro value _
    refine ensures_get ?_
    intro _
    split
    · rename_i missing
      refine Program.ensures_pure ?_
      intro reply other _ _ same live
      cases (getVec_eq_ok keyed).symm.trans same
      simp only [Bool.and_eq_true, Option.isNone_iff_eq_none] at missing
      exact absurd missing.1 live
    · refine ensures_getOrCreate ?_
      intro oldval created _
      refine Program.ensures_orPanic_bind ?_
      intro length _
      refine Program.ensures_ofExcept_bind (fun _ _ => stores_error _) ?_
      intro _ _
      refine ensures_put ?_
      intro _
      refine stores_updated (getVec_eq_ok keyed)
        (put_sets created dbindex key _).value_self ?_
      intro length done
      exact Value.setrange_stays (Prod.ext done rfl)

/-- After the last push with success the list is not empty. -/
theorem pushAll_stores
    {right : Bool} {vals : List Bytes} {r : Response}
    (start : r.isError = false → vals = [] →
      ∃ value, db.value (dbindex, key) = some value ∧
        value.isEmpty = false) :
    Ensures env (pushAll dbindex key right true vals r)
      (fun result after => ∀ reply, result = .ok reply →
        reply.isError = false →
        ∃ value, after.value (dbindex, key) = some value ∧
          value.isEmpty = false) db := by
  induction vals generalizing r db with
  | nil =>
      refine Program.ensures_pure ?_
      intro reply same succeeds
      cases same
      exact start succeeds rfl
  | cons val vals ih =>
      unfold pushAll
      simp only [if_true, map_eq_pure_bind, bind_assoc]
      refine ensures_createThen ?_
      intro answer changed after called creates _
      refine ih ?_
      intro succeeds _
      refine ⟨changed, creates.value, ?_⟩
      cases answer with
      | error error => cases succeeds
      | ok length => exact Value.push_stays (Option.some.inj called)

theorem lpush_stores :
    Ensures env (lpush argv dbindex) (Stores env argv dbindex db) db := by
  unfold lpush genericPush
  refine Program.ensures_ofExcept_bind (fun _ _ => stores_error _) ?_
  intro _ enough
  refine ensures_valid (fun _ _ _ => stores_error _) ?_
  intro key keyed
  refine Program.ensures_bind ?_
  refine Program.Ensures.mono (pushAll_stores ?_) ?_
  · intro _ nothing
    have many : 3 ≤ argv.length := by
      by_contra few
      simp [validate, few] at enough
    have short := List.drop_eq_nil_iff.mp nothing
    omega
  · intro result between holds
    cases result with
    | error reply => exact stores_error reply
    | ok reply =>
        refine ensures_keyUpdated ?_
        intro after updated
        refine Program.ensures_pure ?_
        intro other name isReply succeeds same _
        cases isReply
        cases (getVec_eq_ok keyed).symm.trans same
        obtain ⟨value, held, stays⟩ := holds reply rfl succeeds
        rw [(keyUpdated_stays held stays updated).1]
        exact Option.some_ne_none value

/-- The calls of a method that leaves a value that is not empty do so
together, if there is one. -/
theorem countChanges_stays
    {method : Bytes → Value → Value.Change Bool}
    (stays : ∀ element value changed after,
      method element value = (.ok changed, after) → after.isEmpty = false)
    {elements : List Bytes} {value after : Value} {count : Nat}
    (start : elements = [] → value.isEmpty = false)
    (done : countChanges method elements value = (.ok count, after)) :
    after.isEmpty = false := by
  induction elements generalizing value count with
  | nil =>
      cases done
      exact start rfl
  | cons element rest ih =>
      unfold countChanges at done
      split at done
      · cases done
      · rename_i changed between first
        split at done
        · cases done
        · rename_i others last ran
          cases done
          exact ih (fun _ => stays element value changed between first) ran

theorem sadd_stores :
    Ensures env (sadd argv dbindex) (Stores env argv dbindex db) db := by
  unfold sadd changeElements
  refine Program.ensures_ofExcept_bind (fun _ _ => stores_error _) ?_
  intro _ enough
  refine ensures_reader (fun _ _ => stores_error _) ?_
  intro config _
  refine ensures_valid (fun _ _ _ => stores_error _) ?_
  intro key keyed
  refine ensures_createThen ?_
  intro answer changed created called creates _
  refine stores_updateOnSuccess (getVec_eq_ok keyed) creates.value ?_
  rintro count rfl
  refine countChanges_stays ?_ ?_ (Option.some.inj called)
  · intro element value added after done
    exact Value.sadd_stays done
  · intro nothing
    have many : 2 < argv.length := by
      by_contra few
      simp [validate, few] at enough
    have short := List.drop_eq_nil_iff.mp nothing
    omega

theorem hset_stores :
    Ensures env (hset argv dbindex) (Stores env argv dbindex db) db := by
  unfold hset
  refine ensures_exact (fun _ _ => stores_error _) ?_
  intro _
  refine ensures_valid (fun _ _ _ => stores_error _) ?_
  intro key keyed
  refine ensures_valid (fun _ _ _ => stores_error _) ?_
  intro field _
  refine ensures_valid (fun _ _ _ => stores_error _) ?_
  intro value _
  refine ensures_createThen ?_
  intro answer changed created called creates _
  refine stores_updateOnSuccess (getVec_eq_ok keyed) creates.value ?_
  rintro isNew rfl
  exact Value.hset_stays (Option.some.inj called)

end Handlers

/-! ## All commands -/

section All

variable {known : CommandName} {env : Env} {argv : Arguments}
  {db after : Database} {dbindex : Nat} {reply : Response}
  {handle : Arguments → Nat → Writer Response}

theorem writer_discarding
    (found : Handler.ofName known = some (.writer handle))
    (overwrites : overwritten known argv ≠ []) :
    Ensures env (handle argv dbindex)
      (Discarding known env argv dbindex db) db := by
  cases known
  case set =>
    cases found
    exact set_discarding
  case getset =>
    cases found
    exact getset_discarding
  case mset =>
    cases found
    exact mset_discarding
  case bitop =>
    cases found
    exact bitop_discarding
  case sort =>
    cases found
    exact sort_discarding
  case sdiffstore =>
    cases found
    exact sdiffstore_discarding
  case sinterstore =>
    cases found
    exact sinterstore_discarding
  case sunionstore =>
    cases found
    exact sunionstore_discarding
  case zunionstore =>
    cases found
    exact zunionstore_discarding
  case zinterstore =>
    cases found
    exact zinterstore_discarding
  all_goals exact absurd rfl overwrites

theorem writer_stores
    (found : Handler.ofName known = some (.writer handle))
    (adds : additive known = true) :
    Ensures env (handle argv dbindex) (Stores env argv dbindex db) db := by
  cases known
  case append =>
    cases found
    exact append_stores
  case incr =>
    cases found
    exact incr_stores
  case setrange =>
    cases found
    exact setrange_stores
  case lpush =>
    cases found
    exact lpush_stores
  case sadd =>
    cases found
    exact sadd_stores
  case hset =>
    cases found
    exact hset_stores
  all_goals cases adds

theorem blocking_plain
    {wait : Arguments → Nat → Writer Answer}
    (found : Handler.ofName known = some (.blocking wait)) :
    overwritten known argv = [] ∧ additive known = false := by
  cases known
  case brpoplpush => exact ⟨rfl, rfl⟩
  case brpop => exact ⟨rfl, rfl⟩
  case blpop => exact ⟨rfl, rfl⟩
  all_goals cases found

/-- Nothing is asked of a command that overwrites no key. -/
theorem discards_nothing (nothing : overwritten known argv = []) :
    Discards env db argv dbindex known := by
  have noDestination : argv[1]?.toList = [] →
      ∀ key, key ∈ argv[1]? → False := by
    intro missing key member
    have listed := Option.mem_toList.mpr member
    rw [missing] at listed
    cases listed
  unfold Discards
  split
  · trivial
  · trivial
  · right
    intro key member
    exact (noDestination nothing key member).elim
  · right
    intro key member
    exact (noDestination nothing key member).elim
  · right
    intro key member
    exact (noDestination nothing key member).elim
  · right
    rw [nothing]
    exact fun _ => nofun
  · rw [nothing]
    exact fun _ => nofun

/-- A command that overwrites keys discards their expirations when those are
not kept, and an update in place keeps the expirations of live keys. -/
theorem expirations_iff
    {handler : Handler} {program : Writer Answer}
    {result : Except Response Answer}
    (found : Handler.ofName known = some handler)
    (writes : programOf handler argv dbindex = some program)
    (ran : program.run (machine env) db = some (result, after)) :
    (∀ reply, result = .ok (.ok reply) → overwrote known argv reply = true →
      (Discards env db argv dbindex known →
        Discarded dbindex known argv after) ∧
      ((known = .mset → db.config.maxmemory = none) →
        Discarded dbindex known argv after →
        Discards env db argv dbindex known)) ∧
    (inPlace known = true →
      ∀ slot, db.visible env slot ≠ none →
        after.value slot = none ∨
          after.expiration slot = db.expiration slot) ∧
    (additive known = true →
      ∀ reply key, result = .ok (.ok reply) → reply.isError = false →
        argv[1]? = some key → db.visible env (dbindex, key) ≠ none →
        after.expiration (dbindex, key) = db.expiration (dbindex, key)) := by
  have retains : inPlace known = true → ∀ slot,
      db.visible env slot ≠ none → after.value slot = none ∨
        after.expiration slot = db.expiration slot := by
    intro listed slot live
    exact Tracks.retains
      (fun _ => inPlace_tracks found listed writes) live ran
  have written : ∀ reply, result = .ok (.ok reply) →
      ∀ handle, handler = .writer handle →
      (handle argv dbindex).run (machine env) db =
        some (.ok reply, after) := by
    rintro reply rfl handle rfl
    cases writes
    obtain ⟨first, writerRun, same⟩ := Program.run_map_eq_some ran
    cases first with
    | ok other =>
        cases same
        exact writerRun
    | error other => cases same
  refine ⟨?_, retains, ?_⟩
  · intro reply replied succeeds
    by_cases nothing : overwritten known argv = []
    · refine ⟨fun _ => ?_, fun _ _ => discards_nothing nothing⟩
      unfold Discarded
      rw [nothing]
      exact fun _ => nofun
    · cases handler with
      | writer handle =>
          exact writer_discarding found nothing _ _
            (written reply replied handle rfl) reply rfl succeeds
      | blocking handle => exact absurd (blocking_plain found).1 nothing
      | reader handle => cases writes
      | server handle => cases writes
      | session handle => cases writes
  · intro adds reply key replied succeeds named live
    have listed : inPlace known = true := by
      revert adds
      cases known
      all_goals decide
    apply (retains listed _ live).resolve_left
    cases handler with
    | writer handle =>
        exact writer_stores found adds _ _
          (written reply replied handle rfl) reply key rfl succeeds named live
    | blocking handle =>
        have plain : overwritten known argv = [] ∧ additive known = false :=
          blocking_plain found
        cases plain.2.symm.trans adds
    | reader handle => cases writes
    | server handle => cases writes
    | session handle => cases writes

end All

end Command

end

/-! ## A volatile key -/

section

attribute [local instance] Platform.integral

namespace Command

/-- GETSET leaves the expiration of the value that it replaces. -/
theorem expirations_not_discarded :
    ¬∀ (known : CommandName) (handler : Handler) (program : Writer Answer)
      (env : Env) (argv : Arguments) (dbindex : Nat) (db after : Database)
      (reply : Response),
      Handler.ofName known = some handler →
      programOf handler argv dbindex = some program →
      program.run (machine env) db = some (.ok (.ok reply), after) →
      overwrote known argv reply = true →
      Discarded dbindex known argv after := by
  intro discards
  let argv := [text "GETSET", text "a", text "y"]
  let program : Writer Answer := Except.ok <$> getset argv 0
  have replied : (program.run (machine (.still 0)) volatileKey).map
      Prod.fst = some (.ok (.ok (.data (text "x")))) :=
    rfl
  have expires : (program.run (machine (.still 0)) volatileKey).map
      (fun ended => ended.2.expiration (0, text "a")) =
        some (some 100) := by
    decide +kernel
  obtain ⟨⟨result, after⟩, ran, isReply⟩ := Option.map_eq_some_iff.mp replied
  cases isReply
  have gone := discards .getset (.writer getset) program (.still 0) argv 0
    volatileKey after _ rfl rfl ran rfl (text "a") List.mem_cons_self
  rw [ran, Option.map_some, gone] at expires
  cases expires

/-- SET of a key without an expiration leaves it without one. -/
theorem set_discards :
    ∃ after, (Except.ok <$> set [text "SET", text "a", text "y"] 0 :
        Writer Answer).run (machine (.still 0)) persistentKey =
          some (.ok (.ok .ok), after) ∧
      Discarded 0 .set [text "SET", text "a", text "y"] after := by
  let program : Writer Answer :=
    Except.ok <$> set [text "SET", text "a", text "y"] 0
  have replied : (program.run (machine (.still 0)) persistentKey).map
      Prod.fst = some (.ok (.ok .ok)) :=
    rfl
  obtain ⟨⟨result, after⟩, ran, isReply⟩ := Option.map_eq_some_iff.mp replied
  cases isReply
  have found : Handler.ofName .set = some (.writer set) := rfl
  refine ⟨after, ran, ((expirations_iff found rfl ran).1 .ok rfl
    (by decide +kernel)).1 ?_⟩
  intro key member
  have only : key ∈ [text "a"] := member
  rw [List.mem_singleton] at only
  subst only
  rfl

end Command

end

end RedVector
