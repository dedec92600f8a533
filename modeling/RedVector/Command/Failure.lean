import RedVector.Command.Overwrite
import RedVector.Database.Intact
import RedVector.Value.Failure

/-!
# What a reply with an error leaves behind

A command that replies with an error should leave the keys intact.  Most
commands check their arguments first and only then touch a key; for those that
can still fail there, the condition on the state is the exact one.
-/

namespace RedVector

open Util Effect Database

section

variable [Platform]

namespace Command

/-! ## Replies -/

section Rules

variable {α β : Type} {asReply : α → Option Response} {env : Env}
  {db between : Database} {spared : Prop} {argv : Arguments}
  {dbindex : Nat} {key : Bytes}

/-- The reply that a part of a handler has come to, if it has. -/
def replied (asReply : α → Option Response) :
    Except Response α → Option Response
  | .ok value => asReply value
  | .error reply => some reply

/-- An error as the reply leaves the keys intact exactly under a condition. -/
def Reverts (asReply : α → Option Response) (env : Env) (db : Database)
    (spared : Prop) (result : Except Response α) (after : Database) :
    Prop :=
  ∀ reply, replied asReply result = some reply → reply.isError = true →
    (Intact env db after ↔ spared)

theorem reverts_intact
    {result : Except Response α} {after : Database}
    (intact : Intact env db after) (holds : spared) :
    Reverts asReply env db spared result after :=
  fun _ _ _ => ⟨fun _ => holds, fun _ => intact⟩

/-- Nothing is asked of a reply that is no error. -/
theorem reverts_success
    {value : α} {after : Database}
    (success : ∀ reply, asReply value = some reply → reply.isError = false) :
    Reverts asReply env db spared (.ok value) after := by
  intro reply said failed
  cases (success reply said).symm.trans failed

theorem reverts_plain
    {response : Response} {after : Database}
    (plain : response.isError = false) :
    Reverts some env db spared (.ok response) after := by
  apply reverts_success
  intro reply said
  cases said
  exact plain

theorem Reverts.congr
    {spared' : Prop} {result : Except Response α} {after : Database}
    (reverts : Reverts asReply env db spared result after)
    (same : spared ↔ spared') : Reverts asReply env db spared' result after :=
  fun reply said failed => (reverts reply said failed).trans same

theorem reverts_congr
    {spared' : Prop} {program : Writer α}
    (reverts : Ensures env program (Reverts asReply env db spared) between)
    (same : spared ↔ spared') :
    Ensures env program (Reverts asReply env db spared') between :=
  reverts.mono fun _ _ holds => holds.congr same

/-- An argument that is there. -/
theorem ensures_vec
    {position : Nat} {message : String} {rest : Bytes → Writer β}
    {post : Except Response β → Database → Prop}
    (inside : position < argv.length)
    (succeeds : ∀ value, argv[position]? = some value →
      Ensures env (rest value) post between) :
    Ensures env ((liftM (tryValidate (argv.getVec position) message) :
      Writer Bytes) >>= rest) post between := by
  apply ensures_valid
  · intro reply error failed
    unfold Arguments.getVec at failed
    rw [List.getElem?_eq_getElem inside] at failed
    cases failed
  · intro value read
    exact succeeds value (getVec_eq_ok read)

theorem ensures_validate
    {holds : Prop} [Decidable holds] {message : String}
    {rest : Unit → Writer β} {post : Except Response β → Database → Prop}
    (fails : ∀ reply, ¬holds → post (.error reply) between)
    (succeeds : holds → Ensures env (rest ()) post between) :
    Ensures env ((liftM (validate holds message) : Writer Unit) >>= rest)
      post between := by
  unfold validate
  split
  · rename_i checked
    exact succeeds (of_decide_eq_true checked)
  · rename_i refused
    exact Program.ensures_throw
      (fails _ fun checked => refused (decide_eq_true checked))

/-- A part that only reads and does not fail. -/
theorem ensures_total_reader
    {program : Reader α} {rest : α → Writer β}
    {post : Except Response β → Database → Prop} (total : program.Total)
    (succeeds : ∀ value, Ensures env (rest value) post between) :
    Ensures env ((liftM program : Writer α) >>= rest) post between := by
  apply ensures_reader
  · intro reply ran
    obtain ⟨_, isOk⟩ :=
      (total.lift readInclusion).ensures _ _ _ _ ran
    cases isOk
  · exact fun value _ => succeeds value

/-- A condition on the first key of a command. -/
def OnFirst (argv : Arguments) (holds : Bytes → Prop) : Prop :=
  ∀ key, argv[1]? = some key → holds key

omit [Platform] in
theorem onFirst_iff
    (holds : Bytes → Prop) (named : argv[1]? = some key) :
    holds key ↔ OnFirst argv holds := by
  constructor
  · intro held other same
    cases named.symm.trans same
    exact held
  · intro all
    exact all key named

/-! ## Calling a method -/

/-- An empty value is not seen under a slot. -/
def Whole (env : Env) (db : Database) (slot : Slot) : Prop :=
  ∀ value, db.visible env slot = some value → value.isEmpty = false

theorem keptExpiration_live
    {slot : Slot} (alive : db.lapsed env slot = false) :
    db.keptExpiration env slot = db.expiration slot := by
  unfold keptExpiration
  rw [alive]
  rfl

/-- A method on the value of a key that is created if need be. -/
theorem ensures_created
    {method : Value → Option (Value.Change α)}
    {rest : Operation α → Writer β}
    {post : Except Response β → Database → Prop}
    (unlimited : db.config.maxmemory = none)
    (step : ∀ answer changed after,
      method ((db.value (dbindex, key)).getD .nil) =
        some (answer, changed) →
      Sets db after (dbindex, key) (some changed)
        (db.keptExpiration env (dbindex, key)) →
      Ensures env (rest answer) post after) :
    Ensures env (createThen dbindex key method >>= rest) post db := by
  apply ensures_createThen
  intro answer changed after called _ sets
  exact step answer changed after called
    (sets (creationEvicts_unlimited unlimited env dbindex key))

theorem updateOnSuccess_reverts
    {result : Operation α} {ok : α → Response}
    (plain : ∀ value, (ok value).isError = false)
    (failed : ∀ error, result = .error error →
      (Intact env db between ↔ spared)) :
    Ensures env (updateOnSuccess dbindex key result ok)
      (Reverts some env db spared) between := by
  unfold updateOnSuccess
  cases result with
  | ok value =>
      refine ensures_keyUpdated ?_
      intro after _
      exact Program.ensures_pure (reverts_plain (plain value))
  | error error =>
      exact Program.ensures_pure fun _ _ _ => failed error rfl

/-- A method on a created key whose errors are not announced. -/
theorem created_reverts
    {method : Value → Option (Value.Change α)} {ok : α → Response}
    (unlimited : db.config.maxmemory = none)
    (atomic : Value.Atomic method)
    (plain : ∀ value, (ok value).isError = false) :
    Ensures env (do
        let r ← createThen dbindex key method
        updateOnSuccess dbindex key r ok)
      (Reverts some env db (db.visible env (dbindex, key) ≠ none)) db := by
  refine ensures_created unlimited ?_
  intro answer changed after called sets
  apply updateOnSuccess_reverts plain
  intro error failed
  subst failed
  rw [atomic _ _ _ called] at sets
  exact sets.created_iff.trans created_live_iff

theorem announced_reverts
    {result : Operation α} {ok : α → Response}
    (plain : ∀ value, (ok value).isError = false)
    (failed : ∀ error after, result = .error error →
      between.keyUpdated env dbindex key = some after →
      (Intact env db after ↔ spared)) :
    Ensures env (do
        Db.keyUpdated dbindex key
        pure (respond result ok))
      (Reverts some env db spared) between := by
  refine ensures_keyUpdated ?_
  intro after updated
  apply Program.ensures_pure
  cases result with
  | ok value => exact reverts_plain (plain value)
  | error error => exact fun _ _ _ => failed error after rfl updated

/-- A method on a created key whose errors are announced. -/
theorem announcedCreation_reverts
    {method : Value → Option (Value.Change α)} {ok : α → Response}
    (unlimited : db.config.maxmemory = none)
    (atomic : Value.Atomic method)
    (plain : ∀ value, (ok value).isError = false) :
    Ensures env (do
        let r ← createThen dbindex key method
        Db.keyUpdated dbindex key
        pure (respond r ok))
      (Reverts some env db (Solid env db (dbindex, key))) db := by
  refine ensures_created unlimited ?_
  intro answer changed after called sets
  apply announced_reverts plain
  intro error last failed updated
  subst failed
  rw [atomic _ _ _ called] at sets
  exact (sets.updated_iff updated).trans solid_iff

/-- Looking a key up for writing leaves the keys intact. -/
theorem getMut_intact
    {after : Database} {result : Option Value}
    (got : db.getMut env dbindex key = some (result, after)) :
    Intact env db after ∧
      (db.visible env (dbindex, key) = none →
        after.value (dbindex, key) = none) := by
  obtain ⟨-, spec⟩ := getMut_spec got
  split at spec
  · rename_i lapsed
    have dead : db.visible env (dbindex, key) = none :=
      visible_eq_none.mpr (.inl lapsed)
    exact ⟨spec.1.cleared_intact dead, fun _ => spec.1.value_self⟩
  · rename_i alive
    refine ⟨.kept spec, ?_⟩
    intro missing
    rw [spec.value]
    exact (visible_eq_none.mp missing).resolve_left alive

/-- A method on the value of a key, if there is one. -/
theorem ensures_found
    {method : Value → Option (Value.Change α)}
    {rest : Option (Operation α) → Writer β}
    {post : Except Response β → Database → Prop}
    (missing : ∀ after, db.visible env (dbindex, key) = none →
      Intact env db after → after.value (dbindex, key) = none →
      Ensures env (rest none) post after)
    (found : ∀ value answer changed after,
      db.visible env (dbindex, key) = some value →
      method value = some (answer, changed) →
      Sets db after (dbindex, key) (some changed)
        (db.keptExpiration env (dbindex, key)) →
      Ensures env (rest (some answer)) post after) :
    Ensures env (mutThen dbindex key method >>= rest) post db := by
  unfold mutThen
  rw [bind_assoc]
  refine ensures_getMut ?_
  intro middle inside got
  obtain ⟨intact, absent⟩ := getMut_intact got
  cases visible : db.visible env (dbindex, key) with
  | none => exact missing middle visible intact (absent visible)
  | some value =>
      have kept := ((getMut_live got).2.2.2.2 value visible).1
      have alive := (visible_eq_some.mp visible).1
      dsimp only
      rw [bind_assoc]
      apply Program.ensures_orPanic_bind
      intro change called
      obtain ⟨answer, changed⟩ := change
      dsimp only
      rw [bind_assoc]
      refine ensures_put ?_
      intro _
      apply found value answer changed _ visible called
      have puts := put_sets middle dbindex key changed
      rw [keptExpiration_live alive]
      constructor
      · exact kept.frame.trans puts.frame
      · intro other
        rw [puts.value, kept.value]
      · intro other
        rw [puts.expiration, kept.expiration]

/-- A method that failed on a key that is there leaves the keys intact. -/
theorem found_intact
    {method : Value → Option (Value.Change α)} {value changed : Value}
    {error : OperationError} {after : Database}
    (atomic : Value.Atomic method)
    (visible : db.visible env (dbindex, key) = some value)
    (called : method value = some (.error error, changed))
    (sets : Sets db after (dbindex, key) (some changed)
      (db.keptExpiration env (dbindex, key))) : Intact env db after := by
  rw [atomic _ _ _ called, ← visible] at sets
  exact (visible ▸ sets).created_iff.mpr visible

/-- The update of a key that is not there. -/
theorem keyUpdated_absent
    {after : Database} (absent : db.value (dbindex, key) = none)
    (updated : db.keyUpdated env dbindex key = some after) :
    Intact env db after := by
  obtain ⟨updates, -⟩ := keyUpdated_spec updated
  have sets : Sets db after (dbindex, key) (db.value (dbindex, key))
      (db.expiration (dbindex, key)) := by
    simpa [surviving, vanishing, absent] using updates
  exact sets.same_intact

end Rules

/-! ## Methods that are called again and again

A method that refuses a type of values fails at once or never. -/

section Repeated

theorem countChanges_atomic
    {method : Bytes → Value → Value.Change Bool} (refuses : Value → Prop)
    (atomic : ∀ element, Value.Atomic fun value =>
      some (method element value))
    (refused : ∀ element value error after,
      method element value = (.error error, after) → refuses value)
    (accepted : ∀ element value changed after,
      method element value = (.ok changed, after) → ¬refuses after)
    (elements : List Bytes) :
    Value.Atomic fun value => some (countChanges method elements value) := by
  have fails : ∀ value error after,
      countChanges method elements value = (.error error, after) →
        after = value ∧ refuses value := by
    induction elements with
    | nil => exact nofun
    | cons element rest ih =>
        intro value error after failed
        unfold countChanges at failed
        split at failed
        · rename_i first called
          cases failed
          exact ⟨atomic element _ _ _ (congrArg some called),
            refused _ _ _ _ called⟩
        · rename_i changed between called
          split at failed
          · rename_i later last ran
            exact absurd (ih between later last ran).2
              (accepted _ _ _ _ called)
          · cases failed
  intro value error after failed
  exact (fails value error after (Option.some.inj failed)).1

theorem saddAll_atomic (limit : Nat) (elements : List Bytes) :
    Value.Atomic fun value => some (countChanges
      (fun element value => value.sadd element limit) elements value) := by
  apply countChanges_atomic fun value => value.scard.isOk = false
  · exact fun element => Value.sadd_atomic element limit
  · intro element value error after failed
    cases value with
    | nil => cases failed
    | set value => cases failed
    | _ => rfl
  · intro element value changed after called
    cases value with
    | nil =>
        cases called
        exact nofun
    | set value =>
        cases called
        exact nofun
    | _ => cases called

theorem sremAll_atomic (elements : List Bytes) :
    Value.Atomic fun value => some (countChanges
      (fun element value => value.srem element) elements value) := by
  apply countChanges_atomic fun value => value.scard.isOk = false
  · exact Value.srem_atomic
  · intro element value error after failed
    cases value with
    | nil => cases failed
    | set value => cases failed
    | _ => rfl
  · intro element value changed after called
    cases value with
    | nil =>
        cases called
        exact nofun
    | set value =>
        cases called
        exact nofun
    | _ => cases called

theorem zremAll_atomic (elements : List Bytes) :
    Value.Atomic fun value => some (countChanges Value.zrem elements
      value) := by
  apply countChanges_atomic fun value => value.zcard.isOk = false
  · exact Value.zrem_atomic
  · intro element value error after failed
    cases value with
    | nil => cases failed
    | sortedSet value => cases failed
    | _ => rfl
  · intro element value changed after called
    cases value with
    | nil =>
        cases called
        exact nofun
    | sortedSet value =>
        cases called
        exact nofun
    | _ => cases called

/-- A Bloom filter and a missing value take every item. -/
theorem bfAdd_succeeds
    {value after : Value} {item other : Bytes} {added : Bool}
    (called : value.bfAdd item = (.ok added, after)) :
    ∃ answer, (after.bfAdd other).1 = .ok answer := by
  cases value with
  | nil =>
      cases called
      exact ⟨_, rfl⟩
  | bloom value =>
      cases called
      exact ⟨_, rfl⟩
  | _ => cases called

theorem bfAddAll_atomic (items : List Bytes) :
    Value.Atomic fun value => some (bfAddAll items value) := by
  have fails : ∀ value error after,
      bfAddAll items value = (.error error, after) →
        after = value ∧ ∃ item, (value.bfAdd item).1 = .error error := by
    induction items with
    | nil => exact nofun
    | cons item rest ih =>
        intro value error after failed
        unfold bfAddAll at failed
        split at failed
        · rename_i first called
          cases failed
          exact ⟨Value.bfAdd_atomic item _ _ _ (congrArg some called), item,
            congrArg Prod.fst called⟩
        · rename_i added between called
          split at failed
          · rename_i later last ran
            obtain ⟨-, other, refused⟩ := ih between later last ran
            obtain ⟨answer, succeeds⟩ :
                ∃ answer, (between.bfAdd other).1 = .ok answer :=
              bfAdd_succeeds called
            cases refused.symm.trans succeeds
          · cases failed
  intro value error after failed
  exact (fails value error after (Option.some.inj failed)).1

/-- A hash and a missing value take every field. -/
theorem hset_succeeds
    {value after : Value} {field newvalue field' newvalue' : Bytes}
    {created : Bool}
    (called : value.hset field newvalue = (.ok created, after)) :
    ∃ answer, (after.hset field' newvalue').1 = .ok answer := by
  cases value with
  | nil =>
      cases called
      exact ⟨_, rfl⟩
  | hash value =>
      cases called
      exact ⟨_, rfl⟩
  | _ => cases called

theorem hsetAll_atomic (entries : List Bytes) :
    Value.Atomic fun value => some (hsetAll entries value) := by
  have fails : ∀ value error after,
      hsetAll entries value = (.error error, after) →
        after = value ∧
          ∃ field newvalue, (value.hset field newvalue).1 = .error error := by
    intro value error last failed
    induction entries, value using hsetAll.induct with
    | case1 field newvalue rest value error after called =>
        unfold hsetAll at failed
        rw [called] at failed
        cases failed
        exact ⟨Value.hset_atomic field newvalue _ _ _ (congrArg some called),
          field, newvalue, congrArg Prod.fst called⟩
    | case2 field newvalue rest value created after called ih =>
        unfold hsetAll at failed
        rw [called] at failed
        obtain ⟨-, field', newvalue', refused⟩ := ih failed
        obtain ⟨answer, succeeds⟩ :
            ∃ answer, (after.hset field' newvalue').1 = .ok answer :=
          hset_succeeds called
        cases refused.symm.trans succeeds
    | case3 entries value short =>
        unfold hsetAll at failed
        split at failed
        · exact (short _ _ _ rfl).elim
        · cases failed
  intro value error after failed
  exact (fails value error after (Option.some.inj failed)).1

/-- A number is refused for the type of the value only. -/
theorem zadd_refused
    {value after : Value} {s : F64} {element : Bytes} {nx xx ch : Bool}
    {error : OperationError} (number : Platform.f64IsNan s = false)
    (failed : value.zadd s element nx xx ch false = (.error error, after)) :
    value.zcard.isOk = false := by
  have succeeds : ∀ set : ValueSortedSet,
      ∃ result, set.zadd s element nx xx ch false false = .ok result := by
    intro set
    unfold ValueSortedSet.zadd
    simp only [Bool.false_eq_true, if_false, number, Bool.false_and]
    split
    · split
      · exact ⟨_, rfl⟩
      · split
        · exact ⟨_, rfl⟩
        · exact ⟨_, rfl⟩
    · split
      · exact ⟨_, rfl⟩
      · exact ⟨_, rfl⟩
  cases value with
  | nil =>
      obtain ⟨result, done⟩ := succeeds .new
      unfold Value.zadd at failed
      dsimp only at failed
      rw [done] at failed
      split at failed
      · cases failed
      · cases failed
  | sortedSet set =>
      obtain ⟨result, done⟩ := succeeds set
      unfold Value.zadd at failed
      dsimp only at failed
      rw [done] at failed
      cases failed
  | _ => rfl

theorem zadd_accepted
    {value after : Value} {s : F64} {element : Bytes}
    {nx xx ch incr added : Bool}
    (called : value.zadd s element nx xx ch incr = (.ok added, after)) :
    after.zcard.isOk = true := by
  cases value with
  | nil =>
      unfold Value.zadd at called
      dsimp only at called
      split at called
      · cases called
        rfl
      · split at called
        · cases called
          rfl
        · cases called
  | sortedSet set =>
      unfold Value.zadd at called
      dsimp only at called
      split at called
      · cases called
        rfl
      · cases called
  | _ => cases called

/-- The pairs of ZADD that it accepts are numbers, and one if they are
increments. -/
structure Scores (options : ZaddOptions) (pairs : List (F64 × Bytes)) :
    Prop where
  numbers : ∀ pair ∈ pairs, Platform.f64IsNan pair.1 = false
  single : options.incr = true → pairs.length ≤ 1

theorem zaddAll_atomic
    {options : ZaddOptions} {pairs : List (F64 × Bytes)}
    (scores : Scores options pairs) :
    Value.Atomic fun value => some (zaddAll options pairs value) := by
  intro value error after failed
  have failed := Option.some.inj failed
  have refused : ∀ (pairs : List (F64 × Bytes)) (value after : Value)
      (error : OperationError), options.incr = false →
      (∀ pair ∈ pairs, Platform.f64IsNan pair.1 = false) →
      zaddAll options pairs value = (.error error, after) →
      value.zcard.isOk = false := by
    intro pairs
    induction pairs with
    | nil => exact fun _ _ _ _ _ => nofun
    | cons pair rest ih =>
        intro value after error plain numbers failed
        unfold zaddAll at failed
        rw [plain] at failed
        split at failed
        · rename_i called
          exact zadd_refused (numbers pair List.mem_cons_self) called
        · rename_i added between called
          split at failed
          · rename_i later last ran
            have wrong := ih between last later plain
              (fun other among => numbers other (.tail pair among)) ran
            cases wrong.symm.trans (zadd_accepted called)
          · cases failed
  cases pairs with
  | nil => cases failed
  | cons pair rest =>
      unfold zaddAll at failed
      split at failed
      · rename_i called
        cases failed
        exact Value.zadd_atomic pair.1 pair.2 _ _ _ _ _ _ _
          (congrArg some called)
      · rename_i added between called
        split at failed
        · rename_i later last ran
          cases incr : options.incr with
          | true =>
              have short := scores.single incr
              have nothing : rest = [] := by
                simpa using short
              subst nothing
              cases ran
          | false =>
              have wrong := refused rest between last later incr
                (fun other among => scores.numbers other (.tail pair among))
                ran
              cases wrong.symm.trans (zadd_accepted called)
        · cases failed

theorem scoredMembers_numbers
    {arguments : List Bytes} {pairs : List (F64 × Bytes)}
    (read : scoredMembers arguments = .ok pairs) :
    (∀ pair ∈ pairs, Platform.f64IsNan pair.1 = false) ∧
      2 * pairs.length ≤ arguments.length := by
  induction arguments using scoredMembers.induct generalizing pairs with
  | case1 score member rest ih =>
      unfold scoredMembers at read
      cases isScore : Arguments.getF64 [score] 0 with
      | error error =>
          rw [isScore] at read
          cases read
      | ok s =>
          rw [isScore] at read
          cases isRest : scoredMembers rest with
          | error error =>
              rw [isRest] at read
              cases read
          | ok others =>
              rw [isRest] at read
              cases read
              obtain ⟨numbers, short⟩ := ih isRest
              constructor
              · intro pair among
                rcases List.mem_cons.mp among with rfl | among
                · exact Arguments.getF64_number isScore
                · exact numbers pair among
              · simp only [List.length_cons]
                omega
  | case2 arguments short =>
      unfold scoredMembers at read
      split at read
      · exact (short _ _ _ rfl).elim
      · cases read
        exact ⟨fun _ => nofun, Nat.zero_le _⟩

theorem zaddArguments_scores
    {argv : Arguments} {options : ZaddOptions} {pairs : List (F64 × Bytes)}
    (read : zaddArguments argv = .ok (options, pairs)) :
    Scores options pairs := by
  unfold zaddArguments validate at read
  split at read
  · cases flags : zaddOptions 4 (argv.drop 2) {} with
    | mk found rest =>
      rw [flags] at read
      change (if (found.xx && found.nx) = true then _ else _) = _ at read
      split at read
      · cases read
      · split at read
        · cases read
        · split at read
          · cases read
          · rename_i notSingle
            cases members : scoredMembers rest with
            | error error =>
                rw [members] at read
                cases read
            | ok found' =>
                rw [members] at read
                cases read
                obtain ⟨numbers, short⟩ := scoredMembers_numbers members
                refine ⟨numbers, ?_⟩
                intro incr
                rw [incr] at notSingle
                have two : rest.length = 2 := by simpa using notSingle
                omega
  · cases read

end Repeated

end Command

end

end RedVector
