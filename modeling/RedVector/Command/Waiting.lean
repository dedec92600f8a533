import RedVector.Command.Along
import RedVector.Command.Specs

/-!
# Commands that answer nothing

A subscription is answered by events and a blocking command waits for a key.
The conditions here tell from the state before such a command whether it has
an answer.
-/

namespace RedVector.Command

open Util Effect Database

variable [Platform]

/-! ## Blocking commands -/

/-- What a key holds has no element to pop. -/
def NothingToPop : Option Value → Prop
  | none => True
  | some value => value = .nil ∨ value = .list []

/-- BLPOP and BRPOP wait: none of the keys has an element. -/
def BpopWaits (env : Env) (db : Database) (dbindex : Nat)
    (argv : Arguments) : Prop :=
  3 ≤ argv.length ∧ (argv.getI64 (argv.length - 1)).isOk = true ∧
    ∀ key ∈ argv.tail.dropLast,
      NothingToPop (db.visible env (dbindex, key))

/-- BRPOPLPUSH waits: the source has no element and the destination is a list
if there is one. -/
def BrpoplpushWaits (env : Env) (db : Database) (dbindex : Nat)
    (argv : Arguments) : Prop :=
  argv.length = 4 ∧ (argv.getI64 3).isOk = true ∧
    (∀ value, db.visible env (dbindex, argv.getD 2 []) = some value →
      value.llen.isOk = true) ∧
    NothingToPop (db.visible env (dbindex, argv.getD 1 []))

omit [Platform] in
theorem pop_eq_none (list : ValueList) (right : Bool) :
    (list.pop right).1 = none ↔ list = [] := by
  cases right with
  | false => simp [ValueList.pop]
  | true => simp [ValueList.pop]

/-- Popping finds nothing exactly where there is nothing, and then leaves the
value as it is. -/
theorem pop_nothing {value after : Value} {right : Bool}
    {answer : Operation (Option Bytes)}
    (popped : value.pop right = (answer, after)) :
    (answer = .ok none ↔ NothingToPop (some value)) ∧
      (answer = .ok none → after = value) := by
  cases value with
  | nil =>
      cases popped
      simp [NothingToPop]
  | list list =>
      have split := pop_eq_none list right
      simp only [Value.pop] at popped
      cases popped
      simp only [NothingToPop, reduceCtorEq, Value.list.injEq, false_or,
        Except.ok.injEq]
      refine ⟨split, ?_⟩
      intro nothing
      rw [split.mp nothing]
      cases right with
      | false => rfl
      | true => rfl
  | _ =>
      cases popped
      simp [NothingToPop]

/-- Popping from the first of some keys finds nothing exactly where none of
them has an element. -/
theorem popFirst_nothing
    {env : Env} {dbindex : Nat} {right : Bool} {keys : List Bytes}
    {db : Database} :
    Ensures env (popFirst dbindex right keys)
      (fun result after => ∃ popped, result = .ok popped ∧
        (popped = none ↔ ∀ key ∈ keys,
          NothingToPop (db.visible env (dbindex, key))) ∧
        (popped = none → SameLive env db after)) db := by
  induction keys generalizing db with
  | nil =>
      exact Program.ensures_pure
        ⟨none, rfl, by simp, fun _ => .refl env db⟩
  | cons key rest ih =>
      -- the keys after one without an element see the same values
      have continued : ∀ {after : Database}, SameLive env db after →
          NothingToPop (db.visible env (dbindex, key)) →
          Ensures env (popFirst dbindex right rest)
            (fun result last => ∃ popped, result = .ok popped ∧
              (popped = none ↔ ∀ other ∈ key :: rest,
                NothingToPop (db.visible env (dbindex, other))) ∧
              (popped = none → SameLive env db last)) after := by
        intro after live nothing
        refine ih.mono ?_
        rintro result last ⟨popped, rfl, waits, same⟩
        rw [live.visible] at waits
        exact ⟨popped, rfl, by simp [waits, nothing],
          fun none => live.trans (same none)⟩
      unfold popFirst
      refine ensures_mutThen ?_ ?_
      · intro after absent _ _ live
        exact continued live (absent ▸ trivial)
      · intro value answer changed after alive stored called sets silent
        have visible : db.visible env (dbindex, key) = some value := by
          simp [Database.visible, alive, stored]
        obtain ⟨nothing, same⟩ := pop_nothing (Option.some.inj called)
        cases answer with
        | error error =>
            refine Program.ensures_pure ⟨_, rfl, ?_, by simp⟩
            have some : ¬NothingToPop (some value) := by
              simpa using nothing
            simp [visible, some]
        | ok popped =>
            cases popped with
            | some val =>
                refine ensures_keyUpdated ?_
                intro last _
                refine Program.ensures_pure ⟨_, rfl, ?_, by simp⟩
                have some : ¬NothingToPop (some value) := by
                  simpa using nothing
                simp [visible, some]
            | none =>
                refine continued ?_ (visible ▸ nothing.mp rfl)
                rw [same rfl, ← stored] at sets
                exact sets.same_live

/-- The result of a handler that has no answer for its client. -/
def NoAnswer (result : Except Response Answer) : Prop :=
  ∃ error, result = .ok (.error error)

theorem subscribe_ensures
    {env : Env} {dbindex mailbox : Nat} (keys : List Bytes) :
    ∀ db, Ensures env (keys.forM fun key => do
        let _ ← Db.keySubscribe dbindex key mailbox)
      (fun result _ => result = .ok ()) db := by
  induction keys with
  | nil => exact fun db => Program.ensures_pure rfl
  | cons key rest ih =>
      intro db
      rw [List.forM]
      refine Program.ensures_bind ?_
      refine ensures_op (.keySubscribe dbindex key mailbox) ?_
      intro answer after _
      exact Program.ensures_pure (ih after)

theorem waitFor_waits
    {env : Env} {dbindex : Nat} {keys arguments : List Bytes}
    {timeout : Int} {db : Database} :
    Ensures env (waitFor dbindex keys arguments timeout)
      (fun result _ => ∃ mailbox, result = .ok (.error (.wait
        ⟨arguments, timeout, env.now, mailbox⟩))) db := by
  unfold waitFor
  refine ensures_read .mstime ?_
  intro time read
  cases read
  refine ensures_op (.channel) ?_
  intro mailbox after _
  refine Program.ensures_bind ?_
  refine (subscribe_ensures keys after).mono ?_
  rintro result last rfl
  exact Program.ensures_pure ⟨mailbox, rfl⟩

theorem waitFor_noAnswer
    {env : Env} {dbindex : Nat} {keys arguments : List Bytes}
    {timeout : Int} {db : Database} :
    Ensures env (waitFor dbindex keys arguments timeout)
      (fun result _ => NoAnswer result) db := by
  refine waitFor_waits.mono ?_
  rintro result after ⟨mailbox, rfl⟩
  exact ⟨_, rfl⟩

/-- BLPOP and BRPOP have no answer exactly where they wait. -/
theorem genericBpop_noAnswer
    {env : Env} {dbindex : Nat} {argv : Arguments} {right : Bool}
    {db : Database} :
    Ensures env (genericBpop argv dbindex right)
      (fun result _ => NoAnswer result ↔ BpopWaits env db dbindex argv)
      db := by
  unfold genericBpop
  refine Program.ensures_ofExcept_bind ?_ ?_
  · intro reply refused
    have few : ¬3 ≤ argv.length := by
      intro enough
      simp [validate, enough] at refused
    simp [NoAnswer, BpopWaits, few]
  intro _ accepted
  have enough : 3 ≤ argv.length := by
    by_contra few
    simp [validate, few] at accepted
  refine Program.ensures_bind ?_
  refine popFirst_nothing.mono ?_
  rintro result after ⟨popped, rfl, nothing, -⟩
  cases popped with
  | some reply =>
      refine Program.ensures_pure ?_
      have found := mt nothing.mpr (Option.some_ne_none reply)
      simp [NoAnswer, BpopWaits, found]
  | none =>
      have empty := nothing.mp rfl
      refine Program.ensures_ofExcept_bind ?_ ?_
      · intro reply refused
        have invalid : (argv.getI64 (argv.length - 1)).isOk = false := by
          cases parsed : argv.getI64 (argv.length - 1) with
          | ok timeout => simp [tryValidate, parsed] at refused
          | error error => rfl
        simp [NoAnswer, BpopWaits, invalid]
      · intro timeout accepted
        have valid : (argv.getI64 (argv.length - 1)).isOk = true := by
          cases parsed : argv.getI64 (argv.length - 1) with
          | ok timeout => rfl
          | error error => simp [tryValidate, parsed] at accepted
        exact waitFor_noAnswer.mono fun result last silent =>
          iff_of_true silent ⟨enough, valid, empty⟩

/-- Moving an element answers Nil exactly where the source has none. -/
theorem moveElement_nil
    {env : Env} {dbindex : Nat} {source destination : Bytes}
    {db : Database} :
    Ensures env (moveElement dbindex source destination)
      (fun result _ => result = .ok .nil ↔
        NothingToPop (db.visible env (dbindex, source))) db := by
  unfold moveElement
  refine ensures_getMut ?_
  intro middle _ _
  cases visible : db.visible env (dbindex, source) with
  | none => exact Program.ensures_pure (by simp [NothingToPop])
  | some sourcelist =>
      dsimp only
      split
      · obtain ⟨answer, after, popped⟩ : ∃ answer after,
            sourcelist.pop true = (answer, after) := ⟨_, _, rfl⟩
        obtain ⟨nothing, -⟩ := pop_nothing popped
        rw [popped]
        refine ensures_put ?_
        intro _
        match answer with
        | .error error =>
            refine Program.ensures_pure ?_
            simpa using nothing
        | .ok none =>
            refine Program.ensures_pure ?_
            simpa using nothing
        | .ok (some el) =>
            have some : ¬NothingToPop (some sourcelist) := by
              simpa using nothing
            refine Program.ensures_bind ?_
            intro result between _
            match result with
            | .error reply => simp [some]
            | .ok (.error error) =>
                exact Program.ensures_pure (by simp [some])
            | .ok (.ok _) =>
                refine ensures_keyUpdated ?_
                intro _ _
                refine ensures_keyUpdated ?_
                intro _ _
                exact Program.ensures_pure (by simp [some])
      · rename_i wrong
        refine Program.ensures_pure ?_
        have some : ¬NothingToPop (some sourcelist) := by
          rintro (rfl | rfl)
          · exact wrong rfl
          · exact wrong rfl
        simpa [Response.fail] using some

/-- RPOPLPUSH answers Nil exactly where BRPOPLPUSH waits for its source. -/
theorem genericRpoplpush_nil
    {env : Env} {dbindex : Nat} {source destination : Bytes}
    {db : Database} :
    Ensures env (genericRpoplpush dbindex source destination)
      (fun result _ => result = .ok .nil ↔
        (∀ value, db.visible env (dbindex, destination) = some value →
          value.llen.isOk = true) ∧
        NothingToPop (db.visible env (dbindex, source))) db := by
  unfold genericRpoplpush
  refine ensures_get ?_
  intro _
  split
  · rename_i value visible
    split
    · rename_i isList
      refine moveElement_nil.mono ?_
      intro result after waits
      simp [waits, visible, isList]
    · rename_i notList
      exact Program.ensures_throw (by simp [visible, notList])
  · rename_i absent
    refine moveElement_nil.mono ?_
    intro result after waits
    simp [waits, absent]

/-- BRPOPLPUSH has no answer exactly where it waits. -/
theorem brpoplpush_noAnswer
    {env : Env} {dbindex : Nat} {argv : Arguments} {db : Database} :
    Ensures env (brpoplpush argv dbindex)
      (fun result _ =>
        NoAnswer result ↔ BrpoplpushWaits env db dbindex argv) db := by
  unfold brpoplpush
  refine Program.ensures_ofExcept_bind ?_ ?_
  · intro reply refused
    have wrong : argv.length ≠ 4 := by
      intro four
      simp [validate, four] at refused
    simp [NoAnswer, BrpoplpushWaits, wrong]
  intro _ accepted
  have four : argv.length = 4 := by
    by_contra wrong
    simp [validate, wrong] at accepted
  obtain ⟨name, source, destination, last, rfl⟩ :
      ∃ name source destination last,
        argv = [name, source, destination, last] := by
    match argv, four with
    | [name, source, destination, last], _ => exact ⟨_, _, _, _, rfl⟩
  refine Program.ensures_ofExcept_bind (fun reply refused => ?_) ?_
  · cases refused
  rintro _ ⟨⟩
  refine Program.ensures_ofExcept_bind (fun reply refused => ?_) ?_
  · cases refused
  rintro _ ⟨⟩
  refine Program.ensures_ofExcept_bind ?_ ?_
  · intro reply refused
    have invalid : (Arguments.getI64 [name, source, destination, last]
        3).isOk = false := by
      cases parsed : Arguments.getI64
          [name, source, destination, last] 3 with
      | ok timeout => simp [tryValidate, parsed] at refused
      | error error => rfl
    simp [NoAnswer, BrpoplpushWaits, invalid]
  intro timeout accepted
  have valid : (Arguments.getI64 [name, source, destination, last]
      3).isOk = true := by
    cases parsed : Arguments.getI64 [name, source, destination, last] 3 with
    | ok timeout => rfl
    | error error => simp [tryValidate, parsed] at accepted
  refine Program.ensures_bind ?_
  refine genericRpoplpush_nil.mono ?_
  intro result after waits
  match result, waits with
  | .error reply, waits =>
      have moves := mt waits.mpr (by simp)
      simpa [NoAnswer, BrpoplpushWaits, valid] using moves
  | .ok .nil, waits =>
      exact waitFor_noAnswer.mono fun result last silent =>
        iff_of_true silent ⟨rfl, valid, waits.mp rfl⟩
  | .ok (.integer _), waits | .ok (.data _), waits | .ok (.error _), waits
  | .ok (.status _), waits | .ok (.array _), waits =>
      refine Program.ensures_pure ?_
      have moves := mt waits.mpr (by simp)
      simpa [NoAnswer, BrpoplpushWaits, valid] using moves

/-! ## Every handler -/

/-- A command that reaches its handler in this state and has no answer. -/
def Unanswered (env : Env) (name : Bytes) (argv : Arguments)
    (db : Database) (client : Client) : Prop :=
  match CommandName.ofBytes name with
  | some .subscribe => 2 ≤ argv.length
  | some .psubscribe => 2 ≤ argv.length
  | some .unsubscribe => True
  | some .punsubscribe => True
  | some .blpop => BpopWaits env db client.dbindex argv
  | some .brpop => BpopWaits env db client.dbindex argv
  | some .brpoplpush => BrpoplpushWaits env db client.dbindex argv
  | _ => False

theorem finished_noAnswer
    {client : Client} {result : Except Response Answer} {db : Database} :
    (∃ error, (Handler.finished client (result, db)).answer =
      .error error) ↔ NoAnswer result := by
  cases result with
  | ok answer => simp [Handler.finished, NoAnswer]
  | error reply => simp [Handler.finished, NoAnswer]

/-- A handler that is a program of replies has an answer. -/
theorem replies_answer
    {env : Env} {program : Writer Response} {db after : Database}
    {result : Except Response Answer}
    (ran : ((Except.ok <$> program : Writer Answer)).run (machine env) db =
      some (result, after)) : ¬NoAnswer result := by
  rw [← bind_pure_comp, Program.run_bind] at ran
  obtain ⟨⟨first, between⟩, -, ran⟩ := Option.bind_eq_some_iff.mp ran
  cases first with
  | ok reply =>
      cases ran
      simp [NoAnswer]
  | error reply =>
      cases ran
      simp [NoAnswer]

/-- A blocking handler has an answer exactly where it does not wait. -/
private theorem blocking_noAnswer
    {env : Env} {handle : Arguments → Nat → Writer Answer}
    {argv : Arguments} {db : Database} {client : Client}
    {outcome : Outcome} {waits : Prop}
    (noAnswer : Ensures env (handle argv client.dbindex)
      (fun result _ => NoAnswer result ↔ waits) db)
    (ran : (Handler.blocking handle).run env argv db client =
      some outcome) :
    (∃ error, outcome.answer = .error error) ↔ waits := by
  obtain ⟨⟨result, after⟩, programRun, rfl⟩ :=
    Option.map_eq_some_iff.mp ran
  exact finished_noAnswer.trans (noAnswer result after programRun)

/-- A command that is dispatched has an answer exactly if it is not one of
those that go without. -/
theorem handler_noAnswer
    {env : Env} {name : Bytes} {known : CommandName} {handler : Handler}
    {argv : Arguments} {db : Database} {client : Client}
    {outcome : Outcome} (named : CommandName.ofBytes name = some known)
    (found : Handler.ofName known = some handler)
    (ran : handler.run env argv db client = some outcome) :
    (∃ error, outcome.answer = .error error) ↔
      Unanswered env name argv db client := by
  unfold Unanswered
  rw [named]
  cases handler with
  | reader handle =>
      obtain ⟨⟨result, after⟩, programRun, rfl⟩ :=
        Option.map_eq_some_iff.mp ran
      rw [finished_noAnswer]
      refine iff_of_false (replies_answer programRun) ?_
      cases known
      all_goals first | exact id | cases found
  | writer handle =>
      obtain ⟨⟨result, after⟩, programRun, rfl⟩ :=
        Option.map_eq_some_iff.mp ran
      rw [finished_noAnswer]
      refine iff_of_false (replies_answer programRun) ?_
      cases known
      all_goals first | exact id | cases found
  | blocking handle =>
      cases known
      case brpoplpush =>
        cases found
        exact blocking_noAnswer brpoplpush_noAnswer ran
      case brpop =>
        cases found
        exact blocking_noAnswer genericBpop_noAnswer ran
      case blpop =>
        cases found
        exact blocking_noAnswer genericBpop_noAnswer ran
      all_goals cases found
  | server handle =>
      simp only [Handler.run, Option.bind_eq_bind,
        Option.bind_eq_some_iff] at ran
      obtain ⟨⟨reply, after⟩, -, finished⟩ := ran
      cases finished
      refine iff_of_false (by simp) ?_
      cases known
      all_goals first | exact id | cases found
  | session handle =>
      simp only [Handler.run, Option.bind_eq_bind,
        Option.bind_eq_some_iff] at ran
      obtain ⟨⟨answer, after, afterClient⟩, handled, finished⟩ := ran
      cases finished
      cases known
      case subscribe =>
        cases found
        have same := congrArg Prod.fst (Option.some.inj handled)
        simp only [subscribe] at same
        split at same
        · rename_i enough
          simp [← same, noReply, enough]
        · rename_i few
          simp [← same, few]
      case psubscribe =>
        cases found
        have same := congrArg Prod.fst (Option.some.inj handled)
        simp only [psubscribe] at same
        split at same
        · rename_i enough
          simp [← same, noReply, enough]
        · rename_i few
          simp [← same, few]
      case unsubscribe =>
        cases found
        have same := congrArg Prod.fst (Option.some.inj handled)
        simp only [unsubscribe] at same
        refine iff_of_true ?_ trivial
        split at same
        · split at same
          · exact ⟨_, same.symm⟩
          · exact ⟨_, same.symm⟩
        · exact ⟨_, same.symm⟩
      case punsubscribe =>
        cases found
        have same := congrArg Prod.fst (Option.some.inj handled)
        simp only [punsubscribe] at same
        refine iff_of_true ?_ trivial
        split at same
        · split at same
          · exact ⟨_, same.symm⟩
          · exact ⟨_, same.symm⟩
        · exact ⟨_, same.symm⟩
      case watch =>
        cases found
        refine iff_of_false ?_ id
        dsimp only [watch] at handled
        split at handled
        · obtain ⟨-, watched⟩ := checked_eq_some.mp handled
          have same : Except.ok Response.ok = answer :=
            congrArg Prod.fst (Option.some.inj watched)
          simp [← same]
        · cases handled
          simp
      case unwatch =>
        cases found
        have same := congrArg Prod.fst (Option.some.inj handled)
        refine iff_of_false ?_ id
        simp only [unwatch] at same
        split at same
        · simp [← same]
        · simp [← same]
      all_goals
        cases found
        try
          cases handled
          exact iff_of_false (by simp) id

theorem dispatch_noAnswer
    {env : Env} {name : Bytes} {write : Bool} {command : ParsedCommand}
    {db : Database} {client : Client} {outcome : Outcome}
    (ran : dispatch env name write command db client = some outcome) :
    (∃ error, outcome.answer = .error error) ↔
      Unanswered env name command.arguments db client := by
  unfold dispatch at ran
  dsimp only at ran
  split at ran
  · rename_i handler found
    obtain ⟨known, named, found⟩ := Option.bind_eq_some_iff.mp found
    have answers := handler_noAnswer named found ran
    exact answers
  · rename_i missing
    cases ran
    refine iff_of_false (by simp) ?_
    unfold Unanswered
    cases named : CommandName.ofBytes name with
    | none => exact id
    | some known =>
        rw [named] at missing
        have missing : Handler.ofName known = none := missing
        cases known
        all_goals first | exact id | cases missing

end RedVector.Command
