import RedVector.Command.Waiting
import RedVector.Effect.Runs
import RedVector.Parser.Encode

/-!
# Commands that are run again

A blocking command waits with what it was run with.  When one of its keys is
updated it is run again, with a timeout that is computed from what is left.
-/

namespace RedVector

open Util Effect

/-! ## Numbers as arguments -/

namespace Util

theorem intToString_utf8 (number : Int) :
    isUtf8 (intToString number) = true := by
  apply isUtf8_of_ascii
  cases number with
  | ofNat count =>
      intro byte member
      have digits := List.all_eq_true.mp (natToString_isDigit count)
      exact (isDigit_ascii (digits byte member)).1
  | negSucc count =>
      intro byte member
      have digits := List.all_eq_true.mp (natToString_isDigit (count + 1))
      rcases List.mem_cons.mp member with rfl | member
      · decide
      · exact (isDigit_ascii (digits byte member)).1

end Util

/-- The last argument of a command, when it is a number. -/
theorem Arguments.getI64_last
    (arguments : List Bytes) {number : Int} (fits : inI64 number = true) :
    Arguments.getI64 (arguments ++ [intToString number])
      ((arguments ++ [intToString number]).length - 1) = .ok number := by
  unfold getI64 getStr getVec
  simp only [List.length_append, List.length_cons, List.length_nil,
    Nat.zero_add, Nat.add_sub_cancel, List.getElem?_append_right,
    Nat.le_refl, Nat.sub_self, List.getElem?_cons_zero]
  simp [bind, Except.bind, intToString_utf8, parseI64_intToString fits,
    pure, Except.pure]

namespace Wait

theorem slice_positions (arguments : List Bytes) (before : Bytes) :
    (positions before.length arguments).map
      (ParsedCommand.slice (before ++ arguments.flatten)) = arguments := by
  induction arguments generalizing before with
  | nil => rfl
  | cons argument rest ih =>
      have others := ih (before ++ argument)
      rw [List.length_append, List.append_assoc] at others
      rw [positions, List.map_cons, List.flatten_cons, others]
      simp [ParsedCommand.slice]

theorem ownedCommand_arguments (arguments : List Bytes) :
    (ownedCommand arguments).arguments = arguments := by
  simpa [ParsedCommand.arguments, ownedCommand] using
    slice_positions arguments []

end Wait

namespace Command

open Database

variable [Platform]

/-! ## What a command waits with -/

/-- The arguments and the time that a command was run with. -/
structure WaitsWith (argv : Arguments) (now : Int) (wait : Wait) : Prop where
  several : 2 ≤ argv.length
  arguments : wait.arguments = argv.dropLast
  timeout : argv.getI64 (argv.length - 1) = .ok wait.timeout
  time : wait.time = now

/-- Where a handler waits, it waits with what it was run with. -/
def WaitsAsRun (argv : Arguments) (now : Int) (result : Except Response Answer) :
    Prop :=
  ∀ wait, result = .ok (.error (.wait wait)) → WaitsWith argv now wait

theorem genericBpop_waits
    {env : Env} {dbindex : Nat} {argv : Arguments} {right : Bool}
    {db : Database} :
    Ensures env (genericBpop argv dbindex right)
      (fun result _ => WaitsAsRun argv env.now result) db := by
  unfold genericBpop
  refine Program.ensures_ofExcept_bind ?_ ?_
  · intro reply _ wait waits
    cases waits
  intro _ accepted
  have several : 2 ≤ argv.length := by
    by_contra few
    simp [validate, show ¬3 ≤ argv.length by omega] at accepted
  refine Program.ensures_bind ?_
  intro result between _
  cases result with
  | error reply =>
      intro wait waits
      cases waits
  | ok popped =>
      cases popped with
      | some reply =>
          refine Program.ensures_pure ?_
          intro wait waits
          cases waits
      | none =>
          refine ensures_valid ?_ ?_
          · intro reply error _ wait waits
            cases waits
          intro timeout read
          refine Program.Ensures.mono waitFor_waits ?_
          rintro result after ⟨mailbox, rfl⟩ wait waits
          cases waits
          exact ⟨several, rfl, read, rfl⟩

theorem brpoplpush_waits
    {env : Env} {dbindex : Nat} {argv : Arguments} {db : Database} :
    Ensures env (brpoplpush argv dbindex)
      (fun result _ => WaitsAsRun argv env.now result) db := by
  unfold brpoplpush
  refine Program.ensures_ofExcept_bind ?_ ?_
  · intro reply _ wait waits
    cases waits
  intro _ accepted
  have four : argv.length = 4 := by
    by_contra wrong
    simp [validate, wrong] at accepted
  refine ensures_valid ?_ ?_
  · intro reply error _ wait waits
    cases waits
  intro source _
  refine ensures_valid ?_ ?_
  · intro reply error _ wait waits
    cases waits
  intro destination _
  refine ensures_valid ?_ ?_
  · intro reply error _ wait waits
    cases waits
  intro timeout read
  refine Program.ensures_bind ?_
  intro result between _
  cases result with
  | error reply =>
      intro wait waits
      cases waits
  | ok reply =>
      cases reply with
      | nil =>
          refine Program.Ensures.mono waitFor_waits ?_
          rintro result after ⟨mailbox, rfl⟩ wait waits
          cases waits
          refine ⟨by omega, rfl, ?_, rfl⟩
          rw [four]
          exact read
      | _ =>
          refine Program.ensures_pure ?_
          intro wait waits
          cases waits

/-- A session command that has no answer does not wait. -/
theorem session_never_waits
    {known : CommandName}
    {handle : Env → Arguments → Database → Client → Option Command.Session}
    (found : Handler.ofName known = some (.session handle))
    {env : Env} {argv : Arguments} {db : Database} {client : Client}
    {answer : Answer} {place : Place}
    (handled : handle env argv db client = some (answer, place))
    (wait : Wait) : answer ≠ .error (.wait wait) := by
  rintro rfl
  cases known
  case subscribe =>
    cases found
    simp only [subscribe, noReply] at handled
    split at handled
    · cases handled
    · cases handled
  case psubscribe =>
    cases found
    simp only [psubscribe, noReply] at handled
    split at handled
    · cases handled
    · cases handled
  case unsubscribe =>
    cases found
    simp only [unsubscribe, noReply] at handled
    split at handled
    · split at handled
      · cases handled
      · cases handled
    · cases handled
  case punsubscribe =>
    cases found
    simp only [punsubscribe, noReply] at handled
    split at handled
    · split at handled
      · cases handled
      · cases handled
    · cases handled
  case watch =>
    cases found
    dsimp only [watch] at handled
    split at handled
    · obtain ⟨-, watched⟩ := checked_eq_some.mp handled
      cases watched
    · cases handled
  case unwatch =>
    cases found
    simp only [unwatch] at handled
    split at handled
    · cases handled
    · cases handled
  all_goals
    cases found
    try cases handled

theorem handler_waits
    {known : CommandName} {handler : Handler}
    (found : Handler.ofName known = some handler)
    {env : Env} {argv : Arguments} {db : Database} {client : Client}
    {outcome : Outcome} {wait : Wait}
    (ran : handler.run env argv db client = some outcome)
    (waits : outcome.answer = .error (.wait wait)) :
    WaitsWith argv env.now wait := by
  cases handler with
  | reader handle =>
      obtain ⟨⟨result, after⟩, programRun, rfl⟩ :=
        Option.map_eq_some_iff.mp ran
      exact absurd (finished_noAnswer.mp ⟨_, waits⟩)
        (replies_answer programRun)
  | writer handle =>
      obtain ⟨⟨result, after⟩, programRun, rfl⟩ :=
        Option.map_eq_some_iff.mp ran
      exact absurd (finished_noAnswer.mp ⟨_, waits⟩)
        (replies_answer programRun)
  | blocking handle =>
      obtain ⟨⟨result, after⟩, programRun, rfl⟩ :=
        Option.map_eq_some_iff.mp ran
      have keeps : WaitsAsRun argv env.now result := by
        cases known
        case brpoplpush =>
          cases found
          exact brpoplpush_waits result after programRun
        case brpop =>
          cases found
          exact genericBpop_waits result after programRun
        case blpop =>
          cases found
          exact genericBpop_waits result after programRun
        all_goals cases found
      cases result with
      | ok answer =>
          have waits : answer = .error (.wait wait) := waits
          exact keeps wait (congrArg Except.ok waits)
      | error reply => cases waits
  | server handle =>
      simp only [Handler.run, Option.bind_eq_bind,
        Option.bind_eq_some_iff] at ran
      obtain ⟨⟨reply, after⟩, -, finished⟩ := ran
      cases finished
      cases waits
  | session handle =>
      simp only [Handler.run, Option.bind_eq_bind,
        Option.bind_eq_some_iff] at ran
      obtain ⟨⟨answer, after, afterClient⟩, handled, finished⟩ := ran
      cases finished
      exact absurd waits (session_never_waits found handled wait)

theorem command_waits
    {depth : Nat} {world : World} {command : ParsedCommand} {db : Database}
    {client : Client} {outcome : Outcome} {wait : Wait}
    (ran : commandAt depth world command db client = some outcome)
    (waits : outcome.answer = .error (.wait wait)) :
    WaitsWith command.arguments world.here.now wait := by
  cases depth with
  | zero => cases ran
  | succ depth =>
      obtain ⟨executed, executes, rfl⟩ := Option.map_eq_some_iff.mp ran
      rw [(logged_noted world.here command executed).2.2.1] at waits
      cases executeCommand_executes executes with
      | empty nothing => cases waits
      | unnamed something refused => cases waits
      | answered something named routed => cases waits
      | exec something named routed execRan => cases waits
      | dispatched something named routed dispatchRan =>
          unfold dispatch at dispatchRan
          dsimp only at dispatchRan
          split at dispatchRan
          · rename_i handler found
            obtain ⟨known, -, found⟩ := Option.bind_eq_some_iff.mp found
            exact handler_waits found dispatchRan waits
          · cases dispatchRan
            cases waits

/-! ## Timers -/

/-- When the timer that is armed for a waiting command fires. -/
def deadline (wait : Wait) : Int :=
  wait.time + 1000 * wait.timeout

/-- A wake-up and the state in which the command is run again. -/
structure Retry where
  woken : Int
  world : World
  db : Database
  client : Client

/-- The clock of a wake-up does not run backwards. -/
structure Retry.Timely (wait : Wait) (retry : Retry) : Prop where
  waited : wait.time ≤ retry.woken
  again : retry.woken ≤ retry.world.here.now
  clock : inI64 retry.world.here.now = true

/-- A waiting command is woken, is run again and waits again. -/
def Retries (before : Wait) (retry : Retry) (after : Wait) : Prop :=
  retry.Timely before ∧ ∃ command outcome,
    before.reissued retry.woken = some command ∧
    RedVector.command retry.world command retry.db retry.client =
      some outcome ∧
    outcome.answer = .error (.wait after)

/-- Woken no earlier than in the last millisecond and run again before it is
over. -/
def InLastMillisecond (wait : Wait) (retry : Retry) : Prop :=
  deadline wait - 1 ≤ retry.woken ∧ retry.world.here.now ≤ deadline wait

/-- The command is never woken in vain, or once in the last millisecond. -/
def OnTime (wait : Wait) (retries : List Retry) : Prop :=
  retries = [] ∨ ∃ retry, retries = [retry] ∧ InLastMillisecond wait retry

/-- The multiplication of the timeout in seconds does not wrap. -/
def Exact (wait : Wait) : Prop :=
  Platform.overflowChecks = true ∨ inI64 (wait.timeout * 1000) = true

/-- What a build computes for an `i64` fits one. -/
theorem i64_fits {number result : Int} (computed : i64 number = some result) :
    inI64 result = true := by
  unfold i64 at computed
  split at computed
  · rename_i fits
    cases computed
    exact fits
  · split at computed
    · cases computed
    · cases computed
      have low := Int.le_bmod (x := number) (m := 18446744073709551616)
        (by decide)
      have high := Int.bmod_lt (x := number) (m := 18446744073709551616)
        (by decide)
      rw [inI64_iff]
      omega

/-- A result that fits, or any result of a build that checks, is exact. -/
theorem i64_exact {number result : Int} (computed : i64 number = some result)
    (exact : Platform.overflowChecks = true ∨ inI64 number = true) :
    result = number := by
  unfold i64 at computed
  split at computed
  · cases computed
    rfl
  · rename_i outside
    rcases exact with checks | fits
    · rw [if_pos checks] at computed
      cases computed
    · exact absurd fits outside

theorem newTimeout_fits
    {wait : Wait} {now timeout : Int}
    (computed : wait.newTimeout now = some timeout) :
    inI64 timeout = true := by
  unfold Wait.newTimeout at computed
  split at computed
  · cases computed
    decide
  · obtain ⟨scaled, -, computed⟩ := Option.bind_eq_some_iff.mp computed
    obtain ⟨remaining, -, computed⟩ := Option.bind_eq_some_iff.mp computed
    obtain ⟨left, added, computed⟩ := Option.bind_eq_some_iff.mp computed
    cases computed
    split
    · decide
    · exact i64_fits added

/-- A timeout of zero stays zero. -/
theorem newTimeout_forever
    {wait : Wait} {now timeout : Int}
    (computed : wait.newTimeout now = some timeout)
    (forever : wait.timeout = 0) : timeout = 0 := by
  unfold Wait.newTimeout at computed
  rw [if_pos forever] at computed
  cases computed
  rfl

/-- The milliseconds that are left become the seconds of the next timeout. -/
theorem newTimeout_left
    {wait : Wait} {now timeout : Int}
    (computed : wait.newTimeout now = some timeout)
    (positive : 0 < wait.timeout) (exact : Exact wait)
    (epoch : 0 ≤ wait.time) (later : wait.time ≤ now)
    (clock : inI64 now = true) :
    timeout = max 1 (deadline wait - now) := by
  unfold Wait.newTimeout at computed
  rw [if_neg (by omega)] at computed
  obtain ⟨scaled, multiplied, computed⟩ :=
    Option.bind_eq_some_iff.mp computed
  obtain ⟨remaining, subtracted, computed⟩ :=
    Option.bind_eq_some_iff.mp computed
  obtain ⟨left, added, computed⟩ := Option.bind_eq_some_iff.mp computed
  have isScaled := i64_exact multiplied exact
  have scaledFits := i64_fits multiplied
  rw [inI64_iff] at scaledFits clock
  have isRemaining := i64_exact subtracted (by
    right
    rw [inI64_iff]
    omega)
  have isLeft := i64_exact added (by
    right
    rw [inI64_iff]
    omega)
  cases computed
  unfold deadline
  split
  · omega
  · omega

theorem retries_wait
    {before after : Wait} {retry : Retry}
    (retries : Retries before retry after) :
    before.newTimeout retry.woken = some after.timeout ∧
      after.time = retry.world.here.now := by
  obtain ⟨timely, command, outcome, reissued, ran, waits⟩ := retries
  unfold Wait.reissued at reissued
  obtain ⟨timeout, computed, owned⟩ := Option.bind_eq_some_iff.mp reissued
  cases owned
  have waitsWith := command_waits ran waits
  rw [Wait.ownedCommand_arguments] at waitsWith
  have read := waitsWith.timeout
  rw [Arguments.getI64_last _ (newTimeout_fits computed)] at read
  cases read
  exact ⟨computed, waitsWith.time⟩

/-- A run of retries, with the timer that is armed after it. -/
theorem retries_forever
    {first last : Wait} {retries : List Retry}
    (run : Runs Retries first retries last)
    (forever : first.timeout = 0) : last.timeout = 0 := by
  refine run.invariant (fun wait => wait.timeout = 0) ?_ forever
  intro before retry after zero step
  exact newTimeout_forever (retries_wait step).1 zero

/-- The timer of a command that was run again once. -/
theorem retry_deadline
    {first last : Wait} {retry : Retry} (step : Retries first retry last)
    (positive : 0 < first.timeout) (exact : Exact first)
    (epoch : 0 ≤ first.time) :
    last.timeout = max 1 (deadline first - retry.woken) ∧
      deadline last = retry.world.here.now +
        1000 * max 1 (deadline first - retry.woken) := by
  obtain ⟨computed, time⟩ := retries_wait step
  have timely := step.1
  have clock := timely.clock
  rw [inI64_iff] at clock
  have waited := timely.waited
  have again := timely.again
  have timeout := newTimeout_left computed positive exact epoch waited (by
    rw [inI64_iff]
    omega)
  refine ⟨timeout, ?_⟩
  rw [deadline, timeout, time]

/-- No timer of the run is armed for later than a second after the first
one. -/
def Honoured (first : Wait) (retries : List Retry) : Prop :=
  ∀ done wait, done <+: retries → Runs Retries first done wait →
    deadline wait ≤ deadline first + 1000

theorem inLastMillisecond_exact
    {wait : Wait} {retry : Retry} (last : InLastMillisecond wait retry)
    (timely : retry.Timely wait) (positive : 0 < wait.timeout)
    (epoch : 0 ≤ wait.time) : Exact wait := by
  right
  have clock := timely.clock
  have again := timely.again
  obtain ⟨late, early⟩ := last
  unfold deadline at late early
  rw [inI64_iff] at clock ⊢
  omega

/-- One retry postpones the timer by less than a second exactly where it
happens in the last millisecond. -/
theorem retry_honoured_iff
    {first last : Wait} {retry : Retry} (step : Retries first retry last)
    (positive : 0 < first.timeout) (exact : Exact first)
    (epoch : 0 ≤ first.time) :
    deadline last ≤ deadline first + 1000 ↔
      InLastMillisecond first retry := by
  obtain ⟨-, postponed⟩ := retry_deadline step positive exact epoch
  have again := step.1.again
  unfold InLastMillisecond
  rw [postponed]
  omega

/-- Every retry postpones the timer by almost a second. -/
theorem retry_postpones
    {first last : Wait} {retry : Retry} (step : Retries first retry last)
    (positive : 0 < first.timeout) (exact : Exact first)
    (epoch : 0 ≤ first.time) :
    deadline first + 999 ≤ deadline last := by
  obtain ⟨-, postponed⟩ := retry_deadline step positive exact epoch
  have again := step.1.again
  rw [postponed]
  omega

theorem onTime_honoured
    {first : Wait} {retries : List Retry} (positive : 0 < first.timeout)
    (epoch : 0 ≤ first.time) (onTime : OnTime first retries) :
    Honoured first retries := by
  intro done wait before run
  cases run with
  | done => omega
  | next step others =>
      rcases onTime with rfl | ⟨retry, rfl, last⟩
      · cases List.prefix_nil.mp before
      · obtain ⟨same, nothing⟩ := List.cons_prefix_cons.mp before
        subst same
        cases List.prefix_nil.mp nothing
        cases others
        have exact := inLastMillisecond_exact last step.1 positive epoch
        exact (retry_honoured_iff step positive exact epoch).mpr last

theorem honoured_onTime
    {first last : Wait} {retries : List Retry}
    (run : Runs Retries first retries last)
    (positive : 0 < first.timeout) (exact : Exact first)
    (epoch : 0 ≤ first.time) (honoured : Honoured first retries) :
    OnTime first retries := by
  cases run with
  | done => exact .inl rfl
  | @next _ between _ retry rest step others =>
      have once := honoured [retry] between ⟨rest, rfl⟩ (.next step (.done _))
      have last := (retry_honoured_iff step positive exact epoch).mp once
      refine .inr ⟨retry, ?_, last⟩
      cases others with
      | done => rfl
      | @next _ third _ again others second following =>
          -- the second retry postpones the timer by a second in all
          obtain ⟨timeout, -⟩ := retry_deadline step positive exact epoch
          have isOne : between.timeout = 1 := by
            rw [timeout]
            have late := last.1
            omega
          have started := (retries_wait step).2
          have after : 0 ≤ between.time := by
            rw [started]
            exact epoch.trans (step.1.waited.trans step.1.again)
          have exactAgain : Exact between := by
            right
            rw [isOne]
            decide
          have twice := honoured [retry, again] third ⟨others, rfl⟩
            (.next step (.next second (.done _)))
          have firstDelay := retry_postpones step positive exact epoch
          have secondDelay := retry_postpones second (by omega) exactAgain
            after
          omega

/-- The first timeout of a waiting command is honoured exactly where the
command is not run again before its last millisecond. -/
theorem timeout_honoured_iff
    {depth : Nat} {world : World} {command : ParsedCommand} {db : Database}
    {client : Client} {outcome : Outcome} {first last : Wait}
    {retries : List Retry}
    (ran : commandAt depth world command db client = some outcome)
    (waits : outcome.answer = .error (.wait first))
    (epoch : 0 ≤ world.here.now)
    (run : Runs Retries first retries last) :
    (0 < first.timeout →
      (OnTime first retries → Honoured first retries) ∧
      (Exact first → Honoured first retries → OnTime first retries)) ∧
    (first.timeout = 0 → last.timeout = 0) := by
  have epoch : 0 ≤ first.time := by
    rw [(command_waits ran waits).time]
    exact epoch
  refine ⟨fun positive => ⟨onTime_honoured positive epoch, ?_⟩,
    retries_forever run⟩
  intro exact honoured
  exact honoured_onTime run positive exact epoch honoured

end Command

section

attribute [local instance] Platform.integral

namespace Command

/-- A client that waits five seconds for a key. -/
noncomputable def blpopCommand : ParsedCommand :=
  .encoded [text "BLPOP", text "k", text "5"] [] ⟨by decide, by decide⟩

/-- It is woken at a time and finds nothing. -/
noncomputable def wokenAt (now : Int) : Retry :=
  { woken := now
    world := fun _ => .still now
    db := .new {} none
    client := .new 0 }

/-- What a command waits with, if it waits. -/
def waitOf (outcome : Outcome) : Option Wait :=
  match outcome.answer with
  | .error (.wait wait) => some wait
  | _ => none

theorem waitOf_eq_some {outcome : Outcome} {wait : Wait}
    (same : waitOf outcome = some wait) :
    outcome.answer = .error (.wait wait) := by
  unfold waitOf at same
  split at same
  · rename_i found waits
    cases same
    exact waits
  · cases same

/-- The wait after a retry, if the command waits again. -/
def retried (wait : Wait) (retry : Retry) : Option Wait := do
  let command ← wait.reissued retry.woken
  let outcome ← RedVector.command retry.world command retry.db retry.client
  waitOf outcome

theorem retries_of_retried
    {before after : Wait} {retry : Retry} (timely : retry.Timely before)
    (again : retried before retry = some after) :
    Retries before retry after := by
  obtain ⟨command, reissued, again⟩ := Option.bind_eq_some_iff.mp again
  obtain ⟨outcome, ran, again⟩ := Option.bind_eq_some_iff.mp again
  exact ⟨timely, command, outcome, reissued, ran, waitOf_eq_some again⟩

/-- The wait of a command and the one after a retry. -/
def blockedAndRetried (world : World) (command : ParsedCommand)
    (db : Database) (client : Client) (retry : Retry) :
    Option (Wait × Wait) := do
  let outcome ← RedVector.command world command db client
  let first ← waitOf outcome
  let second ← retried first retry
  pure (first, second)

theorem retries_of_blocked
    {world : World} {command : ParsedCommand} {db : Database}
    {client : Client} {retry : Retry} {first second : Wait}
    (later : world.here.now ≤ retry.woken)
    (again : retry.woken ≤ retry.world.here.now)
    (clock : inI64 retry.world.here.now = true)
    (blocked : blockedAndRetried world command db client retry =
      some (first, second)) :
    ∃ outcome, RedVector.command world command db client = some outcome ∧
      outcome.answer = .error (.wait first) ∧
      Retries first retry second := by
  simp only [blockedAndRetried, Option.bind_eq_bind,
    Option.bind_eq_some_iff, Option.pure_def, Option.some.injEq,
    Prod.mk.injEq] at blocked
  obtain ⟨outcome, ran, wait, waits, after, retriedAgain, rfl, rfl⟩ := blocked
  have waits := waitOf_eq_some waits
  refine ⟨outcome, ran, waits, retries_of_retried ⟨?_, again, clock⟩
    retriedAgain⟩
  rw [(command_waits ran waits).time]
  exact later

/-- Woken after one of its five seconds, a client waits for 4000 more. -/
theorem timeout_not_honoured :
    ¬∀ (world : World) (command : ParsedCommand) (db : Database)
      (client : Client) (outcome : Outcome) (first last : Wait)
      (retries : List Retry),
      RedVector.command world command db client = some outcome →
      outcome.answer = .error (.wait first) → 0 < first.timeout →
      Runs Retries first retries last →
      deadline last ≤ deadline first + 1000 := by
  intro honoured
  have times : (blockedAndRetried (fun _ => .still 0) blpopCommand
      (.new {} none) (.new 0) (wokenAt 1000)).map (fun waits =>
      (waits.1.timeout, deadline waits.1, deadline waits.2)) =
        some (5, 5000, 4001000) := by
    decide +kernel
  obtain ⟨⟨first, second⟩, blocked, facts⟩ :=
    Option.map_eq_some_iff.mp times
  obtain ⟨timeout, deadlines⟩ := Prod.mk.inj facts
  obtain ⟨firstDeadline, secondDeadline⟩ := Prod.mk.inj deadlines
  dsimp only at timeout firstDeadline secondDeadline
  obtain ⟨outcome, ran, waits, retries⟩ :=
    retries_of_blocked (by decide) (by decide) (by decide) blocked
  have early := honoured _ _ _ _ outcome first second _ ran waits
    (by omega) (.next retries (.done second))
  omega

/-- Woken in the last millisecond, it waits for a second at most. -/
theorem timeout_honoured_once :
    ∃ first second, Runs Retries first [wokenAt 4999] second ∧
      Honoured first [wokenAt 4999] := by
  have times : (blockedAndRetried (fun _ => .still 0) blpopCommand
      (.new {} none) (.new 0) (wokenAt 4999)).map (fun waits =>
      (waits.1.timeout, deadline waits.1)) = some (5, 5000) := by
    decide +kernel
  obtain ⟨⟨first, second⟩, blocked, facts⟩ :=
    Option.map_eq_some_iff.mp times
  obtain ⟨timeout, firstDeadline⟩ := Prod.mk.inj facts
  dsimp only at timeout firstDeadline
  obtain ⟨outcome, ran, waits, retries⟩ :=
    retries_of_blocked (by decide) (by decide) (by decide) blocked
  have run := Runs.next retries (.done second)
  have honours := timeout_honoured_iff ran waits (Int.le_refl 0) run
  refine ⟨first, second, run, (honours.1 (by omega)).1 (.inr ⟨_, rfl, ?_⟩)⟩
  unfold InLastMillisecond
  rw [firstDeadline]
  decide

end Command

end

end RedVector
