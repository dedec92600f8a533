import RedVector.Command.Queue
import RedVector.Command.Waiting

/-!
# EXEC

EXEC unwraps the answer of every command of its queue.  It gives one reply for
each of them, and does what the commands do one after the other, exactly if
none of them panics or goes without an answer.
-/

namespace RedVector

open Util Effect

section

variable [Platform]

namespace Command

/-- Runs commands one after the other outside of MULTI. -/
def runAll (world : World) :
    Nat → List ParsedCommand → Database → Client →
      Option (List Answer × Database × Client)
  | _, [], db, client => some ([], db, client)
  | position, command :: rest, db, client => do
      let outcome ← RedVector.command (world.queued position) command db
        client
      let (answers, after) ← runAll world (position + 1) rest outcome.db
        outcome.client
      pure (outcome.answer :: answers, after)

/-- A command that gives its client a reply: it is not one of those that go
without. -/
def Replies (world : World) (command : ParsedCommand) (db : Database)
    (client : Client) : Prop :=
  ∀ name, commandName db command.arguments = .ok name →
    (admitted db client).auth = true →
    ¬Unanswered world.here name command.arguments db client

/-- Each of the commands, one after the other, gives a reply and does not
panic. -/
def Answering (world : World) :
    Nat → List ParsedCommand → Database → Client → Prop
  | _, [], _, _ => True
  | position, command :: rest, db, client =>
      Replies (world.queued position) command db client ∧
        ∃ outcome, RedVector.command (world.queued position) command db
            client = some outcome ∧
          Answering world (position + 1) rest outcome.db outcome.client

/-- EXEC returns an array with one reply for each command of the queue, and
the replies and the states are those of running the queue outside of MULTI. -/
def ExecRunsQueue (world : World) (db : Database) (client : Client) : Prop :=
  ∃ replies afterDb after,
    exec (fun position => commandAt client.multiCommands.length
      (world.queued position)) db client =
        some (.array replies, afterDb, after) ∧
    replies.length = client.multiCommands.length ∧
    runAll world 0 client.multiCommands db (started db client) =
      some (replies.map .ok, afterDb, after)

/-- Without EXEC the depth does not matter. -/
theorem commandAt_depth
    {world : World} {command : ParsedCommand} {db : Database}
    {client : Client} (queueable : Queueable db command) (depth : Nat) :
    commandAt (depth + 1) world command db client =
      RedVector.command world command db client := by
  obtain ⟨name, named, apart⟩ := queueable
  have notExec := apart .exec (by simp [immediate])
  have same : ∀ first second : Database → Client →
      Option (Response × Database × Client),
      executeCommand world.here first command db client =
        executeCommand world.here second command db client := by
    intro first second
    have something : ¬command.arguments.isEmpty = true := by
      simpa [List.isEmpty_iff] using commandName_arguments named
    simp only [executeCommand, if_neg something, named]
    split
    · rfl
    · rename_i routed
      exact absurd (route_exec routed).1 notExec
    · rfl
  unfold RedVector.command
  rw [commandAt, commandAt]
  exact congrArg _ (same _ _)

/-- Outside of MULTI a command that could be queued stays outside, and only
SELECT is answered in front of the handlers. -/
theorem route_outside
    {name : Bytes} {command : ParsedCommand} {db : Database}
    {client after : Client} {reply : Response}
    (apart : ∀ known ∈ immediate, CommandName.ofBytes name ≠ some known)
    (outside : client.multi = false)
    (routed : route (CommandName.ofBytes name) command db client =
      .answered reply after) :
    after.multi = false ∧ after.multiCommands = client.multiCommands ∧
      ((admitted db client).auth = true →
        CommandName.ofBytes name = some .select) := by
  simp only [immediate, List.mem_cons, List.not_mem_nil, or_false,
    forall_eq_or_imp, forall_eq] at apart
  have admittedMulti := (admitted_multi db client).1.trans outside
  have admittedQueue := (admitted_multi db client).2
  unfold route at routed
  dsimp only at routed
  simp only [apart, if_false, admittedMulti] at routed
  split at routed
  · rename_i refused
    cases routed
    refine ⟨admittedMulti, admittedQueue, fun authenticated => ?_⟩
    simp [authenticated] at refused
  split at routed
  · rename_i inMulti
    cases inMulti
  split at routed
  · rename_i isSelect
    simp only [Route.answered.injEq] at routed
    obtain ⟨-, rfl⟩ := routed
    rw [← and_assoc]
    refine ⟨?_, fun _ => isSelect⟩
    unfold select
    split
    · exact ⟨admittedMulti, admittedQueue⟩
    · split
      · exact ⟨admittedMulti, admittedQueue⟩
      · exact ⟨admittedMulti, admittedQueue⟩
  · cases routed

/-- A command that could be queued, run outside of MULTI. -/
theorem command_outside
    {world : World} {command : ParsedCommand} {db : Database}
    {client : Client} {outcome : Outcome}
    (queueable : Queueable db command) (outside : client.multi = false)
    (ran : RedVector.command world command db client = some outcome) :
    ((∀ error, outcome.answer ≠ .error error) ↔
        Replies world command db client) ∧
      outcome.client.multi = false ∧
      outcome.db.config.renameCommands = db.config.renameCommands := by
  obtain ⟨name, named, apart⟩ := queueable
  obtain ⟨executed, executes, rfl⟩ := Option.map_eq_some_iff.mp ran
  obtain ⟨noted, -, sameAnswer, sameClient⟩ :=
    logged_noted world.here command executed
  rw [sameAnswer, sameClient, noted.config]
  cases executeCommand_executes executes with
  | empty nothing => exact absurd nothing (commandName_arguments named)
  | unnamed something refused => cases named.symm.trans refused
  | exec something otherNamed routed execRan =>
      cases named.symm.trans otherNamed
      exact absurd (route_exec routed).1
        (apart .exec (by simp [immediate]))
  | answered something otherNamed routed =>
      cases named.symm.trans otherNamed
      obtain ⟨stays, -, onlySelect⟩ := route_outside apart outside routed
      refine ⟨iff_of_true (by simp) ?_, stays, rfl⟩
      intro other otherNamed authenticated unanswered
      cases named.symm.trans otherNamed
      simp [Unanswered, onlySelect authenticated] at unanswered
  | dispatched something otherNamed routed dispatchRan =>
      cases named.symm.trans otherNamed
      obtain ⟨rfl, authenticated, -, -⟩ := route_dispatched routed
      obtain ⟨fixed, -, -, -, kept⟩ := dispatch_recorded dispatchRan
      refine ⟨?_, kept.multi.trans ((admitted_multi db client).1.trans
        outside), fixed.renameCommands⟩
      have noAnswer := dispatch_noAnswer dispatchRan
      have sameIndex : ∀ argv : Arguments,
          Unanswered world.here name argv db (admitted db client) ↔
            Unanswered world.here name argv db client := by
        intro argv
        unfold admitted
        split
        · rfl
        · rfl
      rw [sameIndex] at noAnswer
      constructor
      · intro answered other otherNamed _ unanswered
        cases named.symm.trans otherNamed
        obtain ⟨error, wrong⟩ := noAnswer.mpr unanswered
        exact answered error wrong
      · intro replies error wrong
        exact replies name named authenticated
          (noAnswer.mp ⟨error, wrong⟩)

/-- Running a queue and unwrapping its answers gives all replies exactly if
every command of it gives one. -/
theorem execAll_iff
    {world : World} (depth position : Nat)
    {queue : List ParsedCommand} {db : Database} {client : Client}
    (queueable : ∀ command ∈ queue, Queueable db command)
    (outside : client.multi = false) :
    (∃ replies afterDb after,
      execAll (fun position => commandAt (depth + 1)
        (world.queued position)) position queue db client =
          some (replies, afterDb, after) ∧
      replies.length = queue.length ∧
      runAll world position queue db client =
        some (replies.map .ok, afterDb, after)) ↔
    Answering world position queue db client := by
  induction queue generalizing position db client with
  | nil =>
      exact iff_of_true ⟨[], db, client, rfl, rfl, rfl⟩ trivial
  | cons command rest ih =>
      have one := queueable command List.mem_cons_self
      have others : ∀ {outcome : Outcome},
          outcome.db.config.renameCommands = db.config.renameCommands →
          ∀ other ∈ rest, Queueable outcome.db other := by
        intro outcome same other member
        exact (queueable other (List.mem_cons_of_mem command member)).congr
          same
      simp only [execAll, runAll, Answering, commandAt_depth one]
      cases ran : RedVector.command (world.queued position) command db
          client with
      | none => simp
      | some outcome =>
          obtain ⟨answers, outside', renames⟩ :=
            command_outside one outside ran
          rw [← answers]
          have tail := ih (position + 1) (others renames)
            outside'
          cases answer : outcome.answer with
          | error error => simp [answer]
          | ok reply =>
              simp only [Option.bind_eq_bind, Option.bind_some, answer,
                Option.some.injEq, exists_eq_left', reduceCtorEq, ne_eq,
                not_false_eq_true, implies_true, true_and]
              rw [← tail]
              constructor
              · rintro ⟨replies, afterDb, after, ran, length, ranAll⟩
                obtain ⟨⟨others, place⟩, tailRan, finished⟩ :=
                  Option.bind_eq_some_iff.mp ran
                cases finished
                obtain ⟨⟨answers, place⟩, tailAll, finished⟩ :=
                  Option.bind_eq_some_iff.mp ranAll
                simp only [List.map_cons, Option.pure_def,
                  Option.some.injEq, Prod.mk.injEq, List.cons.injEq]
                  at finished
                obtain ⟨⟨-, rfl⟩, rfl⟩ := finished
                exact ⟨others, afterDb, after, tailRan, by simpa using
                  length, tailAll⟩
              · rintro ⟨replies, afterDb, after, ran, length, ranAll⟩
                refine ⟨reply :: replies, afterDb, after, ?_, ?_, ?_⟩
                · simp [ran]
                · simp [length]
                · simp [ranAll]

/-- With no watched key modified, EXEC runs its queue exactly if every command
of it gives a reply in its turn. -/
theorem exec_iff
    (world : World) {db : Database} {client : Client}
    (queueable : ∀ command ∈ client.multiCommands, Queueable db command)
    (inMulti : client.multi = true)
    (unmodified : ∀ entry ∈ client.watchedKeys,
      db.keyWatchVerify entry.1 entry.2 client.id = true) :
    ExecRunsQueue world db client ↔
      Answering world 0 client.multiCommands db (started db client) := by
  have execEq : ∀ run : Nat → ParsedCommand → Database → Client →
      Option Outcome, exec run db client =
        (execAll run 0 client.multiCommands db (started db client)).map
          fun ended => (.array ended.1, ended.2) := by
    intro run
    have verified : (genericUnwatch db
        { client with multi := false, multiCommands := [] }).1 = true := by
      simpa [genericUnwatch] using unmodified
    unfold exec
    simp only [inMulti, Bool.not_true, Bool.false_eq_true, if_false]
    rw [if_neg (by simp [verified])]
    unfold started
    cases execAll run 0 client.multiCommands db _ with
    | none => rfl
    | some ended => rfl
  unfold ExecRunsQueue
  simp only [execEq]
  cases size : client.multiCommands.length with
  | zero =>
      rw [List.length_eq_zero_iff.mp size]
      exact iff_of_true ⟨[], db, started db client, rfl, rfl, rfl⟩ trivial
  | succ depth =>
      rw [← execAll_iff depth 0 queueable rfl, size]
      constructor
      · rintro ⟨replies, afterDb, after, ran, length, ranAll⟩
        obtain ⟨⟨ended, place⟩, execRan, finished⟩ :=
          Option.map_eq_some_iff.mp ran
        cases finished
        exact ⟨_, _, _, execRan, length, ranAll⟩
      · rintro ⟨replies, afterDb, after, ran, length, ranAll⟩
        exact ⟨replies, afterDb, after, by rw [ran]; rfl, length, ranAll⟩

end Command

end

/-! ## Queues of one command -/

section

attribute [local instance] Platform.integral

/-- A client inside MULTI that has queued one command. -/
def clientWith (arguments : List Bytes)
    (limits : Parser.WithinLimits arguments) : Client :=
  { Client.new 0 with
    multi := true
    multiCommands := [.encoded arguments [] limits] }

namespace Command

/-- A queued SUBSCRIBE has no reply to unwrap. -/
theorem exec_not_total :
    ¬∀ (world : World) (db : Database) (client : Client),
      (∀ command ∈ client.multiCommands, Queueable db command) →
      client.multi = true →
      (∀ entry ∈ client.watchedKeys,
        db.keyWatchVerify entry.1 entry.2 client.id = true) →
      ExecRunsQueue world db client := by
  intro total
  let client := clientWith [text "SUBSCRIBE", text "news"]
    ⟨by decide, by decide⟩
  let db : Database := .new {} none
  have queueable : ∀ command ∈ client.multiCommands,
      Queueable db command := by
    intro command member
    cases List.mem_singleton.mp member
    exact ⟨text "subscribe", rfl, by decide⟩
  obtain ⟨replies, afterDb, after, ran, -⟩ := total (fun _ => .still 0) db
    client queueable rfl (by decide)
  have panics : (exec (fun position =>
      commandAt client.multiCommands.length
        (World.queued (fun _ => .still 0) position)) db client).isNone =
        true := by
    decide +kernel
  rw [ran] at panics
  cases panics

/-- A queued SET runs as it would outside of MULTI. -/
theorem exec_runs_set :
    ExecRunsQueue (fun _ => .still 0) (.new {} none)
      (clientWith [text "SET", text "k", text "v"]
        ⟨by decide, by decide⟩) := by
  refine (exec_iff _ ?_ rfl (by decide)).mpr ?_
  · intro command member
    cases List.mem_singleton.mp member
    exact ⟨text "set", rfl, by decide⟩
  · obtain ⟨outcome, ran⟩ := Option.isSome_iff_exists.mp
      (show (RedVector.command (World.queued (fun _ => .still 0) 0)
        (.encoded [text "SET", text "k", text "v"] []
          ⟨by decide, by decide⟩) (.new {} none)
        (started (.new {} none) (clientWith
          [text "SET", text "k", text "v"]
          ⟨by decide, by decide⟩))).isSome = true by decide +kernel)
    refine ⟨?_, outcome, ran, trivial⟩
    intro name named _ unanswered
    have isSet : commandName (.new {} none) [text "SET", text "k",
        text "v"] = .ok (text "set") := rfl
    cases isSet.symm.trans named
    exact unanswered

end Command

end

end RedVector
