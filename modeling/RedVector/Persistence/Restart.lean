import RedVector.Persistence.Recovery
import RedVector.Server.Passwords

/-!
# Restarts

What a server wrote in a run, and what it has after it was started again with
the file.
-/

namespace RedVector

open Util Effect

section

variable [Platform]

namespace Command

/-- The file holds what was written to it, and nothing else. -/
def Filed (db : Database) : Prop :=
  db.aof = some ((Aof.new []).log db.written)

omit [Platform] in
theorem log_written (aof : Aof) (writes : List (Nat × ParsedCommand)) :
    (aof.log writes).written = aof.written ++ writes := by
  induction writes generalizing aof with
  | nil => exact (List.append_nil _).symm
  | cons one rest ih =>
      show ((aof.write one.1 one.2).log rest).written = _
      rw [ih]
      show (aof.written ++ [one]) ++ rest = _
      rw [List.append_assoc, List.singleton_append]

/-- Only the log of a command writes to the file. -/
theorem filed_keeps : Keeps (fun _ _ _ _ _ => True) (fun db _ => Filed db) := by
  have same : ∀ {db after : Database}, Filed db → after.aof = db.aof →
      Filed after := by
    intro db after filed aof
    unfold Filed Database.written
    rw [aof]
    exact filed
  refine ⟨fun filed _ _ => filed, fun filed => filed, fun filed => filed, ?_,
    ?_⟩
  · intro env name command db client between outcome filed _ _ _ dispatched
    exact same filed (dispatch_recorded dispatched).2.2.1
  · intro env command executed filed
    have aof := (logged_noted env command executed).2.1
    unfold loggedAof at aof
    split at aof
    · have written : (logged env command executed).db.aof =
          some (((Aof.new []).log executed.db.written).write
            executed.client.dbindex command) := by
        rw [aof, filed]
        rfl
      unfold Filed Database.written
      rw [written]
      show _ = some ((Aof.new []).log (((Aof.new []).log _).written ++ [_]))
      rw [log_written]
      simp only [Aof.log, Aof.new, List.nil_append, List.foldl_append,
        List.foldl_cons, List.foldl_nil]
    · exact same filed aof

/-- Commands that do not give the password are all refused. -/
theorem execAll_refused
    {worlds : Nat → World} {queue : List ParsedCommand} {position : Nat}
    {db : Database} {client : Client}
    (locked : db.config.requirepass.isSome = true)
    (outsider : client.auth = false)
    (without : ∀ parsed ∈ queue, parsed.arguments ≠ [] ∧
      ¬Authenticates db parsed.arguments) :
    ∃ replies after,
      execAll (fun place => command (worlds place)) position queue db
        client = some (replies, after, client) ∧ OnlyLogs db after := by
  induction queue generalizing position db with
  | nil => exact ⟨[], db, rfl, rfl⟩
  | cons parsed rest ih =>
      obtain ⟨something, other⟩ := without parsed List.mem_cons_self
      obtain ⟨outcome, ran, same, logs, replies⟩ :=
        @command_refused _ (worlds position) _ _ _ locked outsider other
      obtain ⟨reply, answered⟩ := replies something
      have config : outcome.db.config = db.config := by rw [logs]
      obtain ⟨replies, after, later, logsLater⟩ :=
        @ih (position + 1) outcome.db (by rw [config]; exact locked)
          (fun other member => by
            rw [authenticates_congr config]
            exact without other (List.mem_cons_of_mem parsed member))
      refine ⟨reply :: replies, after, ?_, ?_⟩
      · rw [Loading.execAll_next ran answered, same, later]
        rfl
      · unfold OnlyLogs at logsLater ⊢
        rw [logsLater, logs]

/-- SELECT does not give a password, unless it was given another name. -/
theorem select_without
    {db : Database} (dbindex : Nat)
    (kept : db.mappedCommand (text "select") = some (text "select")) :
    ¬Authenticates db (Aof.Entry.select dbindex).arguments := by
  have named : commandName db (Aof.Entry.select dbindex).arguments =
      .ok (text "select") := by
    have lower : lowercase (text "SELECT") = text "select" := by decide
    have builtin : ((text "ft.").isPrefixOf (text "select") ||
        (text "bf.").isPrefixOf (text "select")) = false := by
      decide
    unfold commandName
    have word : tryValidate
        (Arguments.getStr (Aof.Entry.select dbindex).arguments 0)
        "Invalid command" = .ok (text "SELECT") := rfl
    rw [word]
    simp only [bind, Except.bind, lower, builtin, Bool.false_eq_true,
      if_false, kept]
    rfl
  rintro ⟨name, password, isName, auth, -⟩
  cases named.symm.trans isName
  exact absurd auth (by decide)

end Command

open Command

namespace Server

/-- The database of a server that starts again with the file. -/
def restarting (config : Config) (db : Database) : Database :=
  .new config (db.aof.map Aof.contents)

/-- The buffers that were written hold whole commands, and the numbers of the
databases can be read back. -/
structure WroteWhole (buffer : ParsedCommand → List (List Bytes))
    (writes : List (Nat × ParsedCommand)) : Prop where
  buffers : ∀ one ∈ writes, one.2.data = Session.stream (buffer one.2)
  limits : ∀ one ∈ writes, ∀ arguments ∈ buffer one.2,
    Parser.WithinLimits arguments
  indexes : ∀ one ∈ writes, inI64 one.1 = true

variable {config : Config} {requests : List Request} {after : Server}
  {buffer : ParsedCommand → List (List Bytes)}

theorem run_filed
    (run : Runs AnyStep (start config (some [])) requests after) :
    Filed after.db := by
  refine run.invariant (fun server => Filed server.db) ?_ ?_
  · rintro server request result filed ⟨-, answer, ran⟩
    obtain ⟨outcome, commandRan, -, rfl⟩ := step_eq_some.mp ran
    exact commandAt_preserves filed_keeps filed commandRan
  · exact rfl

/-- The file as the server that starts again finds it. -/
theorem restarting_aof (filed : Filed after.db) :
    (restarting config after.db).aof =
      some (.new ((Aof.new []).log after.db.written).contents) := by
  show (after.db.aof.map Aof.contents).map Aof.new = _
  rw [filed]
  rfl

/-- After any run, a server that starts again with the file executes exactly
what was written: for each write the SELECT of its database if another one was
selected last, and then every command that was in its buffer. -/
theorem restart_reads_back
    (run : Runs AnyStep (start config (some [])) requests after)
    (whole : WroteWhole buffer after.db.written)
    (sizes : Nat → Nat) (worlds : Nat → World) :
    ∃ parsed file, parsed.map ParsedCommand.arguments =
        (Aof.entries buffer usizeMax after.db.written).map
          Aof.Entry.arguments ∧
      after.db.aof = some file ∧
      Aof.load sizes worlds (restarting config after.db) =
        (execAll (fun place => command (worlds place)) 0 parsed
          { Database.new config none with loading := true }
          (Client.new 0)).map
            (Loading.settle false
              { Aof.new file.contents with
                offset := file.contents.length }) := by
  have filed := run_filed run
  obtain ⟨parsed, same, loads⟩ := load_written whole.buffers whole.limits
    whole.indexes rfl (restarting_aof filed) sizes worlds
  exact ⟨parsed, _, same, filed, loads⟩

/-- After any run of a server with a password, a server that starts again
with the file has no key, if the password was not written: no command in the
file reaches its handler. -/
theorem restart_refused
    (run : Runs AnyStep (start config (some [])) requests after)
    (whole : WroteWhole buffer after.db.written)
    (without : ∀ one ∈ after.db.written, ∀ arguments ∈ buffer one.2,
      arguments ≠ [] ∧
        ¬Authenticates (restarting config after.db) arguments)
    (locked : config.requirepass.isSome = true)
    (kept : config.renameCommands.lookup (text "select") = none)
    (sizes : Nat → Nat) (worlds : Nat → World) :
    ∃ restarted, Aof.load sizes worlds (restarting config after.db) =
        some (.loaded restarted) ∧
      restarted.data = (fun _ => ∅) ∧ restarted.dispatched = [] := by
  have filed := run_filed run
  obtain ⟨parsed, same, loads⟩ := load_written whole.buffers whole.limits
    whole.indexes rfl (restarting_aof filed) sizes worlds
  have harmless : ∀ command ∈ parsed, command.arguments ≠ [] ∧
      ¬Authenticates (restarting config after.db) command.arguments := by
    intro command member
    have listed : command.arguments ∈ parsed.map ParsedCommand.arguments :=
      List.mem_map_of_mem member
    rw [same] at listed
    obtain ⟨entry, among, isEntry⟩ := List.mem_map.mp listed
    rw [← isEntry]
    obtain ⟨one, written, rfl | ⟨arguments, inside, rfl⟩⟩ :=
      Aof.mem_entries among
    · refine ⟨List.cons_ne_nil _ _, select_without one.1 ?_⟩
      unfold Database.mappedCommand
      rw [show (restarting config after.db).config.renameCommands.lookup
        (text "select") = none from kept]
    · exact without one written arguments inside
  obtain ⟨replies, loaded, ran, logs⟩ := @execAll_refused _ worlds _ 0
    { restarting config after.db with aof := none, loading := true }
    (.new 0) locked rfl harmless
  rw [ran] at loads
  refine ⟨_, loads, ?_, ?_⟩
  · show loaded.data = _
    rw [logs]
    rfl
  · show loaded.dispatched = _
    rw [logs]
    rfl

end Server

end

/-! ## A run with one SET -/

section

attribute [local instance] Platform.integral

open Command

namespace Server

/-- What is written is the SET, alone in its buffer. -/
def wroteSet (server : Server) : Bool :=
  server.db.written.all fun one =>
    decide (one.1 = 0 ∧ one.2.data = Session.stream [Loading.setArguments])

theorem set_whole {server : Server} (wrote : server.wroteSet = true) :
    WroteWhole (fun _ => [Loading.setArguments]) server.db.written := by
  have each := fun one member =>
    of_decide_eq_true (List.all_eq_true.mp wrote one member)
  refine ⟨fun one member => (each one member).2, ?_, ?_⟩
  · intro one _ arguments inside
    cases List.mem_singleton.mp inside
    exact Request.set_withinLimits
  · intro one member
    rw [(each one member).1]
    rfl

theorem set_runs {config : Config}
    (wrote : ((start config (some [])).step setRequest).map
      (fun result => result.2.wroteSet) = some true) :
    ∃ after, Runs AnyStep (start config (some [])) [setRequest] after ∧
      WroteWhole (fun _ => [Loading.setArguments]) after.db.written := by
  obtain ⟨⟨answer, after⟩, ran, wrote⟩ := Option.map_eq_some_iff.mp wrote
  exact ⟨after, .next ⟨trivial, answer, ran⟩ (.done after), set_whole wrote⟩

theorem restart_reads_back_set :
    ∃ (after : Server) (parsed : List ParsedCommand) (file : Aof),
      Runs AnyStep (start {} (some [])) [setRequest] after ∧
      parsed.map ParsedCommand.arguments =
        (Aof.entries (fun _ => [Loading.setArguments]) usizeMax
          after.db.written).map Aof.Entry.arguments ∧
      after.db.aof = some file ∧
      Aof.load (fun _ => 100) (fun _ _ => .still 0) (restarting {} after.db) =
        (execAll (fun _ => command fun _ => .still 0) 0 parsed
          { Database.new {} none with loading := true }
          (Client.new 0)).map
            (Loading.settle false
              { Aof.new file.contents with
                offset := file.contents.length }) := by
  obtain ⟨after, run, whole⟩ := @set_runs {} (by decide)
  obtain ⟨parsed, file, reads⟩ := restart_reads_back run whole
    (fun _ => 100) (fun _ _ => .still 0)
  exact ⟨after, parsed, file, run, reads⟩

/-- With a password nothing is left of it. -/
theorem restart_refused_set :
    ∃ after restarted,
      Runs AnyStep (start { requirepass := some (text "secret") } (some []))
        [setRequest] after ∧
      Aof.load (fun _ => 100) (fun _ _ => .still 0)
          (restarting { requirepass := some (text "secret") } after.db) =
        some (.loaded restarted) ∧
      restarted.data = (fun _ => ∅) ∧ restarted.dispatched = [] := by
  obtain ⟨after, run, whole⟩ :=
    @set_runs { requirepass := some (text "secret") } (by decide)
  have without : ∀ one ∈ after.db.written,
      ∀ arguments ∈ [Loading.setArguments], arguments ≠ [] ∧
        ¬Authenticates (restarting { requirepass := some (text "secret") }
          after.db) arguments := by
    intro one _ arguments inside
    cases List.mem_singleton.mp inside
    refine ⟨List.cons_ne_nil _ _, ?_⟩
    rintro ⟨name, password, -, -, two, -⟩
    exact absurd two (by decide)
  obtain ⟨restarted, loads⟩ := restart_refused run whole without rfl rfl
    (fun _ => 100) (fun _ _ => .still 0)
  exact ⟨after, restarted, run, loads⟩

end Server

end

end RedVector
