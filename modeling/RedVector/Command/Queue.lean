import RedVector.Command.Along
import RedVector.Server.Server

/-!
# Queued commands

Which commands MULTI queues, and that no queue ever holds another one.
-/

namespace RedVector

open Util Effect

variable [Platform]

namespace Command

/-- The commands that a client inside MULTI executes at once. -/
def immediate : List CommandName :=
  [.auth, .multi, .discard, .exec, .watch, .unwatch]

/-- A command that MULTI queues: it has a name, and none of the names that are
executed at once. -/
def Queueable (db : Database) (command : ParsedCommand) : Prop :=
  ∃ name, commandName db command.arguments = .ok name ∧
    ∀ known ∈ immediate, CommandName.ofBytes name ≠ some known

theorem commandName_congr
    {db other : Database} (argv : Arguments)
    (same : other.config.renameCommands = db.config.renameCommands) :
    commandName other argv = commandName db argv := by
  unfold commandName Database.mappedCommand
  rw [same]

theorem Queueable.congr
    {db other : Database} {command : ParsedCommand}
    (same : other.config.renameCommands = db.config.renameCommands)
    (queueable : Queueable db command) : Queueable other command := by
  obtain ⟨name, named, apart⟩ := queueable
  exact ⟨name, (commandName_congr _ same).trans named, apart⟩

/-- A name is only made of arguments. -/
theorem commandName_arguments
    {db : Database} {argv : Arguments} {name : Bytes}
    (named : commandName db argv = .ok name) : argv ≠ [] := by
  rintro rfl
  cases named

/-- A gate in front of the handlers leaves the queue, empties it or puts the
command into it. -/
theorem route_queue
    {name : Bytes} {command : ParsedCommand} {db : Database}
    {client after : Client} {reply : Response}
    (named : commandName db command.arguments = .ok name)
    (routed : route (CommandName.ofBytes name) command db client =
      .answered reply after) :
    after.multiCommands = client.multiCommands ∨
      after.multiCommands = [] ∨
      (after.multiCommands = client.multiCommands ++ [command] ∧
        Queueable db command) := by
  have admittedQueue := (admitted_multi db client).2
  unfold route at routed
  dsimp only at routed
  split at routed
  · rename_i auth
    simp only [Route.answered.injEq] at routed
    obtain ⟨-, rfl⟩ := routed
    left
    rw [← admittedQueue]
    unfold authenticate
    split
    · rfl
    · split
      · rfl
      · split
        · rfl
        · rfl
  rename_i notAuth
  split at routed
  · cases routed
    exact .inl admittedQueue
  split at routed
  · simp only [Route.answered.injEq] at routed
    obtain ⟨-, rfl⟩ := routed
    left
    rw [← admittedQueue]
    unfold multi
    split
    · rfl
    · rfl
  rename_i notMulti
  split at routed
  · simp only [Route.answered.injEq] at routed
    obtain ⟨-, rfl⟩ := routed
    unfold discard
    split
    · exact .inr (.inl rfl)
    · exact .inl admittedQueue
  rename_i notDiscard
  split at routed
  · cases routed
  rename_i notExec
  split at routed
  · split at routed
    · cases routed
      exact .inl admittedQueue
    · rename_i notWatch
      cases routed
      refine .inr (.inr ⟨by rw [admittedQueue], name, named, ?_⟩)
      simp only [not_or] at notWatch
      simp [immediate, notAuth, notMulti, notDiscard, notExec, notWatch]
  split at routed
  · simp only [Route.answered.injEq] at routed
    obtain ⟨-, rfl⟩ := routed
    left
    rw [← admittedQueue]
    unfold select
    split
    · rfl
    · split
      · rfl
      · rfl
  · cases routed

/-- The settings that are fixed are those of `config`, and the queue of the
client holds nothing that MULTI would not queue. -/
def QueuedWell (config : Config) (db : Database) (client : Client) : Prop :=
  Config.SameFixed config db.config ∧
    ∀ command ∈ client.multiCommands, Queueable db command

/-- Every part of executing a command keeps the queue as it should be. -/
theorem queuedWell_keeps (config : Config) :
    Keeps (fun _ _ _ _ _ => True) (QueuedWell config) := by
  have moved : ∀ {db after : Database} {client other : Client},
      QueuedWell config db client →
      Config.SameFixed db.config after.config →
      (∀ command ∈ other.multiCommands,
        command ∈ client.multiCommands) →
      QueuedWell config after other := by
    rintro db after client other ⟨fixed, queued⟩ same fewer
    exact ⟨fixed.trans same, fun command member =>
      (queued command (fewer command member)).congr same.renameCommands⟩
  refine ⟨?_, ?_, ?_, ?_, ?_⟩
  · rintro name command db client after reply ⟨fixed, queued⟩ named routed
    refine ⟨fixed, ?_⟩
    obtain same | none | ⟨longer, queueable⟩ := route_queue named routed
    · rw [same]
      exact queued
    · simp [none]
    · rw [longer]
      intro other member
      obtain old | new := List.mem_append.mp member
      · exact queued other old
      · cases List.mem_singleton.mp new
        exact queueable
  · intro db client holds
    refine moved holds (.refl _) ?_
    rw [(admitted_multi db client).2]
    exact fun _ member => member
  · intro db client holds
    refine moved holds (.refl _) ?_
    simp [started, genericUnwatch]
  · intro env name command db client between outcome holds named routed _
      dispatched
    obtain ⟨fixed, -, -, -, kept⟩ := dispatch_recorded dispatched
    refine moved holds fixed ?_
    obtain ⟨rfl, -⟩ := route_dispatched routed
    rw [kept.multiCommands, (admitted_multi db client).2]
    exact fun _ member => member
  · intro env command executed holds
    obtain ⟨noted, -, -, -⟩ := logged_noted env command executed
    refine moved holds ?_ (fun _ member => member)
    rw [noted.config]
    exact .refl _

end Command

open Command

namespace Server

/-- The queue of every client, in every state of a server, holds commands that
MULTI queues. -/
theorem queued_well
    {config : Config} {aof : Option Bytes} {requests : List Request}
    {after : Server}
    (run : Runs AnyStep (start config aof) requests after) (id : Nat) :
    QueuedWell config after.db (after.clients id) := by
  refine run.invariant
    (fun server => ∀ id, QueuedWell config server.db (server.clients id))
    ?_ ?_ id
  · rintro server request result queued ⟨-, answer, ran⟩ id
    obtain ⟨outcome, commandRan, -, rfl⟩ := step_eq_some.mp ran
    have one := commandAt_preserves (queuedWell_keeps config)
      (queued request.client) commandRan
    by_cases same : id = request.client
    · subst same
      simpa using one
    · have others := queued id
      dsimp only
      rw [Function.update_of_ne same]
      refine ⟨one.1, fun command member => ?_⟩
      refine (others.2 command member).congr ?_
      rw [one.1.renameCommands, others.1.renameCommands]
  · intro id
    exact ⟨.refl config, fun command member => absurd member (by
      simp [start, Client.new])⟩

end Server

end RedVector
