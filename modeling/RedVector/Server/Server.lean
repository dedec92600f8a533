import RedVector.Command.Execute
import RedVector.Effect.Runs
import RedVector.Parser.Encode

/-!
# The server

The database and all clients.  A lock around the database makes commands run
one after the other, in any order of the clients.
-/

namespace RedVector

open Effect

variable [Platform]

structure Server where
  db : Database
  clients : Nat → Client

/-- A command that a client runs, with its environment. -/
structure Request where
  world : World
  client : Nat
  command : ParsedCommand

/-- A request in the usual form, in a quiet environment. -/
noncomputable def Request.still (now : Int) (client : Nat)
    (arguments : List Bytes) (limits : Parser.WithinLimits arguments) :
    Request :=
  { world := fun _ => .still now
    client := client
    command := .encoded arguments [] limits }

namespace Request

omit [Platform] in
theorem set_withinLimits :
    Parser.WithinLimits [text "SET", text "k", text "v"] :=
  ⟨by decide, by decide⟩

omit [Platform] in
theorem watch_withinLimits : Parser.WithinLimits [text "WATCH", text "k"] :=
  ⟨by decide, by decide⟩

omit [Platform] in
theorem subscribe_withinLimits :
    Parser.WithinLimits [text "SUBSCRIBE", text "news"] :=
  ⟨by decide, by decide⟩

end Request

namespace Server

/-- A server that starts with a configuration and an append only file. -/
def start (config : Config) (aof : Option Bytes) : Server :=
  { db := .new config aof, clients := Client.new }

/-- Runs a command of a client. -/
def step (server : Server) (request : Request) : Option (Answer × Server) := do
  let outcome ← command request.world request.command server.db
    (server.clients request.client)
  pure (outcome.answer,
    { db := outcome.db
      clients :=
        Function.update server.clients request.client outcome.client })

/-- A step that meets a condition on the request and the state before it. -/
def Steps (allowed : Request → Server → Prop) (before : Server)
    (request : Request) (after : Server) : Prop :=
  allowed request before ∧
    ∃ answer, before.step request = some (answer, after)

/-- The steps of a server with no condition. -/
abbrev AnyStep : Server → Request → Server → Prop :=
  Steps fun _ _ => True

theorem step_eq_some
    {server after : Server} {request : Request} {answer : Answer} :
    server.step request = some (answer, after) ↔
      ∃ outcome, command request.world request.command server.db
          (server.clients request.client) = some outcome ∧
        answer = outcome.answer ∧
        after =
          { db := outcome.db
            clients := Function.update server.clients request.client
              outcome.client } := by
  simp only [step, Option.bind_eq_bind, Option.bind_eq_some_iff,
    Option.pure_def, Option.some.injEq, Prod.mk.injEq]
  constructor
  · rintro ⟨outcome, ran, rfl, rfl⟩
    exact ⟨outcome, ran, rfl, rfl⟩
  · rintro ⟨outcome, ran, rfl, rfl⟩
    exact ⟨outcome, ran, rfl, rfl⟩

end Server

end RedVector
