import RedVector.Command.Asides
import RedVector.Database.Accounting
import RedVector.Server.Server

/-!
# The memory that is used

In a run in which every operation of the handlers is counted, the memory
counter is the sum of the estimated sizes of all stored values in every state.
-/

namespace RedVector

open Util Effect Database Command

section

variable [Platform]

namespace Server

/-- Every operation of the handlers that the request reaches is counted. -/
def KeepsCount (request : Request) (server : Server) : Prop :=
  Each (CallsEach Accounted) request.world request.command server.db
    (server.clients request.client)

theorem step_accounts
    {before after : Server} {request : Request}
    (accounts : Accounts before.db)
    (step : Steps KeepsCount before request after) : Accounts after.db := by
  obtain ⟨counted, answer, ran⟩ := step
  obtain ⟨outcome, commandRan, -, rfl⟩ := step_eq_some.mp ran
  have keeps : KeepsEach (CallsEach Accounted) fun db _ => Accounts db :=
    callsEach_keeps
      (asides_of_sameKeys fun same accounts =>
        accounts.congr same.value same.usedMemory)
      fun held counted performed => perform_accounts held counted performed
  exact commandAt_keepsEach keeps accounts counted commandRan

/-- The counter of a new server is right, and in a run of counted operations
a counter that is right stays right. -/
theorem memory_accounted :
    (∀ (config : Config) (aof : Option Bytes),
      Accounts (start config aof).db) ∧
    ∀ {before after : Server} {requests : List Request},
      Accounts before.db →
      Runs (Steps KeepsCount) before requests after →
      ∃ stored : Finset Slot,
        (∀ slot, slot ∈ stored ↔ after.db.value slot ≠ none) ∧
        after.db.usedMemory =
          stored.sum (weightAt slotSize after.db.value) := by
  refine ⟨accounts_new, ?_⟩
  intro before after requests right run
  refine run.invariant (fun server => Accounts server.db) ?_ right
  intro before request after accounts step
  exact step_accounts accounts step

end Server

end

/-! ## A value that is not counted -/

section

attribute [local instance] Platform.integral

namespace Server

/-- A score that is no number, for a key that is not there. -/
noncomputable def misscore : Request :=
  .still 7 0 [text "ZINCRBY", text "k", text "x", text "m"]
    ⟨by decide, by decide⟩

theorem misscore_counted : KeepsCount misscore (start {} none) := by
  constructor
  · intro name between handler named routed found
    cases named
    cases found
    cases routed
    have counted : (zincrby misscore.command.arguments 0).Along
        (machine misscore.world.here)
        (fun op db => Accounted misscore.world.here db op)
        { (start {} none).db with
          dispatched := (start {} none).db.dispatched ++
            [⟨0, misscore.command, writeFlag (text "zincrby")⟩] } := by
      refine And.intro ?_ fun _ _ _ => trivial
      -- nothing is evicted where memory is not limited
      intro _ done middle evicted
      cases evicted
      exact ⟨rfl, fun other gone _ _ => gone⟩
    exact counted
  · intro name after named routed
    cases named
    cases (route_exec routed).1

/-- The Nil that is left behind is counted. -/
theorem memory_accounted_nil :
    ∃ server, Runs (Steps KeepsCount) (start {} none) [misscore] server ∧
      server.db.usedMemory = 25 ∧
      server.db.value (0, text "k") = some .nil ∧
      ∃ stored : Finset Slot,
        (∀ slot, slot ∈ stored ↔ server.db.value slot ≠ none) ∧
        server.db.usedMemory =
          stored.sum (weightAt slotSize server.db.value) := by
  have ran : ((start {} none).step misscore).map (fun result =>
      (result.2.db.usedMemory, result.2.db.value (0, text "k"))) =
        some (25, some .nil) := by
    rfl
  obtain ⟨⟨answer, server⟩, stepped, left⟩ := Option.map_eq_some_iff.mp ran
  obtain ⟨used, isNil⟩ := Prod.mk.inj left
  have run : Runs (Steps KeepsCount) (start {} none) [misscore] server :=
    .next ⟨misscore_counted, answer, stepped⟩ (.done server)
  exact ⟨server, run, used, isNil,
    memory_accounted.2 (memory_accounted.1 {} none) run⟩

/-- A key is created and gets a value. -/
noncomputable def setFirst : Request :=
  .still 7 0 [text "SET", text "k", text "v"] Request.set_withinLimits

/-- Only the Nil that a key is created with is counted, not the value that
replaces it. -/
theorem memory_not_accounted :
    ¬∀ (config : Config) (aof : Option Bytes) (requests : List Request)
      (server : Server), Runs AnyStep (start config aof) requests server →
      Accounts server.db := by
  intro accounted
  have ran : ((start {} none).step setFirst).map (fun result =>
      (result.2.db.usedMemory,
        weightAt slotSize result.2.db.value (0, text "k"))) =
        some (25, 34) := by
    rfl
  obtain ⟨⟨answer, server⟩, stepped, left⟩ := Option.map_eq_some_iff.mp ran
  obtain ⟨used, weight⟩ := Prod.mk.inj left
  have run : Runs AnyStep (start {} none) [setFirst] server :=
    .next ⟨trivial, answer, stepped⟩ (.done server)
  have le := (accounted _ _ _ server run).le (0, text "k")
  rw [used, weight] at le
  exact absurd le (by decide)

end Server

end

end RedVector
