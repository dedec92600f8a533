import RedVector.Command.Asides
import RedVector.Database.Tracking
import RedVector.Server.Server

/-!
# Access times

In a run in which no handler looks a key up for writing that is not there, and
none clears a database that has access times, only stored keys have an access
time in every state.
-/

namespace RedVector

open Util Effect Database Command

section

variable [Platform]

namespace Server

/-- Every operation of the handlers that the request reaches is tidy. -/
def KeepsTidy (request : Request) (server : Server) : Prop :=
  Each (CallsEach Tidy) request.world request.command server.db
    (server.clients request.client)

theorem step_tracks
    {before after : Server} {request : Request} (tracks : Tracks before.db)
    (step : Steps KeepsTidy before request after) : Tracks after.db := by
  obtain ⟨tidy, answer, ran⟩ := step
  obtain ⟨outcome, commandRan, -, rfl⟩ := step_eq_some.mp ran
  have keeps : KeepsEach (CallsEach Tidy) fun db _ => Tracks db :=
    callsEach_keeps
      (asides_of_sameKeys fun same tracks => tracks.congr same.value
        (by unfold Database.stamp; rw [same.keyLru]))
      fun held tidy performed => (perform_tracks_iff held performed).mpr tidy
  exact commandAt_keepsEach keeps tracks tidy commandRan

/-- In a run of tidy operations only stored keys have a stamp, so a key that
is created finds none. -/
theorem stamps_tracked
    {config : Config} {aof : Option Bytes} {requests : List Request}
    {server : Server}
    (run : Runs (Steps KeepsTidy) (start config aof) requests server) :
    ∀ slot, server.db.stamp slot ≠ none → server.db.value slot ≠ none := by
  refine run.invariant (fun server => Tracks server.db) ?_ ?_
  · intro before request after tracks step
    exact step_tracks tracks step
  · exact tracks_new config aof

end Server

end

/-! ## A key that is not there -/

section

attribute [local instance] Platform.integral

namespace Server

/-- A server with an LRU policy. -/
noncomputable def lruServer : Server :=
  start { maxmemoryPolicy := text "allkeys-lru" } none

/-- A key that is not stored is popped from. -/
noncomputable def popMissing : Request :=
  .still 7 0 [text "LPOP", text "k"] ⟨by decide, by decide⟩

/-- Popping from a key that is not there stamps it. -/
theorem stamps_not_tracked :
    ¬∀ (config : Config) (aof : Option Bytes) (requests : List Request)
      (server : Server), Runs AnyStep (start config aof) requests server →
      ∀ slot, server.db.stamp slot ≠ none → server.db.value slot ≠ none := by
  intro tracked
  have ran : (lruServer.step popMissing).map (fun result =>
      (result.2.db.stamp (0, text "k"),
        (result.2.db.value (0, text "k")).isNone)) =
      some (some 7, true) := by
    rfl
  obtain ⟨⟨answer, server⟩, stepped, left⟩ := Option.map_eq_some_iff.mp ran
  obtain ⟨stamped, gone⟩ := Prod.mk.inj left
  have run : Runs AnyStep lruServer [popMissing] server :=
    .next ⟨trivial, answer, stepped⟩ (.done server)
  refine tracked _ _ _ server run (0, text "k") ?_ ?_
  · rw [stamped]
    exact nofun
  · exact Option.isNone_iff_eq_none.mp gone

/-- A key is created. -/
noncomputable def setMissing : Request :=
  .still 7 0 [text "SETNX", text "k", text "v"] ⟨by decide, by decide⟩

theorem setMissing_tidy : KeepsTidy setMissing lruServer := by
  constructor
  · intro name between handler named routed found
    cases named
    cases found
    cases routed
    have tidy : (setnx setMissing.command.arguments 0).Along
        (machine setMissing.world.here)
        (fun op db => Tidy setMissing.world.here db op)
        { lruServer.db with
          dispatched := lruServer.db.dispatched ++
            [⟨0, setMissing.command, writeFlag (text "setnx")⟩] } := by
      refine And.intro trivial ?_
      intro found _ read
      cases read
      refine And.intro trivial ?_
      intro again _ read
      cases read
      -- the key is created, written, updated and announced
      refine And.intro trivial fun _ _ _ => ?_
      refine And.intro trivial fun _ _ _ => ?_
      refine And.intro trivial fun _ _ _ => ?_
      exact And.intro trivial fun _ _ _ => trivial
    exact tidy
  · intro name after named routed
    cases named
    cases (route_exec routed).1

/-- The key that was created has a stamp. -/
theorem stamps_tracked_set :
    ∃ server, Runs (Steps KeepsTidy) lruServer [setMissing] server ∧
      server.db.stamp (0, text "k") = some 7 ∧
      ∀ slot, server.db.stamp slot ≠ none → server.db.value slot ≠ none := by
  have ran : (lruServer.step setMissing).map (fun result =>
      result.2.db.stamp (0, text "k")) = some (some 7) := by
    rfl
  obtain ⟨⟨answer, server⟩, stepped, stamped⟩ :=
    Option.map_eq_some_iff.mp ran
  have run : Runs (Steps KeepsTidy) lruServer [setMissing] server :=
    .next ⟨setMissing_tidy, answer, stepped⟩ (.done server)
  exact ⟨server, run, stamped, stamps_tracked run⟩

end Server

end

end RedVector
