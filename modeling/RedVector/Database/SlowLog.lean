import Mathlib.Data.List.DropRight
import RedVector.Database.Database

/-!
# The slow log

The log keeps the last entries that were added since it was reset.  Their
numbers count up, and every reset starts them again.
-/

namespace RedVector

open Util

/-- A list that is cut after every addition is as if it were cut at last. -/
theorem rtake_append_rtake
    {α : Type} (limit : Nat) (all : List α) (element : α) :
    (all.rtake limit ++ [element]).rtake limit =
      (all ++ [element]).rtake limit := by
  cases limit with
  | zero => rw [List.rtake_zero, List.rtake_zero]
  | succ limit =>
      rw [List.rtake_concat_succ, List.rtake_concat_succ]
      apply congrArg (· ++ [element])
      rw [List.rtake_eq_reverse_take_reverse,
        List.rtake_eq_reverse_take_reverse, List.reverse_reverse,
        List.take_take, Nat.min_eq_left (Nat.le_succ limit),
        ← List.rtake_eq_reverse_take_reverse]

namespace Database

variable [Platform]

/-! ## Runs -/

/-- What is done with the slow log. -/
inductive SlowLogEvent where
  | add (env : Env) (command : ParsedCommand)
  | get (count : Option Nat)
  | reset

/-- The entry that is added for a command that was slow. -/
def slowlogAdded (env : Env) (db : Database) (command : ParsedCommand) :
    List SlowLogEntry :=
  if 0 < db.config.slowlogLogSlowerThan ∧
      db.config.slowlogLogSlowerThan ≤ env.duration then
    [{ id := db.slowlogId
       timestamp := env.now.tdiv 1000
       duration := env.duration
       command := command.arguments }]
  else []

/-- A database with the entries that were added since the last reset and those
that were ever added, the oldest first. -/
structure SlowLogRun where
  db : Database
  since : List SlowLogEntry
  ever : List SlowLogEntry

namespace SlowLogRun

def start (db : Database) : SlowLogRun :=
  { db := db, since := [], ever := [] }

def after (run : SlowLogRun) : SlowLogEvent → SlowLogRun
  | .add env command =>
      let added := run.db.slowlogAdded env command
      { db := run.db.slowlogAdd env command
        since := run.since ++ added
        ever := run.ever ++ added }
  | .get _ => run
  | .reset => { run with db := run.db.slowlogReset, since := [] }

/-- The log holds the last entries since the reset, which are numbered from
zero on. -/
structure Tracks (limit : Nat) (run : SlowLogRun) : Prop where
  limited : run.db.config.slowlogMaxLen = limit
  log : run.db.slowlog = run.since.rtake limit
  next : run.db.slowlogId = run.since.length
  numbered : run.since.map SlowLogEntry.id = List.range run.since.length
  ever : run.since <:+ run.ever

theorem after_tracks
    {limit : Nat} {run : SlowLogRun} (tracks : Tracks limit run)
    (event : SlowLogEvent) : Tracks limit (run.after event) := by
  cases event with
  | get count => exact tracks
  | reset =>
      exact ⟨tracks.limited, (List.rtake_nil _).symm, rfl, rfl, List.nil_suffix⟩
  | add env command =>
      obtain ⟨limited, log, next, numbered, ever⟩ := tracks
      unfold after slowlogAdd slowlogAdded
      by_cases slow : 0 < run.db.config.slowlogLogSlowerThan ∧
          run.db.config.slowlogLogSlowerThan ≤ env.duration
      · dsimp only
        rw [if_pos slow, if_pos slow]
        constructor
        · exact limited
        · rw [log, limited]
          exact rtake_append_rtake limit run.since _
        · dsimp only
          rw [List.length_append, next, List.length_singleton]
        · rw [List.map_append, numbered, List.length_append, next,
            List.length_singleton, List.range_succ]
          rfl
        · obtain ⟨older, isEver⟩ := ever
          refine ⟨older, ?_⟩
          rw [← isEver, List.append_assoc]
      · dsimp only
        rw [if_neg slow, if_neg slow, List.append_nil, List.append_nil]
        exact ⟨limited, log, next, numbered, ever⟩

theorem run_tracks (config : Config) (aof : Option Bytes)
    (events : List SlowLogEvent) :
    Tracks config.slowlogMaxLen
      (events.foldl after (start (Database.new config aof))) := by
  have general : ∀ run, Tracks config.slowlogMaxLen run →
      Tracks config.slowlogMaxLen (events.foldl after run) := by
    induction events with
    | nil => exact fun run tracks => tracks
    | cons event rest ih =>
        exact fun run tracks => ih _ (after_tracks tracks event)
  exact general _ ⟨rfl, (List.rtake_nil _).symm, rfl, rfl, List.nil_suffix⟩

/-- The last entries that are asked for, the newest first. -/
theorem Tracks.get
    {limit : Nat} {run : SlowLogRun} (tracks : Tracks limit run)
    (count : Option Nat) :
    run.db.slowlogGet count = run.since.reverse.take
      (min (count.getD run.db.slowlog.length) run.db.slowlog.length) := by
  have newest : run.db.slowlog.reverse = run.since.reverse.take limit := by
    rw [tracks.log, List.rtake_eq_reverse_take_reverse, List.reverse_reverse]
  have length : run.db.slowlog.length ≤ limit := by
    have lengths := congrArg List.length newest
    rw [List.length_reverse, List.length_take] at lengths
    omega
  unfold slowlogGet
  generalize count.getD run.db.slowlog.length = count
  rw [List.reverse_drop, newest, List.take_take]
  apply congrArg fun amount => List.take amount run.since.reverse
  omega

/-- In every run the log holds the last of the entries that were added since
the last reset, which have the numbers from zero on, and what is read of it are
the newest entries. -/
theorem slowlog_recent (config : Config) (aof : Option Bytes)
    (events : List SlowLogEvent) :
    let run := events.foldl after (start (Database.new config aof))
    run.db.slowlog = run.since.rtake config.slowlogMaxLen ∧
      (∀ count, run.db.slowlogGet count = run.since.reverse.take
        (min (count.getD run.db.slowlog.length) run.db.slowlog.length)) ∧
      run.since.map SlowLogEntry.id = List.range run.since.length ∧
      run.since <:+ run.ever := by
  have tracks := run_tracks config aof events
  exact ⟨tracks.log, tracks.get, tracks.numbered, tracks.ever⟩

end SlowLogRun

end Database

section

attribute [local instance] Platform.integral

open Database SlowLogRun

/-- A number is given again after a reset. -/
theorem slowlog_repeats :
    ¬∀ (config : Config) (aof : Option Bytes) (events : List SlowLogEvent),
      ((events.foldl after (start (Database.new config aof))).ever.map
        SlowLogEntry.id).Nodup := by
  intro distinct
  let slow : SlowLogEvent :=
    .add { Env.still 0 with duration := 1 } ⟨[], [], nofun⟩
  have repeated := distinct { slowlogLogSlowerThan := 1 } none
    [slow, .reset, slow]
  have numbers : ([slow, .reset, slow].foldl after (start (Database.new
      { slowlogLogSlowerThan := 1 } none))).ever.map SlowLogEntry.id =
        [0, 0] := rfl
  rw [numbers] at repeated
  revert repeated
  decide

end

end RedVector
