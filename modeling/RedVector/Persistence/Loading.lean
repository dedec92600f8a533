import RedVector.Command.Queue
import RedVector.Parser.Stream

/-!
# Loading the append only file

At its start the server executes what the file holds, as a client of its own.
The file is read in pieces of any size, and it may end inside of a command.
-/

namespace RedVector

open Util

/-- Reads at the cursor, at most `size` bytes, and moves it behind them. -/
def Aof.read (aof : Aof) (size : Nat) : Bytes × Aof :=
  let bytes := (aof.contents.drop aof.offset).take size
  (bytes, { aof with offset := aof.offset + bytes.length })

variable [Platform]

/-- What the loop of `load` works on. -/
structure Loading where
  parser : Parser
  aof : Aof
  db : Database
  client : Client
  /-- How often the file was read. -/
  reads : Nat
  /-- How many commands were executed. -/
  executed : Nat

/-- What becomes of the loop in one round. -/
inductive Loading.Round where
  | again (loading : Loading)
  | ended (loading : Loading)
  /-- `log_and_exit!` -/
  | exits

/-- How loading ends. -/
inductive Load where
  | loaded (db : Database)
  | exited
  /-- There were not enough rounds. -/
  | unfinished

namespace Loading

/-- Takes a command from the buffer and executes it.  Its answer is
unwrapped. -/
def execute (worlds : Nat → World) (loading : Loading) : Option Round := do
  match ← loading.parser.next with
  | (.error .incomplete, _) => pure (.again loading)
  | (.error (.badProtocol _), _) => pure (.ended loading)
  | (.error .invalidArgument, _) => none
  | (.ok parsed, parser) =>
      let outcome ← command (worlds loading.executed) parsed loading.db
        loading.client
      match outcome.answer with
      | .error _ => none
      | .ok _ =>
          pure (.again { loading with
            parser := parser
            db := outcome.db
            client := outcome.client
            executed := loading.executed + 1 })

/-- What a read gives, which is something if something is left: the number of
bytes is up to the system. -/
def fetch (sizes : Nat → Nat) (loading : Loading) : Bytes × Loading :=
  let parser := loading.parser.allocate
  let (bytes, aof) :=
    loading.aof.read (min (sizes loading.reads + 1) parser.free)
  (bytes,
    { loading with
      parser := parser.fill bytes
      aof := aof
      reads := loading.reads + 1 })

/-- Nothing is left to read.  A command that was cut off is only accepted with
`aof-load-truncated`, and is cut off the file. -/
def finish (loading : Loading) : Round :=
  if loading.parser.position < loading.parser.written then
    if !loading.db.config.aofLoadTruncated then .exits
    else
      .ended { loading with
        aof := loading.aof.truncate loading.parser.position }
  else .ended loading

/-- One round of the loop. -/
def round (sizes : Nat → Nat) (worlds : Nat → World) (loading : Loading) :
    Option Round := do
  if ← loading.parser.isIncomplete then
    let (bytes, loading) := loading.fetch sizes
    if bytes.isEmpty then pure loading.finish
    else loading.execute worlds
  else loading.execute worlds

/-- Goes on, unless the round was the last. -/
def Round.resume (go : Loading → Option Round) : Round → Option Round
  | .again loading => go loading
  | .ended loading => some (.ended loading)
  | .exits => some .exits

/-- At most so many rounds. -/
def rounds (sizes : Nat → Nat) (worlds : Nat → World) :
    Nat → Loading → Option Round
  | 0, loading => some (.again loading)
  | fuel + 1, loading => do
      let next ← loading.round sizes worlds
      next.resume (rounds sizes worlds fuel)

/-- The database works without the file, and the client has no receiver. -/
def start (aof : Aof) (db : Database) : Loading :=
  { parser := .new
    aof := aof
    db := { db with aof := none, loading := true }
    client := .new 0
    reads := 0
    executed := 0 }

/-- What is left to read. -/
def unread (loading : Loading) : Bytes :=
  loading.aof.contents.drop loading.aof.offset

/-- The end of the loop is the end of loading, unless MULTI was not ended. -/
def close (loading : Loading) : Load :=
  if loading.client.multi && !loading.db.config.aofLoadTruncated then .exited
  else
    .loaded { loading.db with aof := some loading.aof, loading := false }

def Round.result : Round → Load
  | .again _ => .unfinished
  | .ended loading => loading.close
  | .exits => .exited

end Loading

/-- `aof::load`.  A round reads a byte or takes a command, so that there are at
most two rounds for each byte. -/
def Aof.load (sizes : Nat → Nat) (worlds : Nat → World) (db : Database) :
    Option Load := do
  let loading := Loading.start (← db.aof) db
  (loading.rounds sizes worlds (2 * loading.unread.length + 1)).map
    Loading.Round.result

namespace Loading

/-! ## A round -/

/-- Reading moves bytes from the file to the buffer. -/
theorem fetch_spec
    (sizes : Nat → Nat) {loading : Loading}
    (wellFormed : loading.parser.WellFormed) :
    (loading.fetch sizes).2.parser.WellFormed ∧
      (loading.fetch sizes).2.parser.rest =
        loading.parser.rest ++ (loading.fetch sizes).1 ∧
      (loading.fetch sizes).1 ++ (loading.fetch sizes).2.unread =
        loading.unread ∧
      ((loading.fetch sizes).1 = [] → loading.unread = []) := by
  obtain ⟨grown, room, same⟩ := Parser.allocate_spec wellFormed
  obtain ⟨filled, behind⟩ :=
    Parser.fill_spec grown (loading.fetch sizes).1
  refine ⟨filled, behind.trans (by rw [same]), ?_, ?_⟩
  · show (loading.unread.take _) ++
        loading.aof.contents.drop (loading.aof.offset + _) = _
    rw [← List.drop_drop]
    show loading.unread.take _ ++
      loading.unread.drop (loading.unread.take _).length = _
    rw [List.length_take]
    rcases Nat.le_total (min (sizes loading.reads + 1)
        loading.parser.allocate.free) loading.unread.length with few | many
    · rw [Nat.min_eq_left few, List.take_append_drop]
    · rw [Nat.min_eq_right many, List.take_of_length_le many,
        List.drop_length, List.append_nil]
  · intro nothing
    obtain none' | empty := List.take_eq_nil_iff.mp nothing
    · exfalso
      have free : loading.parser.allocate.free =
          loading.parser.allocate.data.length -
            loading.parser.allocate.written := rfl
      omega
    · exact empty

/-- A command that is there is taken and executed. -/
theorem round_next
    {sizes : Nat → Nat} {worlds : Nat → World} {loading : Loading}
    (wellFormed : loading.parser.WellFormed)
    {parsed : ParsedCommand} {length : Nat}
    (found : parse loading.parser.rest = some (.ok (parsed, length))) :
    loading.round sizes worlds = loading.execute worlds := by
  obtain ⟨complete, -⟩ := Parser.next_spec wellFormed found
  simp [round, complete]

/-- If a command is missing the file is read. -/
theorem round_read
    {sizes : Nat → Nat} {worlds : Nat → World} {loading : Loading}
    (wellFormed : loading.parser.WellFormed)
    (short : parse loading.parser.rest = some (.error .incomplete)) :
    loading.round sizes worlds =
      if (loading.fetch sizes).1 = [] then
        some (loading.fetch sizes).2.finish
      else (loading.fetch sizes).2.execute worlds := by
  have incomplete := Parser.isIncomplete_eq wellFormed short
  simp [round, incomplete, ParseError.isIncomplete]

theorem execute_short
    {worlds : Nat → World} {loading : Loading}
    (wellFormed : loading.parser.WellFormed)
    (short : parse loading.parser.rest = some (.error .incomplete)) :
    loading.execute worlds = some (.again loading) := by
  simp [execute, Parser.next, wellFormed.unparsed, short]

/-- The state after a command that was executed. -/
def advance (loading : Loading) (length : Nat) (outcome : Outcome) :
    Loading :=
  { loading with
    parser := { loading.parser with
      position := loading.parser.position + length }
    db := outcome.db
    client := outcome.client
    executed := loading.executed + 1 }

/-- The rounds after a command, unless it panics or has no reply. -/
theorem execute_next
    {worlds : Nat → World} {loading : Loading}
    (wellFormed : loading.parser.WellFormed)
    {parsed : ParsedCommand} {length : Nat}
    (found : parse loading.parser.rest = some (.ok (parsed, length))) :
    loading.execute worlds =
      (command (worlds loading.executed) parsed loading.db
        loading.client).bind fun outcome =>
          outcome.answer.toOption.map fun _ =>
            .again (loading.advance length outcome) := by
  simp only [execute, Parser.next, wellFormed.unparsed, found,
    Option.bind_eq_bind, Option.bind_some, Option.pure_def]
  refine congrArg _ (funext fun outcome => ?_)
  cases outcome.answer with
  | error error => rfl
  | ok reply => rfl

/-! ## The end of loading -/

/-- What is left to do.  A read moves a byte from the file to the buffer, and
a command takes one from there. -/
def work (loading : Loading) : Nat :=
  2 * loading.unread.length + loading.parser.rest.length

theorem fetch_work
    (sizes : Nat → Nat) {loading : Loading}
    (wellFormed : loading.parser.WellFormed)
    (something : (loading.fetch sizes).1 ≠ []) :
    (loading.fetch sizes).2.work < loading.work := by
  obtain ⟨-, behind, moved, -⟩ := fetch_spec sizes wellFormed
  have read := congrArg List.length moved
  have buffer := congrArg List.length behind
  have positive := List.length_pos_iff.mpr something
  simp only [List.length_append] at read buffer
  unfold work
  omega

/-- A command that was executed is no longer in the buffer. -/
theorem advance_spec
    {loading : Loading} (wellFormed : loading.parser.WellFormed)
    {parsed : ParsedCommand} {length : Nat}
    (found : parse loading.parser.rest = some (.ok (parsed, length)))
    (outcome : Outcome) :
    (loading.advance length outcome).parser.WellFormed ∧
      (loading.advance length outcome).parser.rest =
        loading.parser.rest.drop length ∧
      (loading.advance length outcome).work < loading.work := by
  obtain ⟨-, after, next, formed, rest⟩ := Parser.next_spec wellFormed found
  have same : after = (loading.advance length outcome).parser := by
    simp only [Parser.next, wellFormed.unparsed, found,
      Option.bind_eq_bind, Option.bind_some, Option.pure_def,
      Option.some.injEq, Prod.mk.injEq] at next
    exact next.2.symm
  subst same
  refine ⟨formed, rest, ?_⟩
  have taken := parse_positive found
  have inside := parse_length found
  have shorter := congrArg List.length rest
  simp only [List.length_drop] at shorter
  have sameUnread : (loading.advance length outcome).unread =
      loading.unread := rfl
  unfold work
  rw [sameUnread]
  omega

/-- Executing a command leaves less to do, if there is one. -/
theorem execute_work
    {worlds : Nat → World} {loading after : Loading}
    (wellFormed : loading.parser.WellFormed)
    (again : loading.execute worlds = some (.again after)) :
    after.parser.WellFormed ∧ (after.work < loading.work ∨
      after = loading ∧ loading.parser.isIncomplete = some true) := by
  cases found : parse loading.parser.rest with
  | none =>
      simp [execute, Parser.next, wellFormed.unparsed, found] at again
  | some result =>
      cases result with
      | error error =>
          cases error with
          | incomplete =>
              rw [execute_short wellFormed found] at again
              cases again
              exact ⟨wellFormed, .inr ⟨rfl,
                Parser.isIncomplete_eq wellFormed found⟩⟩
          | badProtocol message =>
              simp [execute, Parser.next, wellFormed.unparsed, found]
                at again
          | invalidArgument =>
              simp [execute, Parser.next, wellFormed.unparsed, found]
                at again
      | ok result =>
          obtain ⟨parsed, length⟩ := result
          rw [execute_next wellFormed found] at again
          obtain ⟨outcome, -, answered⟩ := Option.bind_eq_some_iff.mp again
          obtain ⟨reply, -, same⟩ := Option.map_eq_some_iff.mp answered
          cases same
          obtain ⟨formed, -, less⟩ := advance_spec wellFormed found outcome
          exact ⟨formed, .inl less⟩

/-- Every round that is not the last has less to do. -/
theorem round_work
    {sizes : Nat → Nat} {worlds : Nat → World} {loading after : Loading}
    (wellFormed : loading.parser.WellFormed)
    (again : loading.round sizes worlds = some (.again after)) :
    after.parser.WellFormed ∧ after.work < loading.work := by
  unfold round at again
  obtain ⟨short, isShort, again⟩ := Option.bind_eq_some_iff.mp again
  cases short with
  | false =>
      obtain ⟨formed, less | ⟨-, other⟩⟩ := execute_work wellFormed again
      · exact ⟨formed, less⟩
      · cases isShort.symm.trans other
  | true =>
      rw [if_pos rfl] at again
      dsimp only at again
      split at again
      · unfold finish at again
        split at again
        · split at again
          · cases again
          · cases again
        · cases again
      · rename_i something
        have less := fetch_work sizes wellFormed (by simpa using something)
        obtain ⟨formed, evenLess | ⟨rfl, -⟩⟩ :=
          execute_work (fetch_spec sizes wellFormed).1 again
        · exact ⟨formed, evenLess.trans less⟩
        · exact ⟨formed, less⟩

/-- There are enough rounds for whatever the file holds. -/
theorem rounds_finish
    {sizes : Nat → Nat} {worlds : Nat → World} {fuel : Nat}
    {loading after : Loading} (wellFormed : loading.parser.WellFormed)
    (enough : loading.work < fuel) :
    loading.rounds sizes worlds fuel ≠ some (.again after) := by
  induction fuel generalizing loading with
  | zero => omega
  | succ fuel ih =>
      intro unfinished
      simp only [rounds, Option.bind_eq_bind, Option.bind_eq_some_iff]
        at unfinished
      obtain ⟨next, ran, unfinished⟩ := unfinished
      cases next with
      | again between =>
          obtain ⟨formed, less⟩ := round_work wellFormed ran
          exact ih formed (by omega) unfinished
      | ended between => cases unfinished
      | exits => cases unfinished

end Loading

/-- Loading ends, whatever bytes the file holds and however they are read. -/
theorem load_finishes
    (sizes : Nat → Nat) (worlds : Nat → World) (db : Database) :
    Aof.load sizes worlds db ≠ some .unfinished := by
  intro unfinished
  simp only [Aof.load, Option.bind_eq_bind, Option.bind_eq_some_iff,
    Option.map_eq_some_iff] at unfinished
  obtain ⟨aof, -, last, ran, unfinished⟩ := unfinished
  cases last with
  | again loading =>
      refine Loading.rounds_finish (Parser.new_wellFormed) ?_ ran
      show 2 * _ + 0 < 2 * _ + 1
      omega
  | ended loading =>
      simp only [Loading.Round.result, Loading.close] at unfinished
      split at unfinished
      · cases unfinished
      · cases unfinished
  | exits => cases unfinished

end RedVector
