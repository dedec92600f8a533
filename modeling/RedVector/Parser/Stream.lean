import RedVector.Effect.Runs
import RedVector.Parser.Encode

/-!
# The stream parser

A buffer that is filled by reads of any size and that commands are taken
from.  Whatever the reads are, the commands are those of the whole stream.
-/

namespace RedVector

open Util Effect

/-- A stream parser: the bytes from `position` to `written` are to be parsed,
those behind `written` are free. -/
structure Parser where
  data : Bytes
  position : Nat
  written : Nat

namespace Parser

def new : Parser :=
  { data := [], position := 0, written := 0 }

/-- Starts again at the front once everything was parsed, and grows if more
than half of the buffer is written. -/
def allocate (parser : Parser) : Parser :=
  let parser :=
    if 0 < parser.position ∧ parser.written = parser.position then
      { parser with written := 0, position := 0 }
    else parser
  let len := parser.data.length
  let add :=
    if len = 0 then 16
    else if len < parser.written * 2 then len
    else 0
  { parser with data := parser.data ++ List.replicate add 0 }

/-- `&data[position..written]`, which panics out of bounds. -/
def unparsed (parser : Parser) : Option Bytes :=
  if parser.position ≤ parser.written ∧
      parser.written ≤ parser.data.length then
    some ((parser.data.take parser.written).drop parser.position)
  else none

/-- The size of the buffer behind `written`. -/
def free (parser : Parser) : Nat :=
  parser.data.length - parser.written

/-- A read of `chunk` into the free part of the buffer. -/
def fill (parser : Parser) (chunk : Bytes) : Parser :=
  { parser with
    data := parser.data.take parser.written ++ chunk ++
      parser.data.drop (parser.written + chunk.length)
    written := parser.written + chunk.length }

section Parse

variable [Platform]

def isIncomplete (parser : Parser) : Option Bool := do
  match ← parse (← parser.unparsed) with
  | .ok _ => pure false
  | .error error => pure error.isIncomplete

def next (parser : Parser) :
    Option (Except ParseError ParsedCommand × Parser) := do
  match ← parse (← parser.unparsed) with
  | .error error => pure (.error error, parser)
  | .ok (command, len) =>
      pure (.ok command, { parser with position := parser.position + len })

end Parse

/-- The parts of the buffer are in order. -/
structure WellFormed (parser : Parser) : Prop where
  position : parser.position ≤ parser.written
  written : parser.written ≤ parser.data.length

/-- What is to be parsed, of a buffer whose parts are in order. -/
def rest (parser : Parser) : Bytes :=
  (parser.data.take parser.written).drop parser.position

theorem WellFormed.unparsed {parser : Parser}
    (wellFormed : parser.WellFormed) :
    parser.unparsed = some parser.rest :=
  if_pos ⟨wellFormed.position, wellFormed.written⟩

theorem WellFormed.rest_length {parser : Parser}
    (wellFormed : parser.WellFormed) :
    parser.rest.length = parser.written - parser.position := by
  have written := wellFormed.written
  simp only [rest, List.length_drop, List.length_take]
  omega

theorem new_wellFormed : new.WellFormed :=
  ⟨Nat.le_refl 0, Nat.le_refl 0⟩

/-- After growing there is room for a read, and nothing is lost. -/
theorem allocate_spec {parser : Parser} (wellFormed : parser.WellFormed) :
    parser.allocate.WellFormed ∧
      parser.allocate.written < parser.allocate.data.length ∧
      parser.allocate.rest = parser.rest := by
  obtain ⟨position, written⟩ := wellFormed
  -- growing a buffer whose parts are in order
  have grown : ∀ start : Parser, start.position ≤ start.written →
      start.written ≤ start.data.length →
      let after : Parser :=
        { start with
          data := start.data ++ List.replicate
            (if start.data.length = 0 then 16
              else if start.data.length < start.written * 2 then
                start.data.length
              else 0) 0 }
      after.WellFormed ∧ after.written < after.data.length ∧
        after.rest = start.rest := by
    intro start position written
    dsimp only
    refine ⟨⟨position, ?_⟩, ?_, ?_⟩
    · simp only [List.length_append]
      omega
    · simp only [List.length_append, List.length_replicate]
      split
      · omega
      · split
        · omega
        · omega
    · rw [rest, rest, List.take_append_of_le_length written]
  unfold allocate
  split
  · rename_i consumed
    obtain ⟨wellFormed, room, same⟩ :=
      grown { parser with written := 0, position := 0 } (Nat.le_refl 0)
        (Nat.zero_le _)
    refine ⟨wellFormed, room, same.trans ?_⟩
    rw [rest, rest, ← consumed.2, List.take_zero, List.drop_nil,
      List.drop_of_length_le (by simp)]
  · exact grown parser position written

/-- A read into the free part is to be parsed behind the rest. -/
theorem fill_spec {parser : Parser} (wellFormed : parser.WellFormed)
    (chunk : Bytes) :
    (parser.fill chunk).WellFormed ∧
      (parser.fill chunk).rest = parser.rest ++ chunk := by
  obtain ⟨position, written⟩ := wellFormed
  have taken : (parser.data.take parser.written).length =
      parser.written := by
    simp only [List.length_take]
    omega
  refine ⟨⟨Nat.le_add_right_of_le position, ?_⟩, ?_⟩
  · simp only [fill, List.length_append, taken, List.length_drop]
    omega
  · have filled : (parser.data.take parser.written ++ chunk).length =
        parser.written + chunk.length := by
      rw [List.length_append, taken]
    simp only [rest, fill]
    rw [← filled, List.take_left,
      List.drop_append_of_le_length (taken.symm ▸ position)]

variable [Platform]

theorem isIncomplete_eq {parser : Parser} (wellFormed : parser.WellFormed)
    {error : ParseError} (parsed : parse parser.rest = some (.error error)) :
    parser.isIncomplete = some error.isIncomplete := by
  simp [isIncomplete, wellFormed.unparsed, parsed]

/-- Taking a command moves behind it. -/
theorem next_spec {parser : Parser} (wellFormed : parser.WellFormed)
    {command : ParsedCommand} {len : Nat}
    (parsed : parse parser.rest = some (.ok (command, len))) :
    parser.isIncomplete = some false ∧
      ∃ after, parser.next = some (.ok command, after) ∧
        after.WellFormed ∧ after.rest = parser.rest.drop len := by
  refine ⟨by simp [isIncomplete, wellFormed.unparsed, parsed],
    { parser with position := parser.position + len }, ?_, ?_, ?_⟩
  · simp [next, wellFormed.unparsed, parsed]
  · have inside : len ≤ parser.rest.length := parse_length parsed
    rw [wellFormed.rest_length] at inside
    exact ⟨by
      have position := wellFormed.position
      show parser.position + len ≤ parser.written
      omega, wellFormed.written⟩
  · simp only [rest, List.drop_drop]

end Parser

/-! ## Reading a stream -/

/-- A parser that reads a stream, with the commands that were taken. -/
structure Session where
  parser : Parser
  unread : Bytes
  taken : List ParsedCommand

/-- One round of the loop that reads a stream. -/
inductive Reading where
  /-- The stream gives some bytes. -/
  | read (chunk : Bytes)
  /-- A command is taken from the buffer. -/
  | next

namespace Session

variable [Platform]

/-- Nothing has been read of the stream. -/
def new (stream : Bytes) : Session :=
  { parser := .new, unread := stream, taken := [] }

/-- Reads while the buffer holds no command, and takes one when it does. -/
inductive Step : Session → Reading → Session → Prop where
  | read {session : Session} {chunk rest : Bytes}
      (incomplete : session.parser.isIncomplete = some true)
      (nonempty : chunk ≠ [])
      (arrives : session.unread = chunk ++ rest)
      (fits : chunk.length ≤ session.parser.allocate.free) :
      Step session (.read chunk)
        { parser := session.parser.allocate.fill chunk
          unread := rest
          taken := session.taken }
  | next {session : Session} {command : ParsedCommand} {after : Parser}
      (complete : session.parser.isIncomplete = some false)
      (taken : session.parser.next = some (.ok command, after)) :
      Step session .next
        { parser := after
          unread := session.unread
          taken := session.taken ++ [command] }

/-- Parsing a stream that is there as a whole. -/
inductive Parses : Bytes → List (List Bytes) → Prop where
  | done : Parses [] []
  | next {input : Bytes} {command : ParsedCommand} {length : Nat}
      {others : List (List Bytes)}
      (first : parse input = some (.ok (command, length)))
      (rest : Parses (input.drop length) others) :
      Parses input (command.arguments :: others)

/-- A stream of commands. -/
def stream (commands : List (List Bytes)) : Bytes :=
  commands.flatMap Parser.encode

theorem parses_stream
    {commands : List (List Bytes)}
    (limits : ∀ command ∈ commands, Parser.WithinLimits command) :
    Parses (stream commands) commands := by
  induction commands with
  | nil => exact .done
  | cons command others ih =>
      have ownLimits := limits command List.mem_cons_self
      have rest := ih fun other member =>
        limits other (List.mem_cons_of_mem command member)
      have parsed := parse_encode ownLimits (stream others)
      have tail : (stream (command :: others)).drop
          (Parser.encode command).length = stream others := by
        simp [stream]
      have all := Parses.next parsed (tail.symm ▸ rest)
      rwa [ParsedCommand.encoded_arguments] at all

/-- What was taken, and what is still to be parsed, are the commands. -/
structure Tracks (commands : List (List Bytes)) (session : Session) :
    Prop where
  wellFormed : session.parser.WellFormed
  pending : ∃ rest,
    session.taken.map ParsedCommand.arguments ++ rest = commands ∧
      session.parser.rest ++ session.unread = stream rest

omit [Platform] in
theorem new_tracks (commands : List (List Bytes)) :
    Tracks commands (new (stream commands)) :=
  ⟨Parser.new_wellFormed, commands, rfl, rfl⟩

/-- The buffer ends inside the command that comes first, or holds it. -/
theorem parse_front
    {first : List Bytes} {rest unread behind : Bytes}
    (limits : Parser.WithinLimits first)
    (pending : rest ++ unread = Parser.encode first ++ behind) :
    (unread ≠ [] ∧ parse rest = some (.error .incomplete)) ∨
      ∃ after, after ++ unread = behind ∧
        rest = Parser.encode first ++ after := by
  obtain ⟨missing, encoded, -⟩ | ⟨after, rfl, tail⟩ :=
    List.append_eq_append_iff.mp pending
  · by_cases complete : missing = []
    · subst complete
      right
      refine ⟨[], ?_, by simpa using encoded.symm⟩
      rw [encoded] at pending
      simpa using pending
    · left
      refine ⟨?_, parse_cut limits encoded.symm complete⟩
      rintro rfl
      have lengths := congrArg List.length pending
      rw [encoded] at lengths
      simp only [List.length_append, List.length_nil] at lengths
      have positive := List.length_pos_iff.mpr complete
      omega
  · exact .inr ⟨after, tail.symm, rfl⟩

/-- The buffer ends inside the first pending command, or holds it. -/
theorem parse_pending
    {first : List Bytes} {others : List (List Bytes)} {rest unread : Bytes}
    (limits : Parser.WithinLimits first)
    (pending : rest ++ unread = stream (first :: others)) :
    (unread ≠ [] ∧ parse rest = some (.error .incomplete)) ∨
      ∃ after, after ++ unread = stream others ∧
        rest = Parser.encode first ++ after :=
  parse_front limits pending

theorem step_tracks
    {commands : List (List Bytes)} {session after : Session}
    {reading : Reading}
    (limits : ∀ command ∈ commands, Parser.WithinLimits command)
    (tracks : Tracks commands session)
    (step : Step session reading after) : Tracks commands after := by
  obtain ⟨wellFormed, rest, taken, pending⟩ := tracks
  cases step with
  | read incomplete nonempty arrives fits =>
      rename_i chunk unread
      obtain ⟨grown, -, same⟩ := Parser.allocate_spec wellFormed
      obtain ⟨filled, behind⟩ := Parser.fill_spec grown chunk
      refine ⟨filled, rest, taken, ?_⟩
      rw [behind, same, List.append_assoc, ← arrives]
      exact pending
  | next complete next =>
      rename_i command parser
      cases rest with
      | nil =>
          have nothing := (List.append_eq_nil_iff.mp pending).1
          have short : parse session.parser.rest =
              some (.error .incomplete) := by
            rw [nothing]
            rfl
          have stops := Parser.isIncomplete_eq wellFormed short
          cases complete.symm.trans stops
      | cons first others =>
          have ownLimits : Parser.WithinLimits first :=
            limits first (by simp [← taken])
          obtain ⟨-, short⟩ | ⟨tail, pendingTail, isRest⟩ :=
            parse_pending ownLimits pending
          · have stops := Parser.isIncomplete_eq wellFormed short
            cases complete.symm.trans stops
          · have parsed := parse_encode ownLimits tail
            rw [← isRest] at parsed
            obtain ⟨-, other, nextOther, otherFormed, otherRest⟩ :=
              Parser.next_spec wellFormed parsed
            cases next.symm.trans nextOther
            refine ⟨otherFormed, others, ?_, ?_⟩
            · simp only [List.map_append, List.map_cons, List.map_nil,
                ParsedCommand.encoded_arguments, List.append_assoc]
              exact taken
            · rw [otherRest, isRest, List.drop_left]
              exact pendingTail

/-- As long as a command is missing, the loop goes on. -/
theorem goes_on
    {commands : List (List Bytes)} {session : Session}
    (limits : ∀ command ∈ commands, Parser.WithinLimits command)
    (tracks : Tracks commands session)
    (missing : session.taken.map ParsedCommand.arguments ≠ commands) :
    ∃ reading after, Step session reading after := by
  obtain ⟨wellFormed, rest, taken, pending⟩ := tracks
  cases rest with
  | nil => exact absurd (by simpa using taken) missing
  | cons first others =>
      have ownLimits : Parser.WithinLimits first :=
        limits first (by simp [← taken])
      obtain ⟨more, short⟩ | ⟨tail, -, isRest⟩ :=
        parse_pending ownLimits pending
      · obtain ⟨-, room, -⟩ := Parser.allocate_spec wellFormed
        obtain ⟨byte, unread, arrives⟩ := List.exists_cons_of_ne_nil more
        refine ⟨.read [byte], _, .read
          (Parser.isIncomplete_eq wellFormed short) (by simp) arrives ?_⟩
        show 1 ≤ session.parser.allocate.data.length -
          session.parser.allocate.written
        omega
      · have parsed := parse_encode ownLimits tail
        rw [← isRest] at parsed
        obtain ⟨complete, after, next, -⟩ :=
          Parser.next_spec wellFormed parsed
        exact ⟨.next, _, .next complete next⟩

/-- Once all commands were taken, the loop only waits for more. -/
theorem stops
    {commands : List (List Bytes)} {session : Session}
    (tracks : Tracks commands session)
    (all : session.taken.map ParsedCommand.arguments = commands)
    (reading : Reading) (after : Session) : ¬Step session reading after := by
  obtain ⟨wellFormed, rest, taken, pending⟩ := tracks
  have nothing : rest = [] := by
    rw [all] at taken
    simpa using taken
  rw [nothing] at pending
  obtain ⟨parsed, unread⟩ := List.append_eq_nil_iff.mp pending
  intro step
  cases step with
  | read incomplete nonempty arrives fits =>
      rw [unread] at arrives
      exact nonempty (List.append_eq_nil_iff.mp arrives.symm).1
  | next complete next =>
      have short : parse session.parser.rest =
          some (.error .incomplete) := by
        rw [parsed]
        rfl
      have stops := Parser.isIncomplete_eq wellFormed short
      cases complete.symm.trans stops

/-- How many rounds there may still be. -/
def remaining (commands : List (List Bytes)) (session : Session) : Nat :=
  session.unread.length + (commands.length - session.taken.length)

theorem step_remaining
    {commands : List (List Bytes)} {session after : Session}
    {reading : Reading} (tracks : Tracks commands after)
    (step : Step session reading after) :
    after.remaining commands < session.remaining commands := by
  obtain ⟨-, rest, taken, -⟩ := tracks
  have lengths := congrArg List.length taken
  cases step with
  | read incomplete nonempty arrives fits =>
      have positive := List.length_pos_iff.mpr nonempty
      have unread := congrArg List.length arrives
      simp only [List.length_append] at unread
      unfold remaining
      dsimp only
      omega
  | next complete next =>
      simp only [List.length_append, List.length_map, List.length_cons,
        List.length_nil] at lengths
      unfold remaining
      simp only [List.length_append, List.length_cons, List.length_nil]
      omega

theorem run_tracks
    {commands : List (List Bytes)} {session after : Session}
    {readings : List Reading}
    (limits : ∀ command ∈ commands, Parser.WithinLimits command)
    (tracks : Tracks commands session)
    (run : Runs Step session readings after) :
    Tracks commands after ∧
      readings.length + after.remaining commands ≤
        session.remaining commands := by
  induction run with
  | done session => exact ⟨tracks, by simp⟩
  | next first others ih =>
      have between := step_tracks limits tracks first
      have fewer := step_remaining between first
      obtain ⟨holds, bound⟩ := ih between
      refine ⟨holds, ?_⟩
      simp only [List.length_cons]
      omega

/-- However a stream of commands is cut into reads, the commands that are
taken are those of the stream, in order; the loop ends once they all are, and
no sooner; and a read never gets an empty buffer. -/
theorem taken_eq_commands
    {commands : List (List Bytes)}
    (limits : ∀ command ∈ commands, Parser.WithinLimits command) :
    Parses (stream commands) commands ∧
    ∀ (readings : List Reading) (session : Session),
      Runs Step (new (stream commands)) readings session →
      (session.parser.position ≤ session.parser.written ∧
        session.parser.written ≤ session.parser.data.length ∧
        session.parser.allocate.written <
          session.parser.allocate.data.length) ∧
      session.taken.map ParsedCommand.arguments <+: commands ∧
      ((∀ reading after, ¬Step session reading after) ↔
        session.taken.map ParsedCommand.arguments = commands) ∧
      readings.length ≤ (stream commands).length + commands.length := by
  refine ⟨parses_stream limits, ?_⟩
  intro readings session run
  obtain ⟨tracks, bound⟩ := run_tracks limits (new_tracks commands) run
  refine ⟨⟨tracks.wellFormed.position, tracks.wellFormed.written,
    (Parser.allocate_spec tracks.wellFormed).2.1⟩, ?_, ?_, ?_⟩
  · obtain ⟨rest, taken, -⟩ := tracks.pending
    exact ⟨rest, taken⟩
  · constructor
    · intro stuck
      by_contra missing
      obtain ⟨reading, after, step⟩ := goes_on limits tracks missing
      exact stuck reading after step
    · exact stops tracks
  · have start : (new (stream commands)).remaining commands =
        (stream commands).length + commands.length := rfl
    omega

end Session

section

attribute [local instance] Platform.integral

namespace Session

/-- Two commands, in whatever reads they arrive. -/
theorem taken_eq_pings :
    Parses (stream [[text "PING"], [text "GET", text "k"]])
      [[text "PING"], [text "GET", text "k"]] ∧
    ∀ (readings : List Reading) (session : Session),
      Runs Step (new (stream [[text "PING"], [text "GET", text "k"]]))
        readings session →
      (session.parser.position ≤ session.parser.written ∧
        session.parser.written ≤ session.parser.data.length ∧
        session.parser.allocate.written <
          session.parser.allocate.data.length) ∧
      session.taken.map ParsedCommand.arguments <+:
        [[text "PING"], [text "GET", text "k"]] ∧
      ((∀ reading after, ¬Step session reading after) ↔
        session.taken.map ParsedCommand.arguments =
          [[text "PING"], [text "GET", text "k"]]) ∧
      readings.length ≤
        (stream [[text "PING"], [text "GET", text "k"]]).length + 2 := by
  refine taken_eq_commands ?_
  intro command member
  simp only [List.mem_cons, List.not_mem_nil, or_false] at member
  obtain rfl | rfl := member
  · exact ⟨by decide, by decide⟩
  · exact ⟨by decide, by decide⟩

end Session

end

end RedVector
