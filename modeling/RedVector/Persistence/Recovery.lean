import RedVector.Command.Reissue
import RedVector.Persistence.Loading

/-!
# Recovery

What a file of commands does to the database when it is loaded, in whatever
pieces it is read and wherever it was cut off.
-/

namespace RedVector

open Util

section

variable [Platform]

namespace Loading

open Session

/-! ## Following the file -/

/-- The file holds commands and what is left of one more.  Those in `rest` are
still to be executed; the buffer was started anew in front of `kept`. -/
structure Follows (aof : Aof) (commands : List (List Bytes)) (tail : Bytes)
    (rest : List (List Bytes)) (loading : Loading) : Prop where
  wellFormed : loading.parser.WellFormed
  file : loading.aof = { aof with offset := loading.aof.offset }
  pending : loading.parser.rest ++ loading.unread = stream rest ++ tail
  within : loading.aof.offset ≤ aof.contents.length
  suffix : rest <:+ commands
  place : ∃ kept, kept <:+ commands ∧
    loading.parser.position + (stream rest).length = (stream kept).length

variable {aof : Aof} {commands rest : List (List Bytes)} {tail : Bytes}
  {loading : Loading}

omit [Platform] in
theorem stream_cons (first : List Bytes) (others : List (List Bytes)) :
    stream (first :: others) = Parser.encode first ++ stream others :=
  rfl

omit [Platform] in
/-- A buffer that is started anew is behind everything that was executed. -/
theorem allocate_position (parser : Parser) :
    parser.allocate.position = parser.position ∨
      parser.allocate.position = 0 ∧ parser.written = parser.position := by
  unfold Parser.allocate
  split
  · rename_i consumed
    exact .inr ⟨rfl, consumed.2⟩
  · exact .inl rfl

theorem Follows.fetch
    (follows : Follows aof commands tail rest loading)
    (sizes : Nat → Nat) :
    Follows aof commands tail rest (loading.fetch sizes).2 := by
  obtain ⟨formed, behind, moved, -⟩ := fetch_spec sizes follows.wellFormed
  have sameContents : loading.aof.contents = aof.contents := by
    rw [follows.file]
  refine ⟨formed, ?_, ?_, ?_, follows.suffix, ?_⟩
  · exact congrArg (fun file : Aof =>
      { file with offset := (loading.fetch sizes).2.aof.offset })
      follows.file
  · rw [behind, List.append_assoc, moved]
    exact follows.pending
  · have lengths := congrArg List.length moved
    have before : loading.unread.length =
        aof.contents.length - loading.aof.offset := by
      rw [unread, List.length_drop, sameContents]
    have within := follows.within
    have offset : (loading.fetch sizes).2.aof.offset =
        loading.aof.offset + (loading.fetch sizes).1.length := rfl
    simp only [List.length_append] at lengths
    omega
  · obtain ⟨kept, suffix, place⟩ := follows.place
    obtain same | ⟨zero, consumed⟩ := allocate_position loading.parser
    · refine ⟨kept, suffix, ?_⟩
      show loading.parser.allocate.position + _ = _
      rw [same]
      exact place
    · refine ⟨rest, follows.suffix, ?_⟩
      show loading.parser.allocate.position + _ = _
      rw [zero, Nat.zero_add]

theorem Follows.advance
    {first : List Bytes} {others : List (List Bytes)} {after : Bytes}
    {parsed : ParsedCommand}
    (follows : Follows aof commands tail (first :: others) loading)
    (isRest : loading.parser.rest = Parser.encode first ++ after)
    (pending : after ++ loading.unread = stream others ++ tail)
    (found : parse loading.parser.rest =
      some (.ok (parsed, (Parser.encode first).length)))
    (outcome : Outcome) :
    Follows aof commands tail others
      (loading.advance (Parser.encode first).length outcome) := by
  obtain ⟨formed, dropped, -⟩ :=
    advance_spec follows.wellFormed found outcome
  refine ⟨formed, follows.file, ?_, follows.within,
    (List.suffix_cons first others).trans follows.suffix, ?_⟩
  · rw [dropped, isRest, List.drop_left]
    exact pending
  · obtain ⟨kept, suffix, place⟩ := follows.place
    refine ⟨kept, suffix, ?_⟩
    rw [stream_cons, List.length_append] at place
    show loading.parser.position + _ + _ = _
    omega

/-- The beginning of a command that was cut off. -/
structure CutOff (tail : Bytes) : Prop where
  short : ∀ part more, part ++ more = tail →
    parse part = some (.error .incomplete)

theorem cutOff_of
    {last : List Bytes} {missing : Bytes}
    (limits : Parser.WithinLimits last)
    (cut : tail ++ missing = Parser.encode last) (misses : missing ≠ []) :
    CutOff tail := by
  refine ⟨fun part more whole => ?_⟩
  rw [← whole, List.append_assoc] at cut
  exact parse_cut limits cut (by simp [misses])

theorem cutOff_nil : CutOff [] := by
  refine ⟨fun part more whole => ?_⟩
  rw [(List.append_eq_nil_iff.mp whole).1]
  rfl

/-- Either the buffer needs more data, and there is more unless every command
was executed, or it starts with the command whose turn it is. -/
theorem Follows.turn
    (limits : ∀ command ∈ commands, Parser.WithinLimits command)
    (cutOff : CutOff tail)
    (follows : Follows aof commands tail rest loading) :
    (parse loading.parser.rest = some (.error .incomplete) ∧
        (loading.unread = [] → rest = [])) ∨
      ∃ first others parsed, rest = first :: others ∧
        parsed.arguments = first ∧
        parse loading.parser.rest =
          some (.ok (parsed, (Parser.encode first).length)) ∧
        ∀ outcome, Follows aof commands tail others
          (loading.advance (Parser.encode first).length outcome) := by
  cases rest with
  | nil => exact .inl ⟨cutOff.short _ _ follows.pending, fun _ => rfl⟩
  | cons first others =>
      have ownLimits : Parser.WithinLimits first :=
        limits first (follows.suffix.subset List.mem_cons_self)
      have whole : loading.parser.rest ++ loading.unread =
          Parser.encode first ++ (stream others ++ tail) := by
        rw [follows.pending, stream_cons, List.append_assoc]
      obtain ⟨more, short⟩ | ⟨after, pending, isRest⟩ :=
        parse_front ownLimits whole
      · exact .inl ⟨short, fun read => absurd read more⟩
      · have found := parse_encode ownLimits after
        rw [← isRest] at found
        exact .inr ⟨first, others, _, rfl,
          ParsedCommand.encoded_arguments ownLimits, found,
          follows.advance isRest pending found⟩

/-! ## The end of the file -/

/-- The file once it was loaded.  What was cut off is gone, and with it
whatever was executed before the buffer was started anew. -/
def recovered (aof : Aof) (tail : Bytes) (kept : List (List Bytes)) : Aof :=
  if tail = [] then { aof with offset := aof.contents.length }
  else
    { aof with
      contents := aof.contents.take (stream kept).length
      offset := (stream kept).length }

/-- How the loop ends once the commands were executed, or panicked. -/
inductive Recovers (aof : Aof) (tail : Bytes) (kept : List (List Bytes)) :
    Option (List Response × Database × Client) → Option Round → Prop where
  | panics : Recovers aof tail kept none none
  | exits {replies : List Response} {db : Database} {client : Client}
      (cut : tail ≠ [])
      (refused : db.config.aofLoadTruncated = false) :
      Recovers aof tail kept (some (replies, db, client)) (some .exits)
  | ended (replies : List Response) (loading : Loading)
      (accepted : tail = [] ∨ loading.db.config.aofLoadTruncated = true)
      (file : loading.aof = recovered aof tail kept) :
      Recovers aof tail kept (some (replies, loading.db, loading.client))
        (some (.ended loading))

theorem Recovers.prepend
    {kept : List (List Bytes)} {result : Option Round}
    {executed : Option (List Response × Database × Client)}
    (reply : Response) (recovers : Recovers aof tail kept executed result) :
    Recovers aof tail kept
      (executed.map fun ended => (reply :: ended.1, ended.2)) result := by
  cases recovers with
  | panics => exact .panics
  | exits cut refused => exact .exits cut refused
  | ended replies loading accepted file =>
      exact .ended (reply :: replies) loading accepted file

/-- The loop does not go on after the end. -/
theorem Recovers.resume
    {kept : List (List Bytes)} {round : Round}
    {executed : Option (List Response × Database × Client)}
    (go : Loading → Option Round)
    (recovers : Recovers aof tail kept executed (some round)) :
    round.resume go = some round := by
  cases recovers with
  | exits cut refused => rfl
  | ended replies loading accepted file => rfl

/-- How loading ends once the commands were executed, if the file may have
been cut off inside of one more. -/
def settle (cut : Bool) (aof : Aof)
    (executed : List Response × Database × Client) : Load :=
  if (cut || executed.2.2.multi) && !executed.2.1.config.aofLoadTruncated then
    .exited
  else
    .loaded { executed.2.1 with aof := some aof, loading := false }

/-- What loading makes of the end of the loop. -/
theorem Recovers.result
    {kept : List (List Bytes)} {round : Option Round}
    {executed : Option (List Response × Database × Client)}
    (recovers : Recovers aof tail kept executed round) :
    round.map Round.result =
      executed.map (settle (!tail.isEmpty) (recovered aof tail kept)) := by
  cases recovers with
  | panics => rfl
  | exits cut refused => simp [Round.result, settle, cut, refused]
  | ended replies loading accepted file =>
      simp only [Option.map_some, Round.result, close, settle, file]
      obtain whole | allowed := accepted
      · simp [whole]
      · simp [allowed]

/-- The last round. -/
theorem Follows.finish
    (contents : aof.contents = stream commands ++ tail)
    (follows : Follows aof commands tail [] loading)
    (read : loading.unread = []) :
    ∃ kept, kept <:+ commands ∧
      Recovers aof tail kept (some ([], loading.db, loading.client))
        (some loading.finish) := by
  obtain ⟨kept, suffix, place⟩ := follows.place
  have rest : loading.parser.rest = tail := by
    have pending := follows.pending
    rw [read, List.append_nil] at pending
    exact pending
  have length := follows.wellFormed.rest_length
  have position : loading.parser.position = (stream kept).length := place
  rw [rest] at length
  refine ⟨kept, suffix, ?_⟩
  unfold Loading.finish
  have ordered := follows.wellFormed.position
  by_cases empty : tail = []
  · rw [empty] at length
    rw [if_neg (by simp only [List.length_nil] at length; omega)]
    refine .ended [] loading (.inl empty) ?_
    have all : loading.aof.offset = aof.contents.length := by
      have within := follows.within
      have past := List.drop_eq_nil_iff.mp read
      rw [follows.file] at past
      exact Nat.le_antisymm within past
    rw [follows.file, all, recovered, if_pos empty]
  · have some' := List.length_pos_iff.mpr empty
    rw [if_pos (by omega)]
    cases allowed : loading.db.config.aofLoadTruncated with
    | false => exact .exits empty allowed
    | true =>
        have inside : (stream kept).length ≤ aof.contents.length := by
          obtain ⟨before, whole⟩ := suffix
          rw [contents, ← whole]
          simp only [stream, List.flatMap_append, List.length_append]
          omega
        refine .ended []
          { loading with
            aof := loading.aof.truncate loading.parser.position }
          (.inr allowed) ?_
        show loading.aof.truncate loading.parser.position = _
        rw [recovered, if_neg empty, position, follows.file]
        simp only [Aof.truncate, Nat.sub_eq_zero_of_le inside,
          List.replicate_zero, List.append_nil]

/-! ## The rounds -/

/-- Executing what comes first, with the commands that are still to come. -/
theorem execAll_next
    {worlds : Nat → World} {parsed : ParsedCommand}
    {later : List ParsedCommand} {position : Nat} {db : Database}
    {client : Client} {outcome : Outcome} {reply : Response}
    (ran : command (worlds position) parsed db client = some outcome)
    (answered : outcome.answer = .ok reply) :
    Command.execAll (fun place => command (worlds place)) position
        (parsed :: later) db client =
      (Command.execAll (fun place => command (worlds place)) (position + 1)
        later outcome.db outcome.client).map
          fun ended => (reply :: ended.1, ended.2) := by
  simp only [Command.execAll, ran, answered, Option.bind_eq_bind,
    Option.bind_some, Option.pure_def]
  cases Command.execAll (fun place => command (worlds place)) (position + 1)
      later outcome.db outcome.client with
  | none => rfl
  | some ended => rfl

/-- The commands that are left are executed in turn, and then the loop
ends. -/
def Recovering (worlds : Nat → World) (aof : Aof)
    (commands : List (List Bytes)) (tail : Bytes) (rest : List (List Bytes))
    (loading : Loading) (result : Option Round) : Prop :=
  ∃ parsed kept, parsed.map ParsedCommand.arguments = rest ∧
    kept <:+ commands ∧
    Recovers aof tail kept
      (Command.execAll (fun place => command (worlds place))
        loading.executed parsed loading.db loading.client) result

/-- A command is executed, and what follows it. -/
theorem execute_recovering
    {worlds : Nat → World} {first : List Bytes} {others : List (List Bytes)}
    {parsed : ParsedCommand} {length : Nat} {go : Loading → Option Round}
    (wellFormed : loading.parser.WellFormed)
    (arguments : parsed.arguments = first)
    (found : parse loading.parser.rest = some (.ok (parsed, length)))
    (later : ∀ outcome, Recovering worlds aof commands tail others
      (loading.advance length outcome) (go (loading.advance length outcome))) :
    Recovering worlds aof commands tail (first :: others) loading
      ((loading.execute worlds).bind (Round.resume go)) := by
  -- the arguments of commands that are not reached
  have unreached : (parsed :: others.map Wait.ownedCommand).map
      ParsedCommand.arguments = first :: others := by
    have same : ParsedCommand.arguments ∘ Wait.ownedCommand = id :=
      funext Wait.ownedCommand_arguments
    rw [List.map_cons, arguments, List.map_map, same, List.map_id]
  rw [execute_next wellFormed found]
  cases ran : command (worlds loading.executed) parsed loading.db
      loading.client with
  | none =>
      refine ⟨_, commands, unreached, List.suffix_refl _, ?_⟩
      simp only [Command.execAll, ran, Option.bind_eq_bind,
        Option.bind_none]
      exact .panics
  | some outcome =>
      cases answered : outcome.answer with
      | error error =>
          refine ⟨_, commands, unreached, List.suffix_refl _, ?_⟩
          simp only [Command.execAll, ran, answered, Option.bind_eq_bind,
            Option.bind_some, Except.toOption, Option.map_none,
            Option.bind_none]
          exact .panics
      | ok reply =>
          obtain ⟨rest, kept, same, suffix, recovers⟩ := later outcome
          refine ⟨parsed :: rest, kept, ?_, suffix, ?_⟩
          · rw [List.map_cons, arguments, same]
          · rw [execAll_next ran answered]
            simp only [answered, Option.bind_some, Except.toOption,
              Option.map_some, Round.resume]
            exact recovers.prepend reply

/-- From any state that follows the file, by induction on the rounds. -/
theorem rounds_recovering
    {sizes : Nat → Nat} {worlds : Nat → World} {fuel : Nat}
    (limits : ∀ command ∈ commands, Parser.WithinLimits command)
    (cutOff : CutOff tail)
    (contents : aof.contents = stream commands ++ tail)
    (follows : Follows aof commands tail rest loading)
    (enough : loading.work < fuel) :
    Recovering worlds aof commands tail rest loading
      (loading.rounds sizes worlds fuel) := by
  induction fuel generalizing loading rest with
  | zero => omega
  | succ fuel ih =>
      show Recovering worlds aof commands tail rest loading
        ((loading.round sizes worlds).bind
          (Round.resume (rounds sizes worlds fuel)))
      -- a state whose turn it is to execute a command
      have executes : ∀ {state : Loading} {first : List Bytes}
          {others : List (List Bytes)} {parsed : ParsedCommand},
          state.work ≤ fuel → state.parser.WellFormed →
          parsed.arguments = first →
          parse state.parser.rest =
            some (.ok (parsed, (Parser.encode first).length)) →
          (∀ outcome, Follows aof commands tail others
            (state.advance (Parser.encode first).length outcome)) →
          Recovering worlds aof commands tail (first :: others) state
            ((state.execute worlds).bind
              (Round.resume (rounds sizes worlds fuel))) := by
        intro state first others parsed few wellFormed arguments found later
        refine execute_recovering wellFormed arguments found ?_
        intro outcome
        have less := (advance_spec wellFormed found outcome).2.2
        exact ih (later outcome) (by omega)
      obtain ⟨short, all⟩ | ⟨first, others, parsed, rfl, arguments, found,
          later⟩ := follows.turn limits cutOff
      · rw [round_read follows.wellFormed short]
        have fetched := follows.fetch sizes
        by_cases nothing : (loading.fetch sizes).1 = []
        · have read :=
            (fetch_spec sizes follows.wellFormed).2.2.2 nothing
          cases all read
          have stillRead : (loading.fetch sizes).2.unread = [] := by
            have moved := (fetch_spec sizes follows.wellFormed).2.2.1
            rw [read, nothing] at moved
            exact moved
          obtain ⟨kept, suffix, recovers⟩ :=
            fetched.finish contents stillRead
          refine ⟨[], kept, rfl, suffix, ?_⟩
          rw [if_pos nothing, Option.bind_some, recovers.resume]
          exact recovers
        · rw [if_neg nothing]
          have less := fetch_work sizes follows.wellFormed nothing
          obtain ⟨shortStill, -⟩ | ⟨first, others, parsed, rfl, arguments,
              found, later⟩ := fetched.turn limits cutOff
          · rw [execute_short fetched.wellFormed shortStill]
            exact ih fetched (by omega)
          · exact executes (by omega) fetched.wellFormed arguments found
              later
      · rw [round_next follows.wellFormed found]
        exact executes (by omega) follows.wellFormed arguments found later

end Loading

section

variable {commands : List (List Bytes)} {tail : Bytes} {aof : Aof}
  {db : Database}
  (limits : ∀ command ∈ commands, Parser.WithinLimits command)
  (enabled : db.aof = some aof)
  (contents : aof.contents = Session.stream commands ++ tail)
  (unread : aof.offset = 0) (sizes : Nat → Nat) (worlds : Nat → World)

include limits enabled contents unread

/-- A file of commands and the beginning of one more. -/
theorem load_stream (cutOff : Loading.CutOff tail) :
    ∃ parsed kept, parsed.map ParsedCommand.arguments = commands ∧
      kept <:+ commands ∧
      Aof.load sizes worlds db =
        (Command.execAll (fun place => command (worlds place)) 0 parsed
          { db with aof := none, loading := true } (Client.new 0)).map
            (Loading.settle (!tail.isEmpty)
              (Loading.recovered aof tail kept)) := by
  have start : Loading.Follows aof commands tail commands
      (Loading.start aof db) := by
    refine ⟨Parser.new_wellFormed, rfl, ?_, ?_, List.suffix_refl _,
      commands, List.suffix_refl _, Nat.zero_add _⟩
    · show [] ++ aof.contents.drop aof.offset = _
      rw [unread, contents, List.drop_zero, List.nil_append]
    · show aof.offset ≤ _
      rw [unread]
      exact Nat.zero_le _
  obtain ⟨parsed, kept, same, suffix, recovers⟩ :=
    @Loading.rounds_recovering _ _ _ _ _ _ sizes worlds _ limits cutOff
      contents start (Nat.lt_succ_self _)
  refine ⟨parsed, kept, same, suffix, ?_⟩
  have loads : Aof.load sizes worlds db =
      ((Loading.start aof db).rounds sizes worlds
        ((Loading.start aof db).work + 1)).map Loading.Round.result := by
    unfold Aof.load
    rw [enabled]
    rfl
  rw [loads]
  exact recovers.result

/-- Whatever pieces a file is read in, loading executes exactly the commands
that are whole, each once and in order, and panics only where one of them
does.  A command that was cut off, like a MULTI that was not ended, makes the
server exit unless `aof-load-truncated` is set; then the cut command is gone
from the file, and the file is not longer than what was executed. -/
theorem load_recovers {last : List Bytes} {missing : Bytes}
    (lastLimits : Parser.WithinLimits last)
    (cut : tail ++ missing = Parser.encode last) (misses : missing ≠ []) :
    ∃ parsed kept, parsed.map ParsedCommand.arguments = commands ∧
      kept <:+ commands ∧
      Aof.load sizes worlds db =
        (Command.execAll (fun place => command (worlds place)) 0 parsed
          { db with aof := none, loading := true } (Client.new 0)).map
            (Loading.settle (!tail.isEmpty)
              (Loading.recovered aof tail kept)) :=
  load_stream limits enabled contents unread sizes worlds
    (Loading.cutOff_of lastLimits cut misses)

end

/-! ## The file that the server wrote -/

namespace Aof

/-- Writes commands one after the other, each with its database. -/
def log (aof : Aof) (writes : List (Nat × ParsedCommand)) : Aof :=
  writes.foldl (fun aof one => aof.write one.1 one.2) aof

/-- A command of the file: a SELECT in front of a command for another
database, or one of the commands in a buffer that was written. -/
inductive Entry where
  | select (dbindex : Nat)
  | command (arguments : List Bytes)

def Entry.arguments : Entry → List Bytes
  | select dbindex => [text "SELECT", natToString dbindex]
  | command arguments => arguments

/-- What is written for commands whose buffers hold the commands `buffer`, if
`last` was selected last. -/
def entries (buffer : ParsedCommand → List (List Bytes)) :
    Nat → List (Nat × ParsedCommand) → List Entry
  | _, [] => []
  | last, (dbindex, command) :: rest =>
      (if last = dbindex then [] else [.select dbindex]) ++
        (buffer command).map .command ++ entries buffer dbindex rest

omit [Platform] in
theorem selectCommand_eq (dbindex : Nat) :
    selectCommand dbindex =
      Parser.encode (Entry.select dbindex).arguments := by
  have first : text "*2\r\n$6\r\nSELECT\r\n$" =
      42 :: (natToString 2 ++ 13 :: 10 ::
        (Parser.encodeArgument (text "SELECT") ++ [36])) := by
    decide
  have line : text "\r\n" = [13, 10] := by decide
  simp only [selectCommand, first, line, Entry.arguments, Parser.encode,
    Parser.encodeArguments, Parser.encodeArgument, List.flatMap_cons,
    List.flatMap_nil, List.length_cons, List.length_nil, List.append_nil,
    List.cons_append, List.append_assoc, List.nil_append]

omit [Platform] in
theorem writeAll_end {aof : Aof} (atEnd : aof.offset = aof.contents.length)
    (bytes : Bytes) :
    aof.writeAll bytes =
      { aof with
        contents := aof.contents ++ bytes
        offset := (aof.contents ++ bytes).length } := by
  have behind : aof.contents.length ≤
      aof.contents.length + bytes.length := Nat.le_add_right _ _
  simp only [writeAll, atEnd, List.take_length, Nat.sub_self,
    List.replicate_zero, List.append_nil, List.length_append,
    List.drop_of_length_le behind]

omit [Platform] in
/-- What the file holds after commands were written at its end. -/
theorem log_contents
    {buffer : ParsedCommand → List (List Bytes)}
    {writes : List (Nat × ParsedCommand)} {aof : Aof}
    (buffers : ∀ one ∈ writes,
      one.2.data = Session.stream (buffer one.2))
    (atEnd : aof.offset = aof.contents.length) :
    (aof.log writes).contents = aof.contents ++
      Session.stream ((entries buffer aof.dbindex writes).map
        Entry.arguments) := by
  induction writes generalizing aof with
  | nil => simp [log, entries, Session.stream]
  | cons one rest ih =>
      obtain ⟨dbindex, command⟩ := one
      have data := buffers (dbindex, command) List.mem_cons_self
      have commands : (buffer command).map
          (Entry.arguments ∘ Entry.command) = buffer command :=
        List.map_id _
      have others := fun one member =>
        buffers one (List.mem_cons_of_mem (dbindex, command) member)
      -- the file with this command at its end
      have written : (aof.write dbindex command).contents = aof.contents ++
            Session.stream (((if aof.dbindex = dbindex then []
              else [Entry.select dbindex]) ++
                (buffer command).map Entry.command).map Entry.arguments) ∧
          (aof.write dbindex command).offset =
            (aof.write dbindex command).contents.length ∧
          (aof.write dbindex command).dbindex = dbindex := by
        unfold write select
        split
        · rw [writeAll_end atEnd, writeAll_end rfl, data]
          refine ⟨?_, rfl, rfl⟩
          simp only [List.map_append, List.map_map, commands,
            List.map_cons, List.map_nil, Session.stream,
            List.flatMap_append, List.flatMap_cons, List.flatMap_nil,
            List.append_nil, selectCommand_eq, List.append_assoc]
        · rename_i same
          have same : aof.dbindex = dbindex := Decidable.not_not.mp same
          rw [writeAll_end atEnd, data]
          refine ⟨?_, rfl, same⟩
          rw [if_pos same, List.nil_append, List.map_map, commands]
      obtain ⟨contents, atEnd, selected⟩ := written
      show ((aof.write dbindex command).log rest).contents = _
      rw [ih others atEnd, contents, selected]
      simp only [entries, List.map_append, Session.stream,
        List.flatMap_append, List.append_assoc]

end Aof

namespace Aof

omit [Platform] in
/-- The SELECT that is written is short enough to be read back. -/
theorem select_withinLimits
    {dbindex : Nat} (fits : inI64 dbindex = true) :
    Parser.WithinLimits (Entry.select dbindex).arguments := by
  rw [inI64_iff] at fits
  have short : (natToString dbindex).length ≤ 18 + 1 :=
    natToString_length (by omega)
  refine ⟨(by decide : 2 ≤ Parser.maxArguments), ?_⟩
  intro argument member
  unfold Parser.maxArgumentLength
  simp only [Entry.arguments, List.mem_cons, List.not_mem_nil, or_false]
    at member
  obtain rfl | rfl := member
  · decide
  · omega

omit [Platform] in
/-- The commands in a file that the server wrote. -/
theorem mem_entries
    {buffer : ParsedCommand → List (List Bytes)} {entry : Entry}
    {writes : List (Nat × ParsedCommand)} {last : Nat}
    (member : entry ∈ entries buffer last writes) :
    ∃ one ∈ writes, entry = .select one.1 ∨
      ∃ arguments ∈ buffer one.2, entry = .command arguments := by
  induction writes generalizing last with
  | nil => cases member
  | cons one rest ih =>
      obtain ⟨dbindex, command⟩ := one
      simp only [entries, List.mem_append, List.mem_map] at member
      obtain (selected | ⟨arguments, inside, rfl⟩) | later := member
      · refine ⟨_, List.mem_cons_self, .inl ?_⟩
        split at selected
        · cases selected
        · exact List.mem_singleton.mp selected
      · exact ⟨_, List.mem_cons_self, .inr ⟨arguments, inside, rfl⟩⟩
      · obtain ⟨other, among, which⟩ := ih later
        exact ⟨other, List.mem_cons_of_mem _ among, which⟩

end Aof

/-- Loading what the server wrote executes, for each write, the SELECT of its
database if another one was selected last, and then every command that was in
the buffer of the write.  The file stays as it is. -/
theorem load_written
    {buffer : ParsedCommand → List (List Bytes)}
    {writes : List (Nat × ParsedCommand)} {db : Database} {bytes : Bytes}
    (buffers : ∀ one ∈ writes,
      one.2.data = Session.stream (buffer one.2))
    (limits : ∀ one ∈ writes, ∀ arguments ∈ buffer one.2,
      Parser.WithinLimits arguments)
    (indexes : ∀ one ∈ writes, inI64 one.1 = true)
    (written : ((Aof.new []).log writes).contents = bytes)
    (file : db.aof = some (.new bytes))
    (sizes : Nat → Nat) (worlds : Nat → World) :
    ∃ parsed, parsed.map ParsedCommand.arguments =
        (Aof.entries buffer usizeMax writes).map Aof.Entry.arguments ∧
      Aof.load sizes worlds db =
        (Command.execAll (fun place => command (worlds place)) 0 parsed
          { db with aof := none, loading := true } (Client.new 0)).map
            (Loading.settle false
              { Aof.new bytes with offset := bytes.length }) := by
  have within : ∀ command ∈ (Aof.entries buffer usizeMax writes).map
      Aof.Entry.arguments, Parser.WithinLimits command := by
    intro command member
    obtain ⟨entry, listed, rfl⟩ := List.mem_map.mp member
    obtain ⟨one, among, rfl | ⟨arguments, inside, rfl⟩⟩ :=
      Aof.mem_entries listed
    · exact Aof.select_withinLimits (indexes one among)
    · exact limits one among arguments inside
  have contents : (Aof.new bytes).contents =
      Session.stream ((Aof.entries buffer usizeMax writes).map
        Aof.Entry.arguments) ++ [] := by
    rw [List.append_nil]
    exact written.symm.trans (Aof.log_contents buffers rfl)
  obtain ⟨parsed, kept, same, -, loads⟩ :=
    load_stream within file contents rfl sizes worlds Loading.cutOff_nil
  exact ⟨parsed, same, loads⟩

end

/-! ## A file with one command -/

section

attribute [local instance] Platform.integral

namespace Loading

/-- SET of one key. -/
def setArguments : List Bytes := [text "SET", text "k", text "v"]

end Loading

/-- One command and the first byte of another one, read byte by byte. -/
theorem load_recovers_set :
    ∃ parsed kept, parsed.map ParsedCommand.arguments =
        [Loading.setArguments] ∧
      kept <:+ [Loading.setArguments] ∧
      Aof.load (fun _ => 0) (fun _ _ => .still 0)
        (.new { aofLoadTruncated := true }
          (some (Session.stream [Loading.setArguments] ++ [42]))) =
        (Command.execAll (fun _ => command fun _ => .still 0) 0 parsed
          { Database.new { aofLoadTruncated := true } none with
            loading := true } (Client.new 0)).map
            (Loading.settle true (Loading.recovered
              (.new (Session.stream [Loading.setArguments] ++ [42])) [42]
              kept)) := by
  refine @load_recovers _ [Loading.setArguments] [42]
    (.new (Session.stream [Loading.setArguments] ++ [42])) _ ?_ rfl rfl rfl
    _ _ Loading.setArguments (Parser.encode Loading.setArguments).tail
    Request.set_withinLimits rfl ?_
  · intro arguments member
    cases List.mem_singleton.mp member
    exact Request.set_withinLimits
  · exact List.cons_ne_nil _ _

end

end RedVector
