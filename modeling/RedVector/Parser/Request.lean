import RedVector.Platform

/-!
# Requests

The parser of the request protocol.  An outer `Option` is there because
reading a negative length runs past the end of its input: `none` is a panic.
-/

namespace RedVector

open Util

/-- A command argument: its position and length in the data. -/
structure Argument where
  pos : Nat
  len : Nat
deriving DecidableEq

inductive ParseError where
  /-- The received buffer is valid but needs more data. -/
  | incomplete
  /-- The received buffer is invalid. -/
  | badProtocol (message : Bytes)
  /-- Expected one type of argument and received another. -/
  | invalidArgument
deriving DecidableEq

namespace ParseError

def isIncomplete : ParseError → Bool
  | incomplete => true
  | _ => false

def responseString : ParseError → Bytes
  | incomplete => text "Incomplete data"
  | badProtocol message => text "Protocol error: " ++ message
  | invalidArgument => text "Invalid argument"

end ParseError

/-- The buffer that a command was parsed from and where its arguments are.
The buffer may go on after the command. -/
structure ParsedCommand where
  data : Bytes
  argv : List Argument
  inBounds : ∀ argument ∈ argv, argument.pos + argument.len ≤ data.length

namespace ParsedCommand

/-- The bytes of an argument. -/
def slice (data : Bytes) (argument : Argument) : Bytes :=
  (data.drop argument.pos).take argument.len

/-- The argument vector. -/
def arguments (command : ParsedCommand) : List Bytes :=
  command.argv.map (slice command.data)

end ParsedCommand

namespace Parser

/-- `byte as char` in a text. -/
def showChar (byte : UInt8) : Bytes :=
  let lead : UInt8 := 192 + (byte >>> (6 : UInt8))
  let second : UInt8 := 128 + (byte &&& (63 : UInt8))
  if byte < 128 then [byte] else [lead, second]

def separatorError (byte : UInt8) : ParseError :=
  .badProtocol (text "expected \\r\\n separator, got \\r" ++ showChar byte)

section ParseInt

variable [Platform]

/-- Reads digits up to a carriage return.  `argc` is the number read so far
and `argco` whether there is one; the result also counts what was read. -/
def parseDigits (name : Bytes) :
    Bytes → Nat → Option Nat → Nat →
      Option (Except ParseError (Option Nat × Nat × Bytes))
  | [], _, _, _ => some (.error .incomplete)
  | next :: rest, argc, argco, count =>
      if next = 13 then some (.ok (argco, count, rest))
      else if argc = 0 ∧ next = 45 then
        let skipped := rest.takeWhile (· ≠ 13)
        match rest.dropWhile (· ≠ 13) with
        | [] => none
        | _ :: rest => some (.ok (none, count + 1 + skipped.length, rest))
      else if isDigit next then do
        let argc ← usize ((argc : Int) * 10)
        let argc ← usize (argc + (next.toNat - 48 : Nat))
        parseDigits name rest argc (some argc) (count + 1)
      else
        some (.error
          (.badProtocol (text "invalid " ++ name ++ text " length")))

/-- Parses the length in front of an argument.  The result is the length, how
many bytes it takes and what follows it. -/
def parseInt (input name : Bytes) :
    Option (Except ParseError (Option Nat × Nat × Bytes)) := do
  match ← parseDigits name input 0 none 0 with
  | .error error => pure (.error error)
  | .ok (_, _, []) => pure (.error .incomplete)
  | .ok (argco, count, next :: rest) =>
      if next = 10 then pure (.ok (argco, count + 2, rest))
      else pure (.error (separatorError next))

end ParseInt

/-- Skips blank lines; the result also counts what was skipped. -/
def skipBlankLines : Bytes → Nat → Except ParseError (Bytes × Nat)
  | 13 :: 10 :: rest, pos => skipBlankLines rest (pos + 2)
  | [13], _ => .error .incomplete
  | 13 :: next :: _, _ => .error (separatorError next)
  | input, pos => .ok (input, pos)

def maxArguments : Nat := 1024 * 1024
def maxArgumentLength : Nat := 512 * 1024 * 1024

section ParseArguments

variable [Platform]

/-- Parses the remaining arguments from position `pos` on. -/
def parseArguments : Nat → Bytes → Nat →
    Option (Except ParseError (List Argument × Nat))
  | 0, _, pos => some (.ok ([], pos))
  | remaining + 1, input, pos =>
      match input with
      | [] => some (.error .incomplete)
      | first :: input =>
          if first ≠ 36 then
            some (.error (.badProtocol
              (text "expected '$', got '" ++ showChar first ++ text "'")))
          else do
            match ← parseInt input (text "bulk") with
            | .error error => pure (.error error)
            | .ok (none, _, _) =>
                pure (.error (.badProtocol (text "invalid bulk length")))
            | .ok (some arglen, arglenlen, input) =>
                if maxArgumentLength < arglen then
                  pure (.error (.badProtocol (text "invalid bulk length")))
                else if input.length < arglen + 2 ∨
                    (input.length = arglen + 2 ∧ remaining ≠ 0) then
                  pure (.error .incomplete)
                else
                  let start := pos + 1 + arglenlen
                  match ← parseArguments remaining (input.drop (arglen + 2))
                      (start + arglen + 2) with
                  | .error error => pure (.error error)
                  | .ok (argv, stop) =>
                      pure (.ok (⟨start, arglen⟩ :: argv, stop))

/-- Where the arguments of the command at the front of `input` are and how
long the command is. -/
def parseArgv (input : Bytes) :
    Option (Except ParseError (List Argument × Nat)) :=
  match skipBlankLines input 0 with
  | .error error => some (.error error)
  | .ok ([], _) => some (.error .incomplete)
  | .ok (first :: rest, pos) =>
      if first ≠ 42 then
        some (.error (.badProtocol
          (text "expected '*', got '" ++ showChar first ++ text "'")))
      else do
        match ← parseInt rest (text "multibulk") with
        | .error error => pure (.error error)
        | .ok (argco, intlen, rest) =>
            let argc := argco.getD 0
            if maxArguments < argc then
              pure (.error (.badProtocol (text "invalid multibulk length")))
            else parseArguments argc rest (pos + 1 + intlen)

end ParseArguments

/-! ## Positions

What the parser counts is what it has consumed of its input. -/

theorem skipBlankLines_length
    {input rest : Bytes} {pos stop : Nat}
    (skipped : skipBlankLines input pos = .ok (rest, stop)) :
    stop + rest.length = pos + input.length := by
  fun_induction skipBlankLines input pos with
  | case1 rest' pos ih =>
      have shorter := ih skipped
      simp only [List.length_cons]
      omega
  | case2 => cases skipped
  | case3 => cases skipped
  | case4 input pos =>
      cases skipped
      rfl

section Positions

variable [Platform]

theorem parseDigits_length
    {name input rest : Bytes} {argc count stop : Nat}
    {argco result : Option Nat}
    (parsed : parseDigits name input argc argco count =
      some (.ok (result, stop, rest))) :
    stop + 1 + rest.length = count + input.length := by
  induction input generalizing argc argco count with
  | nil => simp [parseDigits] at parsed
  | cons next tail ih =>
      rw [parseDigits] at parsed
      split at parsed
      · simp only [Option.some.injEq, Except.ok.injEq,
          Prod.mk.injEq] at parsed
        obtain ⟨-, rfl, rfl⟩ := parsed
        simp only [List.length_cons]
        omega
      · split at parsed
        · have parts := List.takeWhile_append_dropWhile
            (p := (· ≠ (13 : UInt8))) (l := tail)
          have lengths := congrArg List.length parts
          split at parsed
          · cases parsed
          · rename_i first after dropped
            simp only [Option.some.injEq, Except.ok.injEq,
              Prod.mk.injEq] at parsed
            obtain ⟨-, rfl, rfl⟩ := parsed
            rw [dropped] at lengths
            simp only [List.length_append, List.length_cons] at lengths ⊢
            omega
        · split at parsed
          · simp only [Option.bind_eq_bind, Option.bind_eq_some_iff]
              at parsed
            obtain ⟨-, -, argc', -, parsed⟩ := parsed
            have shorter := ih parsed
            simp only [List.length_cons]
            omega
          · simp at parsed

theorem parseInt_length
    {input name rest : Bytes} {length : Option Nat} {count : Nat}
    (parsed : parseInt input name = some (.ok (length, count, rest))) :
    count + rest.length = input.length := by
  simp only [parseInt, Option.bind_eq_bind, Option.bind_eq_some_iff] at parsed
  obtain ⟨digits, digitsParsed, parsed⟩ := parsed
  match digits, digitsParsed, parsed with
  | .error error, _, parsed => cases parsed
  | .ok (_, _, []), _, parsed => cases parsed
  | .ok (argco, stop, next :: after), digitsParsed, parsed =>
      have consumed := parseDigits_length digitsParsed
      dsimp only at parsed
      split at parsed
      · simp only [Option.pure_def, Option.some.injEq, Except.ok.injEq,
          Prod.mk.injEq] at parsed
        obtain ⟨-, rfl, rfl⟩ := parsed
        simp only [List.length_cons] at consumed
        omega
      · cases parsed

/-- The arguments lie inside the input, and so does the end of the command. -/
theorem parseArguments_inBounds
    {remaining pos stop : Nat} {input : Bytes} {argv : List Argument}
    (parsed : parseArguments remaining input pos = some (.ok (argv, stop))) :
    (∀ argument ∈ argv,
      argument.pos + argument.len + 2 ≤ pos + input.length) ∧
    pos ≤ stop ∧ stop ≤ pos + input.length := by
  induction remaining generalizing input pos argv stop with
  | zero =>
      simp only [parseArguments, Option.some.injEq, Except.ok.injEq,
        Prod.mk.injEq] at parsed
      obtain ⟨rfl, rfl⟩ := parsed
      simp
  | succ remaining ih =>
      cases input with
      | nil => simp [parseArguments] at parsed
      | cons first input =>
          rw [parseArguments] at parsed
          dsimp only at parsed
          split at parsed
          · simp at parsed
          simp only [Option.bind_eq_bind, Option.bind_eq_some_iff] at parsed
          obtain ⟨length, lengthParsed, parsed⟩ := parsed
          match length, lengthParsed, parsed with
          | .error error, _, parsed => cases parsed
          | .ok (none, _, _), _, parsed => cases parsed
          | .ok (some arglen, arglenlen, after), lengthParsed, parsed =>
              have consumed := parseInt_length lengthParsed
              dsimp only at parsed
              split at parsed
              · cases parsed
              split at parsed
              · cases parsed
              rename_i complete
              simp only [Option.bind_eq_some_iff] at parsed
              obtain ⟨rest, restParsed, parsed⟩ := parsed
              match rest, restParsed, parsed with
              | .error error, _, parsed => cases parsed
              | .ok (argv', stop'), restParsed, parsed =>
                  obtain ⟨inside, low, high⟩ := ih restParsed
                  simp only [Option.pure_def, Option.some.injEq,
                    Except.ok.injEq, Prod.mk.injEq] at parsed
                  obtain ⟨rfl, rfl⟩ := parsed
                  simp only [List.length_drop, List.length_cons,
                    List.mem_cons, forall_eq_or_imp] at *
                  refine ⟨⟨by omega, ?_⟩, by omega, by omega⟩
                  intro argument member
                  have within := inside argument member
                  omega

theorem parseArgv_inBounds
    {input : Bytes} {argv : List Argument} {length : Nat}
    (parsed : parseArgv input = some (.ok (argv, length))) :
    (∀ argument ∈ argv, argument.pos + argument.len ≤ input.length) ∧
    length ≤ input.length := by
  rw [parseArgv] at parsed
  split at parsed
  · simp at parsed
  · simp at parsed
  · rename_i first rest pos skipped
    have start := skipBlankLines_length skipped
    split at parsed
    · simp at parsed
    simp only [Option.bind_eq_bind, Option.bind_eq_some_iff] at parsed
    obtain ⟨count, countParsed, parsed⟩ := parsed
    match count, countParsed, parsed with
    | .error error, _, parsed => cases parsed
    | .ok (argco, intlen, after), countParsed, parsed =>
        have consumed := parseInt_length countParsed
        dsimp only at parsed
        split at parsed
        · cases parsed
        obtain ⟨inside, low, high⟩ := parseArguments_inBounds parsed
        simp only [List.length_cons] at start
        refine ⟨?_, by omega⟩
        intro argument member
        have within := inside argument member
        omega

end Positions

end Parser

/-- Creates a command from a buffer, together with its length there. -/
def parse [Platform] (input : Bytes) :
    Option (Except ParseError (ParsedCommand × Nat)) :=
  match parsed : Parser.parseArgv input with
  | none => none
  | some (.error error) => some (.error error)
  | some (.ok (argv, length)) =>
      some (.ok
        (⟨input, argv, (Parser.parseArgv_inBounds parsed).1⟩, length))

/-- A command has the whole input for its buffer. -/
theorem parse_data [Platform] {input : Bytes} {command : ParsedCommand}
    {length : Nat} (parsed : parse input = some (.ok (command, length))) :
    command.data = input ∧
      Parser.parseArgv input = some (.ok (command.argv, length)) := by
  unfold parse at parsed
  split at parsed
  · cases parsed
  · cases parsed
  · rename_i argv length' argvParsed
    cases parsed
    exact ⟨rfl, argvParsed⟩

/-- A command is not longer than its input. -/
theorem parse_length [Platform] {input : Bytes} {command : ParsedCommand}
    {length : Nat} (parsed : parse input = some (.ok (command, length))) :
    length ≤ input.length :=
  (Parser.parseArgv_inBounds (parse_data parsed).2).2

/-- A command takes at least the byte it starts with. -/
theorem parse_positive [Platform] {input : Bytes} {command : ParsedCommand}
    {length : Nat} (parsed : parse input = some (.ok (command, length))) :
    0 < length := by
  have argvParsed := (parse_data parsed).2
  rw [Parser.parseArgv] at argvParsed
  split at argvParsed
  · cases argvParsed
  · cases argvParsed
  · rename_i first rest pos skipped
    split at argvParsed
    · cases argvParsed
    simp only [Option.bind_eq_bind, Option.bind_eq_some_iff] at argvParsed
    obtain ⟨count, -, argvParsed⟩ := argvParsed
    cases count with
    | error error => cases argvParsed
    | ok counted =>
        obtain ⟨argco, intlen, after⟩ := counted
        dsimp only at argvParsed
        split at argvParsed
        · cases argvParsed
        · have bounds := (Parser.parseArguments_inBounds argvParsed).2.1
          omega

/-!
## Reading arguments

A handler sees a command only through these readers of its argument vector.
-/

abbrev Arguments := List Bytes

namespace Arguments

/-- `get_vec` and `get_slice`. -/
def getVec (argv : Arguments) (pos : Nat) : Except ParseError Bytes :=
  match argv[pos]? with
  | some argument => .ok argument
  | none => .error .invalidArgument

def getStr (argv : Arguments) (pos : Nat) : Except ParseError Bytes := do
  let data ← argv.getVec pos
  if isUtf8 data then pure data else throw .invalidArgument

def getI64 (argv : Arguments) (pos : Nat) : Except ParseError Int := do
  match parseI64 (← argv.getStr pos) with
  | some number => pure number
  | none => throw .invalidArgument

theorem getI64_fits
    {argv : Arguments} {pos : Nat} {number : Int}
    (read : argv.getI64 pos = .ok number) : inI64 number = true := by
  unfold getI64 at read
  cases argument : argv.getStr pos with
  | error error =>
      rw [argument] at read
      cases read
  | ok bytes =>
      rw [argument] at read
      simp only [bind, Except.bind] at read
      split at read
      · rename_i parsed
        cases read
        unfold parseI64 at parsed
        exact (Option.filter_eq_some_iff.mp parsed).2
      · cases read

section Float

variable [Platform]

/-- `parse::<f64>` of a text, NaN excluded. -/
def parseF64 (input : Bytes) : Except ParseError F64 :=
  match Platform.f64Parse input with
  | none => .error .invalidArgument
  | some number =>
      if Platform.f64IsNan number then .error .invalidArgument
      else .ok number

def getF64 (argv : Arguments) (pos : Nat) : Except ParseError F64 := do
  let s ← argv.getStr pos
  if s = text "+inf" ∨ s = text "inf" then pure Platform.f64Infinity
  else if s = text "-inf" then pure Platform.f64NegInfinity
  else parseF64 s

def getF64Bound (argv : Arguments) (pos : Nat) :
    Except ParseError (Bound F64) := do
  let s ← argv.getStr pos
  if s = text "inf" ∨ s = text "+inf" ∨ s = text "-inf" then pure .unbounded
  else
    match s with
    | 40 :: limit => do pure (.excluded (← parseF64 limit))
    | limit => do pure (.included (← parseF64 limit))

/-- A number that is read is not NaN. -/
theorem parseF64_number
    {s : Bytes} {score : F64} (read : parseF64 s = .ok score) :
    Platform.f64IsNan score = false := by
  unfold parseF64 at read
  split at read
  · cases read
  · split at read
    · cases read
    · rename_i number
      cases read
      exact Bool.eq_false_iff.mpr number

theorem getF64_number
    {argv : Arguments} {pos : Nat} {score : F64}
    (read : argv.getF64 pos = .ok score) :
    Platform.f64IsNan score = false := by
  unfold getF64 at read
  cases argument : argv.getStr pos with
  | error error =>
      rw [argument] at read
      cases read
  | ok s =>
      rw [argument] at read
      simp only [bind, Except.bind] at read
      split at read
      · cases read
        exact Platform.f64_infinity_not_nan
      · split at read
        · cases read
          exact Platform.f64_negInfinity_not_nan
        · exact parseF64_number read

end Float

end Arguments

end RedVector
