import RedVector.Parser.Request

/-!
# Encoded commands

The usual form of a command in the request protocol, and that the parser
reads it back whatever follows it.
-/

namespace RedVector

open Util

namespace Parser

variable [Platform]

/-- What the digits make of the number that was read before them. -/
def readOn (digits : Bytes) (start : Nat) : Nat :=
  digits.foldl (fun value digit => value * 10 + (digit.toNat - 48)) start

omit [Platform] in
theorem le_readOn (digits : Bytes) (start : Nat) :
    start ≤ readOn digits start := by
  induction digits generalizing start with
  | nil => exact Nat.le_refl start
  | cons digit rest ih =>
      have step := ih (start * 10 + (digit.toNat - 48))
      simp only [readOn, List.foldl_cons] at step ⊢
      omega

theorem usize_inRange {number : Nat} (small : number ≤ usizeMax) :
    usize number = some number := by
  simp [usize, small]

/-- Reading one more digit does not overflow if the whole number fits. -/
theorem usize_digit
    {digit : UInt8} {tail : Bytes} {argc : Nat}
    (small : readOn (digit :: tail) argc ≤ usizeMax) :
    usize ((argc : Int) * 10) = some (argc * 10) ∧
      usize ((argc * 10 : Nat) + (digit.toNat - 48 : Nat)) =
        some (argc * 10 + (digit.toNat - 48)) := by
  have below : argc * 10 + (digit.toNat - 48) ≤ usizeMax :=
    (le_readOn tail _).trans small
  refine ⟨?_, ?_⟩
  · have inRange : argc * 10 ≤ usizeMax := by omega
    exact_mod_cast usize_inRange inRange
  · exact_mod_cast usize_inRange below

omit [Platform] in
theorem isDigit_ne {digit : UInt8} (digits : isDigit digit = true) :
    digit ≠ 13 ∧ digit ≠ 45 := by
  constructor
  · rintro rfl
    revert digits
    decide
  · rintro rfl
    revert digits
    decide

/-- Digits up to a carriage return are read as a number. -/
theorem parseDigits_digits
    {digits : Bytes} {argc : Nat} (name rest : Bytes) (argco : Option Nat)
    (count : Nat)
    (allDigits : digits.all isDigit = true)
    (small : readOn digits argc ≤ usizeMax) :
    parseDigits name (digits ++ 13 :: rest) argc argco count =
      some (.ok
        (if digits = [] then argco else some (readOn digits argc),
          count + digits.length, rest)) := by
  induction digits generalizing argc argco count with
  | nil => simp [parseDigits]
  | cons digit tail ih =>
      simp only [List.all_cons, Bool.and_eq_true] at allDigits
      obtain ⟨isDigit, tailDigits⟩ := allDigits
      obtain ⟨notReturn, notMinus⟩ := isDigit_ne isDigit
      obtain ⟨first, second⟩ := usize_digit small
      have others := ih (some (argc * 10 + (digit.toNat - 48)))
        (count + 1) tailDigits small
      rw [List.cons_append, parseDigits]
      simp only [notReturn, notMinus, and_false, isDigit, if_false, if_true,
        first, second, Option.bind_eq_bind, Option.bind_some]
      rw [others]
      by_cases last : tail = []
      · simp [last, readOn]
      · simp [last, readOn]
        omega

/-- Digits without their end are not enough. -/
theorem parseDigits_short
    {digits : Bytes} {argc : Nat} (name : Bytes) (argco : Option Nat)
    (count : Nat)
    (allDigits : digits.all isDigit = true)
    (small : readOn digits argc ≤ usizeMax) :
    parseDigits name digits argc argco count =
      some (.error .incomplete) := by
  induction digits generalizing argc argco count with
  | nil => rfl
  | cons digit tail ih =>
      simp only [List.all_cons, Bool.and_eq_true] at allDigits
      obtain ⟨isDigit, tailDigits⟩ := allDigits
      obtain ⟨notReturn, notMinus⟩ := isDigit_ne isDigit
      obtain ⟨first, second⟩ := usize_digit small
      rw [parseDigits]
      simp only [notReturn, notMinus, and_false, isDigit, if_false, if_true,
        first, second, Option.bind_eq_bind, Option.bind_some]
      exact ih _ _ tailDigits small

/-- A length that was written out is read back. -/
theorem parseInt_natToString
    {number : Nat} (small : number ≤ usizeMax) (rest name : Bytes) :
    parseInt (natToString number ++ 13 :: 10 :: rest) name =
      some (.ok
        (some number, (natToString number).length + 2, rest)) := by
  have value : readOn (natToString number) 0 = number :=
    natToString_value number
  have fits : readOn (natToString number) 0 ≤ usizeMax := by
    rw [value]
    exact small
  have digits := parseDigits_digits name (10 :: rest) none 0
    (natToString_isDigit number) fits
  rw [value] at digits
  simp [parseInt, digits, natToString_ne_nil]

/-- A length that was cut off needs more data. -/
theorem parseInt_cut
    {number : Nat} (small : number ≤ usizeMax) {part more rest : Bytes}
    (name : Bytes)
    (cut : part ++ more = natToString number ++ 13 :: 10 :: rest) :
    parseInt part name = some (.error .incomplete) ∨
      ∃ after, part = natToString number ++ 13 :: 10 :: after ∧
        after ++ more = rest := by
  have allDigits := natToString_isDigit number
  have fits : readOn (natToString number) 0 ≤ usizeMax := by
    rw [show readOn (natToString number) 0 = number from
      natToString_value number]
    exact small
  obtain ⟨missing, digits, -⟩ | ⟨after, rfl, rest'⟩ :=
    List.append_eq_append_iff.mp cut
  · left
    rw [digits, List.all_append, Bool.and_eq_true] at allDigits
    have partFits : readOn part 0 ≤ usizeMax := by
      rw [digits, readOn, List.foldl_append] at fits
      exact (le_readOn missing _).trans fits
    simp [parseInt, parseDigits_short name none 0 allDigits.1 partFits]
  · rcases after with _ | ⟨byte, _ | ⟨next, after⟩⟩
    · left
      have short := parseDigits_short name none 0 allDigits fits
      simp [parseInt, short]
    · left
      obtain ⟨rfl, -⟩ := List.cons.inj rest'
      have read := parseDigits_digits name [] none 0 allDigits fits
      simp [parseInt, read]
    · right
      simp only [List.cons_append, List.cons.injEq] at rest'
      obtain ⟨rfl, rfl, rfl⟩ := rest'
      exact ⟨after, rfl, rfl⟩

/-! ## Arguments -/

def encodeArgument (argument : Bytes) : Bytes :=
  36 :: (natToString argument.length ++ 13 :: 10 :: (argument ++ [13, 10]))

def encodeArguments (arguments : List Bytes) : Bytes :=
  arguments.flatMap encodeArgument

/-- Where the arguments are from a position on. -/
def encodedPositions : Nat → List Bytes → List Argument
  | _, [] => []
  | pos, argument :: rest =>
      let start := pos + 1 + ((natToString argument.length).length + 2)
      ⟨start, argument.length⟩ ::
        encodedPositions (start + argument.length + 2) rest

omit [Platform] in
theorem encodeArguments_cons (argument : Bytes) (rest : List Bytes) :
    encodeArguments (argument :: rest) =
      36 :: (natToString argument.length ++ 13 :: 10 ::
        (argument ++ (13 :: 10 :: encodeArguments rest))) := by
  simp [encodeArguments, encodeArgument]

omit [Platform] in
theorem encodeArguments_ne_nil {arguments : List Bytes}
    (some : arguments ≠ []) : encodeArguments arguments ≠ [] := by
  cases arguments with
  | nil => exact absurd rfl some
  | cons argument rest => simp [encodeArguments_cons]

/-- Arguments that the parser does not refuse for their length. -/
def ShortArguments (arguments : List Bytes) : Prop :=
  ∀ argument ∈ arguments, argument.length ≤ maxArgumentLength

instance (arguments : List Bytes) : Decidable (ShortArguments arguments) :=
  inferInstanceAs (Decidable (∀ argument ∈ arguments,
    argument.length ≤ maxArgumentLength))

theorem parseArguments_encoded
    {arguments : List Bytes} (short : ShortArguments arguments)
    (rest : Bytes) (pos : Nat) :
    parseArguments arguments.length (encodeArguments arguments ++ rest)
        pos =
      some (.ok (encodedPositions pos arguments,
        pos + (encodeArguments arguments).length)) := by
  induction arguments generalizing pos with
  | nil => rfl
  | cons argument others ih =>
      have shortFirst := short argument List.mem_cons_self
      have fits : argument.length ≤ usizeMax :=
        shortFirst.trans (by decide)
      have shortOthers : ShortArguments others := fun other member =>
        short other (List.mem_cons_of_mem argument member)
      have length := parseInt_natToString fits
        (argument ++ (13 :: 10 :: (encodeArguments others ++ rest)))
        (text "bulk")
      have enough : ¬((argument ++ (13 :: 10 ::
            (encodeArguments others ++ rest))).length <
              argument.length + 2 ∨
          ((argument ++ (13 :: 10 ::
            (encodeArguments others ++ rest))).length =
              argument.length + 2 ∧ others.length ≠ 0)) := by
        simp only [List.length_append, List.length_cons]
        rintro (few | ⟨exactly, more⟩)
        · omega
        · have something := encodeArguments_ne_nil (fun nothing => more
            (congrArg List.length nothing))
          have positive := List.length_pos_iff.mpr something
          omega
      have dropped : (argument ++ (13 :: 10 ::
          (encodeArguments others ++ rest))).drop (argument.length + 2) =
            encodeArguments others ++ rest := by
        rw [← List.drop_drop, List.drop_left]
        rfl
      have whole : encodeArguments (argument :: others) ++ rest =
          36 :: (natToString argument.length ++ 13 :: 10 ::
            (argument ++ (13 :: 10 ::
              (encodeArguments others ++ rest)))) := by
        simp [encodeArguments_cons]
      rw [whole, List.length_cons, parseArguments]
      rw [length]
      simp only [ne_eq, not_true_eq_false, if_false, Option.bind_eq_bind,
        Option.bind_some, if_neg (Nat.not_lt.mpr shortFirst), if_neg enough,
        dropped, ih shortOthers]
      refine congrArg some (congrArg Except.ok (Prod.ext rfl ?_))
      simp only [encodeArguments_cons, List.length_cons,
        List.length_append]
      omega

/-- Arguments that were cut off need more data. -/
theorem parseArguments_cut
    {arguments : List Bytes} (short : ShortArguments arguments)
    {part more : Bytes} (cut : part ++ more = encodeArguments arguments)
    (missing : more ≠ []) (pos : Nat) :
    parseArguments arguments.length part pos =
      some (.error .incomplete) := by
  induction arguments generalizing part pos with
  | nil =>
      have nothing := (List.append_eq_nil_iff.mp cut).2
      exact absurd nothing missing
  | cons argument others ih =>
      have shortFirst := short argument List.mem_cons_self
      have fits : argument.length ≤ usizeMax :=
        shortFirst.trans (by decide)
      have shortOthers : ShortArguments others := fun other member =>
        short other (List.mem_cons_of_mem argument member)
      rw [encodeArguments_cons] at cut
      cases part with
      | nil => rfl
      | cons first part =>
          simp only [List.cons_append, List.cons.injEq] at cut
          obtain ⟨rfl, cut⟩ := cut
          rw [List.length_cons, parseArguments]
          obtain incomplete | ⟨after, rfl, rest⟩ :=
            parseInt_cut fits (text "bulk") cut
          · simp [incomplete]
          rw [parseInt_natToString fits]
          simp only [ne_eq, not_true_eq_false, if_false,
            Option.bind_eq_bind, Option.bind_some,
            if_neg (Nat.not_lt.mpr shortFirst)]
          split
          · rfl
          rename_i enough
          have longEnough : argument.length + 2 ≤ after.length := by
            omega
          -- what follows the first argument is cut off as well
          have cutRest : after.drop (argument.length + 2) ++ more =
              encodeArguments others := by
            rw [← List.drop_append_of_le_length longEnough, rest,
              ← List.drop_drop, List.drop_left]
            rfl
          rw [ih shortOthers cutRest]
          rfl

/-! ## Commands -/

/-- The usual form of a command. -/
def encode (arguments : List Bytes) : Bytes :=
  42 :: (natToString arguments.length ++ 13 :: 10 ::
    encodeArguments arguments)

/-- The limits of the parser. -/
structure WithinLimits (arguments : List Bytes) : Prop where
  few : arguments.length ≤ maxArguments
  short : ShortArguments arguments

def encodedArgv (arguments : List Bytes) : List Argument :=
  encodedPositions ((natToString arguments.length).length + 3) arguments

omit [Platform] in
theorem encode_length (arguments : List Bytes) :
    (encode arguments).length =
      (natToString arguments.length).length + 3 +
        (encodeArguments arguments).length := by
  simp only [encode, List.length_cons, List.length_append]
  omega

/-- Blank lines in front of a command. -/
def blankLines : Nat → Bytes
  | 0 => []
  | blanks + 1 => 13 :: 10 :: blankLines blanks

omit [Platform] in
theorem blankLines_length (blanks : Nat) :
    (blankLines blanks).length = 2 * blanks := by
  induction blanks with
  | zero => rfl
  | succ blanks ih =>
      simp only [blankLines, List.length_cons, ih]
      omega

omit [Platform] in
theorem skipBlankLines_blank (blanks : Nat) (input : Bytes) (pos : Nat) :
    skipBlankLines (blankLines blanks ++ input) pos =
      skipBlankLines input (pos + 2 * blanks) := by
  induction blanks generalizing pos with
  | zero => rfl
  | succ blanks ih =>
      simp only [blankLines, List.cons_append, skipBlankLines, ih]
      congr 1
      omega

omit [Platform] in
/-- Blank lines that were cut off. -/
theorem skipBlankLines_cut
    {blanks : Nat} {part more rest : Bytes} (pos : Nat)
    (cut : part ++ more = blankLines blanks ++ rest) :
    skipBlankLines part pos = .error .incomplete ∨
      (∃ stop, skipBlankLines part pos = .ok ([], stop)) ∨
      ∃ after, part = blankLines blanks ++ after ∧ after ++ more = rest := by
  induction blanks generalizing part pos with
  | zero => exact .inr (.inr ⟨part, rfl, cut⟩)
  | succ blanks ih =>
      match part, cut with
      | [], _ => exact .inr (.inl ⟨pos, rfl⟩)
      | [first], cut =>
          simp only [blankLines, List.cons_append, List.cons.injEq] at cut
          obtain ⟨rfl, -⟩ := cut
          exact .inl rfl
      | first :: second :: tail, cut =>
          simp only [blankLines, List.cons_append, List.cons.injEq] at cut
          obtain ⟨rfl, rfl, cut⟩ := cut
          rw [skipBlankLines]
          obtain short | short | ⟨after, rfl, rest'⟩ := ih (pos + 2) cut
          · exact .inl short
          · exact .inr (.inl short)
          · exact .inr (.inr ⟨after, rfl, rest'⟩)

/-- Where the arguments are and how long a command is that stands after blank
lines. -/
theorem parseArgv_blankEncode
    {arguments : List Bytes} (limits : WithinLimits arguments)
    (blanks : Nat) (rest : Bytes) :
    parseArgv (blankLines blanks ++ (encode arguments ++ rest)) =
      some (.ok
        (encodedPositions
          (2 * blanks + (natToString arguments.length).length + 3) arguments,
          2 * blanks + (encode arguments).length)) := by
  have fits : arguments.length ≤ usizeMax :=
    limits.few.trans (by decide)
  have length := parseInt_natToString fits
    (encodeArguments arguments ++ rest) (text "multibulk")
  have blank : skipBlankLines (encode arguments ++ rest) (0 + 2 * blanks) =
      .ok (encode arguments ++ rest, 0 + 2 * blanks) := rfl
  rw [parseArgv, skipBlankLines_blank, blank]
  simp only [encode, List.append_assoc, List.cons_append] at length ⊢
  rw [length]
  simp only [ne_eq, not_true_eq_false, if_false, Option.bind_eq_bind,
    Option.bind_some, Option.getD_some,
    if_neg (Nat.not_lt.mpr limits.few),
    parseArguments_encoded limits.short rest]
  have position : 0 + 2 * blanks + 1 +
      ((natToString arguments.length).length + 2) =
      2 * blanks + (natToString arguments.length).length + 3 := by
    omega
  rw [position, ← encode, encode_length, ← Nat.add_assoc, ← Nat.add_assoc]

theorem parseArgv_encode
    {arguments : List Bytes} (limits : WithinLimits arguments)
    (rest : Bytes) :
    parseArgv (encode arguments ++ rest) =
      some (.ok (encodedArgv arguments, (encode arguments).length)) := by
  have parsed := parseArgv_blankEncode limits 0 rest
  simpa [blankLines, encodedArgv] using parsed

theorem parseArgv_blankCut
    {arguments : List Bytes} (limits : WithinLimits arguments)
    (blanks : Nat) {part more : Bytes}
    (cut : part ++ more = blankLines blanks ++ encode arguments)
    (missing : more ≠ []) :
    parseArgv part = some (.error .incomplete) := by
  have fits : arguments.length ≤ usizeMax :=
    limits.few.trans (by decide)
  obtain short | ⟨stop, short⟩ | ⟨after, rfl, cutAfter⟩ :=
    skipBlankLines_cut 0 cut
  · rw [parseArgv, short]
  · rw [parseArgv, short]
  rw [parseArgv, skipBlankLines_blank]
  cases after with
  | nil => rfl
  | cons first part =>
      simp only [encode, List.cons_append, List.cons.injEq] at cutAfter
      obtain ⟨rfl, cutAfter⟩ := cutAfter
      have blank : skipBlankLines (42 :: part) (0 + 2 * blanks) =
          .ok (42 :: part, 0 + 2 * blanks) := rfl
      rw [blank]
      obtain incomplete | ⟨after, rfl, rest⟩ :=
        parseInt_cut fits (text "multibulk") cutAfter
      · simp [incomplete]
      dsimp only
      rw [parseInt_natToString fits]
      simp only [ne_eq, not_true_eq_false, if_false, Option.bind_eq_bind,
        Option.bind_some, Option.getD_some,
        if_neg (Nat.not_lt.mpr limits.few),
        parseArguments_cut limits.short rest missing]

theorem parseArgv_cut
    {arguments : List Bytes} (limits : WithinLimits arguments)
    {part more : Bytes} (cut : part ++ more = encode arguments)
    (missing : more ≠ []) :
    parseArgv part = some (.error .incomplete) :=
  parseArgv_blankCut limits 0 cut missing

omit [Platform] in
theorem slice_encoded
    (arguments : List Bytes) (before rest : Bytes) :
    (encodedPositions before.length arguments).map
        (ParsedCommand.slice
          (before ++ (encodeArguments arguments ++ rest))) =
      arguments := by
  induction arguments generalizing before with
  | nil => rfl
  | cons argument others ih =>
      have start : before.length + 1 +
          ((natToString argument.length).length + 2) =
            (before ++ (36 :: natToString argument.length ++
              [13, 10])).length := by
        simp only [List.length_append, List.length_cons, List.length_nil]
        omega
      have next : (before ++ (36 :: natToString argument.length ++
            [13, 10])).length + argument.length + 2 =
          ((before ++ (36 :: natToString argument.length ++ [13, 10])) ++
            (argument ++ [13, 10])).length := by
        simp only [List.length_append, List.length_cons, List.length_nil]
        omega
      have whole : before ++ (encodeArguments (argument :: others) ++
          rest) =
          (before ++ (36 :: natToString argument.length ++ [13, 10])) ++
            (argument ++ ([13, 10] ++
              (encodeArguments others ++ rest))) := by
        simp [encodeArguments_cons]
      rw [encodedPositions, List.map_cons, start]
      refine congrArg₂ List.cons ?_ ?_
      · rw [whole, ParsedCommand.slice, List.drop_left, List.take_left]
      · have others' := ih ((before ++ (36 :: natToString argument.length
          ++ [13, 10])) ++ (argument ++ [13, 10]))
        rw [next, whole]
        simpa only [List.append_assoc] using others'

end Parser

namespace ParsedCommand

/-- The command that the parser finds at the front of a buffer that starts
with its usual form. -/
def encoded [Platform] (arguments : List Bytes) (rest : Bytes)
    (limits : Parser.WithinLimits arguments) : ParsedCommand :=
  { data := Parser.encode arguments ++ rest
    argv := Parser.encodedArgv arguments
    inBounds :=
      (Parser.parseArgv_inBounds (Parser.parseArgv_encode limits rest)).1 }

variable [Platform]

theorem encoded_arguments
    {arguments : List Bytes} {rest : Bytes}
    (limits : Parser.WithinLimits arguments) :
    (encoded arguments rest limits).arguments = arguments := by
  have sliced := Parser.slice_encoded arguments
    (42 :: (natToString arguments.length ++ [13, 10])) rest
  have start : (42 :: (natToString arguments.length ++ [13, 10])).length =
      (natToString arguments.length).length + 3 := by
    simp
  rw [start] at sliced
  simpa [ParsedCommand.arguments, encoded, Parser.encodedArgv,
    Parser.encode] using sliced

end ParsedCommand

section

variable [Platform]

theorem parse_eq_ok
    {input : Bytes} {argv : List Argument} {length : Nat}
    (parsed : Parser.parseArgv input = some (.ok (argv, length))) :
    parse input = some (.ok
      (⟨input, argv, (Parser.parseArgv_inBounds parsed).1⟩, length)) := by
  unfold parse
  split
  · simp_all
  · simp_all
  · rename_i other otherLength otherParsed
    cases parsed.symm.trans otherParsed
    rfl

/-- An encoded command is read back, whatever follows it. -/
theorem parse_encode
    {arguments : List Bytes} (limits : Parser.WithinLimits arguments)
    (rest : Bytes) :
    parse (Parser.encode arguments ++ rest) = some (.ok
      (.encoded arguments rest limits, (Parser.encode arguments).length)) :=
  parse_eq_ok (Parser.parseArgv_encode limits rest)

theorem parse_eq_error
    {input : Bytes} {error : ParseError}
    (parsed : Parser.parseArgv input = some (.error error)) :
    parse input = some (.error error) := by
  unfold parse
  split
  · simp_all
  · simp_all
  · simp_all

/-- The beginning of an encoded command needs more data. -/
theorem parse_cut
    {arguments : List Bytes} (limits : Parser.WithinLimits arguments)
    {part more : Bytes} (cut : part ++ more = Parser.encode arguments)
    (missing : more ≠ []) :
    parse part = some (.error .incomplete) :=
  parse_eq_error (Parser.parseArgv_cut limits cut missing)

/-- A command after any number of blank lines is read back with its length,
and its beginnings need more data. -/
theorem parse_roundTrip
    {arguments : List Bytes} (limits : Parser.WithinLimits arguments)
    (blanks : Nat) :
    (∀ rest, ∃ command,
      parse ((Parser.blankLines blanks ++ Parser.encode arguments) ++ rest) =
        some (.ok (command,
          (Parser.blankLines blanks ++ Parser.encode arguments).length)) ∧
      command.arguments = arguments) ∧
    ∀ part, part <+: Parser.blankLines blanks ++ Parser.encode arguments →
      part ≠ Parser.blankLines blanks ++ Parser.encode arguments →
      parse part = some (.error .incomplete) := by
  constructor
  · intro rest
    have parsed := Parser.parseArgv_blankEncode limits blanks rest
    rw [List.append_assoc, List.length_append, Parser.blankLines_length]
    refine ⟨_, parse_eq_ok parsed, ?_⟩
    have sliced := Parser.slice_encoded arguments
      (Parser.blankLines blanks ++
        42 :: (natToString arguments.length ++ [13, 10])) rest
    have start : (Parser.blankLines blanks ++
        42 :: (natToString arguments.length ++ [13, 10])).length =
          2 * blanks + (natToString arguments.length).length + 3 := by
      simp only [List.length_append, List.length_cons, List.length_nil,
        Parser.blankLines_length]
      omega
    rw [start] at sliced
    simpa [ParsedCommand.arguments, Parser.encode] using sliced
  · rintro part ⟨more, cut⟩ strict
    refine parse_eq_error (Parser.parseArgv_blankCut limits blanks cut ?_)
    rintro rfl
    exact strict (by simpa using cut)

end

section

attribute [local instance] Platform.integral

/-- A command with an argument that looks like the end of one. -/
theorem parse_roundTrip_lines :
    ((∀ rest, ∃ command,
      parse ((Parser.blankLines 2 ++
          Parser.encode [text "GET", [13, 10]]) ++ rest) =
        some (.ok (command, (Parser.blankLines 2 ++
          Parser.encode [text "GET", [13, 10]]).length)) ∧
      command.arguments = [text "GET", [13, 10]]) ∧
    ∀ part, part <+: Parser.blankLines 2 ++
        Parser.encode [text "GET", [13, 10]] →
      part ≠ Parser.blankLines 2 ++
        Parser.encode [text "GET", [13, 10]] →
      parse part = some (.error .incomplete)) :=
  parse_roundTrip ⟨by decide, by decide⟩ 2

end

end RedVector
