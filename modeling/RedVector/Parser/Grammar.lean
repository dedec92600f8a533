import RedVector.Parser.Encode

/-!
# The grammar of requests

Which inputs the parser accepts, and which of them are well formed.  The
parser does not look at the two bytes behind an argument, it takes a sign for
the end of a count wherever the number before it is zero, and it computes
numbers in the arithmetic of the build.
-/

namespace RedVector

open Util

namespace Parser

/-- Digits that spell a number. -/
def Decimal (digits : Bytes) (number : Nat) : Prop :=
  digits ≠ [] ∧ digits.all isDigit = true ∧ digitsValue digits = number

/-- An argument in a request: the text of its length, its bytes, and the two
bytes behind it. -/
structure Bulk where
  length : Bytes
  payload : Bytes
  ending : Bytes

/-- A request: blank lines, the text of its count, and its arguments. -/
structure Frame where
  blanks : Nat
  count : Bytes
  bulks : List Bulk

def Bulk.bytes (bulk : Bulk) : Bytes :=
  36 :: (bulk.length ++ 13 :: 10 :: (bulk.payload ++ bulk.ending))

def bulkBytes (bulks : List Bulk) : Bytes :=
  bulks.flatMap Bulk.bytes

namespace Frame

def bytes (frame : Frame) : Bytes :=
  blankLines frame.blanks ++
    42 :: (frame.count ++ 13 :: 10 :: bulkBytes frame.bulks)

def arguments (frame : Frame) : List Bytes :=
  frame.bulks.map Bulk.payload

end Frame

/-- The grammar of an argument. -/
structure Bulk.WellFormed (bulk : Bulk) : Prop where
  length : Decimal bulk.length bulk.payload.length
  short : bulk.payload.length ≤ maxArgumentLength
  ending : bulk.ending = [13, 10]

/-- The count of a request: a number, or a negative number for a request
without arguments. -/
def Counts (count : Bytes) (number : Nat) : Prop :=
  Decimal count number ∨
    number = 0 ∧ ∃ digits value, count = 45 :: digits ∧ Decimal digits value

/-- The grammar of a request. -/
structure Frame.WellFormed (frame : Frame) : Prop where
  count : Counts frame.count frame.bulks.length
  few : frame.bulks.length ≤ maxArguments
  bulks : ∀ bulk ∈ frame.bulks, bulk.WellFormed

variable [Platform]

/-! ## Numbers -/

/-- What the digits make of the number that was read before them, in the
arithmetic of the build. -/
def accumulate : Bytes → Nat → Option Nat
  | [], argc => some argc
  | digit :: rest, argc => do
      let argc ← usize ((argc : Int) * 10)
      let argc ← usize (argc + (digit.toNat - 48 : Nat))
      accumulate rest argc

/-- A text that ends in front of a carriage return and how it is read when
`argc` and `argco` were read before it. -/
inductive ReadsFrom : Bytes → Nat → Option Nat → Option Nat → Prop where
  | done {argc : Nat} {argco : Option Nat} : ReadsFrom [] argc argco argco
  | sign {text : Bytes} {argco : Option Nat} (line : 13 ∉ text) :
      ReadsFrom (45 :: text) 0 argco none
  | digit {digit : UInt8} {text : Bytes} {argc next : Nat}
      {argco result : Option Nat} (isDigit : isDigit digit = true)
      (computed : accumulate [digit] argc = some next)
      (others : ReadsFrom text next (some next) result) :
      ReadsFrom (digit :: text) argc argco result

/-- The text of a number and how it is read. -/
def Reads (text : Bytes) (result : Option Nat) : Prop :=
  ReadsFrom text 0 none result

theorem ReadsFrom.line {text : Bytes} {argc : Nat}
    {argco result : Option Nat} (reads : ReadsFrom text argc argco result) :
    13 ∉ text := by
  induction reads with
  | done => simp
  | sign line => simpa using line
  | digit isDigit computed others ih =>
      have notReturn := (isDigit_ne isDigit).1
      simpa [Ne.symm notReturn] using ih

/-- A text is read in one way. -/
theorem ReadsFrom.unique {text : Bytes} {argc : Nat}
    {argco result other : Option Nat}
    (reads : ReadsFrom text argc argco result)
    (again : ReadsFrom text argc argco other) : result = other := by
  induction reads with
  | done =>
      cases again
      rfl
  | sign line =>
      cases again with
      | sign line => rfl
      | digit isDigit computed others =>
          exact absurd rfl (isDigit_ne isDigit).2
  | digit isDigit computed others ih =>
      cases again with
      | sign line => exact absurd rfl (isDigit_ne isDigit).2
      | digit isDigit' computed' others' =>
          cases computed.symm.trans computed'
          exact ih others'

private theorem accumulate_one (digit : UInt8) (argc : Nat) :
    accumulate [digit] argc = (usize ((argc : Int) * 10)).bind fun argc =>
      usize (argc + (digit.toNat - 48 : Nat)) := by
  simp [accumulate]

omit [Platform] in
private theorem dropWhile_line
    {input rest : Bytes} {first : UInt8}
    (dropped : input.dropWhile (· ≠ 13) = first :: rest) :
    input = input.takeWhile (· ≠ 13) ++ 13 :: rest ∧
      13 ∉ input.takeWhile (· ≠ 13) := by
  induction input with
  | nil => cases dropped
  | cons byte tail ih =>
      by_cases isReturn : byte = 13
      · subst isReturn
        simp only [ne_eq, decide_not, List.dropWhile_cons, decide_true,
          Bool.not_true, Bool.false_eq_true, if_false,
          List.cons.injEq] at dropped
        simp [dropped.2]
      · have goesOn : tail.dropWhile (· ≠ 13) = first :: rest := by
          simpa [List.dropWhile_cons, isReturn] using dropped
        obtain ⟨whole, line⟩ := ih goesOn
        rw [List.takeWhile_cons_of_pos (by simpa using isReturn)]
        refine ⟨by rw [List.cons_append, ← whole], ?_⟩
        simpa [Ne.symm isReturn] using line

/-- What the parser reads up to a carriage return. -/
theorem parseDigits_eq_ok
    {name input rest : Bytes} {argc count stop : Nat}
    {argco result : Option Nat} :
    parseDigits name input argc argco count =
        some (.ok (result, stop, rest)) ↔
      ∃ text, input = text ++ 13 :: rest ∧ stop = count + text.length ∧
        ReadsFrom text argc argco result := by
  constructor
  · intro parsed
    induction input generalizing argc argco count with
    | nil => simp [parseDigits] at parsed
    | cons next tail ih =>
        rw [parseDigits] at parsed
        split at parsed
        · rename_i isReturn
          cases parsed
          exact ⟨[], by rw [isReturn]; rfl, rfl, .done⟩
        split at parsed
        · rename_i isSign
          obtain ⟨rfl, rfl⟩ := isSign
          split at parsed
          · cases parsed
          rename_i first after dropped
          cases parsed
          obtain ⟨whole, line⟩ := dropWhile_line dropped
          refine ⟨45 :: tail.takeWhile (· ≠ 13), ?_, ?_, .sign line⟩
          · rw [List.cons_append, ← whole]
          · simp only [List.length_cons]
            omega
        split at parsed
        · rename_i digit
          simp only [Option.bind_eq_bind, Option.bind_eq_some_iff] at parsed
          obtain ⟨scaled, scales, next', adds, parsed⟩ := parsed
          obtain ⟨text, rfl, rfl, reads⟩ := ih parsed
          refine ⟨_ :: text, rfl, ?_, .digit digit ?_ reads⟩
          · simp only [List.length_cons]
            omega
          · rw [accumulate_one, scales, Option.bind_some, adds]
        · cases parsed
  · rintro ⟨text, rfl, rfl, reads⟩
    induction reads generalizing count with
    | done => simp [parseDigits]
    | sign line =>
        rename_i text argco
        have stays : ∀ byte ∈ text, decide (byte ≠ 13) = true := by
          intro byte member
          simp only [decide_eq_true_eq]
          rintro rfl
          exact line member
        rw [List.cons_append, parseDigits, if_neg (by decide),
          if_pos ⟨rfl, rfl⟩]
        rw [List.takeWhile_append_of_pos stays,
          List.dropWhile_append_of_pos stays]
        simp only [List.dropWhile_cons, List.takeWhile_cons]
        simp
        omega
    | digit isDigit computed others ih =>
        obtain ⟨notReturn, notSign⟩ := isDigit_ne isDigit
        rw [accumulate_one, Option.bind_eq_some_iff] at computed
        obtain ⟨scaled, scales, adds⟩ := computed
        rw [List.cons_append, parseDigits, if_neg notReturn,
          if_neg (by simp [notSign]), if_pos isDigit]
        simp only [Option.bind_eq_bind, scales, Option.bind_some, adds, ih,
          List.length_cons]
        congr 4
        omega

theorem parseInt_eq_ok
    {input name rest : Bytes} {result : Option Nat} {count : Nat} :
    parseInt input name = some (.ok (result, count, rest)) ↔
      ∃ text, input = text ++ 13 :: 10 :: rest ∧
        count = text.length + 2 ∧ Reads text result := by
  constructor
  · intro parsed
    simp only [parseInt, Option.bind_eq_bind, Option.bind_eq_some_iff]
      at parsed
    obtain ⟨digits, digitsParsed, parsed⟩ := parsed
    rcases digits with error | ⟨argco, stop, _ | ⟨next, after⟩⟩
    · cases parsed
    · cases parsed
    · obtain ⟨text, rfl, rfl, reads⟩ := parseDigits_eq_ok.mp digitsParsed
      dsimp only at parsed
      split at parsed
      · rename_i isLine
        cases parsed
        exact ⟨text, by rw [isLine], by omega, reads⟩
      · cases parsed
  · rintro ⟨text, rfl, rfl, reads⟩
    have digits : parseDigits name (text ++ 13 :: 10 :: rest) 0 none 0 =
        some (.ok (result, 0 + text.length, 10 :: rest)) :=
      parseDigits_eq_ok.mpr ⟨text, rfl, rfl, reads⟩
    simp [parseInt, digits]

/-! ## Requests -/

/-- An argument as the parser takes it. -/
structure Bulk.Accepted (bulk : Bulk) : Prop where
  length : Reads bulk.length (some bulk.payload.length)
  short : bulk.payload.length ≤ maxArgumentLength
  ending : bulk.ending.length = 2

/-- A request as the parser takes it. -/
structure Frame.Accepted (frame : Frame) : Prop where
  count : ∃ argco, Reads frame.count argco ∧
    argco.getD 0 = frame.bulks.length
  few : frame.bulks.length ≤ maxArguments
  bulks : ∀ bulk ∈ frame.bulks, bulk.Accepted

/-- Where the arguments of a request are. -/
def bulkPositions : Nat → List Bulk → List Argument
  | _, [] => []
  | pos, bulk :: rest =>
      ⟨pos + 1 + (bulk.length.length + 2), bulk.payload.length⟩ ::
        bulkPositions (pos + bulk.bytes.length) rest

omit [Platform] in
theorem bulkBytes_cons (bulk : Bulk) (rest : List Bulk) :
    bulkBytes (bulk :: rest) = bulk.bytes ++ bulkBytes rest :=
  rfl

omit [Platform] in
theorem bulk_length (bulk : Bulk) :
    bulk.bytes.length = 1 + (bulk.length.length + 2) +
      (bulk.payload.length + bulk.ending.length) := by
  simp only [Bulk.bytes, List.length_cons, List.length_append]
  omega

/-- The parser takes an argument and goes on behind it. -/
theorem parseArguments_bulk
    {bulk : Bulk} {remaining pos : Nat} {after : Bytes}
    (accepted : bulk.Accepted) (more : remaining ≠ 0 → after ≠ []) :
    parseArguments (remaining + 1) (bulk.bytes ++ after) pos =
      (parseArguments remaining after (pos + bulk.bytes.length)).bind
        fun
        | .error error => some (.error error)
        | .ok (argv, stop) =>
            some (.ok (⟨pos + 1 + (bulk.length.length + 2),
              bulk.payload.length⟩ :: argv, stop)) := by
  obtain ⟨reads, short, ending⟩ := accepted
  have parsed : parseInt (bulk.length ++ 13 :: 10 :: (bulk.payload ++
      (bulk.ending ++ after))) (text "bulk") =
      some (.ok (some bulk.payload.length, bulk.length.length + 2,
        bulk.payload ++ (bulk.ending ++ after))) :=
    parseInt_eq_ok.mpr ⟨_, rfl, rfl, reads⟩
  have whole : bulk.bytes ++ after =
      36 :: (bulk.length ++ 13 :: 10 :: (bulk.payload ++
        (bulk.ending ++ after))) := by
    simp [Bulk.bytes]
  have enough : ¬((bulk.payload ++ (bulk.ending ++ after)).length <
        bulk.payload.length + 2 ∨
      ((bulk.payload ++ (bulk.ending ++ after)).length =
        bulk.payload.length + 2 ∧ remaining ≠ 0)) := by
    simp only [List.length_append, ending]
    rintro (few | ⟨exactly, some⟩)
    · omega
    · have positive := List.length_pos_iff.mpr (more some)
      omega
  have dropped : (bulk.payload ++ (bulk.ending ++ after)).drop
      (bulk.payload.length + 2) = after := by
    rw [← List.drop_drop, List.drop_left, ← ending, List.drop_left]
  have start : pos + 1 + (bulk.length.length + 2) +
      bulk.payload.length + 2 = pos + bulk.bytes.length := by
    rw [bulk_length, ending]
    omega
  rw [whole, parseArguments]
  dsimp only
  rw [if_neg (not_not.mpr rfl), parsed]
  simp only [Option.bind_eq_bind, Option.bind_some]
  rw [if_neg (Nat.not_lt.mpr short), if_neg enough, dropped, start]
  rfl

theorem parseArguments_eq_ok
    {remaining pos stop : Nat} {input : Bytes} {argv : List Argument} :
    parseArguments remaining input pos = some (.ok (argv, stop)) ↔
      ∃ bulks rest, input = bulkBytes bulks ++ rest ∧
        bulks.length = remaining ∧ (∀ bulk ∈ bulks, bulk.Accepted) ∧
        argv = bulkPositions pos bulks ∧
        stop = pos + (bulkBytes bulks).length := by
  constructor
  · intro parsed
    induction remaining generalizing input pos argv stop with
    | zero =>
        cases parsed
        exact ⟨[], input, rfl, rfl, List.forall_mem_nil _, rfl, rfl⟩
    | succ remaining ih =>
        cases input with
        | nil => cases parsed
        | cons first input =>
            rw [parseArguments] at parsed
            dsimp only at parsed
            split at parsed
            · cases parsed
            rename_i isDollar
            have isDollar : first = 36 := by simpa using isDollar
            simp only [Option.bind_eq_bind, Option.bind_eq_some_iff]
              at parsed
            obtain ⟨length, lengthParsed, parsed⟩ := parsed
            rcases length with error | ⟨_ | arglen, arglenlen, after⟩
            · cases parsed
            · cases parsed
            · obtain ⟨text, rfl, rfl, reads⟩ :=
                parseInt_eq_ok.mp lengthParsed
              dsimp only at parsed
              split at parsed
              · cases parsed
              rename_i short
              split at parsed
              · cases parsed
              rename_i complete
              simp only [Option.bind_eq_some_iff] at parsed
              obtain ⟨others, othersParsed, parsed⟩ := parsed
              rcases others with error | ⟨argv', stop'⟩
              · cases parsed
              · cases parsed
                obtain ⟨bulks, rest, remains, number, accepted, rfl,
                  rfl⟩ := ih othersParsed
                have payload : (after.take arglen).length = arglen := by
                  rw [List.length_take]
                  omega
                have ending :
                    ((after.drop arglen).take 2).length = 2 := by
                  rw [List.length_take, List.length_drop]
                  omega
                have bulkLength := bulk_length ⟨text,
                  after.take arglen, (after.drop arglen).take 2⟩
                simp only [payload, ending] at bulkLength
                refine ⟨⟨text, after.take arglen,
                  (after.drop arglen).take 2⟩ :: bulks, rest, ?_, ?_,
                  ?_, ?_, ?_⟩
                · rw [bulkBytes_cons, List.append_assoc, ← remains,
                    isDollar]
                  simp [Bulk.bytes, ← List.drop_drop]
                · rw [List.length_cons, number]
                · intro bulk member
                  obtain rfl | member := List.mem_cons.mp member
                  · exact ⟨by rw [payload]; exact reads,
                      by dsimp only; omega, ending⟩
                  · exact accepted bulk member
                · simp only [bulkPositions, bulkLength, payload]
                  congr 2
                  omega
                · rw [bulkBytes_cons, List.length_append, bulkLength]
                  omega
  · rintro ⟨bulks, rest, rfl, rfl, accepted, rfl, rfl⟩
    induction bulks generalizing pos with
    | nil => rfl
    | cons bulk bulks ih =>
        have others : parseArguments bulks.length (bulkBytes bulks ++ rest)
            (pos + bulk.bytes.length) =
            some (.ok (bulkPositions (pos + bulk.bytes.length) bulks,
              pos + bulk.bytes.length + (bulkBytes bulks).length)) :=
          ih fun other member =>
            accepted other (List.mem_cons_of_mem bulk member)
        have more : bulks.length ≠ 0 → bulkBytes bulks ++ rest ≠ [] := by
          intro some
          cases bulks with
          | nil => exact absurd rfl some
          | cons next bulks => simp [bulkBytes_cons, Bulk.bytes]
        rw [List.length_cons, bulkBytes_cons, List.append_assoc,
          parseArguments_bulk (accepted bulk List.mem_cons_self) more,
          others]
        simp only [Option.bind_some, bulkPositions, List.length_append,
          Nat.add_assoc]

omit [Platform] in
theorem slice_bulks (bulks : List Bulk) (before rest : Bytes) :
    (bulkPositions before.length bulks).map
        (ParsedCommand.slice (before ++ (bulkBytes bulks ++ rest))) =
      bulks.map Bulk.payload := by
  induction bulks generalizing before with
  | nil => rfl
  | cons bulk bulks ih =>
      have start : before.length + 1 + (bulk.length.length + 2) =
          (before ++ (36 :: bulk.length ++ [13, 10])).length := by
        simp only [List.length_append, List.length_cons, List.length_nil]
        omega
      have whole : before ++ (bulkBytes (bulk :: bulks) ++ rest) =
          (before ++ (36 :: bulk.length ++ [13, 10])) ++
            (bulk.payload ++ (bulk.ending ++
              (bulkBytes bulks ++ rest))) := by
        simp [bulkBytes_cons, Bulk.bytes]
      rw [bulkPositions, List.map_cons, List.map_cons]
      refine congrArg₂ List.cons ?_ ?_
      · rw [whole, start, ParsedCommand.slice, List.drop_left,
          List.take_left]
      · have others := ih (before ++ bulk.bytes)
        rw [List.length_append, List.append_assoc] at others
        rw [bulkBytes_cons, List.append_assoc]
        exact others

omit [Platform] in
theorem skipBlankLines_eq_ok
    {input rest : Bytes} {pos stop : Nat}
    (skipped : skipBlankLines input pos = .ok (rest, stop)) :
    ∃ blanks, input = blankLines blanks ++ rest ∧
      stop = pos + 2 * blanks := by
  fun_induction skipBlankLines input pos with
  | case1 rest' pos ih =>
      obtain ⟨blanks, rfl, rfl⟩ := ih skipped
      exact ⟨blanks + 1, rfl, by omega⟩
  | case2 => cases skipped
  | case3 => cases skipped
  | case4 input pos =>
      cases skipped
      exact ⟨0, rfl, rfl⟩

/-- The inputs that the parser accepts, and where it finds the arguments. -/
theorem parseArgv_eq_ok
    {input : Bytes} {argv : List Argument} {length : Nat} :
    parseArgv input = some (.ok (argv, length)) ↔
      ∃ frame rest, input = Frame.bytes frame ++ rest ∧ frame.Accepted ∧
        argv = bulkPositions
          (2 * frame.blanks + frame.count.length + 3) frame.bulks ∧
        length = frame.bytes.length := by
  constructor
  · intro parsed
    rw [parseArgv] at parsed
    split at parsed
    · cases parsed
    · cases parsed
    · rename_i first tail pos skipped
      obtain ⟨blanks, rfl, rfl⟩ := skipBlankLines_eq_ok skipped
      split at parsed
      · cases parsed
      rename_i isStar
      have isStar : first = 42 := by simpa using isStar
      simp only [Option.bind_eq_bind, Option.bind_eq_some_iff] at parsed
      obtain ⟨count, countParsed, parsed⟩ := parsed
      rcases count with error | ⟨argco, intlen, after⟩
      · cases parsed
      · obtain ⟨text, rfl, rfl, reads⟩ := parseInt_eq_ok.mp countParsed
        dsimp only at parsed
        split at parsed
        · cases parsed
        rename_i few
        obtain ⟨bulks, rest, rfl, number, accepted, rfl, rfl⟩ :=
          parseArguments_eq_ok.mp parsed
        refine ⟨⟨blanks, text, bulks⟩, rest, ?_, ⟨⟨argco, reads,
          number.symm⟩, by dsimp only; omega, accepted⟩, ?_, ?_⟩
        · simp [Frame.bytes, isStar]
        · congr 1
          dsimp only
          omega
        · simp only [Frame.bytes, List.length_append, List.length_cons,
            blankLines_length]
          omega
  · rintro ⟨frame, rest, rfl, ⟨⟨argco, reads, number⟩, few, accepted⟩, rfl,
      rfl⟩
    have parsed : parseInt (frame.count ++ 13 :: 10 ::
        (bulkBytes frame.bulks ++ rest)) (text "multibulk") =
        some (.ok (argco, frame.count.length + 2,
          bulkBytes frame.bulks ++ rest)) :=
      parseInt_eq_ok.mpr ⟨_, rfl, rfl, reads⟩
    have whole : frame.bytes ++ rest = blankLines frame.blanks ++
        42 :: (frame.count ++ 13 :: 10 ::
          (bulkBytes frame.bulks ++ rest)) := by
      simp [Frame.bytes]
    have blank : skipBlankLines (42 :: (frame.count ++ 13 :: 10 ::
        (bulkBytes frame.bulks ++ rest))) (0 + 2 * frame.blanks) =
        .ok (42 :: (frame.count ++ 13 :: 10 ::
          (bulkBytes frame.bulks ++ rest)), 0 + 2 * frame.blanks) := rfl
    have arguments := parseArguments_eq_ok
      |>.mpr ⟨frame.bulks, rest, rfl, rfl, accepted,
        rfl, (rfl : 2 * frame.blanks + frame.count.length + 3 +
          (bulkBytes frame.bulks).length = _)⟩
    have start : 0 + 2 * frame.blanks + 1 + (frame.count.length + 2) =
        2 * frame.blanks + frame.count.length + 3 := by
      omega
    rw [whole, parseArgv, skipBlankLines_blank, blank]
    simp only [ne_eq, not_true_eq_false, if_false, parsed,
      Option.bind_eq_bind, Option.bind_some, number,
      if_neg (Nat.not_lt.mpr few), start, arguments]
    congr 3
    simp only [Frame.bytes, List.length_append, List.length_cons,
      blankLines_length]
    omega

/-! ## One request at the front of an input -/

omit [Platform] in
private theorem line_unique
    {first second left right : Bytes} (firstLine : 13 ∉ first)
    (secondLine : 13 ∉ second)
    (same : first ++ 13 :: left = second ++ 13 :: right) :
    first = second ∧ left = right := by
  induction first generalizing second with
  | nil =>
      cases second with
      | nil => exact ⟨rfl, (List.cons.inj same).2⟩
      | cons byte others =>
          obtain ⟨isReturn, -⟩ := List.cons.inj same
          exact absurd (isReturn ▸ List.mem_cons_self) secondLine
  | cons byte others ih =>
      cases second with
      | nil =>
          obtain ⟨isReturn, -⟩ := List.cons.inj same
          exact absurd (isReturn ▸ List.mem_cons_self) firstLine
      | cons byte' others' =>
          obtain ⟨rfl, tails⟩ := List.cons.inj same
          obtain ⟨rfl, rests⟩ := ih
            (fun member => firstLine (List.mem_cons_of_mem _ member))
            (fun member => secondLine (List.mem_cons_of_mem _ member)) tails
          exact ⟨rfl, rests⟩

omit [Platform] in
private theorem blanks_unique
    {blanks others : Nat} {left right : Bytes}
    (same : blankLines blanks ++ 42 :: left =
      blankLines others ++ 42 :: right) :
    blanks = others ∧ left = right := by
  induction blanks generalizing others with
  | zero =>
      cases others with
      | zero => exact ⟨rfl, (List.cons.inj same).2⟩
      | succ others =>
          obtain ⟨isReturn, -⟩ := List.cons.inj same
          exact absurd isReturn (by decide)
  | succ blanks ih =>
      cases others with
      | zero =>
          obtain ⟨isReturn, -⟩ := List.cons.inj same
          exact absurd isReturn (by decide)
      | succ others =>
          simp only [blankLines, List.cons_append, List.cons.injEq, true_and]
            at same
          obtain ⟨rfl, rests⟩ := ih same
          exact ⟨rfl, rests⟩

private theorem bulks_unique
    {bulks others : List Bulk} {left right : Bytes}
    (number : bulks.length = others.length)
    (accepted : ∀ bulk ∈ bulks, bulk.Accepted)
    (acceptedOthers : ∀ bulk ∈ others, bulk.Accepted)
    (same : bulkBytes bulks ++ left = bulkBytes others ++ right) :
    bulks = others := by
  induction bulks generalizing others with
  | nil => exact (List.length_eq_zero_iff.mp number.symm).symm
  | cons bulk bulks ih =>
      cases others with
      | nil => cases number
      | cons other others =>
          have first := accepted bulk List.mem_cons_self
          have second := acceptedOthers other List.mem_cons_self
          simp only [bulkBytes_cons, Bulk.bytes, List.append_assoc,
            List.cons_append, List.cons.injEq, true_and] at same
          obtain ⟨lengths, same⟩ := line_unique first.length.line
            second.length.line same
          have payloads : bulk.payload.length = other.payload.length :=
            Option.some.inj (first.length.unique (lengths ▸ second.length))
          obtain ⟨payload, same⟩ :=
            List.append_inj (List.cons.inj same).2 payloads
          obtain ⟨ending, same⟩ := List.append_inj same
            (first.ending.trans second.ending.symm)
          have rest := ih (Nat.succ.inj number)
            (fun member => accepted member ∘ List.mem_cons_of_mem bulk)
            (fun member =>
              acceptedOthers member ∘ List.mem_cons_of_mem other) same
          obtain ⟨text, bytes, two⟩ := bulk
          obtain ⟨text', bytes', two'⟩ := other
          dsimp only at lengths payload ending
          subst lengths payload ending rest
          rfl

/-- An input starts with at most one request that the parser takes. -/
theorem Frame.Accepted.unique
    {frame other : Frame} {left right : Bytes} (accepted : frame.Accepted)
    (acceptedOther : other.Accepted)
    (same : frame.bytes ++ left = other.bytes ++ right) :
    frame = other := by
  obtain ⟨⟨argco, reads, number⟩, -, bulks⟩ := accepted
  obtain ⟨⟨argco', reads', number'⟩, -, bulks'⟩ := acceptedOther
  simp only [Frame.bytes, List.append_assoc, List.cons_append] at same
  obtain ⟨blanks, same⟩ := blanks_unique same
  obtain ⟨counts, same⟩ := line_unique reads.line reads'.line same
  have counted : argco = argco' := reads.unique (counts ▸ reads')
  have numbers : frame.bulks.length = other.bulks.length := by
    rw [← number, ← number', counted]
  have rests := bulks_unique numbers bulks bulks' (List.cons.inj same).2
  obtain ⟨blank, text, items⟩ := frame
  obtain ⟨blank', text', items'⟩ := other
  dsimp only at blanks counts rests
  subst blanks counts rests
  rfl

/-! ## The grammar -/

/-- A length whose number is in range, and an argument that ends in a line
break. -/
structure Bulk.Clean (bulk : Bulk) : Prop where
  inRange : digitsValue bulk.length ≤ usizeMax
  ending : bulk.ending = [13, 10]

/-- A count that is a number in range or a sign and a number, and arguments
that are clean. -/
structure Frame.Clean (frame : Frame) : Prop where
  count : (frame.count ≠ [] ∧ frame.count.all isDigit = true ∧
      digitsValue frame.count ≤ usizeMax) ∨
    ∃ digits value, frame.count = 45 :: digits ∧ Decimal digits value
  bulks : ∀ bulk ∈ frame.bulks, bulk.Clean

theorem accumulate_inRange
    {digits : Bytes} {argc : Nat} (small : readOn digits argc ≤ usizeMax) :
    accumulate digits argc = some (readOn digits argc) := by
  induction digits generalizing argc with
  | nil => rfl
  | cons digit rest ih =>
      obtain ⟨scales, adds⟩ := usize_digit small
      simp only [accumulate, scales, Option.bind_eq_bind, Option.bind_some,
        adds]
      exact ih small

/-- Digits are read as the number that they spell, if it is in range. -/
theorem readsFrom_digits
    {digits : Bytes} {argc : Nat} (argco : Option Nat)
    (allDigits : digits.all isDigit = true)
    (small : readOn digits argc ≤ usizeMax) :
    ReadsFrom digits argc argco
      (if digits = [] then argco else some (readOn digits argc)) := by
  induction digits generalizing argc argco with
  | nil => exact .done
  | cons digit rest ih =>
      simp only [List.all_cons, Bool.and_eq_true] at allDigits
      have fits : readOn [digit] argc ≤ usizeMax :=
        (le_readOn rest _).trans small
      have one : accumulate [digit] argc =
          some (argc * 10 + (digit.toNat - 48)) :=
        accumulate_inRange fits
      have others := ih (some (argc * 10 + (digit.toNat - 48)))
        allDigits.2 small
      rw [if_neg (by simp)]
      refine .digit allDigits.1 one ?_
      cases rest with
      | nil => exact .done
      | cons next tail =>
          rw [if_neg (by simp)] at others
          exact others

theorem Decimal.reads
    {digits : Bytes} {number : Nat} (decimal : Decimal digits number)
    (small : number ≤ usizeMax) : Reads digits (some number) := by
  obtain ⟨some, allDigits, rfl⟩ := decimal
  have reads := readsFrom_digits none allDigits
    (show readOn digits 0 ≤ usizeMax from small)
  rw [if_neg some] at reads
  exact reads

/-- Only digits are read as a number. -/
theorem ReadsFrom.digits
    {text : Bytes} {argc : Nat} {argco : Option Nat} {number : Nat}
    (reads : ReadsFrom text argc argco (some number)) :
    text.all isDigit = true ∧ (text = [] → argco = some number) := by
  generalize isNumber : some number = result at reads
  induction reads with
  | done => exact ⟨rfl, fun _ => rfl⟩
  | sign line => cases isNumber
  | digit isDigit computed others ih =>
      obtain ⟨allDigits, -⟩ := ih isNumber
      exact ⟨by simp [isDigit, allDigits], nofun⟩

theorem Reads.decimal
    {text : Bytes} {number : Nat} (reads : Reads text (some number))
    (small : digitsValue text ≤ usizeMax) : Decimal text number := by
  obtain ⟨allDigits, empty⟩ := ReadsFrom.digits reads
  have something : text ≠ [] := by
    intro nothing
    cases empty nothing
  have decimal : Decimal text (digitsValue text) :=
    ⟨something, allDigits, rfl⟩
  cases reads.unique (decimal.reads small)
  exact decimal

omit [Platform] in
theorem Decimal.line {digits : Bytes} {number : Nat}
    (decimal : Decimal digits number) : 13 ∉ digits := by
  intro member
  have isDigit := List.all_eq_true.mp decimal.2.1 13 member
  exact absurd isDigit (by decide)

theorem Frame.WellFormed.accepted {frame : Frame}
    (wellFormed : frame.WellFormed) : frame.Accepted := by
  obtain ⟨counts, few, bulks⟩ := wellFormed
  refine ⟨?_, few, ?_⟩
  · obtain decimal | ⟨none, digits, value, negative, decimal⟩ := counts
    · exact ⟨_, decimal.reads (few.trans (by decide)), rfl⟩
    · rw [negative]
      exact ⟨_, .sign decimal.line, none.symm⟩
  · intro bulk member
    obtain ⟨length, short, ending⟩ := bulks bulk member
    exact ⟨length.reads (short.trans (by decide)), short, by rw [ending]; rfl⟩

omit [Platform] in
theorem Frame.WellFormed.clean {frame : Frame}
    (wellFormed : frame.WellFormed) : frame.Clean := by
  obtain ⟨counts, few, bulks⟩ := wellFormed
  refine ⟨?_, ?_⟩
  · obtain ⟨some, allDigits, value⟩ | ⟨-, negative⟩ := counts
    · refine .inl ⟨some, allDigits, ?_⟩
      rw [value]
      exact few.trans (by decide)
    · exact .inr negative
  · intro bulk member
    obtain ⟨⟨-, -, value⟩, short, ending⟩ := bulks bulk member
    refine ⟨?_, ending⟩
    rw [value]
    exact short.trans (by decide)

theorem Frame.Accepted.wellFormed {frame : Frame}
    (accepted : frame.Accepted) (clean : frame.Clean) :
    frame.WellFormed := by
  obtain ⟨⟨argco, reads, number⟩, few, bulks⟩ := accepted
  obtain ⟨counts, clean⟩ := clean
  refine ⟨?_, few, ?_⟩
  · obtain ⟨some, allDigits, small⟩ | ⟨digits, value, negative, decimal⟩ :=
      counts
    · left
      have decimal : Decimal frame.count (digitsValue frame.count) :=
        ⟨some, allDigits, rfl⟩
      cases reads.unique (decimal.reads small)
      exact number ▸ decimal
    · right
      refine ⟨?_, digits, value, negative, decimal⟩
      rw [negative] at reads
      cases reads.unique (.sign decimal.line)
      exact number.symm
  · intro bulk member
    obtain ⟨length, short, -⟩ := bulks bulk member
    obtain ⟨small, ending⟩ := clean bulk member
    exact ⟨length.decimal small, short, ending⟩

end Parser

section

variable [Platform]

/-- What the parser accepts is a request, with these arguments and this
length. -/
theorem parse_accepted
    {input : Bytes} {command : ParsedCommand} {length : Nat}
    (parsed : parse input = some (.ok (command, length))) :
    ∃ (frame : Parser.Frame) (rest : Bytes), input = frame.bytes ++ rest ∧
      frame.Accepted ∧ frame.bytes.length = length ∧
      frame.arguments = command.arguments := by
  obtain ⟨data, argvParsed⟩ := parse_data parsed
  obtain ⟨frame, rest, rfl, accepted, positions, rfl⟩ :=
    Parser.parseArgv_eq_ok.mp argvParsed
  refine ⟨frame, rest, rfl, accepted, rfl, ?_⟩
  have sliced := Parser.slice_bulks frame.bulks
    (Parser.blankLines frame.blanks ++ 42 :: (frame.count ++ [13, 10])) rest
  have start : (Parser.blankLines frame.blanks ++
      42 :: (frame.count ++ [13, 10])).length =
        2 * frame.blanks + frame.count.length + 3 := by
    simp only [List.length_append, List.length_cons, List.length_nil,
      Parser.blankLines_length]
    omega
  have whole : Parser.blankLines frame.blanks ++
      42 :: (frame.count ++ [13, 10]) ++
        (Parser.bulkBytes frame.bulks ++ rest) = frame.bytes ++ rest := by
    simp [Parser.Frame.bytes]
  rw [start, whole] at sliced
  rw [ParsedCommand.arguments, data, positions, sliced,
    Parser.Frame.arguments]

/-- A request at the front of an input is what the parser accepts. -/
theorem accepted_parse
    {frame : Parser.Frame} (accepted : frame.Accepted) (rest : Bytes) :
    ∃ command, parse (frame.bytes ++ rest) =
      some (.ok (command, frame.bytes.length)) :=
  ⟨_, parse_eq_ok (Parser.parseArgv_eq_ok.mpr
    ⟨frame, rest, rfl, accepted, rfl, rfl⟩)⟩

/-- What the parser accepts of an input is a well-formed request, with its
arguments and its length. -/
def AcceptsGrammar (input : Bytes) : Prop :=
  ∀ command length, parse input = some (.ok (command, length)) →
    ∃ (frame : Parser.Frame) (rest : Bytes), input = frame.bytes ++ rest ∧
      frame.WellFormed ∧ frame.bytes.length = length ∧
      frame.arguments = command.arguments

/-- The parser accepts the grammar at the front of an input exactly if a
request there has numbers in range without a misplaced sign, and line breaks
behind its arguments. -/
theorem acceptsGrammar_iff (input : Bytes) :
    AcceptsGrammar input ↔
      ∀ (frame : Parser.Frame) (rest : Bytes), input = frame.bytes ++ rest →
        frame.Accepted → frame.Clean := by
  constructor
  · rintro grammar frame rest rfl accepted
    obtain ⟨command, parsed⟩ := accepted_parse accepted rest
    obtain ⟨other, rest', same, wellFormed, -⟩ :=
      grammar command frame.bytes.length parsed
    rw [accepted.unique wellFormed.accepted same]
    exact wellFormed.clean
  · intro clean command length parsed
    obtain ⟨frame, rest, rfl, accepted, same, arguments⟩ :=
      parse_accepted parsed
    exact ⟨frame, rest, rfl, accepted.wellFormed
      (clean frame rest rfl accepted), same, arguments⟩

end

section

attribute [local instance] Platform.integral

/-- Any two bytes end an argument. -/
theorem not_acceptsGrammar : ¬∀ input, AcceptsGrammar input := by
  intro grammar
  let bulk : Parser.Bulk := ⟨text "1", text "a", text "XY"⟩
  let frame : Parser.Frame := ⟨0, text "1", [bulk]⟩
  have one : Parser.Decimal (text "1") 1 :=
    ⟨by decide, by decide, by decide⟩
  have accepted : frame.Accepted := by
    refine ⟨⟨some 1, one.reads (by decide), rfl⟩, by decide, ?_⟩
    intro other member
    cases List.mem_singleton.mp member
    exact ⟨one.reads (by decide), by decide, rfl⟩
  obtain ⟨command, parsed⟩ := accepted_parse accepted []
  obtain ⟨other, rest, same, wellFormed, -⟩ := grammar _ _ _ parsed
  have unique := accepted.unique wellFormed.accepted same
  have ending := (wellFormed.bulks bulk
    (unique ▸ List.mem_singleton_self bulk)).ending
  revert ending
  decide

end

end RedVector
