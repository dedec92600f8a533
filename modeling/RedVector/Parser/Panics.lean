import Mathlib.Data.List.TakeWhile
import RedVector.Parser.Grammar

/-!
# Inputs that the parser panics on

A sign is skipped up to a carriage return that may not be there, and digits
are added up before the sum is compared with its limit.
-/

namespace RedVector

open Util

/-- The platform with a build that panics on an overflow. -/
@[reducible] def Platform.checked (platform : Platform) : Platform :=
  { platform with overflowChecks := true }

namespace Parser

/-- A number that goes out of range at some digit, or a sign after a zero
that no carriage return follows; `argc` was read before. -/
def OverrunsFrom (input : Bytes) (argc : Nat) : Prop :=
  ∃ digits rest, input = digits ++ rest ∧ digits.all isDigit = true ∧
    (usizeMax < readOn digits argc ∨
      readOn digits argc = 0 ∧ ∃ line, rest = 45 :: line ∧ 13 ∉ line)

def Overruns (input : Bytes) : Prop :=
  OverrunsFrom input 0

/-- An argument up to the two bytes behind it. -/
structure Bulk.Complete (bulk : Bulk) : Prop where
  length : Decimal bulk.length bulk.payload.length
  short : bulk.payload.length ≤ maxArgumentLength
  ending : bulk.ending.length = 2

/-- The count of a request overruns, or the length of one of its arguments
when those before it are complete. -/
def Unsafe (input : Bytes) : Prop :=
  ∃ blanks rest, input = blankLines blanks ++ 42 :: rest ∧
    (Overruns rest ∨
      ∃ count number bulks tail,
        rest = count ++ 13 :: 10 :: (bulkBytes bulks ++ 36 :: tail) ∧
        Decimal count number ∧ number ≤ maxArguments ∧
        bulks.length < number ∧ (∀ bulk ∈ bulks, bulk.Complete) ∧
        Overruns tail)

section Build

variable [platform : Platform]

/-- What is computed without an overflow does not depend on the checks. -/
theorem usize_checked {number : Int} {result : Nat}
    (computed : @usize platform.checked number = some result) :
    usize number = some result := by
  unfold usize at computed ⊢
  split at computed
  · rename_i fits
    rw [if_pos fits]
    exact computed
  · cases computed

theorem parseDigits_checked
    {name input : Bytes} {argc count : Nat} {argco : Option Nat}
    {result : Except ParseError (Option Nat × Nat × Bytes)}
    (parsed : @parseDigits platform.checked name input argc argco count =
      some result) :
    parseDigits name input argc argco count = some result := by
  induction input generalizing argc argco count with
  | nil => exact parsed
  | cons next tail ih =>
      unfold parseDigits at parsed ⊢
      split
      · rename_i isReturn
        rwa [if_pos isReturn] at parsed
      rename_i notReturn
      rw [if_neg notReturn] at parsed
      split
      · rename_i isSign
        rwa [if_pos isSign] at parsed
      rename_i notSign
      rw [if_neg notSign] at parsed
      split
      · rename_i digit
        rw [if_pos digit] at parsed
        simp only [Option.bind_eq_bind, Option.bind_eq_some_iff]
          at parsed ⊢
        obtain ⟨scaled, scales, argc', adds, parsed⟩ := parsed
        exact ⟨scaled, usize_checked scales, argc', usize_checked adds,
          ih parsed⟩
      · rename_i notDigit
        rwa [if_neg notDigit] at parsed

theorem parseInt_checked
    {name input : Bytes}
    {result : Except ParseError (Option Nat × Nat × Bytes)}
    (parsed : @parseInt platform.checked input name = some result) :
    parseInt input name = some result := by
  simp only [parseInt, Option.bind_eq_bind, Option.bind_eq_some_iff]
    at parsed ⊢
  obtain ⟨digits, digitsParsed, parsed⟩ := parsed
  exact ⟨digits, parseDigits_checked digitsParsed, parsed⟩

theorem parseArguments_checked
    {remaining pos : Nat} {input : Bytes}
    {result : Except ParseError (List Argument × Nat)}
    (parsed : @parseArguments platform.checked remaining input pos =
      some result) :
    parseArguments remaining input pos = some result := by
  induction remaining generalizing input pos result with
  | zero => exact parsed
  | succ remaining ih =>
      cases input with
      | nil => exact parsed
      | cons first input =>
          unfold parseArguments at parsed ⊢
          dsimp only at parsed ⊢
          split
          · rename_i notDollar
            rwa [if_pos notDollar] at parsed
          rename_i isDollar
          rw [if_neg isDollar] at parsed
          simp only [Option.bind_eq_bind, Option.bind_eq_some_iff]
            at parsed ⊢
          obtain ⟨length, lengthParsed, parsed⟩ := parsed
          refine ⟨length, parseInt_checked lengthParsed, ?_⟩
          rcases length with error | ⟨_ | arglen, arglenlen, after⟩
          · exact parsed
          · exact parsed
          · dsimp only at parsed ⊢
            split
            · rename_i long
              rwa [if_pos long] at parsed
            rename_i short
            rw [if_neg short] at parsed
            split
            · rename_i incomplete
              rwa [if_pos incomplete] at parsed
            rename_i complete
            rw [if_neg complete] at parsed
            simp only [Option.bind_eq_some_iff] at parsed ⊢
            obtain ⟨others, othersParsed, parsed⟩ := parsed
            exact ⟨others, ih othersParsed, parsed⟩

theorem parseArgv_checked
    {input : Bytes} {result : Except ParseError (List Argument × Nat)}
    (parsed : @parseArgv platform.checked input = some result) :
    parseArgv input = some result := by
  unfold parseArgv at parsed ⊢
  cases skipped : skipBlankLines input 0 with
  | error error =>
      rw [skipped] at parsed
      exact parsed
  | ok place =>
      obtain ⟨after, pos⟩ := place
      rw [skipped] at parsed
      cases after with
      | nil => exact parsed
      | cons first rest =>
          dsimp only at parsed ⊢
          split
          · rename_i notStar
            rwa [if_pos notStar] at parsed
          rename_i isStar
          rw [if_neg isStar] at parsed
          simp only [Option.bind_eq_bind, Option.bind_eq_some_iff]
            at parsed ⊢
          obtain ⟨count, countParsed, parsed⟩ := parsed
          refine ⟨count, parseInt_checked countParsed, ?_⟩
          match count, parsed with
          | .error error, parsed => exact parsed
          | .ok (argco, intlen, after), parsed =>
              dsimp only at parsed ⊢
              split
              · rename_i many
                rwa [if_pos many] at parsed
              · rename_i few
                rw [if_neg few] at parsed
                exact parseArguments_checked parsed

end Build

/-! ## With overflow checks -/

section Checks

variable [Platform] (checks : Platform.overflowChecks = true)

include checks

theorem usize_eq_none {number : Nat} (large : usizeMax < number) :
    usize number = none := by
  unfold usize
  rw [if_neg (by simp; omega), if_pos checks]

/-- A digit is added if the sum is in range, and panics otherwise. -/
theorem accumulate_eq
    (digit : UInt8) (argc : Nat) :
    ((usize ((argc : Int) * 10)).bind fun argc =>
      usize (argc + (digit.toNat - 48 : Nat))) =
      if readOn [digit] argc ≤ usizeMax then some (readOn [digit] argc)
      else none := by
  split
  · rename_i small
    obtain ⟨scales, adds⟩ := usize_digit small
    rw [scales, Option.bind_some, adds]
    rfl
  · rename_i large
    have large : usizeMax < argc * 10 + (digit.toNat - 48) :=
      Nat.lt_of_not_le large
    by_cases scaled : argc * 10 ≤ usizeMax
    · have scales : usize ((argc : Int) * 10) = some (argc * 10) := by
        exact_mod_cast usize_inRange scaled
      rw [scales, Option.bind_some]
      exact_mod_cast usize_eq_none checks large
    · have scales : usize ((argc : Int) * 10) = none := by
        exact_mod_cast usize_eq_none checks (Nat.lt_of_not_le scaled)
      rw [scales]
      rfl

omit checks [Platform] in
theorem overruns_digit
    {digit : UInt8} {tail : Bytes} {argc : Nat} (small : argc ≤ usizeMax)
    (digits : isDigit digit = true) :
    OverrunsFrom (digit :: tail) argc ↔
      usizeMax < readOn [digit] argc ∨
        OverrunsFrom tail (readOn [digit] argc) := by
  constructor
  · rintro ⟨first, rest, whole, allDigits, overrun⟩
    cases first with
    | nil =>
        obtain large | ⟨-, line, isSign, -⟩ := overrun
        · exact absurd large (Nat.not_lt.mpr small)
        · rw [List.nil_append, isSign] at whole
          obtain ⟨rfl, -⟩ := List.cons.inj whole
          exact absurd rfl (isDigit_ne digits).2
    | cons next first =>
        obtain ⟨rfl, rfl⟩ := List.cons.inj whole
        simp only [List.all_cons, Bool.and_eq_true] at allDigits
        exact .inr ⟨first, rest, rfl, allDigits.2, overrun⟩
  · rintro (large | ⟨first, rest, rfl, allDigits, overrun⟩)
    · exact ⟨[digit], tail, rfl, by simp [digits], .inl large⟩
    · exact ⟨digit :: first, rest, rfl, by simp [digits, allDigits],
        overrun⟩

omit checks [Platform] in
theorem overruns_other
    {byte : UInt8} {tail : Bytes} {argc : Nat} (small : argc ≤ usizeMax)
    (other : isDigit byte = false) :
    OverrunsFrom (byte :: tail) argc ↔
      argc = 0 ∧ byte = 45 ∧ 13 ∉ tail := by
  constructor
  · rintro ⟨first, rest, whole, allDigits, overrun⟩
    cases first with
    | nil =>
        obtain large | ⟨zero, line, isSign, noReturn⟩ := overrun
        · exact absurd large (Nat.not_lt.mpr small)
        · rw [List.nil_append, isSign] at whole
          obtain ⟨rfl, rfl⟩ := List.cons.inj whole
          exact ⟨zero, rfl, noReturn⟩
    | cons next first =>
        obtain ⟨rfl, rfl⟩ := List.cons.inj whole
        simp [other] at allDigits
  · rintro ⟨rfl, rfl, line⟩
    exact ⟨[], 45 :: tail, rfl, rfl, .inr ⟨rfl, tail, rfl, line⟩⟩

omit checks [Platform] in
private theorem dropWhile_eq_nil {line : Bytes} :
    line.dropWhile (· ≠ 13) = [] ↔ 13 ∉ line := by
  rw [List.dropWhile_eq_nil_iff]
  constructor
  · intro all member
    simpa using all 13 member
  · intro noReturn byte member
    simp only [decide_eq_true_eq]
    rintro rfl
    exact noReturn member

theorem parseDigits_eq_none
    (name input : Bytes) (argco : Option Nat) (count : Nat) {argc : Nat}
    (small : argc ≤ usizeMax) :
    parseDigits name input argc argco count = none ↔
      OverrunsFrom input argc := by
  induction input generalizing argc argco count with
  | nil =>
      refine iff_of_false (Option.some_ne_none _) ?_
      rintro ⟨digits, rest, whole, -, large | ⟨-, line, isSign, -⟩⟩
      · obtain ⟨rfl, rfl⟩ := List.append_eq_nil_iff.mp whole.symm
        exact absurd large (Nat.not_lt.mpr small)
      · rw [isSign] at whole
        simp at whole
  | cons next tail ih =>
      rw [parseDigits]
      split
      · rename_i isReturn
        subst isReturn
        rw [overruns_other small (by decide)]
        simp
      rename_i notReturn
      split
      · rename_i isSign
        obtain ⟨rfl, rfl⟩ := isSign
        rw [overruns_other small (by decide), ← dropWhile_eq_nil]
        dsimp only
        split
        · rename_i nothing
          exact iff_of_true rfl ⟨rfl, rfl, nothing⟩
        · rename_i first after something
          refine iff_of_false (Option.some_ne_none _) ?_
          rintro ⟨-, -, nothing⟩
          cases something.symm.trans nothing
      rename_i notSign
      split
      · rename_i digit
        rw [overruns_digit small digit]
        have sum := accumulate_eq checks next argc
        simp only [Option.bind_eq_bind]
        rw [← Option.bind_assoc, sum]
        split
        · rename_i inRange
          rw [Option.bind_some, ih _ _ inRange]
          simp [Nat.not_lt.mpr inRange]
        · rename_i large
          exact iff_of_true rfl (.inl (Nat.lt_of_not_le large))
      · rename_i notDigit
        refine iff_of_false (Option.some_ne_none _) ?_
        rw [overruns_other small (by simpa using notDigit)]
        rintro ⟨zero, isSign, -⟩
        exact notSign ⟨zero, isSign⟩

theorem parseInt_eq_none {name input : Bytes} :
    parseInt input name = none ↔ Overruns input := by
  unfold Overruns
  rw [← parseDigits_eq_none checks name input none 0 (Nat.zero_le _)]
  unfold parseInt
  cases parseDigits name input 0 none 0 with
  | none => simp
  | some result =>
      refine iff_of_false ?_ nofun
      match result with
      | .error error => simp
      | .ok (_, _, []) => simp
      | .ok (argco, stop, next :: after) =>
          simp only [Option.bind_eq_bind, Option.bind_some]
          split
          · simp
          · simp

/-- With the checks a number is read as the one that its digits spell. -/
theorem reads_iff {text : Bytes} {number : Nat} :
    Reads text (some number) ↔
      Decimal text number ∧ number ≤ usizeMax := by
  constructor
  · intro reads
    by_cases small : digitsValue text ≤ usizeMax
    · have decimal := reads.decimal small
      exact ⟨decimal, decimal.2.2 ▸ small⟩
    · -- the digits would have gone out of range
      exfalso
      have parsed : parseDigits [] (text ++ 13 :: []) 0 none 0 =
          some (.ok (some number, 0 + text.length, [])) :=
        parseDigits_eq_ok.mpr ⟨text, rfl, rfl, reads⟩
      have panics := (parseDigits_eq_none checks [] (text ++ [13]) none 0
        (Nat.zero_le _)).mpr ⟨text, [13], rfl,
          (ReadsFrom.digits reads).1, .inl (Nat.lt_of_not_le small)⟩
      cases parsed.symm.trans panics
  · rintro ⟨decimal, small⟩
    exact decimal.reads small

theorem bulk_complete {bulk : Bulk} : bulk.Accepted ↔ bulk.Complete := by
  constructor
  · rintro ⟨reads, short, ending⟩
    exact ⟨((reads_iff checks).mp reads).1, short, ending⟩
  · rintro ⟨length, short, ending⟩
    exact ⟨length.reads (short.trans (by decide)), short, ending⟩

/-- The length of an argument overruns when those before it are complete. -/
theorem parseArguments_panics
    {remaining pos : Nat} {bulks : List Bulk} {tail : Bytes}
    (few : bulks.length < remaining)
    (complete : ∀ bulk ∈ bulks, bulk.Complete) (overruns : Overruns tail) :
    parseArguments remaining (bulkBytes bulks ++ 36 :: tail) pos = none := by
  induction bulks generalizing remaining pos with
  | nil =>
      obtain ⟨others, rfl⟩ := Nat.exists_eq_succ_of_ne_zero
        (Nat.ne_of_gt few)
      have panics : parseInt tail (text "bulk") = none :=
        (parseInt_eq_none checks).mpr overruns
      simp [bulkBytes, parseArguments, panics]
  | cons bulk bulks ih =>
      obtain ⟨others, rfl⟩ := Nat.exists_eq_succ_of_ne_zero
        (show remaining ≠ 0 by rintro rfl; cases few)
      have accepted : bulk.Accepted :=
        (bulk_complete checks).mpr (complete bulk List.mem_cons_self)
      have rest : parseArguments others (bulkBytes bulks ++ 36 :: tail)
          (pos + bulk.bytes.length) = none :=
        ih (Nat.lt_of_succ_lt_succ few) fun other member =>
          complete other (List.mem_cons_of_mem bulk member)
      rw [bulkBytes_cons, List.append_assoc,
        parseArguments_bulk accepted (by simp), rest]
      rfl

theorem parseArguments_eq_none {remaining pos : Nat} {input : Bytes} :
    parseArguments remaining input pos = none ↔
      ∃ bulks tail, input = bulkBytes bulks ++ 36 :: tail ∧
        bulks.length < remaining ∧ (∀ bulk ∈ bulks, bulk.Complete) ∧
        Overruns tail := by
  constructor
  · intro panics
    induction remaining generalizing input pos with
    | zero => cases panics
    | succ remaining ih =>
        cases input with
        | nil => cases panics
        | cons first input =>
            rw [parseArguments] at panics
            dsimp only at panics
            split at panics
            · cases panics
            rename_i isDollar
            have isDollar : first = 36 := by simpa using isDollar
            subst isDollar
            cases lengthParsed : parseInt input (text "bulk") with
            | none =>
                exact ⟨[], input, rfl, Nat.succ_pos remaining,
                  List.forall_mem_nil _, (parseInt_eq_none checks).mp lengthParsed⟩
            | some length =>
                rw [lengthParsed] at panics
                simp only [Option.bind_eq_bind, Option.bind_some] at panics
                rcases length with error | ⟨_ | arglen, arglenlen, after⟩
                · cases panics
                · cases panics
                · obtain ⟨text, rfl, rfl, reads⟩ :=
                    parseInt_eq_ok.mp lengthParsed
                  dsimp only at panics
                  split at panics
                  · cases panics
                  rename_i short
                  split at panics
                  · cases panics
                  rename_i complete
                  have rest : parseArguments remaining
                      (after.drop (arglen + 2))
                      (pos + 1 + (text.length + 2) + arglen + 2) =
                        none := by
                    cases others : parseArguments remaining
                        (after.drop (arglen + 2))
                        (pos + 1 + (text.length + 2) + arglen + 2) with
                    | none => rfl
                    | some result =>
                        rw [others] at panics
                        rcases result with error | found
                        · cases panics
                        · cases panics
                  obtain ⟨bulks, tail, remains, few, complete', overruns⟩
                    := ih rest
                  have payload : (after.take arglen).length = arglen := by
                    rw [List.length_take]
                    omega
                  refine ⟨⟨text, after.take arglen,
                    (after.drop arglen).take 2⟩ :: bulks, tail, ?_,
                    Nat.succ_lt_succ few, ?_, overruns⟩
                  · rw [bulkBytes_cons, List.append_assoc, ← remains]
                    simp [Bulk.bytes, ← List.drop_drop]
                  · intro bulk member
                    obtain rfl | member := List.mem_cons.mp member
                    · refine ⟨?_, by dsimp only; omega, ?_⟩
                      · rw [payload]
                        exact ((reads_iff checks).mp reads).1
                      · rw [List.length_take, List.length_drop]
                        omega
                    · exact complete' bulk member
  · rintro ⟨bulks, tail, rfl, few, complete, overruns⟩
    exact parseArguments_panics checks few complete overruns

theorem parseArgv_eq_none {input : Bytes} :
    parseArgv input = none ↔ Unsafe input := by
  constructor
  · intro panics
    rw [parseArgv] at panics
    split at panics
    · cases panics
    · cases panics
    · rename_i first rest pos skipped
      obtain ⟨blanks, rfl, rfl⟩ := skipBlankLines_eq_ok skipped
      split at panics
      · cases panics
      rename_i isStar
      have isStar : first = 42 := by simpa using isStar
      subst isStar
      refine ⟨blanks, rest, rfl, ?_⟩
      cases countParsed : parseInt rest (text "multibulk") with
      | none => exact .inl ((parseInt_eq_none checks).mp countParsed)
      | some count =>
          rw [countParsed] at panics
          simp only [Option.bind_eq_bind, Option.bind_some] at panics
          rcases count with error | ⟨_ | number, intlen, after⟩
          · cases panics
          · dsimp only at panics
            split at panics
            · cases panics
            · cases panics
          · obtain ⟨text, rfl, rfl, reads⟩ :=
              parseInt_eq_ok.mp countParsed
            dsimp only at panics
            split at panics
            · cases panics
            rename_i few
            obtain ⟨bulks, tail, rfl, fewer, complete, overruns⟩ :=
              (parseArguments_eq_none checks).mp panics
            exact .inr ⟨text, number, bulks, tail, rfl,
              ((reads_iff checks).mp reads).1, Nat.le_of_not_lt few, fewer,
              complete, overruns⟩
  · rintro ⟨blanks, rest, rfl, overruns⟩
    have blank : skipBlankLines (42 :: rest) (0 + 2 * blanks) =
        .ok (42 :: rest, 0 + 2 * blanks) := rfl
    rw [parseArgv, skipBlankLines_blank, blank]
    dsimp only
    rw [if_neg (not_not.mpr rfl)]
    obtain overruns | ⟨count, number, bulks, tail, rfl, decimal, few, fewer,
      complete, overruns⟩ := overruns
    · rw [(parseInt_eq_none checks).mpr overruns]
      rfl
    · have parsed : parseInt (count ++ 13 :: 10 :: (bulkBytes bulks ++
          36 :: tail)) (text "multibulk") =
          some (.ok (some number, count.length + 2,
            bulkBytes bulks ++ 36 :: tail)) :=
        parseInt_eq_ok.mpr
          ⟨_, rfl, rfl, decimal.reads (few.trans (by decide))⟩
      rw [parsed]
      simp only [Option.bind_eq_bind, Option.bind_some, Option.getD_some,
        if_neg (Nat.not_lt.mpr few),
        parseArguments_panics checks fewer complete overruns]

end Checks

end Parser

section

variable [platform : Platform]

theorem parse_eq_none {input : Bytes} :
    parse input = none ↔ Parser.parseArgv input = none := by
  unfold parse
  split
  · simp_all
  · simp_all
  · simp_all

/-- The parser returns without a panic, and would with overflow checks. -/
def ParsesSafely (input : Bytes) : Prop :=
  ∃ result, @parse platform.checked input = some result ∧
    parse input = some result

/-- The parser neither panics nor overflows exactly if no number of the input
overruns: no sum of digits gets out of range, and a carriage return follows
each sign that is read for one. -/
theorem parsesSafely_iff (input : Bytes) :
    ParsesSafely input ↔ ¬Parser.Unsafe input := by
  have unsafeIff : Parser.Unsafe input ↔
      @parse platform.checked input = none :=
    (@Parser.parseArgv_eq_none platform.checked rfl input).symm.trans
      (@parse_eq_none platform.checked input).symm
  rw [unsafeIff]
  constructor
  · rintro ⟨result, parsed, -⟩ panics
    cases parsed.symm.trans panics
  · intro returns
    obtain ⟨result, parsed⟩ := Option.ne_none_iff_exists'.mp returns
    refine ⟨result, parsed, ?_⟩
    unfold parse at parsed
    split at parsed
    · cases parsed
    · rename_i error argvParsed
      cases parsed
      exact parse_eq_error (Parser.parseArgv_checked argvParsed)
    · rename_i argv length argvParsed
      cases parsed
      exact parse_eq_ok (Parser.parseArgv_checked argvParsed)

end

section

attribute [local instance] Platform.integral

/-- A sign at the end of the input. -/
theorem not_parsesSafely : ¬∀ input, ParsesSafely input := by
  intro safely
  obtain ⟨result, -, parsed⟩ := safely (text "*-")
  have panics : parse (text "*-") = none := by decide
  cases parsed.symm.trans panics

end

end RedVector
