import RedVector.Util.Splitargs

/-!
# Lines cut inside an escape

Inside double quotes `splitargs` looks one byte past a backslash, and two or
three past `\x`, before it tests the end of the line.  The lines it reads past
the end of are those that open a double quote and end in an escape that has
been begun there.
-/

namespace RedVector.Util

/-- Two hexadecimal digits come next. -/
def startsHex : Bytes → Bool
  | high :: low :: _ => (hexValue high).isSome && (hexValue low).isSome
  | _ => false

/-- What double quotes may enclose, the quotes left out. -/
inductive Quoted : Bytes → Prop where
  | nil : Quoted []
  | byte {byte : UInt8} {rest : Bytes} :
      byte ≠ 92 → byte ≠ 34 → Quoted rest → Quoted (byte :: rest)
  | escape {byte : UInt8} {rest : Bytes} :
      byte ≠ 120 → Quoted rest → Quoted (92 :: byte :: rest)
  | hex {high low : UInt8} {rest : Bytes} :
      (hexValue high).isSome → (hexValue low).isSome → Quoted rest →
      Quoted (92 :: 120 :: high :: low :: rest)
  | stray {rest : Bytes} :
      startsHex rest = false → Quoted (120 :: rest) →
      Quoted (92 :: 120 :: rest)

/-- What single quotes may enclose. -/
inductive SingleQuoted : Bytes → Prop where
  | nil : SingleQuoted []
  | byte {byte : UInt8} {rest : Bytes} :
      byte ≠ 39 → byte ≠ 92 → SingleQuoted rest → SingleQuoted (byte :: rest)
  | escape {rest : Bytes} :
      SingleQuoted rest → SingleQuoted (92 :: 39 :: rest)
  | backslash {byte : UInt8} {rest : Bytes} :
      byte ≠ 39 → SingleQuoted (byte :: rest) →
      SingleQuoted (92 :: byte :: rest)

/-- A part of a line at whose end no quote is open. -/
inductive Plain : Bytes → Prop where
  | nil : Plain []
  | byte {byte : UInt8} {rest : Bytes} :
      byte ≠ 34 → byte ≠ 39 → Plain rest → Plain (byte :: rest)
  | double {inside rest : Bytes} {space : UInt8} :
      Quoted inside → isWhitespace space → Plain rest →
      Plain (34 :: (inside ++ 34 :: space :: rest))
  | single {inside rest : Bytes} {space : UInt8} :
      SingleQuoted inside → isWhitespace space → Plain rest →
      Plain (39 :: (inside ++ 39 :: space :: rest))

/-- An escape that the end of the line cuts. -/
inductive Cut : Bytes → Prop where
  | backslash : Cut [92]
  | noDigit : Cut [92, 120]
  | oneDigit {high : UInt8} : (hexValue high).isSome → Cut [92, 120, high]

/-- A line that opens a double quote and is cut inside an escape there. -/
def CutLine (line : Bytes) : Prop :=
  ∃ front inside escape,
    line = front ++ 34 :: (inside ++ escape) ∧
      Plain front ∧ Quoted inside ∧ Cut escape

theorem Cut.head {escape : Bytes} (cut : Cut escape) :
    ∃ more, escape = 92 :: more := by
  cases cut <;> exact ⟨_, rfl⟩

theorem Plain.append {front back : Bytes} (left : Plain front)
    (right : Plain back) : Plain (front ++ back) := by
  induction left with
  | nil =>
      exact right
  | byte double single _ ih =>
      exact .byte double single ih
  | @double inside rest space quoted white _ ih =>
      have joined := Plain.double quoted white ih
      simpa using joined
  | @single inside rest space quoted white _ ih =>
      have joined := Plain.single quoted white ih
      simpa using joined

/-! ## Reading a cut line -/

theorem splitWord_stray {rest : Bytes} {next : UInt8}
    (current tail : Bytes) (digits : startsHex rest = false)
    (stop : hexValue next = none) :
    splitWord .double current (92 :: 120 :: (rest ++ next :: tail)) =
      splitWord .double current (120 :: (rest ++ next :: tail)) := by
  match rest, digits with
  | [], _ =>
      simp [splitWord, stop]
  | [high], _ =>
      cases first : hexValue high <;> simp [splitWord, first, stop]
  | high :: low :: rest, digits =>
      cases first : hexValue high with
      | none =>
          simp [splitWord, first]
      | some c1 =>
          cases second : hexValue low with
          | none =>
              simp [splitWord, first, second]
          | some c2 =>
              simp [startsHex, first, second] at digits

theorem Quoted.run {inside : Bytes} (quoted : Quoted inside) {next : UInt8}
    (stop : hexValue next = none) (current tail : Bytes) :
    ∃ read, splitWord .double current (inside ++ next :: tail) =
      splitWord .double read (next :: tail) := by
  induction quoted generalizing current with
  | nil =>
      exact ⟨current, rfl⟩
  | @byte byte rest backslash quote _ ih =>
      rw [List.cons_append, splitWord_byte _ _ backslash quote]
      exact ih _
  | @escape byte rest letter _ ih =>
      rw [List.cons_append, List.cons_append, splitWord_escape _ _ letter]
      exact ih _
  | @hex high low rest first second _ ih =>
      obtain ⟨c1, first⟩ := Option.isSome_iff_exists.1 first
      obtain ⟨c2, second⟩ := Option.isSome_iff_exists.1 second
      rw [show 92 :: 120 :: high :: low :: rest ++ next :: tail =
          92 :: 120 :: high :: low :: (rest ++ next :: tail) from rfl,
        splitWord_hex _ _ first second]
      exact ih _
  | @stray rest digits _ ih =>
      rw [List.cons_append, List.cons_append,
        splitWord_stray _ _ digits stop]
      exact ih _

theorem SingleQuoted.run {inside : Bytes} (quoted : SingleQuoted inside)
    (current tail : Bytes) :
    ∃ read, splitWord .single current (inside ++ 39 :: tail) =
      some (closeQuote read tail) := by
  induction quoted generalizing current with
  | nil =>
      refine ⟨current, ?_⟩
      rw [List.nil_append, splitWord.eq_def]
      rfl
  | @byte byte rest quote backslash _ ih =>
      rw [List.cons_append, splitWord.eq_def]
      simp only [if_neg quote, if_neg backslash]
      exact ih _
  | @escape rest _ ih =>
      simp only [List.cons_append, splitWord, if_true]
      exact ih _
  | @backslash byte rest quote _ ih =>
      simp only [List.cons_append, splitWord, if_neg quote, if_true]
      exact ih _

theorem Cut.run {escape : Bytes} (cut : Cut escape) (current : Bytes) :
    splitWord .double current escape = none := by
  cases cut with
  | backslash =>
      simp [splitWord]
  | noDigit =>
      simp [splitWord]
  | oneDigit digit =>
      obtain ⟨c1, first⟩ := Option.isSome_iff_exists.1 digit
      simp [splitWord, first]

theorem Plain.run {front : Bytes} (plain : Plain front) {rest : Bytes}
    (open_none : ∀ current, splitWord .double current rest = none)
    (current : Bytes) :
    splitWord .plain current (front ++ 34 :: rest) = none ∨
      ∃ read back,
        splitWord .plain current (front ++ 34 :: rest) =
            some (.ok (read, .plain, back ++ 34 :: rest)) ∧
          Plain back ∧ back.length < front.length := by
  induction plain generalizing current with
  | nil =>
      left
      rw [List.nil_append, splitWord, if_neg (by decide), if_pos rfl]
      exact open_none current
  | @byte byte back double single backPlain ih =>
      rw [List.cons_append, splitWord]
      by_cases ends : endsWord byte = true
      · right
        rw [if_pos ends]
        exact ⟨current, back, rfl, backPlain, Nat.lt_succ_self _⟩
      · rw [if_neg ends, if_neg double, if_neg single]
        rcases ih (current ++ [byte]) with
          fails | ⟨read, later, word, laterPlain, shorter⟩
        · exact .inl fails
        · exact .inr ⟨read, later, word, laterPlain,
            Nat.lt_succ_of_lt shorter⟩
  | @double inside back space quoted white backPlain ih =>
      right
      obtain ⟨read, closed⟩ := @Quoted.run _ quoted 34 (by decide) current
        (space :: back ++ 34 :: rest)
      refine ⟨read, back, ?_, backPlain, by simp; omega⟩
      rw [show 34 :: (inside ++ 34 :: space :: back) ++ 34 :: rest =
          34 :: (inside ++ 34 :: (space :: back ++ 34 :: rest)) by simp,
        splitWord, if_neg (by decide), if_pos rfl, closed, splitWord_quote]
      simp [closeQuote, white]
  | @single inside back space quoted white backPlain ih =>
      right
      obtain ⟨read, closed⟩ := quoted.run current
        (space :: back ++ 34 :: rest)
      refine ⟨read, back, ?_, backPlain, by simp; omega⟩
      rw [show 39 :: (inside ++ 39 :: space :: back) ++ 34 :: rest =
          39 :: (inside ++ 39 :: (space :: back ++ 34 :: rest)) by simp,
        splitWord, if_neg (by decide), if_neg (by decide), if_pos rfl, closed]
      simp [closeQuote, white]

/-- What `splitargs` skips in front of a word. -/
abbrev skipped (byte : UInt8) : Bool :=
  byte == 0 || isWhitespace byte

theorem skipped_ne_quote {byte : UInt8} (skip : skipped byte = true) :
    byte ≠ 34 ∧ byte ≠ 39 := by
  constructor <;>
    · rintro rfl
      revert skip
      decide

theorem Plain.dropWhile {front : Bytes} (plain : Plain front)
    (rest : Bytes) :
    ∃ back, (front ++ 34 :: rest).dropWhile skipped = back ++ 34 :: rest ∧
      Plain back ∧ back.length ≤ front.length := by
  induction plain with
  | nil =>
      exact ⟨[], rfl, .nil, Nat.le_refl _⟩
  | @byte byte back double single backPlain ih =>
      rw [List.cons_append, List.dropWhile_cons]
      split
      · obtain ⟨later, dropped, laterPlain, shorter⟩ := ih
        exact ⟨later, dropped, laterPlain, Nat.le_succ_of_le shorter⟩
      · exact ⟨byte :: back, rfl, .byte double single backPlain,
          Nat.le_refl _⟩
  | double quoted white backPlain =>
      exact ⟨_, rfl, .double quoted white backPlain, Nat.le_refl _⟩
  | single quoted white backPlain =>
      exact ⟨_, rfl, .single quoted white backPlain, Nat.le_refl _⟩

theorem Plain.loop {rest : Bytes}
    (open_none : ∀ current, splitWord .double current rest = none)
    (count : Nat) {front : Bytes} (plain : Plain front)
    (enough : front.length < count) (result : List Bytes) :
    splitargsLoop count (front ++ 34 :: rest) result = none := by
  induction count generalizing front result with
  | zero =>
      exact absurd enough (Nat.not_lt_zero _)
  | succ count ih =>
      obtain ⟨word, dropped, wordPlain, le⟩ := plain.dropWhile rest
      obtain ⟨first, others, head⟩ :
          ∃ first others, word ++ 34 :: rest = first :: others := by
        cases word <;> exact ⟨_, _, rfl⟩
      have run := wordPlain.run open_none []
      rw [splitargsLoop, dropped]
      rw [head] at run ⊢
      rcases run with fails | ⟨read, back, ends, backPlain, shorter⟩
      · simp only [fails]
      · have more : (back ++ 34 :: rest).isEmpty = false := by
          simp
        simp only [ends, more, Bool.false_eq_true, if_false]
        exact ih backPlain (by omega) _

theorem CutLine.panics {line : Bytes} (cutLine : CutLine line) :
    splitargs line = none := by
  obtain ⟨front, inside, escape, rfl, plain, quoted, cut⟩ := cutLine
  have open_none : ∀ current,
      splitWord .double current (inside ++ escape) = none := by
    intro current
    obtain ⟨more, rfl⟩ := cut.head
    obtain ⟨read, run⟩ := @Quoted.run _ quoted 92 (by decide) current more
    rw [run]
    exact cut.run read
  exact Plain.loop open_none _ plain (by simp) []

/-! ## The lines read past the end of -/

theorem startsHex_append {front back : Bytes}
    (none : startsHex (front ++ back) = false) : startsHex front = false := by
  match front, none with
  | [], _ => rfl
  | [_], _ => rfl
  | _ :: _ :: _, none => exact none

theorem Quoted.stray_append {inside escape rest : Bytes}
    (split : 120 :: rest = inside ++ escape) (quoted : Quoted inside)
    (cut : escape.head? ≠ some 120) (digits : startsHex rest = false) :
    ∃ inside', 92 :: 120 :: rest = inside' ++ escape ∧ Quoted inside' := by
  cases inside with
  | nil =>
      rw [List.nil_append] at split
      rw [← split] at cut
      exact absurd rfl cut
  | cons first inside =>
      injection split with same tail
      subst same
      subst tail
      exact ⟨92 :: 120 :: inside, rfl,
        .stray (startsHex_append digits) quoted⟩

/-- What has been read of a line when a word breaks off, and when it ends with
more of the line behind it. -/
def Traced : SplitMode → Bytes → Option Split → Prop
  | .plain, line, none => CutLine line
  | .double, line, none =>
      ∃ inside escape, line = inside ++ escape ∧ Quoted inside ∧ Cut escape
  | .single, _, none => False
  | .plain, line, some (.ok (_, _, after)) =>
      after ≠ [] → ∃ front, line = front ++ after ∧ Plain front
  | .double, line, some (.ok (_, _, after)) =>
      after ≠ [] → ∃ inside space, line = inside ++ 34 :: space :: after ∧
        Quoted inside ∧ isWhitespace space
  | .single, line, some (.ok (_, _, after)) =>
      after ≠ [] → ∃ inside space, line = inside ++ 39 :: space :: after ∧
        SingleQuoted inside ∧ isWhitespace space
  | _, _, some (.error _) => True

theorem traced_closeQuote (current rest : Bytes) :
    Traced .double (34 :: rest) (some (closeQuote current rest)) ∧
      Traced .single (39 :: rest) (some (closeQuote current rest)) := by
  cases rest with
  | nil =>
      exact ⟨fun more => absurd rfl more, fun more => absurd rfl more⟩
  | cons next after =>
      rw [closeQuote]
      split
      · next white =>
          exact ⟨fun _ => ⟨[], next, rfl, .nil, white⟩,
            fun _ => ⟨[], next, rfl, .nil, white⟩⟩
      · exact ⟨trivial, trivial⟩

/-- A longer line is traced as a shorter one is when what was put in front can
stand in front of any inside. -/
theorem Traced.double_of {line longer : Bytes} {word : Option Split}
    (traced : Traced .double line word)
    (extend : ∀ inside escape, line = inside ++ escape →
      escape.head? ≠ some 120 → Quoted inside →
      ∃ inside', longer = inside' ++ escape ∧ Quoted inside') :
    Traced .double longer word := by
  match word, traced with
  | none, traced =>
      obtain ⟨inside, escape, split, quoted, cut⟩ := traced
      have head : escape.head? ≠ some 120 := by
        obtain ⟨more, rfl⟩ := cut.head
        simp
      obtain ⟨inside', split', quoted'⟩ := extend _ _ split head quoted
      exact ⟨inside', escape, split', quoted', cut⟩
  | some (.error _), _ =>
      trivial
  | some (.ok (_, _, after)), traced =>
      intro more
      obtain ⟨inside, space, split, quoted, white⟩ := traced more
      obtain ⟨inside', split', quoted'⟩ :=
        extend _ _ split (by simp) quoted
      exact ⟨inside', space, split', quoted', white⟩

theorem Traced.single_of {line longer : Bytes} {word : Option Split}
    (traced : Traced .single line word)
    (extend : ∀ inside tail, line = inside ++ 39 :: tail →
      SingleQuoted inside →
      ∃ inside', longer = inside' ++ 39 :: tail ∧ SingleQuoted inside') :
    Traced .single longer word := by
  match word, traced with
  | none, traced =>
      exact traced.elim
  | some (.error _), _ =>
      trivial
  | some (.ok (_, _, after)), traced =>
      intro more
      obtain ⟨inside, space, split, quoted, white⟩ := traced more
      obtain ⟨inside', split', quoted'⟩ := extend _ _ split quoted
      exact ⟨inside', space, split', quoted', white⟩

theorem CutLine.prepend {front line : Bytes} (plain : Plain front)
    (cutLine : CutLine line) : CutLine (front ++ line) := by
  obtain ⟨before, inside, escape, rfl, beforePlain, quoted, cut⟩ := cutLine
  exact ⟨front ++ before, inside, escape, (List.append_assoc ..).symm,
    plain.append beforePlain, quoted, cut⟩

theorem Traced.prepend {front line : Bytes} {word : Option Split}
    (plain : Plain front) (traced : Traced .plain line word) :
    Traced .plain (front ++ line) word := by
  match word, traced with
  | none, traced =>
      exact CutLine.prepend plain traced
  | some (.error _), _ =>
      trivial
  | some (.ok (_, _, after)), traced =>
      intro more
      obtain ⟨before, rfl, beforePlain⟩ := traced more
      exact ⟨front ++ before, (List.append_assoc ..).symm,
        plain.append beforePlain⟩

theorem Traced.open_double {line : Bytes} {word : Option Split}
    (traced : Traced .double line word) :
    Traced .plain (34 :: line) word := by
  match word, traced with
  | none, traced =>
      obtain ⟨inside, escape, rfl, quoted, cut⟩ := traced
      exact ⟨[], inside, escape, rfl, .nil, quoted, cut⟩
  | some (.error _), _ =>
      trivial
  | some (.ok (_, _, after)), traced =>
      intro more
      obtain ⟨inside, space, rfl, quoted, white⟩ := traced more
      exact ⟨34 :: (inside ++ [34, space]), by simp,
        .double quoted white .nil⟩

theorem Traced.open_single {line : Bytes} {word : Option Split}
    (traced : Traced .single line word) :
    Traced .plain (39 :: line) word := by
  match word, traced with
  | none, traced =>
      exact traced.elim
  | some (.error _), _ =>
      trivial
  | some (.ok (_, _, after)), traced =>
      intro more
      obtain ⟨inside, space, rfl, quoted, white⟩ := traced more
      exact ⟨39 :: (inside ++ [39, space]), by simp,
        .single quoted white .nil⟩

theorem endsWord_ne_quote {byte : UInt8} (ends : endsWord byte = true) :
    byte ≠ 34 ∧ byte ≠ 39 := by
  constructor <;>
    · rintro rfl
      revert ends
      decide

theorem traced_splitWord (mode : SplitMode) (current line : Bytes) :
    Traced mode line (splitWord mode current line) := by
  fun_induction splitWord mode current line with
  | case1 mode current =>
      cases mode <;> exact fun more => absurd rfl more
  | case2 current first rest ends =>
      obtain ⟨double, single⟩ := endsWord_ne_quote ends
      exact fun _ => ⟨[first], rfl, .byte double single .nil⟩
  | case3 current rest ends ih =>
      exact ih.open_double
  | case4 current rest ends other ih =>
      exact ih.open_single
  | case5 current first rest ends double single ih =>
      have plain : Plain [first] := .byte double single .nil
      exact ih.prepend plain
  | case6 current =>
      exact ⟨[], [92], rfl, .nil, .backslash⟩
  | case7 current =>
      exact ⟨[], [92, 120], rfl, .nil, .noDigit⟩
  | case8 current high more first ih =>
      refine ih.double_of fun inside escape split head quoted =>
        Quoted.stray_append split quoted head ?_
      cases more <;> simp [startsHex, first]
  | case9 current high c1 first =>
      exact ⟨[], [92, 120, high], rfl, .nil, .oneDigit (by simp [first])⟩
  | case10 current high c1 first low after second ih =>
      refine ih.double_of fun inside escape split head quoted =>
        Quoted.stray_append split quoted head ?_
      simp [startsHex, second]
  | case11 current high c1 first low after c2 second ih =>
      refine ih.double_of fun inside escape split head quoted => ?_
      subst split
      exact ⟨92 :: 120 :: high :: low :: inside, rfl,
        .hex (by simp [first]) (by simp [second]) quoted⟩
  | case12 current next after notLast notMore ih =>
      have letter : next ≠ 120 := by
        intro equal
        cases after with
        | nil => exact notLast equal rfl
        | cons high more => exact notMore high more equal rfl
      refine ih.double_of fun inside escape split head quoted => ?_
      subst split
      exact ⟨92 :: next :: inside, rfl, .escape letter quoted⟩
  | case13 current rest backslash =>
      exact (traced_closeQuote current rest).1
  | case14 current first rest backslash quote ih =>
      refine ih.double_of fun inside escape split head quoted => ?_
      subst split
      exact ⟨first :: inside, rfl, .byte backslash quote quoted⟩
  | case15 current rest =>
      exact (traced_closeQuote current rest).2
  | case16 current quote ih =>
      exact fun more => absurd rfl more
  | case17 current after quote ih =>
      refine ih.single_of fun inside tail split quoted => ?_
      subst split
      exact ⟨92 :: 39 :: inside, rfl, .escape quoted⟩
  | case18 current low after quote other ih =>
      refine ih.single_of fun inside tail split quoted => ?_
      cases inside with
      | nil =>
          injection split with same
          exact absurd same quote
      | cons first inside =>
          injection split with same rest
          subst same
          subst rest
          exact ⟨92 :: low :: inside, rfl, .backslash quote quoted⟩
  | case19 current first rest quote backslash ih =>
      refine ih.single_of fun inside tail split quoted => ?_
      subst split
      exact ⟨first :: inside, rfl, .byte quote backslash quoted⟩

theorem plain_takeWhile (line : Bytes) :
    Plain (line.takeWhile skipped) := by
  induction line with
  | nil =>
      exact .nil
  | cons byte line ih =>
      rw [List.takeWhile_cons]
      split
      · next skip =>
          exact .byte (skipped_ne_quote skip).1 (skipped_ne_quote skip).2 ih
      · exact .nil

theorem cutLine_of_loop (count : Nat) (line : Bytes) (result : List Bytes)
    (fails : splitargsLoop count line result = none) : CutLine line := by
  induction count generalizing line result with
  | zero =>
      exact absurd fails (by simp [splitargsLoop])
  | succ count ih =>
      rw [← List.takeWhile_append_dropWhile (p := skipped) (l := line)]
      apply CutLine.prepend (plain_takeWhile line)
      rw [splitargsLoop] at fails
      cases dropped : line.dropWhile skipped with
      | nil =>
          rw [dropped] at fails
          exact absurd fails (by simp)
      | cons first others =>
          have traced := traced_splitWord .plain [] (first :: others)
          rw [dropped] at fails
          simp only at fails
          cases word : splitWord .plain [] (first :: others) with
          | none =>
              rw [word] at traced
              exact traced
          | some split =>
              rw [word] at traced fails
              match split, traced, fails with
              | .ok (read, mode, after), traced, fails =>
                  simp only at fails
                  by_cases last : after = []
                  · subst last
                    simp only [List.isEmpty_nil, if_true] at fails
                    split at fails <;> cases fails
                  · obtain ⟨front, split, plain⟩ := traced last
                    rw [List.isEmpty_eq_false_iff.2 last] at fails
                    simp only [Bool.false_eq_true, if_false] at fails
                    rw [split]
                    exact CutLine.prepend plain (ih _ _ fails)

/-- `splitargs` stays inside its input exactly when the line is not cut inside
an escape of an open double quote. -/
theorem splitargs_total (line : Bytes) :
    splitargs line ≠ none ↔ ¬ CutLine line := by
  constructor
  · exact fun total cutLine => total cutLine.panics
  · exact fun whole fails => whole (cutLine_of_loop _ _ _ fails)

theorem splitargs_past_end : ¬ ∀ line, splitargs line ≠ none := by
  intro total
  exact total [34, 92] (CutLine.panics
    ⟨[], [], [92], rfl, .nil, .nil, .backslash⟩)

end RedVector.Util
