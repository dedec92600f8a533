import RedVector.Util.GlobGrammar

/-!
# The walk of glob_match

The walk ends as soon as the element is used up behind a byte, and it reads the
element for every item of a class, whether or not a byte is left.  `Found` and
`Breaks` say from the tokens of a pattern where it succeeds and where it
panics.
-/

namespace RedVector.Util.Glob

/-! ## Success and panic -/

/-- With no byte left the next class reads one. -/
inductive Overruns (stop : GlobEnd) : List GlobToken → Prop where
  | unclosed : stop = .unclosed → Overruns stop []
  | items {negated : Bool} {items : List GlobItem} {tokens : List GlobToken} :
      items ≠ [] → Overruns stop (.oneOf negated items :: tokens)
  | skip {tokens : List GlobToken} :
      Overruns stop tokens → Overruns stop (.oneOf true [] :: tokens)

def Found (ignoreCase : Bool) (stop : GlobEnd) (tokens : List GlobToken)
    (word : Bytes) : Prop :=
  stop = .whole ∧ Piece.Eager (tested ignoreCase tokens) word

/-- The walk comes to a byte that is not there.  A star tries the later
positions only where the earlier ones fail. -/
inductive Breaks (ignoreCase : Bool) (stop : GlobEnd) :
    List GlobToken → Bytes → Prop where
  | unclosed {word : Bytes} :
      stop = .unclosed → Breaks ignoreCase stop [] word
  | dangling {byte : UInt8} {word : Bytes} :
      stop = .dangling → Breaks ignoreCase stop [] (byte :: word)
  | exhausted {tokens : List GlobToken} :
      Overruns stop tokens → Breaks ignoreCase stop tokens []
  | next {token : GlobToken} {tokens : List GlobToken} {byte : UInt8}
      {word : Bytes} :
      token.tests ignoreCase byte = true → word ≠ [] →
      Breaks ignoreCase stop tokens word →
      Breaks ignoreCase stop (token :: tokens) (byte :: word)
  | here {tokens : List GlobToken} {word : Bytes} :
      Breaks ignoreCase stop tokens word →
      Breaks ignoreCase stop (.star :: tokens) word
  | later {tokens : List GlobToken} {byte : UInt8} {word : Bytes} :
      ¬Found ignoreCase stop tokens (byte :: word) →
      Breaks ignoreCase stop (.star :: tokens) word →
      Breaks ignoreCase stop (.star :: tokens) (byte :: word)

/-- What a result of the walk says. -/
def Outcome (ignoreCase : Bool) (stop : GlobEnd) (tokens : List GlobToken)
    (word : Bytes) : Option Bool → Prop
  | none => Breaks ignoreCase stop tokens word
  | some true =>
      ¬Breaks ignoreCase stop tokens word ∧ Found ignoreCase stop tokens word
  | some false =>
      ¬Breaks ignoreCase stop tokens word ∧ ¬Found ignoreCase stop tokens word

/-- What a result says past the end of the element. -/
def Past (stop : GlobEnd) (tokens : List GlobToken) : Option Bool → Prop
  | none => Overruns stop tokens
  | some matched => matched = false ∧ ¬Overruns stop tokens

section Tokens

variable {ignoreCase negated : Bool} {stop : GlobEnd} {token : GlobToken}
  {tokens : List GlobToken} {items : List GlobItem} {byte : UInt8}
  {word : Bytes}

theorem found_nil :
    Found ignoreCase stop [] word ↔ stop = .whole ∧ word = [] := by
  refine and_congr_right fun _ => ⟨fun eager => ?_, ?_⟩
  · cases eager
    rfl
  · rintro rfl
    exact .nil

theorem tested_symbol (symbol : token ≠ .star) :
    tested ignoreCase (token :: tokens) =
      .one (fun byte => token.tests ignoreCase byte = true) ::
        tested ignoreCase tokens := by
  cases token <;> first | rfl | exact absurd rfl symbol

theorem tested_eq_nil : tested ignoreCase tokens = [] ↔ tokens = [] :=
  List.map_eq_nil_iff

theorem found_symbol (symbol : token ≠ .star) :
    Found ignoreCase stop (token :: tokens) (byte :: word) ↔
      token.tests ignoreCase byte = true ∧ (word = [] → tokens = []) ∧
        Found ignoreCase stop tokens word := by
  rw [Found, tested_symbol symbol, Piece.eager_one, tested_eq_nil, Found]
  tauto

theorem not_found_symbol_nil (symbol : token ≠ .star) :
    ¬Found ignoreCase stop (token :: tokens) [] := by
  rw [Found, tested_symbol symbol]
  exact fun found => Piece.not_eager_one_nil found.2

theorem found_star_nil :
    Found ignoreCase stop (.star :: tokens) [] ↔
      Found ignoreCase stop tokens [] := by
  refine and_congr_right fun _ => Iff.trans Piece.eager_star ?_
  constructor
  · rintro ⟨skipped, rest, split, eager⟩
    rwa [(List.append_eq_nil_iff.1 split.symm).2] at eager
  · exact fun eager => ⟨[], [], rfl, eager⟩

theorem found_star_cons :
    Found ignoreCase stop (.star :: tokens) (byte :: word) ↔
      Found ignoreCase stop tokens (byte :: word) ∨
        Found ignoreCase stop (.star :: tokens) word := by
  rw [Found, Found, Found, ← and_or_left]
  refine and_congr_right fun _ => ?_
  constructor
  · intro eager
    obtain ⟨skipped, rest, split, found⟩ := Piece.eager_star.1 eager
    cases skipped with
    | nil =>
      rw [split]
      exact .inl found
    | cons first skipped =>
      obtain ⟨-, rfl⟩ := List.cons.inj split
      exact .inr (.star skipped found)
  · rintro (eager | eager)
    · exact .star [] eager
    · obtain ⟨skipped, rest, rfl, found⟩ := Piece.eager_star.1 eager
      exact .star (byte :: skipped) found

theorem breaks_symbol (symbol : token ≠ .star) :
    Breaks ignoreCase stop (token :: tokens) (byte :: word) ↔
      token.tests ignoreCase byte = true ∧ word ≠ [] ∧
        Breaks ignoreCase stop tokens word := by
  constructor
  · intro breaks
    cases breaks with
    | next accepted more breaks => exact ⟨accepted, more, breaks⟩
    | here _ => exact absurd rfl symbol
    | later _ _ => exact absurd rfl symbol
  · rintro ⟨accepted, more, breaks⟩
    exact .next accepted more breaks

theorem breaks_symbol_nil (symbol : token ≠ .star) :
    Breaks ignoreCase stop (token :: tokens) [] ↔
      Overruns stop (token :: tokens) := by
  constructor
  · intro breaks
    cases breaks with
    | exhausted overruns => exact overruns
    | here _ => exact absurd rfl symbol
  · exact .exhausted

theorem breaks_nil :
    Breaks ignoreCase stop [] word ↔
      stop = .unclosed ∨ stop = .dangling ∧ word ≠ [] := by
  constructor
  · intro breaks
    cases breaks with
    | unclosed ends => exact .inl ends
    | dangling ends => exact .inr ⟨ends, by simp⟩
    | exhausted overruns =>
      cases overruns with
      | unclosed ends => exact .inl ends
  · rintro (ends | ⟨ends, more⟩)
    · exact .unclosed ends
    · obtain ⟨byte, word, rfl⟩ := List.exists_cons_of_ne_nil more
      exact .dangling ends

theorem breaks_star_nil :
    Breaks ignoreCase stop (.star :: tokens) [] ↔
      Breaks ignoreCase stop tokens [] := by
  constructor
  · intro breaks
    cases breaks with
    | exhausted overruns => nomatch overruns
    | here breaks => exact breaks
  · exact .here

theorem breaks_star_cons :
    Breaks ignoreCase stop (.star :: tokens) (byte :: word) ↔
      Breaks ignoreCase stop tokens (byte :: word) ∨
        ¬Found ignoreCase stop tokens (byte :: word) ∧
          Breaks ignoreCase stop (.star :: tokens) word := by
  constructor
  · intro breaks
    cases breaks with
    | next accepted _ _ => nomatch accepted
    | here breaks => exact .inl breaks
    | later fails breaks => exact .inr ⟨fails, breaks⟩
  · rintro (breaks | ⟨fails, breaks⟩)
    · exact .here breaks
    · exact .later fails breaks

/-- Two stars find what one finds. -/
theorem found_star_star :
    Found ignoreCase stop (.star :: .star :: tokens) word ↔
      Found ignoreCase stop (.star :: tokens) word := by
  induction word with
  | nil => rw [found_star_nil]
  | cons byte word ih =>
    rw [found_star_cons, ih, found_star_cons]
    tauto

/-- Two stars break where one does. -/
theorem breaks_star_star :
    Breaks ignoreCase stop (.star :: .star :: tokens) word ↔
      Breaks ignoreCase stop (.star :: tokens) word := by
  induction word with
  | nil => rw [breaks_star_nil]
  | cons byte word ih =>
    rw [breaks_star_cons, ih, breaks_star_cons, found_star_cons]
    tauto

theorem outcome_congr {others : List GlobToken} {other : Bytes}
    {result : Option Bool}
    (breaks : Breaks ignoreCase stop tokens word ↔
      Breaks ignoreCase stop others other)
    (found : Found ignoreCase stop tokens word ↔
      Found ignoreCase stop others other)
    (outcome : Outcome ignoreCase stop tokens word result) :
    Outcome ignoreCase stop others other result := by
  match result with
  | none => exact breaks.1 outcome
  | some true => exact ⟨mt breaks.2 outcome.1, found.1 outcome.2⟩
  | some false => exact ⟨mt breaks.2 outcome.1, mt found.2 outcome.2⟩

/-- A star goes on where its present position fails. -/
def retry (later : Option Bool) : Option Bool → Option Bool
  | some false => later
  | result => result

/-- The first position of a star decides unless it fails. -/
theorem outcome_star {result : Option Bool} {later : Option Bool}
    (here : Outcome ignoreCase stop tokens (byte :: word) result)
    (after : Outcome ignoreCase stop (.star :: tokens) word later) :
    Outcome ignoreCase stop (.star :: tokens) (byte :: word)
      (retry later result) := by
  match result with
  | none => exact breaks_star_cons.2 (.inl here)
  | some true =>
    refine ⟨fun breaks => ?_, found_star_cons.2 (.inl here.2)⟩
    rcases breaks_star_cons.1 breaks with breaks | ⟨fails, -⟩
    · exact here.1 breaks
    · exact fails here.2
  | some false =>
    refine outcome_congr ?_ ?_ after
    · rw [breaks_star_cons]
      exact ⟨fun breaks => .inr ⟨here.2, breaks⟩,
        fun breaks => (breaks.resolve_left here.1).2⟩
    · rw [found_star_cons]
      exact ⟨.inr, fun found => found.resolve_left here.2⟩

theorem outcome_refused (symbol : token ≠ .star)
    (refused : token.tests ignoreCase byte = false) :
    Outcome ignoreCase stop (token :: tokens) (byte :: word) (some false) := by
  simp [Outcome, breaks_symbol symbol, found_symbol symbol, refused]

theorem outcome_more {result : Option Bool} (symbol : token ≠ .star)
    (accepted : token.tests ignoreCase byte = true) (more : word ≠ [])
    (after : Outcome ignoreCase stop tokens word result) :
    Outcome ignoreCase stop (token :: tokens) (byte :: word) result := by
  refine outcome_congr ?_ ?_ after
  · simp [breaks_symbol symbol, accepted, more]
  · simp [found_symbol symbol, accepted, more]

/-- Behind the last byte the walk ends. -/
theorem outcome_last {rest : Bytes} (symbol : token ≠ .star)
    (accepted : token.tests ignoreCase byte = true)
    (reads : Reads tokens stop rest) :
    Outcome ignoreCase stop (token :: tokens) [byte] (some rest.isEmpty) := by
  have breaks : ¬Breaks ignoreCase stop (token :: tokens) [byte] := by
    simp [breaks_symbol symbol]
  have found : Found ignoreCase stop (token :: tokens) [byte] ↔ rest = [] := by
    rw [found_symbol symbol, reads.isEmpty]
    constructor
    · rintro ⟨-, last, whole, -⟩
      exact ⟨last rfl, whole⟩
    · rintro ⟨rfl, rfl⟩
      exact ⟨accepted, fun _ => rfl, found_nil.2 ⟨rfl, rfl⟩⟩
  cases rest with
  | nil => exact ⟨breaks, found.2 rfl⟩
  | cons _ _ => exact ⟨breaks, fun holds => nomatch found.1 holds⟩

end Tokens

/-! ## Steps of the walk -/

section Walk

attribute [local simp] globMatchFrom

variable {element : Bytes} {ignoreCase negated : Bool} {position : Nat}
  {byte : UInt8} {items : List GlobItem} {body rest pattern : Bytes}
  {token : GlobToken} {tokens : List GlobToken} {stop : GlobEnd}

/-- The end of a turn of the outer loop, the element being one byte on. -/
def advance (element : Bytes) (ignoreCase : Bool) (rest : Bytes)
    (position : Nat) : Option Bool :=
  if position + 1 = element.length then some rest.isEmpty
  else globMatchFrom element ignoreCase rest .outside (position + 1)

theorem items_walk (reads : Items items body rest)
    (inside : element[position]? = some byte) (matched : Bool) :
    globMatchFrom element ignoreCase body (.bracket negated matched) position =
      if (matched || items.any (GlobItem.tests ignoreCase · byte)) == negated
      then some false else advance element ignoreCase rest position := by
  induction reads generalizing matched with
  | close => simp [globMatchFrom, advance]
  | quoted expected _ ih =>
    simp [globMatchFrom, inside, ih, Bool.or_assoc]
  | range start finish backslash bracket _ ih =>
    simp [globMatchFrom, inside, ih, backslash, bracket, continuesRange,
      Bool.or_assoc]
  | char expected backslash bracket single _ ih =>
    simp [globMatchFrom, inside, ih, backslash, bracket, single,
      Bool.or_assoc]

/-- Any item reads the element. -/
theorem items_past (reads : Items items body rest) (some : items ≠ [])
    (outside : element[position]? = none) (matched : Bool) :
    globMatchFrom element ignoreCase body (.bracket negated matched) position =
      none := by
  cases reads with
  | close => exact absurd rfl some
  | quoted expected _ => simp [globMatchFrom, outside]
  | range start finish backslash bracket _ =>
    simp [globMatchFrom, outside, backslash, bracket, continuesRange]
  | char expected backslash bracket single _ =>
    simp [globMatchFrom, outside, backslash, bracket, single]

/-- A bracket is opened as a class that has matched nothing yet. -/
theorem opened (plain : body.head? ≠ some 94) :
    globMatchFrom element ignoreCase body .opened position =
      globMatchFrom element ignoreCase body (.bracket false false)
        position := by
  cases body with
  | nil => rfl
  | cons first body =>
    have plain : first ≠ 94 := by simpa using plain
    simp only [globMatchFrom, plain, if_false]

theorem class_opened (reads : Class negated items body rest) :
    ∃ inner, Items items inner rest ∧
      globMatchFrom element ignoreCase body .opened position =
        globMatchFrom element ignoreCase inner (.bracket negated false)
          position := by
  cases reads with
  | oneOf plain reads => exact ⟨body, reads, opened plain⟩
  | noneOf reads => exact ⟨_, reads, by simp [globMatchFrom]⟩

theorem open_bracket :
    globMatchFrom element ignoreCase (91 :: body) .outside position =
      globMatchFrom element ignoreCase body .opened position := by
  simp [globMatchFrom]

/-- A byte that a token stands for is used up. -/
theorem symbol_walk (reads : Symbol token pattern rest)
    (inside : element[position]? = some byte) :
    globMatchFrom element ignoreCase pattern .outside position =
      if token.tests ignoreCase byte then
        advance element ignoreCase rest position
      else some false := by
  obtain ⟨more, rfl⟩ := List.getElem?_eq_some_iff.1 inside
  cases reads with
  | question => simp [globMatchFrom, more, advance]
  | literal expected star question backslash bracket =>
    simp [globMatchFrom, star, question, backslash, bracket, more, advance]
    rfl
  | quoted expected =>
    simp [globMatchFrom, more, advance]
    rfl
  | oneOf reads =>
    obtain ⟨inner, items, walk⟩ := class_opened reads
    rw [open_bracket, walk, items_walk items inside, Bool.false_or,
      GlobToken.tests_oneOf, bne]
    cases List.any _ _ == _ <;> rfl

/-- With the element used up only a class goes on. -/
theorem symbol_past (reads : Symbol token pattern rest)
    (outside : element.length ≤ position) :
    globMatchFrom element ignoreCase pattern .outside position =
      match token with
      | .oneOf _ (_ :: _) => none
      | .oneOf true [] =>
          globMatchFrom element ignoreCase rest .outside (position + 1)
      | _ => some false := by
  have absent : element[position]? = none := List.getElem?_eq_none outside
  have less : ¬position < element.length := Nat.not_lt.2 outside
  have other : position + 1 ≠ element.length := by omega
  cases reads with
  | question => simp [globMatchFrom, less]
  | literal expected star question backslash bracket =>
    simp [globMatchFrom, star, question, backslash, bracket, absent]
  | quoted expected => simp [globMatchFrom, less]
  | @oneOf negated items _ _ reads =>
    obtain ⟨inner, inside, walk⟩ := class_opened reads
    rw [open_bracket, walk]
    cases items with
    | nil =>
      cases inside
      cases negated <;> simp [globMatchFrom, other]
    | cons item items => exact items_past inside (by simp) absent false

/-- A bracket that is never closed is read to the end of the pattern. -/
theorem items_unclosed (unclosed : ∀ items rest, ¬Items items body rest)
    (matched : Bool) :
    globMatchFrom element ignoreCase body (.bracket negated matched) position =
      none := by
  induction size : body.length using Nat.strong_induction_on
    generalizing body matched with
  | _ size ih =>
  match body with
  | [] => rfl
  | first :: body =>
    by_cases backslash : first = 92
    · subst backslash
      match body with
      | [] => simp [globMatchFrom]
      | byte :: body =>
        have inner := ih body.length
          (by simp only [← size, List.length_cons]; omega)
          (fun items rest reads => unclosed _ _ (.quoted byte reads))
        cases read : element[position]? <;>
          simp [globMatchFrom, read, inner]
    by_cases bracket : first = 93
    · subst bracket
      exact absurd .close (unclosed [] body)
    by_cases single : continuesRange body = false
    · have inner := ih body.length (by simp [← size])
        (fun items rest reads =>
          unclosed _ _ (.char first backslash bracket single reads))
      cases read : element[position]? <;>
        simp [globMatchFrom, backslash, bracket, single, read, inner]
    · have range := eq_true_of_ne_false single
      match body with
      | [] => simp [continuesRange] at range
      | [_] => simp [continuesRange] at range
      | dash :: finish :: body =>
        have dashed : dash = 45 := by simpa [continuesRange] using range
        subst dashed
        have inner := ih body.length
          (by simp only [← size, List.length_cons]; omega)
          (fun items rest reads =>
            unclosed _ _ (.range first finish backslash bracket reads))
        cases read : element[position]? <;>
          simp [globMatchFrom, backslash, bracket, range, read, inner]

theorem class_unclosed
    (unclosed : ∀ negated items rest, ¬Class negated items body rest) :
    globMatchFrom element ignoreCase (91 :: body) .outside position = none := by
  rw [open_bracket]
  by_cases negated : body.head? = some 94
  · obtain ⟨inner, rfl⟩ := List.head?_eq_some_iff.1 negated
    have never : ∀ items rest, ¬Items items inner rest :=
      fun items rest reads => unclosed true items rest (.noneOf reads)
    simp [globMatchFrom, items_unclosed never]
  · have never : ∀ items rest, ¬Items items body rest :=
      fun items rest reads => unclosed false items rest (.oneOf negated reads)
    rw [opened negated, items_unclosed never]

theorem stars :
    globMatchFrom element ignoreCase (42 :: 42 :: rest) .outside position =
      globMatchFrom element ignoreCase (42 :: rest) .outside position := by
  simp [globMatchFrom]

theorem star_walk (single : rest.head? ≠ some 42)
    (inside : position < element.length) :
    globMatchFrom element ignoreCase (42 :: rest) .outside position =
      retry
        (globMatchFrom element ignoreCase (42 :: rest) .outside (position + 1))
        (globMatchFrom element ignoreCase rest .outside position) := by
  have turn : element.length + 1 - position =
      element.length + 1 - (position + 1) + 1 := by omega
  simp only [globMatchFrom, single, if_true, if_false, turn, List.range'_succ,
    List.anyM_cons]
  rcases globMatchFrom element ignoreCase rest .outside position with
    _ | _ | _ <;> rfl

theorem star_end (single : rest.head? ≠ some 42) :
    globMatchFrom element ignoreCase (42 :: rest) .outside element.length =
      globMatchFrom element ignoreCase rest .outside element.length := by
  have turn : element.length + 1 - element.length = 1 := by omega
  simp only [globMatchFrom, single, if_true, if_false, turn, List.range'_one,
    List.anyM_cons]
  rcases globMatchFrom element ignoreCase rest .outside element.length with
    _ | _ | _ <;> rfl

theorem star_past (outside : element.length < position) :
    globMatchFrom element ignoreCase (42 :: rest) .outside position =
      some false := by
  induction rest with
  | nil =>
    have turn : element.length + 1 - position = 0 := by omega
    simp [globMatchFrom, turn]
  | cons first rest ih =>
    by_cases again : first = 42
    · subst again
      rw [stars, ih]
    · have turn : element.length + 1 - position = 0 := by omega
      simp [globMatchFrom, again, turn]

/-! ## The whole walk -/

/-- With the element used up a symbol fails, and a class that reads nothing
goes past the end. -/
theorem symbol_overruns (reads : Symbol token pattern rest)
    (outside : element.length ≤ position)
    (after : Past stop tokens
      (globMatchFrom element ignoreCase rest .outside (position + 1))) :
    Past stop (token :: tokens)
      (globMatchFrom element ignoreCase pattern .outside position) := by
  rw [symbol_past reads outside]
  cases reads with
  | @oneOf negated items _ _ reads =>
    cases items with
    | cons item items => exact .items (by simp)
    | nil =>
      cases negated with
      | false =>
        refine ⟨rfl, fun overruns => ?_⟩
        cases overruns with
        | items some => exact some rfl
      | true =>
        have skips : Overruns stop (.oneOf true [] :: tokens) ↔
            Overruns stop tokens := by
          constructor
          · intro overruns
            cases overruns with
            | items some => exact absurd rfl some
            | skip overruns => exact overruns
          · exact .skip
        simp only
        cases result : globMatchFrom _ _ _ _ _ with
        | none => exact skips.2 (by rwa [result] at after)
        | some matched =>
          rw [result] at after
          exact ⟨after.1, mt skips.1 after.2⟩
  | _ => exact ⟨rfl, nofun⟩

/-- Past the end of the element the walk fails or overruns it further. -/
theorem walk_past (reads : Reads tokens stop pattern)
    (outside : element.length < position) :
    Past stop tokens
      (globMatchFrom element ignoreCase pattern .outside position) := by
  induction reads generalizing position with
  | whole =>
    refine ⟨?_, by rintro ⟨⟨⟩⟩⟩
    simp [outside.ne']
  | dangling =>
    have walk : globMatchFrom element ignoreCase [92] .outside position =
        some false := by simp [globMatchFrom, Nat.not_lt.2 outside.le]
    rw [walk]
    exact ⟨rfl, by rintro ⟨⟨⟩⟩⟩
  | unclosed unclosed =>
    rw [class_unclosed unclosed]
    exact .unclosed rfl
  | star reads =>
    rw [star_past outside]
    exact ⟨rfl, nofun⟩
  | symbol reads _ ih =>
    exact symbol_overruns reads outside.le (ih (Nat.lt_succ_of_lt outside))

/-- With the element used up a symbol is not found. -/
theorem outcome_past {result : Option Bool} (symbol : token ≠ .star)
    (past : Past stop (token :: tokens) result) :
    Outcome ignoreCase stop (token :: tokens) [] result := by
  match result with
  | none => exact .exhausted past
  | some true => nomatch past.1
  | some false =>
    exact ⟨mt (breaks_symbol_nil symbol).1 past.2, not_found_symbol_nil symbol⟩

/-- The walk of a symbol from the walk of the pattern behind it. -/
theorem walk_symbol (reads : Symbol token pattern rest)
    (after : Reads tokens stop rest)
    (inside : position ≤ element.length)
    (behind : position + 1 ≤ element.length →
      Outcome ignoreCase stop tokens (element.drop (position + 1))
        (globMatchFrom element ignoreCase rest .outside (position + 1))) :
    Outcome ignoreCase stop (token :: tokens) (element.drop position)
      (globMatchFrom element ignoreCase pattern .outside position) := by
  have symbol := reads.ne_star
  rcases Nat.lt_or_eq_of_le inside with more | rfl
  · have read : element[position]? = some element[position] := by simp [more]
    rw [symbol_walk reads read, List.drop_eq_getElem_cons more]
    cases accepted : token.tests ignoreCase element[position] with
    | false => exact outcome_refused symbol accepted
    | true =>
      simp only [if_true, advance]
      by_cases last : position + 1 = element.length
      · rw [if_pos last, last, List.drop_length]
        exact outcome_last symbol accepted after
      · rw [if_neg last]
        refine outcome_more symbol accepted ?_ (behind more)
        simp only [ne_eq, List.drop_eq_nil_iff]
        omega
  · rw [List.drop_length]
    exact outcome_past symbol
      (symbol_overruns reads le_rfl (walk_past after (Nat.lt_succ_self _)))

/-- The walk of a star from the walks of the pattern behind it. -/
theorem walk_star (single : rest.head? ≠ some 42)
    (inside : position ≤ element.length)
    (behind : ∀ position ≤ element.length,
      Outcome ignoreCase stop tokens (element.drop position)
        (globMatchFrom element ignoreCase rest .outside position)) :
    Outcome ignoreCase stop (.star :: tokens) (element.drop position)
      (globMatchFrom element ignoreCase (42 :: rest) .outside position) := by
  induction left : element.length - position generalizing position with
  | zero =>
    obtain rfl : position = element.length := by omega
    have here := behind _ le_rfl
    rw [List.drop_length] at here ⊢
    rw [star_end single]
    exact outcome_congr breaks_star_nil.symm found_star_nil.symm here
  | succ left ih =>
    have more : position < element.length := by omega
    have here := behind position inside
    rw [List.drop_eq_getElem_cons more] at here ⊢
    rw [star_walk single more]
    exact outcome_star here (ih more (by omega))

/-- The walk finds or breaks as the tokens say. -/
theorem walk (reads : Reads tokens stop pattern)
    (inside : position ≤ element.length) :
    Outcome ignoreCase stop tokens (element.drop position)
      (globMatchFrom element ignoreCase pattern .outside position) := by
  induction reads generalizing position with
  | whole =>
    have ends : ¬Breaks ignoreCase .whole [] (element.drop position) := by
      simp [breaks_nil]
    have found : Found ignoreCase .whole [] (element.drop position) ↔
        position = element.length := by
      rw [found_nil, List.drop_eq_nil_iff, and_iff_right rfl]
      omega
    rw [globMatchFrom]
    by_cases last : position = element.length
    · rw [beq_iff_eq.2 last]
      exact ⟨ends, found.2 last⟩
    · rw [beq_false_of_ne last]
      exact ⟨ends, mt found.1 last⟩
  | dangling =>
    by_cases more : position < element.length
    · have walk : globMatchFrom element ignoreCase [92] .outside position =
          none := by simp [globMatchFrom, more]
      rw [walk]
      refine breaks_nil.2 (.inr ⟨rfl, ?_⟩)
      simp only [ne_eq, List.drop_eq_nil_iff]
      omega
    · have walk : globMatchFrom element ignoreCase [92] .outside position =
          some false := by simp [globMatchFrom, more]
      have last : element.drop position = [] := by
        rw [List.drop_eq_nil_iff]
        omega
      rw [walk, last]
      exact ⟨by simp [breaks_nil], by simp [found_nil]⟩
  | unclosed unclosed =>
    rw [class_unclosed unclosed]
    exact .unclosed rfl
  | @star _ _ rest reads ih =>
    by_cases single : rest.head? = some 42
    · obtain ⟨rest, rfl⟩ := List.head?_eq_some_iff.1 single
      obtain ⟨after, rfl, -⟩ := reads.of_star
      rw [stars]
      exact outcome_congr breaks_star_star.symm found_star_star.symm (ih inside)
    · exact walk_star single inside fun position inside => ih inside
  | symbol reads after ih => exact walk_symbol reads after inside ih

theorem globMatch_outcome (reads : Reads tokens stop pattern) :
    Outcome ignoreCase stop tokens element
      (globMatch pattern element ignoreCase) := by
  have outcome : Outcome ignoreCase stop tokens (element.drop 0)
    (globMatch pattern element ignoreCase) := walk reads (Nat.zero_le _)
  rwa [List.drop_zero] at outcome

end Walk

/-!
## What glob_match decides

Where its walk does not break, `glob_match` decides whether the element is a
word of the pattern as it tests it and leaves a byte to stars at the end.
-/

section

variable {ignoreCase : Bool} {stop : GlobEnd} {tokens : List GlobToken}
  {pattern element : Bytes}

theorem globMatch_eq_none (reads : Reads tokens stop pattern) :
    globMatch pattern element ignoreCase = none ↔
      Breaks ignoreCase stop tokens element := by
  have outcome : Outcome ignoreCase stop tokens element
    (globMatch pattern element ignoreCase) := globMatch_outcome reads
  cases result : globMatch pattern element ignoreCase with
  | none =>
    rw [result] at outcome
    exact iff_of_true rfl outcome
  | some matched =>
    rw [result] at outcome
    refine iff_of_false nofun ?_
    cases matched <;> exact outcome.1

theorem globMatch_eq_some (reads : Reads tokens stop pattern) {matched : Bool}
    (result : globMatch pattern element ignoreCase = some matched) :
    matched = true ↔ Found ignoreCase stop tokens element := by
  have outcome : Outcome ignoreCase stop tokens element
    (globMatch pattern element ignoreCase) := globMatch_outcome reads
  rw [result] at outcome
  cases matched with
  | false => exact iff_of_false nofun outcome.2
  | true => exact iff_of_true rfl outcome.2

/-- No byte is read that is not there exactly when the walk of the pattern
over the element does not break. -/
theorem globMatch_total (pattern element : Bytes) (ignoreCase : Bool) :
    globMatch pattern element ignoreCase ≠ none ↔
      ∃ tokens stop, Reads tokens stop pattern ∧
        ¬Breaks ignoreCase stop tokens element := by
  constructor
  · intro returns
    obtain ⟨tokens, stop, reads⟩ := reads_any pattern
    exact ⟨tokens, stop, reads, mt (globMatch_eq_none reads).2 returns⟩
  · rintro ⟨tokens, stop, reads, sound⟩
    exact mt (globMatch_eq_none reads).1 sound

/-- A class is compared with a byte of the empty element. -/
theorem globMatch_reads_past :
    ¬∀ (pattern element : Bytes) (ignoreCase : Bool),
      globMatch pattern element ignoreCase ≠ none :=
  fun total => total (text "[a]") [] false (by decide)

/-- The decision of any property of the element. -/
theorem decides_iff (reads : Reads tokens .whole pattern) {property : Prop} :
    (∃ matched, globMatch pattern element ignoreCase = some matched ∧
        (matched = true ↔ property)) ↔
      ¬Breaks ignoreCase .whole tokens element ∧
        (property ↔ element ∈ Piece.languageOf (tested ignoreCase tokens) ∧
          Piece.Ends (tested ignoreCase tokens) element) := by
  have found : Found ignoreCase .whole tokens element ↔
      element ∈ Piece.languageOf (tested ignoreCase tokens) ∧
        Piece.Ends (tested ignoreCase tokens) element :=
    (and_iff_right rfl).trans Piece.eager_iff
  rw [← found, ← globMatch_eq_none reads]
  constructor
  · rintro ⟨matched, result, decides⟩
    refine ⟨by simp [result], ?_⟩
    rw [← decides, globMatch_eq_some reads result]
  · rintro ⟨returns, same⟩
    obtain ⟨matched, result⟩ := Option.ne_none_iff_exists'.1 returns
    exact ⟨matched, result, (globMatch_eq_some reads result).trans same.symm⟩

/-- `glob_match` decides the language of a well-formed pattern where the walk
does not break and the words as they are tested, with a byte for the stars at
the end, are those of the pattern. -/
theorem globMatch_language (reads : Reads tokens .whole pattern)
    (element : Bytes) (ignoreCase : Bool) :
    (∃ matched, globMatch pattern element ignoreCase = some matched ∧
        (matched = true ↔ element ∈ language ignoreCase tokens)) ↔
      ¬Breaks ignoreCase .whole tokens element ∧
        (element ∈ language ignoreCase tokens ↔
          element ∈ Piece.languageOf (tested ignoreCase tokens) ∧
            Piece.Ends (tested ignoreCase tokens) element) :=
  decides_iff reads

theorem reads_prefix : Reads [.literal 97, .star] .whole (text "a*") :=
  .symbol (.literal 97 (by decide) (by decide) (by decide) (by decide))
    (.star .whole)

theorem language_starts (rest : Bytes) :
    97 :: rest ∈ language false [.literal 97, .star] := by
  refine Piece.mem_one.2 ⟨97, rest, rfl, rfl, ?_⟩
  exact Piece.mem_star.2 ⟨rest, [], by simp, rfl⟩

theorem globMatch_language_prefix :
    ∃ matched, globMatch (text "a*") (text "ab") false = some matched ∧
      (matched = true ↔
        text "ab" ∈ language false [.literal 97, .star]) := by
  refine (globMatch_language reads_prefix (text "ab") false).2 ⟨?_, ?_⟩
  · have sound : globMatch (text "a*") (text "ab") false ≠ none := by decide
    exact mt (globMatch_eq_none reads_prefix).2 sound
  · refine iff_of_true (language_starts [98]) ⟨?_, ?_⟩
    · exact language_exact ▸ language_starts [98]
    · refine .inr (.inr ⟨[97], [98], rfl, by simp, ?_⟩)
      exact Piece.mem_one.2 ⟨97, [], rfl, rfl, rfl⟩

/-- A star at the end is not given the empty word. -/
theorem globMatch_starves :
    ¬∀ (pattern element : Bytes) (ignoreCase : Bool)
        (tokens : List GlobToken), Reads tokens .whole pattern →
      (globMatch pattern element ignoreCase = some true ↔
        element ∈ language ignoreCase tokens) := by
  intro decides
  have refused : globMatch (text "a*") (text "a") false = some false := by
    decide
  have found := (decides _ _ _ _ reads_prefix).2 (language_starts [])
  rw [show ([97] : Bytes) = text "a" from rfl, refused] at found
  nomatch found

end

end RedVector.Util.Glob
