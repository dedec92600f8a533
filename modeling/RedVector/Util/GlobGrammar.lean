import RedVector.Util.Glob
import RedVector.Util.Wildcards

/-!
# The grammar of glob patterns

`Reads` takes a pattern apart into its tokens.  A pattern that is not well
formed has tokens up to a backslash at its end or up to a bracket that no
bracket closes.  The words of a well-formed pattern are those of its tokens.
-/

namespace RedVector.Util

/-- One entry between the brackets of a class. -/
inductive GlobItem where
  | char (byte : UInt8)
  | quoted (byte : UInt8)
  | range (start finish : UInt8)

inductive GlobToken where
  | star
  | question
  | literal (byte : UInt8)
  | quoted (byte : UInt8)
  | oneOf (negated : Bool) (items : List GlobItem)

/-- How a pattern ends. -/
inductive GlobEnd where
  | whole
  | dangling
  | unclosed
deriving DecidableEq

namespace Glob

/-! ## Tokens -/

/-- The items that stand before the closing bracket, and what is after it. -/
inductive Items : List GlobItem → Bytes → Bytes → Prop where
  | close {rest : Bytes} : Items [] (93 :: rest) rest
  | quoted {items : List GlobItem} {body rest : Bytes} (byte : UInt8) :
      Items items body rest →
      Items (.quoted byte :: items) (92 :: byte :: body) rest
  | range {items : List GlobItem} {body rest : Bytes} (start finish : UInt8) :
      start ≠ 92 → start ≠ 93 → Items items body rest →
      Items (.range start finish :: items) (start :: 45 :: finish :: body) rest
  | char {items : List GlobItem} {body rest : Bytes} (byte : UInt8) :
      byte ≠ 92 → byte ≠ 93 → continuesRange body = false →
      Items items body rest → Items (.char byte :: items) (byte :: body) rest

/-- A class behind its opening bracket. -/
inductive Class : Bool → List GlobItem → Bytes → Bytes → Prop where
  | oneOf {items : List GlobItem} {body rest : Bytes} :
      body.head? ≠ some 94 → Items items body rest → Class false items body rest
  | noneOf {items : List GlobItem} {body rest : Bytes} :
      Items items body rest → Class true items (94 :: body) rest

/-- A token that stands for one byte. -/
inductive Symbol : GlobToken → Bytes → Bytes → Prop where
  | question {rest : Bytes} : Symbol .question (63 :: rest) rest
  | literal {rest : Bytes} (byte : UInt8) :
      byte ≠ 42 → byte ≠ 63 → byte ≠ 92 → byte ≠ 91 →
      Symbol (.literal byte) (byte :: rest) rest
  | quoted {rest : Bytes} (byte : UInt8) :
      Symbol (.quoted byte) (92 :: byte :: rest) rest
  | oneOf {negated : Bool} {items : List GlobItem} {body rest : Bytes} :
      Class negated items body rest →
      Symbol (.oneOf negated items) (91 :: body) rest

inductive Reads : List GlobToken → GlobEnd → Bytes → Prop where
  | whole : Reads [] .whole []
  | dangling : Reads [] .dangling [92]
  | unclosed {body : Bytes} :
      (∀ negated items rest, ¬Class negated items body rest) →
      Reads [] .unclosed (91 :: body)
  | star {tokens : List GlobToken} {stop : GlobEnd} {rest : Bytes} :
      Reads tokens stop rest → Reads (.star :: tokens) stop (42 :: rest)
  | symbol {token : GlobToken} {tokens : List GlobToken} {stop : GlobEnd}
      {pattern rest : Bytes} :
      Symbol token pattern rest → Reads tokens stop rest →
      Reads (token :: tokens) stop pattern

variable {items : List GlobItem} {body rest pattern : Bytes}
  {token : GlobToken} {tokens : List GlobToken} {stop : GlobEnd}
  {negated : Bool}

theorem Items.shorter (reads : Items items body rest) :
    rest.length < body.length := by
  induction reads <;> simp only [List.length_cons] <;> omega

theorem Class.shorter (reads : Class negated items body rest) :
    rest.length < body.length := by
  cases reads with
  | oneOf _ reads => exact reads.shorter
  | noneOf reads => exact Nat.lt_succ_of_lt reads.shorter

theorem Symbol.shorter (reads : Symbol token pattern rest) :
    rest.length < pattern.length := by
  cases reads with
  | oneOf reads => exact Nat.lt_succ_of_lt reads.shorter
  | _ => simp only [List.length_cons]; omega

theorem Symbol.ne_star (reads : Symbol token pattern rest) : token ≠ .star := by
  cases reads <;> simp

/-- Any bytes can be read as a pattern. -/
theorem reads_any (pattern : Bytes) :
    ∃ tokens stop, Reads tokens stop pattern := by
  induction size : pattern.length using Nat.strong_induction_on
    generalizing pattern with
  | _ size ih =>
  -- what is left behind a symbol is shorter
  have behind {token rest} (reads : Symbol token pattern rest) :
      ∃ tokens stop, Reads tokens stop pattern := by
    obtain ⟨tokens, stop, after⟩ := ih _ (size ▸ reads.shorter) rest rfl
    exact ⟨_, stop, .symbol reads after⟩
  match pattern with
  | [] => exact ⟨_, _, .whole⟩
  | first :: rest =>
    by_cases star : first = 42
    · subst star
      obtain ⟨tokens, stop, after⟩ := ih _ (by simp [← size]) rest rfl
      exact ⟨_, stop, .star after⟩
    by_cases question : first = 63
    · subst question
      exact behind .question
    by_cases backslash : first = 92
    · subst backslash
      cases rest with
      | nil => exact ⟨_, _, .dangling⟩
      | cons byte rest => exact behind (.quoted byte)
    by_cases bracket : first = 91
    · subst bracket
      by_cases closed : ∃ negated items after, Class negated items rest after
      · obtain ⟨negated, items, after, reads⟩ := closed
        exact behind (.oneOf reads)
      · refine ⟨_, _, .unclosed fun negated items after reads => ?_⟩
        exact closed ⟨negated, items, after, reads⟩
    · exact behind (.literal first star question backslash bracket)

/-- A pattern with nothing left to read has come to its end. -/
theorem Reads.eq_nil (reads : Reads tokens stop []) :
    tokens = [] ∧ stop = .whole := by
  cases reads with
  | whole => exact ⟨rfl, rfl⟩
  | symbol reads _ => nomatch reads

theorem Reads.of_whole (reads : Reads [] .whole pattern) : pattern = [] := by
  cases reads
  rfl

theorem Reads.isEmpty (reads : Reads tokens stop pattern) :
    pattern = [] ↔ tokens = [] ∧ stop = .whole := by
  constructor
  · rintro rfl
    exact reads.eq_nil
  · rintro ⟨rfl, rfl⟩
    exact reads.of_whole

/-- The pattern goes on with a star when its next token is one. -/
theorem Reads.of_star (reads : Reads tokens stop (42 :: rest)) :
    ∃ after, tokens = .star :: after ∧ Reads after stop rest := by
  cases reads with
  | star reads => exact ⟨_, rfl, reads⟩
  | symbol reads _ =>
    cases reads with
    | literal _ star => exact absurd rfl star

/-! ## Words -/

end Glob

/-- The bytes that an item names. -/
def GlobItem.has : GlobItem → UInt8 → Bool
  | .char expected, byte => expected == byte
  | .quoted expected, byte => expected == byte
  -- the bounds come in either order
  | .range start finish, byte =>
      (start ≤ byte && byte ≤ finish) || (finish ≤ byte && byte ≤ start)

/-- The bytes of an item, in either case where the case is ignored. -/
def GlobItem.Holds (ignoreCase : Bool) (item : GlobItem) (byte : UInt8) :
    Prop :=
  ∃ same, matchChar same byte ignoreCase = true ∧ item.has same = true

/-- The test that `glob_match` makes of an item. -/
def GlobItem.tests (ignoreCase : Bool) : GlobItem → UInt8 → Bool
  | .char expected, byte => matchChar expected byte ignoreCase
  | .quoted expected, byte => expected == byte
  | .range start finish, byte => inGlobRange start finish byte ignoreCase

namespace GlobItem

variable {ignoreCase : Bool} {expected byte start finish : UInt8}

@[simp] theorem tests_char :
    (char expected).tests ignoreCase byte =
      matchChar expected byte ignoreCase :=
  rfl

@[simp] theorem tests_quoted :
    (quoted expected).tests ignoreCase byte = (expected == byte) :=
  rfl

@[simp] theorem tests_range :
    (range start finish).tests ignoreCase byte =
      inGlobRange start finish byte ignoreCase :=
  rfl

end GlobItem

/-- The bytes that a token other than a star stands for. -/
def GlobToken.Holds (ignoreCase : Bool) : GlobToken → UInt8 → Prop
  | .star, _ => False
  | .question, _ => True
  | .literal expected, byte => matchChar expected byte ignoreCase = true
  | .quoted expected, byte => matchChar expected byte ignoreCase = true
  | .oneOf negated items, byte =>
      (∃ item ∈ items, item.Holds ignoreCase byte) ↔ negated = false

/-- The test that `glob_match` makes of a token other than a star. -/
def GlobToken.tests (ignoreCase : Bool) : GlobToken → UInt8 → Bool
  | .star, _ => false
  | .question, _ => true
  | .literal expected, byte => matchChar expected byte ignoreCase
  | .quoted expected, byte => matchChar expected byte ignoreCase
  | .oneOf negated items, byte =>
      items.any (GlobItem.tests ignoreCase · byte) != negated

namespace GlobToken

variable {ignoreCase negated : Bool} {expected byte : UInt8}
  {items : List GlobItem}

@[simp] theorem tests_star : star.tests ignoreCase byte = false :=
  rfl

@[simp] theorem tests_question : question.tests ignoreCase byte = true :=
  rfl

@[simp] theorem tests_literal :
    (literal expected).tests ignoreCase byte =
      matchChar expected byte ignoreCase :=
  rfl

@[simp] theorem tests_quoted :
    (quoted expected).tests ignoreCase byte =
      matchChar expected byte ignoreCase :=
  rfl

@[simp] theorem tests_oneOf :
    (oneOf negated items).tests ignoreCase byte =
      (items.any (GlobItem.tests ignoreCase · byte) != negated) :=
  rfl

end GlobToken

namespace Glob

def piece (accepts : GlobToken → UInt8 → Prop) : GlobToken → Piece UInt8
  | .star => .star
  | token => .one (accepts token)

/-- The words of a pattern. -/
def language (ignoreCase : Bool) (tokens : List GlobToken) : Language UInt8 :=
  Piece.languageOf (tokens.map (piece (GlobToken.Holds ignoreCase)))

/-- The pieces of a pattern with the tests that `glob_match` makes. -/
def tested (ignoreCase : Bool) (tokens : List GlobToken) : List (Piece UInt8) :=
  tokens.map (piece fun token byte => token.tests ignoreCase byte = true)

variable {expected byte : UInt8} {item : GlobItem} {token : GlobToken}

theorem matchChar_exact :
    matchChar expected byte false = true ↔ expected = byte := by
  simp [matchChar]

theorem item_exact : item.Holds false byte ↔ item.tests false byte = true := by
  simp only [GlobItem.Holds, matchChar_exact, exists_eq_left]
  cases item with
  | char expected => simp [GlobItem.has, GlobItem.tests, matchChar_exact]
  | quoted expected => rfl
  | range start finish =>
    simp only [GlobItem.has, GlobItem.tests, inGlobRange, Bool.false_eq_true,
      if_false, Bool.or_eq_true, Bool.and_eq_true, decide_eq_true_eq]
    simp only [UInt8.le_iff_toNat_le, gt_iff_lt, UInt8.lt_iff_toNat_lt]
    split <;> omega

theorem token_exact :
    token.Holds false byte ↔ token.tests false byte = true := by
  cases token with
  | oneOf negated items =>
    simp only [GlobToken.Holds, GlobToken.tests, item_exact]
    cases negated <;> simp
  | _ => simp [GlobToken.Holds, GlobToken.tests]

/-- Where the case counts, `glob_match` tests for the words of the pattern. -/
theorem language_exact :
    language false tokens = Piece.languageOf (tested false tokens) := by
  unfold language tested
  congr 2
  funext token
  have same : token.Holds false = fun byte => token.tests false byte = true :=
    funext fun byte => propext token_exact
  cases token <;> simp only [piece, same]

end Glob

end RedVector.Util
