import RedVector.Util.Bytes

/-!
# Words of a line

`splitargs` walks the line with an index.  Here the line is the part still to
be read, so every look ahead is a match; `none` is an index past the end of the
line, a panic.
-/

namespace RedVector.Util

/-- `char::is_whitespace` of a byte. -/
def isWhitespace (byte : UInt8) : Bool :=
  9 ≤ byte && byte ≤ 13 || byte == 32 || byte == 133 || byte == 160

/-- `char::to_digit(16)`. -/
def hexValue (byte : UInt8) : Option Nat :=
  if 48 ≤ byte && byte ≤ 57 then some (byte.toNat - 48)
  else if 97 ≤ byte && byte ≤ 102 then some (byte.toNat - 87)
  else if 65 ≤ byte && byte ≤ 70 then some (byte.toNat - 55)
  else none

/-- Whether quotes are open in a word. -/
inductive SplitMode where
  | plain
  | double
  | single
  deriving DecidableEq

/-- What ends a word outside of quotes. -/
def endsWord (byte : UInt8) : Bool :=
  byte == 32 || byte == 9 || byte == 10 || byte == 13 || byte == 0

/-- What a backslash makes of the byte behind it in double quotes. -/
def unescaped (byte : UInt8) : UInt8 :=
  if byte = 110 then 10
  else if byte = 114 then 13
  else if byte = 116 then 9
  else byte

/-- A word, whether quotes are open at its end, and the line behind it. -/
abbrev Split := Except Unit (Bytes × SplitMode × Bytes)

/-- Behind a closing quote there is white space or the end of the line. -/
def closeQuote (current : Bytes) : Bytes → Split
  | [] => .ok (current, .plain, [])
  | next :: after =>
      if isWhitespace next then .ok (current, .plain, after) else .error ()

/-- Reads on in a word of which `current` has been read. -/
def splitWord : SplitMode → Bytes → Bytes → Option Split
  | mode, current, [] => some (.ok (current, mode, []))
  | .plain, current, first :: rest =>
      if endsWord first then some (.ok (current, .plain, rest))
      else if first = 34 then splitWord .double current rest
      else if first = 39 then splitWord .single current rest
      else splitWord .plain (current ++ [first]) rest
  | .double, current, first :: rest =>
      if first = 92 then
        match rest with
        | [] => none
        | 120 :: [] => none
        | 120 :: high :: more =>
            match hexValue high with
            | none => splitWord .double current (120 :: high :: more)
            | some c1 =>
                match more with
                | [] => none
                | low :: after =>
                    match hexValue low with
                    | none =>
                        splitWord .double current (120 :: high :: low :: after)
                    | some c2 =>
                        splitWord .double
                          (current ++ [(c1 * 16 + c2).toUInt8]) after
        | next :: after =>
            splitWord .double (current ++ [unescaped next]) after
      else if first = 34 then some (closeQuote current rest)
      else splitWord .double (current ++ [first]) rest
  | .single, current, first :: rest =>
      if first = 39 then some (closeQuote current rest)
      else if first = 92 then
        match rest with
        | [] => splitWord .single (current ++ [first]) []
        | next :: after =>
            if next = 39 then splitWord .single (current ++ [next]) after
            else splitWord .single (current ++ [first]) (next :: after)
      else splitWord .single (current ++ [first]) rest

theorem splitWord_quote (current tail : Bytes) :
    splitWord .double current (34 :: tail) =
      some (closeQuote current tail) := by
  rw [splitWord.eq_def]
  rfl

theorem splitWord_byte {byte : UInt8} (current tail : Bytes)
    (backslash : byte ≠ 92) (quote : byte ≠ 34) :
    splitWord .double current (byte :: tail) =
      splitWord .double (current ++ [byte]) tail := by
  rw [splitWord.eq_def]
  simp only [if_neg backslash, if_neg quote]

theorem splitWord_escape {byte : UInt8} (current tail : Bytes)
    (letter : byte ≠ 120) :
    splitWord .double current (92 :: byte :: tail) =
      splitWord .double (current ++ [unescaped byte]) tail := by
  simp [splitWord, letter]

theorem splitWord_hex {high low : UInt8} {c1 c2 : Nat}
    (current tail : Bytes) (first : hexValue high = some c1)
    (second : hexValue low = some c2) :
    splitWord .double current (92 :: 120 :: high :: low :: tail) =
      splitWord .double (current ++ [(c1 * 16 + c2).toUInt8]) tail := by
  simp [splitWord, first, second]

/-- The loop over the words, which runs at most as often as the line has
bytes. -/
def splitargsLoop : Nat → Bytes → List Bytes →
    Option (Except Unit (List Bytes))
  | 0, _, result => some (.ok result)
  | count + 1, rest, result =>
      match rest.dropWhile fun byte => byte == 0 || isWhitespace byte with
      | [] => some (.ok result)
      | first :: others =>
          match splitWord .plain [] (first :: others) with
          | none => none
          | some (.error error) => some (.error error)
          | some (.ok (current, mode, after)) =>
              if after.isEmpty then
                if mode = .plain then some (.ok (result ++ [current]))
                else some (.error ())
              else splitargsLoop count after (result ++ [current])

/-- The words of a line; `none` is a panic. -/
def splitargs (args : Bytes) : Option (Except Unit (List Bytes)) :=
  splitargsLoop args.length args []

example : splitargs (text "foo \"bar baz\"") =
    some (.ok [text "foo", text "bar baz"]) := by
  simp [splitargs, splitargsLoop, splitWord, closeQuote, isWhitespace,
    endsWord, text]

end RedVector.Util
