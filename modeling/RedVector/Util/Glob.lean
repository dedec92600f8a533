import RedVector.Util.Bytes

/-!
# Glob patterns

`glob_match` walks the pattern with two indices.  Here the pattern is the part
still to be read and only the position in the element is an index, so the
recursion is structural; `none` is an index out of bounds, a panic.
-/

namespace RedVector.Util

def matchChar (left right : UInt8) (ignoreCase : Bool) : Bool :=
  if ignoreCase then toAsciiLowercase left == toAsciiLowercase right
  else left == right

/-- Where in the pattern the loops of `glob_match` are. -/
inductive GlobMode where
  /-- In the outer loop. -/
  | outside
  /-- After a backslash of the outer loop. -/
  | quoted
  /-- After an opening bracket. -/
  | opened
  /-- In the loop over the characters of a bracket. -/
  | bracket (negated matched : Bool)
  /-- After a backslash in a bracket. -/
  | bracketQuoted (negated matched : Bool)
  /-- After the first character of a range, before its dash. -/
  | dash (negated matched : Bool) (start : UInt8)
  /-- After the dash of a range. -/
  | rangeEnd (negated matched : Bool) (start : UInt8)

/-- Whether `next` lies in the range of a bracket. -/
def inGlobRange (start finish next : UInt8) (ignoreCase : Bool) : Bool :=
  let low := if start > finish then finish else start
  let high := if start > finish then start else finish
  if ignoreCase then
    toAsciiLowercase low ≤ toAsciiLowercase next &&
      toAsciiLowercase next ≤ toAsciiLowercase high
  else low ≤ next && next ≤ high

/-- Whether the pattern continues with a dash and a further character. -/
def continuesRange (rest : Bytes) : Bool :=
  rest.head? == some 45 && 2 ≤ rest.length

def globMatchFrom (element : Bytes) (ignoreCase : Bool) :
    Bytes → GlobMode → Nat → Option Bool
  | [], .outside, position => some (position == element.length)
  | [], _, _ => none
  | first :: rest, mode, position =>
      -- one step of the outer loop: the character of the element is used up
      let advance :=
        if position + 1 = element.length then some rest.isEmpty
        else globMatchFrom element ignoreCase rest .outside (position + 1)
      let inBracket (negated isMatch : Bool) :=
        if first = 92 then
          globMatchFrom element ignoreCase rest
            (.bracketQuoted negated isMatch) position
        else if first = 93 then
          if isMatch == negated then some false else advance
        else if continuesRange rest then
          globMatchFrom element ignoreCase rest
            (.dash negated isMatch first) position
        else
          match element[position]? with
          | none => none
          | some next =>
              globMatchFrom element ignoreCase rest
                (.bracket negated
                  (isMatch || matchChar first next ignoreCase)) position
      match mode with
      | .outside =>
          if first = 42 then
            -- a run of stars counts as its last one
            if rest.head? = some 42 then
              globMatchFrom element ignoreCase rest .outside position
            else
              (List.range' position (element.length + 1 - position)).anyM
                (globMatchFrom element ignoreCase rest .outside)
          else if first = 63 then
            if position < element.length then advance else some false
          else if first = 92 then
            if position < element.length then
              globMatchFrom element ignoreCase rest .quoted position
            else some false
          else if first = 91 then
            globMatchFrom element ignoreCase rest .opened position
          else
            match element[position]? with
            | none => some false
            | some next =>
                if matchChar first next ignoreCase then advance
                else some false
      | .quoted =>
          match element[position]? with
          | none => some false
          | some next =>
              if matchChar first next ignoreCase then advance else some false
      | .opened =>
          if first = 94 then
            globMatchFrom element ignoreCase rest (.bracket true false)
              position
          else inBracket false false
      | .bracket negated isMatch => inBracket negated isMatch
      | .bracketQuoted negated isMatch =>
          match element[position]? with
          | none => none
          | some next =>
              globMatchFrom element ignoreCase rest
                (.bracket negated (isMatch || first == next)) position
      | .dash negated isMatch start =>
          globMatchFrom element ignoreCase rest
            (.rangeEnd negated isMatch start) position
      | .rangeEnd negated isMatch start =>
          match element[position]? with
          | none => none
          | some next =>
              globMatchFrom element ignoreCase rest
                (.bracket negated
                  (isMatch || inGlobRange start first next ignoreCase))
                position

/-- Whether an element matches a glob-like pattern; `none` is a panic. -/
def globMatch (pattern element : Bytes) (ignoreCase : Bool) : Option Bool :=
  globMatchFrom element ignoreCase pattern .outside 0

example : globMatch (text "foo*baz") (text "foobarbaz") false = some true := by
  decide

example : globMatch (text "foo*") (text "foo") false = some false := by
  decide

end RedVector.Util
