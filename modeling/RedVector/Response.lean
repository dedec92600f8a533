import RedVector.Util.Bytes

/-!
# Responses
-/

namespace RedVector

/-- A command response to send to a client. -/
inductive Response where
  /-- No data. -/
  | nil
  /-- A number. -/
  | integer (number : Int)
  /-- Binary data. -/
  | data (bytes : Bytes)
  /-- A simple error string. -/
  | error (message : Bytes)
  /-- A simple status string. -/
  | status (message : Bytes)
  /-- An array of responses that may mix different types. -/
  | array (responses : List Response)

namespace Response

def isError : Response → Bool
  | error _ => true
  | _ => false

/-- An error reply with a text of the source. -/
def fail (message : String) : Response :=
  error (text message)

def ok : Response :=
  status (text "OK")

end Response

/-- A command that waits for one of its keys to be updated. -/
structure Wait where
  /-- The command without its timeout. -/
  arguments : List Bytes
  /-- The timeout as it was given; 0 is forever. -/
  timeout : Int
  /-- When the command was run. -/
  time : Int
  /-- The channel on which the updates of the keys arrive. -/
  mailbox : Nat

/-- No response was issued. -/
inductive ResponseError where
  /-- The command generated no response. -/
  | noReply
  /-- The command generated no response yet. -/
  | wait (pending : Wait)

/-- The result of a command. -/
abbrev Answer := Except ResponseError Response

end RedVector
