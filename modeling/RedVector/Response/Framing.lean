import RedVector.Codec.Reads
import RedVector.Response
import RedVector.Util.Digits

/-!
# The wire format of responses

A response is serialized without any escaping.  A decoder reads it back if and
only if no status and no error in it contains the bytes that end a line.
-/

namespace RedVector

open Util Codec

namespace Response

/-- The end of a line. -/
def crlf : Bytes := [13, 10]

mutual

/-- Serializes the response into an array of bytes using Redis protocol. -/
def asBytes : Response → Bytes
  | nil => text "$-1" ++ crlf
  | data d => text "$" ++ natToString d.length ++ crlf ++ d ++ crlf
  | integer i => text ":" ++ intToString i ++ crlf
  | error d => text "-" ++ d ++ crlf
  | status d => text "+" ++ d ++ crlf
  | array a => text "*" ++ natToString a.length ++ crlf ++ asBytesAll a

/-- The responses of an array one after the other. -/
def asBytesAll : List Response → Bytes
  | [] => []
  | first :: rest => asBytes first ++ asBytesAll rest

end

mutual

/-- Every status and every error is one line. -/
def framed : Response → Bool
  | error d => isLine d
  | status d => isLine d
  | array a => framedAll a
  | _ => true

def framedAll : List Response → Bool
  | [] => true
  | first :: rest => framed first && framedAll rest

end

@[simp] theorem framed_nil : nil.framed = true :=
  rfl

@[simp] theorem framed_integer (number : Int) :
    (integer number).framed = true :=
  rfl

@[simp] theorem framed_data (bytes : Bytes) : (data bytes).framed = true :=
  rfl

@[simp] theorem framed_error (message : Bytes) :
    (error message).framed = isLine message :=
  rfl

@[simp] theorem framed_status (message : Bytes) :
    (status message).framed = isLine message :=
  rfl

@[simp] theorem framed_ok : ok.framed = true :=
  rfl

@[simp] theorem framed_fail (message : String) :
    (fail message).framed = isLine (text message) :=
  rfl

@[simp] theorem framed_array (responses : List Response) :
    (array responses).framed = true ↔
      ∀ response ∈ responses, response.framed = true := by
  rw [framed]
  induction responses with
  | nil => simp [framedAll]
  | cons first rest ih =>
      rw [framedAll, Bool.and_eq_true, ih, List.forall_mem_cons]

/-! ## The decoder -/

/-- The bytes before the next end of a line, and those behind it. -/
def readLine : Bytes → Option (Bytes × Bytes)
  | [] => none
  | 13 :: 10 :: rest => some ([], rest)
  | byte :: rest =>
      if byte = 13 ∨ byte = 10 then none
      else (readLine rest).map fun (line, behind) => (byte :: line, behind)

def line : Decoder UInt8 Bytes :=
  readLine

/-- Reads what follows the first line of a response, which begins with `kind`.
The responses of an array are read by `inner`. -/
def decodeBehind (inner : Decoder UInt8 Response) (kind : UInt8)
    (head : Bytes) : Decoder UInt8 Response :=
  if kind = 43 then pure (status head)
  else if kind = 45 then pure (error head)
  else if kind = 58 then integer <$> ofOption (parseInteger head)
  else if kind = 42 then do
    let count ← ofOption (parseDigits head)
    array <$> many inner count
  else if kind = 36 then
    if head = text "-1" then pure nil
    else do
      let length ← ofOption (parseDigits head)
      let payload ← symbols length
      let behind ← line
      if behind = [] then pure (data payload) else ofOption none
  else ofOption none

theorem decodeBehind_integer (inner : Decoder UInt8 Response)
    (head : Bytes) :
    decodeBehind inner 58 head = integer <$> ofOption (parseInteger head) :=
  rfl

theorem decodeBehind_array (inner : Decoder UInt8 Response)
    (head : Bytes) :
    decodeBehind inner 42 head = (do
      let count ← ofOption (parseDigits head)
      array <$> many inner count) :=
  rfl

theorem decodeBehind_data (inner : Decoder UInt8 Response)
    {head : Bytes} (isLength : head ≠ text "-1") :
    decodeBehind inner 36 head = (do
      let length ← ofOption (parseDigits head)
      let payload ← symbols length
      let behind ← line
      if behind = [] then pure (data payload) else ofOption none) :=
  if_neg isLength

/-- Reads a response with at most `depth` arrays inside each other. -/
def decode : Nat → Decoder UInt8 Response
  | 0 => ofOption none
  | depth + 1 => do
      let kind ← symbol
      let head ← line
      decodeBehind (decode depth) kind head

/-- Reads one response that takes up all the bytes. -/
def ofBytes (bytes : Bytes) : Option Response :=
  complete (decode bytes.length) bytes

/-! ## Lines -/

@[simp] theorem isLine_intToString (number : Int) :
    isLine (intToString number) = true :=
  isLine_iff.mpr fun _ => intToString_line

@[simp] theorem isLine_natToString (number : Nat) :
    isLine (natToString number) = true :=
  isLine_intToString (Int.ofNat number)

theorem readLine_cons
    {byte : UInt8} {rest : Bytes} (inside : byte ≠ 13 ∧ byte ≠ 10) :
    readLine (byte :: rest) =
      (readLine rest).map fun (line, behind) => (byte :: line, behind) := by
  rw [readLine.eq_3]
  · rw [if_neg (by simp [inside])]
  · intro others same
    cases same
    exact absurd rfl inside.1

/-- A line is read up to its end. -/
theorem readLine_line {bytes : Bytes} (isLine : isLine bytes = true)
    (rest : Bytes) :
    readLine (bytes ++ (crlf ++ rest)) = some (bytes, rest) := by
  induction bytes with
  | nil => rfl
  | cons byte bytes ih =>
      obtain ⟨inside, others⟩ := (isLine_cons byte bytes).mp isLine
      rw [List.cons_append, readLine_cons inside, ih others]
      rfl

/-- Only a line is read back whole. -/
theorem isLine_of_readLine {bytes rest behind : Bytes}
    (read : readLine (bytes ++ (crlf ++ rest)) = some (bytes, behind)) :
    isLine bytes = true ∧ behind = rest := by
  induction bytes with
  | nil =>
      cases read
      exact ⟨rfl, rfl⟩
  | cons byte bytes ih =>
      by_cases inside : byte ≠ 13 ∧ byte ≠ 10
      · rw [List.cons_append, readLine_cons inside] at read
        obtain ⟨⟨line, left⟩, others, same⟩ :=
          Option.map_eq_some_iff.mp read
        cases same
        obtain ⟨whole, rfl⟩ := ih others
        exact ⟨(isLine_cons byte bytes).mpr ⟨inside, whole⟩, rfl⟩
      · rw [List.cons_append] at read
        unfold readLine at read
        split at read
        · cases read
        · cases read
        · rename_i same
          cases same
          rw [if_pos (by tauto)] at read
          cases read

theorem reads_line {bytes : Bytes} (isLine : isLine bytes = true) :
    Reads line (bytes ++ crlf) bytes := by
  intro rest
  rw [List.append_assoc]
  exact readLine_line isLine rest

/-! ## Reading back -/

theorem asBytesAll_eq (responses : List Response) :
    asBytesAll responses = responses.flatMap asBytes := by
  induction responses with
  | nil => rfl
  | cons first rest ih => rw [asBytesAll, List.flatMap_cons, ih]

theorem length_le_of_mem
    {response : Response} {responses : List Response}
    (member : response ∈ responses) :
    response.asBytes.length ≤ (asBytesAll responses).length := by
  rw [asBytesAll_eq]
  exact (List.sublist_flatten_of_mem
    (List.mem_map_of_mem member)).length_le

/-- A response is read by its first line and what follows it. -/
theorem reads_decode
    {depth : Nat} {kind : UInt8} {head more : Bytes} {response : Response}
    (isLine : isLine head = true)
    (others : Reads (decodeBehind (decode depth) kind head) more response) :
    Reads (decode (depth + 1)) (kind :: (head ++ crlf ++ more)) response :=
  reads_symbol_bind ((reads_line isLine).bind others)

/-- The same for a response that is one line. -/
theorem reads_decode_line
    {depth : Nat} {kind : UInt8} {head : Bytes} {response : Response}
    (isLine : isLine head = true)
    (others : decodeBehind (decode depth) kind head = pure response) :
    Reads (decode (depth + 1)) (kind :: (head ++ crlf)) response := by
  have reads : Reads (decodeBehind (decode depth) kind head) [] response :=
    others ▸ reads_pure response
  have whole := reads_decode isLine reads
  rw [List.append_nil] at whole
  exact whole

theorem ofOption_parseInteger (number : Int) :
    (ofOption (parseInteger (intToString number)) : Decoder UInt8 Int) =
      pure number := by
  rw [parseInteger_intToString]
  rfl

theorem ofOption_parseDigits (number : Nat) :
    (ofOption (parseDigits (natToString number)) : Decoder UInt8 Nat) =
      pure number := by
  rw [parseDigits_natToString]
  rfl

/-- A length is not the one of no data. -/
theorem natToString_ne_negative (number : Nat) :
    natToString number ≠ text "-1" := by
  intro same
  have parsed := parseDigits_natToString number
  rw [same] at parsed
  cases parsed

theorem reads_nil (depth : Nat) :
    Reads (decode (depth + 1)) nil.asBytes nil :=
  reads_decode_line (by decide) rfl

theorem reads_integer (depth : Nat) (number : Int) :
    Reads (decode (depth + 1)) (integer number).asBytes (integer number) := by
  have same : decodeBehind (decode depth) 58 (intToString number) =
      pure (integer number) := by
    rw [decodeBehind_integer, ofOption_parseInteger, map_pure]
  exact reads_decode_line (isLine_intToString number) same

theorem reads_data (depth : Nat) (bytes : Bytes) :
    Reads (decode (depth + 1)) (data bytes).asBytes (data bytes) := by
  have payload : Reads (decodeBehind (decode depth) 36
      (natToString bytes.length)) (bytes ++ crlf) (data bytes) := by
    rw [decodeBehind_data _ (natToString_ne_negative _),
      ofOption_parseDigits, pure_bind]
    refine (reads_symbols bytes).bind ?_
    exact (reads_line isLine_nil).ends (reads_pure (data bytes))
  have whole := reads_decode (isLine_natToString _) payload
  simpa [asBytes, text] using whole

/-- A response in which every line is one is read back, whatever follows. -/
theorem reads_asBytes
    {response : Response} {depth : Nat} (framed : response.framed = true)
    (deep : response.asBytes.length ≤ depth) :
    Reads (decode depth) response.asBytes response := by
  induction depth generalizing response with
  | zero =>
      cases response with
      | _ => simp [asBytes, text] at deep
  | succ depth ih =>
      cases response with
      | nil => exact reads_nil depth
      | integer number => exact reads_integer depth number
      | data bytes => exact reads_data depth bytes
      | error message => exact reads_decode_line framed rfl
      | status message => exact reads_decode_line framed rfl
      | array responses =>
          have each := (framed_array responses).mp framed
          have inside : (asBytesAll responses).length ≤ depth := by
            simp only [asBytes, text, List.length_append] at deep
            simp at deep
            omega
          have readEach : ∀ response ∈ responses, ∀ bytes,
              some response.asBytes = some bytes →
                Reads (decode depth) bytes (id response) := by
            intro response member bytes encoded
            cases encoded
            exact ih (each response member)
              ((length_le_of_mem member).trans inside)
          have elements : Reads (decodeBehind (decode depth) 42
              (natToString responses.length)) (asBytesAll responses)
              (array responses) := by
            rw [decodeBehind_array, ofOption_parseDigits, pure_bind,
              asBytesAll_eq]
            have readAll := reads_many readEach
              (encodeAll_total asBytes responses)
            rw [List.map_id] at readAll
            exact readAll.map array
          have whole := reads_decode (isLine_natToString _) elements
          simpa [asBytes, text] using whole

/-! ## What is read back -/

/-- The first line is read before what follows it. -/
theorem decode_run
    (depth : Nat) (kind : UInt8) (input : Bytes) :
    (decode (depth + 1)).run (kind :: input) =
      (readLine input).bind fun read =>
        (decodeBehind (decode depth) kind read.1).run read.2 :=
  rfl

/-- A response that is one line is only read back if its line is one. -/
theorem isLine_of_decode
    {depth : Nat} {kind : UInt8} {message tail rest : Bytes}
    {make : Bytes → Response} (injective : Function.Injective make)
    (made : ∀ head, decodeBehind (decode depth) kind head =
      pure (make head))
    (read : (decode (depth + 1)).run (kind :: (message ++ crlf) ++ tail) =
      some (make message, rest)) :
    isLine message = true ∧ rest = tail := by
  rw [List.cons_append, List.append_assoc, decode_run] at read
  obtain ⟨⟨head, behind⟩, line, read⟩ := Option.bind_eq_some_iff.mp read
  rw [made] at read
  obtain ⟨same, rfl⟩ : make head = make message ∧ behind = rest := by
    simpa using read
  exact isLine_of_readLine (injective same ▸ line)

/-- Only a response in which every line is one is read back. -/
theorem framed_of_decode
    {response : Response} {depth : Nat} {tail rest : Bytes}
    (read : (decode depth).run (response.asBytes ++ tail) =
      some (response, rest)) :
    response.framed = true ∧ rest = tail := by
  induction depth generalizing response tail rest with
  | zero => cases read
  | succ depth ih =>
      cases response with
      | nil => exact ⟨rfl, (reads_nil depth).rest_eq read⟩
      | integer number => exact ⟨rfl, (reads_integer depth number).rest_eq read⟩
      | data bytes => exact ⟨rfl, (reads_data depth bytes).rest_eq read⟩
      | error message =>
          exact isLine_of_decode (fun _ _ => error.inj) (fun _ => rfl) read
      | status message =>
          exact isLine_of_decode (fun _ _ => status.inj) (fun _ => rfl) read
      | array responses =>
          have shape : (array responses).asBytes ++ tail =
              42 :: (natToString responses.length ++
                (crlf ++ (asBytesAll responses ++ tail))) := by
            simp [asBytes, text]
          rw [shape, decode_run,
            readLine_line (isLine_natToString _) _, Option.bind_some,
            decodeBehind_array, ofOption_parseDigits, pure_bind,
            StateT.run_map, asBytesAll_eq] at read
          obtain ⟨⟨elements, left⟩, readAll, same⟩ :=
            Option.map_eq_some_iff.mp read
          obtain ⟨rfl, rfl⟩ : elements = responses ∧ left = rest := by
            simpa using same
          obtain ⟨framed, same⟩ :=
            good_of_many (fun _ _ _ _ read => ih read) readAll
          exact ⟨(framed_array elements).mpr framed, same⟩

/-- A response is read back from its bytes if and only if every status and
every error in it is one line. -/
theorem ofBytes_asBytes_iff (response : Response) :
    ofBytes response.asBytes = some response ↔ response.framed = true := by
  constructor
  · intro read
    unfold ofBytes complete at read
    split at read
    · rename_i value run
      cases read
      rw [← List.append_nil response.asBytes] at run
      exact (framed_of_decode run).1
    · cases read
  · intro framed
    exact (reads_asBytes framed le_rfl).complete

end Response

end RedVector
