import Mathlib.Data.List.Basic

/-!
# Decoders

A decoder reads a value from the front of its input and leaves the rest.  What
one decoder reads back, a sequence of decoders reads back one after the other.
-/

namespace RedVector.Codec

section

/-- Reads a value from the front of a list of symbols. -/
abbrev Decoder (σ α : Type) := StateT (List σ) Option α

variable {σ α β : Type}

/-- The decoder reads exactly this input as the value, whatever follows it. -/
def Reads (decoder : Decoder σ α) (input : List σ) (value : α) : Prop :=
  ∀ rest, decoder.run (input ++ rest) = some (value, rest)

theorem reads_pure (value : α) :
    Reads (pure value : Decoder σ α) [] value :=
  fun _ => rfl

/-- What is read back leaves what follows it. -/
theorem Reads.rest_eq
    {decoder : Decoder σ α} {input tail rest : List σ} {value : α}
    (reads : Reads decoder input value)
    (read : decoder.run (input ++ tail) = some (value, rest)) :
    rest = tail := by
  rw [reads tail] at read
  cases read
  rfl

theorem Reads.bind
    {first : Decoder σ α} {next : α → Decoder σ β} {input more : List σ}
    {value : α} {result : β} (reads : Reads first input value)
    (others : Reads (next value) more result) :
    Reads (first >>= next) (input ++ more) result := by
  intro rest
  rw [List.append_assoc, StateT.run_bind, reads (more ++ rest)]
  exact others rest

/-- The same when the second decoder reads nothing. -/
theorem Reads.ends
    {first : Decoder σ α} {next : α → Decoder σ β} {input : List σ}
    {value : α} {result : β} (reads : Reads first input value)
    (others : Reads (next value) [] result) :
    Reads (first >>= next) input result := by
  have both := reads.bind others
  rw [List.append_nil] at both
  exact both

theorem Reads.map
    {decoder : Decoder σ α} {input : List σ} {value : α}
    (reads : Reads decoder input value) (transform : α → β) :
    Reads (transform <$> decoder) input (transform value) := by
  intro rest
  rw [StateT.run_map, reads rest]
  rfl

/-- A decision that reads nothing. -/
def ofOption (answer : Option α) : Decoder σ α :=
  fun input => answer.map fun value => (value, input)

theorem reads_ofOption {answer : Option α} {value : α}
    (same : answer = some value) :
    Reads (ofOption answer : Decoder σ α) [] value := by
  subst same
  exact fun _ => rfl

/-- The next symbol. -/
def symbol : Decoder σ σ
  | [] => none
  | first :: rest => some (first, rest)

theorem reads_symbol_bind
    {next : σ → Decoder σ α} {first : σ} {more : List σ} {result : α}
    (others : Reads (next first) more result) :
    Reads (symbol >>= next) (first :: more) result :=
  others

/-- The next symbols, if there are enough. -/
def symbols (count : Nat) : Decoder σ (List σ) :=
  fun input =>
    if input.length < count then none
    else some (input.take count, input.drop count)

theorem reads_symbols (taken : List σ) :
    Reads (symbols taken.length) taken taken := by
  intro rest
  show (if (taken ++ rest).length < taken.length then none else _) = _
  rw [if_neg (by simp)]
  simp

/-! ## Sequences -/

/-- Reads a number of values one after the other. -/
def many (decoder : Decoder σ α) : Nat → Decoder σ (List α)
  | 0 => pure []
  | count + 1 => do
      let value ← decoder
      (value :: ·) <$> many decoder count

/-- Encodes values one after the other; an encoder may fail. -/
def encodeAll (encode : α → Option (List σ)) : List α → Option (List σ)
  | [] => some []
  | element :: rest => do
      let first ← encode element
      let others ← encodeAll encode rest
      pure (first ++ others)

theorem encodeAll_total (encode : α → List σ) (elements : List α) :
    encodeAll (fun element => some (encode element)) elements =
      some (elements.flatMap encode) := by
  induction elements with
  | nil => rfl
  | cons element rest ih => simp [encodeAll, ih]

/-- If every encoded element is read back as its image, so is a sequence. -/
theorem reads_many
    {decoder : Decoder σ β} {encode : α → Option (List σ)} {image : α → β}
    {elements : List α} {input : List σ}
    (each : ∀ element ∈ elements, ∀ bytes, encode element = some bytes →
      Reads decoder bytes (image element))
    (encoded : encodeAll encode elements = some input) :
    Reads (many decoder elements.length) input (elements.map image) := by
  induction elements generalizing input with
  | nil =>
      cases encoded
      exact reads_pure []
  | cons element rest ih =>
      simp only [encodeAll, Option.bind_eq_bind, Option.bind_eq_some_iff,
        Option.pure_def, Option.some.injEq] at encoded
      obtain ⟨first, firstEncoded, others, othersEncoded, rfl⟩ := encoded
      have reads := each element List.mem_cons_self first firstEncoded
      have later := ih (fun other member =>
        each other (List.mem_cons_of_mem element member)) othersEncoded
      exact reads.bind (later.map (image element :: ·))

/-- Where each element is only read back if it is good, a sequence is only
read back if all of them are. -/
theorem good_of_many
    {decoder : Decoder σ α} {encode : α → List σ} {good : α → Prop}
    {elements : List α} {tail rest : List σ}
    (each : ∀ element ∈ elements, ∀ tail rest,
      decoder.run (encode element ++ tail) = some (element, rest) →
        good element ∧ rest = tail)
    (read : (many decoder elements.length).run
      (elements.flatMap encode ++ tail) = some (elements, rest)) :
    (∀ element ∈ elements, good element) ∧ rest = tail := by
  induction elements generalizing tail with
  | nil =>
      cases read
      exact ⟨by simp, rfl⟩
  | cons element others ih =>
      rw [List.flatMap_cons, List.append_assoc, List.length_cons, many,
        StateT.run_bind] at read
      obtain ⟨⟨value, behind⟩, first, read⟩ :=
        Option.bind_eq_some_iff.mp read
      rw [StateT.run_map] at read
      obtain ⟨⟨values, left⟩, later, same⟩ := Option.map_eq_some_iff.mp read
      obtain ⟨⟨rfl, rfl⟩, rfl⟩ :
          (value = element ∧ values = others) ∧ left = rest := by
        simpa using same
      obtain ⟨isGood, rfl⟩ := each value List.mem_cons_self _ _ first
      obtain ⟨areGood, rfl⟩ := ih (fun other member =>
        each other (List.mem_cons_of_mem value member)) later
      exact ⟨List.forall_mem_cons.mpr ⟨isGood, areGood⟩, rfl⟩

/-- A sequence can be encoded if each of its elements can. -/
theorem encodeAll_isSome
    {encode : α → Option (List σ)} {elements : List α} :
    (encodeAll encode elements).isSome ↔
      ∀ element ∈ elements, (encode element).isSome := by
  induction elements with
  | nil => simp [encodeAll]
  | cons element rest ih =>
      rw [List.forall_mem_cons, ← ih]
      cases first : encode element with
      | none => simp [encodeAll, first]
      | some bytes =>
          cases others : encodeAll encode rest with
          | none => simp [encodeAll, first, others]
          | some more => simp [encodeAll, first, others]

/-! ## Whole inputs -/

/-- Reads a value and nothing else. -/
def complete (decoder : Decoder σ α) (input : List σ) : Option α :=
  match decoder.run input with
  | some (value, []) => some value
  | _ => none

theorem Reads.complete
    {decoder : Decoder σ α} {input : List σ} {value : α}
    (reads : Reads decoder input value) :
    Codec.complete decoder input = some value := by
  have whole := reads []
  rw [List.append_nil] at whole
  unfold Codec.complete
  rw [whole]

end

/-!
## Decoders of a fixed size

They answer on every input that is long enough, whatever it is, and leave what
comes behind it.
-/

section

variable {σ α β : Type}

/-- The decoder takes so many symbols of any input that has them. -/
def Takes (decoder : Decoder σ α) (count : Nat) : Prop :=
  ∀ input, count ≤ input.length →
    ∃ value, decoder.run input = some (value, input.drop count)

theorem takes_pure (value : α) : Takes (pure value : Decoder σ α) 0 :=
  fun _ _ => ⟨value, rfl⟩

theorem takes_symbol : Takes (symbol : Decoder σ σ) 1 := by
  intro input long
  cases input with
  | nil => cases long
  | cons first rest => exact ⟨first, rfl⟩

theorem takes_symbols (count : Nat) :
    Takes (symbols count : Decoder σ (List σ)) count := by
  intro input long
  refine ⟨input.take count, ?_⟩
  show (if input.length < count then none else _) = _
  rw [if_neg (Nat.not_lt.mpr long)]

theorem Takes.bind
    {decoder : Decoder σ α} {next : α → Decoder σ β} {first others : Nat}
    (takes : Takes decoder first)
    (continues : ∀ value, Takes (next value) others) :
    Takes (decoder >>= next) (first + others) := by
  intro input long
  obtain ⟨value, runs⟩ := takes input (by omega)
  obtain ⟨result, finishes⟩ := continues value (input.drop first) (by
    rw [List.length_drop]
    omega)
  refine ⟨result, ?_⟩
  rw [StateT.run_bind, runs]
  rw [List.drop_drop] at finishes
  exact finishes

theorem Takes.map {decoder : Decoder σ α} {count : Nat}
    (takes : Takes decoder count) (f : α → β) :
    Takes (f <$> decoder) count := by
  intro input long
  obtain ⟨value, runs⟩ := takes input long
  refine ⟨f value, ?_⟩
  rw [StateT.run_map, runs]
  rfl

/-- Without a slice of the input there is nothing to take. -/
theorem Takes.slice {decoder : Decoder σ α} {count offset : Nat}
    (takes : Takes decoder count) {input : List σ}
    (inside : offset + count ≤ input.length) :
    ∃ value, decoder.run (input.drop offset) =
      some (value, input.drop (offset + count)) := by
  obtain ⟨value, runs⟩ := takes (input.drop offset) (by
    rw [List.length_drop]
    omega)
  rw [List.drop_drop] at runs
  exact ⟨value, runs⟩

end

end RedVector.Codec
