import RedVector.Effect.Program

/-!
# Contracts

A contract tells which operations a program may call, and what it may rely on
in their answers.  A program that obeys its contract calls nothing else on any
machine whose answers are as promised, and it ends as it promises.
-/

namespace RedVector.Effect

/-- The calls that are allowed and the answers that are relied on. -/
structure Contract (I : Interface) where
  calls : I.Op → Prop
  answers : (op : I.Op) → I.Ret op → Prop

namespace Program

variable {I J : Interface} {ε α β σ : Type}

/-- With answers as promised the program only makes allowed calls, and it ends
as `ends` says unless it panics. -/
def Obeys (contract : Contract I) (ends : Except ε α → Prop) :
    Program I ε α → Prop
  | .pure value => ends (.ok value)
  | .throw error => ends (.error error)
  | .panic => True
  | .call op next => contract.calls op ∧ ∀ answer,
      contract.answers op answer → (next answer).Obeys contract ends

variable {contract : Contract I} {ends : Except ε α → Prop}

/-- What is asked of a part in front of a program. -/
def Then (contract : Contract I) (ends : Except ε β → Prop)
    (rest : α → Program I ε β) : Except ε α → Prop
  | .ok value => (rest value).Obeys contract ends
  | .error error => ends (.error error)

@[simp] theorem obeys_pure (value : α) :
    (Pure.pure value : Program I ε α).Obeys contract ends ↔
      ends (.ok value) :=
  Iff.rfl

@[simp] theorem obeys_pure_call (value : α) :
    (Program.pure value : Program I ε α).Obeys contract ends ↔
      ends (.ok value) :=
  Iff.rfl

@[simp] theorem obeys_throw (error : ε) :
    (MonadExcept.throw error : Program I ε α).Obeys contract ends ↔
      ends (.error error) :=
  Iff.rfl

@[simp] theorem obeys_orPanic (computed : Option α) :
    (orPanic computed : Program I ε α).Obeys contract ends ↔
      ∀ value, computed = some value → ends (.ok value) := by
  cases computed with
  | some value => simp [orPanic]
  | none => simp [orPanic, Obeys]

@[simp] theorem obeys_call (op : I.Op) (next : I.Ret op → Program I ε α) :
    (Program.call op next).Obeys contract ends ↔ contract.calls op ∧
      ∀ answer, contract.answers op answer →
        (next answer).Obeys contract ends :=
  Iff.rfl

@[simp] theorem obeys_ofExcept (computed : Except ε α) :
    (liftM computed : Program I ε α).Obeys contract ends ↔
      ends computed := by
  cases computed with
  | ok value => exact Iff.rfl
  | error error => exact Iff.rfl

@[simp] theorem obeys_bind
    (program : Program I ε α) (rest : α → Program I ε β)
    (ends : Except ε β → Prop) :
    (program >>= rest).Obeys contract ends ↔
      program.Obeys contract (Then contract ends rest) := by
  induction program with
  | pure value => exact Iff.rfl
  | throw error => exact Iff.rfl
  | panic => exact Iff.rfl
  | call op next ih =>
      exact and_congr_right fun _ =>
        forall_congr' fun answer => imp_congr_right fun _ => ih answer

@[simp] theorem then_ok
    (ends : Except ε β → Prop) (rest : α → Program I ε β) (value : α) :
    Then contract ends rest (.ok value) ↔
      (rest value).Obeys contract ends :=
  Iff.rfl

@[simp] theorem then_error
    (ends : Except ε β → Prop) (rest : α → Program I ε β) (error : ε) :
    Then contract ends rest (.error error) ↔ ends (.error error) :=
  Iff.rfl

@[simp] theorem obeys_map
    (program : Program I ε α) (transform : α → β)
    (ends : Except ε β → Prop) :
    (transform <$> program).Obeys contract ends ↔
      program.Obeys contract fun result => ends (result.map transform) := by
  rw [map_eq_pure_bind, obeys_bind]
  have same : Then contract ends
      (fun value => (Pure.pure (transform value) : Program I ε β)) =
      fun result : Except ε α => ends (result.map transform) := by
    funext result
    cases result with
    | ok value => rfl
    | error error => rfl
  rw [same]

theorem Obeys.mono
    {program : Program I ε α} {weaker : Except ε α → Prop}
    (obeys : program.Obeys contract ends)
    (weaken : ∀ result, ends result → weaker result) :
    program.Obeys contract weaker := by
  induction program with
  | pure value => exact weaken _ obeys
  | throw error => exact weaken _ obeys
  | panic => trivial
  | call op next ih =>
      exact ⟨obeys.1, fun answer honest => ih answer
        (obeys.2 answer honest)⟩

/-- A program of a smaller interface obeys what its operations are allowed in
the larger one. -/
theorem obeys_lift
    {inclusion : Interface.Inclusion I J} {contract : Contract J}
    (program : Program I ε α) :
    (program.lift inclusion).Obeys contract ends ↔
      program.Obeys
        { calls := fun op => contract.calls (inclusion.op op)
          answers := fun op answer => ∃ given,
            contract.answers (inclusion.op op) given ∧
              inclusion.answer op given = answer } ends := by
  induction program with
  | pure value => exact Iff.rfl
  | throw error => exact Iff.rfl
  | panic => exact Iff.rfl
  | call op next ih =>
      refine and_congr_right fun _ => ?_
      constructor
      · rintro obeys answer ⟨given, honest, rfl⟩
        exact (ih _).mp (obeys given honest)
      · intro obeys given honest
        exact (ih _).mpr (obeys _ ⟨given, honest, rfl⟩)

/-- On a machine that answers as promised and keeps what the promises rest on,
the program ends as it promises, and every call that it makes is allowed. -/
theorem Obeys.sound
    {machine : Machine I σ} {holds : σ → Prop}
    (honest : ∀ op state answer after, holds state → contract.calls op →
      machine.step op state = some (answer, after) →
      contract.answers op answer ∧ holds after)
    {program : Program I ε α} (obeys : program.Obeys contract ends)
    {state : σ} (start : holds state) :
    program.Along machine (fun op state => contract.calls op ∧ holds state)
        state ∧
      program.Ensures machine (fun result after => ends result ∧ holds after)
        state := by
  induction program generalizing state with
  | pure value =>
      refine ⟨trivial, ?_⟩
      intro result after ran
      cases ran
      exact ⟨obeys, start⟩
  | throw error =>
      refine ⟨trivial, ?_⟩
      intro result after ran
      cases ran
      exact ⟨obeys, start⟩
  | panic =>
      refine ⟨trivial, ?_⟩
      intro result after ran
      cases ran
  | call op next ih =>
      have step : ∀ answer after,
          machine.step op state = some (answer, after) →
            (next answer).Along machine
                (fun op state => contract.calls op ∧ holds state) after ∧
              (next answer).Ensures machine
                (fun result after => ends result ∧ holds after) after := by
        intro answer after stepped
        obtain ⟨promised, kept⟩ :=
          honest op state answer after start obeys.1 stepped
        exact ih answer (obeys.2 answer promised) kept
      constructor
      · exact ⟨⟨obeys.1, start⟩, fun answer after stepped =>
          (step answer after stepped).1⟩
      · exact ensures_call fun answer after stepped =>
          (step answer after stepped).2

end Program

end RedVector.Effect
