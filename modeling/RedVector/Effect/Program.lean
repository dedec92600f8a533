import Mathlib.Logic.Basic

/-!
# Programs over an interface of operations

A `Program` is a tree of calls to the operations of an interface that ends in
a value, in an error or in a panic.  A `Machine` answers the operations over a
state and may panic.  The rules of this file relate what one operation does to
what a whole program does: post-conditions, preservation and simulation.
-/

namespace RedVector.Effect

/-- The operations that a program may call and the type of every answer. -/
structure Interface where
  Op : Type
  Ret : Op → Type

/-- A computation that calls operations and ends in a value, an error or a
panic. -/
inductive Program (I : Interface) (ε α : Type) : Type where
  | pure (value : α)
  | throw (error : ε)
  | panic
  | call (op : I.Op) (next : I.Ret op → Program I ε α)

/-- Answers each operation over the states `σ`; `none` is a panic. -/
structure Machine (I : Interface) (σ : Type) where
  step : (op : I.Op) → σ → Option (I.Ret op × σ)

namespace Program

variable {I J : Interface} {ε α β σ τ : Type}

protected def bind :
    Program I ε α → (α → Program I ε β) → Program I ε β
  | .pure value, rest => rest value
  | .throw error, _ => .throw error
  | .panic, _ => .panic
  | .call op next, rest => .call op fun answer => (next answer).bind rest

protected def tryCatch :
    Program I ε α → (ε → Program I ε α) → Program I ε α
  | .pure value, _ => .pure value
  | .throw error, handler => handler error
  | .panic, _ => .panic
  | .call op next, handler =>
      .call op fun answer => (next answer).tryCatch handler

instance : Monad (Program I ε) where
  pure := .pure
  bind := Program.bind

instance : MonadExceptOf ε (Program I ε) where
  throw := .throw
  tryCatch := Program.tryCatch

def ofExcept : Except ε α → Program I ε α
  | .ok value => .pure value
  | .error error => .throw error

instance : MonadLift (Except ε) (Program I ε) where
  monadLift := ofExcept

/-- The value of a step that panics on `none`. -/
def orPanic : Option α → Program I ε α
  | some value => .pure value
  | none => .panic

@[simp] theorem pure_bind_eq
    (value : α) (rest : α → Program I ε β) :
    (Program.pure value : Program I ε α) >>= rest = rest value :=
  rfl

@[simp] theorem throw_bind
    (error : ε) (rest : α → Program I ε β) :
    (Program.throw error : Program I ε α) >>= rest = .throw error :=
  rfl

@[simp] theorem panic_bind
    (rest : α → Program I ε β) :
    (Program.panic : Program I ε α) >>= rest = .panic :=
  rfl

@[simp] theorem call_bind
    (op : I.Op) (next : I.Ret op → Program I ε α)
    (rest : α → Program I ε β) :
    Program.call op next >>= rest =
      .call op fun answer => next answer >>= rest :=
  rfl

instance : LawfulMonad (Program I ε) :=
  LawfulMonad.mk' (Program I ε)
    (by
      intro α program
      induction program with
      | pure value => rfl
      | throw error => rfl
      | panic => rfl
      | call op next ih =>
          exact congrArg (Program.call op) (funext ih))
    (by
      intro α β value rest
      rfl)
    (by
      intro α β γ program first second
      induction program with
      | pure value => rfl
      | throw error => rfl
      | panic => rfl
      | call op next ih =>
          exact congrArg (Program.call op) (funext ih))

/-- The program of one operation. -/
def perform (op : I.Op) : Program I ε (I.Ret op) :=
  .call op .pure

/-! ## Running a program -/

def run (machine : Machine I σ) :
    Program I ε α → σ → Option (Except ε α × σ)
  | .pure value, state => some (.ok value, state)
  | .throw error, state => some (.error error, state)
  | .panic, _ => none
  | .call op next, state =>
      match machine.step op state with
      | none => none
      | some (answer, after) => (next answer).run machine after

@[simp] theorem run_pure
    (machine : Machine I σ) (value : α) (state : σ) :
    (Program.pure value : Program I ε α).run machine state =
      some (.ok value, state) :=
  rfl

@[simp] theorem run_monad_pure
    (machine : Machine I σ) (value : α) (state : σ) :
    (pure value : Program I ε α).run machine state =
      some (.ok value, state) :=
  rfl

@[simp] theorem run_throw
    (machine : Machine I σ) (error : ε) (state : σ) :
    (Program.throw error : Program I ε α).run machine state =
      some (.error error, state) :=
  rfl

@[simp] theorem run_panic
    (machine : Machine I σ) (state : σ) :
    (Program.panic : Program I ε α).run machine state = none :=
  rfl

theorem run_call
    (machine : Machine I σ) (op : I.Op)
    (next : I.Ret op → Program I ε α) (state : σ) :
    (Program.call op next).run machine state =
      (machine.step op state).bind fun result =>
        (next result.1).run machine result.2 := by
  rw [run]
  cases machine.step op state with
  | none => rfl
  | some result => rfl

/-- A sequence runs its second part from where the first one ended, unless
the first one ended in an error. -/
theorem run_bind
    (machine : Machine I σ) (program : Program I ε α)
    (rest : α → Program I ε β) (state : σ) :
    (program >>= rest).run machine state =
      (program.run machine state).bind fun result =>
        match result.1 with
        | .ok value => (rest value).run machine result.2
        | .error error => some (.error error, result.2) := by
  induction program generalizing state with
  | pure value => rfl
  | throw error => rfl
  | panic => rfl
  | call op next ih =>
      rw [call_bind, run_call, run_call]
      cases machine.step op state with
      | none => rfl
      | some result => exact ih result.1 result.2

/-- What becomes of the value does not change the run. -/
theorem run_map_eq_some
    {machine : Machine I σ} {transform : α → β} {program : Program I ε α}
    {state after : σ} {result : Except ε β}
    (ran : (transform <$> program).run machine state =
      some (result, after)) :
    ∃ first, program.run machine state = some (first, after) ∧
      result = first.map transform := by
  rw [map_eq_pure_bind, run_bind] at ran
  obtain ⟨⟨first, between⟩, firstRun, ran⟩ := Option.bind_eq_some_iff.mp ran
  cases first with
  | ok value =>
      cases ran
      exact ⟨_, firstRun, rfl⟩
  | error error =>
      cases ran
      exact ⟨_, firstRun, rfl⟩

/-- What every operation does to the state, a whole program does. -/
theorem run_relates
    {machine : Machine I σ} (relates : σ → σ → Prop)
    (refl : ∀ state, relates state state)
    (trans : ∀ first second third, relates first second →
      relates second third → relates first third)
    (step : ∀ op state answer after,
      machine.step op state = some (answer, after) → relates state after)
    (program : Program I ε α) {state after : σ} {result : Except ε α}
    (ran : program.run machine state = some (result, after)) :
    relates state after := by
  induction program generalizing state with
  | pure returned =>
      simp only [run_pure, Option.some.injEq, Prod.mk.injEq] at ran
      exact ran.2 ▸ refl state
  | throw error =>
      simp only [run_throw, Option.some.injEq, Prod.mk.injEq] at ran
      exact ran.2 ▸ refl state
  | panic => simp at ran
  | call op next ih =>
      rw [run_call] at ran
      cases stepped : machine.step op state with
      | none => simp [stepped] at ran
      | some ended =>
          rw [stepped] at ran
          exact trans state ended.2 after
            (step op state ended.1 ended.2 stepped) (ih ended.1 ran)

/-! ## Post-conditions -/

/-- Every run from the state that ends without a panic ends in `post`. -/
def Ensures (machine : Machine I σ) (program : Program I ε α)
    (post : Except ε α → σ → Prop) (state : σ) : Prop :=
  ∀ result after, program.run machine state = some (result, after) →
    post result after

section Ensures

variable {machine : Machine I σ} {state : σ} {post : Except ε α → σ → Prop}

theorem Ensures.mono
    {program : Program I ε α} {post' : Except ε α → σ → Prop}
    (ensures : program.Ensures machine post state)
    (weaker : ∀ result after, post result after → post' result after) :
    program.Ensures machine post' state :=
  fun result after ran => weaker result after (ensures result after ran)

theorem ensures_pure {value : α} (holds : post (.ok value) state) :
    (pure value : Program I ε α).Ensures machine post state := by
  intro result after ran
  cases ran
  exact holds

theorem ensures_throw {error : ε} (holds : post (.error error) state) :
    (throw error : Program I ε α).Ensures machine post state := by
  intro result after ran
  cases ran
  exact holds

/-- A sequence ensures what its second part ensures from where the first one
ends. -/
theorem ensures_bind
    {program : Program I ε β} {rest : β → Program I ε α}
    (first : program.Ensures machine
      (fun result between =>
        match result with
        | .ok value => (rest value).Ensures machine post between
        | .error error => post (.error error) between) state) :
    (program >>= rest).Ensures machine post state := by
  intro result after ran
  rw [run_bind] at ran
  obtain ⟨⟨firstResult, between⟩, firstRun, ran⟩ :=
    Option.bind_eq_some_iff.mp ran
  have holds := first firstResult between firstRun
  cases firstResult with
  | ok value => exact holds result after ran
  | error error =>
      cases ran
      exact holds

/-- An operation in front of a program. -/
theorem ensures_call
    {op : I.Op} {next : I.Ret op → Program I ε α}
    (step : ∀ answer between,
      machine.step op state = some (answer, between) →
      (next answer).Ensures machine post between) :
    (Program.call op next).Ensures machine post state := by
  intro result after ran
  rw [run_call] at ran
  obtain ⟨⟨answer, between⟩, stepped, ran⟩ :=
    Option.bind_eq_some_iff.mp ran
  exact step answer between stepped result after ran

/-- A value or an error that was computed without an operation. -/
theorem ensures_ofExcept_bind
    {computed : Except ε β} {rest : β → Program I ε α}
    (fails : ∀ error, computed = .error error →
      post (.error error) state)
    (succeeds : ∀ value, computed = .ok value →
      (rest value).Ensures machine post state) :
    ((liftM computed : Program I ε β) >>= rest).Ensures machine post
      state := by
  refine ensures_bind ?_
  cases computed with
  | ok value => exact ensures_pure (succeeds value rfl)
  | error error => exact ensures_throw (fails error rfl)

theorem ensures_orPanic_bind
    {computed : Option β} {rest : β → Program I ε α}
    (succeeds : ∀ value, computed = some value →
      (rest value).Ensures machine post state) :
    ((orPanic computed : Program I ε β) >>= rest).Ensures machine post
      state := by
  refine ensures_bind ?_
  cases computed with
  | some value => exact ensures_pure (succeeds value rfl)
  | none =>
      intro result after ran
      cases ran

end Ensures

/-! ## Programs without errors -/

/-- No run of the program ends in an error. -/
def Total : Program I ε α → Prop
  | .pure _ => True
  | .throw _ => False
  | .panic => True
  | .call _ next => ∀ answer, (next answer).Total

theorem total_pure (value : α) : (pure value : Program I ε α).Total :=
  trivial

theorem total_perform (op : I.Op) : (perform op : Program I ε _).Total :=
  fun _ => trivial

theorem total_orPanic (computed : Option α) :
    (orPanic computed : Program I ε α).Total := by
  cases computed with
  | some value => trivial
  | none => trivial

theorem total_bind
    {program : Program I ε α} {rest : α → Program I ε β}
    (first : program.Total) (second : ∀ value, (rest value).Total) :
    (program >>= rest).Total := by
  induction program with
  | pure value => exact second value
  | throw error => cases first
  | panic => trivial
  | call op next ih => exact fun answer => ih answer (first answer)

theorem Total.ensures
    {program : Program I ε α} (total : program.Total)
    (machine : Machine I σ) (state : σ) :
    program.Ensures machine (fun result _ => ∃ value, result = .ok value)
      state := by
  intro result after ran
  induction program generalizing state with
  | pure value =>
      cases ran
      exact ⟨value, rfl⟩
  | throw error => cases total
  | panic => cases ran
  | call op next ih =>
      rw [run_call] at ran
      obtain ⟨⟨answer, between⟩, -, ran⟩ := Option.bind_eq_some_iff.mp ran
      exact ih answer (total answer) between ran

/-- A part without errors in front of a program. -/
theorem ensures_total_bind
    {program : Program I ε β} {rest : β → Program I ε α}
    {machine : Machine I σ} {state : σ} {post : Except ε α → σ → Prop}
    (total : program.Total)
    (next : ∀ value between, (rest value).Ensures machine post between) :
    (program >>= rest).Ensures machine post state := by
  apply ensures_bind
  intro result between ran
  obtain ⟨value, rfl⟩ := total.ensures machine state result between ran
  exact next value between

/-! ## Conditions on the calls of a run -/

/-- Every call that the program makes from `state` is `allowed` there. -/
def Along (machine : Machine I σ) (allowed : I.Op → σ → Prop) :
    Program I ε α → σ → Prop
  | .pure _, _ => True
  | .throw _, _ => True
  | .panic, _ => True
  | .call op next, state =>
      allowed op state ∧ ∀ answer after,
        machine.step op state = some (answer, after) →
          (next answer).Along machine allowed after

theorem Along.mono
    {machine : Machine I σ} {allowed weaker : I.Op → σ → Prop}
    (weaken : ∀ op state, allowed op state → weaker op state)
    {program : Program I ε α} {state : σ}
    (along : program.Along machine allowed state) :
    program.Along machine weaker state := by
  induction program generalizing state with
  | pure value => trivial
  | throw error => trivial
  | panic => trivial
  | call op next ih =>
      exact ⟨weaken op state along.1, fun answer after stepped =>
        ih answer (along.2 answer after stepped)⟩

/-- What allowed steps keep, a program keeps whose calls are allowed. -/
theorem Along.keeps
    {machine : Machine I σ} {allowed : I.Op → σ → Prop} {holds : σ → Prop}
    (step : ∀ op state answer after, holds state → allowed op state →
      machine.step op state = some (answer, after) → holds after)
    {program : Program I ε α} {state after : σ} {result : Except ε α}
    (along : program.Along machine allowed state) (start : holds state)
    (ran : program.run machine state = some (result, after)) :
    holds after := by
  induction program generalizing state with
  | pure returned =>
      cases ran
      exact start
  | throw error =>
      cases ran
      exact start
  | panic => cases ran
  | call op next ih =>
      rw [run_call] at ran
      obtain ⟨⟨answer, between⟩, stepped, ran⟩ :=
        Option.bind_eq_some_iff.mp ran
      exact ih answer (along.2 answer between stepped)
        (step op state answer between start along.1 stepped) ran

end Program

/-! ## Programs of a smaller interface -/

/-- Every operation of `I` is one of `J` with the same answers. -/
structure Interface.Inclusion (I J : Interface) where
  op : I.Op → J.Op
  answer : (name : I.Op) → J.Ret (op name) → I.Ret name

namespace Program

variable {I J : Interface} {ε α β σ : Type}

def lift (inclusion : Interface.Inclusion I J) :
    Program I ε α → Program J ε α
  | .pure value => .pure value
  | .throw error => .throw error
  | .panic => .panic
  | .call op next =>
      .call (inclusion.op op) fun answer =>
        (next (inclusion.answer op answer)).lift inclusion

@[simp] theorem lift_pure
    (inclusion : Interface.Inclusion I J) (value : α) :
    (pure value : Program I ε α).lift inclusion = pure value :=
  rfl

theorem lift_bind
    (inclusion : Interface.Inclusion I J) (program : Program I ε α)
    (rest : α → Program I ε β) :
    (program >>= rest).lift inclusion =
      program.lift inclusion >>= fun value => (rest value).lift inclusion := by
  induction program with
  | pure value => rfl
  | throw error => rfl
  | panic => rfl
  | call op next ih =>
      exact congrArg (Program.call (inclusion.op op))
        (funext fun answer => ih (inclusion.answer op answer))

theorem Total.lift
    {program : Program I ε α} (total : program.Total)
    (inclusion : Interface.Inclusion I J) :
    (program.lift inclusion).Total := by
  induction program with
  | pure value => trivial
  | throw error => cases total
  | panic => trivial
  | call op next ih =>
      exact fun answer => ih _ (total (inclusion.answer op answer))

/-- A program whose operations all leave the state alone leaves it alone. -/
theorem lift_run_unchanged
    {inclusion : Interface.Inclusion I J} {machine : Machine J σ}
    (reads : ∀ op state answer after,
      machine.step (inclusion.op op) state = some (answer, after) →
        after = state)
    (program : Program I ε α) {state after : σ} {result : Except ε α}
    (ran : (program.lift inclusion).run machine state =
      some (result, after)) :
    after = state := by
  induction program generalizing state with
  | pure returned =>
      simp only [lift, run_pure, Option.some.injEq, Prod.mk.injEq] at ran
      exact ran.2.symm
  | throw error =>
      simp only [lift, run_throw, Option.some.injEq, Prod.mk.injEq] at ran
      exact ran.2.symm
  | panic => simp [lift] at ran
  | call op next ih =>
      rw [lift, run_call] at ran
      cases stepped : machine.step (inclusion.op op) state with
      | none => simp [stepped] at ran
      | some ended =>
          rw [stepped] at ran
          have unchanged : ended.2 = state :=
            reads op state ended.1 ended.2 stepped
          have rest := ih (inclusion.answer op ended.1) ran
          rw [rest, unchanged]

end Program

end RedVector.Effect
