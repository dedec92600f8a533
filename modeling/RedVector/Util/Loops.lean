import Mathlib.Algebra.BigOperators.Group.List.Basic

/-!
# Loops over ranges

A loop that may fail, followed from stage to stage, and a buffer that a loop
fills from the front.
-/

namespace RedVector.Util

section

section

variable {σ : Type}

/-- A loop whose turns lead from each stage to the next one. -/
theorem foldlM_stages {step : σ → Nat → Option σ} (stage : Nat → σ)
    {start count : Nat}
    (advances : ∀ turn, start ≤ turn → turn < start + count →
      step (stage turn) turn = some (stage (turn + 1))) :
    (List.range' start count).foldlM step (stage start) =
      some (stage (start + count)) := by
  induction count generalizing start with
  | zero => rfl
  | succ count ih =>
      rw [List.range'_succ, List.foldlM_cons,
        advances start (Nat.le_refl start) (by omega)]
      have rest : (List.range' (start + 1) count).foldlM step
          (stage (start + 1)) = some (stage (start + 1 + count)) :=
        ih fun turn after before => advances turn (by omega) (by omega)
      rw [Nat.add_right_comm] at rest
      exact rest

/-- Two loops with the same turns. -/
theorem foldlM_congr {α : Type} {step other : σ → α → Option σ} {l : List α}
    (same : ∀ element ∈ l, ∀ state, step state element = other state element)
    (start : σ) : l.foldlM step start = l.foldlM other start := by
  induction l generalizing start with
  | nil => rfl
  | cons head tail ih =>
      have first := same head List.mem_cons_self start
      rw [List.foldlM_cons, List.foldlM_cons, first]
      exact congrArg (Option.bind _) (funext fun after =>
        ih (fun element member =>
          same element (List.mem_cons_of_mem head member)) after)

/-- A loop none of whose turns fails. -/
theorem foldlM_isSome {α : Type} {step : σ → α → Option σ} {l : List α}
    (returns : ∀ element ∈ l, ∀ state, (step state element).isSome = true)
    (start : σ) : (l.foldlM step start).isSome = true := by
  induction l generalizing start with
  | nil => rfl
  | cons head tail ih =>
      obtain ⟨after, stepped⟩ :=
        Option.isSome_iff_exists.mp (returns head List.mem_cons_self start)
      rw [List.foldlM_cons, stepped]
      exact ih (fun element member =>
        returns element (List.mem_cons_of_mem head member)) after

/-- A loop fails when its last turn fails from every state. -/
theorem foldlM_last_none {α : Type} {step : σ → α → Option σ} {front : List α}
    {last : α} (fails : ∀ state, step state last = none) (start : σ) :
    (front ++ [last]).foldlM step start = none := by
  rw [List.foldlM_append]
  cases front.foldlM step start with
  | none => rfl
  | some state =>
      show (step state last).bind _ = none
      rw [fails state]
      rfl

/-- What every turn of a loop keeps. -/
theorem foldlM_invariant {α : Type} {step : σ → α → Option σ}
    {invariant : σ → Prop} {elements : List α}
    (keeps : ∀ element ∈ elements, ∀ before after, invariant before →
      step before element = some after → invariant after)
    {start final : σ} (begins : invariant start)
    (runs : elements.foldlM step start = some final) : invariant final := by
  induction elements generalizing start with
  | nil =>
      cases runs
      exact begins
  | cons element rest ih =>
      rw [List.foldlM_cons] at runs
      obtain ⟨next, steps, others⟩ := Option.bind_eq_some_iff.mp runs
      exact ih (fun other member => keeps other (List.mem_cons_of_mem _ member))
        (keeps element List.mem_cons_self start next begins steps) others

/-- A loop that adds the terms of a list one by one. -/
theorem foldlM_sum {α : Type} [AddMonoid α] {step : α → Nat → Option α}
    {terms : List α}
    (adds : ∀ place term sum, terms[place]? = some term →
      step sum place = some (sum + term)) :
    (List.range terms.length).foldlM step 0 = some terms.sum := by
  have turns : ∀ place, 0 ≤ place → place < 0 + terms.length →
      step (terms.take place).sum place =
        some (terms.take (place + 1)).sum := by
    intro place _ inside
    rw [Nat.zero_add] at inside
    rw [List.sum_take_succ _ _ inside]
    exact adds place _ _ (List.getElem?_eq_getElem inside)
  have runs := foldlM_stages (fun place => (terms.take place).sum) turns
  rw [Nat.zero_add, List.take_length, List.take_zero, List.sum_nil] at runs
  rw [List.range_eq_range']
  exact runs

end

variable {α : Type} {target buffer : List α}

/-- Writes to a place of a buffer; a place behind its end panics. -/
def store (buffer : List α) (place : Nat) (value : α) : Option (List α) :=
  if place < buffer.length then some (buffer.set place value) else none

/-- A buffer of which so many places are filled. -/
def filled (target buffer : List α) (places : Nat) : List α :=
  target.take places ++ buffer.drop places

theorem filled_zero : filled target buffer 0 = buffer := rfl

theorem filled_length (same : target.length = buffer.length) :
    filled target buffer target.length = target := by
  unfold filled
  rw [List.take_length, same, List.drop_length, List.append_nil]

/-- The next place is filled. -/
theorem store_filled (same : target.length = buffer.length) {place : Nat}
    {value : α} (found : target[place]? = some value) :
    store (filled target buffer place) place value =
      some (filled target buffer (place + 1)) := by
  obtain ⟨inside, rfl⟩ := List.getElem?_eq_some_iff.mp found
  have front : (target.take place).length = place :=
    List.length_take_of_le (Nat.le_of_lt inside)
  have back : buffer.drop place =
      buffer[place] :: buffer.drop (place + 1) :=
    List.drop_eq_getElem_cons (same ▸ inside)
  unfold store filled
  rw [if_pos (by
    rw [List.length_append, front, List.length_drop]
    omega)]
  rw [List.set_append_right _ _ (by omega), front, Nat.sub_self, back,
    List.set_cons_zero, ← List.take_concat_get' target place inside,
    List.append_assoc, List.singleton_append]

end

/-!
## Lists of results

A list is traversed with a computation that may fail.
-/

section

variable {α β : Type}

theorem mapM_of_forall {compute : α → Option β} {result : α → β}
    {values : List α}
    (computes : ∀ value ∈ values, compute value = some (result value)) :
    values.mapM compute = some (values.map result) := by
  induction values with
  | nil => rfl
  | cons value rest ih =>
      rw [List.mapM_cons, computes value List.mem_cons_self,
        ih fun other member => computes other (List.mem_cons_of_mem _ member)]
      rfl

/-- Results that are known by their places. -/
theorem mapM_of_getElem? {compute : α → Option β} {values : List α}
    {results : List β} (length : values.length = results.length)
    (computes : ∀ (place : Nat) value result, values[place]? = some value →
      results[place]? = some result → compute value = some result) :
    values.mapM compute = some results := by
  induction values generalizing results with
  | nil =>
      rw [List.eq_nil_of_length_eq_zero length.symm]
      rfl
  | cons value rest ih =>
      cases results with
      | nil => cases length
      | cons result others =>
          have first := computes 0 value result rfl rfl
          have later : rest.mapM compute = some others :=
            ih (Nat.succ.inj length) fun place => computes (place + 1)
          rw [List.mapM_cons, first, later]
          rfl

theorem computes_of_mapM {compute : α → Option β} {values : List α}
    {results : List β} (computed : values.mapM compute = some results) :
    ∀ value ∈ values, ∃ result, compute value = some result := by
  induction values generalizing results with
  | nil => exact nofun
  | cons value rest ih =>
      rw [List.mapM_cons] at computed
      obtain ⟨first, computes, computed⟩ := Option.bind_eq_some_iff.mp computed
      obtain ⟨others, later, -⟩ := Option.bind_eq_some_iff.mp computed
      exact List.forall_mem_cons.mpr ⟨⟨first, computes⟩, ih later⟩

/-- The results stand in the places of their values. -/
theorem forall₂_of_mapM {compute : α → Option β} {values : List α}
    {results : List β} (computed : values.mapM compute = some results) :
    List.Forall₂ (fun value result => compute value = some result) values
      results := by
  induction values generalizing results with
  | nil =>
      cases computed
      exact .nil
  | cons value rest ih =>
      rw [List.mapM_cons] at computed
      obtain ⟨first, computes, computed⟩ := Option.bind_eq_some_iff.mp computed
      obtain ⟨others, later, last⟩ := Option.bind_eq_some_iff.mp computed
      cases last
      exact .cons computes (ih later)

/-- Results of a range, by their places. -/
theorem getElem?_of_mapM_range {compute : Nat → Option β} {count : Nat}
    {results : List β}
    (computed : (List.range count).mapM compute = some results) :
    results.length = count ∧
      ∀ place < count, compute place = results[place]? := by
  have places := forall₂_of_mapM computed
  have length : results.length = count := by
    rw [← places.length_eq, List.length_range]
  refine ⟨length, fun place inside => ?_⟩
  have same := places.get (i := place) (by rwa [List.length_range])
    (by rwa [length])
  rw [List.get_eq_getElem, List.get_eq_getElem, List.getElem_range] at same
  rw [same, List.getElem?_eq_getElem]

end

end RedVector.Util
