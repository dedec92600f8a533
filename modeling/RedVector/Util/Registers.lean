import Mathlib.Algebra.BigOperators.Fin

/-!
# Vector registers

A register holds so many values side by side.  A kernel loads registers from
two vectors, and what it reads of them is recorded with its result.
-/

namespace RedVector.Util

/-- A register as the list of its lanes. -/
abbrev Register (α : Type) (lanes : Nat) := Fin lanes → α

/-- One of the two vectors. -/
inductive Side where
  | left
  | right

/-- The places that were read of the two vectors, in the order of the reads. -/
@[ext]
structure Reads where
  left : List Nat
  right : List Nat

namespace Reads

/-- Nothing is read yet. -/
def none : Reads := ⟨[], []⟩

def record (reads : Reads) (places : List Nat) : Side → Reads
  | .left => { reads with left := reads.left ++ places }
  | .right => { reads with right := reads.right ++ places }

/-- What is read of both of them. -/
def both (reads : Reads) (places : List Nat) : Reads :=
  (reads.record places .left).record places .right

@[simp] theorem both_left (reads : Reads) (places : List Nat) :
    (reads.both places).left = reads.left ++ places := rfl

@[simp] theorem both_right (reads : Reads) (places : List Nat) :
    (reads.both places).right = reads.right ++ places := rfl

theorem both_both (reads : Reads) (first second : List Nat) :
    (reads.both first).both second = reads.both (first ++ second) :=
  Reads.ext (List.append_assoc ..) (List.append_assoc ..)

end Reads

/-- A computation that reads two vectors; `none` is a read beyond them. -/
abbrev Kernel := StateT Reads Option

variable {α β σ : Type} {lanes : Nat}

/-- What stands from an offset on. -/
def registerAt (vector : List α) (offset : Nat)
    (inside : offset + lanes ≤ vector.length) : Register α lanes :=
  fun lane => vector[offset + lane]

/-- A register from an offset on. -/
def load (side : Side) (vector : List α) (lanes offset : Nat) :
    Kernel (Register α lanes) := fun reads =>
  if inside : offset + lanes ≤ vector.length then
    some (registerAt vector offset inside,
      reads.record (List.range' offset lanes) side)
  else none

/-- The slice from a place on, every element of which is read once. -/
def readFrom (side : Side) (vector : List α) (start : Nat) :
    Kernel (List α) := fun reads =>
  if start ≤ vector.length then
    some (vector.drop start,
      reads.record (List.range' start (vector.length - start)) side)
  else none

/-- The turns of a loop, each of which loads the next register of both
vectors. -/
def chunkLoop (lanes : Nat) (a : List α) (b : List β)
    (step : Register α lanes → Register β lanes → σ → σ) (chunks : Nat)
    (start : σ) : Kernel σ :=
  (List.range chunks).foldlM (fun state turn => do
    let va ← load .left a lanes (turn * lanes)
    let vb ← load .right b lanes (turn * lanes)
    pure (step va vb state)) start

/-- The slices from a place on of both vectors. -/
def readBoth (a : List α) (b : List β) (start : Nat) :
    Kernel (List α × List β) := do
  pure (← readFrom .left a start, ← readFrom .right b start)

/-! ## What is loaded -/

theorem load_inside {side : Side} {vector : List α} {offset : Nat}
    (inside : offset + lanes ≤ vector.length) (reads : Reads) :
    load side vector lanes offset reads =
      some (registerAt vector offset inside,
        reads.record (List.range' offset lanes) side) :=
  dif_pos inside

theorem load_beyond {side : Side} {vector : List α} {offset : Nat}
    (beyond : vector.length < offset + lanes) (reads : Reads) :
    load side vector lanes offset reads = none :=
  dif_neg (Nat.not_le.mpr beyond)

/-- A loop reads beyond the end when its last turn does. -/
theorem kernel_last_none {step : σ → α → Kernel σ} {front : List α} {last : α}
    (fails : ∀ state reads, step state last reads = none) (start : σ)
    (reads : Reads) : (front ++ [last]).foldlM step start reads = none := by
  rw [List.foldlM_append]
  refine Option.bind_eq_none_iff.mpr ?_
  rintro ⟨state, before⟩ -
  show (step state last before).bind _ = none
  rw [fails state before]
  rfl

theorem readBoth_inside {a : List α} {b : List β} {start : Nat}
    (same : a.length = b.length) (inside : start ≤ a.length) (reads : Reads) :
    readBoth a b start reads =
      some ((a.drop start, b.drop start),
        reads.both (List.range' start (a.length - start))) := by
  have left : readFrom .left a start reads = some (a.drop start,
      reads.record (List.range' start (a.length - start)) .left) :=
    if_pos inside
  have right : ∀ before : Reads, readFrom .right b start before =
      some (b.drop start,
        before.record (List.range' start (a.length - start)) .right) := by
    intro before
    rw [same]
    exact if_pos (same ▸ inside)
  show (readFrom .left a start reads).bind _ = _
  rw [left]
  show (readFrom .right b start _).bind _ = _
  rw [right]
  rfl

/-! ## What a loop computes -/

section Sums

variable {M : Type} [AddCommMonoid M]

/-- The sum over the lanes of what stands at the same place of two vectors. -/
theorem sum_lanes (term : α → β → M) {a : List α} {b : List β} {offset : Nat}
    (same : a.length = b.length) (inside : offset + lanes ≤ a.length) :
    ∑ lane : Fin lanes, term (registerAt a offset inside lane)
        (registerAt b offset (same ▸ inside) lane) =
      (((a.zipWith term b).drop offset).take lanes).sum := by
  rw [← List.sum_ofFn]
  congr 1
  apply List.ext_getElem
  · rw [List.length_ofFn, List.length_take, List.length_drop,
      List.length_zipWith]
    omega
  · intro place first second
    rw [List.getElem_ofFn, List.getElem_take, List.getElem_drop,
      List.getElem_zipWith]
    rfl

theorem sum_take_add (l : List M) (front back : Nat) :
    (l.take (front + back)).sum =
      (l.take front).sum + ((l.drop front).take back).sum := by
  rw [List.take_add, List.sum_append]

end Sums

variable {a : List α} {b : List β}

/-- The loop reads the chunks in order, and a quantity to which a turn adds a
sum over the lanes has grown by the sum over all chunks. -/
theorem chunkLoop_run (same : a.length = b.length)
    (step : Register α lanes → Register β lanes → σ → σ) (start : σ)
    (reads : Reads) {chunks : Nat} (inside : chunks * lanes ≤ a.length) :
    ∃ result, chunkLoop lanes a b step chunks start reads =
        some (result, reads.both (List.range (chunks * lanes))) ∧
      ∀ {M : Type} [AddCommMonoid M] (measure : σ → M) (term : α → β → M),
        (∀ va vb state, measure (step va vb state) =
          measure state + ∑ lane, term (va lane) (vb lane)) →
        measure result = measure start +
          ((a.zipWith term b).take (chunks * lanes)).sum := by
  induction chunks with
  | zero =>
      refine ⟨start, ?_, ?_⟩
      · rw [Nat.zero_mul]
        show some (start, reads) = _
        rw [List.range_zero]
        exact congrArg (fun reads => some (start, reads))
          (Reads.ext (List.append_nil _).symm (List.append_nil _).symm)
      · intro M _ measure term _
        rw [Nat.zero_mul, List.take_zero, List.sum_nil, add_zero]
  | succ chunks ih =>
      have next : chunks * lanes + lanes ≤ a.length := by
        rw [Nat.add_one_mul] at inside
        exact inside
      obtain ⟨result, runs, grows⟩ := ih (Nat.le_of_add_right_le next)
      refine ⟨step (registerAt a (chunks * lanes) next)
        (registerAt b (chunks * lanes) (same ▸ next)) result, ?_, ?_⟩
      · unfold chunkLoop at runs ⊢
        rw [List.range_succ, List.foldlM_append]
        refine (congrArg (Option.bind · _) runs).trans ?_
        show Option.bind (Option.bind (load .left a lanes _ _) _) _ = _
        rw [load_inside next]
        show Option.bind (Option.bind (load .right b lanes _ _) _) _ = _
        rw [load_inside (same ▸ next)]
        show some (_, (reads.both _).both _) = _
        rw [Reads.both_both, Nat.add_one_mul, List.range_add,
          List.range'_eq_map_range]
      · intro M _ measure term adds
        rw [adds, grows measure term adds, sum_lanes term same next, add_assoc,
          ← sum_take_add, Nat.add_one_mul]

end RedVector.Util
