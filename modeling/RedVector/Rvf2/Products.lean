import RedVector.Kernels.Chunked
import RedVector.Rvf2.MaxSim

/-!
# The products of the scorers

They are the scalar ones where they stay inside the codes, and the product of
`aarch64` with the last slice of the codes does not.
-/

namespace RedVector.Rvf2

open Kernels Util

variable {β : Type} {value : β → ℚ} {a : List ℚ} {b : List β}

theorem addRemainder_run (same : a.length = b.length) {start : Nat}
    (inside : start ≤ a.length) (result : ℚ) :
    addRemainder value a b start result =
      some (result + ((a.drop start).zipWith (fun x y => x * value y)
        (b.drop start)).sum) := by
  let terms := a.zipWith (fun x y => x * value y) b
  have length : terms.length = a.length := by
    rw [List.length_zipWith, same, Nat.min_self]
  let stage := fun place =>
    result + ((terms.drop start).take (place - start)).sum
  have turns : ∀ place, start ≤ place → place < start + (a.length - start) →
      remainderTurn value a b (stage place) place =
        some (stage (place + 1)) := by
    intro place after before
    have among : place < a.length := by omega
    have next : place + 1 - start = place - start + 1 := by omega
    have term : place - start < (terms.drop start).length := by
      rw [List.length_drop]
      omega
    show (a[place]?.bind fun x => b[place]?.bind fun y => _) = _
    rw [List.getElem?_eq_getElem among, Option.bind_some,
      List.getElem?_eq_getElem (same ▸ among), Option.bind_some]
    show some (stage place + _) = some (stage (place + 1))
    simp only [stage]
    rw [next, List.sum_take_succ _ _ term, List.getElem_drop, ← add_assoc,
      List.getElem_zipWith]
    simp only [Nat.add_sub_cancel' after]
  have runs := foldlM_stages stage turns
  have begun : stage start = result := by
    simp only [stage, Nat.sub_self, List.take_zero, List.sum_nil, add_zero]
  have ended : stage (start + (a.length - start)) =
      result + ((a.drop start).zipWith (fun x y => x * value y)
        (b.drop start)).sum := by
    simp only [stage, Nat.add_sub_cancel_left]
    rw [← List.drop_zipWith, List.take_of_length_le]
    rw [List.length_drop]
    omega
  rw [begun, ended] at runs
  exact runs

/-- Whatever the instruction set, the product is the scalar one. -/
theorem dotWith_run (isa : InstructionSet) (value : β → ℚ)
    (same : a.length = b.length) :
    dotWith isa value a b =
      some (a.zipWith (fun x y => x * value y) b).sum := by
  have inside := remainderStart_le isa a.length
  obtain ⟨sum, runs, grows⟩ := chunkLoop_run same
    (fun va vb sum => isa.multiplyAdd va (fun lane => value (vb lane)) sum)
    setzeroPs .none inside
  have chunks := grows isa.horizontalSum (fun x y => x * value y)
    fun va vb sum => sum_multiplyAdd va (fun lane => value (vb lane)) sum
  rw [sum_setzero] at chunks
  unfold dotWith
  refine (congrArg (Option.bind · _) runs).trans ?_
  show addRemainder value a b (remainderStart isa a.length) _ = _
  rw [addRemainder_run same inside, completes _ _ chunks]

theorem widened_eq (code : Int8) :
    (code.toInt16.toInt32.toInt : ℚ) = codeValue code := by
  rw [Int16.toInt_toInt32, Int8.toInt_toInt16]
  rfl

/-- The products that a scorer is to compute for tokens of a dimension. -/
structure Products.Exact (products : Products) (dims : Nat) : Prop where
  dot_eq : ∀ a b : List ℚ, a.length = dims → b.length = dims →
    products.dot a b = some (a.zipWith (fun x y => x * y) b).sum
  dotCodes_eq : ∀ (a : List ℚ) (codes : List Int8) (start : Nat),
    a.length = dims → start + dims ≤ codes.length →
    products.dotCodes a codes start = some
      (a.zipWith (fun x y => x * codeValue y)
        ((codes.drop start).take dims)).sum

theorem length_slice {α : Type} {l : List α} {start dims : Nat}
    (inside : start + dims ≤ l.length) :
    ((l.drop start).take dims).length = dims := by
  rw [List.length_take, List.length_drop]
  omega

theorem scalarProducts_exact (dims : Nat) : scalarProducts.Exact dims where
  dot_eq _ _ _ _ := rfl
  dotCodes_eq a codes start sized _ := by
    rw [← sized]
    rfl

theorem x86_exact (avx2 fma : Bool) (dims : Nat) :
    (SimdTarget.products (.x86 avx2 fma)).Exact dims where
  dot_eq a b sizedA sizedB := by
    have same := sizedA.trans sizedB.symm
    cases avx2 with
    | false => rfl
    | true =>
        cases fma with
        | false => rfl
        | true => exact dotWith_run avx2Fma id same
  dotCodes_eq a codes start sized inside := by
    cases avx2 with
    | false => exact (scalarProducts_exact dims).dotCodes_eq _ _ _ sized inside
    | true =>
        have same : a.length = ((codes.drop start).take dims).length := by
          rw [sized, length_slice inside]
        have run := dotWith_run avx2Codes
          (fun code : Int8 => (code.toInt16.toInt32.toInt : ℚ)) same
        have terms : (fun (x : ℚ) (y : Int8) =>
            x * (y.toInt16.toInt32.toInt : ℚ)) = fun x y => x * codeValue y :=
          funext₂ fun x y => congrArg (x * ·) (widened_eq y)
        rw [terms, ← sized] at run
        rw [← sized]
        exact run

/-- A product shorter than a register is only a remainder. -/
theorem neon_exact {dims : Nat} (short : dims < 4) :
    SimdTarget.aarch64.products.Exact dims where
  dot_eq a b sizedA sizedB :=
    dotWith_run .neon id (sizedA.trans sizedB.symm)
  dotCodes_eq a codes start sized inside := by
    have no : a.length / 4 = 0 := Nat.div_eq_of_lt (sized ▸ short)
    have same : a.length = ((codes.drop start).take dims).length := by
      rw [sized, length_slice inside]
    have sum : reduceAddPs (setzeroPs : Lanes 4) = 0 :=
      @sum_setzero .neon
    have rest : addRemainder codeValue a _ 0 0 = _ :=
      addRemainder_run same (Nat.zero_le _) 0
    rw [zero_add, List.drop_zero, List.drop_zero] at rest
    show dotF32I8Neon a codes start = _
    unfold dotF32I8Neon
    rw [no]
    show addRemainder codeValue a ((codes.drop start).take a.length) 0
      (reduceAddPs setzeroPs) = _
    rw [sum, sized]
    exact rest

/-- With a register or more the last turn loads beyond the end of the codes. -/
theorem neon_beyond {a : List ℚ} {codes : List Int8} {start : Nat}
    (long : 4 ≤ a.length) (last : start + a.length = codes.length) :
    dotF32I8Neon a codes start = none := by
  have turns : a.length / 4 = a.length / 4 - 1 + 1 := by omega
  have beyond : ¬start + (a.length / 4 - 1) * 4 + 8 ≤ codes.length := by
    omega
  have fails : ∀ sum reads,
      neonTurn a codes start sum (a.length / 4 - 1) reads = none := by
    intro sum reads
    unfold neonTurn
    show Option.bind (load .left a 4 _ reads) _ = none
    cases load .left a 4 ((a.length / 4 - 1) * 4) reads with
    | none => rfl
    | some loaded =>
        show Option.bind (load .right codes 8 _ _) _ = none
        rw [load_beyond (by omega)]
        rfl
  have loop : ((List.range (a.length / 4)).foldlM (neonTurn a codes start)
      setzeroPs).run .none = none := by
    rw [turns, List.range_succ]
    exact kernel_last_none fails _ _
  unfold dotF32I8Neon
  exact congrArg (Option.bind · _) loop

end RedVector.Rvf2
