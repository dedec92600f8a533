import RedVector.ExactFloat
import RedVector.Util.Ranking

/-!
# Distance metrics

How vectors are compared and results are ranked.  Single-precision arithmetic
is a parameter of the model.
-/

namespace RedVector.Gpu

/-- Numbers of single precision. -/
class Single (F : Type) where
  zero : F
  infinity : F
  /-- What a sum begins with, `0.0` or `-0.0`. -/
  emptySum : F
  add : F → F → F
  sub : F → F → F
  mul : F → F → F
  div : F → F → F
  /-- `powi(2)`. -/
  square : F → F
  sqrt : F → F
  /-- `as f32`. -/
  ofUsize : Nat → F
  lt : F → F → Bool
  eq : F → F → Bool
  isNan : F → Bool
  /-- Outside of NaN, `<` is a strict order whose ties are `==`. -/
  lt_irrefl : ∀ a, lt a a = false
  lt_trans : ∀ a b c, lt a b = true → lt b c = true → lt a c = true
  lt_of_not_lt : ∀ a b c, isNan b = false → lt a c = true →
    lt a b = true ∨ lt b c = true
  eq_iff : ∀ a b, eq a b = true ↔
    isNan a = false ∧ isNan b = false ∧ lt a b = false ∧ lt b a = false

structure SearchResult (F : Type) where
  id : UInt64
  score : F

inductive GpuError where
  | computeError (message : Bytes)
  | dimensionMismatch (expected got : Nat)
  | notTrained

/-- `&data[start..end]`; bounds behind the end panic. -/
def subslice {α : Type} (data : List α) (start stop : Nat) :
    Option (List α) :=
  if start ≤ stop ∧ stop ≤ data.length then
    some ((data.drop start).take (stop - start))
  else none

section

variable {F : Type} [Single F]

def sum (terms : List F) : F :=
  terms.foldl Single.add Single.emptySum

def l2Distance (a b : List F) : F :=
  Single.sqrt (sum (a.zipWith (fun x y => Single.square (Single.sub x y)) b))

def cosineSimilarity (a b : List F) : F :=
  let dot := sum (a.zipWith Single.mul b)
  let normA := Single.sqrt (sum (a.map fun x => Single.mul x x))
  let normB := Single.sqrt (sum (b.map fun x => Single.mul x x))
  if Single.eq normA Single.zero || Single.eq normB Single.zero then
    Single.zero
  else Single.div dot (Single.mul normA normB)

def innerProduct (a b : List F) : F :=
  sum (a.zipWith Single.mul b)

end

inductive DistanceMetric where
  | l2
  | cosine
  | innerProduct
  deriving DecidableEq

namespace DistanceMetric

def isSimilarity : DistanceMetric → Bool
  | l2 => false
  | cosine | innerProduct => true

section

variable {F : Type} [Single F]

def compute (metric : DistanceMetric) (a b : List F) : F :=
  match metric with
  | l2 => l2Distance a b
  | cosine => cosineSimilarity a b
  | innerProduct => Gpu.innerProduct a b

/-- Whether a score does not come behind another one. -/
def notBehind (metric : DistanceMetric) (a b : F) : Bool :=
  if metric.isSimilarity then !Single.lt a b else !Single.lt b a

/-- `sort_by` with `partial_cmp`, which panics where it compares NaN. -/
def sortBy {α : Type} (metric : DistanceMetric) (score : α → F)
    (l : List α) : Option (List α) :=
  if 2 ≤ l.length ∧ l.any (fun element => Single.isNan (score element)) then
    none
  else some (l.mergeSort fun a b => metric.notBehind (score a) (score b))

/-! ## Ranks -/

variable {metric : DistanceMetric}

theorem sortBy_run {α : Type} {score : α → F} {l : List α}
    (numbers : ∀ element ∈ l, Single.isNan (score element) = false) :
    metric.sortBy score l =
      some (l.mergeSort fun a b => metric.notBehind (score a) (score b)) := by
  unfold sortBy
  rw [if_neg]
  rintro ⟨-, nan⟩
  obtain ⟨element, member, isNan⟩ := List.any_eq_true.mp nan
  rw [numbers element member] at isNan
  cases isNan

/-- Numbers are ranked. -/
theorem numbers_ranked {l : List F} (numbers : ∀ a ∈ l, Single.isNan a = false) :
    Util.Ranks (metric.notBehind (F := F)) l := by
  have total : ∀ a b : F, Single.lt a b = false ∨ Single.lt b a = false := by
    intro a b
    by_contra both
    rw [not_or, Bool.not_eq_false, Bool.not_eq_false] at both
    have self := Single.lt_trans a b a both.1 both.2
    rw [Single.lt_irrefl] at self
    cases self
  have trans : ∀ a b c : F, b ∈ l → Single.lt b a = false →
      Single.lt c b = false → Single.lt c a = false := by
    intro a b c inB first second
    by_contra less
    rw [Bool.not_eq_false] at less
    rcases Single.lt_of_not_lt c b a (numbers b inB) less with before | after
    · rw [before] at second
      cases second
    · rw [after] at first
      cases first
  unfold notBehind
  constructor
  · intro a _ b _
    split
    · simpa only [Bool.not_eq_true'] using total a b
    · simpa only [Bool.not_eq_true'] using total b a
  · intro a inA b inB c inC
    split
    · simp only [Bool.not_eq_true']
      exact fun first second => trans c b a inB second first
    · simp only [Bool.not_eq_true']
      exact trans a b c inB

/-- Tied numbers are equal. -/
theorem eq_of_tied {a b : F} (numberA : Single.isNan a = false)
    (numberB : Single.isNan b = false) (forth : metric.notBehind a b = true)
    (back : metric.notBehind b a = true) : Single.eq a b = true := by
  unfold notBehind at forth back
  rw [Single.eq_iff]
  by_cases similar : metric.isSimilarity = true
  · rw [if_pos similar, Bool.not_eq_true'] at forth back
    exact ⟨numberA, numberB, forth, back⟩
  · rw [if_neg similar, Bool.not_eq_true'] at forth back
    exact ⟨numberA, numberB, back, forth⟩

end

end DistanceMetric

/-! ## Exact numbers -/

namespace Exact

def neg : ExactFloat → ExactFloat
  | .number a => .number (-a)
  | .infinity => .negInfinity
  | .negInfinity => .infinity
  | .nan => .nan

/-- The quotient where it is an integer. -/
def div : ExactFloat → ExactFloat → ExactFloat
  | .number a, .number b =>
      if b = 0 then .signed a.sign else .number (a / b)
  | .number _, .infinity | .number _, .negInfinity => .number 0
  | a, .number b => if 0 ≤ b then a else neg a
  | _, _ => .nan

/-- The root where it is an integer. -/
def sqrt : ExactFloat → ExactFloat
  | .number a => if a < 0 then .nan else .number a.toNat.sqrt
  | .infinity => .infinity
  | _ => .nan

end Exact

/-- Integers with infinities and NaN. -/
@[reducible] def Single.exact : Single ExactFloat where
  zero := .number 0
  infinity := .infinity
  emptySum := .number 0
  add := ExactFloat.add
  sub := fun a b => ExactFloat.add a (Exact.neg b)
  mul := ExactFloat.mul
  div := Exact.div
  square := fun a => ExactFloat.mul a a
  sqrt := Exact.sqrt
  ofUsize := fun n => .number n
  lt := ExactFloat.lt
  eq := fun a b => decide (a = b) && !a.isNan
  isNan := ExactFloat.isNan
  lt_irrefl := ExactFloat.lt_irrefl
  lt_trans := fun _ _ _ => ExactFloat.lt_trans
  lt_of_not_lt := fun _ _ _ number less =>
    ExactFloat.lt_of_not_lt number less
  eq_iff := by
    intro a b
    rw [Bool.and_eq_true, decide_eq_true_eq, Bool.not_eq_true']
    constructor
    · rintro ⟨rfl, number⟩
      exact ⟨number, number, ExactFloat.lt_irrefl a, ExactFloat.lt_irrefl a⟩
    · rintro ⟨numberA, numberB, before, after⟩
      refine ⟨?_, numberA⟩
      cases a with
      | nan => cases numberA
      | infinity =>
          cases b with
          | infinity => rfl
          | nan => cases numberB
          | number b => cases after
          | negInfinity => cases after
      | negInfinity =>
          cases b with
          | negInfinity => rfl
          | nan => cases numberB
          | number b => cases before
          | infinity => cases before
      | number a =>
          cases b with
          | nan => cases numberB
          | infinity => cases before
          | negInfinity => cases after
          | number b =>
              simp only [ExactFloat.lt, decide_eq_false_iff_not] at before after
              rw [show a = b by omega]

end RedVector.Gpu
