import Mathlib.Data.List.Basic
import RedVector.Platform

/-!
# Elements between two bounds

What lies between two bounds of an order stands in a row of a list in that
order.
-/

namespace RedVector.Bound

section

variable {α β : Type} {less : α → α → Bool}

/-- An element satisfies a bound from below. -/
def above (less : α → α → Bool) : Bound α → α → Bool
  | included limit, element => !less element limit
  | excluded limit, element => less limit element
  | unbounded, _ => true

/-- An element satisfies a bound from above. -/
def below (less : α → α → Bool) : Bound α → α → Bool
  | included limit, element => !less limit element
  | excluded limit, element => less element limit
  | unbounded, _ => true

/-- An element lies between two bounds. -/
def within (less : α → α → Bool) (min max : Bound α) (element : α) : Bool :=
  min.above less element && max.below less element

/-- The limit of a bound, if there is one, has a property. -/
def All (proper : α → Prop) : Bound α → Prop
  | included limit | excluded limit => proper limit
  | unbounded => True

/-- The elements in order are not split up by what lies between them. -/
def Weak (less : α → α → Bool) (proper : α → Prop) : Prop :=
  ∀ a b c, proper a → proper b → proper c → less a c = true →
    less a b = true ∨ less b c = true

variable {proper : α → Prop} {left right : α} {bound : Bound α}

theorem above_mono
    (weak : Weak less proper) (limit : bound.All proper)
    (isLeft : proper left) (isRight : proper right)
    (ordered : less right left = false)
    (satisfied : bound.above less left = true) :
    bound.above less right = true := by
  cases bound with
  | included low =>
      simp only [above, Bool.not_eq_true'] at satisfied ⊢
      apply Bool.eq_false_iff.mpr
      intro outside
      rcases weak right left low isRight isLeft limit outside with back | low
      · cases ordered.symm.trans back
      · cases satisfied.symm.trans low
  | excluded low =>
      rcases weak low right left limit isRight isLeft satisfied with up | back
      · exact up
      · cases ordered.symm.trans back
  | unbounded => rfl

theorem below_mono
    (weak : Weak less proper) (limit : bound.All proper)
    (isLeft : proper left) (isRight : proper right)
    (ordered : less right left = false)
    (satisfied : bound.below less right = true) :
    bound.below less left = true := by
  cases bound with
  | included high =>
      simp only [below, Bool.not_eq_true'] at satisfied ⊢
      apply Bool.eq_false_iff.mpr
      intro outside
      rcases weak high right left limit isRight isLeft outside with up | back
      · cases satisfied.symm.trans up
      · cases ordered.symm.trans back
  | excluded high =>
      rcases weak right left high isRight isLeft limit satisfied with back | up
      · cases ordered.symm.trans back
      · exact up
  | unbounded => rfl

/-- What holds from some element on and what holds up to some element hold
together in between. -/
theorem filter_between
    {list : List β} {rising falling : β → Bool}
    (rises : list.Pairwise fun left right =>
      rising left = true → rising right = true)
    (falls : list.Pairwise fun left right =>
      falling right = true → falling left = true) :
    (list.filter fun element => rising element && falling element) =
      (list.drop (list.countP fun element => !rising element)).take
        (list.countP fun element => rising element && falling element) := by
  induction list with
  | nil => rfl
  | cons head tail ih =>
      obtain ⟨up, tailRises⟩ := List.pairwise_cons.mp rises
      obtain ⟨down, tailFalls⟩ := List.pairwise_cons.mp falls
      have rest := ih tailRises tailFalls
      by_cases risen : rising head = true
      · have start : (head :: tail).countP (fun element => !rising element) =
            0 := by
          rw [List.countP_eq_zero]
          intro element member
          rcases List.mem_cons.mp member with rfl | member
          · simp [risen]
          · simp [up element member risen]
        rw [start, List.drop_zero]
        by_cases high : falling head = true
        · have tailStart : tail.countP (fun element => !rising element) =
              0 := by
            rw [List.countP_cons] at start
            omega
          rw [tailStart, List.drop_zero] at rest
          rw [List.filter_cons_of_pos (by simp [risen, high]),
            List.countP_cons_of_pos (by simp [risen, high]),
            List.take_succ_cons, ← rest]
        · have none : ∀ element ∈ head :: tail,
              ¬ (rising element && falling element) = true := by
            intro element member both
            have fallen := (Bool.and_eq_true_iff.mp both).2
            rcases List.mem_cons.mp member with rfl | member
            · exact high fallen
            · exact high (down element member fallen)
          rw [List.filter_eq_nil_iff.mpr none, List.countP_eq_zero.mpr none,
            List.take_zero]
      · have start : (head :: tail).countP (fun element => !rising element) =
            tail.countP (fun element => !rising element) + 1 :=
          List.countP_cons_of_pos (by simp [risen])
        rw [start, List.drop_succ_cons,
          List.filter_cons_of_neg (by simp [risen]),
          List.countP_cons_of_neg (by simp [risen])]
        exact rest

/-- The elements between two bounds stand in a row of an ordered list. -/
theorem filter_within
    {list : List β} {key : β → α} (weak : Weak less proper)
    (ordered : list.Pairwise fun left right =>
      less (key right) (key left) = false)
    (isProper : ∀ element ∈ list, proper (key element))
    {min max : Bound α} (low : min.All proper) (high : max.All proper) :
    (list.filter fun element => within less min max (key element)) =
      (list.drop (list.countP fun element =>
          !min.above less (key element))).take
        (list.countP fun element => within less min max (key element)) := by
  apply filter_between
  · apply ordered.imp_of_mem
    intro left right inLeft inRight notBack
    exact above_mono weak low (isProper left inLeft)
      (isProper right inRight) notBack
  · apply ordered.imp_of_mem
    intro left right inLeft inRight notBack
    exact below_mono weak high (isProper left inLeft)
      (isProper right inRight) notBack

end

end RedVector.Bound
