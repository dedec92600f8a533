import Mathlib.Data.List.Basic

/-!
# Removing occurrences

A list without the first or the last few occurrences of an element.  The two
are the same exactly if all occurrences go or stand next to each other.
-/

namespace RedVector.Util

variable {α : Type} [DecidableEq α]

/-- A list without the first `count` occurrences of an element. -/
def eraseFirst (element : α) : Nat → List α → List α
  | 0, list => list
  | _ + 1, [] => []
  | count + 1, head :: tail =>
      if head = element then eraseFirst element count tail
      else head :: eraseFirst element (count + 1) tail

/-- A list without the last `count` occurrences of an element. -/
def eraseLast (element : α) (count : Nat) (list : List α) : List α :=
  (eraseFirst element count list.reverse).reverse

/-- The occurrences of an element stand next to each other. -/
def Adjacent (element : α) (list : List α) : Prop :=
  ∃ before times after,
    list = before ++ (List.replicate times element ++ after) ∧
      element ∉ before ∧ element ∉ after

@[simp] theorem eraseFirst_zero (element : α) (list : List α) :
    eraseFirst element 0 list = list := by
  cases list with
  | nil => rfl
  | cons head tail => rfl

@[simp] theorem eraseFirst_nil (element : α) (count : Nat) :
    eraseFirst element count [] = [] := by
  cases count with
  | zero => rfl
  | succ count => rfl

theorem eraseFirst_head (element : α) (count : Nat) (tail : List α) :
    eraseFirst element (count + 1) (element :: tail) =
      eraseFirst element count tail := by
  simp [eraseFirst]

theorem eraseFirst_skip
    {element head : α} (different : head ≠ element) (count : Nat)
    (tail : List α) :
    eraseFirst element count (head :: tail) =
      head :: eraseFirst element count tail := by
  cases count with
  | zero => simp
  | succ count => simp [eraseFirst, different]

/-- Removing some occurrences and then some more. -/
theorem eraseFirst_add (element : α) (first more : Nat) (list : List α) :
    eraseFirst element more (eraseFirst element first list) =
      eraseFirst element (first + more) list := by
  induction list generalizing first with
  | nil => simp
  | cons head tail ih =>
      by_cases same : head = element
      · subst same
        cases first with
        | zero => simp
        | succ first =>
            rw [Nat.add_right_comm, eraseFirst_head, eraseFirst_head, ih]
      · simp only [eraseFirst_skip same, ih]

theorem eraseFirst_replicate (element : α) (count times : Nat) :
    eraseFirst element count (List.replicate times element) =
      List.replicate (times - count) element := by
  induction times generalizing count with
  | zero => simp
  | succ times ih =>
      cases count with
      | zero => simp
      | succ count =>
          rw [List.replicate_succ, eraseFirst_head, ih,
            Nat.add_sub_add_right]

/-- If an occurrence is in front once some are gone, these were in front of
it. -/
theorem eraseFirst_front
    {element : α} {count : Nat} {list rest : List α}
    (front : eraseFirst element count list = element :: rest) :
    list = List.replicate (count + 1) element ++ rest := by
  induction count generalizing list with
  | zero =>
      rw [eraseFirst_zero] at front
      exact front
  | succ count ih =>
      cases list with
      | nil => cases front
      | cons head tail =>
          by_cases same : head = element
          · subst same
            rw [eraseFirst_head] at front
            rw [List.replicate_succ, List.cons_append, ← ih front]
          · rw [eraseFirst_skip same] at front
            cases front
            exact absurd rfl same

omit [DecidableEq α] in
theorem Adjacent.cons
    {element head : α} {list : List α} (adjacent : Adjacent element list)
    (different : head ≠ element) : Adjacent element (head :: list) := by
  obtain ⟨before, times, after, rfl, notBefore, notAfter⟩ := adjacent
  refine ⟨head :: before, times, after, rfl, ?_, notAfter⟩
  simpa [Ne.symm different] using notBefore

omit [DecidableEq α] in
/-- One more occurrence in front of one. -/
theorem Adjacent.again
    {element : α} {list : List α}
    (adjacent : Adjacent element (element :: list)) :
    Adjacent element (element :: element :: list) := by
  obtain ⟨before, times, after, parts, notBefore, notAfter⟩ := adjacent
  cases before with
  | nil =>
      refine ⟨[], times + 1, after, ?_, notBefore, notAfter⟩
      rw [parts]
      rfl
  | cons head tail =>
      cases parts
      exact absurd List.mem_cons_self notBefore

variable [BEq α] [LawfulBEq α]

theorem eraseFirst_append (element : α) (count : Nat) (front back : List α) :
    eraseFirst element count (front ++ back) =
      eraseFirst element count front ++
        eraseFirst element (count - front.count element) back := by
  induction front generalizing count with
  | nil => simp
  | cons head tail ih =>
      by_cases same : head = element
      · subst same
        cases count with
        | zero => simp
        | succ count =>
            rw [List.cons_append, eraseFirst_head, eraseFirst_head, ih,
              List.count_cons_self, Nat.add_sub_add_right]
      · rw [List.cons_append, eraseFirst_skip same, eraseFirst_skip same, ih,
          List.count_cons_of_ne same, List.cons_append]

theorem eraseLast_append (element : α) (count : Nat) (front back : List α) :
    eraseLast element count (front ++ back) =
      eraseLast element (count - back.count element) front ++
        eraseLast element count back := by
  unfold eraseLast
  rw [List.reverse_append, eraseFirst_append, List.reverse_append,
    List.count_reverse]

/-- If no more occurrences are there, all of them go. -/
theorem eraseFirst_all
    {element : α} {count : Nat} {list : List α}
    (enough : list.count element ≤ count) :
    eraseFirst element count list = list.filter fun other =>
      other ≠ element := by
  induction list generalizing count with
  | nil => simp
  | cons head tail ih =>
      by_cases same : head = element
      · subst same
        rw [List.count_cons_self] at enough
        cases count with
        | zero => omega
        | succ count =>
            rw [eraseFirst_head, ih (Nat.le_of_succ_le_succ enough)]
            simp
      · rw [List.count_cons_of_ne same] at enough
        rw [eraseFirst_skip same, ih enough]
        simp [same]

theorem eraseLast_all
    {element : α} {count : Nat} {list : List α}
    (enough : list.count element ≤ count) :
    eraseLast element count list = list.filter fun other =>
      other ≠ element := by
  unfold eraseLast
  rw [eraseFirst_all (by rwa [List.count_reverse]), List.filter_reverse,
    List.reverse_reverse]

theorem eraseFirst_absent
    {element : α} {list : List α} (absent : element ∉ list) (count : Nat) :
    eraseFirst element count list = list := by
  rw [eraseFirst_all (by rw [List.count_eq_zero_of_not_mem absent]; omega)]
  apply List.filter_eq_self.mpr
  intro other member
  have different : other ≠ element := by
    rintro rfl
    exact absent member
  simpa using different

theorem eraseLast_absent
    {element : α} {list : List α} (absent : element ∉ list) (count : Nat) :
    eraseLast element count list = list := by
  unfold eraseLast
  rw [eraseFirst_absent (by simpa using absent), List.reverse_reverse]

/-- From occurrences that stand next to each other it does not matter which
ones go. -/
theorem Adjacent.erase
    {element : α} {list : List α} (adjacent : Adjacent element list)
    (count : Nat) :
    eraseFirst element count list = eraseLast element count list := by
  obtain ⟨before, times, after, rfl, notBefore, notAfter⟩ := adjacent
  have run : eraseLast element count (List.replicate times element) =
      eraseFirst element count (List.replicate times element) := by
    unfold eraseLast
    rw [List.reverse_replicate, eraseFirst_replicate, List.reverse_replicate]
  rw [eraseFirst_append, eraseFirst_append, eraseLast_append,
    eraseLast_append, eraseFirst_absent notBefore,
    eraseFirst_absent notAfter, eraseLast_absent notBefore,
    eraseLast_absent notAfter, List.count_eq_zero_of_not_mem notBefore,
    List.count_eq_zero_of_not_mem notAfter, Nat.sub_zero, run]

theorem eraseLast_cons
    {element head : α} {count : Nat} {tail : List α}
    (stays : head ≠ element ∨ count ≤ tail.count element) :
    eraseLast element count (head :: tail) =
      head :: eraseLast element count tail := by
  have parts := eraseLast_append element count [head] tail
  have kept : eraseLast element (count - tail.count element) [head] =
      [head] := by
    rcases stays with different | few
    · exact eraseLast_absent (by simpa using Ne.symm different) _
    · rw [Nat.sub_eq_zero_of_le few]
      rfl
  rw [kept] at parts
  exact parts

/-- Removing some but not all of the occurrences from the front and from the
back leaves the same only if they stand next to each other. -/
theorem adjacent_of_erase
    {element : α} {count : Nat} {list : List α} (positive : 0 < count)
    (few : count < list.count element)
    (same : eraseFirst element count list = eraseLast element count list) :
    Adjacent element list := by
  induction list with
  | nil => cases few
  | cons head tail ih =>
      by_cases isElement : head = element
      · subst isElement
        rw [List.count_cons_self] at few
        cases count with
        | zero => cases positive
        | succ fewer =>
            rw [eraseFirst_head, eraseLast_cons (.inr (by omega))] at same
            -- the occurrences that go from the front are all in front
            have front := eraseFirst_front same
            by_cases fewer' : fewer + 1 < tail.count head
            · have shorter : eraseFirst head (fewer + 1) tail =
                  eraseLast head (fewer + 1) tail := by
                rw [← eraseFirst_add, same, eraseFirst_head, eraseFirst_zero]
              have adjacent := ih fewer' shorter
              rw [front, List.replicate_succ, List.cons_append] at adjacent ⊢
              exact adjacent.again
            · have rest := eraseLast_all (Nat.not_lt.mp fewer')
              refine ⟨[], fewer + 2, eraseLast head (fewer + 1) tail, ?_,
                by simp, ?_⟩
              · rw [List.replicate_succ, List.nil_append, List.cons_append,
                  ← front]
              · rw [rest]
                simp
      · rw [List.count_cons_of_ne isElement] at few
        rw [eraseFirst_skip isElement, eraseLast_cons (.inl isElement)]
          at same
        exact (ih few (List.cons.inj same).2).cons isElement

/-- Where it does not matter from which end occurrences go. -/
theorem erase_iff
    {element : α} {count : Nat} {list : List α} (positive : 0 < count) :
    eraseFirst element count list = eraseLast element count list ↔
      list.count element ≤ count ∨ Adjacent element list := by
  constructor
  · intro same
    by_cases few : count < list.count element
    · exact .inr (adjacent_of_erase positive few same)
    · exact .inl (Nat.not_lt.mp few)
  · rintro (all | adjacent)
    · rw [eraseFirst_all all, eraseLast_all all]
    · exact adjacent.erase count

end RedVector.Util
