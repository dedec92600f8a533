import RedVector.Value.SortedSet

/-!
# The order of a skip list

Members without NaN are ordered by score and then by name, and a list in that
order is cut in two by each of its elements.
-/

namespace RedVector

/-! ## Lists in order -/

section Lists

variable {α : Type} {before : α → α → Prop} {list : List α} {position : Nat}
  {element : α}

/-- An element of a list with what stands before and after it. -/
theorem getElem?_split (found : list[position]? = some element) :
    list = list.take position ++ element :: list.drop (position + 1) := by
  obtain ⟨inside, isElement⟩ := List.getElem?_eq_some_iff.mp found
  rw [← isElement, ← List.drop_eq_getElem_cons inside,
    List.take_append_drop]

/-- What stands before an element of an ordered list is before it. -/
theorem pairwise_split
    (ordered : list.Pairwise before)
    (found : list[position]? = some element) :
    (∀ other ∈ list.take position, before other element) ∧
      ∀ other ∈ list.drop (position + 1), before element other := by
  rw [getElem?_split found] at ordered
  obtain ⟨-, tail, across⟩ := List.pairwise_append.mp ordered
  refine ⟨?_, (List.pairwise_cons.mp tail).1⟩
  intro other member
  exact across other member element List.mem_cons_self

/-- A condition that fails before an element and holds from it on. -/
theorem filter_eq_drop
    {keep : α → Bool} (ordered : list.Pairwise before)
    (found : list[position]? = some element)
    (self : keep element = true)
    (fails : ∀ other, before other element → keep other = false)
    (holds : ∀ other, before element other → keep other = true) :
    list.filter keep = list.drop position := by
  obtain ⟨front, back⟩ := pairwise_split ordered found
  obtain ⟨inside, isElement⟩ := List.getElem?_eq_some_iff.mp found
  rw [List.drop_eq_getElem_cons inside, isElement]
  calc list.filter keep
      = (list.take position ++ element :: list.drop (position + 1)).filter
          keep := by rw [← getElem?_split found]
    _ = element :: list.drop (position + 1) := by
        rw [List.filter_append, List.filter_cons_of_pos self,
          List.filter_eq_nil_iff.mpr, List.filter_eq_self.mpr,
          List.nil_append]
        · exact fun other member => holds other (back other member)
        · intro other member
          rw [fails other (front other member)]
          exact Bool.false_ne_true

/-- A condition that holds up to an element and fails behind it. -/
theorem filter_eq_take
    {keep : α → Bool} (ordered : list.Pairwise before)
    (found : list[position]? = some element)
    (self : keep element = true)
    (holds : ∀ other, before other element → keep other = true)
    (fails : ∀ other, before element other → keep other = false) :
    list.filter keep = list.take (position + 1) := by
  obtain ⟨front, back⟩ := pairwise_split ordered found
  obtain ⟨inside, isElement⟩ := List.getElem?_eq_some_iff.mp found
  have taken : list.take (position + 1) =
      list.take position ++ [element] := by
    rw [List.take_add_one, found]
    rfl
  calc list.filter keep
      = (list.take position ++ element :: list.drop (position + 1)).filter
          keep := by rw [← getElem?_split found]
    _ = list.take position ++ [element] := by
        rw [List.filter_append, List.filter_cons_of_pos self,
          List.filter_eq_self.mpr, List.filter_eq_nil_iff.mpr]
        · intro other member
          rw [fails other (back other member)]
          exact Bool.false_ne_true
        · exact fun other member => holds other (front other member)
    _ = list.take (position + 1) := taken.symm

end Lists

/-! ## Byte strings -/

theorem compareBytes_eq (left right : Bytes) :
    compareBytes left right = .eq ↔ left = right := by
  induction left generalizing right with
  | nil =>
      cases right with
      | nil => exact iff_of_true rfl rfl
      | cons _ _ => exact iff_of_false nofun nofun
  | cons head tail ih =>
      cases right with
      | nil => exact iff_of_false nofun nofun
      | cons other rest =>
          unfold compareBytes
          split
          · rename_i less
            refine iff_of_false nofun ?_
            intro same
            cases same
            exact absurd less (UInt8.lt_irrefl _)
          · rename_i notLess
            split
            · rename_i more
              refine iff_of_false nofun ?_
              intro same
              cases same
              exact absurd more (UInt8.lt_irrefl _)
            · rename_i notMore
              have same : head = other :=
                UInt8.le_antisymm (UInt8.not_lt.mp notMore)
                  (UInt8.not_lt.mp notLess)
              rw [ih, List.cons.injEq]
              exact ⟨fun tails => ⟨same, tails⟩, And.right⟩

theorem compareBytes_swap (left right : Bytes) :
    compareBytes right left = (compareBytes left right).swap := by
  induction left generalizing right with
  | nil =>
      cases right with
      | nil => rfl
      | cons _ _ => rfl
  | cons head tail ih =>
      cases right with
      | nil => rfl
      | cons other rest =>
          unfold compareBytes
          by_cases less : head < other
          · rw [if_pos less, if_neg (UInt8.lt_asymm less), if_pos less]
            rfl
          · rw [if_neg less, if_neg less]
            by_cases more : other < head
            · rw [if_pos more, if_pos more]
              rfl
            · rw [if_neg more, if_neg more]
              exact ih rest

theorem compareBytes_cons_lt (head other : UInt8) (tail rest : Bytes) :
    compareBytes (head :: tail) (other :: rest) = .lt ↔
      head < other ∨ head = other ∧ compareBytes tail rest = .lt := by
  rw [compareBytes]
  by_cases less : head < other
  · rw [if_pos less]
    exact iff_of_true rfl (.inl less)
  · rw [if_neg less]
    by_cases more : other < head
    · rw [if_pos more]
      refine iff_of_false nofun ?_
      intro either
      rcases either with less' | ⟨same, -⟩
      · exact less less'
      · subst same
        exact less more
    · rw [if_neg more]
      have same : head = other :=
        UInt8.le_antisymm (UInt8.not_lt.mp more) (UInt8.not_lt.mp less)
      exact ⟨fun tails => .inr ⟨same, tails⟩,
        fun either => either.elim (absurd · less) And.right⟩

theorem compareBytes_trans
    {first second third : Bytes} (less : compareBytes first second = .lt)
    (also : compareBytes second third = .lt) :
    compareBytes first third = .lt := by
  induction first generalizing second third with
  | nil =>
      cases second with
      | nil => cases less
      | cons _ _ =>
          cases third with
          | nil => cases also
          | cons _ _ => rfl
  | cons a as ih =>
      cases second with
      | nil => cases less
      | cons b bs =>
          cases third with
          | nil => cases also
          | cons c cs =>
              rw [compareBytes_cons_lt] at less also ⊢
              rcases less with less | ⟨rfl, tails⟩
              · rcases also with also | ⟨rfl, -⟩
                · exact .inl (UInt8.lt_trans less also)
                · exact .inl less
              · rcases also with also | ⟨rfl, rests⟩
                · exact .inl also
                · exact .inr ⟨rfl, ih tails rests⟩

/-! ## Members -/

namespace SortedSetMember

variable [Platform]

/-- A member of a set, with a number for a score. -/
structure Proper (member : SortedSetMember) : Prop where
  plain : member.upperBoundary = false
  number : Platform.f64IsNan member.f = false

variable {left right other : SortedSetMember}

theorem compare_self (proper : left.Proper) : left.compare left = .eq := by
  unfold compare
  rw [if_neg (by simp [Platform.f64_lt_irrefl]),
    if_neg (by simp [Platform.f64_lt_irrefl]), proper.plain]
  simp [(compareBytes_eq left.s left.s).mpr]

theorem f64Lt_asymm {a b : F64} (less : Platform.f64Lt a b = true) :
    Platform.f64Lt b a = false := by
  apply Bool.eq_false_iff.mpr
  intro more
  have both := Platform.f64_lt_trans a b a less more
  rw [Platform.f64_lt_irrefl] at both
  cases both

theorem compare_swap (proper : left.Proper) (also : right.Proper) :
    right.compare left = (left.compare right).swap := by
  unfold compare
  rw [proper.plain, also.plain]
  simp only [Bool.false_eq_true, if_false]
  by_cases less : Platform.f64Lt left.f right.f = true
  · rw [if_pos less, if_neg (by simp [f64Lt_asymm less]), if_pos less]
    rfl
  · rw [if_neg less, if_neg less]
    by_cases more : Platform.f64Lt right.f left.f = true
    · rw [if_pos more, if_pos more]
      rfl
    · rw [if_neg more, if_neg more]
      exact compareBytes_swap left.s right.s

theorem compare_lt_iff (proper : left.Proper) (also : right.Proper) :
    left.compare right = .lt ↔ Platform.f64Lt left.f right.f = true ∨
      Platform.f64Lt right.f left.f = false ∧
        compareBytes left.s right.s = .lt := by
  unfold compare
  rw [proper.plain, also.plain]
  simp only [Bool.false_eq_true, if_false]
  by_cases less : Platform.f64Lt left.f right.f = true
  · rw [if_pos less]
    exact iff_of_true rfl (.inl less)
  · rw [if_neg less]
    by_cases more : Platform.f64Lt right.f left.f = true
    · rw [if_pos more]
      refine iff_of_false nofun ?_
      intro either
      rcases either with less' | ⟨same, -⟩
      · exact less less'
      · cases more.symm.trans same
    · rw [if_neg more]
      have equal : Platform.f64Lt right.f left.f = false := by
        simpa using more
      exact ⟨fun names => .inr ⟨equal, names⟩,
        fun either => either.elim (absurd · less) And.right⟩

/-- Members that compare equal have one name. -/
theorem compare_eq_names
    (proper : left.Proper) (also : right.Proper)
    (same : left.compare right = .eq) : left.s = right.s := by
  unfold compare at same
  rw [proper.plain, also.plain] at same
  simp only [Bool.false_eq_true, if_false] at same
  split at same
  · cases same
  · split at same
    · cases same
    · exact (compareBytes_eq _ _).mp same

theorem compare_trans
    (first : left.Proper) (second : other.Proper) (third : right.Proper)
    (less : left.compare other = .lt) (also : other.compare right = .lt) :
    left.compare right = .lt := by
  have weaken : ∀ a b c : SortedSetMember, a.Proper → b.Proper →
      c.Proper → Platform.f64Lt a.f b.f = true →
      Platform.f64Lt a.f c.f = true ∨ Platform.f64Lt c.f b.f = true := by
    intro a b c one two three
    exact Platform.f64_lt_of_not_lt a.f c.f b.f one.number three.number
      two.number
  rw [compare_lt_iff first second] at less
  rw [compare_lt_iff second third] at also
  rw [compare_lt_iff first third]
  rcases less with less | ⟨notMore, names⟩
  · rcases also with also | ⟨notMore', -⟩
    · exact .inl (Platform.f64_lt_trans _ _ _ less also)
    · rcases weaken left other right first second third less with done | up
      · exact .inl done
      · cases notMore'.symm.trans up
  · rcases also with also | ⟨notMore', names'⟩
    · rcases weaken other right left second third first also with up | done
      · cases notMore.symm.trans up
      · exact .inl done
    · refine .inr ⟨?_, compareBytes_trans names names'⟩
      apply Bool.eq_false_iff.mpr
      intro more
      rcases weaken right left other third first second more with up | up
      · cases notMore'.symm.trans up
      · cases notMore.symm.trans up

end SortedSetMember

end RedVector
