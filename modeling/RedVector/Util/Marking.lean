import Mathlib.Data.Set.Insert

/-!
# Filters that mark positions

A filter marks the positions of every item that it is given.  It takes an item
for one of them when all the positions of the item are marked, so it may take
others for one of them but misses none.
-/

namespace RedVector.Util

variable {Filter Item Position : Type}

/-- The operations mark and test the same positions. -/
structure Marking (insert : Filter → Item → Bool × Filter)
    (contains : Filter → Item → Bool) (marked : Filter → Set Position)
    (positions : Filter → Item → Set Position) : Prop where
  nonempty : ∀ filter item, (positions filter item).Nonempty
  contains_iff : ∀ filter item,
    contains filter item = true ↔ positions filter item ⊆ marked filter
  insert_answer : ∀ filter item,
    (insert filter item).1 = contains filter item
  insert_marked : ∀ filter item,
    marked (insert filter item).2 = marked filter ∪ positions filter item
  insert_positions : ∀ filter item,
    positions (insert filter item).2 = positions filter

namespace Marking

variable {insert : Filter → Item → Bool × Filter}
  {contains : Filter → Item → Bool} {marked : Filter → Set Position}
  {positions : Filter → Item → Set Position}

/-- What was inserted is contained. -/
theorem contains_inserted (marking : Marking insert contains marked positions)
    (filter : Filter) (item : Item) :
    contains (insert filter item).2 item = true := by
  rw [marking.contains_iff, marking.insert_marked, marking.insert_positions]
  exact Set.subset_union_right

/-- What was contained stays contained. -/
theorem contains_kept (marking : Marking insert contains marked positions)
    {filter : Filter} {item : Item} (contained : contains filter item = true)
    (other : Item) : contains (insert filter other).2 item = true := by
  rw [marking.contains_iff] at contained ⊢
  rw [marking.insert_marked, marking.insert_positions]
  exact contained.trans Set.subset_union_left

/-- A filter without marks contains nothing. -/
theorem contains_unmarked (marking : Marking insert contains marked positions)
    {filter : Filter} (unmarked : marked filter = ∅) (item : Item) :
    contains filter item = false := by
  apply Bool.eq_false_iff.mpr
  intro contained
  rw [marking.contains_iff, unmarked, Set.subset_empty_iff] at contained
  exact (marking.nonempty filter item).ne_empty contained

/-- A list of items marks the items themselves. -/
theorem list [BEq Item] [LawfulBEq Item] :
    Marking
      (fun (filter : List Item) item =>
        (filter.contains item, filter.insert item))
      (fun filter item => filter.contains item)
      (fun filter => {item | item ∈ filter}) (fun _ item => {item}) := by
  constructor
  · intro filter item
    exact ⟨item, rfl⟩
  · intro filter item
    rw [List.contains_iff_mem]
    exact Iff.symm Set.singleton_subset_iff
  · intro filter item
    rfl
  · intro filter item
    ext other
    exact List.mem_insert_iff.trans or_comm
  · intro filter item
    rfl

end Marking

end RedVector.Util
