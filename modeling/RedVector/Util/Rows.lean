import Mathlib.Data.List.TakeDrop

/-!
# Rows

A list of rows of one width, one after the other, and the rows of a list.
-/

namespace RedVector.Util

variable {α β : Type} {row : α → List β} {width : Nat} {l : List α}

theorem length_rows (wide : ∀ element ∈ l, (row element).length = width) :
    (l.flatMap row).length = l.length * width := by
  induction l with
  | nil => simp
  | cons head tail ih =>
      rw [List.flatMap_cons, List.length_append, wide head List.mem_cons_self,
        ih fun element member => wide element (List.mem_cons_of_mem _ member),
        List.length_cons, Nat.succ_mul, Nat.add_comm]

theorem drop_rows (wide : ∀ element ∈ l, (row element).length = width)
    (place : Nat) :
    (l.flatMap row).drop (place * width) = (l.drop place).flatMap row := by
  induction l generalizing place with
  | nil => simp
  | cons head tail ih =>
      cases place with
      | zero => simp
      | succ place =>
          have first := wide head List.mem_cons_self
          rw [List.flatMap_cons, Nat.succ_mul, Nat.add_comm,
            ← List.drop_drop, ← first, List.drop_left, first,
            ih fun element member =>
              wide element (List.mem_cons_of_mem _ member),
            List.drop_succ_cons]

/-- The row at a place. -/
theorem row_at (wide : ∀ element ∈ l, (row element).length = width)
    {place : Nat} {element : α} (found : l[place]? = some element) :
    ((l.flatMap row).drop (place * width)).take width = row element := by
  obtain ⟨inside, rfl⟩ := List.getElem?_eq_some_iff.mp found
  rw [drop_rows wide, List.drop_eq_getElem_cons inside, List.flatMap_cons,
    ← wide _ (List.getElem_mem inside), List.take_left]

/-! ## The rows of a list -/

/-- The rows of a width; what is left over is in none of them. -/
def rowsOf (width : Nat) (l : List β) : List (List β) :=
  (List.range (l.length / width)).map fun place =>
    (l.drop (place * width)).take width

theorem rowsOf_length (width : Nat) (l : List β) :
    (rowsOf width l).length = l.length / width := by
  unfold rowsOf
  rw [List.length_map, List.length_range]

theorem length_of_mem_rowsOf {l row : List β} (member : row ∈ rowsOf width l) :
    row.length = width := by
  unfold rowsOf at member
  obtain ⟨place, isPlace, rfl⟩ := List.mem_map.mp member
  have inside := Nat.le_trans (Nat.mul_le_mul_right width
    (Nat.succ_le_of_lt (List.mem_range.mp isPlace)))
      (Nat.div_mul_le_self l.length width)
  rw [Nat.succ_mul] at inside
  rw [List.length_take, List.length_drop]
  omega

theorem getElem?_rowsOf {l : List β} {place : Nat}
    (inside : place < l.length / width) :
    (rowsOf width l)[place]? = some ((l.drop (place * width)).take width) := by
  unfold rowsOf
  rw [List.getElem?_map, List.getElem?_range inside]
  rfl

/-- Rows of the width are found again. -/
theorem rowsOf_flatMap (positive : 0 < width)
    (wide : ∀ element ∈ l, (row element).length = width) :
    rowsOf width (l.flatMap row) = l.map row := by
  apply List.ext_getElem?
  intro place
  unfold rowsOf
  rw [length_rows wide, Nat.mul_div_cancel _ positive, List.getElem?_map,
    List.getElem?_map]
  by_cases inside : place < l.length
  · rw [List.getElem?_range inside, List.getElem?_eq_getElem inside]
    exact congrArg some (row_at wide (List.getElem?_eq_getElem inside))
  · rw [List.getElem?_eq_none (by rw [List.length_range]; omega),
      List.getElem?_eq_none (by omega)]
    rfl

theorem rowsOf_row (positive : 0 < width) {only : List β}
    (wide : only.length = width) : rowsOf width only = [only] := by
  have all : ∀ element ∈ [only], (id element : List β).length = width := by
    intro element member
    rw [List.mem_singleton.mp member]
    exact wide
  have rows := rowsOf_flatMap positive all
  rwa [List.flatMap_singleton] at rows

/-- The last row of rows. -/
theorem rowsOf_append (positive : 0 < width) {front last : List β}
    {rows : Nat} (whole : front.length = rows * width)
    (wide : last.length = width) :
    rowsOf width (front ++ last) = rowsOf width front ++ [last] := by
  have before : front.length / width = rows := by
    rw [whole, Nat.mul_div_cancel _ positive]
  have count : (front ++ last).length / width = rows + 1 := by
    rw [List.length_append, whole, wide, ← Nat.succ_mul,
      Nat.mul_div_cancel _ positive]
  unfold rowsOf
  rw [count, before, List.range_succ, List.map_append, List.map_singleton]
  congr 1
  · apply List.map_congr_left
    intro place member
    have inside : place * width + width ≤ front.length := by
      rw [whole, ← Nat.succ_mul]
      exact Nat.mul_le_mul_right width
        (Nat.succ_le_of_lt (List.mem_range.mp member))
    rw [List.drop_append_of_le_length (by omega),
      List.take_append_of_le_length (by rw [List.length_drop]; omega)]
  · rw [← whole, List.drop_left, ← wide, List.take_length]

end RedVector.Util
