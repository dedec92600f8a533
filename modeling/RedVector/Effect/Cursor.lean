import Mathlib.Data.List.Basic

/-!
# Cursors that are positions

A collection is visited in pages.  Each page lists the collection anew, looks
at some elements from the cursor on and returns the position after them, or
zero after the last element.
-/

namespace RedVector.Effect

/-- One call: the collection as it is listed, how many of its elements are
looked at and which of them are kept. -/
structure Page (α : Type) where
  listed : List α
  count : Nat
  keep : α → Bool
  positive : 0 < count

namespace Page

variable {α : Type} {cursor last : Nat} {page : Page α} {pages : List (Page α)}
  {element : α} {listed : List α} {keep : α → Bool}

/-- The elements that are looked at. -/
def window (page : Page α) (cursor : Nat) : List α :=
  (page.listed.drop cursor).take page.count

def found (page : Page α) (cursor : Nat) : List α :=
  (page.window cursor).filter page.keep

def next (page : Page α) (cursor : Nat) : Nat :=
  if page.listed.length ≤ cursor + page.count then 0
  else cursor + page.count

/-- Calls that each start where the one before ended; only the last of them
may return zero. -/
inductive Iterates : Nat → List (Page α) → Nat → Prop where
  | once (cursor : Nat) (page : Page α) :
      Iterates cursor [page] (page.next cursor)
  | more {cursor last : Nat} {page : Page α} {pages : List (Page α)}
      (continues : page.next cursor ≠ 0)
      (rest : Iterates (page.next cursor) pages last) :
      Iterates cursor (page :: pages) last

/-- What the calls return, one after the other. -/
def returned : Nat → List (Page α) → List α
  | _, [] => []
  | cursor, page :: pages =>
      page.found cursor ++ returned (page.next cursor) pages

/-- Between two calls an element that lies behind the cursor is not moved in
front of it. -/
def Undisturbed (element : α) : Nat → List (Page α) → Prop
  | cursor, page :: following :: pages =>
      (element ∈ page.listed.drop (page.next cursor) →
        element ∈ following.listed.drop (page.next cursor)) ∧
      Undisturbed element (page.next cursor) (following :: pages)
  | _, _ => True

theorem next_eq_zero :
    page.next cursor = 0 ↔ page.listed.length ≤ cursor + page.count := by
  have positive := page.positive
  unfold next
  split
  · rename_i finished
    exact iff_of_true rfl finished
  · rename_i unfinished
    constructor
    · omega
    · intro finished
      exact absurd finished unfinished

theorem next_of_ne_zero (continues : page.next cursor ≠ 0) :
    page.next cursor = cursor + page.count ∧
      cursor + page.count < page.listed.length := by
  have unfinished := mt next_eq_zero.mpr continues
  unfold next
  rw [if_neg unfinished]
  omega

/-- What is listed behind the cursor is looked at or stays behind it. -/
theorem window_append (page : Page α) (cursor : Nat) :
    page.window cursor ++ page.listed.drop (cursor + page.count) =
      page.listed.drop cursor := by
  unfold window
  rw [← List.drop_drop]
  exact List.take_append_drop page.count _

/-- The last call looks at everything behind its cursor. -/
theorem window_last (finished : page.next cursor = 0) :
    page.window cursor = page.listed.drop cursor := by
  have whole := window_append page cursor
  rw [List.drop_eq_nil_of_le (next_eq_zero.mp finished),
    List.append_nil] at whole
  exact whole

/-- An iteration returns an element that is there all the time, unless the
cursor overtakes it. -/
theorem mem_returned
    (iterates : Iterates cursor pages 0)
    (behind : ∀ page ∈ pages.head?, element ∈ page.listed.drop cursor)
    (kept : ∀ page ∈ pages, page.keep element = true)
    (undisturbed : Undisturbed element cursor pages) :
    element ∈ returned cursor pages := by
  generalize finished : 0 = last at iterates
  induction iterates with
  | once cursor page =>
      have behind := behind page rfl
      rw [← window_last finished.symm] at behind
      have kept := kept page List.mem_cons_self
      exact List.mem_append_left _ (List.mem_filter.mpr ⟨behind, kept⟩)
  | @more cursor last page pages continues rest ih =>
      have behind := behind page rfl
      rw [← window_append page cursor] at behind
      rcases List.mem_append.mp behind with looked | later
      · have kept := kept page List.mem_cons_self
        exact List.mem_append_left _ (List.mem_filter.mpr ⟨looked, kept⟩)
      · rw [← (next_of_ne_zero continues).1] at later
        apply List.mem_append_right
        cases pages with
        | nil => cases rest
        | cons following pages =>
            obtain ⟨stays, others⟩ := undisturbed
            refine ih ?_ ?_ others finished
            · intro first isFirst
              cases isFirst
              exact stays later
            · intro other member
              exact kept other (List.mem_cons_of_mem _ member)

/-- Nothing changes between the calls. -/
def Unchanged (listed : List α) (keep : α → Bool) (pages : List (Page α)) :
    Prop :=
  ∀ page ∈ pages, page.listed = listed ∧ page.keep = keep

/-- An iteration over a collection that does not change returns what is left
of it, once. -/
theorem returned_unchanged
    (iterates : Iterates cursor pages 0)
    (unchanged : Unchanged listed keep pages) :
    returned cursor pages = (listed.drop cursor).filter keep := by
  generalize finished : 0 = last at iterates
  induction iterates with
  | once cursor page =>
      obtain ⟨rfl, rfl⟩ := unchanged page List.mem_cons_self
      simp [returned, found, window_last finished.symm]
  | @more cursor last page pages continues rest ih =>
      obtain ⟨rfl, rfl⟩ := unchanged page List.mem_cons_self
      have others := ih (fun other member =>
        unchanged other (List.mem_cons_of_mem _ member)) finished
      rw [returned, others, found, (next_of_ne_zero continues).1,
        ← List.filter_append, window_append]

/-- The cursor of an iteration that goes on has passed an element for every
call. -/
theorem iterates_advances
    (iterates : Iterates cursor pages last)
    (unchanged : Unchanged listed keep pages) (continues : last ≠ 0) :
    cursor + pages.length ≤ last ∧ last < listed.length := by
  induction iterates with
  | once cursor page =>
      obtain ⟨rfl, -⟩ := unchanged page List.mem_cons_self
      obtain ⟨advanced, inside⟩ := next_of_ne_zero continues
      have positive := page.positive
      simp only [List.length_cons, List.length_nil]
      omega
  | @more cursor last page pages goesOn rest ih =>
      obtain ⟨advanced, -⟩ := next_of_ne_zero goesOn
      have positive := page.positive
      have others := ih (fun other member =>
        unchanged other (List.mem_cons_of_mem _ member)) continues
      rw [List.length_cons]
      omega

end Page

end RedVector.Effect
