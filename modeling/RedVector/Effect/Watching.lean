import Mathlib.Data.List.Basic
import Mathlib.Data.List.Induction
import Mathlib.Data.Set.Basic

/-!
# Optimistic locking

Parties watch items, and a party that learns at the end whether one of its
items was modified since it started to watch that item can decide then whether
to go on.  This file says what a party has to learn, in terms of the history.
-/

namespace RedVector.Effect

inductive WatchEvent (ι κ : Type) where
  /-- A party starts to watch items. -/
  | watch (party : ι) (items : Set κ)
  /-- A party ends its period of watching. -/
  | forget (party : ι)
  /-- Items are modified, by whomever. -/
  | modify (items : Set κ)

/-- What each party watches, and whether one of its items was modified while
it did. -/
structure Watching (ι κ : Type) where
  watched : ι → Set κ
  broken : ι → Prop

namespace Watching

variable {ι κ : Type} [DecidableEq ι]

def start : Watching ι κ :=
  { watched := fun _ => ∅, broken := fun _ => False }

def after (state : Watching ι κ) : WatchEvent ι κ → Watching ι κ
  | .watch party items =>
      { state with
        watched := Function.update state.watched party
          (state.watched party ∪ items) }
  | .forget party =>
      { watched := Function.update state.watched party ∅
        broken := Function.update state.broken party False }
  | .modify items =>
      { state with
        broken := fun party => state.broken party ∨
          ∃ item ∈ items, item ∈ state.watched party }

/-- The state that a history leads to. -/
def run (history : List (WatchEvent ι κ)) : Watching ι κ :=
  history.foldl after start

theorem run_snoc (history : List (WatchEvent ι κ)) (event : WatchEvent ι κ) :
    run (history ++ [event]) = (run history).after event := by
  simp [run]

theorem run_append (history events : List (WatchEvent ι κ)) :
    run (history ++ events) = events.foldl after (run history) := by
  simp [run]

/-- The events are in the present period of the party. -/
def SamePeriod (party : ι) (events : List (WatchEvent ι κ)) : Prop :=
  .forget party ∉ events

/-- The party watches an item: it asked to in its present period. -/
def Watches (history : List (WatchEvent ι κ)) (party : ι) (item : κ) :
    Prop :=
  ∃ before items later,
    history = before ++ .watch party items :: later ∧ item ∈ items ∧
      SamePeriod party later

/-- An item of the party was modified after the party had asked to watch it,
in its present period. -/
def Conflict (history : List (WatchEvent ι κ)) (party : ι) : Prop :=
  ∃ before modified later item,
    history = before ++ .modify modified :: later ∧ item ∈ modified ∧
      Watches before party item ∧ SamePeriod party later

omit [DecidableEq ι] in
theorem watches_snoc
    {history : List (WatchEvent ι κ)} {event : WatchEvent ι κ} {party : ι}
    {item : κ} :
    Watches (history ++ [event]) party item ↔
      (Watches history party item ∧ event ≠ .forget party) ∨
        ∃ items, event = .watch party items ∧ item ∈ items := by
  constructor
  · rintro ⟨before, items, later, split, member, period⟩
    obtain rfl | ⟨later, last, rfl⟩ := later.eq_nil_or_concat'
    · obtain ⟨-, same⟩ := List.append_inj' split rfl
      exact .inr ⟨items, List.singleton_inj.mp same, member⟩
    · rw [← List.cons_append, ← List.append_assoc] at split
      obtain ⟨rfl, same⟩ := List.append_inj' split rfl
      obtain rfl := List.singleton_inj.mp same
      refine .inl ⟨⟨before, items, later, rfl, member, ?_⟩, ?_⟩
      · exact fun forgets => period (List.mem_append_left _ forgets)
      · rintro rfl
        exact period (by simp)
  · rintro (⟨⟨before, items, later, rfl, member, period⟩, notForget⟩ |
      ⟨items, rfl, member⟩)
    · refine ⟨before, items, later ++ [event], by simp, member, ?_⟩
      intro forgets
      obtain old | new := List.mem_append.mp forgets
      · exact period old
      · exact notForget (List.mem_singleton.mp new).symm
    · exact ⟨history, items, [], rfl, member, by simp [SamePeriod]⟩

omit [DecidableEq ι] in
theorem conflict_snoc
    {history : List (WatchEvent ι κ)} {event : WatchEvent ι κ} {party : ι} :
    Conflict (history ++ [event]) party ↔
      (Conflict history party ∧ event ≠ .forget party) ∨
        ∃ items item, event = .modify items ∧ item ∈ items ∧
          Watches history party item := by
  constructor
  · rintro ⟨before, items, later, item, split, member, watches, period⟩
    obtain rfl | ⟨later, last, rfl⟩ := later.eq_nil_or_concat'
    · obtain ⟨rfl, same⟩ := List.append_inj' split rfl
      exact .inr ⟨items, item, List.singleton_inj.mp same, member, watches⟩
    · rw [← List.cons_append, ← List.append_assoc] at split
      obtain ⟨rfl, same⟩ := List.append_inj' split rfl
      obtain rfl := List.singleton_inj.mp same
      refine .inl ⟨⟨before, items, later, item, rfl, member, watches, ?_⟩,
        ?_⟩
      · exact fun forgets => period (List.mem_append_left _ forgets)
      · rintro rfl
        exact period (by simp)
  · rintro (⟨⟨before, items, later, item, rfl, member, watches, period⟩,
      notForget⟩ | ⟨items, item, rfl, member, watches⟩)
    · refine ⟨before, items, later ++ [event], item, by simp, member,
        watches, ?_⟩
      intro forgets
      obtain old | new := List.mem_append.mp forgets
      · exact period old
      · exact notForget (List.mem_singleton.mp new).symm
    · exact ⟨history, items, [], item, rfl, member, watches,
        by simp [SamePeriod]⟩

/-- The state is what the history says. -/
theorem run_spec (history : List (WatchEvent ι κ)) (party : ι) :
    (∀ item, item ∈ (run history).watched party ↔
        Watches history party item) ∧
      ((run history).broken party ↔ Conflict history party) := by
  induction history using List.reverseRecOn with
  | nil => simp [run, start, Watches, Conflict]
  | append_singleton history event ih =>
      obtain ⟨watched, broken⟩ := ih
      rw [run_snoc]
      simp only [watches_snoc, conflict_snoc, ← watched, ← broken]
      cases event with
      | watch other items =>
          by_cases same : party = other
          · subst same
            simp [after]
          · simp [after, same, Ne.symm same]
      | forget other =>
          by_cases same : party = other
          · subst same
            simp [after]
          · simp [after, same, Ne.symm same]
      | modify items => simp [after]

end Watching

end RedVector.Effect
