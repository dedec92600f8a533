import Mathlib.Data.List.Basic

/-!
# Runs

A run is a sequence of steps, each with its own input.  What every step
preserves, every run preserves.
-/

namespace RedVector.Effect

/-- From one state to another by a step for each of the inputs. -/
inductive Runs {σ α : Type} (step : σ → α → σ → Prop) :
    σ → List α → σ → Prop where
  | done (state : σ) : Runs step state [] state
  | next {before between after : σ} {input : α} {rest : List α}
      (first : step before input between)
      (others : Runs step between rest after) :
      Runs step before (input :: rest) after

namespace Runs

variable {σ α : Type} {step : σ → α → σ → Prop} {before after : σ}
  {inputs : List α}

theorem invariant (holds : σ → Prop)
    (preserved : ∀ state input result,
      holds state → step state input result → holds result)
    (start : holds before) (run : Runs step before inputs after) :
    holds after := by
  induction run with
  | done state => exact start
  | next first others ih => exact ih (preserved _ _ _ start first)

/-- The steps of a run may be weakened. -/
theorem mono {weaker : σ → α → σ → Prop}
    (weaken : ∀ state input result,
      step state input result → weaker state input result)
    (run : Runs step before inputs after) :
    Runs weaker before inputs after := by
  induction run with
  | done state => exact .done state
  | next first others ih => exact .next (weaken _ _ _ first) ih

end Runs

/-!
## Since

Something that events turn on and off is on if the last event that turned it
on is not followed by one that turned it off.
-/

section

variable {α : Type}

/-- An event that turns it on is not followed by one that turns it off. -/
def Since (on off : α → Prop) (history : List α) : Prop :=
  ∃ earlier event later, history = earlier ++ event :: later ∧ on event ∧
    ∀ next ∈ later, ¬off next

variable {on off : α → Prop}

theorem since_nil : ¬Since on off [] := by
  rintro ⟨earlier, event, later, same, -⟩
  simp at same

/-- One more event decides, unless it is about something else. -/
theorem since_concat (history : List α) (event : α) :
    Since on off (history ++ [event]) ↔
      on event ∨ (Since on off history ∧ ¬off event) := by
  constructor
  · rintro ⟨earlier, first, later, same, turnsOn, quiet⟩
    obtain rfl | ⟨rest, last, rfl⟩ := later.eq_nil_or_concat
    · obtain ⟨rfl, last⟩ := List.append_inj' same rfl
      cases last
      exact .inl turnsOn
    · rw [List.concat_eq_append, ← List.cons_append, ← List.append_assoc]
        at same
      obtain ⟨rfl, ended⟩ := List.append_inj' same rfl
      cases ended
      refine .inr ⟨⟨earlier, first, rest, rfl, turnsOn, ?_⟩, ?_⟩
      · intro next member
        exact quiet next (by simp [member])
      · exact quiet event (by simp)
  · rintro (turnsOn | ⟨⟨earlier, first, later, rfl, turnsOn, quiet⟩, stays⟩)
    · exact ⟨history, event, [], rfl, turnsOn, nofun⟩
    · refine ⟨earlier, first, later ++ [event], by simp, turnsOn, ?_⟩
      intro next member
      obtain before | last := List.mem_append.mp member
      · exact quiet next before
      · rw [List.mem_singleton.mp last]
        exact stays

end

end RedVector.Effect
