import LtramBench.Interaction.Program

/-!
# Two machines that answer alike

One machine simulates another when related states give the same answers and stay
related.  No program can then tell the two apart.
-/

namespace LtramBench.Interaction

variable {I : Interface} {σ τ α : Type}

/-- Related states answer every call alike and stay related. -/
def Simulates (concrete : Machine I σ) (abstract : Machine I τ) (related : σ → τ → Prop) : Prop :=
  ∀ (request : I.Call) (state : σ) (image : τ), related state image →
    (concrete request state).1 = (abstract request image).1 ∧
      related (concrete request state).2 (abstract request image).2

/-- What a program does against a machine, it does against every machine that the
first one simulates. -/
theorem Simulates.run {concrete : Machine I σ} {abstract : Machine I τ} {related : σ → τ → Prop}
    (simulates : Simulates concrete abstract related) (program : Program I α) {state : σ}
    {image : τ} (start : related state image) :
    (concrete.run program state).result = (abstract.run program image).result ∧
      (concrete.run program state).trace = (abstract.run program image).trace ∧
      related (concrete.run program state).final (abstract.run program image).final := by
  induction program generalizing state image with
  | done value => exact ⟨rfl, rfl, start⟩
  | crash => exact ⟨rfl, rfl, start⟩
  | call request next ih =>
      obtain ⟨sameAnswer, after⟩ := simulates request state image start
      have rest := ih (concrete request state).1 after
      simp only [Machine.run_call]
      rw [← sameAnswer]
      exact ⟨rest.1, by rw [rest.2.1], rest.2.2⟩

/-- The last event of a run leads to its final state. -/
theorem Machine.run_last {machine : Machine I σ} {program : Program I α} {state : σ}
    {before : List (Event I)} {event : Event I}
    (ends : (machine.run program state).trace = before ++ [event]) :
    ∃ last, machine event.call last = (event.answer, (machine.run program state).final) := by
  induction program generalizing state before with
  | done value => cases before <;> cases ends
  | crash => cases before <;> cases ends
  | call request next ih =>
      rw [Machine.run_call] at ends ⊢
      cases before with
      | cons first before => exact ih _ (List.cons.inj ends).2
      | nil =>
          obtain ⟨rfl, nothing⟩ := List.cons.inj ends
          -- a run without events stays where it is
          cases rest : next (machine request state).1 with
          | call other later =>
              rw [rest] at nothing
              cases nothing
          | done value => exact ⟨state, rfl⟩
          | crash => exact ⟨state, rfl⟩

end LtramBench.Interaction
