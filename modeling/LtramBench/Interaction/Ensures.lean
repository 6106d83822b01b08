import LtramBench.Interaction.Program

/-!
# Postconditions of a program against a machine

`Ensures` is total: the program returns, it does not crash, and the value and
the state it leaves satisfy the postcondition.  Its rules follow the shape of
the program; a counted loop is handled by an invariant indexed by the round.
-/

namespace LtramBench.Interaction.Machine

variable {I : Interface} {σ α β : Type}

/-- The program returns against this machine, with a value and a final state
that satisfy `post`. -/
def Ensures (machine : Machine I σ) :
    Program I α → (α → σ → Prop) → σ → Prop
  | .done value, post, state => post value state
  | .crash, _, _ => False
  | .call request next, post, state =>
      Ensures machine (next (machine request state).1) post (machine request state).2

variable {machine : Machine I σ} {post : α → σ → Prop} {state : σ}

@[simp]
theorem ensures_call (request : I.Call) (next : I.Answer request → Program I α) :
    machine.Ensures (.call request next) post state ↔
      machine.Ensures (next (machine request state).1) post (machine request state).2 :=
  Iff.rfl

theorem ensures_bind (program : Program I α) (next : α → Program I β) (post : β → σ → Prop)
    (state : σ) :
    machine.Ensures (program >>= next) post state ↔
      machine.Ensures program (fun value after => machine.Ensures (next value) post after)
        state := by
  induction program generalizing state with
  | done value => rfl
  | crash => rfl
  | call request rest ih => exact ih _ _

theorem Ensures.mono {program : Program I α} {weaker : α → σ → Prop}
    (holds : machine.Ensures program post state)
    (imp : ∀ value after, post value after → weaker value after) :
    machine.Ensures program weaker state := by
  induction program generalizing state with
  | done value => exact imp value state holds
  | crash => exact holds
  | call request rest ih => exact ih _ holds

/-- The rule of a counted loop: each round takes the invariant of its index to
the one of the next. -/
theorem ensures_forCount {body : Nat → β → Program I β} (invariant : Nat → β → σ → Prop)
    {count : Nat}
    (round : ∀ index value state, index < count → invariant index value state →
      machine.Ensures (body index value) (invariant (index + 1)) state)
    {start : β} {state : σ} (init : invariant 0 start state) :
    machine.Ensures (Program.forCount body 0 count start) (invariant count) state := by
  suffices rest : ∀ remaining index value state, index + remaining = count →
      invariant index value state →
        machine.Ensures (Program.forCount body index remaining value) (invariant count) state from
    rest count 0 start state (Nat.zero_add count) init
  intro remaining
  induction remaining with
  | zero =>
      rintro index value state rfl holds
      exact holds
  | succ remaining ih =>
      intro index value state total holds
      rw [Program.forCount_succ, ensures_bind]
      apply (round index value state (by omega) holds).mono
      intro value after next
      exact ih (index + 1) value after (by omega) next

/-- What `Ensures` says of the execution. -/
theorem Ensures.run_result {program : Program I α} (holds : machine.Ensures program post state) :
    ∃ value, (machine.run program state).result = some value ∧
      post value (machine.run program state).final := by
  induction program generalizing state with
  | done value => exact ⟨value, rfl, holds⟩
  | crash => exact holds.elim
  | call request rest ih => exact ih _ holds

end LtramBench.Interaction.Machine
