import LtramBench.Interaction.Program
import Mathlib.Algebra.BigOperators.Group.Finset.Basic
import Mathlib.Algebra.BigOperators.Group.List.Basic

/-!
# Interleaved programs over one shared environment

Any finite family of programs runs against one machine.  A schedule names, step
by step, the thread that makes its next call; a call is atomic and everything
between two calls is local.  Each thread keeps the events it has seen, so what a
thread has done so far can be read off without inspecting its continuation.
-/

namespace LtramBench.Interaction

/-- `Reaches program history rest` holds when the events of `history` take
`program` to `rest`. -/
inductive Program.Reaches {I : Interface} {α : Type} :
    Program I α → List (Event I) → Program I α → Prop
  | here (program : Program I α) : Reaches program [] program
  | call {request : I.Call} {next : I.Answer request → Program I α}
      {answer : I.Answer request} {history : List (Event I)} {rest : Program I α} :
      Reaches (next answer) history rest →
      Reaches (.call request next) (⟨request, answer⟩ :: history) rest

namespace Program

variable {I : Interface} {α : Type}

theorem Reaches.snoc {program : Program I α} {history : List (Event I)} {request : I.Call}
    {next : I.Answer request → Program I α}
    (reached : program.Reaches history (.call request next)) (answer : I.Answer request) :
    program.Reaches (history ++ [⟨request, answer⟩]) (next answer) := by
  generalize restEq : Program.call request next = rest at reached
  induction reached with
  | here program =>
      subst restEq
      exact .call (.here _)
  | call _ ih => exact .call (ih restEq)

@[simp]
theorem reaches_done_iff (value : α) (history : List (Event I)) (rest : Program I α) :
    Reaches (.done value) history rest ↔ history = [] ∧ rest = .done value := by
  constructor
  · intro reached
    cases reached
    exact ⟨rfl, rfl⟩
  · rintro ⟨rfl, rfl⟩
    exact .here _

@[simp]
theorem reaches_call_iff (request : I.Call) (next : I.Answer request → Program I α)
    (history : List (Event I)) (rest : Program I α) :
    Reaches (.call request next) history rest ↔
      history = [] ∧ rest = .call request next ∨
        ∃ answer later, history = ⟨request, answer⟩ :: later ∧
          Reaches (next answer) later rest := by
  constructor
  · intro reached
    cases reached with
    | here => exact .inl ⟨rfl, rfl⟩
    | call reached => exact .inr ⟨_, _, rfl, reached⟩
  · rintro (⟨rfl, rfl⟩ | ⟨answer, later, rfl, reached⟩)
    · exact .here _
    · exact .call reached

end Program

/-- A running program and the events it has seen, oldest first. -/
structure Thread (I : Interface) (α : Type) where
  history : List (Event I)
  program : Program I α

/-- The threads and the state they share. -/
structure Pool (I : Interface) (ι α σ : Type) where
  threads : ι → Thread I α
  shared : σ

namespace Pool

variable {I : Interface} {ι α σ : Type}

/-- Every thread about to start its program. -/
def initial (programs : ι → Program I α) (shared : σ) : Pool I ι α σ :=
  ⟨fun index => ⟨[], programs index⟩, shared⟩

variable [DecidableEq ι]

/-- Thread `index` makes its next call; a finished thread does nothing. -/
def step (machine : Machine I σ) (pool : Pool I ι α σ) (index : ι) : Pool I ι α σ :=
  match (pool.threads index).program with
  | .call request next =>
      let reply := machine request pool.shared
      { threads := Function.update pool.threads index
          ⟨(pool.threads index).history ++ [⟨request, reply.1⟩], next reply.1⟩
        shared := reply.2 }
  | _ => pool

/-- Follow a schedule from left to right. -/
def run (machine : Machine I σ) (pool : Pool I ι α σ) (schedule : List ι) : Pool I ι α σ :=
  schedule.foldl (step machine) pool

/-- Everything one scheduled step can do. -/
theorem step_cases (machine : Machine I σ) (pool : Pool I ι α σ) (index : ι) :
    step machine pool index = pool ∨
      ∃ request next, (pool.threads index).program = .call request next ∧
        step machine pool index =
          { threads := Function.update pool.threads index
              ⟨(pool.threads index).history ++ [⟨request, (machine request pool.shared).1⟩],
                next (machine request pool.shared).1⟩
            shared := (machine request pool.shared).2 } := by
  cases programEq : (pool.threads index).program with
  | done value => exact .inl (by simp only [step, programEq])
  | crash => exact .inl (by simp only [step, programEq])
  | call request next => exact .inr ⟨request, next, rfl, by simp only [step, programEq]⟩

/-- What holds initially and survives every step holds after every schedule. -/
theorem run_induction {machine : Machine I σ} (invariant : Pool I ι α σ → Prop)
    (preserved : ∀ pool index, invariant pool → invariant (step machine pool index))
    {pool : Pool I ι α σ} (start : invariant pool) (schedule : List ι) :
    invariant (run machine pool schedule) := by
  induction schedule generalizing pool with
  | nil => exact start
  | cons index schedule ih => exact ih (preserved pool index start)

/-- Every thread's history is a path of its own program. -/
theorem reaches_run (machine : Machine I σ) (programs : ι → Program I α) (shared : σ)
    (schedule : List ι) (index : ι) :
    (programs index).Reaches
      ((run machine (initial programs shared) schedule).threads index).history
      ((run machine (initial programs shared) schedule).threads index).program := by
  apply run_induction (fun pool => ∀ index, (programs index).Reaches
    (pool.threads index).history (pool.threads index).program) _ (fun _ => .here _)
  intro pool moved paths other
  obtain stuck | ⟨request, next, programEq, stepped⟩ := step_cases machine pool moved
  · rw [stuck]
    exact paths other
  · rw [stepped]
    by_cases same : other = moved
    · subst other
      simp only [Function.update_self]
      exact (programEq ▸ paths moved).snoc _
    · simp only [Function.update_of_ne same]
      exact paths other

variable [Fintype ι]

/-- If every call adds its own weight to a measure of the shared state, then
the measure is the sum of the weights of all the events all threads have
seen. -/
theorem measure_run {M : Type} [AddCommMonoid M] {machine : Machine I σ} (measure : σ → M)
    (weight : Event I → M)
    (adds : ∀ request state, measure (machine request state).2 =
      measure state + weight ⟨request, (machine request state).1⟩)
    (programs : ι → Program I α) (shared : σ) (schedule : List ι) :
    measure (run machine (initial programs shared) schedule).shared =
      measure shared + ∑ index, (((run machine (initial programs shared) schedule).threads
        index).history.map weight).sum := by
  apply run_induction (fun pool => measure pool.shared =
    measure shared + ∑ index, ((pool.threads index).history.map weight).sum) _
    (by simp [initial])
  intro pool moved total
  obtain stuck | ⟨request, next, programEq, stepped⟩ := step_cases machine pool moved
  · rw [stuck]
    exact total
  · rw [stepped]
    -- only the summand of the moved thread changes
    have others : ∀ index ∈ Finset.univ.erase moved,
        (((Function.update pool.threads moved
            ⟨(pool.threads moved).history ++ [⟨request, (machine request pool.shared).1⟩],
              next (machine request pool.shared).1⟩ index).history).map weight).sum =
          ((pool.threads index).history.map weight).sum := by
      intro index member
      rw [Function.update_of_ne (Finset.ne_of_mem_erase member)]
    simp only [adds, total]
    rw [← Finset.add_sum_erase _ _ (Finset.mem_univ moved),
      ← Finset.add_sum_erase _ _ (Finset.mem_univ moved), Finset.sum_congr rfl others]
    simp only [Function.update_self, List.map_append, List.map_cons, List.map_nil,
      List.sum_append, List.sum_cons, List.sum_nil, add_zero]
    ac_rfl

end Pool

end LtramBench.Interaction
