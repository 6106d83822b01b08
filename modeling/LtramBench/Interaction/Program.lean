import Mathlib.Data.List.Induction

/-!
# Programs that call their environment

A program over an interface is a finite tree: it returns a value, crashes, or
makes a call and continues with whatever answer the environment gives.  Nothing
is assumed about the environment, so a statement about every trace of a program
is a statement about every environment, however adaptively it answers.

`Runs` is the trace semantics.  `Machine.run` executes a program against one
stateful environment and is an instance of it.
-/

namespace LtramBench.Interaction

/-- The calls a program can make, with the type of the answer to each. -/
structure Interface where
  Call : Type
  Answer : Call → Type

/-- A call together with the answer it received. -/
structure Event (I : Interface) where
  call : I.Call
  answer : I.Answer call

/-- A program returning an `α` that talks to its environment through `I`. -/
inductive Program (I : Interface) (α : Type) where
  | done (value : α)
  | crash
  | call (request : I.Call) (next : I.Answer request → Program I α)

namespace Program

variable {I : Interface} {α β γ : Type}

/-- Sequential composition; a crash stops the whole program. -/
def bind : Program I α → (α → Program I β) → Program I β
  | done value, next => next value
  | crash, _ => crash
  | call request rest, next => call request fun answer => (rest answer).bind next

instance : Monad (Program I) where
  pure := done
  bind := bind

theorem bind_assoc (program : Program I α) (next : α → Program I β) (last : β → Program I γ) :
    program >>= next >>= last = program >>= fun value => next value >>= last := by
  induction program with
  | done value => rfl
  | crash => rfl
  | call request rest ih => exact congrArg (call request) (funext ih)

/-- Make one call and return its answer. -/
def perform (request : I.Call) : Program I (I.Answer request) :=
  call request done

@[simp]
theorem pure_eq_done (value : α) : (pure value : Program I α) = done value :=
  rfl

@[simp]
theorem done_bind (value : α) (next : α → Program I β) :
    (done value : Program I α) >>= next = next value :=
  rfl

@[simp]
theorem crash_bind (next : α → Program I β) :
    (crash : Program I α) >>= next = crash :=
  rfl

@[simp]
theorem call_bind (request : I.Call) (rest : I.Answer request → Program I α)
    (next : α → Program I β) :
    call request rest >>= next = call request fun answer => rest answer >>= next :=
  rfl

/-- Run `body index` for `count` consecutive indices, threading an
accumulator: the shape of a counted `for` loop. -/
def forCount (body : Nat → β → Program I β) : (index count : Nat) → β → Program I β
  | _, 0, state => done state
  | index, count + 1, state => do
      let next ← body index state
      forCount body (index + 1) count next

@[simp]
theorem forCount_zero (body : Nat → β → Program I β) (index : Nat) (state : β) :
    forCount body index 0 state = done state :=
  rfl

theorem forCount_succ (body : Nat → β → Program I β) (index count : Nat) (state : β) :
    forCount body index (count + 1) state =
      body index state >>= forCount body (index + 1) count :=
  rfl

/-- A loop is its first rounds and then the others. -/
theorem forCount_add (body : Nat → β → Program I β) (index first second : Nat) (state : β) :
    forCount body index (first + second) state =
      forCount body index first state >>= forCount body (index + first) second := by
  induction first generalizing index state with
  | zero => rw [Nat.zero_add, forCount_zero, done_bind, Nat.add_zero]
  | succ first ih =>
      rw [Nat.succ_add, forCount_succ, forCount_succ, bind_assoc]
      refine congrArg (body index state >>= ·) (funext fun next => ?_)
      rw [ih, Nat.add_right_comm index 1 first, Nat.add_assoc index first 1]

/-! ## Traces -/

/-- `Runs program trace result` holds when some sequence of answers drives the
program through `trace` to `result`; a crash has the result `none`. -/
inductive Runs : Program I α → List (Event I) → Option α → Prop
  | done (value : α) : Runs (done value) [] (some value)
  | crash : Runs crash [] none
  | call {request : I.Call} {next : I.Answer request → Program I α}
      {answer : I.Answer request} {trace : List (Event I)} {result : Option α} :
      Runs (next answer) trace result →
      Runs (call request next) (⟨request, answer⟩ :: trace) result

@[simp]
theorem runs_done_iff (value : α) (trace : List (Event I)) (result : Option α) :
    Runs (done value) trace result ↔ trace = [] ∧ result = some value := by
  constructor
  · intro run
    cases run
    exact ⟨rfl, rfl⟩
  · rintro ⟨rfl, rfl⟩
    exact .done value

@[simp]
theorem runs_crash_iff (trace : List (Event I)) (result : Option α) :
    Runs (crash : Program I α) trace result ↔ trace = [] ∧ result = none := by
  constructor
  · intro run
    cases run
    exact ⟨rfl, rfl⟩
  · rintro ⟨rfl, rfl⟩
    exact .crash

@[simp]
theorem runs_call_iff (request : I.Call) (next : I.Answer request → Program I α)
    (trace : List (Event I)) (result : Option α) :
    Runs (call request next) trace result ↔
      ∃ answer rest, trace = ⟨request, answer⟩ :: rest ∧ Runs (next answer) rest result := by
  constructor
  · intro run
    cases run with
    | call rest => exact ⟨_, _, rfl, rest⟩
  · rintro ⟨answer, rest, rfl, run⟩
    exact .call run

/-- A completed run of a composition splits into a completed run of each
part. -/
theorem runs_bind_some_iff (program : Program I α) (next : α → Program I β)
    (trace : List (Event I)) (value : β) :
    Runs (program >>= next) trace (some value) ↔
      ∃ first middle second, trace = first ++ second ∧
        Runs program first (some middle) ∧ Runs (next middle) second (some value) := by
  induction program generalizing trace with
  | done start =>
      constructor
      · intro run
        exact ⟨[], start, trace, rfl, .done start, run⟩
      · rintro ⟨first, middle, second, rfl, start_run, run⟩
        cases start_run
        exact run
  | crash => simp
  | call request rest ih =>
      simp only [call_bind, runs_call_iff]
      constructor
      · rintro ⟨answer, tail, rfl, run⟩
        obtain ⟨first, middle, second, rfl, head, last⟩ := (ih answer tail).mp run
        exact ⟨⟨request, answer⟩ :: first, middle, second, rfl, ⟨answer, first, rfl, head⟩, last⟩
      · rintro ⟨_, middle, second, rfl, ⟨answer, first, rfl, head⟩, last⟩
        exact ⟨answer, first ++ second, rfl,
          (ih answer _).mpr ⟨first, middle, second, rfl, head, last⟩⟩

end Program

/-! ## Stateful environments -/

/-- A deterministic environment with a hidden state: it answers every call and
moves on. -/
abbrev Machine (I : Interface) (σ : Type) :=
  (request : I.Call) → σ → I.Answer request × σ

/-- What one execution leaves behind; the result is `none` after a crash. -/
structure Outcome (I : Interface) (σ α : Type) where
  result : Option α
  trace : List (Event I)
  final : σ

namespace Machine

variable {I : Interface} {σ α β : Type}

/-- Execute a program against a machine. -/
def run (machine : Machine I σ) : Program I α → σ → Outcome I σ α
  | .done value, state => ⟨some value, [], state⟩
  | .crash, state => ⟨none, [], state⟩
  | .call request next, state =>
      let reply := machine request state
      let rest := run machine (next reply.1) reply.2
      ⟨rest.result, ⟨request, reply.1⟩ :: rest.trace, rest.final⟩

variable (machine : Machine I σ)

@[simp]
theorem run_done (value : α) (state : σ) :
    run machine (.done value) state = ⟨some value, [], state⟩ :=
  rfl

@[simp]
theorem run_call (request : I.Call) (next : I.Answer request → Program I α) (state : σ) :
    run machine (.call request next) state =
      { result := (run machine (next (machine request state).1) (machine request state).2).result
        trace := ⟨request, (machine request state).1⟩ ::
          (run machine (next (machine request state).1) (machine request state).2).trace
        final := (run machine (next (machine request state).1) (machine request state).2).final } :=
  rfl

/-- Executing a machine produces one of the program's traces. -/
theorem run_runs (program : Program I α) (state : σ) :
    program.Runs (run machine program state).trace (run machine program state).result := by
  induction program generalizing state with
  | done value => exact .done value
  | crash => exact .crash
  | call request next ih => exact .call (ih _ _)

/-- The trace of a composition starts with that of its first part. -/
theorem trace_prefix_bind (program : Program I α) (next : α → Program I β) (state : σ) :
    (run machine program state).trace <+: (run machine (program >>= next) state).trace := by
  induction program generalizing state with
  | done value => exact List.nil_prefix
  | crash => exact List.nil_prefix
  | call request rest ih => exact (List.cons_prefix_cons).mpr ⟨rfl, ih _ _⟩

end Machine

/-! ## Safety along a run -/

/-- If a safe state stays safe exactly under the allowed actions, then every
state a run visits is safe exactly when every action of the run was allowed
where it was taken. -/
theorem forall_prefix_safe_iff {σ ε : Type} {step : σ → ε → σ} {safe : σ → Prop}
    {allowed : σ → ε → Prop}
    (exact_step : ∀ state action, safe state → (safe (step state action) ↔ allowed state action))
    {start : σ} (start_safe : safe start) (actions : List ε) :
    (∀ visited, visited <+: actions → safe (visited.foldl step start)) ↔
      ∀ visited action, visited ++ [action] <+: actions →
        allowed (visited.foldl step start) action := by
  constructor
  · intro all_safe visited action taken
    have before := all_safe visited ((List.prefix_append visited [action]).trans taken)
    have after := all_safe (visited ++ [action]) taken
    rw [List.foldl_append] at after
    exact (exact_step _ action before).mp after
  · intro all_allowed visited
    induction visited using List.reverseRecOn with
    | nil => exact fun _ => start_safe
    | append_singleton visited action ih =>
        intro taken
        have before := ih ((List.prefix_append visited [action]).trans taken)
        rw [List.foldl_append]
        exact (exact_step _ action before).mpr (all_allowed visited action taken)

end LtramBench.Interaction
