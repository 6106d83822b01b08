import LtramBench.Interaction.Program

/-!
# Programs in an environment that keeps a contract

A contract says which answers an environment may give, depending on what happened
before; what happened is kept in a ghost state.  `Under` is a postcondition of every
run in such an environment.  It is partial: nothing is said of runs that crash or of
programs that wait for an answer that never comes.  `Returns` is total: no run crashes,
and there is an answer to every call.
-/

namespace LtramBench.Interaction

/-- What an environment may answer, and what is remembered of an event. -/
structure Contract (I : Interface) (σ : Type) where
  start : σ
  allows : σ → (request : I.Call) → I.Answer request → Prop
  advance : σ → Event I → σ

namespace Contract

variable {I : Interface} {σ α β : Type}

/-- Every answer of a trace is allowed where it was given. -/
def Respects (contract : Contract I σ) : σ → List (Event I) → Prop
  | _, [] => True
  | ghost, event :: rest =>
      contract.allows ghost event.call event.answer ∧
        contract.Respects (contract.advance ghost event) rest

/-- Whatever allowed answers a program gets, it returns only what satisfies
`post`. -/
def Under (contract : Contract I σ) : Program I α → (α → σ → Prop) → σ → Prop
  | .done value, post, ghost => post value ghost
  | .crash, _, _ => True
  | .call request next, post, ghost =>
      ∀ answer, contract.allows ghost request answer →
        contract.Under (next answer) post (contract.advance ghost ⟨request, answer⟩)

variable {contract : Contract I σ} {post : α → σ → Prop} {ghost : σ}

theorem under_bind {program : Program I α} {next : α → Program I β} {last : β → σ → Prop}
    (first : contract.Under program
      (fun value after => contract.Under (next value) last after) ghost) :
    contract.Under (program >>= next) last ghost := by
  induction program generalizing ghost with
  | done value => exact first
  | crash => exact trivial
  | call request rest ih =>
      intro answer allowed
      exact ih answer (first answer allowed)

theorem under_call {request : I.Call} {next : I.Answer request → Program I α}
    (holds : ∀ answer, contract.allows ghost request answer →
      contract.Under (next answer) post (contract.advance ghost ⟨request, answer⟩)) :
    contract.Under (.call request next) post ghost :=
  holds

theorem under_ite {condition : Prop} [Decidable condition] {first second : Program I α}
    (holds : condition → contract.Under first post ghost)
    (fails : ¬condition → contract.Under second post ghost) :
    contract.Under (if condition then first else second) post ghost := by
  split
  · next held => exact holds held
  · next failed => exact fails failed

theorem Under.mono {program : Program I α} {weaker : α → σ → Prop}
    (holds : contract.Under program post ghost)
    (imp : ∀ value after, post value after → weaker value after) :
    contract.Under program weaker ghost := by
  induction program generalizing ghost with
  | done value => exact imp value ghost holds
  | crash => exact trivial
  | call request rest ih =>
      intro answer allowed
      exact ih answer (holds answer allowed)

/-- The rule of a counted loop: each round takes the invariant of its index to the
one of the next. -/
theorem under_forCount {body : Nat → β → Program I β} (invariant : Nat → β → σ → Prop)
    {count : Nat}
    (round : ∀ index value ghost, index < count → invariant index value ghost →
      contract.Under (body index value) (invariant (index + 1)) ghost)
    {start : β} (init : invariant 0 start ghost) :
    contract.Under (Program.forCount body 0 count start) (invariant count) ghost := by
  suffices rest : ∀ remaining index value ghost, index + remaining = count →
      invariant index value ghost →
        contract.Under (Program.forCount body index remaining value) (invariant count) ghost from
    rest count 0 start ghost (Nat.zero_add count) init
  intro remaining
  induction remaining with
  | zero =>
      rintro index value ghost rfl holds
      exact holds
  | succ remaining ih =>
      intro index value ghost total holds
      rw [Program.forCount_succ]
      refine under_bind ((round index value ghost (by omega) holds).mono ?_)
      intro value after next
      exact ih (index + 1) value after (by omega) next

/-- What `Under` says of a run. -/
theorem Under.runs {program : Program I α} (holds : contract.Under program post ghost)
    {trace : List (Event I)} {value : α} (run : program.Runs trace (some value))
    (respects : contract.Respects ghost trace) :
    post value (trace.foldl contract.advance ghost) := by
  induction program generalizing ghost trace with
  | done result =>
      cases run
      exact holds
  | crash => cases run
  | call request rest ih =>
      cases run with
      | call later => exact ih _ (holds _ respects.1) later respects.2

/-- A contract that allows less, seen through a part of its ghost state. -/
theorem Under.comap {τ : Type} {other : Contract I τ} {program : Program I α} (view : τ → σ)
    {ghost : τ} (holds : contract.Under program post (view ghost))
    (allows : ∀ ghost request answer, other.allows ghost request answer →
      contract.allows (view ghost) request answer)
    (advance : ∀ ghost event, view (other.advance ghost event) = contract.advance (view ghost) event) :
    other.Under program (fun value after => post value (view after)) ghost := by
  induction program generalizing ghost with
  | done value => exact holds
  | crash => exact trivial
  | call request rest ih =>
      intro answer allowed
      refine ih answer ?_
      rw [advance]
      exact holds answer (allows _ _ _ allowed)

/-! ## Programs that return -/

/-- Whatever allowed answers a program gets, it does not crash, there is always an
answer that is allowed, and it returns only what satisfies `post`. -/
def Returns (contract : Contract I σ) : Program I α → (α → σ → Prop) → σ → Prop
  | .done value, post, ghost => post value ghost
  | .crash, _, _ => False
  | .call request next, post, ghost =>
      (∃ answer, contract.allows ghost request answer) ∧
        ∀ answer, contract.allows ghost request answer →
          contract.Returns (next answer) post (contract.advance ghost ⟨request, answer⟩)

theorem returns_bind {program : Program I α} {next : α → Program I β} {last : β → σ → Prop}
    (first : contract.Returns program
      (fun value after => contract.Returns (next value) last after) ghost) :
    contract.Returns (program >>= next) last ghost := by
  induction program generalizing ghost with
  | done value => exact first
  | crash => exact first.elim
  | call request rest ih =>
      exact ⟨first.1, fun answer allowed => ih answer (first.2 answer allowed)⟩

theorem returns_call {request : I.Call} {next : I.Answer request → Program I α}
    (some : ∃ answer, contract.allows ghost request answer)
    (holds : ∀ answer, contract.allows ghost request answer →
      contract.Returns (next answer) post (contract.advance ghost ⟨request, answer⟩)) :
    contract.Returns (.call request next) post ghost :=
  ⟨some, holds⟩

theorem returns_ite {condition : Prop} [Decidable condition] {first second : Program I α}
    (holds : condition → contract.Returns first post ghost)
    (fails : ¬condition → contract.Returns second post ghost) :
    contract.Returns (if condition then first else second) post ghost := by
  split
  · next held => exact holds held
  · next failed => exact fails failed

theorem Returns.mono {program : Program I α} {weaker : α → σ → Prop}
    (holds : contract.Returns program post ghost)
    (imp : ∀ value after, post value after → weaker value after) :
    contract.Returns program weaker ghost := by
  induction program generalizing ghost with
  | done value => exact imp value ghost holds
  | crash => exact holds.elim
  | call request rest ih =>
      exact ⟨holds.1, fun answer allowed => ih answer (holds.2 answer allowed)⟩

/-- What holds of every run holds of the runs that are known to return. -/
theorem Returns.and_under {program : Program I α} {always : α → σ → Prop}
    (holds : contract.Returns program post ghost) (under : contract.Under program always ghost) :
    contract.Returns program (fun value after => post value after ∧ always value after) ghost := by
  induction program generalizing ghost with
  | done value => exact ⟨holds, under⟩
  | crash => exact holds.elim
  | call request rest ih =>
      exact ⟨holds.1, fun answer allowed => ih answer (holds.2 answer allowed)
        (under answer allowed)⟩

/-- A counted loop returns when its rounds do. -/
theorem returns_forCount {body : Nat → β → Program I β} {invariant : σ → Prop}
    (round : ∀ index value ghost, invariant ghost →
      contract.Returns (body index value) (fun _ after => invariant after) ghost)
    (index count : Nat) (start : β) (init : invariant ghost) :
    contract.Returns (Program.forCount body index count start) (fun _ after => invariant after)
      ghost := by
  induction count generalizing index start ghost with
  | zero => exact init
  | succ count ih =>
      rw [Program.forCount_succ]
      refine returns_bind ((round index start ghost init).mono ?_)
      intro value after kept
      exact ih (index + 1) value kept

end Contract

end LtramBench.Interaction
