import LtramBench.Interaction.Simulation
import LtramBench.Streaming.Parser

/-!
# Reading values from a stream

What a client of an incremental parser sees: it hands over pieces of the input and
asks for values, in any order.  The plain reader below keeps the input that is not
used yet and runs the parser from its start at every request.  A failure stays.
-/

namespace LtramBench.Streaming

open LtramBench.Interaction

section Plain

variable {ε β α : Type}

/-- The calls of a client. -/
inductive Request (β : Type) where
  | feed (chunk : List β)
  | next

/-- A piece is taken or not; a request for a value gets one, gets none yet, or
gets the failure. -/
abbrev Request.Answer (ε α : Type) {β : Type} : Request β → Type
  | feed _ => Bool
  | next => Except ε (Option α)

/-- The interface of an incremental reader. -/
abbrev readerInterface (ε β α : Type) : Interface := ⟨Request β, Request.Answer ε α⟩

/-- The plain reader. -/
def plainReader (parser : Parser ε β α) : Machine (readerInterface ε β α) (Except ε (List β))
  | .feed chunk, .ok text => (true, .ok (text ++ chunk))
  | .feed _, .error error => (false, .error error)
  | .next, .error error => (.error error, .error error)
  | .next, .ok text =>
      match parser text with
      | .more => (.ok none, .ok text)
      | .failed error => (.error error, .error error)
      | .done value rest => (.ok (some value), .ok rest)

/-- A client whose requests do not depend on the answers. -/
def script : List (Request β) → Program (readerInterface ε β α) Unit
  | [] => .done ()
  | request :: rest => .call request fun _ => script rest

/-- What an event hands over. -/
def taken : Event (readerInterface ε β α) → List β
  | ⟨.feed chunk, true⟩ => chunk
  | ⟨.feed _, false⟩ => []
  | ⟨.next, _⟩ => []

/-- The value that an event gives. -/
def given : Event (readerInterface ε β α) → Option α
  | ⟨.next, .ok value⟩ => value
  | ⟨.next, .error _⟩ => none
  | ⟨.feed _, _⟩ => none

/-- The input that was taken in a run. -/
def fed (trace : List (Event (readerInterface ε β α))) : List β :=
  trace.flatMap taken

/-- The values that were given in a run. -/
def values (trace : List (Event (readerInterface ε β α))) : List α :=
  trace.filterMap given

/-! ## Any pieces, any requests -/

variable {parser : Parser ε β α}

/-- What was given and what is left make up the meaning of the whole input. -/
def Accounts (parser : Parser ε β α) (input : List β) (gave : List α) :
    Except ε (List β) → Prop
  | .ok rest => decode parser input = (gave ++ (decode parser rest).1, (decode parser rest).2)
  | .error error => decode parser input = (gave, .failed error)

/-- A value in front. -/
theorem Accounts.cons (consumes : Consumes parser) {input rest : List β} {value : α}
    (found : parser input = .done value rest) {gave : List α} {final : Except ε (List β)}
    (accounts : Accounts parser rest gave final) :
    Accounts parser input (value :: gave) final := by
  cases final with
  | ok left =>
      simp only [Accounts] at accounts ⊢
      rw [decode_of_done consumes found, accounts]
      rfl
  | error error =>
      simp only [Accounts] at accounts ⊢
      rw [decode_of_done consumes found, accounts]

variable (parser) in
/-- A reader that failed takes and gives nothing. -/
theorem plainReader_run_error {γ : Type} (program : Program (readerInterface ε β α) γ)
    (error : ε) :
    fed ((plainReader parser).run program (.error error)).trace = [] ∧
      values ((plainReader parser).run program (.error error)).trace = [] ∧
      ((plainReader parser).run program (.error error)).final = .error error := by
  induction program with
  | done value => exact ⟨rfl, rfl, rfl⟩
  | crash => exact ⟨rfl, rfl, rfl⟩
  | call request next ih =>
      cases request with
      | feed chunk => exact ih false
      | next => exact ih (.error error)

/-- However the input is cut and whenever values are asked for, the values given
are the ones at the front of the whole input. -/
theorem plainReader_accounts (stable : Stable parser) (consumes : Consumes parser) {γ : Type}
    (program : Program (readerInterface ε β α) γ) (text : List β) :
    Accounts parser (text ++ fed ((plainReader parser).run program (.ok text)).trace)
      (values ((plainReader parser).run program (.ok text)).trace)
      ((plainReader parser).run program (.ok text)).final := by
  induction program generalizing text with
  | done value => simp [Machine.run, Accounts, fed, values]
  | crash => simp [Machine.run, Accounts, fed, values]
  | call request next ih =>
      cases request with
      | feed chunk =>
          have rest := ih true (text ++ chunk)
          rw [List.append_assoc] at rest
          exact rest
      | next =>
          cases found : parser text with
          | more =>
              have step : plainReader parser .next (.ok text) = (.ok none, .ok text) := by
                simp only [plainReader, found]
              rw [Machine.run_call, step]
              exact ih (.ok none) text
          | failed error =>
              have step : plainReader parser .next (.ok text) = (.error error, .error error) := by
                simp only [plainReader, found]
              obtain ⟨noneFed, noneGiven, final⟩ :=
                plainReader_run_error parser (next (.error error)) error
              have last : Accounts parser (text ++ fed ((plainReader parser).run
                  (next (.error error)) (.error error)).trace)
                  (values ((plainReader parser).run (next (.error error)) (.error error)).trace)
                  ((plainReader parser).run (next (.error error)) (.error error)).final := by
                rw [noneFed, List.append_nil, noneGiven, final]
                exact decode_of_failed found
              rw [Machine.run_call, step]
              exact last
          | done value rest =>
              have step : plainReader parser .next (.ok text) = (.ok (some value), .ok rest) := by
                simp only [plainReader, found]
              rw [Machine.run_call, step]
              exact (ih (.ok (some value)) rest).cons consumes (stable.done found _)

/-- The last request of a run was for a value, and there was none yet. -/
def Drained (trace : List (Event (readerInterface ε β α))) : Prop :=
  ∃ before, trace = before ++ [⟨.next, .ok none⟩]

theorem plainReader_drained {γ : Type} {program : Program (readerInterface ε β α) γ}
    {text : List β} (drained : Drained ((plainReader parser).run program (.ok text)).trace) :
    ∃ rest, ((plainReader parser).run program (.ok text)).final = .ok rest ∧
      parser rest = .more := by
  obtain ⟨before, ends⟩ := drained
  obtain ⟨last, step⟩ := Machine.run_last ends
  cases last with
  | error error => cases step
  | ok rest =>
      simp only [plainReader] at step
      cases found : parser rest with
      | more =>
          rw [found] at step
          exact ⟨rest, (congrArg Prod.snd step).symm, found⟩
      | failed error =>
          rw [found] at step
          cases step
      | done value left =>
          rw [found] at step
          cases step

/-- A reported failure stays. -/
theorem plainReader_failed {γ : Type} {program : Program (readerInterface ε β α) γ}
    {start : Except ε (List β)} {error : ε}
    (failed : ⟨.next, .error error⟩ ∈ ((plainReader parser).run program start).trace) :
    ((plainReader parser).run program start).final = .error error := by
  induction program generalizing start with
  | done value => cases failed
  | crash => cases failed
  | call request next ih =>
      rw [Machine.run_call] at failed ⊢
      rcases List.mem_cons.mp failed with head | later
      · cases request with
        | feed chunk => cases head
        | next =>
            have answer : (plainReader parser .next start).1 = .error error := by
              simp only [Event.mk.injEq, heq_eq_eq, true_and] at head
              exact head.symm
            have after : (plainReader parser .next start).2 = .error error := by
              cases start with
              | error other =>
                  cases answer
                  rfl
              | ok text =>
                  simp only [plainReader] at answer ⊢
                  cases found : parser text with
                  | more =>
                      rw [found] at answer
                      cases answer
                  | done value rest =>
                      rw [found] at answer
                      cases answer
                  | failed other =>
                      rw [found] at answer
                      cases answer
                      rfl
            have stays := plainReader_run_error parser
              (next (plainReader parser .next start).1) error
            rw [← after] at stays
            rw [stays.2.2, after]
      · exact ih _ later

/-- What a client of the plain reader gets: values from the front of what it fed,
all of them once it is told that there are no more, and before a failure exactly
the ones in front of it. -/
theorem plainReader_gives (stable : Stable parser) (consumes : Consumes parser) {γ : Type}
    (program : Program (readerInterface ε β α) γ) {trace : List (Event (readerInterface ε β α))}
    (ran : ((plainReader parser).run program (.ok [])).trace = trace) :
    values trace <+: (decode parser (fed trace)).1 ∧
      (Drained trace → ∃ rest, decode parser (fed trace) = (values trace, .pending rest)) ∧
      ∀ error, ⟨.next, .error error⟩ ∈ trace →
        decode parser (fed trace) = (values trace, .failed error) := by
  subst ran
  have accounts := plainReader_accounts stable consumes program []
  rw [List.nil_append] at accounts
  refine ⟨?_, fun drained => ?_, fun error failed => ?_⟩
  · cases final : ((plainReader parser).run program (.ok [])).final with
    | ok rest =>
        rw [final, Accounts] at accounts
        rw [accounts]
        exact List.prefix_append _ _
    | error error =>
        rw [final, Accounts] at accounts
        have all := congrArg Prod.fst accounts
        exact all ▸ List.prefix_refl _
  · obtain ⟨rest, final, more⟩ := plainReader_drained drained
    rw [final, Accounts, decode_of_more more, List.append_nil] at accounts
    exact ⟨rest, accounts⟩
  · rw [plainReader_failed failed, Accounts] at accounts
    exact accounts

end Plain

end LtramBench.Streaming
