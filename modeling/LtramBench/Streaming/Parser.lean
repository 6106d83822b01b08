import Mathlib.Data.List.Basic

/-!
# Parsers of an input that is still arriving

A parser sees the input so far.  It may succeed and leave the rest, fail, or ask
for more.  It is stable when more input cannot change an answer once it is given,
and then the values at the front of a stream do not depend on how the stream was
cut into pieces.
-/

namespace LtramBench.Streaming

/-- What a parser says about an input. -/
inductive Parsed (ε β α : Type) where
  | more
  | failed (error : ε)
  | done (value : α) (rest : List β)
  deriving DecidableEq

abbrev Parser (ε β α : Type) := List β → Parsed ε β α

section Combinators

variable {ε β α γ δ : Type}

/-- Continue with what an answer left. -/
def Parsed.andThen : Parsed ε β α → (α → Parser ε β γ) → Parsed ε β γ
  | more, _ => more
  | failed error, _ => failed error
  | done value rest, next => next value rest

@[simp]
theorem andThen_more (next : α → Parser ε β γ) : (.more : Parsed ε β α).andThen next = .more :=
  rfl

@[simp]
theorem andThen_failed (error : ε) (next : α → Parser ε β γ) :
    (.failed error : Parsed ε β α).andThen next = .failed error :=
  rfl

@[simp]
theorem andThen_done (value : α) (rest : List β) (next : α → Parser ε β γ) :
    (.done value rest : Parsed ε β α).andThen next = next value rest :=
  rfl

theorem andThen_eq_done_iff {parsed : Parsed ε β α} {next : α → Parser ε β γ} {value : γ}
    {rest : List β} :
    parsed.andThen next = .done value rest ↔
      ∃ middle left, parsed = .done middle left ∧ next middle left = .done value rest := by
  cases parsed <;> simp

theorem andThen_eq_failed_iff {parsed : Parsed ε β α} {next : α → Parser ε β γ} {error : ε} :
    parsed.andThen next = .failed error ↔
      parsed = .failed error ∨
        ∃ middle left, parsed = .done middle left ∧ next middle left = .failed error := by
  cases parsed <;> simp

theorem andThen_assoc (parsed : Parsed ε β α) (next : α → Parser ε β γ)
    (last : γ → Parser ε β δ) :
    (parsed.andThen next).andThen last =
      parsed.andThen fun value rest => (next value rest).andThen last := by
  cases parsed <;> rfl

/-- The same parser a number of times. -/
def times (parser : Parser ε β α) : Nat → Parser ε β (List α)
  | 0, input => .done [] input
  | count + 1, input =>
      (parser input).andThen fun value rest =>
        (times parser count rest).andThen fun values rest => .done (value :: values) rest

@[simp]
theorem times_zero (parser : Parser ε β α) (input : List β) :
    times parser 0 input = .done [] input :=
  rfl

theorem times_succ (parser : Parser ε β α) (count : Nat) (input : List β) :
    times parser (count + 1) input =
      (parser input).andThen fun value rest =>
        (times parser count rest).andThen fun values rest => .done (value :: values) rest :=
  rfl

/-! ## Stability -/

/-- More input changes no answer. -/
structure Stable (parser : Parser ε β α) : Prop where
  done : ∀ {input value rest}, parser input = .done value rest →
    ∀ later, parser (input ++ later) = .done value (rest ++ later)
  failed : ∀ {input error}, parser input = .failed error →
    ∀ later, parser (input ++ later) = .failed error

theorem stable_done (value : α) : Stable (fun input => (.done value input : Parsed ε β α)) where
  done same later := by
    cases same
    rfl
  failed same := nomatch same

theorem stable_failed (error : ε) : Stable (fun _ => (.failed error : Parsed ε β α)) where
  done same := nomatch same
  failed same _ := same

theorem Stable.andThen {parser : Parser ε β α} {next : α → Parser ε β γ} (stable : Stable parser)
    (nextStable : ∀ value, Stable (next value)) :
    Stable fun input => (parser input).andThen next where
  done {input value rest} found later := by
    obtain ⟨middle, left, first, second⟩ := andThen_eq_done_iff.mp found
    rw [stable.done first later]
    exact (nextStable middle).done second later
  failed {input error} found later := by
    rcases andThen_eq_failed_iff.mp found with first | ⟨middle, left, first, second⟩
    · rw [stable.failed first later]
      rfl
    · rw [stable.done first later]
      exact (nextStable middle).failed second later

theorem Stable.times {parser : Parser ε β α} (stable : Stable parser) (count : Nat) :
    Stable (times parser count) := by
  induction count with
  | zero => exact stable_done []
  | succ count ih =>
      exact stable.andThen fun value => ih.andThen fun values => stable_done (value :: values)

/-! ## Progress -/

/-- Every value takes up some of the input. -/
def Consumes (parser : Parser ε β α) : Prop :=
  ∀ ⦃input value rest⦄, parser input = .done value rest → rest.length < input.length

/-- A parser that never gives input back. -/
def Shrinks (parser : Parser ε β α) : Prop :=
  ∀ ⦃input value rest⦄, parser input = .done value rest → rest.length ≤ input.length

theorem Consumes.shrinks {parser : Parser ε β α} (consumes : Consumes parser) :
    Shrinks parser := by
  intro input value rest found
  exact Nat.le_of_lt (consumes found)

theorem Consumes.andThen {parser : Parser ε β α} {next : α → Parser ε β γ}
    (consumes : Consumes parser) (shrinks : ∀ value, Shrinks (next value)) :
    Consumes fun input => (parser input).andThen next := by
  intro input value rest found
  obtain ⟨middle, left, first, second⟩ := andThen_eq_done_iff.mp found
  exact Nat.lt_of_le_of_lt (shrinks middle second) (consumes first)

theorem Shrinks.andThen {parser : Parser ε β α} {next : α → Parser ε β γ}
    (shrinks : Shrinks parser) (nextShrinks : ∀ value, Shrinks (next value)) :
    Shrinks fun input => (parser input).andThen next := by
  intro input value rest found
  obtain ⟨middle, left, first, second⟩ := andThen_eq_done_iff.mp found
  exact Nat.le_trans (nextShrinks middle second) (shrinks first)

theorem Shrinks.times {parser : Parser ε β α} (shrinks : Shrinks parser) (count : Nat) :
    Shrinks (times parser count) := by
  induction count with
  | zero =>
      intro input values rest found
      cases found
      exact Nat.le_refl _
  | succ count ih =>
      intro input values rest found
      rw [times_succ] at found
      obtain ⟨value, left, first, others⟩ := andThen_eq_done_iff.mp found
      obtain ⟨values, last, second, same⟩ := andThen_eq_done_iff.mp others
      cases same
      exact Nat.le_trans (ih second) (shrinks first)

end Combinators

/-! ## A whole stream -/

section Decode

variable {ε β α : Type}

/-- How a stream ends: with an unfinished value, or with a failure. -/
inductive Ending (ε β : Type) where
  | pending (rest : List β)
  | failed (error : ε)
  deriving DecidableEq

/-- The values at the front of a stream and what comes after them. -/
def decodeUpTo (parser : Parser ε β α) : Nat → List β → List α × Ending ε β
  | 0, input => ([], .pending input)
  | fuel + 1, input =>
      match parser input with
      | .more => ([], .pending input)
      | .failed error => ([], .failed error)
      | .done value rest =>
          (value :: (decodeUpTo parser fuel rest).1, (decodeUpTo parser fuel rest).2)

/-- No stream has more values than characters. -/
def decode (parser : Parser ε β α) (input : List β) : List α × Ending ε β :=
  decodeUpTo parser (input.length + 1) input

variable {parser : Parser ε β α}

theorem decodeUpTo_eq_of_lt (consumes : Consumes parser) {input : List β} {fuel other : Nat}
    (enough : input.length < fuel) (otherEnough : input.length < other) :
    decodeUpTo parser fuel input = decodeUpTo parser other input := by
  induction fuel generalizing input other with
  | zero => exact absurd enough (Nat.not_lt_zero _)
  | succ fuel ih =>
      cases other with
      | zero => exact absurd otherEnough (Nat.not_lt_zero _)
      | succ other =>
          cases found : parser input with
          | more => simp only [decodeUpTo, found]
          | failed error => simp only [decodeUpTo, found]
          | done value rest =>
              have shorter := consumes found
              have same := ih (Nat.lt_of_lt_of_le shorter (Nat.le_of_lt_succ enough))
                (Nat.lt_of_lt_of_le shorter (Nat.le_of_lt_succ otherEnough))
              simp only [decodeUpTo, found, same]

theorem decode_of_more {input : List β} (found : parser input = .more) :
    decode parser input = ([], .pending input) := by
  simp only [decode, decodeUpTo, found]

theorem decode_of_failed {input : List β} {error : ε} (found : parser input = .failed error) :
    decode parser input = ([], .failed error) := by
  simp only [decode, decodeUpTo, found]

theorem decode_of_done (consumes : Consumes parser) {input rest : List β} {value : α}
    (found : parser input = .done value rest) :
    decode parser input = (value :: (decode parser rest).1, (decode parser rest).2) := by
  have same : decodeUpTo parser input.length rest = decode parser rest :=
    decodeUpTo_eq_of_lt consumes (consumes found) (Nat.lt_succ_self _)
  rw [← same]
  simp only [decode, decodeUpTo, found]

/-- Where a stream is cut does not matter: its second part continues what the
first left pending. -/
theorem decode_append (stable : Stable parser) (consumes : Consumes parser)
    (first second : List β) :
    decode parser (first ++ second) =
      match (decode parser first).2 with
      | .failed error => ((decode parser first).1, .failed error)
      | .pending rest =>
          ((decode parser first).1 ++ (decode parser (rest ++ second)).1,
            (decode parser (rest ++ second)).2) := by
  induction size : first.length using Nat.strongRecOn generalizing first with
  | _ bound ih =>
      cases found : parser first with
      | more =>
          rw [decode_of_more found]
          rfl
      | failed error =>
          rw [decode_of_failed found, decode_of_failed (stable.failed found second)]
      | done value rest =>
          rw [decode_of_done consumes found, decode_of_done consumes (stable.done found second),
            ih rest.length (size ▸ consumes found) rest rfl]
          cases (decode parser rest).2 <;> rfl

/-- The front of a stream gives some of its values, and its failure is that of the
whole. -/
theorem decode_prefix (stable : Stable parser) (consumes : Consumes parser)
    {front whole : List β} (inFront : front <+: whole) :
    (decode parser front).1 <+: (decode parser whole).1 ∧
      ∀ values error, decode parser front = (values, .failed error) →
        decode parser whole = (values, .failed error) := by
  obtain ⟨later, rfl⟩ := inFront
  have whole := decode_append stable consumes front later
  cases ending : (decode parser front).2 with
  | failed error =>
      rw [ending] at whole
      rw [whole]
      refine ⟨List.prefix_refl _, fun values other failed => ?_⟩
      rw [failed] at ending ⊢
      rw [← ending]
  | pending left =>
      rw [ending] at whole
      rw [whole]
      refine ⟨List.prefix_append _ _, fun values other failed => ?_⟩
      rw [failed] at ending
      cases ending

/-- The front of a stream that does not fail gives some of its values. -/
theorem decode_front (stable : Stable parser) (consumes : Consumes parser)
    {front whole rest : List β} {values : List α} (inFront : front <+: whole)
    (decoded : decode parser whole = (values, .pending rest)) :
    ∃ some left, some <+: values ∧ decode parser front = (some, .pending left) := by
  obtain ⟨fewer, fails⟩ := decode_prefix stable consumes inFront
  rw [decoded] at fewer
  cases ending : (decode parser front).2 with
  | failed error =>
      have whole := fails _ error (Prod.ext rfl ending)
      rw [decoded] at whole
      cases congrArg Prod.snd whole
  | pending left => exact ⟨(decode parser front).1, left, fewer, Prod.ext rfl ending⟩

end Decode

end LtramBench.Streaming
