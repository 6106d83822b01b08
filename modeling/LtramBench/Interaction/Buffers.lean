import Mathlib.Logic.Basic
import Mathlib.Tactic.ByContra

/-!
# Buffers and counted loops

A memory is a family of buffers, each an unbounded array of cells, and a store
changes one cell of one buffer.  `loop` is a counted `for` loop over a state; a
loop that walks along a row of cells and stores into each of them has a closed
form, which is proved here once.
-/

namespace LtramBench.Interaction

/-- Run `body index` for the first `count` indices. -/
def loop {σ : Type} (count : Nat) (body : Nat → σ → σ) (state : σ) : σ :=
  (List.range count).foldl (fun state index => body index state) state

@[simp]
theorem loop_zero {σ : Type} (body : Nat → σ → σ) (state : σ) : loop 0 body state = state :=
  rfl

theorem loop_succ {σ : Type} (count : Nat) (body : Nat → σ → σ) (state : σ) :
    loop (count + 1) body state = body count (loop count body state) := by
  simp [loop, List.range_succ]

/-- The contents of every buffer. -/
abbrev Memory (Buffer α : Type) := Buffer → Nat → α

namespace Memory

variable {Buffer α : Type} [DecidableEq Buffer]

/-- Store a value in one cell. -/
def store (memory : Memory Buffer α) (buffer : Buffer) (cell : Nat) (value : α) :
    Memory Buffer α :=
  fun other position =>
    if other = buffer ∧ position = cell then value else memory other position

/-- Give the first `count` cells of a buffer the same value. -/
def fill (memory : Memory Buffer α) (buffer : Buffer) (count : Nat) (value : α) :
    Memory Buffer α :=
  fun other position => if other = buffer ∧ position < count then value else memory other position

theorem store_of_ne (memory : Memory Buffer α) {buffer other : Buffer} (differ : other ≠ buffer)
    (cell : Nat) (value : α) : memory.store buffer cell value other = memory other := by
  funext position
  simp [store, differ]

theorem fill_of_ne (memory : Memory Buffer α) {buffer other : Buffer} (differ : other ≠ buffer)
    (count : Nat) (value : α) : memory.fill buffer count value other = memory other := by
  funext position
  simp [fill, differ]

/-- A loop along a row of cells that combines each of them with something that
is read elsewhere. -/
theorem loop_store_apply {β : Type} (buffer : Buffer) (base : Nat)
    (read : Memory Buffer α → Nat → β)
    (elsewhere : ∀ memory cell value, read (store memory buffer cell value) = read memory)
    (combine : α → β → α) (count : Nat) (memory : Memory Buffer α) (other : Buffer)
    (position : Nat) :
    loop count (fun index memory => memory.store buffer (base + index)
        (combine (memory buffer (base + index)) (read memory index))) memory other position =
      if other = buffer ∧ base ≤ position ∧ position < base + count then
        combine (memory buffer position) (read memory (position - base))
      else memory other position := by
  have unread : ∀ count, read (loop count (fun index memory => memory.store buffer (base + index)
      (combine (memory buffer (base + index)) (read memory index))) memory) = read memory := by
    intro count
    induction count with
    | zero => rfl
    | succ count ih => rw [loop_succ, elsewhere, ih]
  induction count generalizing other position with
  | zero =>
      rw [loop_zero, if_neg]
      omega
  | succ count ih =>
      rw [loop_succ, store, unread]
      by_cases stored : other = buffer ∧ position = base + count
      · obtain ⟨rfl, rfl⟩ := stored
        rw [if_pos ⟨rfl, rfl⟩, ih, if_neg (by omega), if_pos ⟨rfl, by omega, by omega⟩,
          Nat.add_sub_cancel_left]
      · rw [if_neg stored, ih]
        refine if_congr ?_ rfl rfl
        constructor
        · rintro ⟨same, lower, upper⟩
          exact ⟨same, lower, by omega⟩
        · rintro ⟨same, lower, upper⟩
          refine ⟨same, lower, ?_⟩
          by_contra past
          exact stored ⟨same, by omega⟩

end Memory

end LtramBench.Interaction
