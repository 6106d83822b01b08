import LtramBench.Interaction.Buffers
import Mathlib.Data.List.FinRange
import Mathlib.LinearAlgebra.Matrix.Defs

/-!
# The product of `matrix_multiply.c`

`matmul` adds row after row of `B` into a row of `C`, so the entries of a row
grow side by side.  The textbook product computes one entry after the other.
Both give every entry the same left fold, in the same order, so they agree
whatever `c += a * b` does with its operands; in particular they agree under
floating-point rounding.

`N` is an `int` constant, so an index stays below `2 ^ 62` and no `size_t`
computation wraps.
-/

namespace LtramBench.Matmul

open LtramBench.Interaction

/-- What the workload does with floats: the value of zeroed memory, and
`c += a * b`. -/
structure Arithmetic (α : Type) where
  zero : α
  accumulate : α → α → α → α

/-- Exact arithmetic on natural numbers. -/
def natArithmetic : Arithmetic Nat where
  zero := 0
  accumulate acc a b := acc + a * b

/-! ## The loops -/

section Loops

variable {Buffer α : Type} [DecidableEq Buffer] (arith : Arithmetic α) (n : Nat)

/-- The loop over `j`: `c_i[j] += a_ik * b_k[j]`, where `c_i` and `b_k` point
into `C` and `B`. -/
def addScaledRow (C : Buffer) (rowC : Nat) (B : Buffer) (rowB : Nat) (a : α)
    (memory : Memory Buffer α) : Memory Buffer α :=
  loop n (fun j memory => memory.store C (rowC + j)
    (arith.accumulate (memory C (rowC + j)) a (memory B (rowB + j)))) memory

/-- The loops over `k` and `j`, for one row of `C`. -/
def multiplyRow (C A B : Buffer) (i : Nat) (memory : Memory Buffer α) : Memory Buffer α :=
  loop n (fun k memory =>
    addScaledRow arith n C (i * n) B (k * n) (memory A (i * n + k)) memory) memory

/-- `matmul`. -/
def matmul (C A B : Buffer) (memory : Memory Buffer α) : Memory Buffer α :=
  loop n (fun i memory => multiplyRow arith n C A B i memory) memory

end Loops

/-! ## The textbook product -/

section Product

variable {α : Type} (arith : Arithmetic α) {n : Nat}

/-- Entry `(i, j)` accumulates `A[i][k] * R[k][j]` over `k`, from zero. -/
def product (A R : Matrix (Fin n) (Fin n) α) : Matrix (Fin n) (Fin n) α :=
  fun i j => (List.finRange n).foldl (fun acc k => arith.accumulate acc (A i k) (R k j)) arith.zero

/-- The matrix that a row-major buffer holds. -/
def entries (n : Nat) (cells : Nat → α) : Matrix (Fin n) (Fin n) α :=
  fun i j => cells (i * n + j)

end Product

/-! ## The loops in closed form -/

section ClosedForm

variable {Buffer α : Type} [DecidableEq Buffer] {arith : Arithmetic α} {n : Nat} {C A B : Buffer}

theorem addScaledRow_apply (other_B : B ≠ C) (rowC rowB : Nat) (a : α) (memory : Memory Buffer α)
    (other : Buffer) (position : Nat) :
    addScaledRow arith n C rowC B rowB a memory other position =
      if other = C ∧ rowC ≤ position ∧ position < rowC + n then
        arith.accumulate (memory C position) a (memory B (rowB + (position - rowC)))
      else memory other position := by
  have elsewhere : ∀ (memory : Memory Buffer α) cell value,
      (fun j => memory.store C cell value B (rowB + j)) = fun j => memory B (rowB + j) := by
    intro memory cell value
    rw [Memory.store_of_ne memory other_B]
  exact Memory.loop_store_apply C rowC (fun memory j => memory B (rowB + j)) elsewhere
    (fun cell b => arith.accumulate cell a b) n memory other position

/-- After `count` rounds of the loop over `k` each cell of the row has
accumulated `count` products, and nothing else has changed. -/
theorem loop_addScaledRow_apply (other_A : A ≠ C) (other_B : B ≠ C) (i count : Nat)
    (memory : Memory Buffer α) (other : Buffer) (position : Nat) :
    loop count (fun k memory =>
        addScaledRow arith n C (i * n) B (k * n) (memory A (i * n + k)) memory) memory other
        position =
      if other = C ∧ i * n ≤ position ∧ position < i * n + n then
        (List.range count).foldl (fun acc k => arith.accumulate acc (memory A (i * n + k))
          (memory B (k * n + (position - i * n)))) (memory C position)
      else memory other position := by
  induction count generalizing other position with
  | zero =>
      split
      · rename_i row
        rw [row.1]
        rfl
      · rfl
  | succ count ih =>
      have unchanged_A := ih A (i * n + count)
      rw [if_neg fun row => other_A row.1] at unchanged_A
      rw [loop_succ, addScaledRow_apply other_B, unchanged_A]
      by_cases row : other = C ∧ i * n ≤ position ∧ position < i * n + n
      · rw [if_pos row, if_pos row, ih, if_pos ⟨rfl, row.2⟩, ih, if_neg fun row => other_B row.1,
          List.range_succ, List.foldl_append, List.foldl_cons, List.foldl_nil]
      · rw [if_neg row, if_neg row, ih, if_neg row]

theorem multiplyRow_apply (other_A : A ≠ C) (other_B : B ≠ C) (i : Nat)
    (memory : Memory Buffer α) (other : Buffer) (position : Nat) :
    multiplyRow arith n C A B i memory other position =
      if other = C ∧ i * n ≤ position ∧ position < i * n + n then
        (List.range n).foldl (fun acc k => arith.accumulate acc (memory A (i * n + k))
          (memory B (k * n + (position - i * n)))) (memory C position)
      else memory other position :=
  loop_addScaledRow_apply other_A other_B i n memory other position

/-- The fold that a cell of the destination accumulates, from the value it
holds. -/
def cellFold (arith : Arithmetic α) (n : Nat) (cellsA cellsB : Nat → α) (start : α)
    (position : Nat) : α :=
  (List.range n).foldl (fun acc k => arith.accumulate acc (cellsA (position / n * n + k))
    (cellsB (k * n + position % n))) start

/-- After `count` rounds of the outer loop the first `count` rows are done, and
nothing else has changed. -/
theorem loop_multiplyRow_apply (other_A : A ≠ C) (other_B : B ≠ C) (count : Nat)
    (memory : Memory Buffer α) (other : Buffer) (position : Nat) :
    loop count (fun i memory => multiplyRow arith n C A B i memory) memory other position =
      if other = C ∧ position < count * n then
        cellFold arith n (memory A) (memory B) (memory C position) position
      else memory other position := by
  induction count generalizing other position with
  | zero => rw [loop_zero, if_neg (by omega)]
  | succ count ih =>
      have unchanged : ∀ buffer ≠ C, loop count (fun i memory =>
          multiplyRow arith n C A B i memory) memory buffer = memory buffer := by
        intro buffer differ
        funext cell
        rw [ih, if_neg fun done => differ done.1]
      rw [loop_succ, multiplyRow_apply other_A other_B, unchanged A other_A, unchanged B other_B,
        Nat.succ_mul]
      by_cases row : other = C ∧ count * n ≤ position ∧ position < count * n + n
      · obtain ⟨rfl, lower, upper⟩ := row
        have quotient : position / n = count :=
          Nat.div_eq_of_lt_le lower (by rw [Nat.succ_mul]; exact upper)
        have remainder : position - count * n = position % n := by
          rw [← quotient, Nat.mod_eq_sub_div_mul]
        rw [if_pos ⟨rfl, lower, upper⟩, if_pos ⟨rfl, upper⟩, ih, if_neg (by omega), remainder,
          cellFold, quotient]
      · rw [if_neg row, ih]
        refine if_congr ?_ rfl rfl
        constructor
        · rintro ⟨same, done⟩
          exact ⟨same, by omega⟩
        · rintro ⟨same, done⟩
          refine ⟨same, ?_⟩
          by_contra later
          exact row ⟨same, by omega, done⟩

/-- What `matmul` does: every cell of the destination accumulates its fold on top
of what it held, and nothing else changes. -/
theorem matmul_apply (other_A : A ≠ C) (other_B : B ≠ C) (memory : Memory Buffer α)
    (other : Buffer) (position : Nat) :
    matmul arith n C A B memory other position =
      if other = C ∧ position < n * n then
        cellFold arith n (memory A) (memory B) (memory C position) position
      else memory other position :=
  loop_multiplyRow_apply other_A other_B n memory other position

theorem matmul_of_ne (other_A : A ≠ C) (other_B : B ≠ C) (memory : Memory Buffer α)
    {other : Buffer} (differ : other ≠ C) : matmul arith n C A B memory other = memory other := by
  funext position
  rw [matmul_apply other_A other_B, if_neg fun stored => differ stored.1]

theorem rowMajor_lt (i j : Fin n) : (i : Nat) * n + j < n * n := by
  calc (i : Nat) * n + j < i * n + n := Nat.add_lt_add_left j.isLt _
    _ = (i + 1) * n := (Nat.succ_mul _ _).symm
    _ ≤ n * n := Nat.mul_le_mul_right n i.isLt

/-- On a zeroed destination `matmul` is the textbook product. -/
theorem entries_matmul (other_A : A ≠ C) (other_B : B ≠ C) {memory : Memory Buffer α}
    (zeroed : ∀ cell < n * n, memory C cell = arith.zero) :
    entries n (matmul arith n C A B memory C) =
      product arith (entries n (memory A)) (entries n (memory B)) := by
  funext i j
  have inside := rowMajor_lt i j
  have quotient : ((i : Nat) * n + j) / n = i := by
    rw [Nat.mul_comm, Nat.mul_add_div (Fin.pos i), Nat.div_eq_of_lt j.isLt, Nat.add_zero]
  have remainder : ((i : Nat) * n + j) % n = j := by
    rw [Nat.mul_comm, Nat.mul_add_mod, Nat.mod_eq_of_lt j.isLt]
  rw [entries, matmul_apply other_A other_B, if_pos ⟨rfl, inside⟩, zeroed _ inside, cellFold,
    quotient, remainder, ← List.map_coe_finRange_eq_range, List.foldl_map]
  rfl

end ClosedForm

end LtramBench.Matmul
