import LtramBench.Matmul.Repeat

/-!
# Where the data of the matmul workload comes from

`rand` is a stream determined by the last argument of `srand`.  Both calls of
`fill_random` pass `time(NULL)` to `srand` and leave their own `seed` aside, so
the data, and with it the final matrix, is a function of two readings of the
clock.
-/

namespace LtramBench.Matmul

open LtramBench.Interaction

/-! ## The data -/

/-- The final `result` of a run, if it gets that far. -/
def finalResult {α : Type} (arith : Arithmetic α) (unit : Nat → α) (stream : UInt32 → Nat → Nat)
    (n : Nat) (iters : Int32) (env : Environment α) : Option (Matrix (Fin n) (Fin n) α) :=
  ((library stream env).run (numaMmRepeat arith unit n env.memory iters)
    Library.initial).result.join.map fun finished =>
      entries n (finished.ended.memory finished.ended.result)

section Data

variable {α : Type} (arith : Arithmetic α) (unit : Nat → α) (stream : UInt32 → Nat → Nat)

/-- The matrix that `fill_random` draws after `srand(seed)`. -/
def drawnMatrix (n : Nat) (seed : UInt32) : Matrix (Fin n) (Fin n) α :=
  entries n fun cell => unit (stream seed cell)

/-- The final matrix as a function of the two readings of the clock. -/
def clockMatrix (n : Nat) (iters : Int32) (first second : Int64) : Matrix (Fin n) (Fin n) α :=
  (product arith (drawnMatrix unit stream n (srandArg second)))^[iters.toInt.toNat]
    (drawnMatrix unit stream n (srandArg first))

variable {unit stream} {env : Environment α}

/-- The first `count` cells of `x` hold the first draws after `srand(seed)`, and
the other buffers are as they were. -/
structure Filled (unit : Nat → α) (stream : UInt32 → Nat → Nat) (seed : UInt32) (x : Buffer)
    (memory : Memory Buffer α) (count : Nat) (filled : Memory Buffer α) : Prop where
  drawn : ∀ cell < count, filled x cell = unit (stream seed cell)
  others : ∀ other ≠ x, filled other = memory other

theorem Filled.store {seed : UInt32} {x : Buffer} {memory filled : Memory Buffer α} {count : Nat}
    (sofar : Filled unit stream seed x memory count filled) :
    Filled unit stream seed x memory (count + 1)
      (filled.store x count (unit (stream seed count))) := by
  constructor
  · intro cell bound
    rcases Nat.lt_succ_iff_lt_or_eq.mp bound with earlier | rfl
    · rw [← sofar.drawn cell earlier]
      exact if_neg fun same => absurd same.2 (Nat.ne_of_lt earlier)
    · exact if_pos ⟨rfl, rfl⟩
  · intro other differ
    rw [Memory.store_of_ne filled differ, sofar.others other differ]

/-- The loop of `fill_random` stores the stream of the seed. -/
theorem ensures_fillLoop (x : Buffer) (count : Nat) (memory : Memory Buffer α) {state : Library}
    (fresh : state.drawn = 0) :
    (library stream env).Ensures (Program.forCount (fillRound unit x) 0 count memory)
      (fun filled after => Filled unit stream state.seed x memory count filled ∧
        after = { state with drawn := count }) state := by
  apply Machine.ensures_forCount (fun index (filled : Memory Buffer α) (after : Library) =>
    Filled unit stream state.seed x memory index filled ∧ after = { state with drawn := index })
  · rintro index filled after - ⟨sofar, rfl⟩
    exact ⟨sofar.store, rfl⟩
  · refine ⟨⟨nofun, fun _ _ => rfl⟩, ?_⟩
    rw [← fresh]

/-- `fill_random` draws the stream of the clock, whatever seed it is given. -/
theorem ensures_fillRandom (x : Buffer) (count : Nat) (seed : UInt64) (memory : Memory Buffer α)
    (state : Library) :
    (library stream env).Ensures (fillRandom unit x count seed memory)
      (fun filled after =>
        Filled unit stream (srandArg (env.clock state.asked)) x memory count filled ∧
          after.asked = state.asked + 1) state := by
  simp only [fillRandom, time_bind, srand_bind, Machine.ensures_call]
  apply (ensures_fillLoop x count memory rfl).mono
  rintro filled after ⟨complete, rfl⟩
  exact ⟨complete, rfl⟩

/-- The first `n * n` cells of a buffer determine the matrix it holds. -/
theorem entries_congr {n : Nat} {first second : Nat → α}
    (same : ∀ cell < n * n, first cell = second cell) : entries n first = entries n second := by
  funext i j
  exact same _ (rowMajor_lt i j)

/-- A run whose allocations succeed ends with the matrix of its two clock
readings. -/
theorem finalResult_eq {n : Nat} (iters : Int32) {result A tmp : Buffer}
    (succeeds : env.Succeeds result A tmp) :
    finalResult arith unit stream n iters env =
      some (clockMatrix arith unit stream n iters (env.clock 0) (env.clock 1)) := by
  have distinct := succeeds.distinct
  simp only [List.nodup_cons, List.mem_cons, List.not_mem_nil, or_false, not_or] at distinct
  obtain ⟨⟨result_A, result_tmp⟩, A_tmp, -⟩ := distinct
  have ensured : (library stream env).Ensures (numaMmRepeat arith unit n env.memory iters)
      (fun value _ => ∃ finished, value = some finished ∧
        entries n (finished.ended.memory finished.ended.result) =
          clockMatrix arith unit stream n iters (env.clock 0) (env.clock 1)) Library.initial := by
    unfold numaMmRepeat
    rw [numaAvailable_bind, Machine.ensures_call]
    simp only [library, Int.lt_irrefl, if_false, numaAllocOnnode_bind, Machine.ensures_call,
      Library.initial, succeeds.first, succeeds.second, succeeds.third]
    rw [multiplyBuffers, Machine.ensures_bind]
    apply (ensures_fillRandom result _ _ _ _).mono
    rintro one middle ⟨filledResult, askedOnce⟩
    rw [Machine.ensures_bind]
    apply (ensures_fillRandom A _ _ _ _).mono
    rintro filled after ⟨filledA, -⟩
    refine ⟨_, rfl, ?_⟩
    have repeated := repeated_repeatLoop arith n iters filled result_A result_tmp A_tmp
    have dataA : entries n (filled A) =
        drawnMatrix unit stream n (srandArg (env.clock 1)) := by
      rw [show env.clock 1 = env.clock middle.asked by rw [askedOnce]]
      exact entries_congr filledA.drawn
    have dataResult : entries n (filled result) =
        drawnMatrix unit stream n (srandArg (env.clock 0)) := by
      rw [filledA.others result result_A]
      exact entries_congr filledResult.drawn
    rw [repeated.product, dataA, dataResult]
    rfl
  obtain ⟨value, returned, finished, rfl, matrix⟩ := ensured.run_result
  rw [finalResult, returned]
  exact congrArg some matrix

end Data

/-! ## Two runs -/

/-- Two runs end with the same matrix, whatever the generator, the arithmetic, the
addresses and the old contents of the buffers, when the clock shows `first` at
the two fills of one run and `second` at those of the other. -/
def Reproducible (α : Type) (n : Nat) (iters : Int32) (first second : Int64 × Int64) : Prop :=
  ∀ (arith : Arithmetic α) (unit : Nat → α) (stream : UInt32 → Nat → Nat)
    (one two : Environment α) (result A tmp result' A' tmp' : Buffer),
    one.Succeeds result A tmp → two.Succeeds result' A' tmp' →
    (one.clock 0, one.clock 1) = first → (two.clock 0, two.clock 1) = second →
      finalResult arith unit stream n iters one = finalResult arith unit stream n iters two

theorem reproducible_iff_clockMatrix {α : Type} [Nonempty α] (n : Nat) (iters : Int32)
    (first second : Int64 × Int64) :
    Reproducible α n iters first second ↔
      ∀ (arith : Arithmetic α) (unit : Nat → α) (stream : UInt32 → Nat → Nat),
        clockMatrix arith unit stream n iters first.1 first.2 =
          clockMatrix arith unit stream n iters second.1 second.2 := by
  constructor
  · intro reproducible arith unit stream
    have value : α := Classical.arbitrary α
    have same := reproducible arith unit stream (steady value first) (steady value second)
      0 1 2 0 1 2 (steady_succeeds value first) (steady_succeeds value second) rfl rfl
    rw [finalResult_eq arith iters (steady_succeeds value first),
      finalResult_eq arith iters (steady_succeeds value second)] at same
    exact Option.some.inj same
  · rintro matrices arith unit stream one two result A tmp result' A' tmp' ready ready' rfl rfl
    rw [finalResult_eq arith iters ready, finalResult_eq arith iters ready',
      matrices arith unit stream]

/-- The matrix with the same value everywhere. -/
def uniform {α : Type} (n : Nat) (value : α) : Matrix (Fin n) (Fin n) α :=
  fun _ _ => value

@[simp]
theorem uniform_apply {α : Type} {n : Nat} (value : α) (i j : Fin n) : uniform n value i j = value :=
  rfl

theorem uniform_injective {α : Type} {n : Nat} (positive : 0 < n) :
    Function.Injective (uniform n : α → Matrix (Fin n) (Fin n) α) := by
  intro first second same
  exact congrFun (congrFun same ⟨0, positive⟩) ⟨0, positive⟩

/-- A product whose last accumulation always gives `value`. -/
theorem product_eq_uniform {α : Type} {arith : Arithmetic α} {n : Nat}
    {A R : Matrix (Fin n) (Fin n) α} {value : α} (positive : 0 < n)
    (constant : ∀ acc i k j, arith.accumulate acc (A i k) (R k j) = value) :
    product arith A R = uniform n value := by
  obtain ⟨size, rfl⟩ := Nat.exists_eq_add_of_lt positive
  funext i j
  simp [product, constant, List.finRange_succ_last]

section Distinguish

variable {α : Type} {n : Nat} {iters : Int32}

/-- A generator that draws ones after one seed and zeros after any other. -/
def marking (marked seed : UInt32) (_ : Nat) : Nat :=
  if seed = marked then 1 else 0

/-- The value of a marked draw, and of any other. -/
def choose (marked other : α) (draw : Nat) : α :=
  if draw = 1 then marked else other

theorem drawnMatrix_marked (marked other : α) (n : Nat) (seed : UInt32) :
    drawnMatrix (choose marked other) (marking seed) n seed = uniform n marked := by
  funext i j
  simp [drawnMatrix, entries, choose, marking]

theorem drawnMatrix_unmarked (marked other : α) (n : Nat) {seed markedSeed : UInt32}
    (differ : seed ≠ markedSeed) :
    drawnMatrix (choose marked other) (marking markedSeed) n seed = uniform n other := by
  funext i j
  simp [drawnMatrix, entries, choose, marking, differ]

/-- An operation that keeps its last operand shows the seed of `result`. -/
theorem clockMatrix_keepRight {unit : Nat → α} {stream : UInt32 → Nat → Nat} {zero value : α}
    (positive : 0 < n) {clock : Int64 × Int64}
    (drawn : drawnMatrix unit stream n (srandArg clock.1) = uniform n value) :
    clockMatrix ⟨zero, fun _ _ b => b⟩ unit stream n iters clock.1 clock.2 = uniform n value := by
  rw [clockMatrix, drawn]
  apply Function.iterate_fixed
  exact product_eq_uniform positive fun _ _ _ _ => rfl

/-- An operation that keeps its middle operand shows the seed of `A`, once the
loop has run. -/
theorem clockMatrix_keepLeft {unit : Nat → α} {stream : UInt32 → Nat → Nat} {zero value : α}
    (positive : 0 < n) (repeats : 0 < iters.toInt) {clock : Int64 × Int64}
    (drawn : drawnMatrix unit stream n (srandArg clock.2) = uniform n value) :
    clockMatrix ⟨zero, fun _ a _ => a⟩ unit stream n iters clock.1 clock.2 = uniform n value := by
  obtain ⟨rounds, roundsEq⟩ : ∃ rounds, iters.toInt.toNat = rounds + 1 :=
    Nat.exists_eq_succ_of_ne_zero (by omega)
  rw [clockMatrix, drawn, roundsEq, Function.iterate_succ_apply']
  exact product_eq_uniform positive fun _ _ _ _ => rfl

end Distinguish

/-- Two runs are sure to agree exactly when they hand `srand` the same arguments:
the clock agrees modulo `2 ^ 32` at the first fill and, if the loop makes a
round at all, at the second.  The seeds that are passed to `fill_random` play no
part. -/
theorem reproducible_iff {α : Type} [Nontrivial α] (n : Nat) (iters : Int32)
    (first second : Int64 × Int64) :
    Reproducible α n iters first second ↔
      n = 0 ∨ srandArg first.1 = srandArg second.1 ∧
        (iters.toInt ≤ 0 ∨ srandArg first.2 = srandArg second.2) := by
  rw [reproducible_iff_clockMatrix]
  constructor
  · intro agree
    rcases Nat.eq_zero_or_pos n with empty | positive
    · exact .inl empty
    · right
      obtain ⟨marked, other, differ⟩ := exists_pair_ne α
      have firstSeed : srandArg first.1 = srandArg second.1 := by
        by_contra seeds
        have same := agree ⟨marked, fun _ _ b => b⟩ (choose marked other)
          (marking (srandArg first.1))
        rw [clockMatrix_keepRight positive (drawnMatrix_marked marked other n _),
          clockMatrix_keepRight positive (drawnMatrix_unmarked marked other n (Ne.symm seeds))]
          at same
        exact differ (uniform_injective positive same)
      refine ⟨firstSeed, ?_⟩
      by_cases repeats : 0 < iters.toInt
      · right
        by_contra seeds
        have same := agree ⟨marked, fun _ a _ => a⟩ (choose marked other)
          (marking (srandArg first.2))
        rw [clockMatrix_keepLeft positive repeats (drawnMatrix_marked marked other n _),
          clockMatrix_keepLeft positive repeats
            (drawnMatrix_unmarked marked other n (Ne.symm seeds))] at same
        exact differ (uniform_injective positive same)
      · exact .inl (Int.not_lt.mp repeats)
  · rintro (rfl | ⟨firstSeed, still | secondSeed⟩) arith unit stream
    · funext i
      exact i.elim0
    · rw [clockMatrix, clockMatrix, firstSeed, Int.toNat_of_nonpos still]
      rfl
    · rw [clockMatrix, clockMatrix, firstSeed, secondSeed]

/-- Clocks that agree modulo `2 ^ 32` at both fills. -/
theorem reproducible_modulo_unsigned :
    Reproducible Nat 1024 10 (1700000000, 1700000001) (5994967296, 1700000001) :=
  (reproducible_iff 1024 10 _ _).mpr (by decide)

theorem product_natArithmetic_uniform (n a b : Nat) :
    product natArithmetic (uniform n a) (uniform n b) = uniform n (n * a * b) := by
  have folded : ∀ (ks : List (Fin n)) (start : Nat),
      ks.foldl (fun acc _ => acc + a * b) start = start + ks.length * (a * b) := by
    intro ks
    induction ks with
    | nil => simp
    | cons k ks ih =>
        intro start
        rw [List.foldl_cons, ih, List.length_cons, Nat.succ_mul, Nat.add_assoc,
          Nat.add_comm (a * b)]
  funext i j
  simp [product, natArithmetic, folded, Nat.mul_assoc]

theorem iterate_natArithmetic_uniform (n a b rounds : Nat) :
    (product natArithmetic (uniform n a))^[rounds] (uniform n b) =
      uniform n ((n * a) ^ rounds * b) := by
  induction rounds with
  | zero => simp
  | succ rounds ih =>
      rw [Function.iterate_succ_apply', ih, product_natArithmetic_uniform, Nat.pow_succ',
        Nat.mul_assoc (n * a)]

/-- Two runs of the workload as it is built, started a second apart: one draws
ones, the other zeros. -/
theorem finalResult_depends_on_clock :
    finalResult natArithmetic (choose 1 0) (marking 1700000000) 1024 10
        (steady 0 (1700000000, 1700000000)) ≠
      finalResult natArithmetic (choose 1 0) (marking 1700000000) 1024 10
        (steady 0 (1700000001, 1700000001)) := by
  have early : drawnMatrix (choose 1 0) (marking 1700000000) 1024 (srandArg 1700000000) =
      uniform 1024 1 :=
    drawnMatrix_marked 1 0 1024 1700000000
  have late : drawnMatrix (choose 1 0) (marking 1700000000) 1024 (srandArg 1700000001) =
      uniform 1024 0 :=
    drawnMatrix_unmarked 1 0 1024 (by decide)
  rw [finalResult_eq _ _ (steady_succeeds 0 _), finalResult_eq _ _ (steady_succeeds 0 _)]
  simp only [steady, clockMatrix, if_true, one_ne_zero, if_false, early, late,
    iterate_natArithmetic_uniform]
  intro same
  have values := uniform_injective (by decide) (Option.some.inj same)
  revert values
  decide

end LtramBench.Matmul
