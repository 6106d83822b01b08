import LtramBench.Interaction.Ensures
import LtramBench.Interaction.Ledger
import LtramBench.Matmul.Multiply

/-!
# The workload of `matrix_multiply.c`

`numa_mm_repeat` obtains three buffers, fills two of them at random, and then
multiplies again and again: the destination of one round is the operand of the
next, and the buffer that held the old operand is zeroed and becomes the next
destination.  What the library and the clock answer is left open.
-/

namespace LtramBench.Matmul

open LtramBench.Interaction

/-- The address of a buffer. -/
abbrev Buffer := Nat

/-- What the workload asks of the libraries. -/
inductive LibCall where
  | numaAvailable
  | numaAllocOnnode (bytes node : Nat)
  | numaFree (buffer : Buffer) (bytes : Nat)
  | time
  | srand (seed : UInt32)
  | rand
  | mprotect (buffer : Buffer) (bytes : Nat)
  | stderr (text : String)
  deriving DecidableEq

/-- The type of the answer to each call; `none` is a null pointer. -/
abbrev LibCall.Answer : LibCall → Type
  | numaAvailable => Int
  | numaAllocOnnode _ _ => Option Buffer
  | numaFree _ _ => Unit
  | time => Int64
  | srand _ => Unit
  | rand => Nat
  | mprotect _ _ => Int
  | stderr _ => Unit

abbrev libInterface : Interface := ⟨LibCall, LibCall.Answer⟩

abbrev Workload := Program libInterface

def numaAvailable : Workload Int :=
  .perform (I := libInterface) .numaAvailable

def numaAllocOnnode (bytes node : Nat) : Workload (Option Buffer) :=
  .perform (I := libInterface) (.numaAllocOnnode bytes node)

def numaFree (buffer : Buffer) (bytes : Nat) : Workload Unit :=
  .perform (I := libInterface) (.numaFree buffer bytes)

def time : Workload Int64 :=
  .perform (I := libInterface) .time

def srand (seed : UInt32) : Workload Unit :=
  .perform (I := libInterface) (.srand seed)

def rand : Workload Nat :=
  .perform (I := libInterface) .rand

def mprotect (buffer : Buffer) (bytes : Nat) : Workload Int :=
  .perform (I := libInterface) (.mprotect buffer bytes)

def stderr (text : String) : Workload Unit :=
  .perform (I := libInterface) (.stderr text)

section Bind

variable {β : Type}

@[simp]
theorem numaAvailable_bind (next : Int → Workload β) :
    numaAvailable >>= next = .call (I := libInterface) .numaAvailable next :=
  rfl

@[simp]
theorem numaAllocOnnode_bind (bytes node : Nat) (next : Option Buffer → Workload β) :
    numaAllocOnnode bytes node >>= next =
      .call (I := libInterface) (.numaAllocOnnode bytes node) next :=
  rfl

@[simp]
theorem numaFree_bind (buffer : Buffer) (bytes : Nat) (next : Unit → Workload β) :
    numaFree buffer bytes >>= next = .call (I := libInterface) (.numaFree buffer bytes) next :=
  rfl

@[simp]
theorem time_bind (next : Int64 → Workload β) :
    time >>= next = .call (I := libInterface) .time next :=
  rfl

@[simp]
theorem srand_bind (seed : UInt32) (next : Unit → Workload β) :
    srand seed >>= next = .call (I := libInterface) (.srand seed) next :=
  rfl

@[simp]
theorem rand_bind (next : Nat → Workload β) :
    rand >>= next = .call (I := libInterface) .rand next :=
  rfl

@[simp]
theorem mprotect_bind (buffer : Buffer) (bytes : Nat) (next : Int → Workload β) :
    mprotect buffer bytes >>= next = .call (I := libInterface) (.mprotect buffer bytes) next :=
  rfl

@[simp]
theorem stderr_bind (text : String) (next : Unit → Workload β) :
    stderr text >>= next = .call (I := libInterface) (.stderr text) next :=
  rfl

end Bind

/-! ## The functions -/

section Functions

variable {α : Type}

/-- The argument of `srand(time(NULL))`: a `time_t` becomes an `unsigned int`. -/
def srandArg (now : Int64) : UInt32 :=
  now.toUInt64.toUInt32

/-- One round of the loop of `fill_random`; `unit` is
`(float)r / (float)RAND_MAX`. -/
def fillRound (unit : Nat → α) (x : Buffer) (i : Nat) (memory : Memory Buffer α) :
    Workload (Memory Buffer α) := do
  let r ← rand
  return memory.store x i (unit r)

/-- `fill_random`.  Nothing in its body mentions `seed`. -/
def fillRandom (unit : Nat → α) (x : Buffer) (n : Nat) (_seed : UInt64)
    (memory : Memory Buffer α) : Workload (Memory Buffer α) := do
  let now ← time
  srand (srandArg now)
  Program.forCount (fillRound unit x) 0 n memory

/-- The variables that the main loop changes. -/
structure Loop (α : Type) where
  memory : Memory Buffer α
  result : Buffer
  tmp : Buffer

/-- One round of the main loop: clear `tmp`, multiply into it, swap. -/
def repeatRound (arith : Arithmetic α) (n : Nat) (A : Buffer) (state : Loop α) : Loop α where
  memory := matmul arith n state.tmp A state.result
    (state.memory.fill state.tmp (n * n) arith.zero)
  result := state.tmp
  tmp := state.result

/-- `for (int t = 0; t < iters; t++)`. -/
def repeatLoop (arith : Arithmetic α) (n : Nat) (A : Buffer) (iters : Int32) (state : Loop α) :
    Loop α :=
  loop iters.toInt.toNat (fun _ => repeatRound arith n A) state

/-- What a run that reached the end computed: the memory after the two fills,
the variables after the loop, and the entry read into `sink`. -/
structure Finished (α : Type) where
  filled : Memory Buffer α
  ended : Loop α
  sink : α

/-- `numa_free` if the pointer is not null. -/
def numaFreeSome (buffer : Option Buffer) (bytes : Nat) : Workload Unit :=
  match buffer with
  | none => return ()
  | some buffer => numaFree buffer bytes

/-- The rest of `numa_mm_repeat` once it has its three buffers. -/
def multiplyBuffers (arith : Arithmetic α) (unit : Nat → α) (n : Nat) (memory : Memory Buffer α)
    (iters : Int32) (result A tmp : Buffer) : Workload (Option (Finished α)) := do
  let elems := n * n
  let bytes := elems * 4
  let memory ← fillRandom unit result elems 0x1234 memory
  let memory ← fillRandom unit A elems 0x9876 memory
  let _ ← mprotect A bytes
  let ended := repeatLoop arith n A iters ⟨memory, result, tmp⟩
  let sink := ended.memory ended.result 0
  numaFree ended.tmp bytes
  numaFree A bytes
  numaFree ended.result bytes
  return some ⟨memory, ended, sink⟩

/-- `numa_mm_repeat`; `memory` is what the buffers hold when they are obtained. -/
def numaMmRepeat (arith : Arithmetic α) (unit : Nat → α) (n : Nat) (memory : Memory Buffer α)
    (iters : Int32) : Workload (Option (Finished α)) := do
  let available ← numaAvailable
  if available < 0 then
    stderr "NUMA not available\n"
    return none
  else
    let elems := n * n
    let bytes := elems * 4
    let result ← numaAllocOnnode bytes 0
    let A ← numaAllocOnnode bytes 0
    let tmp ← numaAllocOnnode bytes 0
    match result, A, tmp with
    | some result, some A, some tmp => multiplyBuffers arith unit n memory iters result A tmp
    | result, A, tmp =>
        stderr "numa_alloc_onnode failed\n"
        numaFreeSome result bytes
        numaFreeSome A bytes
        numaFreeSome tmp bytes
        return none

end Functions

/-! ## The main loop -/

section MainLoop

variable {α : Type} {arith : Arithmetic α} {n : Nat} {result A tmp : Buffer}

/-- The loop holds the two buffers it started with, in one order or the other. -/
def Holds (state : Loop α) (result tmp : Buffer) : Prop :=
  state.result = result ∧ state.tmp = tmp ∨ state.result = tmp ∧ state.tmp = result

theorem Holds.apart {state : Loop α} (holds : Holds state result tmp) (differ : result ≠ tmp) :
    state.result ≠ state.tmp := by
  rcases holds with ⟨resultEq, tmpEq⟩ | ⟨resultEq, tmpEq⟩
  · rw [resultEq, tmpEq]
    exact differ
  · rw [resultEq, tmpEq]
    exact differ.symm

/-- What is true after a number of rounds. -/
structure Repeated (arith : Arithmetic α) (n : Nat) (start : Memory Buffer α)
    (result A tmp : Buffer) (rounds : Nat) (state : Loop α) : Prop where
  product : entries n (state.memory state.result) =
    (Matmul.product arith (entries n (start A)))^[rounds] (entries n (start result))
  unmodified : state.memory A = start A
  holds : Holds state result tmp

theorem Repeated.repeatRound {start : Memory Buffer α} {rounds : Nat} {state : Loop α}
    (repeated : Repeated arith n start result A tmp rounds state)
    (result_A : result ≠ A) (result_tmp : result ≠ tmp) (A_tmp : A ≠ tmp) :
    Repeated arith n start result A tmp (rounds + 1) (repeatRound arith n A state) := by
  have apart : state.result ≠ state.tmp ∧ A ≠ state.tmp := by
    rcases repeated.holds with ⟨resultEq, tmpEq⟩ | ⟨resultEq, tmpEq⟩
    · rw [resultEq, tmpEq]
      exact ⟨result_tmp, A_tmp⟩
    · rw [resultEq, tmpEq]
      exact ⟨result_tmp.symm, result_A.symm⟩
  constructor
  · have zeroed : ∀ cell < n * n,
        state.memory.fill state.tmp (n * n) arith.zero state.tmp cell = arith.zero := by
      intro cell inside
      exact if_pos ⟨rfl, inside⟩
    rw [Function.iterate_succ_apply', ← repeated.product, ← repeated.unmodified]
    change entries n (matmul arith n state.tmp A state.result _ state.tmp) = _
    rw [entries_matmul apart.2 apart.1 zeroed, Memory.fill_of_ne _ apart.2,
      Memory.fill_of_ne _ apart.1]
  · change matmul arith n state.tmp A state.result _ A = _
    rw [matmul_of_ne apart.2 apart.1 _ apart.2, Memory.fill_of_ne _ apart.2, repeated.unmodified]
  · exact repeated.holds.symm.imp And.symm And.symm

/-- After the loop `result` holds the iterated product, `A` is as it was, and the
two pointers are the ones it started with. -/
theorem repeated_repeatLoop (arith : Arithmetic α) (n : Nat) (iters : Int32)
    (memory : Memory Buffer α) (result_A : result ≠ A) (result_tmp : result ≠ tmp)
    (A_tmp : A ≠ tmp) :
    Repeated arith n memory result A tmp iters.toInt.toNat
      (repeatLoop arith n A iters ⟨memory, result, tmp⟩) := by
  unfold repeatLoop
  induction iters.toInt.toNat with
  | zero => exact ⟨rfl, rfl, .inl ⟨rfl, rfl⟩⟩
  | succ rounds ih =>
      rw [loop_succ]
      exact ih.repeatRound result_A result_tmp A_tmp

end MainLoop

/-! ## Whole runs -/

/-- The ledger lines of one event. -/
def ledgerLines : Event libInterface → List (Entry Buffer)
  | ⟨.numaAllocOnnode _ _, some buffer⟩ => [.acquire buffer]
  | ⟨.numaFree buffer _, _⟩ => [.release buffer]
  | _ => []

/-- The ledger of a run. -/
def ledger (trace : List (Event libInterface)) : List (Entry Buffer) :=
  trace.flatMap ledgerLines

/-- The numbers that `rand` answered, in order. -/
def draws (trace : List (Event libInterface)) : List Nat :=
  trace.filterMap fun
    | ⟨.rand, answer⟩ => some answer
    | _ => none

/-- The buffers that were freed, in order. -/
def frees (trace : List (Event libInterface)) : List Buffer :=
  trace.filterMap fun
    | ⟨.numaFree buffer _, _⟩ => some buffer
    | _ => none

section Runs

variable {α : Type} {arith : Arithmetic α} {unit : Nat → α} {n : Nat} {iters : Int32}
  {memory : Memory Buffer α}

/-- The cells of a row of `x` hold what was drawn, and nothing else was touched. -/
structure DrawnInto (unit : Nat → α) (x : Buffer) (index count : Nat)
    (memory filled : Memory Buffer α) (trace : List (Event libInterface)) : Prop where
  drawn : (draws trace).map unit = (List.range' index count).map (filled x)
  earlier : ∀ cell < index, filled x cell = memory x cell
  others : ∀ other ≠ x, filled other = memory other
  settled : ledger trace = []
  kept : frees trace = []

theorem runs_fillLoop {x : Buffer} {index count : Nat} {memory filled : Memory Buffer α}
    {trace : List (Event libInterface)}
    (run : (Program.forCount (fillRound unit x) index count memory).Runs trace (some filled)) :
    DrawnInto unit x index count memory filled trace := by
  induction count generalizing index memory trace with
  | zero =>
      obtain ⟨rfl, same⟩ := (Program.runs_done_iff _ _ _).mp run
      obtain rfl := Option.some.inj same
      exact ⟨rfl, fun _ _ => rfl, fun _ _ => rfl, rfl, rfl⟩
  | succ count ih =>
      rw [Program.forCount_succ, fillRound, rand_bind] at run
      simp only [Program.pure_eq_done, Program.call_bind, Program.done_bind,
        Program.runs_call_iff] at run
      obtain ⟨r, rest, rfl, run⟩ := run
      have later := ih run
      have own : filled x index = unit r :=
        (later.earlier index (Nat.lt_succ_self index)).trans (if_pos ⟨rfl, rfl⟩)
      constructor
      · rw [List.range'_succ, List.map_cons, own, ← later.drawn]
        rfl
      · intro cell bound
        rw [later.earlier cell (Nat.lt_succ_of_lt bound)]
        exact if_neg fun same => absurd same.2 (Nat.ne_of_lt bound)
      · intro other differ
        rw [later.others other differ, Memory.store_of_ne memory differ]
      · exact later.settled
      · exact later.kept

/-- `fill_random` stores what it draws. -/
theorem runs_fillRandom {x : Buffer} {count : Nat} {seed : UInt64}
    {memory filled : Memory Buffer α} {trace : List (Event libInterface)}
    (run : (fillRandom unit x count seed memory).Runs trace (some filled)) :
    DrawnInto unit x 0 count memory filled trace := by
  simp only [fillRandom, time_bind, srand_bind, Program.runs_call_iff] at run
  obtain ⟨now, _, rfl, _, rest, rfl, run⟩ := run
  have stored := runs_fillLoop run
  exact ⟨stored.drawn, stored.earlier, stored.others, stored.settled, stored.kept⟩

/-- What a run does once it has its buffers: it fills `result` and `A`, runs the
loop on the memory it filled, and frees what the loop left in `tmp`, `A` and
`result`. -/
theorem runs_multiplyBuffers {trace : List (Event libInterface)} {outcome : Option (Finished α)}
    {result A tmp : Buffer} (result_A : result ≠ A)
    (run : (multiplyBuffers arith unit n memory iters result A tmp).Runs trace (some outcome)) :
    ∃ filled, let ended := repeatLoop arith n A iters ⟨filled, result, tmp⟩
      outcome = some ⟨filled, ended, ended.memory ended.result 0⟩ ∧
        (draws trace).map unit = (List.range (n * n)).map (filled result) ++
          (List.range (n * n)).map (filled A) ∧
        (∀ other, other ≠ result → other ≠ A → filled other = memory other) ∧
        ledger trace = [ended.tmp, A, ended.result].map .release ∧
        frees trace = [ended.tmp, A, ended.result] := by
  unfold multiplyBuffers at run
  obtain ⟨fillResult, one, _, rfl, resultRun, run⟩ := (Program.runs_bind_some_iff _ _ _ _).mp run
  obtain ⟨fillA, filled, _, rfl, fillRun, run⟩ := (Program.runs_bind_some_iff _ _ _ _).mp run
  simp only [mprotect_bind, numaFree_bind, Program.pure_eq_done, Program.runs_call_iff,
    Program.runs_done_iff] at run
  obtain ⟨_, _, rfl, _, _, rfl, _, _, rfl, _, _, rfl, rfl, outcomeEq⟩ := run
  have first := runs_fillRandom resultRun
  have second := runs_fillRandom fillRun
  refine ⟨filled, Option.some.inj outcomeEq, ?_, ?_, ?_, ?_⟩
  · have firstDrawn := first.drawn
    have secondDrawn := second.drawn
    rw [← List.range_eq_range'] at firstDrawn secondDrawn
    rw [second.others result result_A, ← firstDrawn, ← secondDrawn, ← List.map_append]
    simp [draws]
  · intro other notResult notA
    rw [second.others other notA, first.others other notResult]
  · have firstLedger := first.settled
    have secondLedger := second.settled
    unfold ledger at firstLedger secondLedger ⊢
    simp [firstLedger, secondLedger, ledgerLines]
  · have firstKept := first.kept
    have secondKept := second.kept
    unfold frees at firstKept secondKept ⊢
    simp [firstKept, secondKept]

end Runs

section Returns

variable {α σ : Type} (machine : Machine libInterface σ) {unit : Nat → α}

theorem ensures_fillRandom_true (x : Buffer) (count : Nat) (seed : UInt64)
    (memory : Memory Buffer α) (state : σ) :
    machine.Ensures (fillRandom unit x count seed memory) (fun _ _ => True) state := by
  simp only [fillRandom, time_bind, srand_bind, Machine.ensures_call]
  exact Machine.ensures_forCount (fun _ _ _ => True) (fun _ _ _ _ _ => by trivial) trivial

theorem ensures_multiplyBuffers_true (arith : Arithmetic α) (n : Nat) (memory : Memory Buffer α)
    (iters : Int32) (result A tmp : Buffer) (state : σ) :
    machine.Ensures (multiplyBuffers arith unit n memory iters result A tmp) (fun _ _ => True)
      state := by
  unfold multiplyBuffers
  rw [Machine.ensures_bind]
  apply (ensures_fillRandom_true machine _ _ _ _ _).mono
  intro _ _ _
  rw [Machine.ensures_bind]
  apply (ensures_fillRandom_true machine _ _ _ _ _).mono
  intro _ _ _
  trivial

/-- The state of the library after the question for NUMA and the first requests
for a buffer. -/
def afterRequests (n : Nat) (state : σ) : Nat → σ
  | 0 => (machine .numaAvailable state).2
  | count + 1 => (machine (.numaAllocOnnode (n * n * 4) 0) (afterRequests n state count)).2

/-- NUMA is available, and the three requests are answered with different
buffers. -/
structure Obtains (n : Nat) (state : σ) (result A tmp : Buffer) : Prop where
  available : 0 ≤ (machine .numaAvailable state).1
  first : (machine (.numaAllocOnnode (n * n * 4) 0) (afterRequests machine n state 0)).1 =
    some result
  second : (machine (.numaAllocOnnode (n * n * 4) 0) (afterRequests machine n state 1)).1 = some A
  third : (machine (.numaAllocOnnode (n * n * 4) 0) (afterRequests machine n state 2)).1 = some tmp
  distinct : [result, A, tmp].Nodup

/-- The events of a run up to its third buffer. -/
def requests (n : Nat) (available : Int) (result A tmp : Buffer) : List (Event libInterface) :=
  [⟨.numaAvailable, available⟩, ⟨.numaAllocOnnode (n * n * 4) 0, some result⟩,
    ⟨.numaAllocOnnode (n * n * 4) 0, some A⟩, ⟨.numaAllocOnnode (n * n * 4) 0, some tmp⟩]

end Returns

/-- With its three buffers a run is what it does with them. -/
theorem Obtains.run_eq {α σ : Type} {machine : Machine libInterface σ} {n : Nat} {state : σ}
    {result A tmp : Buffer} (obtains : Obtains machine n state result A tmp)
    (arith : Arithmetic α) (unit : Nat → α) (memory : Memory Buffer α) (iters : Int32) :
    let tail := machine.run (multiplyBuffers arith unit n memory iters result A tmp)
      (afterRequests machine n state 3)
    machine.run (numaMmRepeat arith unit n memory iters) state =
      ⟨tail.result, requests n (machine .numaAvailable state).1 result A tmp ++ tail.trace,
        tail.final⟩ := by
  have present : ¬ (machine .numaAvailable state).1 < 0 := Int.not_lt.mpr obtains.available
  have first := obtains.first
  have second := obtains.second
  have third := obtains.third
  simp only [afterRequests] at first second third
  rw [numaMmRepeat, numaAvailable_bind, Machine.run_call, if_neg present]
  simp only [numaAllocOnnode_bind, Machine.run_call, first, second, third]
  rfl

/-- The two pointers are freed in either order. -/
theorem Holds.perm {α : Type} {state : Loop α} {result tmp : Buffer}
    (holds : Holds state result tmp) (A : Buffer) :
    [result, A, tmp].Perm [state.tmp, A, state.result] := by
  rcases holds with ⟨rfl, rfl⟩ | ⟨rfl, rfl⟩
  · exact (List.reverse_perm [state.tmp, A, state.result])
  · exact .refl _

/-- For every dimension, every accumulate operation and every contents of the
buffers, the main loop leaves the iterated textbook product in `result`, does
not modify `A`, and still holds the two buffers it started with.

A run whose three requests the library answers with different buffers returns.
It fills `result` and `A` with the numbers it draws, its last `result` holds the
iterated product of these, `A` is as it was filled, and it frees each of the
three buffers exactly once. -/
theorem numaMmRepeat_product {α : Type} (arith : Arithmetic α) (n : Nat) (iters : Int32)
    {result A tmp : Buffer} (distinct : [result, A, tmp].Nodup) :
    (∀ memory : Memory Buffer α,
      let ended := repeatLoop arith n A iters ⟨memory, result, tmp⟩
      entries n (ended.memory ended.result) =
          (product arith (entries n (memory A)))^[iters.toInt.toNat] (entries n (memory result)) ∧
        ended.memory A = memory A ∧ Holds ended result tmp ∧ ended.result ≠ ended.tmp) ∧
    ∀ {σ : Type} (machine : Machine libInterface σ) (state : σ) (unit : Nat → α)
      (memory : Memory Buffer α), Obtains machine n state result A tmp →
      let outcome := machine.run (numaMmRepeat arith unit n memory iters) state
      ∃ finished : Finished α, outcome.result = some (some finished) ∧
        (draws outcome.trace).map unit = (List.range (n * n)).map (finished.filled result) ++
          (List.range (n * n)).map (finished.filled A) ∧
        (∀ other, other ≠ result → other ≠ A → finished.filled other = memory other) ∧
        entries n (finished.ended.memory finished.ended.result) =
          (product arith (entries n (finished.filled A)))^[iters.toInt.toNat]
            (entries n (finished.filled result)) ∧
        finished.ended.memory A = finished.filled A ∧
        Holds finished.ended result tmp ∧ finished.ended.result ≠ finished.ended.tmp ∧
        Entry.Settled (ledger outcome.trace) ∧
        frees outcome.trace = [finished.ended.tmp, A, finished.ended.result] ∧
        (frees outcome.trace).Perm [result, A, tmp] := by
  simp only [List.nodup_cons, List.mem_cons, List.not_mem_nil, or_false, not_or] at distinct
  obtain ⟨⟨result_A, result_tmp⟩, A_tmp, -⟩ := distinct
  constructor
  · intro memory ended
    have repeated := repeated_repeatLoop arith n iters memory result_A result_tmp A_tmp
    exact ⟨repeated.product, repeated.unmodified, repeated.holds,
      repeated.holds.apart result_tmp⟩
  · intro σ machine state unit memory obtains
    rw [obtains.run_eq arith unit memory iters]
    let tail := machine.run (multiplyBuffers arith unit n memory iters result A tmp)
      (afterRequests machine n state 3)
    obtain ⟨value, returned, -⟩ :=
      (ensures_multiplyBuffers_true machine arith n memory iters result A tmp
        (afterRequests machine n state 3)).run_result
    have run := machine.run_runs (multiplyBuffers arith unit n memory iters result A tmp)
      (afterRequests machine n state 3)
    rw [returned] at run
    obtain ⟨filled, rfl, drawn, others, ledgerEq, freesEq⟩ := runs_multiplyBuffers result_A run
    have repeated := repeated_repeatLoop arith n iters filled result_A result_tmp A_tmp
    have settled : ledger (requests n (machine .numaAvailable state).1 result A tmp ++ tail.trace) =
        [result, A, tmp].map .acquire ++ ledger tail.trace := rfl
    refine ⟨_, returned, drawn, others, repeated.product, repeated.unmodified, repeated.holds,
      repeated.holds.apart result_tmp, ?_, freesEq, ?_⟩
    · change Entry.Settled (ledger (requests _ _ _ _ _ ++ tail.trace))
      rw [settled, ledgerEq]
      exact (Entry.leaves_acquire_all_release_perm (repeated.holds.perm A)).settled_iff.mpr rfl
    · exact freesEq ▸ (repeated.holds.perm A).symm

/-! ## A library with a seeded generator -/

/-- What may differ from run to run: the clock at each call of `time`, the answer
to each allocation, and what the buffers hold when they are obtained. -/
structure Environment (α : Type) where
  clock : Nat → Int64
  allocate : Nat → Option Buffer
  memory : Memory Buffer α

/-- The first three allocations succeed, with different buffers. -/
structure Environment.Succeeds {α : Type} (env : Environment α) (result A tmp : Buffer) :
    Prop where
  first : env.allocate 0 = some result
  second : env.allocate 1 = some A
  third : env.allocate 2 = some tmp
  distinct : [result, A, tmp].Nodup

/-- How often the clock was read and a buffer asked for, and the generator: its
seed and the number of draws since. -/
structure Library where
  asked : Nat
  requested : Nat
  seed : UInt32
  drawn : Nat

/-- `stream seed index` is the draw number `index` after `srand(seed)`. -/
def library {α : Type} (stream : UInt32 → Nat → Nat) (env : Environment α) :
    Machine libInterface Library
  | .numaAvailable, state => (0, state)
  | .numaAllocOnnode _ _, state =>
      (env.allocate state.requested, { state with requested := state.requested + 1 })
  | .numaFree _ _, state => ((), state)
  | .time, state => (env.clock state.asked, { state with asked := state.asked + 1 })
  | .srand seed, state => ((), { state with seed := seed, drawn := 0 })
  | .rand, state => (stream state.seed state.drawn, { state with drawn := state.drawn + 1 })
  | .mprotect _ _, state => (0, state)
  | .stderr _, state => ((), state)

/-- The state of the library when the workload starts; the seed is `1` until
`srand` is called. -/
def Library.initial : Library := ⟨0, 0, 1, 0⟩

/-- An environment with the given clock readings. -/
def steady {α : Type} (value : α) (clock : Int64 × Int64) : Environment α where
  clock index := if index = 0 then clock.1 else clock.2
  allocate index := some index
  memory _ _ := value

theorem steady_succeeds {α : Type} (value : α) (clock : Int64 × Int64) :
    (steady value clock).Succeeds 0 1 2 :=
  ⟨rfl, rfl, rfl, by decide⟩

theorem steady_obtains {α : Type} (stream : UInt32 → Nat → Nat) (value : α) (n : Nat) :
    Obtains (library stream (steady value (0, 0))) n Library.initial 0 1 2 :=
  ⟨Int.le_refl 0, rfl, rfl, rfl, by decide⟩

/-- Three rounds on two by two matrices, both of them drawn as 0, 1, 2, 3. -/
theorem numaMmRepeat_product_two :
    let outcome := (library (fun _ index => index) (steady 0 (0, 0))).run
      (numaMmRepeat natArithmetic id 2 (fun _ _ => 0) 3) Library.initial
    ∃ finished : Finished Nat, outcome.result = some (some finished) ∧
      (List.range 4).map (finished.filled 0) ++ (List.range 4).map (finished.filled 1) =
        [0, 1, 2, 3, 0, 1, 2, 3] ∧
      entries 2 (finished.ended.memory finished.ended.result) =
        (product natArithmetic (entries 2 (finished.filled 1)))^[3]
          (entries 2 (finished.filled 0)) ∧
      finished.ended.memory 1 = finished.filled 1 ∧
      (frees outcome.trace).Perm [0, 1, 2] := by
  intro outcome
  have product := numaMmRepeat_product natArithmetic 2 3 (show [0, 1, 2].Nodup by decide)
  obtain ⟨finished, returned, drawn, -, ended, unmodified, -, -, -, -, freed⟩ :=
    product.2 _ _ id (fun _ _ => 0) (steady_obtains (fun _ index => index) 0 2)
  have numbers : draws outcome.trace = [0, 1, 2, 3, 0, 1, 2, 3] := rfl
  rw [List.map_id] at drawn
  exact ⟨finished, returned, drawn.symm.trans numbers, ended, unmodified, freed⟩

end LtramBench.Matmul
