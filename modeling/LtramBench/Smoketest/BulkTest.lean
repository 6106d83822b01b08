import LtramBench.Smoketest.Exact

/-!
# The bulk test on its own

Nothing is assumed of the page allocator here: each answer is null or a folio
anywhere.  `kmalloc_array` serves no more than `KMALLOC_MAX_SIZE` bytes, which
bounds `bulk_count`, so neither counter of the test can overflow.
-/

namespace LtramBench.Smoketest

open LtramBench.Interaction LtramBench.Kernel

/-- `KMALLOC_MAX_SIZE` on x86-64. -/
def kmallocMaxSize : Nat := 4 * 2 ^ 20

/-- `kmalloc_array` answers with an array only if its size is within the limit. -/
def KmallocLimited {σ : Type} (machine : Machine kernelInterface σ) : Prop :=
  ∀ (count size : UInt64) (gfp : Gfp) (state : σ) (array : Pointer),
    (machine (.kmallocArray count size gfp) state).1 = some array →
      count.toNat * size.toNat ≤ kmallocMaxSize

/-- The answer to an allocation of the bulk test. -/
def bulkAnswer : Event kernelInterface → Option (Option Folio)
  | ⟨.folioAlloc .bulkAllocation _ _, answer⟩ => some answer
  | _ => none

/-- The answers that the bulk test received, in order. -/
def bulkAnswers (trace : List (Event kernelInterface)) : List (Option Folio) :=
  trace.filterMap bulkAnswer

theorem bulkAnswers_map_bulkAlloc (answers : List (Option Folio)) :
    bulkAnswers (answers.map bulkAlloc) = answers := by
  rw [bulkAnswers, List.filterMap_map]
  exact List.filterMap_some

theorem bulkAnswers_map_put (folios : List Folio) : bulkAnswers (folios.map put) = [] := by
  rw [bulkAnswers, List.filterMap_map, List.filterMap_eq_nil_iff]
  intro folio _
  rfl

/-- The folios that were put, in order. -/
def puts (trace : List (Event kernelInterface)) : List Folio :=
  trace.filterMap fun
    | ⟨.folioPut folio, _⟩ => some folio
    | _ => none

/-- The arrays that were freed, in order. -/
def freedArrays (trace : List (Event kernelInterface)) : List Pointer :=
  trace.filterMap fun
    | ⟨.kfree array, _⟩ => some array
    | _ => none

/-- The trace of a bulk test that obtained its array. -/
def bulkTrace (bulkCount : Int32) (opening summary closing : Level × String × List Arg)
    (array : Pointer) (received : List (Option Folio)) : List (Event kernelInterface) :=
  line opening :: ⟨.kmallocArray bulkCount.toInt64.toUInt64 8 gfpKernel, some array⟩ ::
    (received.map bulkAlloc ++ line summary ::
      (received.reduceOption.map put ++ [⟨.kfree array, ()⟩, line closing]))

section BulkTrace

variable (bulkCount : Int32) (opening summary closing : Level × String × List Arg)
  (array : Pointer) (received : List (Option Folio))

theorem bulkAnswers_bulkTrace :
    bulkAnswers (bulkTrace bulkCount opening summary closing array received) = received := by
  have allocated := bulkAnswers_map_bulkAlloc received
  have released := bulkAnswers_map_put received.reduceOption
  unfold bulkAnswers bulkTrace at *
  rw [List.filterMap_cons_none rfl, List.filterMap_cons_none rfl, List.filterMap_append, allocated,
    List.filterMap_cons_none rfl, List.filterMap_append, released, List.filterMap_cons_none rfl,
    List.filterMap_cons_none rfl, List.filterMap_nil, List.nil_append, List.append_nil]

theorem puts_bulkTrace :
    puts (bulkTrace bulkCount opening summary closing array received) = received.reduceOption := by
  simp [puts, bulkTrace, line, put, bulkAlloc, List.filterMap_map, Function.comp_def]

theorem freedArrays_bulkTrace :
    freedArrays (bulkTrace bulkCount opening summary closing array received) = [array] := by
  simp [freedArrays, bulkTrace, line, put, bulkAlloc, List.filterMap_map, Function.comp_def]

end BulkTrace

/-! ## Every run returns -/

section Returns

variable {σ : Type} (machine : Machine kernelInterface σ)

theorem ensures_bulkRound_true (index : Nat) (bulk : Bulk) (state : σ) :
    machine.Ensures (bulkRound index bulk) (fun _ _ => True) state :=
  trivial

theorem ensures_releaseRound_true (folios : List (Option Folio)) (index : Nat) (state : σ) :
    machine.Ensures (releaseRound folios index ()) (fun _ _ => True) state := by
  unfold releaseRound
  split <;> trivial

/-- The bulk test neither crashes nor runs forever. -/
theorem ensures_testBulkAllocation_true (bulkCount : Int32) (state : σ) :
    machine.Ensures (testBulkAllocation bulkCount) (fun _ _ => True) state := by
  unfold testBulkAllocation
  simp only [prInfo_bind, kmallocArray_bind, kfree_bind, Program.pure_eq_done,
    Machine.ensures_call]
  generalize (machine (.kmallocArray bulkCount.toInt64.toUInt64 8 gfpKernel) _).1 = answer
  generalize (machine (.kmallocArray bulkCount.toInt64.toUInt64 8 gfpKernel) _).2 = state
  cases answer with
  | none => trivial
  | some array =>
      rw [expectPointer, Machine.ensures_bind]
      apply (Machine.ensures_forCount (fun _ _ _ => True)
        (fun index bulk state _ _ => ensures_bulkRound_true machine index bulk state) trivial).mono
      intro bulk filled _
      rw [Machine.ensures_call, Machine.ensures_bind]
      apply (Machine.ensures_forCount (fun _ _ _ => True)
        (fun index _ state _ _ => ensures_releaseRound_true machine bulk.folios index state)
        trivial).mono
      intro _ released _
      rw [Machine.ensures_call]
      unfold expect
      split
      · split <;> trivial
      · trivial

end Returns

/-! ## What it returns and what it leaves -/

/-- The limit of `kmalloc_array` excludes a negative `bulk_count` and bounds the
others. -/
theorem bulkCount_le_of_limited {bulkCount : Int32}
    (limited : bulkCount.toInt64.toUInt64.toNat * 8 ≤ kmallocMaxSize) :
    0 ≤ bulkCount.toInt ∧ bulkCount.toInt * 8 ≤ kmallocMaxSize := by
  have unsigned := toInt_kmallocCount bulkCount
  unfold kmallocMaxSize at limited ⊢
  split at unsigned <;> omega

/-- On at most `2 ^ 30 - 1` answers both counters hold the true counts. -/
theorem bulkAfter_counters {answers : List (Option Folio)} (few : answers.length < 2 ^ 30) :
    (bulkAfter answers).allocated.toInt = answers.reduceOption.length ∧
      (bulkAfter answers).errors.toInt = misplacements answers := by
  have obtainedLe := List.reduceOption_length_le answers
  have errorsLe := misplacements_le answers
  rw [bulkAfter_eq]
  constructor
  · exact Int32.toInt_ofNat_of_lt (by omega)
  · exact Int32.toInt_ofNat_of_lt (by omega)

/-! ## The locals of the loop -/

section Locals

variable {σ : Type} (machine : Machine kernelInterface σ)

/-- The state of the kernel after the first line of the test. -/
def afterOpening (bulkCount : Int32) (state : σ) : σ :=
  (machine (.printk .info (tag ++ ": TEST 2 - bulk %d-page allocation\n")
    [.int bulkCount.toInt]) state).2

/-- The answer to the request for the tracking array, and the state after it. -/
def arrayReply (bulkCount : Int32) (state : σ) : Option Pointer × σ :=
  machine (.kmallocArray bulkCount.toInt64.toUInt64 8 gfpKernel)
    (afterOpening machine bulkCount state)

/-- The allocating loop, up to some round. -/
def bulkLoop (seen : Nat) : Module Bulk :=
  Program.forCount bulkRound 0 seen ⟨[], 0, 0⟩

/-- With its array the test starts with the first rounds of its loop. -/
theorem bulkLoop_prefix {bulkCount : Int32} {state : σ} {array : Pointer}
    (obtained : (arrayReply machine bulkCount state).1 = some array) {seen : Nat}
    (inside : seen ≤ rounds bulkCount) :
    ∃ opening rest, (machine.run (testBulkAllocation bulkCount) state).trace = line opening ::
        ⟨.kmallocArray bulkCount.toInt64.toUInt64 8 gfpKernel, some array⟩ :: rest ∧
      (machine.run (bulkLoop seen) (arrayReply machine bulkCount state).2).trace <+: rest := by
  have answered := obtained
  unfold arrayReply afterOpening at answered
  unfold testBulkAllocation
  simp only [prInfo_bind, kmallocArray_bind, Machine.run_call, answered, expectPointer]
  refine ⟨(_, _, _), _, rfl, List.IsPrefix.trans ?_ (Machine.trace_prefix_bind machine _ _ _)⟩
  obtain ⟨others, total⟩ := Nat.exists_eq_add_of_le inside
  rw [total, Program.forCount_add]
  exact Machine.trace_prefix_bind machine _ _ _

theorem bulkAlloc_map_injective : Function.Injective (List.map bulkAlloc) := by
  intro first second same
  have answers := congrArg bulkAnswers same
  rwa [bulkAnswers_map_bulkAlloc, bulkAnswers_map_bulkAlloc] at answers

/-- The locals after some rounds, from the answers of the whole test. -/
theorem run_bulkLoop {bulkCount : Int32} {state : σ} {array : Pointer}
    (obtained : (arrayReply machine bulkCount state).1 = some array)
    {opening summary closing : Level × String × List Arg} {tracking : Pointer}
    {received : List (Option Folio)} (total : received.length = rounds bulkCount)
    (traceEq : (machine.run (testBulkAllocation bulkCount) state).trace =
      bulkTrace bulkCount opening summary closing tracking received) {seen : Nat}
    (inside : seen ≤ rounds bulkCount) :
    (machine.run (bulkLoop seen) (arrayReply machine bulkCount state).2).result =
      some (bulkAfter (received.take seen)) := by
  obtain ⟨_, rest, split, isPrefix⟩ := bulkLoop_prefix machine obtained inside
  rw [traceEq, bulkTrace] at split
  obtain rfl := (List.cons.inj (List.cons.inj split).2).2
  have run := machine.run_runs (bulkLoop seen) (arrayReply machine bulkCount state).2
  have ensured : machine.Ensures (bulkLoop seen) (fun _ _ => True)
      (arrayReply machine bulkCount state).2 :=
    Machine.ensures_forCount (fun _ _ _ => True)
      (fun index bulk state _ _ => ensures_bulkRound_true machine index bulk state) trivial
  obtain ⟨bulk, returned, -⟩ := ensured.run_result
  rw [returned] at run
  obtain ⟨answers, count, answersEq, rfl⟩ := runs_bulkLoop run
  rw [answersEq, List.prefix_iff_eq_take, List.length_map, count,
    List.take_append_of_le_length (by rw [List.length_map]; omega), ← List.map_take] at isPrefix
  rw [returned, bulkAlloc_map_injective isPrefix, bulkAfter]

end Locals

/-- For every page allocator and every `bulk_count` for which the tracking array
is obtained: the test returns, it returns `0` exactly when every answer was a
folio on node 1 in `ZONE_LTRAM`, and it has put every folio and freed the array
exactly once.  After any number of rounds the counters of the loop are the true
counts of what it was answered. -/
theorem testBulkAllocation_exact {σ : Type} (machine : Machine kernelInterface σ) (state : σ)
    (bulkCount : Int32) {array : Pointer}
    (obtained : (arrayReply machine bulkCount state).1 = some array)
    (limited : KmallocLimited machine) :
    let outcome := machine.run (testBulkAllocation bulkCount) state
    let answers := bulkAnswers outcome.trace
    ∃ code, outcome.result = some code ∧
      (answers.length : Int) = bulkCount.toInt ∧
      (code = 0 ↔ ∀ answer ∈ answers, ∃ folio : Folio, answer = some folio ∧
        folio.nid = 1 ∧ folio.zonenum = .ltram) ∧
      puts outcome.trace = answers.reduceOption ∧ freedArrays outcome.trace = [array] ∧
      Entry.Settled (ledger outcome.trace) ∧
      ∀ seen ≤ answers.length, ∃ bulk,
        (machine.run (bulkLoop seen) (arrayReply machine bulkCount state).2).result = some bulk ∧
          bulk.folios = answers.take seen ∧
          bulk.allocated.toInt = (answers.take seen).reduceOption.length ∧
          bulk.errors.toInt = misplacements (answers.take seen) := by
  intro outcome answers
  have run := machine.run_runs (testBulkAllocation bulkCount) state
  obtain ⟨code, returned, -⟩ := (ensures_testBulkAllocation_true machine bulkCount state).run_result
  rw [returned] at run
  have size : bulkCount.toInt64.toUInt64.toNat * 8 ≤ kmallocMaxSize :=
    limited _ _ _ _ _ obtained
  obtain ⟨nonneg, bounded⟩ := bulkCount_le_of_limited size
  have settled : Entry.Settled (ledger outcome.trace) :=
    (leaves_testBulkAllocation run).settled_iff.mpr rfl
  obtain ⟨_, _, split, -⟩ := bulkLoop_prefix machine obtained (Nat.zero_le _)
  rcases runs_testBulkAllocation run with ⟨opening, closing, traceEq, -⟩ |
    ⟨opening, tracking, received, summary, closing, traceEq, lengthEq, passed⟩
  · rw [traceEq] at split
    simp at split
  · change outcome.trace = bulkTrace bulkCount opening summary closing tracking received at traceEq
    obtain rfl : tracking = array := by
      change outcome.trace = _ at split
      rw [traceEq, bulkTrace] at split
      simpa using (List.cons.inj (List.cons.inj split).2).1
    have answersEq : answers = received := by
      simp only [answers, traceEq, bulkAnswers_bulkTrace]
    have count : (answers.length : Int) = bulkCount.toInt := by
      rw [answersEq, lengthEq, rounds]
      exact Int.toNat_of_nonneg nonneg
    refine ⟨code, returned, count, ?_, ?_, ?_, settled, ?_⟩
    · rw [passed, answersEq]
      exact bulkAfter_verdict_iff lengthEq nonneg
    · rw [traceEq, puts_bulkTrace, answersEq]
    · rw [traceEq, freedArrays_bulkTrace]
    · intro seen inside
      have few : (answers.take seen).length < 2 ^ 30 := by
        have shorter := List.length_take_le' seen answers
        unfold kmallocMaxSize at bounded
        omega
      have locals := run_bulkLoop machine obtained lengthEq traceEq
        (lengthEq ▸ answersEq ▸ inside)
      rw [← answersEq] at locals
      obtain ⟨allocated, errors⟩ := bulkAfter_counters few
      exact ⟨_, locals, by rw [bulkAfter_eq], allocated, errors⟩

/-- A kernel whose `kmalloc_array` keeps to its limit. -/
def limitedKernel (place : Site → Int × Zone) : Machine kernelInterface Nat
  | .kmallocArray count size _, next =>
      (if count.toNat * size.toNat ≤ kmallocMaxSize then some 8 else none, next)
  | request, next => stubKernel place request next

theorem limitedKernel_limited (place : Site → Int × Zone) : KmallocLimited (limitedKernel place) := by
  intro count size gfp state array
  by_cases fits : count.toNat * size.toNat ≤ kmallocMaxSize
  · exact fun _ => fits
  · simp [limitedKernel, fits]

/-- With every folio in its place the test passes, all three are put and the array
is freed; after two rounds two folios are counted. -/
theorem testBulkAllocation_exact_three :
    let outcome := (limitedKernel correctPlace).run (testBulkAllocation 3) 1
    outcome.result = some 0 ∧
      puts outcome.trace = [⟨1, 1, .ltram, 0⟩, ⟨2, 1, .ltram, 0⟩, ⟨3, 1, .ltram, 0⟩] ∧
      freedArrays outcome.trace = [8] ∧ Entry.Settled (ledger outcome.trace) ∧
      ∃ bulk, ((limitedKernel correctPlace).run (bulkLoop 2) 1).result = some bulk ∧
        bulk.allocated.toInt = 2 ∧ bulk.errors.toInt = 0 := by
  intro outcome
  have obtained : (arrayReply (limitedKernel correctPlace) 3 1).1 = some 8 := rfl
  obtain ⟨code, returned, -, passed, put, freed, settled, locals⟩ :=
    testBulkAllocation_exact (limitedKernel correctPlace) 1 3 obtained
      (limitedKernel_limited correctPlace)
  have placed : bulkAnswers outcome.trace =
      [some ⟨1, 1, .ltram, 0⟩, some ⟨2, 1, .ltram, 0⟩, some ⟨3, 1, .ltram, 0⟩] := by
    decide
  have zero : code = 0 := by
    rw [passed, placed]
    simp
  rw [placed] at put locals
  obtain ⟨bulk, seen, -, allocated, errors⟩ := locals 2 (by decide)
  exact ⟨zero ▸ returned, put, freed, settled, bulk, seen, allocated, errors⟩

end LtramBench.Smoketest
