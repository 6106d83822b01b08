import LtramBench.Smoketest.Release

/-!
# What a passing suite certifies

`fails = 0` means that all six tests returned `0`.  Tests 1 and 2 then vouch for
the node and the zone of their folios, tests 4 and 5 for the zone.  Test 3 only
checks that its page can be written and read, and test 6 only the node of the
page it gets back, so a suite that passes certifies less about those folios.
-/

namespace LtramBench.Smoketest

open LtramBench.Interaction LtramBench.Kernel

/-- The placement a reader expects of every allocation: `LTRAM_GFP` gives a
folio on node 1 in `ZONE_LTRAM`, any other mask one outside it. -/
def WellPlaced : Event kernelInterface → Prop
  | ⟨.folioAlloc _ gfp _, answer⟩ =>
      ∃ folio : Folio, answer = some folio ∧
        if gfp = ltramGfp then folio.nid = 1 ∧ folio.zonenum = .ltram
        else folio.zonenum ≠ .ltram
  | _ => True

/-- What the checks of the six tests establish: as `WellPlaced`, but neither the
folio of test 3 nor the first folio of test 6 is checked, and of the second
folio of test 6 only the node. -/
def Certified : Event kernelInterface → Prop
  | ⟨.folioAlloc site gfp _, answer⟩ =>
      ∃ folio : Folio, answer = some folio ∧
        if gfp = ltramGfp then
          (site ≠ .writeThenRead → site ≠ .firstAlloc → folio.nid = 1) ∧
            (site = .singlePage ∨ site = .bulkAllocation → folio.zonenum = .ltram)
        else folio.zonenum ≠ .ltram
  | _ => True

/-- A test that passes certifies each of its allocations. -/
def Certifies (test : Module Int) : Prop :=
  ∀ trace, test.Runs trace (some 0) → ∀ event ∈ trace, Certified event

/-! ## Test by test -/

/-- A test that passes went on at every `EXPECT`. -/
theorem runs_expect_zero_iff (cond : Prop) [Decidable cond] (format : String) (args : List Arg)
    (rest : Module Int) (trace : List (Event kernelInterface)) :
    (expect cond format args rest).Runs trace (some 0) ↔ cond ∧ rest.Runs trace (some 0) := by
  rw [runs_expect_iff]
  simp [EINVAL]

theorem runs_expectPointer_zero_iff {α : Type} (pointer : Option α) (format : String)
    (rest : α → Module Int) (trace : List (Event kernelInterface)) :
    (expectPointer pointer format rest).Runs trace (some 0) ↔
      ∃ target, pointer = some target ∧ (rest target).Runs trace (some 0) := by
  rw [runs_expectPointer_iff]
  simp [EINVAL]

theorem certifies_testSinglePage : Certifies testSinglePage := by
  intro trace run
  simp only [testSinglePage, prInfo_bind, folioAlloc_bind, folioPut_bind, Program.pure_eq_done,
    Program.runs_call_iff, Program.runs_done_iff, runs_expectPointer_zero_iff,
    runs_expect_zero_iff] at run
  obtain ⟨_, _, rfl, _, _, rfl, folio, rfl, _, _, rfl, node, zone, _, _, rfl, _, _, rfl, rfl, -⟩ :=
    run
  simp [Certified, node, zone]

theorem certifies_testWriteThenRead : Certifies testWriteThenRead := by
  intro trace run
  simp only [testWriteThenRead, prInfo_bind, folioAlloc_bind, folioAddress_bind, folioPut_bind,
    store_bind, load_bind, Program.pure_eq_done, Program.runs_call_iff,
    runs_expectPointer_zero_iff] at run
  obtain ⟨_, _, rfl, _, _, rfl, folio, rfl, _, _, rfl, kva, rfl, _, _, rfl, seen, _, rfl, run⟩ := run
  by_cases readBack : seen = pattern
  · rw [if_pos readBack] at run
    simp only [Program.runs_call_iff, Program.runs_done_iff] at run
    obtain ⟨_, _, rfl, _, _, rfl, _, _, rfl, rfl, -⟩ := run
    simp [Certified]
  · rw [if_neg readBack] at run
    simp only [Program.runs_call_iff, runs_expectFail_iff] at run
    obtain ⟨_, _, -, -, failed⟩ := run
    simp [EINVAL] at failed

theorem certifies_testKernelAllocAvoidsLtram : Certifies testKernelAllocAvoidsLtram := by
  intro trace run
  simp only [testKernelAllocAvoidsLtram, prInfo_bind, folioAlloc_bind, folioPut_bind,
    Program.pure_eq_done, Program.runs_call_iff, Program.runs_done_iff,
    runs_expectPointer_zero_iff, runs_expect_zero_iff] at run
  obtain ⟨_, _, rfl, _, _, rfl, folio, rfl, _, _, rfl, zone, _, _, _, rfl, _, _, rfl, rfl, -⟩ := run
  simp [Certified, zone, gfpKernel, ltramGfp]

theorem certifies_testHighuserAllocAvoidsLtram : Certifies testHighuserAllocAvoidsLtram := by
  intro trace run
  simp only [testHighuserAllocAvoidsLtram, prInfo_bind, folioAlloc_bind, folioPut_bind,
    Program.pure_eq_done, Program.runs_call_iff, Program.runs_done_iff,
    runs_expectPointer_zero_iff, runs_expect_zero_iff] at run
  obtain ⟨_, _, rfl, _, _, rfl, folio, rfl, zone, _, _, rfl, _, _, rfl, rfl, -⟩ := run
  simp [Certified, zone, gfpHighuser, ltramGfp]

theorem certifies_testAllocFreeRealloc : Certifies testAllocFreeRealloc := by
  intro trace run
  simp only [testAllocFreeRealloc, prInfo_bind, folioAlloc_bind, folioAddress_bind,
    folioPut_bind, Program.pure_eq_done, Program.runs_call_iff, runs_expectPointer_zero_iff] at run
  obtain ⟨_, _, rfl, _, _, rfl, first, rfl, address, _, rfl, run⟩ := run
  cases address with
  | none => simp at run
  | some kva =>
      simp only [memset_some_bind, Program.runs_call_iff, Program.runs_done_iff,
        runs_expectPointer_zero_iff, runs_expect_zero_iff] at run
      obtain ⟨_, _, rfl, _, _, rfl, _, _, rfl, _, _, rfl, second, rfl, node, _, _, rfl, _, _, rfl,
        rfl, -⟩ := run
      simp [Certified, node]

/-! ## The bulk test -/

/-- Below `2 ^ 32` a wrapped counter is zero only if nothing was counted. -/
theorem int32_ofNat_eq_zero_iff {count : Nat} (bound : count < 2 ^ 32) :
    Int32.ofNat count = 0 ↔ count = 0 := by
  rw [← Int32.toInt_inj, Int32.toInt_ofNat', Int32.toInt_zero]
  constructor
  · intro wrapped
    have divides : ((2 ^ 32 : Nat) : Int) ∣ count := Int.dvd_of_bmod_eq_zero wrapped
    exact Nat.eq_zero_of_dvd_of_lt (Int.natCast_dvd_natCast.mp divides) bound
  · rintro rfl
    rfl

/-- The 32-bit verdict of the bulk test is the true one: `allocated` stays below
`2 ^ 31`, and `errors` counts at most two for each round and cannot wrap back to
zero. -/
theorem bulkAfter_verdict_iff {bulkCount : Int32} {answers : List (Option Folio)}
    (lengthEq : answers.length = rounds bulkCount) (nonneg : 0 ≤ bulkCount.toInt) :
    (bulkAfter answers).allocated = bulkCount ∧ (bulkAfter answers).errors = 0 ↔
      ∀ answer ∈ answers, ∃ folio : Folio, answer = some folio ∧
        folio.nid = 1 ∧ folio.zonenum = .ltram := by
  have countLt := bulkCount.toInt_lt
  have obtainedLe := List.reduceOption_length_le answers
  have errorsLe := misplacements_le answers
  unfold rounds at lengthEq
  have allocatedIff : Int32.ofNat answers.reduceOption.length = bulkCount ↔
      ∀ answer ∈ answers, answer.isSome := by
    rw [← List.reduceOption_length_eq_iff, ← Int32.toInt_inj,
      Int32.toInt_ofNat_of_lt (by omega)]
    omega
  rw [bulkAfter_eq, allocatedIff, int32_ofNat_eq_zero_iff (by omega), misplacements_eq_zero_iff]
  constructor
  · rintro ⟨all, placed⟩ answer member
    obtain ⟨folio, rfl⟩ := Option.isSome_iff_exists.mp (all answer member)
    exact ⟨folio, rfl, placed folio member⟩
  · intro good
    constructor
    · intro answer member
      obtain ⟨folio, rfl, -⟩ := good answer member
      rfl
    · intro folio member
      obtain ⟨_, same, placed⟩ := good (some folio) member
      cases same
      exact placed

theorem certifies_testBulkAllocation (bulkCount : Int32) :
    Certifies (testBulkAllocation bulkCount) := by
  intro trace run
  rcases runs_testBulkAllocation run with ⟨_, _, -, failed⟩ |
    ⟨opening, array, answers, summary, closing, rfl, lengthEq, passed⟩
  · simp [EINVAL] at failed
  · have counted := passed.mp rfl
    have nonneg : 0 ≤ bulkCount.toInt := by
      by_contra negative
      have empty : answers = [] := List.length_eq_zero_iff.mp (by unfold rounds at lengthEq; omega)
      have allocated := counted.1
      rw [empty] at allocated
      rw [← allocated] at negative
      exact negative (by decide)
    have good := (bulkAfter_verdict_iff lengthEq nonneg).mp counted
    simp only [List.mem_cons, List.mem_append, List.mem_map]
    rintro event (rfl | rfl | ⟨answer, member, rfl⟩ | rfl | ⟨folio, -, rfl⟩ | rfl | rfl | absurd)
    · trivial
    · trivial
    · obtain ⟨folio, rfl, node, zone⟩ := good answer member
      exact ⟨folio, rfl, by simp [node, zone]⟩
    · trivial
    · trivial
    · trivial
    · trivial
    · simp at absurd

/-! ## The suite -/

/-- `fails` is the number of tests that did not return `0`. -/
theorem foldl_tally_snd (codes : List Int) (counts : Int32 × Int32) :
    (codes.foldl tally counts).2 =
      counts.2 + Int32.ofNat (codes.countP fun code => decide (code ≠ 0)) := by
  induction codes generalizing counts with
  | nil => simp
  | cons code rest ih =>
      rw [List.foldl_cons, ih]
      by_cases passed : code = 0
      · simp [tally, passed]
      · simp [tally, passed, Int32.add_assoc, Int32.add_comm]

theorem foldl_tally_snd_eq_zero_iff {codes : List Int} (short : codes.length < 2 ^ 32) :
    (codes.foldl tally (0, 0)).2 = 0 ↔ ∀ code ∈ codes, code = 0 := by
  have bound : (codes.countP fun code => decide (code ≠ 0)) < 2 ^ 32 :=
    lt_of_le_of_lt List.countP_le_length short
  rw [foldl_tally_snd, Int32.zero_add, int32_ofNat_eq_zero_iff bound, List.countP_eq_zero]
  simp

theorem runs_verdict {fails : Int32} {trace : List (Event kernelInterface)}
    (run : (verdict fails).Runs trace (some ())) : ∃ text, trace = [line text] := by
  unfold verdict at run
  split at run
  · obtain ⟨_, _, rfl, last⟩ := (Program.runs_call_iff _ _ _ _).mp run
    exact ⟨(_, _, _), by rw [((Program.runs_done_iff _ _ _).mp last).1]; rfl⟩
  · obtain ⟨_, _, rfl, last⟩ := (Program.runs_call_iff _ _ _ _).mp run
    exact ⟨(_, _, _), by rw [((Program.runs_done_iff _ _ _).mp last).1]; rfl⟩

/-- A completed suite is a completed run of each test, in order, between log
lines. -/
theorem runs_ltramSmoketestInit {bulkCount : Int32} {trace : List (Event kernelInterface)}
    {report : Report} (run : (ltramSmoketestInit bulkCount).Runs trace (some report)) :
    ∃ single bulk write kernel highuser realloc codes opening closing,
      trace = List.map line opening ++ (single ++ (bulk ++ (write ++ (kernel ++ (highuser ++
        (realloc ++ List.map line closing)))))) ∧
      report.codes = codes ∧ report.lastFailCount = (codes.foldl tally (0, 0)).2 ∧
      ∃ c₁ c₂ c₃ c₄ c₅ c₆, codes = [c₁, c₂, c₃, c₄, c₅, c₆] ∧
        testSinglePage.Runs single (some c₁) ∧
        (testBulkAllocation bulkCount).Runs bulk (some c₂) ∧
        testWriteThenRead.Runs write (some c₃) ∧
        testKernelAllocAvoidsLtram.Runs kernel (some c₄) ∧
        testHighuserAllocAvoidsLtram.Runs highuser (some c₅) ∧
        testAllocFreeRealloc.Runs realloc (some c₆) := by
  simp only [ltramSmoketestInit, prInfo_bind, Program.runs_call_iff] at run
  obtain ⟨_, _, rfl, _, _, rfl, tests⟩ := run
  obtain ⟨single, c₁, _, rfl, singleRun, fromBulk⟩ := (Program.runs_bind_some_iff _ _ _ _).mp tests
  obtain ⟨bulk, c₂, _, rfl, bulkRun, fromWrite⟩ :=
    (Program.runs_bind_some_iff _ _ _ _).mp fromBulk
  obtain ⟨write, c₃, _, rfl, writeRun, fromKernel⟩ :=
    (Program.runs_bind_some_iff _ _ _ _).mp fromWrite
  obtain ⟨kernel, c₄, _, rfl, kernelRun, fromHighuser⟩ :=
    (Program.runs_bind_some_iff _ _ _ _).mp fromKernel
  obtain ⟨highuser, c₅, _, rfl, highuserRun, fromRealloc⟩ :=
    (Program.runs_bind_some_iff _ _ _ _).mp fromHighuser
  obtain ⟨realloc, c₆, _, rfl, reallocRun, ending⟩ :=
    (Program.runs_bind_some_iff _ _ _ _).mp fromRealloc
  simp only [Program.runs_call_iff] at ending
  obtain ⟨_, _, rfl, _, _, rfl, judging⟩ := ending
  obtain ⟨_, _, _, rfl, verdictRun, last⟩ := (Program.runs_bind_some_iff _ _ _ _).mp judging
  obtain ⟨text, rfl⟩ := runs_verdict verdictRun
  obtain ⟨rfl, reported⟩ := (Program.runs_done_iff _ _ _).mp last
  obtain rfl := Option.some.inj reported
  exact ⟨single, bulk, write, kernel, highuser, realloc, _, [(_, _, _), (_, _, _)],
    [(_, _, _), (_, _, _), text], rfl, rfl, rfl, c₁, c₂, c₃, c₄, c₅, c₆, rfl, singleRun, bulkRun,
    writeRun, kernelRun, highuserRun, reallocRun⟩

/-- If the suite ends with no failure, every allocation it made is certified by
its own test. -/
theorem certified_of_lastFailCount_eq_zero {bulkCount : Int32}
    {trace : List (Event kernelInterface)} {report : Report}
    (run : (ltramSmoketestInit bulkCount).Runs trace (some report))
    (passed : report.lastFailCount = 0) : ∀ event ∈ trace, Certified event := by
  obtain ⟨single, bulk, write, kernel, highuser, realloc, codes, opening, closing, rfl, -, fails,
    c₁, c₂, c₃, c₄, c₅, c₆, rfl, singleRun, bulkRun, writeRun, kernelRun, highuserRun,
    reallocRun⟩ := runs_ltramSmoketestInit run
  rw [passed, eq_comm, foldl_tally_snd_eq_zero_iff (by simp)] at fails
  simp only [List.mem_cons, List.not_mem_nil, or_false, forall_eq_or_imp, forall_eq] at fails
  obtain ⟨rfl, rfl, rfl, rfl, rfl, rfl⟩ := fails
  have lines : ∀ texts : List (Level × String × List Arg),
      ∀ event ∈ texts.map line, Certified event := by
    intro texts event member
    obtain ⟨text, -, rfl⟩ := List.mem_map.mp member
    trivial
  intro event member
  simp only [List.mem_append] at member
  rcases member with member | member | member | member | member | member | member | member
  · exact lines opening event member
  · exact certifies_testSinglePage single singleRun event member
  · exact certifies_testBulkAllocation bulkCount bulk bulkRun event member
  · exact certifies_testWriteThenRead write writeRun event member
  · exact certifies_testKernelAllocAvoidsLtram kernel kernelRun event member
  · exact certifies_testHighuserAllocAvoidsLtram highuser highuserRun event member
  · exact certifies_testAllocFreeRealloc realloc reallocRun event member
  · exact lines closing event member

/-- A correct kernel passes, and everything it placed is certified. -/
theorem certified_of_correctPlace :
    ((stubKernel correctPlace).run (ltramSmoketestInit 2) 1).result =
        some ⟨6, 0, [0, 0, 0, 0, 0, 0]⟩ ∧
      ∀ event ∈ ((stubKernel correctPlace).run (ltramSmoketestInit 2) 1).trace,
        Certified event := by
  have run := (stubKernel correctPlace).run_runs (ltramSmoketestInit 2) 1
  have returned : ((stubKernel correctPlace).run (ltramSmoketestInit 2) 1).result =
      some ⟨6, 0, [0, 0, 0, 0, 0, 0]⟩ := by
    decide
  rw [returned] at run
  exact ⟨returned, certified_of_lastFailCount_eq_zero run rfl⟩

/-- A kernel that serves the unchecked allocations of tests 3 and 6 from node 0,
and the second one of test 6 from another zone of node 1. -/
def lenientPlace : Site → Int × Zone
  | .writeThenRead => (0, .other 2)
  | .firstAlloc => (0, .other 2)
  | .secondAlloc => (1, .other 2)
  | site => correctPlace site

/-- It passes all six tests although three `LTRAM_GFP` folios are not LtRAM. -/
theorem passes_with_lenientPlace :
    ((stubKernel lenientPlace).run (ltramSmoketestInit 2) 1).result =
        some ⟨6, 0, [0, 0, 0, 0, 0, 0]⟩ ∧
      ¬ ∀ event ∈ ((stubKernel lenientPlace).run (ltramSmoketestInit 2) 1).trace,
        WellPlaced event := by
  constructor
  · decide
  · intro placed
    have misplaced : (⟨.folioAlloc .writeThenRead ltramGfp 0, some ⟨4, 0, .other 2, 0⟩⟩ :
        Event kernelInterface) ∈
          ((stubKernel lenientPlace).run (ltramSmoketestInit 2) 1).trace :=
      List.mem_of_getElem? (i := 17) rfl
    obtain ⟨_, same, node, -⟩ := placed _ misplaced
    cases same
    exact absurd node (by decide)

end LtramBench.Smoketest
