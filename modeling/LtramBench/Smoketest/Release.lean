import LtramBench.Interaction.Ledger
import LtramBench.Smoketest.Bulk

/-!
# What the suite releases

Folios and tracking arrays are followed through a ledger.  The bulk test gives
everything back on every path, but the other tests leave through `EXPECT` while
they hold a folio.  The suite therefore settles its ledger exactly when no
answer of the kernel fails a check that is made with a folio in hand.
-/

namespace LtramBench.Smoketest

open LtramBench.Interaction LtramBench.Kernel

/-- What the tests have to give back. -/
inductive Resource where
  | folio (folio : Folio)
  | array (array : Pointer)
  deriving DecidableEq

/-- The ledger lines of one event. -/
def entries : Event kernelInterface → List (Entry Resource)
  | ⟨.folioAlloc _ _ _, some folio⟩ => [.acquire (.folio folio)]
  | ⟨.folioPut folio, _⟩ => [.release (.folio folio)]
  | ⟨.kmallocArray _ _ _, some array⟩ => [.acquire (.array array)]
  | ⟨.kfree array, _⟩ => [.release (.array array)]
  | _ => []

/-- The ledger of a trace. -/
def ledger (trace : List (Event kernelInterface)) : List (Entry Resource) :=
  trace.flatMap entries

/-- The answer passes every check that is made after a folio was obtained and
before it is put: the node and zone in test 1, the address and the value read
back in test 3, zone and node in test 4, the zone in test 5, the node of the
second folio in test 6. -/
def Kept : Event kernelInterface → Prop
  | ⟨.folioAlloc .singlePage _ _, some folio⟩ => folio.nid = 1 ∧ folio.zonenum = .ltram
  | ⟨.folioAddress _, address⟩ => (address : Option Pointer) ≠ none
  | ⟨.load .compared _, seen⟩ => (seen : UInt32) = pattern
  | ⟨.folioAlloc .kernelAlloc _ _, some folio⟩ => folio.zonenum ≠ .ltram ∧ folio.nid = 0
  | ⟨.folioAlloc .highuserAlloc _ _, some folio⟩ => folio.zonenum ≠ .ltram
  | ⟨.folioAlloc .secondAlloc _ _, some folio⟩ => folio.nid = 1
  | _ => True

@[simp]
theorem ledger_nil : ledger [] = [] :=
  rfl

@[simp]
theorem ledger_cons (event : Event kernelInterface) (trace : List (Event kernelInterface)) :
    ledger (event :: trace) = entries event ++ ledger trace :=
  rfl

@[simp]
theorem ledger_append (first second : List (Event kernelInterface)) :
    ledger (first ++ second) = ledger first ++ ledger second :=
  List.flatMap_append

/-- Every completed run of the program gives back all it obtained exactly when
all answers are kept. -/
def Accounts {α : Type} (program : Module α) : Prop :=
  ∀ trace value, program.Runs trace (some value) →
    ∃ leaked, Entry.Leaves (ledger trace) leaked ∧ (leaked = 0 ↔ ∀ event ∈ trace, Kept event)

theorem Accounts.bind {α β : Type} {program : Module α} {next : α → Module β}
    (first : Accounts program) (second : ∀ value, Accounts (next value)) :
    Accounts (program >>= next) := by
  intro trace value run
  obtain ⟨before, middle, after, rfl, left, right⟩ :=
    (Program.runs_bind_some_iff program next trace value).mp run
  obtain ⟨leakedLeft, leavesLeft, keptLeft⟩ := first before middle left
  obtain ⟨leakedRight, leavesRight, keptRight⟩ := second middle after value right
  refine ⟨leakedLeft + leakedRight, ?_, ?_⟩
  · rw [ledger_append]
    exact leavesLeft.append leavesRight
  · rw [← Multiset.card_eq_zero, Multiset.card_add, Nat.add_eq_zero_iff, Multiset.card_eq_zero,
      Multiset.card_eq_zero, keptLeft, keptRight]
    simp only [List.mem_append, or_imp, forall_and]

theorem accounts_done {α : Type} (value : α) : Accounts (.done value : Module α) := by
  intro trace result run
  rw [((Program.runs_done_iff _ _ _).mp run).1]
  exact ⟨0, Entry.leaves_nil, by simp⟩

theorem accounts_printk (level : Level) (format : String) (args : List Arg) :
    Accounts (.perform (I := kernelInterface) (.printk level format args)) := by
  intro trace value run
  obtain ⟨_, rest, rfl, last⟩ := (Program.runs_call_iff _ _ _ _).mp run
  rw [((Program.runs_done_iff _ _ _).mp last).1]
  exact ⟨0, Entry.leaves_nil, by simp [Kept]⟩

/-! ## Test by test -/

theorem kept_of_neutral {trace : List (Event kernelInterface)}
    (neutral : Entry.Leaves (ledger trace) 0) (kept : ∀ event ∈ trace, Kept event) :
    ∃ leaked, Entry.Leaves (ledger trace) leaked ∧
      (leaked = 0 ↔ ∀ event ∈ trace, Kept event) :=
  ⟨0, neutral, iff_of_true rfl kept⟩

theorem not_kept_of_leak {trace : List (Event kernelInterface)} {resource : Resource}
    (leak : Entry.Leaves (ledger trace) {resource}) (event : Event kernelInterface)
    (member : event ∈ trace) (rejected : ¬ Kept event) :
    ∃ leaked, Entry.Leaves (ledger trace) leaked ∧
      (leaked = 0 ↔ ∀ event ∈ trace, Kept event) := by
  refine ⟨{resource}, leak, iff_of_false (Multiset.singleton_ne_zero resource) ?_⟩
  intro kept
  exact rejected (kept event member)

/-- A folio obtained and put again. -/
theorem leaves_alloc_put (folio : Folio) :
    Entry.Leaves [.acquire (Resource.folio folio), .release (Resource.folio folio)] 0 :=
  Entry.leaves_acquire_release (Resource.folio folio) Entry.leaves_nil

/-- A folio obtained and not put. -/
theorem leaves_alloc (folio : Folio) :
    Entry.Leaves [.acquire (Resource.folio folio)] {Resource.folio folio} :=
  Entry.leaves_acquire (Resource.folio folio)

theorem accounts_testSinglePage : Accounts testSinglePage := by
  intro trace code run
  simp only [testSinglePage, prInfo_bind, folioAlloc_bind, folioPut_bind, Program.pure_eq_done,
    Program.runs_call_iff, Program.runs_done_iff, runs_expectPointer_iff, runs_expect_iff] at run
  obtain ⟨_, _, rfl, answer, _, rfl, run⟩ := run
  rcases run with ⟨folio, rfl, _, _, rfl, run⟩ | ⟨rfl, rfl, -⟩
  · rcases run with ⟨node, ⟨zone, _, _, rfl, _, _, rfl, rfl, -⟩ | ⟨zone, rfl, -⟩⟩ | ⟨node, rfl, -⟩
    · exact kept_of_neutral (leaves_alloc_put folio) (by simp [Kept, node, zone])
    · exact not_kept_of_leak (leaves_alloc folio)
        ⟨.folioAlloc .singlePage ltramGfp 0, some folio⟩ (by simp) fun kept => zone kept.2
    · exact not_kept_of_leak (leaves_alloc folio)
        ⟨.folioAlloc .singlePage ltramGfp 0, some folio⟩ (by simp) fun kept => node kept.1
  · exact kept_of_neutral Entry.leaves_nil (by simp [Kept, failLine])

theorem accounts_testWriteThenRead : Accounts testWriteThenRead := by
  intro trace code run
  simp only [testWriteThenRead, prInfo_bind, folioAlloc_bind, folioAddress_bind, folioPut_bind,
    store_bind, load_bind, Program.pure_eq_done, Program.runs_call_iff,
    runs_expectPointer_iff] at run
  obtain ⟨_, _, rfl, answer, _, rfl, run⟩ := run
  rcases run with ⟨folio, rfl, address, _, rfl, run⟩ | ⟨rfl, rfl, -⟩
  · rcases run with ⟨kva, rfl, _, _, rfl, seen, _, rfl, run⟩ | ⟨rfl, rfl, -⟩
    · by_cases readBack : seen = pattern
      · rw [if_pos readBack] at run
        simp only [Program.runs_call_iff, Program.runs_done_iff] at run
        obtain ⟨_, _, rfl, _, _, rfl, _, _, rfl, rfl, -⟩ := run
        exact kept_of_neutral (leaves_alloc_put folio) (by simp [Kept, readBack])
      · rw [if_neg readBack] at run
        simp only [Program.runs_call_iff, runs_expectFail_iff] at run
        obtain ⟨_, _, rfl, rfl, -⟩ := run
        exact not_kept_of_leak (leaves_alloc folio)
          ⟨.load .compared kva, seen⟩ (by simp) readBack
    · exact not_kept_of_leak (leaves_alloc folio)
        ⟨.folioAddress folio, none⟩ (by simp) fun kept => kept rfl
  · exact kept_of_neutral Entry.leaves_nil (by simp [Kept, failLine])

theorem accounts_testKernelAllocAvoidsLtram : Accounts testKernelAllocAvoidsLtram := by
  intro trace code run
  simp only [testKernelAllocAvoidsLtram, prInfo_bind, folioAlloc_bind, folioPut_bind,
    Program.pure_eq_done, Program.runs_call_iff, Program.runs_done_iff, runs_expectPointer_iff,
    runs_expect_iff] at run
  obtain ⟨_, _, rfl, answer, _, rfl, run⟩ := run
  rcases run with ⟨folio, rfl, _, _, rfl, run⟩ | ⟨rfl, rfl, -⟩
  · rcases run with ⟨zone, ⟨node, _, _, rfl, _, _, rfl, rfl, -⟩ | ⟨node, rfl, -⟩⟩ | ⟨zone, rfl, -⟩
    · exact kept_of_neutral (leaves_alloc_put folio) (by simp [Kept, node, zone])
    · exact not_kept_of_leak (leaves_alloc folio)
        ⟨.folioAlloc .kernelAlloc gfpKernel 0, some folio⟩ (by simp) fun kept => node kept.2
    · exact not_kept_of_leak (leaves_alloc folio)
        ⟨.folioAlloc .kernelAlloc gfpKernel 0, some folio⟩ (by simp) fun kept => zone kept.1
  · exact kept_of_neutral Entry.leaves_nil (by simp [Kept, failLine])

theorem accounts_testHighuserAllocAvoidsLtram : Accounts testHighuserAllocAvoidsLtram := by
  intro trace code run
  simp only [testHighuserAllocAvoidsLtram, prInfo_bind, folioAlloc_bind, folioPut_bind,
    Program.pure_eq_done, Program.runs_call_iff, Program.runs_done_iff, runs_expectPointer_iff,
    runs_expect_iff] at run
  obtain ⟨_, _, rfl, answer, _, rfl, run⟩ := run
  rcases run with ⟨folio, rfl, run⟩ | ⟨rfl, rfl, -⟩
  · rcases run with ⟨zone, _, _, rfl, _, _, rfl, rfl, -⟩ | ⟨zone, rfl, -⟩
    · exact kept_of_neutral (leaves_alloc_put folio) (by simp [Kept, zone])
    · exact not_kept_of_leak (leaves_alloc folio)
        ⟨.folioAlloc .highuserAlloc gfpHighuser 0, some folio⟩ (by simp) fun kept => zone kept
  · exact kept_of_neutral Entry.leaves_nil (by simp [Kept, failLine])

theorem accounts_testAllocFreeRealloc : Accounts testAllocFreeRealloc := by
  intro trace code run
  simp only [testAllocFreeRealloc, prInfo_bind, folioAlloc_bind, folioAddress_bind,
    folioPut_bind, Program.pure_eq_done, Program.runs_call_iff, runs_expectPointer_iff] at run
  obtain ⟨_, _, rfl, answer, _, rfl, run⟩ := run
  rcases run with ⟨first, rfl, address, _, rfl, run⟩ | ⟨rfl, rfl, -⟩
  · cases address with
    | none => simp at run
    | some kva =>
        simp only [memset_some_bind, Program.runs_call_iff, Program.runs_done_iff,
          runs_expectPointer_iff, runs_expect_iff] at run
        obtain ⟨_, _, rfl, _, _, rfl, _, _, rfl, second, _, rfl, run⟩ := run
        have returned := leaves_alloc_put first
        rcases run with ⟨folio, rfl, ⟨node, _, _, rfl, _, _, rfl, rfl, -⟩ | ⟨node, rfl, -⟩⟩ |
          ⟨rfl, rfl, -⟩
        · exact kept_of_neutral (returned.append_of_neutral (leaves_alloc_put folio))
            (by simp [Kept, node])
        · exact not_kept_of_leak (returned.append_of_neutral (leaves_alloc folio))
            ⟨.folioAlloc .secondAlloc ltramGfp 0, some folio⟩ (by simp) node
        · exact kept_of_neutral returned (by simp [Kept, failLine])
  · exact kept_of_neutral Entry.leaves_nil (by simp [Kept, failLine])

theorem ledger_map_bulkAlloc (answers : List (Option Folio)) :
    ledger (answers.map bulkAlloc) =
      (answers.reduceOption.map Resource.folio).map Entry.acquire := by
  induction answers with
  | nil => rfl
  | cons answer rest ih =>
      rw [List.map_cons, ledger_cons, ih]
      cases answer <;> rfl

theorem ledger_map_put (folios : List Folio) :
    ledger (folios.map put) = (folios.map Resource.folio).map Entry.release := by
  induction folios with
  | nil => rfl
  | cons folio rest ih =>
      rw [List.map_cons, ledger_cons, ih]
      rfl

/-- The bulk test holds the array around both loops, and the second loop puts
what the first one obtained. -/
theorem leaves_bulk (array : Pointer) (answers : List (Option Folio)) :
    Entry.Leaves (.acquire (Resource.array array) ::
      ((ledger (answers.map bulkAlloc) ++ ledger (answers.reduceOption.map put)) ++
        [.release (Resource.array array)])) 0 := by
  rw [ledger_map_bulkAlloc, ledger_map_put]
  exact Entry.leaves_acquire_release _ (Entry.leaves_acquire_all_release_perm (.refl _))

/-- The bulk test gives everything back, whatever the kernel answers. -/
theorem leaves_testBulkAllocation {bulkCount : Int32} {trace : List (Event kernelInterface)}
    {code : Int} (run : (testBulkAllocation bulkCount).Runs trace (some code)) :
    Entry.Leaves (ledger trace) 0 := by
  rcases runs_testBulkAllocation run with ⟨opening, closing, rfl, -⟩ |
    ⟨opening, array, answers, summary, closing, rfl, -, -⟩
  · exact Entry.leaves_nil
  · have balanced := leaves_bulk array answers
    simpa [line, entries] using balanced

theorem accounts_testBulkAllocation (bulkCount : Int32) :
    Accounts (testBulkAllocation bulkCount) := by
  intro trace code run
  apply kept_of_neutral (leaves_testBulkAllocation run)
  rcases runs_testBulkAllocation run with ⟨opening, closing, rfl, -⟩ |
    ⟨opening, array, answers, summary, closing, rfl, -, -⟩
  · simp [Kept, line]
  · have kept : ∀ answer ∈ answers, Kept (bulkAlloc answer) := by
      intro answer _
      cases answer <;> trivial
    simp only [List.mem_cons, List.mem_append, List.mem_map]
    rintro event (rfl | rfl | ⟨answer, member, rfl⟩ | rfl | ⟨folio, -, rfl⟩ | rfl | rfl | absurd)
    · trivial
    · trivial
    · exact kept answer member
    · trivial
    · trivial
    · trivial
    · trivial
    · simp at absurd

/-! ## The suite -/

theorem accounts_verdict (fails : Int32) : Accounts (verdict fails) := by
  unfold verdict
  split
  · exact accounts_printk .info _ _
  · exact accounts_printk .err _ _

theorem accounts_ltramSmoketestInit (bulkCount : Int32) :
    Accounts (ltramSmoketestInit bulkCount) := by
  apply (accounts_printk .info _ _).bind fun _ => ?_
  apply (accounts_printk .info _ _).bind fun _ => ?_
  apply accounts_testSinglePage.bind fun _ => ?_
  apply (accounts_testBulkAllocation bulkCount).bind fun _ => ?_
  apply accounts_testWriteThenRead.bind fun _ => ?_
  apply accounts_testKernelAllocAvoidsLtram.bind fun _ => ?_
  apply accounts_testHighuserAllocAvoidsLtram.bind fun _ => ?_
  apply accounts_testAllocFreeRealloc.bind fun _ => ?_
  apply (accounts_printk .info _ _).bind fun _ => ?_
  apply (accounts_printk .info _ _).bind fun _ => ?_
  apply (accounts_verdict _).bind fun _ => ?_
  exact accounts_done _

/-- For every behaviour of the kernel and every `bulk_count`, a suite that
returns has put every folio and freed the array exactly once, exactly when no
answer failed a check that is made with a folio in hand. -/
theorem settled_ltramSmoketestInit_iff {bulkCount : Int32}
    {trace : List (Event kernelInterface)} {report : Report}
    (run : (ltramSmoketestInit bulkCount).Runs trace (some report)) :
    Entry.Settled (ledger trace) ↔ ∀ event ∈ trace, Kept event := by
  obtain ⟨leaked, leaves, leakedIff⟩ := accounts_ltramSmoketestInit bulkCount trace report run
  rw [leaves.settled_iff, leakedIff]

/-- A kernel with memory to spare whose allocations land where `place` says. -/
def stubKernel (place : Site → Int × Zone) : Machine kernelInterface Nat
  | .folioAlloc site _ order, next =>
      (some { pfn := next, nid := (place site).1, zonenum := (place site).2, order := order },
        next + 1)
  | .folioAddress folio, next => (some (folio.pfn * pageSize), next)
  | .kmallocArray _ _ _, next => (some 8, next)
  | .load _ _, next => (pattern, next)
  | .printk _ _ _, next => ((), next)
  | .folioPut _, next => ((), next)
  | .kfree _, next => ((), next)
  | .store _ _, next => ((), next)
  | .memset _ _ _, next => ((), next)

/-- Where a correct kernel places the folios of each test. -/
def correctPlace : Site → Int × Zone
  | .kernelAlloc => (0, .other 2)
  | .highuserAlloc => (0, .other 2)
  | _ => (1, .ltram)

/-- With every folio where it belongs the ledger is settled and all answers are
kept. -/
theorem settled_ltramSmoketestInit_correctPlace :
    Entry.Settled (ledger ((stubKernel correctPlace).run (ltramSmoketestInit 2) 1).trace) ∧
      ∀ event ∈ ((stubKernel correctPlace).run (ltramSmoketestInit 2) 1).trace, Kept event := by
  have run := (stubKernel correctPlace).run_runs (ltramSmoketestInit 2) 1
  have returned : ((stubKernel correctPlace).run (ltramSmoketestInit 2) 1).result =
      some ⟨6, 0, [0, 0, 0, 0, 0, 0]⟩ := by
    decide
  rw [returned] at run
  have settled :
      Entry.Settled (ledger ((stubKernel correctPlace).run (ltramSmoketestInit 2) 1).trace) := by
    unfold Entry.Settled
    decide
  exact ⟨settled, (settled_ltramSmoketestInit_iff run).mp settled⟩

/-- A kernel that answers `LTRAM_GFP` from node 0 makes test 1 fail its node
check and keep the folio. -/
theorem ltramSmoketestInit_leaks :
    ((stubKernel fun _ => (0, .other 2)).run (ltramSmoketestInit 2) 1).result =
        some ⟨3, 3, [-EINVAL, -EINVAL, 0, 0, 0, -EINVAL]⟩ ∧
      ¬ Entry.Settled
        (ledger ((stubKernel fun _ => (0, .other 2)).run (ltramSmoketestInit 2) 1).trace) := by
  constructor
  · decide
  · unfold Entry.Settled
    decide

end LtramBench.Smoketest
