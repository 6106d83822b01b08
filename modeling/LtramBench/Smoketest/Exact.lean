import LtramBench.Interaction.Ensures
import LtramBench.Smoketest.Verdict

/-!
# The suite on a correct allocator

A correct allocator serves `LTRAM_GFP` from a finite zone of LtRAM pages and
everything else from node 0.  It is described through the books a reader would
keep of it: how many LtRAM pages are free, which folios are out, and what was
last written to memory.  On such an allocator the suite is exact: which tests
fail depends only on `bulk_count` and on the number of free pages, and that
number is restored whatever the tests returned.
-/

namespace LtramBench.Smoketest

open LtramBench.Interaction LtramBench.Kernel

/-- What is recorded of the state of an allocator. -/
structure Books (σ : Type) where
  free : σ → Nat
  held : σ → Multiset Folio
  word : σ → Pointer → UInt32

/-- The state has `free` free LtRAM pages, and the folios `held` are out. -/
def Books.Show {σ : Type} (books : Books σ) (state : σ) (free : Nat) (held : Multiset Folio) :
    Prop :=
  books.free state = free ∧ books.held state = held

/-- The calls that neither take nor return a folio. -/
def KernelCall.Quiet : KernelCall → Prop
  | folioAlloc _ _ _ => False
  | folioPut _ => False
  | _ => True

/-- How many LtRAM pages a folio gives back. -/
def ltramPages (folio : Folio) : Nat :=
  if folio.zonenum = .ltram then 1 else 0

/-- The kernel the suite was written for. -/
structure CorrectAllocator {σ : Type} (machine : Machine kernelInterface σ) (books : Books σ) :
    Prop where
  ltram_some : ∀ site state free held, books.Show state (free + 1) held →
    ∃ folio : Folio, (machine (.folioAlloc site ltramGfp 0) state).1 = some folio ∧
      folio.nid = 1 ∧ folio.zonenum = .ltram ∧
        books.Show (machine (.folioAlloc site ltramGfp 0) state).2 free (folio ::ₘ held)
  ltram_none : ∀ site state held, books.Show state 0 held →
    (machine (.folioAlloc site ltramGfp 0) state).1 = none ∧
      books.Show (machine (.folioAlloc site ltramGfp 0) state).2 0 held
  ordinary : ∀ site gfp state free held, gfp = gfpKernel ∨ gfp = gfpHighuser →
    books.Show state free held →
      ∃ folio : Folio, (machine (.folioAlloc site gfp 0) state).1 = some folio ∧
        folio.nid = 0 ∧ folio.zonenum ≠ .ltram ∧
          books.Show (machine (.folioAlloc site gfp 0) state).2 free (folio ::ₘ held)
  put : ∀ folio state free held, books.Show state free (folio ::ₘ held) →
    books.Show (machine (.folioPut folio) state).2 (free + ltramPages folio) held
  quiet : ∀ request state free held, request.Quiet → books.Show state free held →
    books.Show (machine request state).2 free held
  address : ∀ folio state, folio ∈ books.held state →
    ∃ address, (machine (.folioAddress folio) state).1 = some address
  kmalloc_some : ∀ (count : UInt64) state, count.toNat < 2 ^ 31 →
    ∃ array, (machine (.kmallocArray count 8 gfpKernel) state).1 = some array
  kmalloc_none : ∀ (count size : UInt64) gfp state, 2 ^ 64 ≤ count.toNat * size.toNat →
    (machine (.kmallocArray count size gfp) state).1 = none
  word_store : ∀ address value state,
    books.word (machine (.store address value) state).2 address = value
  load_word : ∀ purpose address state,
    (machine (.load purpose address) state).1 = books.word state address

variable {σ : Type} {machine : Machine kernelInterface σ} {books : Books σ}

/-! ## Rules for the calls -/

namespace CorrectAllocator

variable {α : Type} {post : α → σ → Prop} {state : σ} {free : Nat} {held : Multiset Folio}

theorem ensures_quiet (correct : CorrectAllocator machine books) {request : KernelCall}
    {next : request.Answer → Module α} (quiet : request.Quiet) (shown : books.Show state free held)
    (rest : ∀ after, books.Show after free held →
      machine.Ensures (next (machine request state).1) post after) :
    machine.Ensures (.call (I := kernelInterface) request next) post state := by
  rw [Machine.ensures_call]
  exact rest _ (correct.quiet request state free held quiet shown)

theorem ensures_ltram (correct : CorrectAllocator machine books) {site : Site}
    {next : Option Folio → Module α} (shown : books.Show state (free + 1) held)
    (rest : ∀ folio after, folio.nid = 1 → folio.zonenum = .ltram →
      books.Show after free (folio ::ₘ held) → machine.Ensures (next (some folio)) post after) :
    machine.Ensures (.call (I := kernelInterface) (.folioAlloc site ltramGfp 0) next) post
      state := by
  obtain ⟨folio, answer, node, zone, after⟩ := correct.ltram_some site state free held shown
  rw [Machine.ensures_call, answer]
  exact rest folio _ node zone after

theorem ensures_exhausted (correct : CorrectAllocator machine books) {site : Site}
    {next : Option Folio → Module α} (shown : books.Show state 0 held)
    (rest : ∀ after, books.Show after 0 held → machine.Ensures (next none) post after) :
    machine.Ensures (.call (I := kernelInterface) (.folioAlloc site ltramGfp 0) next) post
      state := by
  obtain ⟨answer, after⟩ := correct.ltram_none site state held shown
  rw [Machine.ensures_call, answer]
  exact rest _ after

theorem ensures_ordinary (correct : CorrectAllocator machine books) {site : Site} {gfp : Gfp}
    {next : Option Folio → Module α} (mask : gfp = gfpKernel ∨ gfp = gfpHighuser)
    (shown : books.Show state free held)
    (rest : ∀ folio after, folio.nid = 0 → folio.zonenum ≠ .ltram →
      books.Show after free (folio ::ₘ held) → machine.Ensures (next (some folio)) post after) :
    machine.Ensures (.call (I := kernelInterface) (.folioAlloc site gfp 0) next) post state := by
  obtain ⟨folio, answer, node, zone, after⟩ := correct.ordinary site gfp state free held mask shown
  rw [Machine.ensures_call, answer]
  exact rest folio _ node zone after

theorem ensures_put (correct : CorrectAllocator machine books) {folio : Folio}
    {next : Unit → Module α} (shown : books.Show state free (folio ::ₘ held))
    (rest : ∀ after, books.Show after (free + ltramPages folio) held →
      machine.Ensures (next ()) post after) :
    machine.Ensures (.call (I := kernelInterface) (.folioPut folio) next) post state := by
  rw [Machine.ensures_call]
  exact rest _ (correct.put folio state free held shown)

theorem ensures_address (correct : CorrectAllocator machine books) {folio : Folio}
    {next : Option Pointer → Module α} (shown : books.Show state free (folio ::ₘ held))
    (rest : ∀ address after, books.Show after free (folio ::ₘ held) →
      machine.Ensures (next (some address)) post after) :
    machine.Ensures (.call (I := kernelInterface) (.folioAddress folio) next) post state := by
  have out : folio ∈ books.held state := by
    rw [shown.2]
    exact Multiset.mem_cons_self folio held
  obtain ⟨address, answer⟩ := correct.address folio state out
  rw [Machine.ensures_call, answer]
  exact rest address _ (correct.quiet (.folioAddress folio) state _ _ trivial shown)

/-- A word that is stored and read back at once. -/
theorem ensures_store_load (correct : CorrectAllocator machine books) {address : Pointer}
    {value : UInt32} {purpose : Load} {next : UInt32 → Module α}
    (shown : books.Show state free held)
    (rest : ∀ after, books.Show after free held → machine.Ensures (next value) post after) :
    machine.Ensures (.call (I := kernelInterface) (.store address value) fun _ =>
      .call (I := kernelInterface) (.load purpose address) next) post state := by
  have written := correct.word_store address value state
  have stored := correct.quiet (.store address value) state free held trivial shown
  rw [Machine.ensures_call, Machine.ensures_call, correct.load_word, written]
  exact rest _ (correct.quiet (.load purpose address) _ free held trivial stored)

end CorrectAllocator

/-! ## Test by test -/

/-- Whatever the number of free pages, the test returns, passes exactly when
`passes` says so, and leaves the books as they were. -/
def Exact (machine : Machine kernelInterface σ) (books : Books σ) (test : Module Int)
    (passes : Nat → Prop) : Prop :=
  ∀ state free held, books.Show state free held →
    machine.Ensures test (fun code after => (code = 0 ↔ passes free) ∧ books.Show after free held)
      state

theorem ensures_expectFail (correct : CorrectAllocator machine books) {format : String}
    {args : List Arg} {passes : Prop} (fails : ¬ passes) {state : σ} {free : Nat}
    {held : Multiset Folio} (shown : books.Show state free held) :
    machine.Ensures (expectFail format args)
      (fun code after => (code = 0 ↔ passes) ∧ books.Show after free held) state := by
  unfold expectFail
  rw [prErr_bind]
  refine correct.ensures_quiet (by trivial) shown fun after shownAfter => ?_
  exact ⟨iff_of_false (by decide) fails, shownAfter⟩

theorem ltramPages_ltram {folio : Folio} (zone : folio.zonenum = .ltram) :
    ltramPages folio = 1 :=
  if_pos zone

theorem ltramPages_other {folio : Folio} (zone : folio.zonenum ≠ .ltram) :
    ltramPages folio = 0 :=
  if_neg zone

variable (correct : CorrectAllocator machine books)

include correct

/-- Without a free page a test fails at its first `EXPECT`. -/
theorem ensures_no_page {site : Site} {format : String} {rest : Folio → Module Int}
    {held : Multiset Folio} {state : σ} (shown : books.Show state 0 held) :
    machine.Ensures
      (.call (I := kernelInterface) (.folioAlloc site ltramGfp 0) fun folio =>
        expectPointer folio format rest)
      (fun code after => (code = 0 ↔ 0 < 0) ∧ books.Show after 0 held) state := by
  apply correct.ensures_exhausted shown
  intro after shown
  exact ensures_expectFail correct (lt_irrefl 0) shown

theorem exact_testSinglePage : Exact machine books testSinglePage (0 < ·) := by
  intro state free held shown
  unfold testSinglePage
  simp only [prInfo_bind, folioAlloc_bind, folioPut_bind, Program.pure_eq_done]
  refine correct.ensures_quiet (by trivial) shown fun opened shown => ?_
  cases free with
  | zero =>
      exact ensures_no_page correct shown
  | succ free =>
      apply correct.ensures_ltram shown
      intro folio after node zone shown
      refine correct.ensures_quiet (by trivial) shown fun logged shown => ?_
      rw [expect, if_pos node, expect, if_pos zone]
      apply correct.ensures_put shown
      intro released shown
      rw [ltramPages_ltram zone] at shown
      refine correct.ensures_quiet (by trivial) shown fun last shown => ?_
      exact ⟨iff_of_true rfl free.succ_pos, shown⟩

theorem exact_testWriteThenRead : Exact machine books testWriteThenRead (0 < ·) := by
  intro state free held shown
  unfold testWriteThenRead
  simp only [prInfo_bind, folioAlloc_bind, folioAddress_bind, folioPut_bind, store_bind, load_bind,
    Program.pure_eq_done]
  refine correct.ensures_quiet (by trivial) shown fun opened shown => ?_
  cases free with
  | zero =>
      exact ensures_no_page correct shown
  | succ free =>
      apply correct.ensures_ltram shown
      intro folio after node zone shown
      apply correct.ensures_address shown
      intro kva mapped shown
      apply correct.ensures_store_load shown
      intro loaded shown
      rw [if_pos rfl]
      refine correct.ensures_quiet (by trivial) shown fun printed shown => ?_
      refine correct.ensures_quiet (by trivial) shown fun logged shown => ?_
      apply correct.ensures_put shown
      intro released shown
      rw [ltramPages_ltram zone] at shown
      exact ⟨iff_of_true rfl free.succ_pos, shown⟩

theorem exact_testKernelAllocAvoidsLtram :
    Exact machine books testKernelAllocAvoidsLtram fun _ => True := by
  intro state free held shown
  unfold testKernelAllocAvoidsLtram
  simp only [prInfo_bind, folioAlloc_bind, folioPut_bind, Program.pure_eq_done]
  refine correct.ensures_quiet (by trivial) shown fun opened shown => ?_
  apply correct.ensures_ordinary (.inl rfl) shown
  intro folio after node zone shown
  refine correct.ensures_quiet (by trivial) shown fun logged shown => ?_
  rw [expect, if_pos zone, expect, if_pos node]
  apply correct.ensures_put shown
  intro released shown
  rw [ltramPages_other zone] at shown
  refine correct.ensures_quiet (by trivial) shown fun last shown => ?_
  exact ⟨iff_of_true rfl trivial, shown⟩

theorem exact_testHighuserAllocAvoidsLtram :
    Exact machine books testHighuserAllocAvoidsLtram fun _ => True := by
  intro state free held shown
  unfold testHighuserAllocAvoidsLtram
  simp only [prInfo_bind, folioAlloc_bind, folioPut_bind, Program.pure_eq_done]
  refine correct.ensures_quiet (by trivial) shown fun opened shown => ?_
  apply correct.ensures_ordinary (.inr rfl) shown
  intro folio after node zone shown
  rw [expectPointer, expect, if_pos zone]
  refine correct.ensures_quiet (by trivial) shown fun logged shown => ?_
  apply correct.ensures_put shown
  intro released shown
  rw [ltramPages_other zone] at shown
  exact ⟨iff_of_true rfl trivial, shown⟩

/-- The page that test 6 frees is the one it can get back. -/
theorem exact_testAllocFreeRealloc : Exact machine books testAllocFreeRealloc (0 < ·) := by
  intro state free held shown
  unfold testAllocFreeRealloc
  simp only [prInfo_bind, folioAlloc_bind, folioAddress_bind, folioPut_bind, Program.pure_eq_done]
  refine correct.ensures_quiet (by trivial) shown fun opened shown => ?_
  cases free with
  | zero =>
      exact ensures_no_page correct shown
  | succ free =>
      apply correct.ensures_ltram shown
      intro first after _ zone shown
      apply correct.ensures_address shown
      intro kva mapped shown
      rw [memset_some_bind]
      refine correct.ensures_quiet (by trivial) shown fun wiped shown => ?_
      refine correct.ensures_quiet (by trivial) shown fun logged shown => ?_
      apply correct.ensures_put shown
      intro released shown
      rw [ltramPages_ltram zone] at shown
      apply correct.ensures_ltram shown
      intro second again node zone shown
      rw [expectPointer, expect, if_pos node]
      refine correct.ensures_quiet (by trivial) shown fun logged shown => ?_
      apply correct.ensures_put shown
      intro released shown
      rw [ltramPages_ltram zone] at shown
      exact ⟨iff_of_true rfl free.succ_pos, shown⟩

/-! ## The bulk test -/

omit correct in
theorem record_bulkAfter (answers : List (Option Folio)) (answer : Option Folio) :
    (bulkAfter answers).record answer = bulkAfter (answers ++ [answer]) := by
  simp [bulkAfter]

/-- The books after some rounds of the allocating loop: every round took a page
as long as there was one. -/
structure Filled (books : Books σ) (free : Nat) (held : Multiset Folio) (index : Nat)
    (answers : List (Option Folio)) (state : σ) : Prop where
  lengthEq : answers.length = index
  obtained : answers.reduceOption.length = min index free
  placed : ∀ folio, some folio ∈ answers → folio.nid = 1 ∧ folio.zonenum = .ltram
  shown : books.Show state (free - min index free) (answers.reduceOption + held)

theorem ensures_bulkRound {free index : Nat} {held : Multiset Folio}
    {answers : List (Option Folio)} {state : σ} (filled : Filled books free held index answers state) :
    machine.Ensures (bulkRound index (bulkAfter answers))
      (fun bulk after => ∃ longer, bulk = bulkAfter longer ∧
        Filled books free held (index + 1) longer after) state := by
  unfold bulkRound
  simp only [folioAlloc_bind, Program.pure_eq_done]
  have shown := filled.shown
  rcases Nat.lt_or_ge index free with room | full
  · obtain ⟨left, leftEq⟩ : ∃ left, free - min index free = left + 1 :=
      ⟨free - index - 1, by omega⟩
    rw [leftEq] at shown
    apply correct.ensures_ltram shown
    intro folio after node zone shown
    have taken : (answers ++ [some folio]).reduceOption = answers.reduceOption ++ [folio] := by
      rw [List.reduceOption_append, List.reduceOption_singleton, Option.toList_some]
    refine ⟨answers ++ [some folio], record_bulkAfter answers (some folio), ?_, ?_, ?_, ?_⟩
    · simp [filled.lengthEq]
    · rw [taken, List.length_append, filled.obtained, List.length_singleton]
      omega
    · intro other member
      rcases List.mem_append.mp member with earlier | last
      · exact filled.placed other earlier
      · cases List.mem_singleton.mp last
        exact ⟨node, zone⟩
    · have leftAfter : left = free - min (index + 1) free := by omega
      rw [leftAfter] at shown
      rw [taken, ← Multiset.coe_add, Multiset.coe_singleton, add_assoc, Multiset.singleton_add,
        Multiset.add_cons]
      exact shown
  · have exhausted : free - min index free = 0 := by omega
    rw [exhausted] at shown
    apply correct.ensures_exhausted shown
    intro after shown
    have missed : (answers ++ [none]).reduceOption = answers.reduceOption := by
      rw [List.reduceOption_append, List.reduceOption_singleton, Option.toList_none,
        List.append_nil]
    refine ⟨answers ++ [none], record_bulkAfter answers none, ?_, ?_, ?_, ?_⟩
    · simp [filled.lengthEq]
    · rw [missed, filled.obtained]
      omega
    · intro other member
      simp only [List.mem_append, List.mem_singleton, reduceCtorEq, or_false] at member
      exact filled.placed other member
    · have exhaustedAfter : free - min (index + 1) free = 0 := by omega
      rw [exhaustedAfter, missed]
      exact shown

/-- The books while the releasing loop runs: the slots from `index` on are still
out. -/
def Releasing (books : Books σ) (free : Nat) (held : Multiset Folio)
    (answers : List (Option Folio)) (index : Nat) (state : σ) : Prop :=
  ∃ left, left + (answers.drop index).reduceOption.length = free ∧
    books.Show state left ((answers.drop index).reduceOption + held)

theorem ensures_releaseRound {free index : Nat} {held : Multiset Folio}
    {answers : List (Option Folio)}
    (placed : ∀ folio, some folio ∈ answers → folio.nid = 1 ∧ folio.zonenum = .ltram)
    (bound : index < answers.length) {state : σ}
    (releasing : Releasing books free held answers index state) :
    machine.Ensures (releaseRound answers index ())
      (fun _ after => Releasing books free held answers (index + 1) after) state := by
  obtain ⟨left, total, shown⟩ := releasing
  unfold releaseRound
  rw [List.drop_eq_getElem_cons bound] at total shown
  rw [List.getElem?_eq_getElem bound]
  cases slot : answers[index] with
  | none =>
      rw [slot, List.reduceOption_cons_of_none] at total shown
      exact ⟨left, total, shown⟩
  | some folio =>
      have zone := (placed folio (slot ▸ List.getElem_mem bound)).2
      rw [slot, List.reduceOption_cons_of_some] at total shown
      rw [← Multiset.cons_coe, Multiset.cons_add] at shown
      apply correct.ensures_put shown
      intro after shown
      rw [ltramPages_ltram zone] at shown
      rw [List.length_cons] at total
      exact ⟨left + 1, by omega, shown⟩

omit correct in
/-- The count that `kmalloc_array` receives, as an integer. -/
theorem toInt_kmallocCount (bulkCount : Int32) :
    bulkCount.toInt = if 2 * bulkCount.toInt64.toUInt64.toNat < 2 ^ 64
      then (bulkCount.toInt64.toUInt64.toNat : Int)
      else bulkCount.toInt64.toUInt64.toNat - 2 ^ 64 := by
  rw [← Int32.toInt_toInt64]
  exact BitVec.toInt_eq_toNat_cond bulkCount.toInt64.toBitVec

omit correct in
/-- A negative `bulk_count` becomes a count whose array would not fit the address
space. -/
theorem kmallocArray_overflow {bulkCount : Int32} (negative : bulkCount.toInt < 0) :
    2 ^ 64 ≤ bulkCount.toInt64.toUInt64.toNat * (8 : UInt64).toNat := by
  have lower := bulkCount.le_toInt
  have unsigned := toInt_kmallocCount bulkCount
  change 2 ^ 64 ≤ _ * 8
  split at unsigned <;> omega

omit correct in
theorem kmallocArray_fits {bulkCount : Int32} (nonneg : 0 ≤ bulkCount.toInt) :
    bulkCount.toInt64.toUInt64.toNat < 2 ^ 31 := by
  have upper := bulkCount.toInt_lt
  have bounded := bulkCount.toInt64.toUInt64.toNat_lt
  have unsigned := toInt_kmallocCount bulkCount
  split at unsigned <;> omega

/-- The releasing loop gives back what the allocating loop took. -/
theorem ensures_releaseLoop {free count : Nat} {held : Multiset Folio}
    {answers : List (Option Folio)} {filledState state : σ}
    (filled : Filled books free held count answers filledState)
    (shown : books.Show state (free - min count free) (answers.reduceOption + held)) :
    machine.Ensures (Program.forCount (releaseRound answers) 0 count ())
      (fun _ after => books.Show after free held) state := by
  have start : Releasing books free held answers 0 state := by
    refine ⟨free - min count free, ?_, shown⟩
    rw [List.drop_zero, filled.obtained]
    omega
  apply (Machine.ensures_forCount (fun index _ => Releasing books free held answers index) ?_
    start).mono
  · rintro _ after ⟨left, total, released⟩
    rw [List.drop_eq_nil_of_le filled.lengthEq.le] at total released
    simp only [List.reduceOption_nil, List.length_nil, Nat.add_zero] at total
    subst total
    simpa using released
  · intro index _ state bound releasing
    exact ensures_releaseRound correct filled.placed (filled.lengthEq ▸ bound) releasing

omit correct in
/-- With every folio in its place, the two counters pass exactly when no round
went without a page. -/
theorem bulkAfter_verdict_filled {bulkCount : Int32} {free : Nat} {held : Multiset Folio}
    {answers : List (Option Folio)} {state : σ}
    (filled : Filled books free held (rounds bulkCount) answers state)
    (nonneg : 0 ≤ bulkCount.toInt) :
    (bulkAfter answers).allocated = bulkCount ∧ (bulkAfter answers).errors = 0 ↔
      0 ≤ bulkCount.toInt ∧ bulkCount.toInt ≤ free := by
  have enough : (∀ answer ∈ answers, answer.isSome) ↔ bulkCount.toInt ≤ free := by
    rw [← List.reduceOption_length_eq_iff, filled.obtained, filled.lengthEq]
    unfold rounds
    omega
  rw [bulkAfter_verdict_iff filled.lengthEq nonneg, ← enough, and_iff_right nonneg]
  constructor
  · intro good answer member
    obtain ⟨folio, rfl, -⟩ := good answer member
    rfl
  · intro served answer member
    obtain ⟨folio, rfl⟩ := Option.isSome_iff_exists.mp (served answer member)
    exact ⟨folio, rfl, filled.placed folio member⟩

theorem exact_testBulkAllocation (bulkCount : Int32) :
    Exact machine books (testBulkAllocation bulkCount) fun free =>
      0 ≤ bulkCount.toInt ∧ bulkCount.toInt ≤ free := by
  intro state free held shown
  unfold testBulkAllocation
  simp only [prInfo_bind, kmallocArray_bind, kfree_bind, Program.pure_eq_done]
  refine correct.ensures_quiet (by trivial) shown fun opened shown => ?_
  rcases lt_or_ge bulkCount.toInt 0 with negative | nonneg
  · refine correct.ensures_quiet (by trivial) shown fun after shown => ?_
    rw [correct.kmalloc_none _ _ _ _ (kmallocArray_overflow negative)]
    exact ensures_expectFail correct (fun passes => by omega) shown
  · refine correct.ensures_quiet (by trivial) shown fun after shown => ?_
    obtain ⟨array, answer⟩ := correct.kmalloc_some _ opened (kmallocArray_fits nonneg)
    rw [answer, expectPointer, Machine.ensures_bind]
    have start : Filled books free held 0 [] after :=
      ⟨rfl, by simp, by simp, by simpa using shown⟩
    apply (Machine.ensures_forCount
      (fun index bulk state => ∃ answers, bulk = bulkAfter answers ∧
        Filled books free held index answers state) ?_ ⟨[], rfl, start⟩).mono
    · rintro _ full ⟨answers, rfl, filled⟩
      refine correct.ensures_quiet (by trivial) filled.shown fun logged shown => ?_
      have folios : (bulkAfter answers).folios = answers := by
        rw [bulkAfter_eq]
      rw [Machine.ensures_bind, folios]
      apply (ensures_releaseLoop correct filled shown).mono
      intro _ released shown
      refine correct.ensures_quiet (by trivial) shown fun freed shown => ?_
      rw [← bulkAfter_verdict_filled filled nonneg]
      by_cases all : (bulkAfter answers).allocated = bulkCount
      · by_cases clean : (bulkAfter answers).errors = 0
        · rw [expect, if_pos all, expect, if_pos clean]
          refine correct.ensures_quiet (by trivial) shown fun last shown => ?_
          exact ⟨iff_of_true rfl ⟨all, clean⟩, shown⟩
        · rw [expect, if_pos all, expect, if_neg clean]
          exact ensures_expectFail correct (fun passes => clean passes.2) shown
      · rw [expect, if_neg all]
        exact ensures_expectFail correct (fun passes => all passes.1) shown
    · rintro index _ state - ⟨answers, rfl, filled⟩
      exact ensures_bulkRound correct filled

/-! ## The suite -/

theorem ensures_verdict (fails : Int32) {state : σ} {free : Nat} {held : Multiset Folio}
    (shown : books.Show state free held) :
    machine.Ensures (verdict fails) (fun _ after => books.Show after free held) state := by
  unfold verdict
  split
  · exact correct.quiet (.printk .info _ _) state free held trivial shown
  · exact correct.quiet (.printk .err _ _) state free held trivial shown

/-- The six tests one after the other, each on the books that the one before it
restored. -/
theorem ensures_ltramSmoketestInit (bulkCount : Int32) {state : σ} {free : Nat}
    {held : Multiset Folio} (shown : books.Show state free held) :
    machine.Ensures (ltramSmoketestInit bulkCount)
      (fun report after => books.Show after free held ∧
        ∃ single bulk write kernel highuser realloc,
          report.codes = [single, bulk, write, kernel, highuser, realloc] ∧
          report.lastFailCount = (report.codes.foldl tally (0, 0)).2 ∧
          (single = 0 ↔ 0 < free) ∧
          (bulk = 0 ↔ 0 ≤ bulkCount.toInt ∧ bulkCount.toInt ≤ free) ∧
          (write = 0 ↔ 0 < free) ∧ (kernel = 0 ↔ True) ∧ (highuser = 0 ↔ True) ∧
          (realloc = 0 ↔ 0 < free)) state := by
  unfold ltramSmoketestInit
  simp only [prInfo_bind, Program.pure_eq_done]
  refine correct.ensures_quiet (by trivial) shown fun started shown => ?_
  refine correct.ensures_quiet (by trivial) shown fun opened shown => ?_
  rw [Machine.ensures_bind]
  apply (exact_testSinglePage correct opened free held shown).mono
  rintro single state₁ ⟨singleIff, shown⟩
  rw [Machine.ensures_bind]
  apply (exact_testBulkAllocation correct bulkCount state₁ free held shown).mono
  rintro bulk state₂ ⟨bulkIff, shown⟩
  rw [Machine.ensures_bind]
  apply (exact_testWriteThenRead correct state₂ free held shown).mono
  rintro write state₃ ⟨writeIff, shown⟩
  rw [Machine.ensures_bind]
  apply (exact_testKernelAllocAvoidsLtram correct state₃ free held shown).mono
  rintro kernel state₄ ⟨kernelIff, shown⟩
  rw [Machine.ensures_bind]
  apply (exact_testHighuserAllocAvoidsLtram correct state₄ free held shown).mono
  rintro highuser state₅ ⟨highuserIff, shown⟩
  rw [Machine.ensures_bind]
  apply (exact_testAllocFreeRealloc correct state₅ free held shown).mono
  rintro realloc state₆ ⟨reallocIff, shown⟩
  refine correct.ensures_quiet (by trivial) shown fun finished shown => ?_
  refine correct.ensures_quiet (by trivial) shown fun counted shown => ?_
  rw [Machine.ensures_bind]
  apply (ensures_verdict correct _ shown).mono
  intro _ judged shown
  exact ⟨shown, single, bulk, write, kernel, highuser, realloc, rfl, rfl, singleIff, bulkIff,
    writeIff, kernelIff, highuserIff, reallocIff⟩

/-- On a correct allocator the suite returns for every number of free pages and
every `bulk_count`.  No test fails exactly when there is a page and
`0 ≤ bulk_count ≤ free`; tests 1, 3 and 6 fail exactly without a free page,
test 2 exactly for a count outside that range, tests 4 and 5 never; and the
number of free pages is the same afterwards. -/
theorem ltramSmoketestInit_exact (bulkCount : Int32) (state : σ) :
    ∃ report single bulk write kernel highuser realloc,
      (machine.run (ltramSmoketestInit bulkCount) state).result = some report ∧
      report.codes = [single, bulk, write, kernel, highuser, realloc] ∧
      (report.lastFailCount = 0 ↔
        1 ≤ books.free state ∧ 0 ≤ bulkCount.toInt ∧ bulkCount.toInt ≤ books.free state) ∧
      (single ≠ 0 ↔ books.free state = 0) ∧
      (bulk ≠ 0 ↔ bulkCount.toInt < 0 ∨ books.free state < bulkCount.toInt) ∧
      (write ≠ 0 ↔ books.free state = 0) ∧
      kernel = 0 ∧ highuser = 0 ∧
      (realloc ≠ 0 ↔ books.free state = 0) ∧
      books.free (machine.run (ltramSmoketestInit bulkCount) state).final = books.free state := by
  obtain ⟨report, returned, ⟨freeAfter, -⟩, single, bulk, write, kernel, highuser, realloc, codes,
    fails, singleIff, bulkIff, writeIff, kernelIff, highuserIff, reallocIff⟩ :=
      (ensures_ltramSmoketestInit correct bulkCount
        (show books.Show state (books.free state) (books.held state) from ⟨rfl, rfl⟩)).run_result
  refine ⟨report, single, bulk, write, kernel, highuser, realloc, returned, codes, ?_, ?_, ?_, ?_,
    kernelIff.mpr trivial, highuserIff.mpr trivial, ?_, freeAfter⟩
  · rw [fails, codes, foldl_tally_snd_eq_zero_iff (by simp)]
    simp only [List.mem_cons, List.not_mem_nil, or_false, forall_eq_or_imp, forall_eq, singleIff,
      bulkIff, writeIff, kernelIff, highuserIff, reallocIff, true_and]
    omega
  · rw [ne_eq, singleIff]
    omega
  · rw [ne_eq, bulkIff]
    omega
  · rw [ne_eq, writeIff]
    omega
  · rw [ne_eq, reallocIff]
    omega

omit correct

/-! ## A correct allocator exists -/

/-- A small kernel: a list of free LtRAM page frames, the folios that are out, an
endless supply of node-0 frames, and the memory. -/
structure Buddy where
  freeList : List Nat
  out : List Folio
  nextFrame : Nat
  memory : Pointer → UInt32

/-- `Buddy` as a machine. -/
def buddy : Machine kernelInterface Buddy
  | .folioAlloc _ gfp order, state =>
      if gfp = ltramGfp then
        match state.freeList with
        | [] => (none, state)
        | pfn :: rest =>
            let folio : Folio := ⟨pfn, 1, .ltram, order⟩
            (some folio, { state with freeList := rest, out := folio :: state.out })
      else
        let folio : Folio := ⟨state.nextFrame, 0, .other 2, order⟩
        (some folio, { state with nextFrame := state.nextFrame + 1, out := folio :: state.out })
  | .folioPut folio, state =>
      ((), { state with
        freeList := if folio.zonenum = .ltram then folio.pfn :: state.freeList else state.freeList
        out := state.out.erase folio })
  | .folioAddress folio, state => (some (folio.pfn * pageSize), state)
  | .kmallocArray count size _, state =>
      (if 2 ^ 64 ≤ count.toNat * size.toNat then none else some 8, state)
  | .load _ address, state => (state.memory address, state)
  | .store address value, state =>
      ((), { state with memory := fun other => if other = address then value else state.memory other })
  | .printk _ _ _, state => ((), state)
  | .kfree _, state => ((), state)
  | .memset _ _ _, state => ((), state)

def buddyBooks : Books Buddy where
  free state := state.freeList.length
  held state := state.out
  word state := state.memory

theorem correctAllocator_buddy : CorrectAllocator buddy buddyBooks where
  ltram_some := by
    rintro site ⟨freeList, out, nextFrame, memory⟩ free held ⟨freeEq, rfl⟩
    cases freeList with
    | nil => simp [buddyBooks] at freeEq
    | cons pfn rest =>
        exact ⟨⟨pfn, 1, .ltram, 0⟩, rfl, rfl, rfl, Nat.succ.inj freeEq, rfl⟩
  ltram_none := by
    rintro site ⟨freeList, out, nextFrame, memory⟩ held ⟨freeEq, rfl⟩
    obtain rfl := List.length_eq_zero_iff.mp freeEq
    exact ⟨rfl, rfl, rfl⟩
  ordinary := by
    rintro site gfp state free held (rfl | rfl) ⟨rfl, rfl⟩
    · exact ⟨⟨state.nextFrame, 0, .other 2, 0⟩, rfl, rfl, nofun, rfl, rfl⟩
    · exact ⟨⟨state.nextFrame, 0, .other 2, 0⟩, rfl, rfl, nofun, rfl, rfl⟩
  put := by
    rintro folio state free held ⟨rfl, heldEq⟩
    constructor
    · by_cases zone : folio.zonenum = .ltram <;>
        simp [buddy, buddyBooks, ltramPages, zone]
    · change ((state.out.erase folio : List Folio) : Multiset Folio) = held
      rw [← Multiset.coe_erase]
      change (buddyBooks.held state).erase folio = held
      rw [heldEq, Multiset.erase_cons_head]
  quiet := by
    rintro request state free held quiet ⟨rfl, rfl⟩
    cases request with
    | folioAlloc => exact quiet.elim
    | folioPut => exact quiet.elim
    | _ => exact ⟨rfl, rfl⟩
  address := by
    intro folio state _
    exact ⟨_, rfl⟩
  kmalloc_some := by
    intro count state bound
    exact ⟨8, if_neg (by change ¬ 2 ^ 64 ≤ _ * 8; omega)⟩
  kmalloc_none := by
    intro count size gfp state overflow
    exact if_pos overflow
  word_store := by
    intro address value state
    exact if_pos rfl
  load_word := by
    intro purpose address state
    rfl

/-- Three free pages and a count of four: only the bulk test fails, and the
three pages are free again. -/
theorem ltramSmoketestInit_exact_three :
    ∃ report, (buddy.run (ltramSmoketestInit 4) ⟨[7, 8, 9], [], 100, fun _ => 0⟩).result =
        some report ∧ report.lastFailCount ≠ 0 ∧
      buddyBooks.free
        (buddy.run (ltramSmoketestInit 4) ⟨[7, 8, 9], [], 100, fun _ => 0⟩).final = 3 := by
  obtain ⟨report, _, _, _, _, _, _, returned, -, fails, -, -, -, -, -, -, freeAfter⟩ :=
    ltramSmoketestInit_exact correctAllocator_buddy 4 ⟨[7, 8, 9], [], 100, fun _ => 0⟩
  refine ⟨report, returned, ?_, freeAfter⟩
  rw [ne_eq, fails]
  decide

end LtramBench.Smoketest
