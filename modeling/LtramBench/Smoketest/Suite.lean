import LtramBench.Interaction.Program
import LtramBench.Kernel.Memory

/-!
# The six tests of `ltram_smoketest.c`

Every test is a program over the kernel services it uses; what the kernel
answers is left entirely open.  Each allocation carries the place in the source
it is made from, so that a trace can be read without counting calls.

`EXPECT` returns from the middle of a test, and here it does so too: `expect`
takes the rest of the test and drops it when its condition fails.
-/

namespace LtramBench.Smoketest

open LtramBench.Interaction LtramBench.Kernel

/-- `LTRAM_GFP`. -/
def ltramGfp : Gfp := ⟨.ltram, true⟩

/-- A non-null kernel address. -/
abbrev Pointer := Nat

/-- The places that call `folio_alloc`. -/
inductive Site where
  | singlePage
  | bulkAllocation
  | writeThenRead
  | kernelAlloc
  | highuserAlloc
  | firstAlloc
  | secondAlloc
  deriving DecidableEq, Repr

/-- Why a word is loaded: to be compared, or to be printed. -/
inductive Load where
  | compared
  | printed
  deriving DecidableEq, Repr

inductive Level where
  | info
  | err
  deriving DecidableEq, Repr

/-- An argument of a format string. -/
inductive Arg where
  | int (value : Int)
  | zone (zone : Zone)
  | word (value : UInt32)
  | pointer (address : Pointer)
  deriving DecidableEq, Repr

/-- What the tests ask of the kernel. -/
inductive KernelCall where
  | printk (level : Level) (format : String) (args : List Arg)
  | folioAlloc (site : Site) (gfp : Gfp) (order : Nat)
  | folioPut (folio : Folio)
  | folioAddress (folio : Folio)
  | kmallocArray (count size : UInt64) (gfp : Gfp)
  | kfree (array : Pointer)
  | store (address : Pointer) (value : UInt32)
  | load (purpose : Load) (address : Pointer)
  | memset (address : Pointer) (byte : UInt8) (length : Nat)
  deriving DecidableEq

/-- The type of the answer to each call; `none` is a null pointer. -/
abbrev KernelCall.Answer : KernelCall → Type
  | printk _ _ _ => Unit
  | folioAlloc _ _ _ => Option Folio
  | folioPut _ => Unit
  | folioAddress _ => Option Pointer
  | kmallocArray _ _ _ => Option Pointer
  | kfree _ => Unit
  | store _ _ => Unit
  | load _ _ => UInt32
  | memset _ _ _ => Unit

abbrev kernelInterface : Interface := ⟨KernelCall, KernelCall.Answer⟩

/-- Programs that run inside the module. -/
abbrev Module := Program kernelInterface

def prInfo (format : String) (args : List Arg) : Module Unit :=
  .perform (I := kernelInterface) (.printk .info format args)

def prErr (format : String) (args : List Arg) : Module Unit :=
  .perform (I := kernelInterface) (.printk .err format args)

def folioAlloc (site : Site) (gfp : Gfp) (order : Nat) : Module (Option Folio) :=
  .perform (I := kernelInterface) (.folioAlloc site gfp order)

def folioPut (folio : Folio) : Module Unit :=
  .perform (I := kernelInterface) (.folioPut folio)

def folioAddress (folio : Folio) : Module (Option Pointer) :=
  .perform (I := kernelInterface) (.folioAddress folio)

def kmallocArray (count size : UInt64) (gfp : Gfp) : Module (Option Pointer) :=
  .perform (I := kernelInterface) (.kmallocArray count size gfp)

def kfree (array : Pointer) : Module Unit :=
  .perform (I := kernelInterface) (.kfree array)

def store (address : Pointer) (value : UInt32) : Module Unit :=
  .perform (I := kernelInterface) (.store address value)

def load (purpose : Load) (address : Pointer) : Module UInt32 :=
  .perform (I := kernelInterface) (.load purpose address)

/-- `memset` through a pointer that may be null, in which case it oopses. -/
def memset (address : Option Pointer) (byte : UInt8) (length : Nat) : Module Unit :=
  match address with
  | none => .crash
  | some address => .perform (I := kernelInterface) (.memset address byte length)

section Bind

variable {α : Type}

@[simp]
theorem prInfo_bind (format : String) (args : List Arg) (next : Unit → Module α) :
    prInfo format args >>= next =
      .call (I := kernelInterface) (.printk .info format args) next :=
  rfl

@[simp]
theorem prErr_bind (format : String) (args : List Arg) (next : Unit → Module α) :
    prErr format args >>= next =
      .call (I := kernelInterface) (.printk .err format args) next :=
  rfl

@[simp]
theorem folioAlloc_bind (site : Site) (gfp : Gfp) (order : Nat)
    (next : Option Folio → Module α) :
    folioAlloc site gfp order >>= next =
      .call (I := kernelInterface) (.folioAlloc site gfp order) next :=
  rfl

@[simp]
theorem folioPut_bind (folio : Folio) (next : Unit → Module α) :
    folioPut folio >>= next = .call (I := kernelInterface) (.folioPut folio) next :=
  rfl

@[simp]
theorem folioAddress_bind (folio : Folio) (next : Option Pointer → Module α) :
    folioAddress folio >>= next =
      .call (I := kernelInterface) (.folioAddress folio) next :=
  rfl

@[simp]
theorem kmallocArray_bind (count size : UInt64) (gfp : Gfp)
    (next : Option Pointer → Module α) :
    kmallocArray count size gfp >>= next =
      .call (I := kernelInterface) (.kmallocArray count size gfp) next :=
  rfl

@[simp]
theorem kfree_bind (array : Pointer) (next : Unit → Module α) :
    kfree array >>= next = .call (I := kernelInterface) (.kfree array) next :=
  rfl

@[simp]
theorem store_bind (address : Pointer) (value : UInt32) (next : Unit → Module α) :
    store address value >>= next =
      .call (I := kernelInterface) (.store address value) next :=
  rfl

@[simp]
theorem load_bind (purpose : Load) (address : Pointer) (next : UInt32 → Module α) :
    load purpose address >>= next =
      .call (I := kernelInterface) (.load purpose address) next :=
  rfl

@[simp]
theorem memset_none_bind (byte : UInt8) (length : Nat) (next : Unit → Module α) :
    memset none byte length >>= next = .crash :=
  rfl

@[simp]
theorem memset_some_bind (address : Pointer) (byte : UInt8) (length : Nat)
    (next : Unit → Module α) :
    memset (some address) byte length >>= next =
      .call (I := kernelInterface) (.memset address byte length) next :=
  rfl

end Bind

/-! ## `EXPECT` -/

/-- `TAG`. -/
def tag : String := "ltram_smoketest"

/-- The failing branch of `EXPECT`. -/
def expectFail (format : String) (args : List Arg) : Module Int := do
  prErr (tag ++ ":   FAIL: " ++ format ++ "\n") args
  return -EINVAL

/-- `EXPECT(cond, format, args)` followed by the rest of the test. -/
def expect (cond : Prop) [Decidable cond] (format : String) (args : List Arg)
    (rest : Module Int) : Module Int :=
  if cond then rest else expectFail format args

/-- `EXPECT(pointer, format)` followed by the rest of the test, which may use
the pointer. -/
def expectPointer {α : Type} (pointer : Option α) (format : String)
    (rest : α → Module Int) : Module Int :=
  match pointer with
  | none => expectFail format []
  | some target => rest target

/-- The line that a failing `EXPECT` logs. -/
def failLine (format : String) (args : List Arg) : Event kernelInterface :=
  ⟨.printk .err (tag ++ ":   FAIL: " ++ format ++ "\n") args, ()⟩

theorem runs_expectFail_iff (format : String) (args : List Arg)
    (trace : List (Event kernelInterface)) (code : Int) :
    (expectFail format args).Runs trace (some code) ↔
      trace = [failLine format args] ∧ code = -EINVAL := by
  simp only [expectFail, prErr_bind, Program.pure_eq_done, Program.runs_call_iff,
    Program.runs_done_iff, Option.some.injEq]
  constructor
  · rintro ⟨_, _, rfl, rfl, rfl⟩
    exact ⟨rfl, rfl⟩
  · rintro ⟨rfl, rfl⟩
    exact ⟨(), [], rfl, rfl, rfl⟩

/-- Everything `EXPECT` can do: go on, or fail and return. -/
theorem runs_expect_iff (cond : Prop) [Decidable cond] (format : String) (args : List Arg)
    (rest : Module Int) (trace : List (Event kernelInterface)) (code : Int) :
    (expect cond format args rest).Runs trace (some code) ↔
      cond ∧ rest.Runs trace (some code) ∨
        ¬ cond ∧ trace = [failLine format args] ∧ code = -EINVAL := by
  by_cases holds : cond
  · simp [expect, holds]
  · simp [expect, holds, runs_expectFail_iff]

theorem runs_expectPointer_iff {α : Type} (pointer : Option α) (format : String)
    (rest : α → Module Int) (trace : List (Event kernelInterface)) (code : Int) :
    (expectPointer pointer format rest).Runs trace (some code) ↔
      (∃ target, pointer = some target ∧ (rest target).Runs trace (some code)) ∨
        pointer = none ∧ trace = [failLine format []] ∧ code = -EINVAL := by
  cases pointer with
  | none => simp [expectPointer, runs_expectFail_iff]
  | some target => simp [expectPointer]

/-! ## The tests -/

/-- `test_single_page`. -/
def testSinglePage : Module Int := do
  prInfo (tag ++ ": TEST 1 - single-page allocation from GFP_LTRAM\n") []
  let folio ← folioAlloc .singlePage ltramGfp 0
  expectPointer folio "folio_alloc returned NULL" fun folio => do
    prInfo (tag ++ ":   got folio: nid=%d, zone=%d, order=%u\n")
      [.int folio.nid, .zone folio.zonenum, .int folio.order]
    expect (folio.nid = 1) "expected nid=1, got nid=%d" [.int folio.nid] <|
      expect (folio.zonenum = .ltram) "expected ZONE_LTRAM(%d), got zone=%d"
        [.zone .ltram, .zone folio.zonenum] do
          folioPut folio
          prInfo (tag ++ ":   PASS\n") []
          return 0

/-- The locals of `test_bulk_allocation` that its loops change. -/
structure Bulk where
  folios : List (Option Folio)
  allocated : Int32
  errors : Int32
  deriving DecidableEq

/-- Store an answer in the next slot of the array and check the folio. -/
def Bulk.record (bulk : Bulk) : Option Folio → Bulk
  | none => { bulk with folios := bulk.folios ++ [none] }
  | some folio =>
      let errors := if folio.nid ≠ 1 then bulk.errors + 1 else bulk.errors
      let errors := if folio.zonenum ≠ .ltram then errors + 1 else errors
      ⟨bulk.folios ++ [some folio], bulk.allocated + 1, errors⟩

/-- One round of the allocating loop. -/
def bulkRound (_ : Nat) (bulk : Bulk) : Module Bulk := do
  let folio ← folioAlloc .bulkAllocation ltramGfp 0
  return bulk.record folio

/-- One round of the releasing loop. -/
def releaseRound (folios : List (Option Folio)) (index : Nat) (_ : Unit) : Module Unit :=
  match folios[index]? with
  | some (some folio) => folioPut folio
  | _ => return ()

/-- The number of rounds of `for (i = 0; i < bulk_count; i++)`. -/
def rounds (bulkCount : Int32) : Nat :=
  bulkCount.toInt.toNat

/-- `test_bulk_allocation`. -/
def testBulkAllocation (bulkCount : Int32) : Module Int := do
  prInfo (tag ++ ": TEST 2 - bulk %d-page allocation\n") [.int bulkCount.toInt]
  let array ← kmallocArray bulkCount.toInt64.toUInt64 8 gfpKernel
  expectPointer array "kmalloc_array failed for tracking array" fun array => do
    let bulk ← Program.forCount bulkRound 0 (rounds bulkCount) ⟨[], 0, 0⟩
    prInfo (tag ++ ":   allocated %d/%d folios, %d misplaced\n")
      [.int bulk.allocated.toInt, .int bulkCount.toInt, .int bulk.errors.toInt]
    Program.forCount (releaseRound bulk.folios) 0 (rounds bulkCount) ()
    kfree array
    expect (bulk.allocated = bulkCount) "expected %d allocations, got %d"
        [.int bulkCount.toInt, .int bulk.allocated.toInt] <|
      expect (bulk.errors = 0) "%d folios on wrong node/zone" [.int bulk.errors.toInt] do
        prInfo (tag ++ ":   PASS\n") []
        return 0

/-- The pattern that test 3 writes. -/
def pattern : UInt32 := 0xCAFEBABE

/-- `test_write_then_read`. -/
def testWriteThenRead : Module Int := do
  prInfo (tag ++ ": TEST 3 - write/read pattern check\n") []
  let folio ← folioAlloc .writeThenRead ltramGfp 0
  expectPointer folio "folio_alloc failed" fun folio => do
    let kva ← folioAddress folio
    expectPointer kva "folio_address returned NULL" fun kva => do
      store kva pattern
      let seen ← load .compared kva
      if seen = pattern then
        let shown ← load .printed kva
        prInfo (tag ++ ":   wrote 0x%08x at %p, read 0x%08x: PASS\n")
          [.word pattern, .pointer kva, .word shown]
        folioPut folio
        return 0
      else
        let shown ← load .printed kva
        expectFail "wrote 0x%08x, read back 0x%08x" [.word pattern, .word shown]

/-- `test_kernel_alloc_avoids_ltram`. -/
def testKernelAllocAvoidsLtram : Module Int := do
  prInfo (tag ++ ": TEST 4 - GFP_KERNEL allocation should NOT land on LtRAM\n") []
  let folio ← folioAlloc .kernelAlloc gfpKernel 0
  expectPointer folio "GFP_KERNEL alloc failed" fun folio => do
    prInfo (tag ++ ":   got folio: nid=%d, zone=%d\n") [.int folio.nid, .zone folio.zonenum]
    expect (folio.zonenum ≠ .ltram) "GFP_KERNEL leaked onto ZONE_LTRAM" [] <|
      expect (folio.nid = 0) "GFP_KERNEL allocation landed on node %d, expected 0"
        [.int folio.nid] do
          folioPut folio
          prInfo (tag ++ ":   PASS\n") []
          return 0

/-- `test_highuser_alloc_avoids_ltram`. -/
def testHighuserAllocAvoidsLtram : Module Int := do
  prInfo (tag ++ ": TEST 5 - GFP_HIGHUSER allocation should NOT land on LtRAM\n") []
  let folio ← folioAlloc .highuserAlloc gfpHighuser 0
  expectPointer folio "GFP_HIGHUSER alloc failed" fun folio =>
    expect (folio.zonenum ≠ .ltram) "GFP_HIGHUSER leaked onto ZONE_LTRAM" [] do
      prInfo (tag ++ ":   GFP_HIGHUSER landed on nid=%d zone=%d: PASS\n")
        [.int folio.nid, .zone folio.zonenum]
      folioPut folio
      return 0

/-- `PAGE_SIZE`. -/
def pageSize : Nat := 4096

/-- `test_alloc_free_realloc`. -/
def testAllocFreeRealloc : Module Int := do
  prInfo (tag ++ ": TEST 6 - alloc -> write -> free -> alloc cycle\n") []
  let first ← folioAlloc .firstAlloc ltramGfp 0
  expectPointer first "first alloc failed" fun first => do
    let kva ← folioAddress first
    memset kva 0xAB pageSize
    prInfo (tag ++ ":   first folio at nid=%d, wrote 0xAB pattern\n") [.int first.nid]
    folioPut first
    let second ← folioAlloc .secondAlloc ltramGfp 0
    expectPointer second "second alloc failed" fun second =>
      expect (second.nid = 1) "second alloc not on LtRAM" [] do
        prInfo (tag ++ ":   second alloc succeeded on nid=%d: PASS\n") [.int second.nid]
        folioPut second
        return 0

/-! ## The suite -/

/-- What the suite leaves in sysfs, and the six values the tests returned. -/
structure Report where
  lastPassCount : Int32
  lastFailCount : Int32
  codes : List Int
  deriving DecidableEq

/-- `if (test() == 0) passes++; else fails++;` -/
def tally (counts : Int32 × Int32) (code : Int) : Int32 × Int32 :=
  if code = 0 then (counts.1 + 1, counts.2) else (counts.1, counts.2 + 1)

/-- The closing lines of the log. -/
def verdict (fails : Int32) : Module Unit :=
  if fails = 0 then prInfo (tag ++ ": ALL TESTS PASSED\n") []
  else prErr (tag ++ ":  %d TEST(S) FAILED\n") [.int fails.toInt]

/-- `ltram_smoketest_init`. -/
def ltramSmoketestInit (bulkCount : Int32) : Module Report := do
  prInfo (tag ++ ": ============= SMOKE TEST START =============\n") []
  prInfo (tag ++ ": bulk_count parameter = %d\n") [.int bulkCount.toInt]
  let single ← testSinglePage
  let bulk ← testBulkAllocation bulkCount
  let write ← testWriteThenRead
  let kernel ← testKernelAllocAvoidsLtram
  let highuser ← testHighuserAllocAvoidsLtram
  let realloc ← testAllocFreeRealloc
  let codes := [single, bulk, write, kernel, highuser, realloc]
  let counts := codes.foldl tally (0, 0)
  prInfo (tag ++ ": ============= SMOKE TEST DONE  =============\n") []
  prInfo (tag ++ ": Results: %d passed, %d failed\n")
    [.int counts.1.toInt, .int counts.2.toInt]
  verdict counts.2
  return ⟨counts.1, counts.2, codes⟩

end LtramBench.Smoketest
