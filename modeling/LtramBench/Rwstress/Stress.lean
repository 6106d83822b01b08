import LtramBench.Interaction.Ensures
import Mathlib.Algebra.Group.Nat.Defs
import Mathlib.Algebra.Ring.Int.Defs

/-!
# The page loops of `ltram_rw_stress.c`

The program maps a file of `npages` pages, reads one byte of each page, makes the
mapping writable and writes one byte of each page.  The length is a product in
`size_t`, so it is known modulo `2 ^ 64` only, and so is the index of both loops;
the counts that are printed are the argument itself.
-/

namespace LtramBench.Rwstress

open LtramBench.Interaction

/-- What the program asks of the system. -/
inductive OsCall where
  | openFile (path : String)
  | ftruncate (fd : Int) (length : Int64)
  | mmap (length : UInt64) (fd : Int)
  | load (address : Nat)
  | store (address : Nat) (byte : UInt8)
  | mprotect (address : Nat) (length : UInt64)
  | printf (format : String) (count : Int64)
  | perror (text : String)
  | msync (address : Nat) (length : UInt64)
  | munmap (address : Nat) (length : UInt64)
  | close (fd : Int)
  | unlink (path : String)
  deriving DecidableEq

/-- The type of the answer to each call; `none` is `MAP_FAILED`. -/
abbrev OsCall.Answer : OsCall → Type
  | openFile _ => Int
  | ftruncate _ _ => Int
  | mmap _ _ => Option Nat
  | load _ => Int8
  | store _ _ => Unit
  | mprotect _ _ => Int
  | printf _ _ => Unit
  | perror _ => Unit
  | msync _ _ => Unit
  | munmap _ _ => Unit
  | close _ => Unit
  | unlink _ => Unit

abbrev osInterface : Interface := ⟨OsCall, OsCall.Answer⟩

abbrev Process := Program osInterface

/-- One call, answered. -/
def sys (request : OsCall) : Process request.Answer :=
  .perform (I := osInterface) request

/-! ## The program -/

/-- `PGSZ`. -/
def pgsz : UInt64 := 4096

/-- `for (size_t i = 0; i < len; i += PGSZ)`, from a given `i` on.  A loop that
has not come to its end when the fuel is used up counts as a crash. -/
def pageLoop {β : Type} (body : UInt64 → β → Process β) (len : UInt64) :
    Nat → UInt64 → β → Process β
  | 0, _, _ => .crash
  | fuel + 1, i, state =>
      if i < len then do
        let next ← body i state
        pageLoop body len fuel (i + pgsz) next
      else return state

/-- `sink += p[i]`. -/
def readRound (p : Nat) (i : UInt64) (sink : Int64) : Process Int64 := do
  let value ← sys (.load (p + i.toNat))
  return sink + value.toInt64

/-- `p[i] = 0x5a`. -/
def writeRound (p : Nat) (i : UInt64) (_ : Unit) : Process Unit :=
  sys (.store (p + i.toNat) 0x5a)

/-- The arguments of `main` after the defaults are filled in. -/
structure Arguments where
  npages : Int64
  path : String

/-- `strtol` is applied to the first argument, if there is one. -/
def readArguments (strtol : String → Int64) (argv : List String) : Arguments where
  npages := match argv[1]? with
    | some text => strtol text
    | none => 256
  path := argv[2]?.getD "/root/.ltram_rw_stress.dat"

/-- `size_t len = (size_t)npages * PGSZ`. -/
def length (npages : Int64) : UInt64 :=
  npages.toUInt64 * pgsz

def readLine : String :=
  "[rwstress] read-only phase: %ld pages read-faulted (should land in LtRAM)\n"

def writeLine : String :=
  "[rwstress] write phase: %ld pages written after mprotect(PROT_WRITE)\n"

/-- `main`, with the arguments read. -/
def stress (fuel : Nat) (arguments : Arguments) : Process Int := do
  let len := length arguments.npages
  let fd ← sys (.openFile arguments.path)
  if fd < 0 then
    sys (.perror "open")
    return 1
  else
    let truncated ← sys (.ftruncate fd len.toInt64)
    if truncated < 0 then
      sys (.perror "ftruncate")
      sys (.close fd)
      return 1
    else
      match ← sys (.mmap len fd) with
      | none =>
          sys (.perror "mmap PROT_READ")
          sys (.close fd)
          return 1
      | some p =>
          let _ ← pageLoop (readRound p) len fuel 0 0
          sys (.printf readLine arguments.npages)
          let writable ← sys (.mprotect p len)
          if writable < 0 then
            sys (.perror "mprotect RW")
            sys (.munmap p len)
            sys (.close fd)
            return 1
          else
            pageLoop (writeRound p) len fuel 0 ()
            sys (.printf writeLine arguments.npages)
            sys (.msync p len)
            sys (.munmap p len)
            sys (.close fd)
            sys (.unlink arguments.path)
            return 0

/-- `main`. -/
def main (strtol : String → Int64) (fuel : Nat) (argv : List String) : Process Int :=
  stress fuel (readArguments strtol argv)

/-! ## One loop -/

section PageLoop

variable {β σ : Type} {body : UInt64 → β → Process β} {len i : UInt64} {rounds fuel : Nat}

/-- With a whole number of pages left the index does not wrap. -/
theorem add_pgsz (left : i.toNat + (rounds + 1) * 4096 = len.toNat) :
    i < len ∧ (i + pgsz).toNat + rounds * 4096 = len.toNat := by
  have limit := len.toNat_lt
  constructor
  · exact UInt64.lt_iff_toNat_lt.mpr (by omega)
  · rw [UInt64.toNat_add]
    change (i.toNat + 4096) % 2 ^ 64 + _ = _
    omega

theorem not_lt_of_none_left (left : i.toNat + 0 * 4096 = len.toNat) : ¬ i < len := by
  rw [UInt64.lt_iff_toNat_lt]
  omega

/-- The loop comes to its end if its body does. -/
theorem ensures_pageLoop {machine : Machine osInterface σ}
    (returns : ∀ i value state, machine.Ensures (body i value) (fun _ _ => True) state)
    (left : i.toNat + rounds * 4096 = len.toNat) (enough : rounds < fuel) (value : β) (state : σ) :
    machine.Ensures (pageLoop body len fuel i value) (fun _ _ => True) state := by
  induction rounds generalizing fuel i value state with
  | zero =>
      obtain ⟨fuel, rfl⟩ := Nat.exists_eq_succ_of_ne_zero (Nat.ne_of_gt enough)
      rw [pageLoop, if_neg (not_lt_of_none_left left)]
      trivial
  | succ rounds ih =>
      obtain ⟨fuel, rfl⟩ := Nat.exists_eq_succ_of_ne_zero (Nat.ne_zero_of_lt enough)
      obtain ⟨inside, next⟩ := add_pgsz left
      rw [pageLoop, if_pos inside, Machine.ensures_bind]
      apply (returns i value state).mono
      intro value after _
      exact ih next (Nat.lt_of_succ_lt_succ enough) value after

/-- A loop whose body makes one call makes it once for each page that is left. -/
theorem calls_pageLoop {request : Nat → OsCall}
    (single : ∀ i value trace after, (body i value).Runs trace (some after) →
      trace.map Event.call = [request i.toNat])
    (left : i.toNat + rounds * 4096 = len.toNat) {value after : β}
    {trace : List (Event osInterface)}
    (run : (pageLoop body len fuel i value).Runs trace (some after)) :
    trace.map Event.call = (List.range rounds).map fun page => request (i.toNat + page * 4096) := by
  induction rounds generalizing fuel i value trace with
  | zero =>
      cases fuel with
      | zero => simp [pageLoop] at run
      | succ fuel =>
          rw [pageLoop, if_neg (not_lt_of_none_left left), Program.pure_eq_done,
            Program.runs_done_iff] at run
          rw [run.1]
          rfl
  | succ rounds ih =>
      cases fuel with
      | zero => simp [pageLoop] at run
      | succ fuel =>
          obtain ⟨inside, next⟩ := add_pgsz left
          rw [pageLoop, if_pos inside, Program.runs_bind_some_iff] at run
          obtain ⟨first, middle, second, rfl, round, rest⟩ := run
          have advanced : (i + pgsz).toNat = i.toNat + 4096 := by
            omega
          rw [List.map_append, single i value first middle round, ih next rest, advanced,
            List.range_succ_eq_map, List.map_cons, List.map_map]
          simp [Function.comp_def, Nat.succ_mul, Nat.add_assoc, Nat.add_comm 4096]

end PageLoop

theorem calls_readRound {p : Nat} {i : UInt64} {sink after : Int64}
    {trace : List (Event osInterface)}
    (run : (readRound p i sink).Runs trace (some after)) :
    trace.map Event.call = [.load (p + i.toNat)] := by
  simp only [readRound, sys, Program.perform, Program.call_bind, Program.done_bind,
    Program.pure_eq_done, Program.runs_call_iff, Program.runs_done_iff] at run
  obtain ⟨_, _, rfl, rfl, -⟩ := run
  rfl

theorem calls_writeRound {p : Nat} {i : UInt64} {trace : List (Event osInterface)}
    (run : (writeRound p i ()).Runs trace (some ())) :
    trace.map Event.call = [.store (p + i.toNat) 0x5a] := by
  obtain ⟨_, _, rfl, last⟩ := (Program.runs_call_iff _ _ _ _).mp run
  rw [((Program.runs_done_iff _ _ _).mp last).1]
  rfl

/-! ## Whole runs -/

/-- The four calls that can fail succeed. -/
def Succeeds : Event osInterface → Prop
  | ⟨.openFile _, fd⟩ => (0 : Int) ≤ fd
  | ⟨.ftruncate _ _, code⟩ => (0 : Int) ≤ code
  | ⟨.mmap _ _, address⟩ => (address : Option Nat) ≠ none
  | ⟨.mprotect _ _, code⟩ => (0 : Int) ≤ code
  | _ => True

instance : DecidablePred Succeeds
  | ⟨.openFile _, fd⟩ => inferInstanceAs (Decidable ((0 : Int) ≤ fd))
  | ⟨.ftruncate _ _, code⟩ => inferInstanceAs (Decidable ((0 : Int) ≤ code))
  | ⟨.mmap _ _, address⟩ => inferInstanceAs (Decidable ((address : Option Nat) ≠ none))
  | ⟨.mprotect _ _, code⟩ => inferInstanceAs (Decidable ((0 : Int) ≤ code))
  | ⟨.load _, _⟩ => isTrue trivial
  | ⟨.store _ _, _⟩ => isTrue trivial
  | ⟨.printf _ _, _⟩ => isTrue trivial
  | ⟨.perror _, _⟩ => isTrue trivial
  | ⟨.msync _ _, _⟩ => isTrue trivial
  | ⟨.munmap _ _, _⟩ => isTrue trivial
  | ⟨.close _, _⟩ => isTrue trivial
  | ⟨.unlink _, _⟩ => isTrue trivial

/-- The addresses that are read, in order. -/
def loads (trace : List (Event osInterface)) : List Nat :=
  (trace.map Event.call).filterMap fun
    | .load address => some address
    | _ => none

/-- The addresses that are written, in order. -/
def stores (trace : List (Event osInterface)) : List Nat :=
  (trace.map Event.call).filterMap fun
    | .store address _ => some address
    | _ => none

/-- The counts that are printed, in order. -/
def counts (trace : List (Event osInterface)) : List Int64 :=
  (trace.map Event.call).filterMap fun
    | .printf _ count => some count
    | _ => none

/-- The first address of each of the pages `0 .. npages - 1` of a mapping. -/
def pages (p : Nat) (npages : Int64) : List Nat :=
  (List.range npages.toInt.toNat).map fun page => p + page * 4096

/-- Both loops touch each page once and nothing else, inside the mapping, and both
counts that are printed are true. -/
structure TouchesEveryPage (npages : Int64) (p : Nat) (trace : List (Event osInterface)) :
    Prop where
  read : loads trace = pages p npages
  written : stores trace = pages p npages
  inside : ∀ address ∈ loads trace ++ stores trace,
    p ≤ address ∧ address < p + (length npages).toNat
  printed : counts trace = [npages, npages]
  readCount : ((loads trace).length : Int) = npages.toInt
  writeCount : ((stores trace).length : Int) = npages.toInt

section Runs

variable {σ : Type} (machine : Machine osInterface σ)

/-- The length is a whole number of pages. -/
theorem length_eq (npages : Int64) :
    (0 : UInt64).toNat + (length npages).toNat / 4096 * 4096 = (length npages).toNat := by
  have divides : 4096 ∣ (length npages).toNat := by
    rw [length, UInt64.toNat_mul]
    exact (Nat.dvd_mod_iff ⟨2 ^ 52, rfl⟩).mpr ⟨_, Nat.mul_comm _ _⟩
  rw [Nat.div_mul_cancel divides]
  exact Nat.zero_add _

/-- With fuel for the pages of the mapping every run returns. -/
theorem ensures_stress_true {fuel : Nat} {arguments : Arguments}
    (enough : (length arguments.npages).toNat / 4096 < fuel) (state : σ) :
    machine.Ensures (stress fuel arguments) (fun _ _ => True) state := by
  have reads : ∀ p state, machine.Ensures
      (pageLoop (readRound p) (length arguments.npages) fuel 0 0) (fun _ _ => True) state :=
    fun p => ensures_pageLoop (fun _ _ _ => by trivial) (length_eq arguments.npages) enough 0
  have writes : ∀ p state, machine.Ensures
      (pageLoop (writeRound p) (length arguments.npages) fuel 0 ()) (fun _ _ => True) state :=
    fun p => ensures_pageLoop (fun _ _ _ => by trivial) (length_eq arguments.npages) enough ()
  unfold stress
  simp only [sys, Program.perform, Program.call_bind, Program.done_bind, Program.pure_eq_done,
    Machine.ensures_call]
  split
  · trivial
  · rw [Machine.ensures_call]
    split
    · trivial
    · rw [Machine.ensures_call]
      split
      · trivial
      · rw [Machine.ensures_bind]
        apply (reads _ _).mono
        intro _ _ _
        simp only [Machine.ensures_call]
        split
        · trivial
        · rw [Machine.ensures_bind]
          apply (writes _ _).mono
          intro _ _ _
          trivial

end Runs

/-- The calls of a loop over the whole mapping. -/
def touch (request : Nat → OsCall) (npages : Int64) : List OsCall :=
  (List.range ((length npages).toNat / 4096)).map fun page => request (page * 4096)

theorem calls_wholeLoop {β : Type} {body : UInt64 → β → Process β} (request : Nat → OsCall)
    (single : ∀ i value trace after, (body i value).Runs trace (some after) →
      trace.map Event.call = [request i.toNat])
    {npages : Int64} {fuel : Nat} {value after : β} {trace : List (Event osInterface)}
    (run : (pageLoop body (length npages) fuel 0 value).Runs trace (some after)) :
    trace.map Event.call = touch request npages := by
  rw [calls_pageLoop single (length_eq npages) run]
  simp [touch]

/-- The calls of a run in which nothing fails. -/
theorem calls_stress {fuel : Nat} {arguments : Arguments} {trace : List (Event osInterface)}
    {code : Int} (run : (stress fuel arguments).Runs trace (some code))
    (succeeds : ∀ event ∈ trace, Succeeds event) :
    code = 0 ∧ ∃ fd p, (⟨.mmap (length arguments.npages) fd, some p⟩ : Event osInterface) ∈ trace ∧
      trace.map Event.call =
        [.openFile arguments.path, .ftruncate fd (length arguments.npages).toInt64,
            .mmap (length arguments.npages) fd] ++
          (touch (fun i => .load (p + i)) arguments.npages ++
            ([.printf readLine arguments.npages, .mprotect p (length arguments.npages)] ++
              (touch (fun i => .store (p + i) 0x5a) arguments.npages ++
                [.printf writeLine arguments.npages, .msync p (length arguments.npages),
                  .munmap p (length arguments.npages), .close fd, .unlink arguments.path]))) := by
  simp only [stress, sys, Program.perform, Program.call_bind, Program.done_bind,
    Program.pure_eq_done, Program.runs_call_iff] at run
  obtain ⟨fd, _, rfl, run⟩ := run
  have opened : ¬ fd < 0 := Int.not_lt.mpr (succeeds _ List.mem_cons_self)
  rw [if_neg opened] at run
  simp only [Program.runs_call_iff] at run
  obtain ⟨truncated, _, rfl, run⟩ := run
  have sized : ¬ truncated < 0 :=
    Int.not_lt.mpr (succeeds _ (List.mem_cons_of_mem _ List.mem_cons_self))
  rw [if_neg sized] at run
  simp only [Program.runs_call_iff] at run
  obtain ⟨address, _, rfl, fromMap⟩ := run
  obtain ⟨p, rfl⟩ : ∃ p : Nat, address = some p :=
    Option.ne_none_iff_exists'.mp
      (succeeds _ (List.mem_cons_of_mem _ (List.mem_cons_of_mem _ List.mem_cons_self)))
  obtain ⟨reads, _, _, rfl, readRun, afterRead⟩ := (Program.runs_bind_some_iff _ _ _ _).mp fromMap
  simp only [Program.runs_call_iff] at afterRead
  obtain ⟨_, _, rfl, writable, _, rfl, afterProtect⟩ := afterRead
  have unlocked : ¬ writable < 0 := by
    refine Int.not_lt.mpr (succeeds ⟨.mprotect p (length arguments.npages), writable⟩ ?_)
    simp
  rw [if_neg unlocked] at afterProtect
  obtain ⟨writes, _, _, rfl, writeRun, afterWrite⟩ :=
    (Program.runs_bind_some_iff _ _ _ _).mp afterProtect
  simp only [Program.runs_call_iff, Program.runs_done_iff] at afterWrite
  obtain ⟨_, _, rfl, _, _, rfl, _, _, rfl, _, _, rfl, _, _, rfl, rfl, returned⟩ := afterWrite
  refine ⟨Option.some.inj returned, fd, p, by simp, ?_⟩
  have readCalls := calls_wholeLoop (fun i => .load (p + i)) (fun _ _ _ _ => calls_readRound) readRun
  have writeCalls :=
    calls_wholeLoop (fun i => .store (p + i) 0x5a) (fun _ _ _ _ => calls_writeRound) writeRun
  simp only [List.map_cons, List.map_append, readCalls, writeCalls, List.map_nil, List.cons_append,
    List.nil_append]

/-- The number of pages of the mapping is the argument exactly when the product
does not wrap. -/
theorem pages_eq_iff (npages : Int64) :
    (((length npages).toNat / 4096 : Nat) : Int) = npages.toInt ↔
      0 ≤ npages.toInt ∧ npages.toInt * 4096 < 2 ^ 64 := by
  have signed := BitVec.toInt_eq_toNat_cond npages.toBitVec
  change npages.toInt = if 2 * npages.toUInt64.toNat < 2 ^ 64
    then (npages.toUInt64.toNat : Int) else npages.toUInt64.toNat - (2 ^ 64 : Nat) at signed
  have product : (length npages).toNat = npages.toUInt64.toNat * 4096 % 2 ^ 64 := by
    rw [length, UInt64.toNat_mul]
    rfl
  have bounded := npages.toUInt64.toNat_lt
  rw [product]
  split at signed <;> omega

/-- The pages of the whole mapping. -/
def mappedPages (p : Nat) (npages : Int64) : List Nat :=
  (List.range ((length npages).toNat / 4096)).map fun page => p + page * 4096

theorem filterMap_touch_some {request : Nat → OsCall} {p : Nat} {pick : OsCall → Option Nat}
    (picked : ∀ i, pick (request i) = some (p + i)) (npages : Int64) :
    (touch request npages).filterMap pick = mappedPages p npages := by
  have each : (pick ∘ fun page => request (page * 4096)) = fun page => some (p + page * 4096) := by
    funext page
    exact picked (page * 4096)
  rw [touch, mappedPages, List.filterMap_map, each, List.filterMap_eq_map']

theorem filterMap_touch_none {γ : Type} {request : Nat → OsCall} {pick : OsCall → Option γ}
    (passed : ∀ i, pick (request i) = none) (npages : Int64) :
    (touch request npages).filterMap pick = [] := by
  simp [touch, passed]

/-- What a run in which nothing fails has read, written and printed. -/
theorem touched_stress {fuel : Nat} {arguments : Arguments} {trace : List (Event osInterface)}
    {code : Int} (run : (stress fuel arguments).Runs trace (some code))
    (succeeds : ∀ event ∈ trace, Succeeds event) :
    code = 0 ∧ ∃ fd p, (⟨.mmap (length arguments.npages) fd, some p⟩ : Event osInterface) ∈ trace ∧
      loads trace = mappedPages p arguments.npages ∧
      stores trace = mappedPages p arguments.npages ∧
      counts trace = [arguments.npages, arguments.npages] := by
  obtain ⟨zero, fd, p, mapped, calls⟩ := calls_stress run succeeds
  refine ⟨zero, fd, p, mapped, ?_, ?_, ?_⟩
  · rw [loads, calls, List.filterMap_append, List.filterMap_append, List.filterMap_append,
      List.filterMap_append, filterMap_touch_some (fun _ => rfl),
      filterMap_touch_none (fun _ => rfl)]
    simp
  · rw [stores, calls, List.filterMap_append, List.filterMap_append, List.filterMap_append,
      List.filterMap_append, filterMap_touch_none (fun _ => rfl),
      filterMap_touch_some (fun _ => rfl)]
    simp
  · rw [counts, calls, List.filterMap_append, List.filterMap_append, List.filterMap_append,
      List.filterMap_append, filterMap_touch_none (fun _ => rfl),
      filterMap_touch_none (fun _ => rfl)]
    simp

/-- If the product does not wrap the pages of the mapping are the ones asked for. -/
theorem mappedPages_eq {npages : Int64}
    (exactly : (((length npages).toNat / 4096 : Nat) : Int) = npages.toInt) (p : Nat) :
    mappedPages p npages = pages p npages := by
  rw [mappedPages, pages, ← exactly, Int.toNat_natCast]

theorem inside_mappedPages (p : Nat) (npages : Int64) :
    ∀ address ∈ mappedPages p npages, p ≤ address ∧ address < p + (length npages).toNat := by
  intro address member
  obtain ⟨page, bound, rfl⟩ := List.mem_map.mp member
  have inside := List.mem_range.mp bound
  omega

/-- For every argument, when no call fails, both loops come to their end, and they
touch each of the `npages` pages once, nothing else, and print the true counts,
exactly when `npages * PGSZ` does not wrap. -/
theorem main_touchesEveryPage_iff {σ : Type} (machine : Machine osInterface σ) (state : σ)
    (strtol : String → Int64) (argv : List String) {fuel : Nat}
    (enough : (length (readArguments strtol argv).npages).toNat / 4096 < fuel)
    (succeeds : ∀ event ∈ (machine.run (main strtol fuel argv) state).trace, Succeeds event) :
    let npages := (readArguments strtol argv).npages
    let outcome := machine.run (main strtol fuel argv) state
    outcome.result = some 0 ∧
      ∃ fd p, (⟨.mmap (length npages) fd, some p⟩ : Event osInterface) ∈ outcome.trace ∧
        (TouchesEveryPage npages p outcome.trace ↔
          0 ≤ npages.toInt ∧ npages.toInt * 4096 < 2 ^ 64) := by
  intro npages outcome
  have run := machine.run_runs (main strtol fuel argv) state
  obtain ⟨code, returned, -⟩ := (ensures_stress_true machine enough state).run_result
  change outcome.result = some code at returned
  rw [show (machine.run (main strtol fuel argv) state).result = some code from returned] at run
  obtain ⟨rfl, fd, p, mapped, read, written, printed⟩ := touched_stress run succeeds
  refine ⟨returned, fd, p, mapped, ?_⟩
  rw [← pages_eq_iff]
  constructor
  · intro touches
    have readCount := touches.readCount
    rw [show loads outcome.trace = mappedPages p npages from read, mappedPages, List.length_map,
      List.length_range] at readCount
    exact readCount
  · intro exactly
    have same := mappedPages_eq exactly p
    have count : (mappedPages p npages).length = (length npages).toNat / 4096 := by
      rw [mappedPages, List.length_map, List.length_range]
    refine ⟨read.trans same, written.trans same, ?_, printed, ?_, ?_⟩
    · intro address member
      rw [show loads outcome.trace = mappedPages p npages from read,
        show stores outcome.trace = mappedPages p npages from written, List.mem_append,
        or_self] at member
      exact inside_mappedPages p npages address member
    · rw [show loads outcome.trace = mappedPages p npages from read, count]
      exact exactly
    · rw [show stores outcome.trace = mappedPages p npages from written, count]
      exact exactly

/-- A system that maps every length it can. -/
def plainSystem : Machine osInterface Unit
  | .openFile _, state => (3, state)
  | .ftruncate _ length, state =>
      (if 0 < length.toInt ∧ length.toInt < 2 ^ 47 then 0 else -1, state)
  | .mmap length _, state =>
      (if 0 < length.toInt64.toInt ∧ length.toInt64.toInt < 2 ^ 47 then some (2 ^ 46) else none,
        state)
  | .load _, state => (0, state)
  | .mprotect _ _, state => (0, state)
  | .store _ _, state => ((), state)
  | .printf _ _, state => ((), state)
  | .perror _, state => ((), state)
  | .msync _ _, state => ((), state)
  | .munmap _ _, state => ((), state)
  | .close _, state => ((), state)
  | .unlink _, state => ((), state)

/-- Three pages. -/
theorem main_touches_three :
    ∃ p, TouchesEveryPage 3 p
      (plainSystem.run (main (fun _ => 3) 4 ["ltram_rw_stress", "3"]) ()).trace := by
  have succeeds : ∀ event ∈ (plainSystem.run (main (fun _ => 3) 4 ["ltram_rw_stress", "3"])
      ()).trace, Succeeds event := by
    decide
  obtain ⟨-, _, p, -, touches⟩ := main_touchesEveryPage_iff plainSystem () (fun _ => 3)
    ["ltram_rw_stress", "3"] (by decide) succeeds
  exact ⟨p, touches.mpr (by decide)⟩

/-- One page more than `2 ^ 52`: a mapping of one page, of which both loops touch
the only page there is, while the counts are those of the argument. -/
theorem main_miscounts :
    (plainSystem.run (main (fun _ => 4503599627370497) 2
        ["ltram_rw_stress", "4503599627370497"]) ()).result = some 0 ∧
      ∀ p, ¬ TouchesEveryPage 4503599627370497 p
        (plainSystem.run (main (fun _ => 4503599627370497) 2
          ["ltram_rw_stress", "4503599627370497"]) ()).trace := by
  constructor
  · decide
  · intro p touches
    have counted := touches.readCount
    revert counted
    decide

end LtramBench.Rwstress
