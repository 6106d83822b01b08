import LtramBench.Interaction.Pool
import LtramBench.Ltram.Handler
import Mathlib.Algebra.BigOperators.Ring.Finset

/-!
# Repatriation accounting

Any number of handlers run at once on one kernel, interleaved call by call, and
any of them may fault on the same folio.  The counters of `ltram_stats` are then
compared with what the kernel did: the log of folios that left LtRAM, and the
values the finished handlers returned.

The counts go through the handlers' histories.  Each counter is the number of
its increments over all histories and the log is as long as the number of
successful migrations, by the weight rule for pools; what remains is one fact
about a single handler at every point of its code.
-/

namespace LtramBench.Ltram

open LtramBench.Interaction LtramBench.Kernel

/-! ## Reading a history -/

/-- One for every increment of `counter`. -/
def increments (counter : Counter) : Event handlerInterface → Nat
  | ⟨.atomicLongInc bumped, _⟩ => if bumped = counter then 1 else 0
  | _ => 0

/-- One for every migration that returned `0`. -/
def migrations : Event handlerInterface → Nat
  | ⟨.ltramMigrateFrom _, err⟩ => if (err : Int) = 0 then 1 else 0
  | _ => 0

/-- The handler has migrated its folio but not counted it yet. -/
def Uncounted (history : List (Event handlerInterface)) : Prop :=
  (history.map migrations).sum ≠ 0 ∧ (history.map (increments .nrRepat)).sum = 0

instance (history : List (Event handlerInterface)) : Decidable (Uncounted history) :=
  inferInstanceAs (Decidable (_ ∧ _))

/-- The value a finished handler returned. -/
def returned : Program handlerInterface VmFault → Option VmFault
  | .done value => some value
  | _ => none

/-- The value that goes with each counter. -/
def Counter.code : Counter → VmFault
  | .nrRepat => vmFaultNopage
  | .nrRepatFail => vmFaultRetry
  | .nrWarnWrongZone => 0

/-! ## One handler, at every point of its code -/

/-- A history and a rest of the code that agree: the migration is counted unless
it is still to be counted, and a returned value goes with the one counter that
was incremented. -/
structure Accounted (history : List (Event handlerInterface)) (rest : Handler VmFault) :
    Prop where
  migrated : (history.map migrations).sum =
    (history.map (increments .nrRepat)).sum + if Uncounted history then 1 else 0
  counted : ∀ value, returned rest = some value →
    ∃ counter : Counter, value = counter.code ∧
      ∀ other, (history.map (increments other)).sum = if other = counter then 1 else 0

theorem accounted_of_running {history : List (Event handlerInterface)} {request : HandlerCall}
    {next : request.Answer → Handler VmFault}
    (migrated : (history.map migrations).sum =
      (history.map (increments .nrRepat)).sum + if Uncounted history then 1 else 0) :
    Accounted history (.call (I := handlerInterface) request next) :=
  ⟨migrated, fun _ finished => nomatch finished⟩

/-- The handler is accounted for at every point of its code. -/
theorem accounted_of_reaches {folio : Folio} {history : List (Event handlerInterface)}
    {rest : Handler VmFault} (reached : (ltramPageMkwrite folio).Reaches history rest) :
    Accounted history rest := by
  simp only [ltramPageMkwrite, folioZonenum_bind, Program.reaches_call_iff] at reached
  rcases reached with ⟨rfl, rfl⟩ | ⟨zone, later, rfl, reached⟩
  · exact accounted_of_running (by simp [Uncounted])
  by_cases outside : zone ≠ Zone.ltram
  · simp only [if_pos outside, atomicLongInc_bind, prWarnRatelimited_bind, Program.pure_eq_done,
      Program.reaches_call_iff, Program.reaches_done_iff] at reached
    rcases reached with ⟨rfl, rfl⟩ | ⟨_, _, rfl, ⟨rfl, rfl⟩ | ⟨_, _, rfl, ⟨rfl, rfl⟩ |
      ⟨_, _, rfl, rfl, rfl⟩⟩⟩
    · exact accounted_of_running (by simp [Uncounted, migrations, increments])
    · exact accounted_of_running (by simp [Uncounted, migrations, increments])
    · exact accounted_of_running (by simp [Uncounted, migrations, increments])
    · refine ⟨by simp [Uncounted, migrations, increments], fun value finished => ?_⟩
      cases finished
      exact ⟨.nrWarnWrongZone, rfl, by simp [increments, eq_comm]⟩
  · simp only [if_neg outside, ltramMigrateFrom_bind, Program.reaches_call_iff] at reached
    rcases reached with ⟨rfl, rfl⟩ | ⟨err, later, rfl, reached⟩
    · exact accounted_of_running (by simp [Uncounted, migrations, increments])
    by_cases failed : err ≠ (0 : Int)
    · simp only [if_pos failed, atomicLongInc_bind, Program.pure_eq_done,
        Program.reaches_call_iff, Program.reaches_done_iff] at reached
      rcases reached with ⟨rfl, rfl⟩ | ⟨_, _, rfl, rfl, rfl⟩
      · exact accounted_of_running (by simp [Uncounted, migrations, increments, failed])
      · refine ⟨by simp [Uncounted, migrations, increments, failed], fun value finished => ?_⟩
        cases finished
        exact ⟨.nrRepatFail, rfl, by simp [increments, eq_comm]⟩
    · rw [not_not] at failed
      subst failed
      simp only [ne_eq, not_true, if_false, atomicLongInc_bind, Program.pure_eq_done,
        Program.reaches_call_iff, Program.reaches_done_iff] at reached
      rcases reached with ⟨rfl, rfl⟩ | ⟨_, _, rfl, rfl, rfl⟩
      · exact accounted_of_running (by simp [Uncounted, migrations, increments])
      · refine ⟨by simp [Uncounted, migrations, increments], fun value finished => ?_⟩
        cases finished
        exact ⟨.nrRepat, rfl, by simp [increments, eq_comm]⟩

/-! ## Every interleaving -/

/-- The migration helper acts atomically and returns `0` to exactly the caller
that moved the folio out of LtRAM; `movedOut` is the log of these moves. -/
structure MovesExclusively {σ : Type} (migrateFrom : Folio → σ → Int × σ)
    (movedOut : σ → List Folio) : Prop where
  moved : ∀ folio kernel, (migrateFrom folio kernel).1 = 0 →
    movedOut (migrateFrom folio kernel).2 = folio :: movedOut kernel
  kept : ∀ folio kernel, (migrateFrom folio kernel).1 ≠ 0 →
    movedOut (migrateFrom folio kernel).2 = movedOut kernel

section Interleaving

variable {σ ι : Type} [Fintype ι] [DecidableEq ι] (migrateFrom : Folio → σ → Int × σ)

/-- The handlers of `folios`, all counters at zero, after `schedule`. -/
def interleave (folios : ι → Folio) (kernel : σ) (schedule : List ι) :
    Pool handlerInterface ι VmFault (Stats × σ) :=
  Pool.run (handlerMachine migrateFrom)
    (Pool.initial (fun index => ltramPageMkwrite (folios index)) (fun _ => 0, kernel)) schedule

/-- How often `counter` has been incremented. -/
def incrementCount (pool : Pool handlerInterface ι VmFault (Stats × σ)) (counter : Counter) :
    Nat :=
  ∑ index, ((pool.threads index).history.map (increments counter)).sum

omit [Fintype ι] in
theorem accounted_interleave (folios : ι → Folio) (kernel : σ) (schedule : List ι)
    (index : ι) :
    Accounted ((interleave migrateFrom folios kernel schedule).threads index).history
      ((interleave migrateFrom folios kernel schedule).threads index).program :=
  @accounted_of_reaches (folios index) _ _
    (Pool.reaches_run (handlerMachine migrateFrom)
      (fun index => ltramPageMkwrite (folios index)) (fun _ => 0, kernel) schedule index)

/-- Atomic increments lose nothing: a counter is the number of its increments,
modulo `2 ^ 64`. -/
theorem stats_interleave (folios : ι → Folio) (kernel : σ) (schedule : List ι)
    (counter : Counter) :
    (interleave migrateFrom folios kernel schedule).shared.1 counter =
      (incrementCount (interleave migrateFrom folios kernel schedule) counter : BitVec 64) := by
  have adds : ∀ request (state : Stats × σ),
      (handlerMachine migrateFrom request state).2.1 counter = state.1 counter +
        (increments counter ⟨request, (handlerMachine migrateFrom request state).1⟩ :
          BitVec 64) := by
    intro request state
    cases request with
    | folioZonenum folio => simp [handlerMachine, increments]
    | ltramMigrateFrom folio => simp [handlerMachine, increments]
    | prWarnRatelimited format zone => simp [handlerMachine, increments]
    | atomicLongInc bumped =>
        by_cases same : bumped = counter
        · subst same
          simp [handlerMachine, increments, Stats.inc]
        · simp [handlerMachine, increments, Stats.inc, same, Ne.symm same]
  have total := Pool.measure_run (fun state : Stats × σ => state.1 counter)
    (fun event => (increments counter event : BitVec 64)) adds
    (fun index => ltramPageMkwrite (folios index)) (fun _ => 0, kernel) schedule
  simp only [incrementCount, Nat.cast_sum, Nat.cast_list_sum, List.map_map]
  rw [zero_add] at total
  exact total

/-- The log is as long as the number of migrations that returned `0`. -/
theorem length_movedOut_interleave {movedOut : σ → List Folio}
    (exclusive : MovesExclusively migrateFrom movedOut) (folios : ι → Folio) {kernel : σ}
    (fresh : movedOut kernel = []) (schedule : List ι) :
    (movedOut (interleave migrateFrom folios kernel schedule).shared.2).length =
      ∑ index, (((interleave migrateFrom folios kernel schedule).threads index).history.map
        migrations).sum := by
  have adds : ∀ request (state : Stats × σ),
      (movedOut (handlerMachine migrateFrom request state).2.2).length =
        (movedOut state.2).length +
          migrations ⟨request, (handlerMachine migrateFrom request state).1⟩ := by
    intro request state
    cases request with
    | folioZonenum folio => simp [handlerMachine, migrations]
    | atomicLongInc counter => simp [handlerMachine, migrations]
    | prWarnRatelimited format zone => simp [handlerMachine, migrations]
    | ltramMigrateFrom folio =>
        by_cases moved : (migrateFrom folio state.2).1 = 0
        · simp [handlerMachine, migrations, moved, exclusive.moved folio state.2 moved]
        · simp [handlerMachine, migrations, moved, exclusive.kept folio state.2 moved]
  have total := Pool.measure_run (fun state : Stats × σ => (movedOut state.2).length)
    migrations adds (fun index => ltramPageMkwrite (folios index)) (fun _ => 0, kernel) schedule
  simpa [interleave, fresh] using total

/-- In every reachable state the moves are the counted ones together with those
whose handler has yet to count them. -/
theorem length_movedOut_eq {movedOut : σ → List Folio}
    (exclusive : MovesExclusively migrateFrom movedOut) (folios : ι → Folio) {kernel : σ}
    (fresh : movedOut kernel = []) (schedule : List ι) :
    (movedOut (interleave migrateFrom folios kernel schedule).shared.2).length =
      incrementCount (interleave migrateFrom folios kernel schedule) .nrRepat +
        (Finset.univ.filter fun index => Uncounted
          ((interleave migrateFrom folios kernel schedule).threads index).history).card := by
  rw [length_movedOut_interleave migrateFrom exclusive folios fresh schedule, incrementCount,
    Finset.card_filter, ← Finset.sum_add_distrib]
  apply Finset.sum_congr rfl
  intro index _
  exact (accounted_interleave migrateFrom folios kernel schedule index).migrated

/-- Once every handler has returned, a counter has been incremented as often as
its value was returned. -/
theorem incrementCount_eq_of_returned (folios : ι → Folio) (kernel : σ) (schedule : List ι)
    (all_returned : ∀ index,
      (returned ((interleave migrateFrom folios kernel schedule).threads index).program).isSome)
    (counter : Counter) :
    incrementCount (interleave migrateFrom folios kernel schedule) counter =
      (Finset.univ.filter fun index =>
        returned ((interleave migrateFrom folios kernel schedule).threads index).program =
          some counter.code).card := by
  rw [incrementCount, Finset.card_filter]
  apply Finset.sum_congr rfl
  intro index _
  obtain ⟨value, finished⟩ := Option.isSome_iff_exists.mp (all_returned index)
  obtain ⟨bumped, rfl, counts⟩ :=
    (accounted_interleave migrateFrom folios kernel schedule index).counted value finished
  rw [counts counter, finished]
  cases counter <;> cases bumped <;> decide

/-- Once every handler has returned, each has incremented exactly one counter. -/
theorem incrementCount_sum_of_returned (folios : ι → Folio) (kernel : σ) (schedule : List ι)
    (all_returned : ∀ index,
      (returned ((interleave migrateFrom folios kernel schedule).threads index).program).isSome) :
    incrementCount (interleave migrateFrom folios kernel schedule) .nrRepat +
        incrementCount (interleave migrateFrom folios kernel schedule) .nrRepatFail +
        incrementCount (interleave migrateFrom folios kernel schedule) .nrWarnWrongZone =
      Fintype.card ι := by
  simp only [incrementCount, ← Finset.sum_add_distrib]
  rw [← Finset.card_univ, Finset.card_eq_sum_ones]
  apply Finset.sum_congr rfl
  intro index _
  obtain ⟨value, finished⟩ := Option.isSome_iff_exists.mp (all_returned index)
  obtain ⟨bumped, -, counts⟩ :=
    (accounted_interleave migrateFrom folios kernel schedule index).counted value finished
  simp only [counts]
  cases bumped <;> rfl

/-- Repatriation accounting, for any number of handlers, any assignment of
folios to them and any interleaving of their calls. -/
theorem repatriation_accounting {movedOut : σ → List Folio}
    (exclusive : MovesExclusively migrateFrom movedOut) (folios : ι → Folio) {kernel : σ}
    (fresh : movedOut kernel = []) (schedule : List ι) :
    let pool := interleave migrateFrom folios kernel schedule
    pool.shared.1 .nrRepat +
          ((Finset.univ.filter fun index =>
            Uncounted (pool.threads index).history).card : BitVec 64) =
        ((movedOut pool.shared.2).length : BitVec 64) ∧
      ((∀ index, (returned (pool.threads index).program).isSome) →
        pool.shared.1 .nrRepat + pool.shared.1 .nrRepatFail + pool.shared.1 .nrWarnWrongZone =
            (Fintype.card ι : BitVec 64) ∧
          pool.shared.1 .nrRepat =
            ((Finset.univ.filter fun index =>
              returned (pool.threads index).program = some vmFaultNopage).card : BitVec 64) ∧
          pool.shared.1 .nrRepatFail =
            ((Finset.univ.filter fun index =>
              returned (pool.threads index).program = some vmFaultRetry).card : BitVec 64) ∧
          pool.shared.1 .nrWarnWrongZone =
            ((Finset.univ.filter fun index =>
              returned (pool.threads index).program = some 0).card : BitVec 64)) := by
  intro pool
  have stats := stats_interleave migrateFrom folios kernel schedule
  constructor
  · rw [stats, length_movedOut_eq migrateFrom exclusive folios fresh schedule, Nat.cast_add]
  · intro all_returned
    have counts := incrementCount_eq_of_returned migrateFrom folios kernel schedule all_returned
    refine ⟨?_, ?_, ?_, ?_⟩
    · rw [stats, stats, stats, ← Nat.cast_add, ← Nat.cast_add,
        incrementCount_sum_of_returned migrateFrom folios kernel schedule all_returned]
    · rw [stats, counts .nrRepat]
      rfl
    · rw [stats, counts .nrRepatFail]
      rfl
    · rw [stats, counts .nrWarnWrongZone]
      rfl

end Interleaving

/-- A helper that moves every folio once and is busy ever after. -/
def migrateOnce (folio : Folio) (movedOut : List Folio) : Int × List Folio :=
  if folio ∈ movedOut then (-EBUSY, movedOut) else (0, folio :: movedOut)

theorem migrateOnce_exclusive : MovesExclusively migrateOnce id where
  moved folio movedOut succeeded := by
    by_cases gone : folio ∈ movedOut
    · simp [migrateOnce, gone, EBUSY] at succeeded
    · simp [migrateOnce, gone]
  kept folio movedOut failed := by
    by_cases gone : folio ∈ movedOut
    · simp [migrateOnce, gone]
    · simp [migrateOnce, gone] at failed

/-- Two handlers pass the zone test for one folio before either migrates it: one
repatriation is counted and one failure. -/
theorem repatriation_accounting_contended :
    let pool := interleave migrateOnce
      (fun _ : Fin 2 => { pfn := 7, nid := 1, zonenum := .ltram }) [] [0, 1, 0, 1, 1, 0]
    pool.shared.1 .nrRepat = 1 ∧ pool.shared.1 .nrRepatFail = 1 := by
  have accounts := (repatriation_accounting migrateOnce migrateOnce_exclusive
    (fun _ : Fin 2 => { pfn := 7, nid := 1, zonenum := .ltram }) (show id [] = [] from rfl)
    [0, 1, 0, 1, 1, 0]).2 (by decide)
  exact ⟨accounts.2.1.trans (by decide), accounts.2.2.1.trans (by decide)⟩

end LtramBench.Ltram
