import LtramBench.Interaction.Program
import LtramBench.Kernel.Memory

/-!
# The write-fault handler of `ltram.c`

`ltramPageMkwrite` makes its calls in the order of the source: the zone test,
the migration helper, then exactly one counter.  The migration helper belongs to
the kernel branch and is a parameter everywhere; the counters belong to the
module and are part of the model.
-/

namespace LtramBench.Ltram

open LtramBench.Interaction LtramBench.Kernel

/-- The fields of `ltram_stats`. -/
inductive Counter where
  | nrRepat
  | nrRepatFail
  | nrWarnWrongZone
  deriving DecidableEq, Repr

/-- What the handler asks of the rest of the kernel. -/
inductive HandlerCall where
  | folioZonenum (folio : Folio)
  | ltramMigrateFrom (folio : Folio)
  | atomicLongInc (counter : Counter)
  | prWarnRatelimited (format : String) (zone : Zone)
  deriving DecidableEq

/-- The type of the answer to each call. -/
abbrev HandlerCall.Answer : HandlerCall → Type
  | folioZonenum _ => Zone
  | ltramMigrateFrom _ => Int
  | atomicLongInc _ => Unit
  | prWarnRatelimited _ _ => Unit

abbrev handlerInterface : Interface := ⟨HandlerCall, HandlerCall.Answer⟩

/-- Programs that run inside the handler. -/
abbrev Handler := Program handlerInterface

def folioZonenum (folio : Folio) : Handler Zone :=
  .perform (I := handlerInterface) (.folioZonenum folio)

def ltramMigrateFrom (folio : Folio) : Handler Int :=
  .perform (I := handlerInterface) (.ltramMigrateFrom folio)

def atomicLongInc (counter : Counter) : Handler Unit :=
  .perform (I := handlerInterface) (.atomicLongInc counter)

def prWarnRatelimited (format : String) (zone : Zone) : Handler Unit :=
  .perform (I := handlerInterface) (.prWarnRatelimited format zone)

section Bind

variable {α : Type}

@[simp]
theorem folioZonenum_bind (folio : Folio) (next : Zone → Handler α) :
    folioZonenum folio >>= next = .call (I := handlerInterface) (.folioZonenum folio) next :=
  rfl

@[simp]
theorem ltramMigrateFrom_bind (folio : Folio) (next : Int → Handler α) :
    ltramMigrateFrom folio >>= next =
      .call (I := handlerInterface) (.ltramMigrateFrom folio) next :=
  rfl

@[simp]
theorem atomicLongInc_bind (counter : Counter) (next : Unit → Handler α) :
    atomicLongInc counter >>= next =
      .call (I := handlerInterface) (.atomicLongInc counter) next :=
  rfl

@[simp]
theorem prWarnRatelimited_bind (format : String) (zone : Zone) (next : Unit → Handler α) :
    prWarnRatelimited format zone >>= next =
      .call (I := handlerInterface) (.prWarnRatelimited format zone) next :=
  rfl

end Bind

/-- `ltram_page_mkwrite` on the folio of the faulting page. -/
def ltramPageMkwrite (folio : Folio) : Handler VmFault := do
  let zone ← folioZonenum folio
  if zone ≠ .ltram then
    atomicLongInc .nrWarnWrongZone
    -- the zone is read a second time, for the warning
    let shown ← folioZonenum folio
    prWarnRatelimited "ltram: page_mkwrite on non-LtRAM folio (zone=%d)\n" shown
    return 0
  else
    let err ← ltramMigrateFrom folio
    if err ≠ 0 then
      -- -EBUSY and -EFAULT alike
      atomicLongInc .nrRepatFail
      return vmFaultRetry
    else
      atomicLongInc .nrRepat
      return vmFaultNopage

/-! ## The module inside a kernel -/

/-- `ltram_stats`: three `atomic_long_t` counters. -/
abbrev Stats := Counter → BitVec 64

/-- `atomic_long_inc`. -/
def Stats.inc (stats : Stats) (counter : Counter) : Stats :=
  Function.update stats counter (stats counter + 1)

/-- The module's counters next to a kernel state that only the migration helper
touches. -/
def handlerMachine {σ : Type} (migrateFrom : Folio → σ → Int × σ) :
    Machine handlerInterface (Stats × σ)
  | .folioZonenum folio, state => (folio.zonenum, state)
  | .ltramMigrateFrom folio, state =>
      ((migrateFrom folio state.2).1, state.1, (migrateFrom folio state.2).2)
  | .atomicLongInc counter, state => ((), state.1.inc counter, state.2)
  | .prWarnRatelimited _ _, state => ((), state)

variable {σ : Type} (migrateFrom : Folio → σ → Int × σ)

/-- Outside `ZONE_LTRAM` the handler only counts and warns. -/
theorem run_of_zonenum_ne {folio : Folio} (outside : folio.zonenum ≠ .ltram) (stats : Stats)
    (kernel : σ) :
    ((handlerMachine migrateFrom).run (ltramPageMkwrite folio) (stats, kernel)).result = some 0 ∧
      ((handlerMachine migrateFrom).run (ltramPageMkwrite folio) (stats, kernel)).final =
        (stats.inc .nrWarnWrongZone, kernel) := by
  simp [ltramPageMkwrite, handlerMachine, outside]

/-- A failed migration is answered with `VM_FAULT_RETRY`. -/
theorem run_of_migrate_ne_zero {folio : Folio} (inside : folio.zonenum = .ltram) {kernel : σ}
    (failed : (migrateFrom folio kernel).1 ≠ 0) (stats : Stats) :
    ((handlerMachine migrateFrom).run (ltramPageMkwrite folio) (stats, kernel)).result =
        some vmFaultRetry ∧
      ((handlerMachine migrateFrom).run (ltramPageMkwrite folio) (stats, kernel)).final =
        (stats.inc .nrRepatFail, (migrateFrom folio kernel).2) := by
  simp [ltramPageMkwrite, handlerMachine, inside, failed]

/-- A successful migration is answered with `VM_FAULT_NOPAGE`. -/
theorem run_of_migrate_eq_zero {folio : Folio} (inside : folio.zonenum = .ltram) {kernel : σ}
    (moved : (migrateFrom folio kernel).1 = 0) (stats : Stats) :
    ((handlerMachine migrateFrom).run (ltramPageMkwrite folio) (stats, kernel)).result =
        some vmFaultNopage ∧
      ((handlerMachine migrateFrom).run (ltramPageMkwrite folio) (stats, kernel)).final =
        (stats.inc .nrRepat, (migrateFrom folio kernel).2) := by
  simp [ltramPageMkwrite, handlerMachine, inside, moved]

end LtramBench.Ltram
