import LtramBench.Ltram.Handler

/-!
# No write lands in place on LtRAM

Pages map folios read-only or writable.  A store to a read-only page faults into
`ltramPageMkwrite`, and the shared-write path of the kernel then decides from
the returned bits whether the page-table entry is left alone or made writable.
The kernel side (that path, the migration helper, and the `.fault` callback that
installs new mappings) is not in this repository: it is a parameter, with the
behaviour the module relies on as the hypothesis `KernelSide.Assumed`.

`VM_FAULT_RETRY` carries neither `VM_FAULT_NOPAGE` nor an error bit, so a failed
migration makes the LtRAM mapping writable.  The main theorem says that this is
the only way to lose write protection.
-/

namespace LtramBench.Ltram

open LtramBench.Interaction LtramBench.Kernel

/-- A page-table entry. -/
structure Mapping where
  folio : Folio
  writable : Bool
  deriving DecidableEq

/-- The kernel around the handler, over its own state `σ`. -/
structure KernelSide (Page σ : Type) where
  /-- The page-table entry of every page. -/
  maps : σ → Page → Mapping
  /-- `ltram_migrate_from`. -/
  migrateFrom : Folio → σ → Int × σ
  /-- What `do_page_mkwrite` and `wp_page_shared` do once the handler has
  returned. -/
  wpPageShared : VmFault → Page → σ → σ
  /-- A new mapping, as the `.fault` callback installs it. -/
  install : Page → Folio → σ → σ

namespace KernelSide

variable {Page σ : Type} [DecidableEq Page]

/-- Whether the shared-write path leaves the page-table entry alone: the
returned value has `VM_FAULT_NOPAGE` or an error bit. -/
def leavesPte (ret : VmFault) : Bool :=
  ret &&& (vmFaultNopage ||| vmFaultError) != 0

/-- The documented behaviour of the kernel side. -/
structure Assumed (kernel : KernelSide Page σ) : Prop where
  /-- Returning `0`, the helper has moved every mapping of the folio to one
  writable DRAM folio. -/
  migrate_moves : ∀ folio state, (kernel.migrateFrom folio state).1 = 0 →
    ∃ target : Folio, target.zonenum ≠ .ltram ∧
      ∀ page, kernel.maps (kernel.migrateFrom folio state).2 page =
        if (kernel.maps state page).folio = folio then ⟨target, true⟩
        else kernel.maps state page
  /-- Returning an error, it has left every mapping as it was. -/
  migrate_keeps : ∀ folio state, (kernel.migrateFrom folio state).1 ≠ 0 →
    kernel.maps (kernel.migrateFrom folio state).2 = kernel.maps state
  wp_leaves : ∀ ret page state, leavesPte ret = true →
    kernel.maps (kernel.wpPageShared ret page state) = kernel.maps state
  wp_makes_writable : ∀ ret page state, leavesPte ret = false →
    kernel.maps (kernel.wpPageShared ret page state) =
      Function.update (kernel.maps state) page { kernel.maps state page with writable := true }
  install_readonly : ∀ page folio state,
    kernel.maps (kernel.install page folio state) =
      Function.update (kernel.maps state) page ⟨folio, false⟩

variable (kernel : KernelSide Page σ)

/-- A write fault on `page`: run the handler, then the shared-write path on the
value it returned. -/
def writeFault (page : Page) (state : Stats × σ) : Stats × σ :=
  let outcome := (handlerMachine kernel.migrateFrom).run
    (ltramPageMkwrite (kernel.maps state.2 page).folio) state
  match outcome.result with
  | some ret => (outcome.final.1, kernel.wpPageShared ret page outcome.final.2)
  | none => outcome.final

/-- What can happen to the mappings: a store to a page, or a new mapping. -/
inductive Action (Page : Type) where
  | write (page : Page)
  | install (page : Page) (folio : Folio)

/-- A store faults exactly when the page is mapped read-only. -/
def act (state : Stats × σ) : Action Page → Stats × σ
  | .write page =>
      if (kernel.maps state.2 page).writable then state else kernel.writeFault page state
  | .install page folio => (state.1, kernel.install page folio state.2)

/-- No page maps an LtRAM folio writable. -/
def WriteProtected (state : Stats × σ) : Prop :=
  ∀ page, (kernel.maps state.2 page).writable = true →
    (kernel.maps state.2 page).folio.zonenum ≠ .ltram

/-- The migration helper succeeds, if this action makes the handler call it. -/
def Repatriates (state : Stats × σ) : Action Page → Prop
  | .write page =>
      (kernel.maps state.2 page).writable = false →
        (kernel.maps state.2 page).folio.zonenum = .ltram →
          (kernel.migrateFrom (kernel.maps state.2 page).folio state.2).1 = 0
  | .install _ _ => True

/-! ## One write fault -/

variable {kernel}

omit [DecidableEq Page] in
theorem leavesPte_zero : leavesPte 0 = false := by
  decide

omit [DecidableEq Page] in
theorem leavesPte_retry : leavesPte vmFaultRetry = false := by
  decide

omit [DecidableEq Page] in
theorem leavesPte_nopage : leavesPte vmFaultNopage = true := by
  decide

/-- On a DRAM folio the fault makes the entry writable. -/
theorem maps_writeFault_of_zonenum_ne (assumed : kernel.Assumed) {page : Page}
    {state : Stats × σ} (outside : (kernel.maps state.2 page).folio.zonenum ≠ .ltram) :
    kernel.maps (kernel.writeFault page state).2 =
      Function.update (kernel.maps state.2) page
        { kernel.maps state.2 page with writable := true } := by
  obtain ⟨result, final⟩ := run_of_zonenum_ne kernel.migrateFrom outside state.1 state.2
  simp only [writeFault, result, final]
  exact assumed.wp_makes_writable 0 page state.2 leavesPte_zero

/-- After a failed migration the entry of the LtRAM folio is made writable. -/
theorem maps_writeFault_of_migrate_ne_zero (assumed : kernel.Assumed) {page : Page}
    {state : Stats × σ} (inside : (kernel.maps state.2 page).folio.zonenum = .ltram)
    (failed : (kernel.migrateFrom (kernel.maps state.2 page).folio state.2).1 ≠ 0) :
    kernel.maps (kernel.writeFault page state).2 =
      Function.update (kernel.maps state.2) page
        { kernel.maps state.2 page with writable := true } := by
  obtain ⟨result, final⟩ := run_of_migrate_ne_zero kernel.migrateFrom inside failed state.1
  simp only [writeFault, result, final]
  rw [assumed.wp_makes_writable _ _ _ leavesPte_retry, assumed.migrate_keeps _ _ failed]

/-- A successful migration leaves every page off the folio that faulted. -/
theorem maps_writeFault_of_migrate_eq_zero (assumed : kernel.Assumed) {page : Page}
    {state : Stats × σ} (inside : (kernel.maps state.2 page).folio.zonenum = .ltram)
    (moved : (kernel.migrateFrom (kernel.maps state.2 page).folio state.2).1 = 0) :
    ∃ target : Folio, target.zonenum ≠ .ltram ∧
      ∀ other, kernel.maps (kernel.writeFault page state).2 other =
        if (kernel.maps state.2 other).folio = (kernel.maps state.2 page).folio then
          ⟨target, true⟩
        else kernel.maps state.2 other := by
  obtain ⟨result, final⟩ := run_of_migrate_eq_zero kernel.migrateFrom inside moved state.1
  simp only [writeFault, result, final]
  rw [assumed.wp_leaves _ _ _ leavesPte_nopage]
  exact assumed.migrate_moves _ _ moved

/-! ## Whole runs -/

/-- Write protection survives one action exactly when a migration that the
action needs succeeds. -/
theorem writeProtected_act_iff (assumed : kernel.Assumed) (state : Stats × σ)
    (action : Action Page) (protected_before : kernel.WriteProtected state) :
    kernel.WriteProtected (kernel.act state action) ↔ kernel.Repatriates state action := by
  cases action with
  | install page folio =>
      simp only [Repatriates, iff_true]
      intro other writable
      simp only [act, assumed.install_readonly] at writable ⊢
      by_cases same : other = page
      · subst other
        simp at writable
      · rw [Function.update_of_ne same] at writable ⊢
        exact protected_before other writable
  | write page =>
      cases pte : (kernel.maps state.2 page).writable with
      | true => simp [act, Repatriates, pte, protected_before]
      | false =>
          simp only [act, Repatriates, pte, Bool.false_eq_true, if_false, true_imp_iff]
          by_cases inside : (kernel.maps state.2 page).folio.zonenum = .ltram
          · by_cases moved : (kernel.migrateFrom (kernel.maps state.2 page).folio state.2).1 = 0
            · simp only [inside, moved, true_imp_iff, iff_true]
              obtain ⟨target, dram, after⟩ :=
                maps_writeFault_of_migrate_eq_zero assumed inside moved
              intro other writable
              rw [after other] at writable ⊢
              split at writable <;> rename_i onFolio
              · rw [if_pos onFolio]
                exact dram
              · rw [if_neg onFolio]
                exact protected_before other writable
            · simp only [inside, moved, true_imp_iff, iff_false]
              intro protected_after
              have landed := protected_after page
              rw [maps_writeFault_of_migrate_ne_zero assumed inside moved] at landed
              simp only [Function.update_self] at landed
              exact landed trivial inside
          · simp only [inside, false_imp_iff, iff_true]
            intro other writable
            rw [maps_writeFault_of_zonenum_ne assumed inside] at writable ⊢
            by_cases same : other = page
            · subst other
              simpa using inside
            · rw [Function.update_of_ne same] at writable ⊢
              exact protected_before other writable

/-- In every run from write-protected mappings, every state reached is
write-protected exactly when no write fault on an LtRAM folio meets a failing
migration. -/
theorem writeProtected_run_iff (assumed : kernel.Assumed) {start : Stats × σ}
    (start_protected : kernel.WriteProtected start) (actions : List (Action Page)) :
    (∀ visited, visited <+: actions → kernel.WriteProtected (visited.foldl kernel.act start)) ↔
      ∀ visited action, visited ++ [action] <+: actions →
        kernel.Repatriates (visited.foldl kernel.act start) action :=
  forall_prefix_safe_iff (writeProtected_act_iff assumed) start_protected actions

/-! ## A kernel to run the handler in -/

/-- A page table, the values `ltram_migrate_from` is going to return (`0` once
they are used up), and the next free DRAM frame. -/
structure Scripted (Page : Type) where
  table : Page → Mapping
  answers : List Int
  nextPfn : Nat

/-- The kernel side that follows such a script. -/
def scriptedKernel : KernelSide Page (Scripted Page) where
  maps state := state.table
  migrateFrom folio state :=
    let err := state.answers.headD 0
    if err = 0 then
      (err, { table := fun page =>
                if (state.table page).folio = folio then
                  ⟨{ pfn := state.nextPfn, nid := 0, zonenum := .other 2 }, true⟩
                else state.table page
              answers := state.answers.tail
              nextPfn := state.nextPfn + 1 })
    else
      (err, { state with answers := state.answers.tail })
  wpPageShared ret page state :=
    if leavesPte ret then state
    else
      { state with
        table := Function.update state.table page ⟨(state.table page).folio, true⟩ }
  install page folio state :=
    { state with table := Function.update state.table page ⟨folio, false⟩ }

theorem scriptedKernel_assumed : (scriptedKernel : KernelSide Page (Scripted Page)).Assumed where
  migrate_moves folio state moved := by
    have succeeded : state.answers.headD 0 = 0 := by
      by_contra failed
      simp only [scriptedKernel, failed, if_false] at moved
    refine ⟨{ pfn := state.nextPfn, nid := 0, zonenum := .other 2 }, by simp, fun page => ?_⟩
    simp only [scriptedKernel, succeeded, if_true]
    rfl
  migrate_keeps folio state failed := by
    have nonzero : state.answers.headD 0 ≠ 0 := by
      intro succeeded
      simp only [scriptedKernel, succeeded, if_true] at failed
      exact failed rfl
    simp only [scriptedKernel, nonzero, if_false]
  wp_leaves ret page state leaves := by
    simp only [scriptedKernel, leaves, if_true]
  wp_makes_writable ret page state finishes := by
    simp only [scriptedKernel, finishes, Bool.false_eq_true, if_false]
  install_readonly page folio state := rfl

/-- One page mapping an LtRAM folio read-only, with scripted migrations. -/
def onePage (answers : List Int) : Stats × Scripted Unit :=
  (fun _ => 0, ⟨fun _ => ⟨{ pfn := 7, nid := 1, zonenum := .ltram }, false⟩, answers, 100⟩)

theorem onePage_protected (answers : List Int) :
    scriptedKernel.WriteProtected (onePage answers) := by
  intro page writable
  cases writable

/-- The main result at work: the store is repatriated and protection stays. -/
theorem writeProtected_run_iff_repatriated :
    scriptedKernel.WriteProtected (onePage [0]) ∧
      ∀ visited, visited <+: [Action.write ()] →
        scriptedKernel.WriteProtected (visited.foldl scriptedKernel.act (onePage [0])) := by
  refine ⟨onePage_protected [0],
    (writeProtected_run_iff scriptedKernel_assumed (onePage_protected [0]) [.write ()]).mpr ?_⟩
  intro visited action taken
  have short : visited = [] := by
    have bound := taken.length_le
    simp only [List.length_append, List.length_cons, List.length_nil] at bound
    exact List.length_eq_zero_iff.mp (by omega)
  subst visited
  obtain ⟨rest, split⟩ := taken
  simp only [List.nil_append, List.cons_append, List.cons.injEq] at split
  rw [split.1]
  intro _ _
  rfl

/-- A single store whose migration fails with `-EBUSY` leaves the page mapping
its LtRAM folio writable. -/
theorem writeProtected_lost_on_ebusy :
    (scriptedKernel : KernelSide Unit (Scripted Unit)).Assumed ∧
      scriptedKernel.WriteProtected (onePage [-EBUSY]) ∧
      ¬ scriptedKernel.WriteProtected (scriptedKernel.act (onePage [-EBUSY]) (.write ())) := by
  refine ⟨scriptedKernel_assumed, onePage_protected [-EBUSY], ?_⟩
  intro protected_after
  exact protected_after () (by decide) (by decide)

end KernelSide

end LtramBench.Ltram
