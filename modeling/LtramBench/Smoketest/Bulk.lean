import LtramBench.Smoketest.Suite
import Mathlib.Data.List.ReduceOption

/-!
# The loops of the bulk test

Both loops of `testBulkAllocation` in closed form: what the allocating loop
leaves in its locals and in the trace for every list of answers, and which
folios the releasing loop puts.
-/

namespace LtramBench.Smoketest

open LtramBench.Interaction LtramBench.Kernel

/-- An answered allocation of the bulk test. -/
def bulkAlloc (answer : Option Folio) : Event kernelInterface :=
  ⟨.folioAlloc .bulkAllocation ltramGfp 0, answer⟩

/-- A put, as it stands in a trace. -/
def put (folio : Folio) : Event kernelInterface :=
  ⟨.folioPut folio, ()⟩

/-- A log line, as it stands in a trace. -/
def line (text : Level × String × List Arg) : Event kernelInterface :=
  ⟨.printk text.1 text.2.1 text.2.2, ()⟩

/-! ## The locals -/

/-- How many errors the bulk test counts for one folio. -/
def misplacement (folio : Folio) : Nat :=
  (if folio.nid ≠ 1 then 1 else 0) + (if folio.zonenum ≠ .ltram then 1 else 0)

theorem misplacement_eq_zero_iff (folio : Folio) :
    misplacement folio = 0 ↔ folio.nid = 1 ∧ folio.zonenum = .ltram := by
  unfold misplacement
  by_cases node : folio.nid = 1 <;> by_cases zone : folio.zonenum = .ltram <;> simp [node, zone]

theorem misplacement_le_two (folio : Folio) : misplacement folio ≤ 2 := by
  unfold misplacement
  split <;> split <;> decide

/-- The errors the bulk test counts for a list of answers. -/
def misplacements (answers : List (Option Folio)) : Nat :=
  (answers.reduceOption.map misplacement).sum

/-- No error is counted exactly when every folio is where it should be. -/
theorem misplacements_eq_zero_iff (answers : List (Option Folio)) :
    misplacements answers = 0 ↔
      ∀ folio, some folio ∈ answers → folio.nid = 1 ∧ folio.zonenum = .ltram := by
  simp only [misplacements, List.sum_eq_zero_iff_forall_eq_nat, List.mem_map,
    List.reduceOption_mem_iff, forall_exists_index, and_imp, forall_apply_eq_imp_iff₂,
    misplacement_eq_zero_iff]

theorem misplacements_le (answers : List (Option Folio)) :
    misplacements answers ≤ 2 * answers.reduceOption.length := by
  unfold misplacements
  induction answers.reduceOption with
  | nil => simp
  | cons folio rest ih =>
      have bound := misplacement_le_two folio
      simp only [List.map_cons, List.sum_cons, List.length_cons]
      omega

theorem misplacements_cons_none (rest : List (Option Folio)) :
    misplacements (none :: rest) = misplacements rest :=
  rfl

theorem misplacements_cons_some (folio : Folio) (rest : List (Option Folio)) :
    misplacements (some folio :: rest) = misplacement folio + misplacements rest := by
  simp [misplacements, List.reduceOption_cons_of_some]

/-- A folio adds one to `allocated` and its misplacement to `errors`. -/
theorem record_some (bulk : Bulk) (folio : Folio) :
    bulk.record (some folio) =
      { folios := bulk.folios ++ [some folio]
        allocated := bulk.allocated + 1
        errors := bulk.errors + Int32.ofNat (misplacement folio) } := by
  unfold Bulk.record misplacement
  by_cases node : folio.nid = 1 <;> by_cases zone : folio.zonenum = .ltram <;>
    simp [node, zone, Int32.add_assoc]

/-- The locals after any list of answers: the array holds them in order and the
counters have wrapped to 32 bits. -/
theorem foldl_record (answers : List (Option Folio)) (bulk : Bulk) :
    answers.foldl Bulk.record bulk =
      { folios := bulk.folios ++ answers
        allocated := bulk.allocated + Int32.ofNat answers.reduceOption.length
        errors := bulk.errors + Int32.ofNat (misplacements answers) } := by
  induction answers generalizing bulk with
  | nil => simp [misplacements]
  | cons answer rest ih =>
      rw [List.foldl_cons, ih]
      cases answer with
      | none => simp [Bulk.record, misplacements_cons_none]
      | some folio =>
          rw [record_some, misplacements_cons_some, List.reduceOption_cons_of_some,
            List.length_cons, Int32.ofNat_add, Int32.ofNat_add,
            Int32.add_comm (Int32.ofNat rest.reduceOption.length)]
          simp [Int32.add_assoc]

/-! ## The traces -/

/-- A completed allocating loop has seen one answer for each round. -/
theorem runs_bulkLoop {index count : Nat} {bulk after : Bulk}
    {trace : List (Event kernelInterface)}
    (run : (Program.forCount bulkRound index count bulk).Runs trace (some after)) :
    ∃ answers : List (Option Folio), answers.length = count ∧
      trace = answers.map bulkAlloc ∧ after = answers.foldl Bulk.record bulk := by
  induction count generalizing index bulk trace with
  | zero =>
      rw [Program.forCount_zero, Program.runs_done_iff] at run
      exact ⟨[], rfl, run.1, Option.some.inj run.2⟩
  | succ count ih =>
      rw [Program.forCount_succ, bulkRound, folioAlloc_bind] at run
      simp only [Program.pure_eq_done, Program.call_bind, Program.done_bind,
        Program.runs_call_iff] at run
      obtain ⟨answer, rest, rfl, run⟩ := run
      obtain ⟨answers, rfl, rfl, rfl⟩ := ih run
      exact ⟨answer :: answers, rfl, rfl, rfl⟩

/-- A completed releasing loop has put the folios of the slots it visited. -/
theorem runs_releaseLoop {folios : List (Option Folio)} {index count : Nat}
    {trace : List (Event kernelInterface)}
    (run : (Program.forCount (releaseRound folios) index count ()).Runs trace (some ())) :
    trace = ((folios.drop index).take count).reduceOption.map put := by
  induction count generalizing index trace with
  | zero =>
      rw [Program.forCount_zero, Program.runs_done_iff] at run
      simpa using run.1
  | succ count ih =>
      rw [Program.forCount_succ, Program.runs_bind_some_iff] at run
      obtain ⟨first, _, second, rfl, round, rest⟩ := run
      rw [ih rest]
      unfold releaseRound at round
      cases slot : folios[index]? with
      | none =>
          have done := List.getElem?_eq_none_iff.mp slot
          rw [slot] at round
          rw [((Program.runs_done_iff _ _ _).mp round).1, List.drop_eq_nil_of_le done,
            List.drop_eq_nil_of_le (Nat.le_succ_of_le done)]
          simp
      | some answer =>
          obtain ⟨bound, rfl⟩ := List.getElem?_eq_some_iff.mp slot
          rw [slot] at round
          rw [List.drop_eq_getElem_cons bound, List.take_succ_cons]
          cases answerEq : folios[index] with
          | none =>
              rw [answerEq] at round
              rw [((Program.runs_done_iff _ _ _).mp round).1]
              rfl
          | some folio =>
              rw [answerEq] at round
              obtain ⟨_, later, rfl, last⟩ := (Program.runs_call_iff _ _ _ _).mp round
              rw [((Program.runs_done_iff _ _ _).mp last).1]
              rfl

/-- The locals at the end of the allocating loop. -/
def bulkAfter (answers : List (Option Folio)) : Bulk :=
  answers.foldl Bulk.record ⟨[], 0, 0⟩

theorem bulkAfter_eq (answers : List (Option Folio)) :
    bulkAfter answers =
      ⟨answers, Int32.ofNat answers.reduceOption.length, Int32.ofNat (misplacements answers)⟩ := by
  simp [bulkAfter, foldl_record]

/-- Everything a completed bulk test can do: fail for want of the array, or
allocate once for each round, put what it obtained, free the array and give its
verdict on the two counters.  The first line and the closing lines are left
out of the description; they are log lines. -/
theorem runs_testBulkAllocation {bulkCount : Int32} {trace : List (Event kernelInterface)}
    {code : Int} (run : (testBulkAllocation bulkCount).Runs trace (some code)) :
    (∃ opening closing, trace = [line opening,
        ⟨.kmallocArray bulkCount.toInt64.toUInt64 8 gfpKernel, none⟩, line closing] ∧
      code = -EINVAL) ∨
    ∃ opening array answers summary closing, trace = line opening ::
        ⟨.kmallocArray bulkCount.toInt64.toUInt64 8 gfpKernel, some array⟩ ::
          (answers.map bulkAlloc ++ line summary ::
            (answers.reduceOption.map put ++ [⟨.kfree array, ()⟩, line closing])) ∧
      answers.length = rounds bulkCount ∧
      (code = 0 ↔ (bulkAfter answers).allocated = bulkCount ∧ (bulkAfter answers).errors = 0) := by
  simp only [testBulkAllocation, prInfo_bind, kmallocArray_bind, Program.runs_call_iff,
    runs_expectPointer_iff] at run
  obtain ⟨_, _, rfl, answer, _, rfl, body⟩ := run
  rcases body with ⟨array, rfl, body⟩ | ⟨rfl, rfl, rfl⟩
  · right
    obtain ⟨_, _, _, rfl, filled, afterFill⟩ := (Program.runs_bind_some_iff _ _ _ _).mp body
    obtain ⟨answers, lengthEq, rfl, rfl⟩ := runs_bulkLoop filled
    obtain ⟨_, _, rfl, afterSummary⟩ := (Program.runs_call_iff _ _ _ _).mp afterFill
    obtain ⟨_, _, _, rfl, released, afterRelease⟩ :=
      (Program.runs_bind_some_iff _ _ _ _).mp afterSummary
    have puts := runs_releaseLoop released
    change _ = ((bulkAfter answers).folios.drop 0 |>.take _).reduceOption.map put at puts
    rw [bulkAfter_eq, List.drop_zero, ← lengthEq, List.take_length] at puts
    subst puts
    simp only [kfree_bind, Program.pure_eq_done, Program.runs_call_iff, Program.runs_done_iff,
      runs_expect_iff] at afterRelease
    obtain ⟨_, _, rfl, judged⟩ := afterRelease
    rcases judged with ⟨all, ⟨clean, _, _, rfl, rfl, passed⟩ | ⟨dirty, rfl, rfl⟩⟩ | ⟨few, rfl, rfl⟩
    · exact ⟨(_, _, _), array, answers, (_, _, _), (_, _, _), rfl, lengthEq,
        iff_of_true (Option.some.inj passed) ⟨all, clean⟩⟩
    · exact ⟨(_, _, _), array, answers, (_, _, _), (_, _, _), rfl, lengthEq,
        iff_of_false (by decide) fun verdict => dirty verdict.2⟩
    · exact ⟨(_, _, _), array, answers, (_, _, _), (_, _, _), rfl, lengthEq,
        iff_of_false (by decide) fun verdict => few verdict.1⟩
  · exact .inl ⟨(_, _, _), (_, _, _), rfl, rfl⟩

end LtramBench.Smoketest
