import LtramBench.Shell.Words

/-!
# The delta report of `profile_workload.sh`

A run appends a `before` row and, if it is not interrupted, an `after` row to
the CSV file of its label.  The report then reads the whole file again: it keeps
the values of the last `before` row, prints a block of deltas for every `after`
row, and passes the blocks through `tail -20`.

The names of the counters stand in the header of the file and once more in the
report, which cuts its own list into the names of the columns.
-/

namespace LtramBench.Profile

open LtramBench.Shell

/-! ## The file -/

/-- The tracked counters, in column order. -/
def counters : List Text :=
  ["pgpgin", "pgpgout", "pgfault", "pgmajfault", "pgalloc_normal", "pgalloc_movable",
    "nr_file_pages", "nr_dirty", "nr_writeback", "workingset_refault_file", "nr_active_file",
    "nr_inactive_file", "nr_dirtied"].map String.toList

/-- The names in the header. -/
def headerNames : List Text :=
  ["label", "phase", "t", "pgpgin", "pgpgout", "pgfault", "pgmajfault", "pgalloc_normal",
    "pgalloc_movable", "nr_file_pages", "nr_dirty", "nr_writeback", "workingset_refault_file",
    "nr_active_file", "nr_inactive_file", "nr_dirtied"].map String.toList

/-- The header that a run writes to a new file. -/
def header : Text :=
  joined ',' headerNames

/-- What `snap` prints: one value for each counter. -/
structure Snapshot where
  values : List Nat
  complete : values.length = counters.length

/-- The fields of a row of the file, before they are joined. -/
def rowFields (label : Text) (phase : Text) (time : Nat) (snapshot : Snapshot) : List Text :=
  label :: phase :: decimal time :: snapshot.values.map decimal

/-- A row of the file.  The label stands in it as it was given. -/
def row (label : Text) (phase : Text) (time : Nat) (snapshot : Snapshot) : Text :=
  joined ',' (rowFields label phase time snapshot)

def beforePhase : Text :=
  "before".toList

def afterPhase : Text :=
  "after".toList

/-- One run of the profiler; an interrupted run has no second snapshot. -/
structure Run where
  started : Nat
  before : Snapshot
  finished : Option (Nat × Snapshot)

/-- The rows that a run appends. -/
def rows (label : Text) (run : Run) : List Text :=
  row label beforePhase run.started run.before ::
    match run.finished with
    | none => []
    | some (time, after) => [row label afterPhase time after]

/-- The file after a run; the header is written if there was no file. -/
def appendRun (label : Text) (file : Option (List Text)) (run : Run) : List Text :=
  file.getD [header] ++ rows label run

/-- A file as earlier runs with the label leave it. -/
def historyFile (label : Text) (history : List Run) : List Text :=
  header :: history.flatMap (rows label)

/-! ## The report -/

/-- The variables of the report: the array `b` and what was printed. -/
structure ReportState where
  before : Nat → Text
  printed : List Text

/-- The list that the report cuts into `names`. -/
def reportNames : List Text :=
  ["pgpgin", "pgpgout", "pgfault", "pgmajfault", "pgalloc_normal", "pgalloc_movable",
    "nr_file_pages", "nr_dirty", "nr_writeback", "workingset_refault_file", "nr_active_file",
    "nr_inactive_file", "nr_dirtied"].map String.toList

/-- The text of that list. -/
def reportText : Text :=
  joined ' ' reportNames

/-- `printf "  %-30s %+d\n"`. -/
def deltaLine (name : Text) (delta : ℚ) : Text :=
  "  ".toList ++ padEnd 30 name ++ " ".toList ++ percentPlusD delta

/-- `for (i=4; i<=NF; i++) b[i]=$i`. -/
def storeBefore (parts : List Text) (before : Nat → Text) (index : Nat) : Text :=
  if 4 ≤ index ∧ index ≤ parts.length then field parts index else before index

/-- The block that an `after` row prints. -/
def deltaLines (parts : List Text) (before : Nat → Text) : List Text :=
  let names := words reportText
  (List.range' 4 (parts.length - 3)).map fun index =>
    deltaLine (field names (index - 3)) (number (field parts index) - number (before index))

/-- The rules of the report, for one record, with the text that `$1` is compared
to. -/
def reportRule (compared : Text) (nr : Nat) (record : Text) (state : ReportState) : ReportState :=
  if nr = 1 then state
  else
    let parts := fields ',' record
    let state :=
      if field parts 1 = compared ∧ field parts 2 = beforePhase then
        { state with before := storeBefore parts state.before }
      else state
    if field parts 1 = compared ∧ field parts 2 = afterPhase then
      { state with printed := state.printed ++ deltaLines parts state.before }
    else state

/-- What the report prints, once it is known what `$1` is compared to. -/
def deltaReport (compared : Text) (file : List Text) : List Text :=
  tail 20 (scan (reportRule compared) 1 file ⟨fun _ => [], []⟩).printed

/-! ## The names of the columns -/

theorem solid_of_mem_counters {name : Text} (tracked : name ∈ counters) : Solid name := by
  have checked : counters.all (fun name =>
      name ≠ [] && name.all fun char => !isBlank char) = true := by decide
  have own := List.all_eq_true.mp checked name tracked
  rw [Bool.and_eq_true, decide_eq_true_eq, List.all_eq_true] at own
  refine ⟨own.1, ?_⟩
  intro char member
  simpa using own.2 char member

/-- The names that the report prints are the tracked counters. -/
theorem words_reportText : words reportText = counters :=
  words_joined fun _ member => solid_of_mem_counters member

/-- So are the names over the columns behind label, phase and time. -/
theorem fields_header :
    fields ',' header = "label".toList :: "phase".toList :: "t".toList :: counters := by
  have clean : headerNames.all (fun name => ',' ∉ name) = true := by decide
  apply fields_joined (by decide)
  intro part member
  simpa using List.all_eq_true.mp clean part member

/-! ## One run -/

/-- The deltas of two snapshots, one line for each counter. -/
def deltas (before after : Snapshot) : List Text :=
  List.zipWith deltaLine counters
    (List.zipWith (fun later earlier : Nat => (later : ℚ) - earlier) after.values before.values)

/-- The deltas of a run; an interrupted run has none. -/
def runDeltas (run : Run) : List Text :=
  match run.finished with
  | none => []
  | some (_, after) => deltas run.before after

theorem words_deltaLine {name : Text} (solid : Solid name) (delta : ℚ) :
    words (deltaLine name delta) = [name, percentPlusD delta] := by
  have front : deltaLine name delta =
      List.replicate 2 ' ' ++ (padEnd 30 name ++ ' ' :: percentPlusD delta) := by
    simp [deltaLine]
  rw [front, words_replicate_append, words_padEnd_append solid, (solid_percentPlusD _).words]

/-- What a line of the report shows. -/
theorem nameAndNumber_deltaLine {name : Text} (solid : Solid name) (delta : Int) :
    nameAndNumber (deltaLine name delta) = (name, (delta : ℚ)) := by
  simp [nameAndNumber, words_deltaLine solid, field]

theorem length_deltas (before after : Snapshot) : (deltas before after).length = 13 := by
  simp [deltas, before.complete, after.complete, counters]

theorem nameAndNumber_deltas (before after : Snapshot) :
    (deltas before after).map nameAndNumber =
      List.zip counters (List.zipWith (fun later earlier : Nat => (later : ℚ) - earlier)
        after.values before.values) := by
  apply List.ext_getElem
  · simp [deltas, List.zip]
  · intro index bound _
    have nameBound : index < counters.length := by
      simp [length_deltas] at bound
      exact bound
    have beforeBound : index < before.values.length := before.complete ▸ nameBound
    have afterBound : index < after.values.length := after.complete ▸ nameBound
    have shown := nameAndNumber_deltaLine (solid_of_mem_counters (List.getElem_mem nameBound))
      (after.values[index] - before.values[index])
    push_cast at shown
    simpa [deltas, List.zip] using shown

theorem length_rowFields (label : Text) (phase : Text) (time : Nat) (snapshot : Snapshot) :
    (rowFields label phase time snapshot).length = 16 := by
  simp [rowFields, snapshot.complete, counters]

/-- Behind the label a row has a comma only between its fields. -/
theorem comma_not_mem_values {phase : Text} (phaseClean : ',' ∉ phase) (time : Nat)
    (snapshot : Snapshot) :
    ∀ part ∈ phase :: decimal time :: snapshot.values.map decimal, ',' ∉ part := by
  intro part member
  simp only [List.mem_cons, List.mem_map] at member
  rcases member with rfl | rfl | ⟨value, -, rfl⟩
  · exact phaseClean
  · exact not_mem_decimal rfl time
  · exact not_mem_decimal rfl value

/-- A row is read back as it was written, unless the label has a comma. -/
theorem fields_row {label : Text} (clean : ',' ∉ label) {phase : Text}
    (phaseClean : ',' ∉ phase) (time : Nat) (snapshot : Snapshot) :
    fields ',' (row label phase time snapshot) = rowFields label phase time snapshot := by
  apply fields_joined
  · rw [length_rowFields]
    decide
  · intro part member
    rcases List.mem_cons.mp member with rfl | behind
    · exact clean
    · exact comma_not_mem_values phaseClean time snapshot part behind

theorem field_rowFields (label : Text) (phase : Text) (time : Nat) (snapshot : Snapshot)
    {index : Nat} (bound : index < snapshot.values.length) :
    field (rowFields label phase time snapshot) (4 + index) = decimal snapshot.values[index] := by
  rw [field, show 4 + index - 1 = index + 3 by omega, rowFields]
  simp [bound]

/-- The block of an `after` row, over the values that the `before` row of the
same run stored. -/
theorem deltaLines_rowFields (label : Text) (started finished : Nat) (before after : Snapshot)
    (stored : Nat → Text) :
    deltaLines (rowFields label afterPhase finished after)
        (storeBefore (rowFields label beforePhase started before) stored) =
      deltas before after := by
  have width : counters.length = 13 := rfl
  apply List.ext_getElem
  · rw [length_deltas, deltaLines, List.length_map, List.length_range', length_rowFields]
  · intro index bound _
    rw [deltaLines, List.length_map, List.length_range', length_rowFields] at bound
    have beforeBound : index < before.values.length := by
      rw [before.complete, width]
      exact bound
    have afterBound : index < after.values.length := by
      rw [after.complete, width]
      exact bound
    have inside : 4 ≤ 4 + index ∧ 4 + index ≤ (rowFields label beforePhase started before).length := by
      rw [length_rowFields]
      omega
    have nameBound : index < counters.length := bound
    have named : field (words reportText) (4 + index - 3) = counters[index] := by
      rw [words_reportText, field, show 4 + index - 3 - 1 = index by omega,
        List.getD_eq_getElem _ _ nameBound]
    simp only [deltaLines, deltas, List.getElem_map, List.getElem_range', List.getElem_zipWith,
      one_mul, storeBefore, if_pos inside, field_rowFields _ _ _ _ beforeBound,
      field_rowFields _ _ _ _ afterBound, number_decimal_self, named]

theorem reportRule_before {label : Text} (clean : ',' ∉ label) {nr : Nat} (past : nr ≠ 1)
    (time : Nat) (snapshot : Snapshot) (state : ReportState) :
    reportRule label nr (row label beforePhase time snapshot) state =
      { state with
        before := storeBefore (rowFields label beforePhase time snapshot) state.before } := by
  unfold reportRule
  rw [if_neg past, fields_row clean (by decide)]
  have other : beforePhase ≠ afterPhase := by decide
  simp [rowFields, field, other]

theorem reportRule_after {label : Text} (clean : ',' ∉ label) {nr : Nat} (past : nr ≠ 1)
    (time : Nat) (snapshot : Snapshot) (state : ReportState) :
    reportRule label nr (row label afterPhase time snapshot) state =
      { state with
        printed := state.printed ++
          deltaLines (rowFields label afterPhase time snapshot) state.before } := by
  unfold reportRule
  rw [if_neg past, fields_row clean (by decide)]
  have other : afterPhase ≠ beforePhase := by decide
  simp [rowFields, field, other]

/-- The rows of one run print its own deltas, whatever was stored before. -/
theorem scan_rows {label : Text} (clean : ',' ∉ label) (run : Run) {nr : Nat} (past : 2 ≤ nr)
    (state : ReportState) :
    (scan (reportRule label) nr (rows label run) state).printed =
      state.printed ++ runDeltas run := by
  obtain ⟨started, before, finished⟩ := run
  cases finished with
  | none =>
      simp only [rows, scan_cons, scan_nil, runDeltas, List.append_nil]
      rw [reportRule_before clean (by omega)]
  | some finish =>
      obtain ⟨finished, after⟩ := finish
      simp only [rows, scan_cons, scan_nil, runDeltas]
      rw [reportRule_before clean (by omega), reportRule_after clean (by omega),
        deltaLines_rowFields]

/-! ## The whole file -/

theorem scan_history {label : Text} (clean : ',' ∉ label) (history : List Run) {nr : Nat}
    (past : 2 ≤ nr) (state : ReportState) :
    (scan (reportRule label) nr (history.flatMap (rows label)) state).printed =
      state.printed ++ history.flatMap runDeltas := by
  induction history generalizing nr state with
  | nil => simp
  | cons run rest ih =>
      rw [List.flatMap_cons, scan_append, ih (by omega), scan_rows clean run past,
        List.flatMap_cons, List.append_assoc]

/-- Without a comma in the label the report is the end of the deltas of all
runs. -/
theorem deltaReport_historyFile {label : Text} (clean : ',' ∉ label) (history : List Run) :
    deltaReport label (historyFile label history) = tail 20 (history.flatMap runDeltas) := by
  rw [deltaReport, historyFile, scan_cons, scan_history clean history (by decide)]
  rfl

theorem flatMap_runDeltas_eq_nil_iff (history : List Run) :
    history.flatMap runDeltas = [] ↔ ∀ run ∈ history, run.finished = none := by
  rw [List.flatMap_eq_nil_iff]
  refine forall₂_congr fun run _ => ?_
  rcases finish : run.finished with - | ⟨time, after⟩
  · simp [runDeltas, finish]
  · have printed := length_deltas run.before after
    simp only [runDeltas, finish, reduceCtorEq, iff_false]
    intro empty
    simp [empty] at printed

/-- Appending a run to what earlier runs left. -/
theorem appendRun_historyFile (label : Text) (history : List Run) (run : Run) :
    appendRun label (some (historyFile label history)) run =
      historyFile label (history ++ [run]) := by
  simp [appendRun, historyFile]

/-- On a file of earlier runs a run is reported by its own deltas exactly when
no earlier run was completed. -/
theorem deltaReport_appendRun_iff {label : Text} (clean : ',' ∉ label) (history : List Run)
    (started finished : Nat) (before after : Snapshot) :
    deltaReport label (appendRun label (some (historyFile label history))
        ⟨started, before, some (finished, after)⟩) = deltas before after ↔
      ∀ run ∈ history, run.finished = none := by
  have blockLength := length_deltas before after
  rw [appendRun_historyFile, deltaReport_historyFile clean, List.flatMap_append,
    List.flatMap_singleton, runDeltas, ← flatMap_runDeltas_eq_nil_iff]
  constructor
  · intro same
    have lengths := congrArg List.length same
    rw [length_tail, List.length_append, blockLength] at lengths
    rw [← List.length_eq_zero_iff]
    omega
  · intro empty
    rw [empty, List.nil_append]
    exact tail_of_length_le (by rw [blockLength]; decide)

/-! ## Files of any other origin -/

/-- The record is an `after` row of the label. -/
def IsAfterRow (label : Text) (record : Text) : Prop :=
  field (fields ',' record) 1 = label ∧ field (fields ',' record) 2 = afterPhase

/-- Without an `after` row nothing is printed. -/
theorem printed_scan_reportRule {label : Text} {file : List Text}
    (unfinished : ∀ record ∈ file, ¬ IsAfterRow label record) (nr : Nat) (state : ReportState) :
    (scan (reportRule label) nr file state).printed = state.printed := by
  induction file generalizing nr state with
  | nil => rfl
  | cons record rest ih =>
      rw [scan_cons, ih fun record member => unfinished record (List.mem_cons_of_mem _ member)]
      have other := unfinished record List.mem_cons_self
      unfold IsAfterRow at other
      unfold reportRule
      split
      · rfl
      · simp only [if_neg other]
        split <;> rfl

/-- The report of a completed run whose label has no comma, on a file that holds
no other completed run of the label. -/
theorem deltaReport_append {label : Text} (clean : ',' ∉ label) {earlier : List Text}
    (headed : earlier ≠ []) (unfinished : ∀ record ∈ earlier, ¬ IsAfterRow label record)
    (started finished : Nat) (before after : Snapshot) :
    deltaReport label (earlier ++ rows label ⟨started, before, some (finished, after)⟩) =
      deltas before after := by
  have past : 2 ≤ 1 + earlier.length := by
    have nonempty := List.length_pos_iff.mpr headed
    omega
  rw [deltaReport, scan_append, scan_rows clean _ past, printed_scan_reportRule unfinished,
    List.nil_append, runDeltas]
  exact tail_of_length_le (by rw [length_deltas]; decide)

/-- A file that has only its header holds no completed run. -/
theorem unfinished_header (label : Text) : ∀ record ∈ [header], ¬ IsAfterRow label record := by
  intro record member
  rw [List.mem_singleton.mp member, IsAfterRow, fields_header]
  rintro ⟨-, phase⟩
  exact absurd phase (by decide)

/-- A snapshot with the same value for every counter. -/
def uniformSnapshot (value : Nat) : Snapshot where
  values := List.replicate 13 value
  complete := rfl

example : row "a".toList beforePhase 7 (uniformSnapshot 0) =
    "a,before,7,0,0,0,0,0,0,0,0,0,0,0,0,0".toList := by
  decide +kernel

end LtramBench.Profile
