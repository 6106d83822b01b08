import LtramBench.Monitoring.Collect

/-!
# `summarize` of `meminfo_log.sh`

One pass over the log keeps, for each column, a running minimum, maximum and
sum.  The header fixes the columns, lines with fewer than two fields are
skipped, and the first timestamp is taken from the second line of the file.
The end of the program divides the sums by the number of counted rows.
-/

namespace LtramBench.Monitoring

open LtramBench.Shell

/-! ## The program -/

/-- The variables of the program; one that is not set is empty or `0`. -/
structure Summary where
  cols : Nat → Text
  ncols : Nat
  tsFirst : Text
  tsLast : Text
  nrows : Nat
  mins : Nat → ℚ
  maxs : Nat → ℚ
  avgs : Nat → ℚ

def Summary.unset : Summary where
  cols _ := []
  ncols := 0
  tsFirst := []
  tsLast := []
  nrows := 0
  mins _ := 0
  maxs _ := 0
  avgs _ := 0

/-- The rule for the header. -/
def readHeader (record : Text) (state : Summary) : Summary :=
  let parts := fields ',' record
  { state with
    cols := fun index =>
      if 2 ≤ index ∧ index ≤ parts.length then field parts index else state.cols index
    ncols := parts.length }

/-- The rule for a row that is counted. -/
def countRow (record : Text) (state : Summary) : Summary :=
  let parts := fields ',' record
  let nrows := state.nrows + 1
  let value (index : Nat) : ℚ := number (field parts index)
  { state with
    tsLast := field parts 1
    nrows := nrows
    mins := fun index =>
      if (2 ≤ index ∧ index ≤ state.ncols) ∧ (nrows = 1 ∨ value index < state.mins index) then
        value index
      else state.mins index
    maxs := fun index =>
      if (2 ≤ index ∧ index ≤ state.ncols) ∧ state.maxs index < value index then value index
      else state.maxs index
    avgs := fun index =>
      if 2 ≤ index ∧ index ≤ state.ncols then state.avgs index + value index
      else state.avgs index }

/-- The rules of the program, for one record. -/
def summarizeRule (nr : Nat) (record : Text) (state : Summary) : Summary :=
  if nr = 1 then readHeader record state
  else if (fields ',' record).length < 2 then state
  else
    countRow record
      (if nr = 2 then { state with tsFirst := field (fields ',' record) 1 } else state)

/-- What the program printed, and whether it was stopped by a division by zero. -/
structure Output where
  lines : List Text
  divisionByZero : Bool
  deriving DecidableEq

/-- Division, which is fatal when the divisor is zero. -/
def divide (dividend divisor : ℚ) : Option ℚ :=
  if divisor = 0 then none else some (dividend / divisor)

/-- `printf "%-26s %10d %10d %10d\n"`. -/
def columnLine (name : Text) (low average high : ℚ) : Text :=
  padEnd 26 name ++ " ".toList ++ padStart 10 (percentD low) ++ " ".toList ++
    padStart 10 (percentD average) ++ " ".toList ++ padStart 10 (percentD high)

/-- The loop over the columns at the end. -/
def printColumns (state : Summary) : List Nat → Output
  | [] => ⟨[], false⟩
  | index :: rest =>
      match divide (state.avgs index) state.nrows with
      | none => ⟨[], true⟩
      | some average =>
          let later := printColumns state rest
          ⟨columnLine (state.cols index) (state.mins index) average (state.maxs index) ::
            later.lines, later.divisionByZero⟩

/-- `printf "Duration : %ds   (%d samples)\n\n"`, without the empty line. -/
def durationLine (duration : ℚ) (samples : Nat) : Text :=
  "Duration : ".toList ++ percentD duration ++ "s   (".toList ++ decimal samples ++
    " samples)".toList

/-- The two lines above the columns. -/
def tableHead : List Text :=
  [padEnd 26 "metric".toList ++ " ".toList ++ padStart 10 "min".toList ++ " ".toList ++
      padStart 10 "avg".toList ++ " ".toList ++ padStart 10 "max".toList,
    "--------------------------------------------------------".toList]

/-- The `END` rule. -/
def printSummary (state : Summary) : Output :=
  let columns := printColumns state (List.range' 2 (state.ncols - 1))
  let duration := number state.tsLast - number state.tsFirst
  ⟨durationLine duration state.nrows :: [] :: (tableHead ++ columns.lines), columns.divisionByZero⟩

/-- `summarize`. -/
def summarize (log : List Text) : Output :=
  printSummary (scan summarizeRule 1 log .unset)

/-! ## The pass over the log -/

/-- Whether a line is counted. -/
def isFull (record : Text) : Bool :=
  ',' ∈ record

/-- The first field of a line. -/
def timestamp (record : Text) : Text :=
  field (fields ',' record) 1

/-- What `ts_first` holds at the end: only the line right after the header can
set it. -/
def tsFirstOf : List Text → Text
  | [] => []
  | record :: _ => if isFull record then timestamp record else []

theorem short_iff (record : Text) : (fields ',' record).length < 2 ↔ isFull record = false := by
  rw [length_fields_lt_two_iff, isFull, decide_eq_false_iff_not]

theorem not_short_of_full {record : Text} (full : isFull record = true) :
    ¬ (fields ',' record).length < 2 := by
  rw [short_iff, full]
  exact nofun

/-- The counted rows, folded without regard to line numbers. -/
def countRows (records : List Text) (state : Summary) : Summary :=
  records.foldl (fun state record => countRow record state) state

/-- From the third line on, the pass counts the full lines. -/
theorem scan_summarizeRule {nr : Nat} (past : 3 ≤ nr) (records : List Text) (state : Summary) :
    scan summarizeRule nr records state = countRows (records.filter isFull) state := by
  induction records generalizing nr state with
  | nil => rfl
  | cons record rest ih =>
      rw [scan_cons, ih (by omega), summarizeRule, if_neg (by omega)]
      cases full : isFull record with
      | false =>
          rw [if_pos ((short_iff record).mpr full), List.filter_cons_of_neg (by simp [full])]
      | true =>
          rw [if_neg (not_short_of_full full), if_neg (by omega), List.filter_cons_of_pos full]
          rfl

theorem countRows_tsFirst (records : List Text) (state : Summary) (ts : Text) :
    countRows records { state with tsFirst := ts } =
      { countRows records state with tsFirst := ts } := by
  induction records generalizing state with
  | nil => rfl
  | cons record rest ih => exact ih (countRow record state)

/-- The variables at the end of the pass: those of the full lines alone, except
for the first timestamp. -/
theorem scan_log (header : Text) (records : List Text) :
    scan summarizeRule 1 (header :: records) .unset =
      { countRows (records.filter isFull) (readHeader header .unset) with
        tsFirst := tsFirstOf records } := by
  rw [scan_cons, show summarizeRule 1 header .unset = readHeader header .unset from rfl]
  generalize unset : readHeader header .unset = state
  have first : state.tsFirst = [] := by
    rw [← unset]
    rfl
  cases records with
  | nil =>
      obtain ⟨cols, ncols, tsFirst, tsLast, nrows, mins, maxs, avgs⟩ := state
      cases first
      rfl
  | cons record rest =>
      rw [scan_cons, scan_summarizeRule (by decide), summarizeRule, if_neg (by decide), tsFirstOf]
      cases full : isFull record with
      | false =>
          rw [if_pos ((short_iff record).mpr full), List.filter_cons_of_neg (by simp [full]),
            if_neg (by decide), ← countRows_tsFirst]
          obtain ⟨cols, ncols, tsFirst, tsLast, nrows, mins, maxs, avgs⟩ := state
          cases first
          rfl
      | true =>
          rw [if_neg (not_short_of_full full), if_pos rfl, if_pos rfl,
            List.filter_cons_of_pos full, ← countRows_tsFirst]
          rfl

theorem countRows_nrows (records : List Text) (state : Summary) :
    (countRows records state).nrows = state.nrows + records.length := by
  induction records generalizing state with
  | nil => rfl
  | cons record rest ih =>
      change (countRows rest (countRow record state)).nrows = _
      rw [ih, List.length_cons]
      change state.nrows + 1 + rest.length = _
      omega

theorem countRows_ncols (records : List Text) (state : Summary) :
    (countRows records state).ncols = state.ncols := by
  induction records generalizing state with
  | nil => rfl
  | cons record rest ih => exact ih (countRow record state)

/-- The first field of the last line. -/
def tsLastOf (records : List Text) : Text :=
  (records.getLast?.map timestamp).getD []

theorem countRows_tsLast {records : List Text} (counted : records ≠ []) (state : Summary) :
    (countRows records state).tsLast = tsLastOf records := by
  rcases List.eq_nil_or_concat records with rfl | ⟨front, record, rfl⟩
  · exact absurd rfl counted
  · simp [countRows, tsLastOf, countRow, timestamp]

/-! ## The end of the program -/

theorem printColumns_of_rows {state : Summary} (counted : state.nrows ≠ 0) (indices : List Nat) :
    printColumns state indices =
      ⟨indices.map fun index => columnLine (state.cols index) (state.mins index)
        (state.avgs index / state.nrows) (state.maxs index), false⟩ := by
  have divisor : (state.nrows : ℚ) ≠ 0 := Nat.cast_ne_zero.mpr counted
  induction indices with
  | nil => rfl
  | cons index rest ih =>
      simp only [printColumns, divide, if_neg divisor, ih, List.map_cons]

theorem printColumns_of_no_rows {state : Summary} (none : state.nrows = 0) {indices : List Nat}
    (some : indices ≠ []) : printColumns state indices = ⟨[], true⟩ := by
  obtain ⟨index, rest, rfl⟩ := List.exists_cons_of_ne_nil some
  simp [printColumns, divide, none]

/-- With a column to print, the program is stopped exactly when it counted no
row. -/
theorem divisionByZero_printSummary {state : Summary} (columns : 2 ≤ state.ncols) :
    (printSummary state).divisionByZero = false ↔ state.nrows ≠ 0 := by
  have some : List.range' 2 (state.ncols - 1) ≠ [] := by
    rw [ne_eq, List.range'_eq_nil_iff]
    omega
  by_cases counted : state.nrows = 0
  · simp [printSummary, printColumns_of_no_rows counted some, counted]
  · simp [printSummary, printColumns_of_rows counted, counted]

theorem printColumns_tsFirst (state : Summary) (ts : Text) (indices : List Nat) :
    printColumns { state with tsFirst := ts } indices = printColumns state indices := by
  induction indices with
  | nil => rfl
  | cons index rest ih => simp only [printColumns, ih]

theorem durationLine_eq_iff (first second : ℚ) (samples : Nat) :
    durationLine first samples = durationLine second samples ↔
      truncate first = truncate second := by
  rw [← percentD_eq_iff]
  constructor
  · intro same
    unfold durationLine at same
    exact List.append_cancel_left (List.append_cancel_right (List.append_cancel_right
      (List.append_cancel_right same)))
  · intro same
    unfold durationLine
    rw [same]

/-- Two first timestamps give the same output exactly when the durations are
printed alike. -/
theorem printSummary_tsFirst_eq_iff (state : Summary) (first second : Text) :
    printSummary { state with tsFirst := first } = printSummary { state with tsFirst := second } ↔
      truncate (number state.tsLast - number first) =
        truncate (number state.tsLast - number second) := by
  rw [← durationLine_eq_iff _ _ state.nrows]
  simp only [printSummary, printColumns_tsFirst, Output.mk.injEq, and_true, List.cons.injEq]

/-! ## Skipped lines -/

theorem exists_full_iff (lines : List Text) :
    lines.filter isFull ≠ [] ↔ ∃ line ∈ lines, isFull line = true := by
  rw [ne_eq, List.filter_eq_nil_iff]
  push Not
  rfl

/-- The log with its short lines and the log without them, at the end of the
pass. -/
theorem summarize_filter_eq_iff (header : Text) {lines : List Text}
    (counted : lines.filter isFull ≠ []) :
    summarize (header :: lines) = summarize (header :: lines.filter isFull) ↔
      truncate (number (tsLastOf (lines.filter isFull)) - number (tsFirstOf lines)) =
        truncate (number (tsLastOf (lines.filter isFull)) -
          number (tsFirstOf (lines.filter isFull))) := by
  rw [summarize, summarize, scan_log, scan_log, List.filter_filter]
  simp only [Bool.and_self]
  rw [printSummary_tsFirst_eq_iff, countRows_tsLast counted]

theorem divisionByZero_summarize {header : Text} (columns : ',' ∈ header) (lines : List Text) :
    (summarize (header :: lines)).divisionByZero = false ↔ lines.filter isFull ≠ [] := by
  have width : 2 ≤ (fields ',' header).length := by
    by_contra short
    exact (length_fields_lt_two_iff ',' header).mp (by omega) columns
  rw [summarize, scan_log, divisionByZero_printSummary]
  · change (countRows (lines.filter isFull) (readHeader header .unset)).nrows ≠ 0 ↔ _
    rw [countRows_nrows, ← List.length_pos_iff]
    change 0 + _ ≠ 0 ↔ _
    omega
  · change 2 ≤ (countRows (lines.filter isFull) (readHeader header .unset)).ncols
    rw [countRows_ncols]
    exact width

/-- The first timestamp survives the removal of short lines when the line after
the header is full, and is lost otherwise. -/
theorem tsFirstOf_filter {lines : List Text} :
    ((∀ line ∈ lines.head?, isFull line = true) → tsFirstOf lines = tsFirstOf (lines.filter isFull)) ∧
      (¬ (∀ line ∈ lines.head?, isFull line = true) → tsFirstOf lines = []) := by
  cases lines with
  | nil => simp [tsFirstOf]
  | cons line rest =>
      cases full : isFull line <;> simp [tsFirstOf, full]

/-- For every log under a header with at least one value column, `summarize`
finishes and does not notice the short lines exactly when there is a full line
and either the line right after the header is full, or the last timestamp has
the same whole seconds as its distance from the first. -/
theorem summarize_skips_short_lines_iff {header : Text} (columns : ',' ∈ header)
    (lines : List Text) :
    ((summarize (header :: lines)).divisionByZero = false ∧
      summarize (header :: lines) = summarize (header :: lines.filter isFull)) ↔
      (∃ line ∈ lines, isFull line = true) ∧
        ((∀ line ∈ lines.head?, isFull line = true) ∨
          truncate (number (tsLastOf (lines.filter isFull))) =
            truncate (number (tsLastOf (lines.filter isFull)) -
              number (tsFirstOf (lines.filter isFull)))) := by
  rw [divisionByZero_summarize columns, ← exists_full_iff]
  refine and_congr_right fun counted => ?_
  rw [summarize_filter_eq_iff header counted]
  by_cases front : ∀ line ∈ lines.head?, isFull line = true
  · rw [tsFirstOf_filter.1 front]
    exact iff_of_true rfl (.inl front)
  · rw [tsFirstOf_filter.2 front, number_nil, sub_zero]
    exact ⟨.inr, fun choice => choice.resolve_left front⟩

/-- A short line in the middle of a log is not noticed. -/
theorem summarize_skips_partial_line :
    (summarize [collectHeader, "1.5,10".toList, "2.".toList, "2.5,12".toList]).divisionByZero =
        false ∧
      summarize [collectHeader, "1.5,10".toList, "2.".toList, "2.5,12".toList] =
        summarize [collectHeader, "1.5,10".toList, "2.5,12".toList] := by
  have unnoticed := (@summarize_skips_short_lines_iff collectHeader (by decide)
    ["1.5,10".toList, "2.".toList, "2.5,12".toList]).mpr
      ⟨⟨"1.5,10".toList, by decide, by decide⟩, .inl (by decide)⟩
  exact unnoticed

/-- A collector that is stopped before its first sample leaves a log that
`summarize` cannot finish. -/
theorem summarize_header_only : (summarize [collectHeader]).divisionByZero = true := by
  rw [← Bool.not_eq_false, divisionByZero_summarize (by decide)]
  simp

end LtramBench.Monitoring
