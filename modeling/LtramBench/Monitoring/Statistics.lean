import LtramBench.Monitoring.Summarize
import LtramBench.Shell.Words
import Mathlib.Algebra.Group.Action.Defs
import Mathlib.Algebra.Order.BigOperators.Group.List
import Mathlib.Order.Bounds.Basic

/-!
# The statistics that `summarize` prints

On a log as `collect` leaves it, the pass has seen a prefix of the samples at
every moment, and its arrays describe that prefix: the least value, the greatest
one counting a zero, and the sum.  At the end the prefix is the whole log.
-/

namespace LtramBench.Monitoring

open LtramBench.Shell

/-! ## Logs -/

/-- One sample: a timestamp and the values of the columns. -/
structure Sample where
  ts : Text
  values : List Nat

/-- The line of a sample. -/
def Sample.render (sample : Sample) : Text :=
  joined ',' (sample.ts :: sample.values.map decimal)

/-- A header with at least one value column, and at least one sample with a value
for every column. -/
structure Log where
  tsName : Text
  names : List Text
  samples : List Sample
  named : names ≠ []
  sampled : samples ≠ []
  namesClean : ∀ name ∈ tsName :: names, ',' ∉ name
  tsClean : ∀ sample ∈ samples, ',' ∉ sample.ts
  full : ∀ sample ∈ samples, sample.values.length = names.length

/-- The header of a log. -/
def Log.header (log : Log) : Text :=
  joined ',' (log.tsName :: log.names)

/-- The lines of a log. -/
def Log.render (log : Log) : List Text :=
  log.header :: log.samples.map Sample.render

/-- The values of one column. -/
def column (samples : List Sample) (position : Nat) : List Nat :=
  samples.map fun sample => sample.values.getD position 0

theorem column_concat (samples : List Sample) (sample : Sample) (position : Nat) :
    column (samples ++ [sample]) position =
      column samples position ++ [sample.values.getD position 0] := by
  simp [column]

/-! ## Extremes of a growing list -/

theorem setOf_mem_concat (values : List Nat) (value : Nat) :
    {v | v ∈ values ++ [value]} = insert value {v | v ∈ values} := by
  ext v
  simp [or_comm]

theorem isLeast_concat {values : List Nat} {low : Nat} (least : IsLeast {v | v ∈ values} low)
    (value : Nat) :
    IsLeast {v | v ∈ values ++ [value]} (if value < low then value else low) := by
  have smaller : (if value < low then value else low) = min value low := by
    split <;> omega
  rw [smaller, setOf_mem_concat]
  exact least.insert value

theorem isGreatest_concat {values : List Nat} {high : Nat}
    (greatest : IsGreatest (insert 0 {v | v ∈ values}) high) (value : Nat) :
    IsGreatest (insert 0 {v | v ∈ values ++ [value]}) (if high < value then value else high) := by
  have larger : (if high < value then value else high) = max value high := by
    split <;> omega
  rw [larger, setOf_mem_concat, Set.insert_comm]
  exact greatest.insert value

/-- A zero that is counted although it was not seen does not change the greatest
value of a nonempty list. -/
theorem isGreatest_of_insert_zero {values : List Nat} (nonempty : values ≠ []) {high : Nat}
    (greatest : IsGreatest (insert 0 {v | v ∈ values}) high) :
    IsGreatest {v | v ∈ values} high := by
  have bound : ∀ v ∈ values, v ≤ high := fun v member => greatest.2 (Set.mem_insert_of_mem 0 member)
  refine ⟨?_, bound⟩
  rcases greatest.1 with zero | member
  · obtain ⟨value, rest, rfl⟩ := List.exists_cons_of_ne_nil nonempty
    have small := bound value List.mem_cons_self
    have same : high = value := by omega
    exact same ▸ List.mem_cons_self
  · exact member

/-- The rounded average lies between the extremes. -/
theorem average_between {values : List Nat} (nonempty : values ≠ []) {low high : Nat}
    (least : IsLeast {v | v ∈ values} low) (greatest : IsGreatest {v | v ∈ values} high) :
    low ≤ values.sum / values.length ∧ values.sum / values.length ≤ high := by
  have count : 0 < values.length := List.length_pos_iff.mpr nonempty
  constructor
  · rw [Nat.le_div_iff_mul_le count, Nat.mul_comm, ← smul_eq_mul]
    exact List.card_nsmul_le_sum values low fun v member => least.2 member
  · apply Nat.div_le_of_le_mul
    rw [← smul_eq_mul]
    exact List.sum_le_card_nsmul values high fun v member => greatest.2 member

/-! ## The invariant -/

/-- The arrays of the pass describe the samples seen. -/
structure Describes (width : Nat) (seen : List Sample) (state : Summary) : Prop where
  ncols : state.ncols = width + 1
  nrows : state.nrows = seen.length
  least : seen ≠ [] → ∀ position < width, ∃ low : Nat, state.mins (position + 2) = low ∧
    IsLeast {v | v ∈ column seen position} low
  greatest : ∀ position < width, ∃ high : Nat, state.maxs (position + 2) = high ∧
    IsGreatest (insert 0 {v | v ∈ column seen position}) high
  sum : ∀ position < width, state.avgs (position + 2) = (column seen position).sum

/-- Reading a sample's line. -/
theorem fields_render {sample : Sample} (clean : ',' ∉ sample.ts) (valued : sample.values ≠ []) :
    fields ',' sample.render = sample.ts :: sample.values.map decimal := by
  apply fields_joined
  · have count := List.length_pos_iff.mpr valued
    simp only [List.length_cons, List.length_map]
    omega
  · intro part member
    rcases List.mem_cons.mp member with rfl | printed
    · exact clean
    · obtain ⟨value, -, rfl⟩ := List.mem_map.mp printed
      exact not_mem_decimal rfl value

theorem number_field_render {sample : Sample} (clean : ',' ∉ sample.ts) {position : Nat}
    (bound : position < sample.values.length) :
    number (field (fields ',' sample.render) (position + 2)) =
      (sample.values.getD position 0 : Nat) := by
  have valued : sample.values ≠ [] := List.length_pos_iff.mp (by omega)
  rw [fields_render clean valued, field]
  simp [bound]

/-- Before the first sample there is nothing to describe. -/
theorem describes_nil {width : Nat} {state : Summary} (ncols : state.ncols = width + 1)
    (nrows : state.nrows = 0) (maxs : state.maxs = fun _ => 0) (avgs : state.avgs = fun _ => 0) :
    Describes width [] state where
  ncols := ncols
  nrows := nrows
  least := fun absurd => absurd.elim rfl
  greatest := by
    intro position _
    refine ⟨0, by simp [maxs], ?_⟩
    simp [column]
  sum := by
    intro position _
    simp [avgs, column]

/-! One more sample, array by array, for an index of a column. -/

section CountRow

variable {record : Text} {state : Summary} {index : Nat} (inside : 2 ≤ index ∧ index ≤ state.ncols)

include inside

theorem countRow_mins :
    (countRow record state).mins index =
      if state.nrows = 0 ∨ number (field (fields ',' record) index) < state.mins index then
        number (field (fields ',' record) index)
      else state.mins index := by
  simp [countRow, inside]

theorem countRow_maxs :
    (countRow record state).maxs index =
      if state.maxs index < number (field (fields ',' record) index) then
        number (field (fields ',' record) index)
      else state.maxs index := by
  simp [countRow, inside]

theorem countRow_avgs :
    (countRow record state).avgs index =
      state.avgs index + number (field (fields ',' record) index) := by
  simp [countRow, inside]

end CountRow

/-- One more sample. -/
theorem Describes.countRow {width : Nat} {seen : List Sample} {state : Summary}
    (describes : Describes width seen state) {sample : Sample} (clean : ',' ∉ sample.ts)
    (full : sample.values.length = width) :
    Describes width (seen ++ [sample]) (countRow sample.render state) := by
  have inside : ∀ position < width, 2 ≤ position + 2 ∧ position + 2 ≤ state.ncols := by
    intro position bound
    rw [describes.ncols]
    omega
  have value : ∀ position < width,
      number (field (fields ',' sample.render) (position + 2)) =
        (sample.values.getD position 0 : Nat) := by
    intro position bound
    exact number_field_render clean (full ▸ bound)
  refine ⟨describes.ncols, ?_, ?_, ?_, ?_⟩
  · rw [List.length_append, List.length_singleton, ← describes.nrows]
    rfl
  · intro _ position bound
    rw [countRow_mins (inside position bound), value position bound, column_concat,
      describes.nrows]
    by_cases fresh : seen = []
    · refine ⟨sample.values.getD position 0, if_pos (.inl (by simp [fresh])), ?_⟩
      simp [fresh, column]
    · obtain ⟨low, stored, least⟩ := describes.least fresh position bound
      refine ⟨if sample.values.getD position 0 < low then sample.values.getD position 0 else low,
        ?_, isLeast_concat least _⟩
      rw [stored, Nat.cast_ite]
      simp only [List.length_eq_zero_iff, fresh, false_or, Nat.cast_lt]
  · intro position bound
    obtain ⟨high, stored, greatest⟩ := describes.greatest position bound
    refine ⟨if high < sample.values.getD position 0 then sample.values.getD position 0 else high,
      ?_, ?_⟩
    · rw [countRow_maxs (inside position bound), value position bound, stored, Nat.cast_ite]
      simp only [Nat.cast_lt]
    · rw [column_concat]
      exact isGreatest_concat greatest _
  · intro position bound
    rw [countRow_avgs (inside position bound), value position bound,
      describes.sum position bound, column_concat, List.sum_append, List.sum_singleton,
      Nat.cast_add]

/-- A run of samples, in the order of the log. -/
theorem Describes.countRows {width : Nat} {seen : List Sample} {state : Summary}
    (describes : Describes width seen state) {samples : List Sample}
    (clean : ∀ sample ∈ samples, ',' ∉ sample.ts)
    (full : ∀ sample ∈ samples, sample.values.length = width) :
    Describes width (seen ++ samples) (countRows (samples.map Sample.render) state) := by
  induction samples generalizing seen state with
  | nil =>
      rw [List.append_nil]
      exact describes
  | cons sample rest ih =>
      have next := describes.countRow (clean sample List.mem_cons_self)
        (full sample List.mem_cons_self)
      have whole := ih next (fun other member => clean other (List.mem_cons_of_mem sample member))
        (fun other member => full other (List.mem_cons_of_mem sample member))
      rw [List.append_assoc, List.singleton_append] at whole
      exact whole

/-! ## The end of the log -/

theorem columnLine_div (name : Text) (low high : ℚ) (sum count : Nat) :
    columnLine name low ((sum : ℚ) / count) high =
      columnLine name low ((sum / count : Nat) : ℚ) high := by
  rw [columnLine, columnLine, percentD_div, percentD_natCast]

/-! What the printed lines show. -/

theorem words_durationLine (duration : ℚ) (samples : Nat) :
    words (durationLine duration samples) =
      ["Duration".toList, ":".toList, percentD duration ++ ['s'], '(' :: decimal samples,
        "samples)".toList] := by
  have front : durationLine duration samples =
      "Duration".toList ++ ' ' :: (":".toList ++ ' ' :: ((percentD duration ++ ['s']) ++ ' ' ::
        (List.replicate 2 ' ' ++ (('(' :: decimal samples) ++ ' ' :: "samples)".toList)))) := by
    have first : "Duration : ".toList = "Duration".toList ++ ' ' :: (":".toList ++ [' ']) := rfl
    have second : "s   (".toList = 's' :: ' ' :: (List.replicate 2 ' ' ++ ['(']) := rfl
    have third : " samples)".toList = ' ' :: "samples)".toList := rfl
    unfold durationLine
    simp only [first, second, third, List.append_assoc, List.cons_append, List.nil_append]
  have title : Solid "Duration".toList := ⟨by simp, by simp [isBlank]⟩
  have colon : Solid ":".toList := ⟨by simp, by simp [isBlank]⟩
  have unit : Solid "samples)".toList := ⟨by simp, by simp [isBlank]⟩
  have seconds : Solid (percentD duration ++ ['s']) :=
    (solid_printInt (truncate duration)).append (by simp [isBlank])
  have count : Solid ('(' :: decimal samples) := (solid_decimal samples).cons rfl
  rw [front, title.words_append rfl, colon.words_append rfl, seconds.words_append rfl,
    words_replicate_append, count.words_append rfl, unit.words]

/-- A line of the table starts with the name of its column, and then has three
numbers. -/
theorem columnLine_natCast (name : Text) (low average high : Nat) :
    ∃ numbers, columnLine name low average high = name ++ ' ' :: numbers ∧
      words numbers = [decimal low, decimal average, decimal high] := by
  have front : columnLine name low average high =
      padEnd 26 name ++ ' ' :: (padStart 10 (decimal low) ++ ' ' ::
        (padStart 10 (decimal average) ++ ' ' :: padStart 10 (decimal high))) := by
    simp [columnLine]
  refine ⟨_, front.trans (padEnd_append 26 name _), ?_⟩
  rw [words_replicate_append, words_padStart_append (solid_decimal low),
    words_padStart_append (solid_decimal average), words_padStart, (solid_decimal high).words]

theorem countRows_cols (records : List Text) (state : Summary) :
    (countRows records state).cols = state.cols := by
  induction records generalizing state with
  | nil => rfl
  | cons record rest ih => exact ih (countRow record state)

namespace Log

variable (log : Log)

theorem fields_header : fields ',' log.header = log.tsName :: log.names := by
  have count := List.length_pos_iff.mpr log.named
  exact fields_joined (by rw [List.length_cons]; omega) log.namesClean

theorem valued {sample : Sample} (member : sample ∈ log.samples) : sample.values ≠ [] := by
  have count := List.length_pos_iff.mpr log.named
  rw [← List.length_pos_iff, log.full sample member]
  exact count

theorem isFull_render {sample : Sample} (member : sample ∈ log.samples) :
    isFull sample.render = true := by
  have count := List.length_pos_iff.mpr (log.valued member)
  rw [← Bool.not_eq_false, ← short_iff, fields_render (log.tsClean sample member)
    (log.valued member), List.length_cons, List.length_map]
  omega

/-- Every sample is counted. -/
theorem filter_isFull :
    (log.samples.map Sample.render).filter isFull = log.samples.map Sample.render := by
  rw [List.filter_eq_self]
  intro record member
  obtain ⟨sample, sampleMember, rfl⟩ := List.mem_map.mp member
  exact log.isFull_render sampleMember

theorem timestamp_render {sample : Sample} (member : sample ∈ log.samples) :
    timestamp sample.render = sample.ts := by
  rw [timestamp, fields_render (log.tsClean sample member) (log.valued member)]
  rfl

theorem tsFirstOf_samples :
    tsFirstOf (log.samples.map Sample.render) = (log.samples.head log.sampled).ts := by
  have member := List.head_mem log.sampled
  have split : log.samples.map Sample.render =
      (log.samples.head log.sampled).render :: log.samples.tail.map Sample.render := by
    rw [← List.map_cons, List.cons_head_tail]
  rw [split, tsFirstOf, if_pos (log.isFull_render member), log.timestamp_render member]

theorem tsLastOf_samples :
    tsLastOf (log.samples.map Sample.render) = (log.samples.getLast log.sampled).ts := by
  rw [tsLastOf, List.getLast?_map, List.getLast?_eq_some_getLast log.sampled]
  exact log.timestamp_render (List.getLast_mem log.sampled)

/-- The variables at the end of the log, before the first timestamp is set. -/
def final : Summary :=
  countRows (log.samples.map Sample.render) (readHeader log.header .unset)

theorem describes_final : Describes log.names.length log.samples log.final := by
  have start : Describes log.names.length [] (readHeader log.header .unset) := by
    apply describes_nil
    · rw [← List.length_cons, ← log.fields_header]
      rfl
    · rfl
    · rfl
    · rfl
  exact start.countRows log.tsClean log.full

theorem cols_final {position : Nat} (bound : position < log.names.length) :
    log.final.cols (position + 2) = log.names[position] := by
  have inside : 2 ≤ position + 2 ∧ position + 2 ≤ (fields ',' log.header).length := by
    rw [log.fields_header, List.length_cons]
    omega
  rw [final, countRows_cols]
  change (if 2 ≤ position + 2 ∧ position + 2 ≤ (fields ',' log.header).length then
    field (fields ',' log.header) (position + 2) else []) = log.names[position]
  rw [if_pos inside, log.fields_header, field]
  simp [bound]

/-- What the program prints at the end of the log. -/
theorem summarize_render :
    summarize log.render =
      { lines := durationLine
            (number (log.samples.getLast log.sampled).ts - number (log.samples.head log.sampled).ts)
            log.samples.length :: [] ::
          (tableHead ++ log.names.mapIdx fun position name =>
            columnLine name (log.final.mins (position + 2))
              (log.final.avgs (position + 2) / log.samples.length) (log.final.maxs (position + 2)))
        divisionByZero := false } := by
  have describes := log.describes_final
  have counted : log.final.nrows ≠ 0 := by
    rw [describes.nrows, List.length_eq_zero_iff.ne]
    exact log.sampled
  have lastTs : log.final.tsLast = (log.samples.getLast log.sampled).ts := by
    rw [final, countRows_tsLast (by simp [log.sampled]), log.tsLastOf_samples]
  have columns : printColumns log.final (List.range' 2 (log.final.ncols - 1)) =
      ⟨log.names.mapIdx fun position name =>
        columnLine name (log.final.mins (position + 2))
          (log.final.avgs (position + 2) / log.samples.length) (log.final.maxs (position + 2)),
        false⟩ := by
    rw [printColumns_of_rows counted, describes.ncols, describes.nrows, Nat.add_sub_cancel]
    congr 1
    apply List.ext_getElem
    · simp
    · intro position _ bound
      rw [List.length_mapIdx] at bound
      simp only [List.getElem_map, List.getElem_range', List.getElem_mapIdx, one_mul,
        Nat.add_comm 2 position, log.cols_final bound]
  rw [summarize, render, scan_log, log.filter_isFull, log.tsFirstOf_samples]
  change printSummary { log.final with tsFirst := (log.samples.head log.sampled).ts } = _
  simp only [printSummary, printColumns_tsFirst, columns]
  rw [lastTs, describes.nrows]

end Log

/-- For every log, `summarize` reports the number of samples, the truncated
difference of the last and the first timestamp and, for each column in the order
of the header, its least value, the floor of its average and its greatest value,
which stand in that order.  The first line shows the duration and the number of
samples, and behind the head of the table the line of a column starts with its
name and shows its three numbers. -/
theorem summarize_statistics (log : Log) :
    ∃ low high : Nat → Nat,
      (∀ position < log.names.length,
        IsLeast {v | v ∈ column log.samples position} (low position) ∧
          IsGreatest {v | v ∈ column log.samples position} (high position) ∧
          low position ≤ (column log.samples position).sum / log.samples.length ∧
          (column log.samples position).sum / log.samples.length ≤ high position) ∧
      summarize log.render =
        { lines := durationLine
              (number (log.samples.getLast log.sampled).ts -
                number (log.samples.head log.sampled).ts)
              log.samples.length :: [] ::
            (tableHead ++ log.names.mapIdx fun position name =>
              columnLine name (low position)
                ((column log.samples position).sum / log.samples.length : Nat) (high position))
          divisionByZero := false } ∧
      (summarize log.render).lines.length = 4 + log.names.length ∧
      (summarize log.render).lines.head?.map words =
        some ["Duration".toList, ":".toList,
          printInt (truncate (number (log.samples.getLast log.sampled).ts -
            number (log.samples.head log.sampled).ts)) ++ ['s'],
          '(' :: decimal log.samples.length, "samples)".toList] ∧
      ∀ position name, log.names[position]? = some name →
        ∃ numbers, (summarize log.render).lines[4 + position]? = some (name ++ ' ' :: numbers) ∧
          words numbers = [decimal (low position),
            decimal ((column log.samples position).sum / log.samples.length),
            decimal (high position)] := by
  have describes := log.describes_final
  choose! low lowEq least using describes.least log.sampled
  choose! high highEq greatest using describes.greatest
  have printed : summarize log.render =
      { lines := durationLine
            (number (log.samples.getLast log.sampled).ts - number (log.samples.head log.sampled).ts)
            log.samples.length :: [] ::
          (tableHead ++ log.names.mapIdx fun position name =>
            columnLine name (low position)
              ((column log.samples position).sum / log.samples.length : Nat) (high position))
        divisionByZero := false } := by
    rw [log.summarize_render]
    have lines : (log.names.mapIdx fun position name =>
        columnLine name (log.final.mins (position + 2))
          (log.final.avgs (position + 2) / log.samples.length) (log.final.maxs (position + 2))) =
        log.names.mapIdx fun position name =>
          columnLine name (low position)
            ((column log.samples position).sum / log.samples.length : Nat) (high position) := by
      apply List.ext_getElem
      · simp
      · intro position _ bound
        rw [List.length_mapIdx] at bound
        rw [List.getElem_mapIdx, List.getElem_mapIdx, lowEq position bound, highEq position bound,
          describes.sum position bound, columnLine_div]
    rw [lines]
  refine ⟨low, high, ?_, printed, ?_, ?_, ?_⟩
  · intro position bound
    have nonempty : column log.samples position ≠ [] := by
      simp [column, log.sampled]
    have length : (column log.samples position).length = log.samples.length := by
      simp [column]
    have most := isGreatest_of_insert_zero nonempty (greatest position bound)
    have between := average_between nonempty (least position bound) most
    rw [length] at between
    exact ⟨least position bound, most, between⟩
  · rw [printed]
    simp [tableHead]
    omega
  · rw [printed, List.head?_cons, Option.map_some, words_durationLine]
    rfl
  · intro position name named
    obtain ⟨numbers, line, shown⟩ := columnLine_natCast name (low position)
      ((column log.samples position).sum / log.samples.length) (high position)
    refine ⟨numbers, ?_, shown⟩
    rw [printed, Nat.add_comm]
    simp [tableHead, named, line]

/-- Two samples of one column, the second one all zero. -/
def twoSamples : Log where
  tsName := "ts_s".toList
  names := ["anon_kb".toList]
  samples := [⟨"10.5".toList, [4]⟩, ⟨"12.25".toList, [0]⟩]
  named := by decide
  sampled := by decide
  namesClean := by decide
  tsClean := by decide
  full := by decide

/-- The least value of the two samples is the zero, and the average of 4 and 0 is
2. -/
theorem summarize_twoSamples :
    (summarize twoSamples.render).lines.head? = some "Duration : 1s   (2 samples)".toList ∧
      (summarize twoSamples.render).lines[4]? =
        some "anon_kb                             0          2          4".toList ∧
      ∃ numbers, (summarize twoSamples.render).lines[4]? = some ("anon_kb".toList ++ ' ' :: numbers) ∧
        words numbers = ["0".toList, "2".toList, "4".toList] := by
  obtain ⟨low, high, extremes, printed, -, -, shown⟩ := summarize_statistics twoSamples
  obtain ⟨least, greatest, -, -⟩ := extremes 0 (by decide)
  have values : column twoSamples.samples 0 = [4, 0] := rfl
  rw [values] at least greatest
  have lowEq : low 0 = 0 :=
    least.unique ⟨by decide, fun _ _ => Nat.zero_le _⟩
  have highEq : high 0 = 4 :=
    greatest.unique ⟨by decide, by simp [upperBounds]⟩
  have row : (summarize twoSamples.render).lines[4]? =
      some (columnLine "anon_kb".toList (low 0) (((4 + 0) / 2 : Nat) : ℚ) (high 0)) := by
    rw [printed]
    rfl
  obtain ⟨numbers, line, three⟩ := shown 0 "anon_kb".toList rfl
  refine ⟨?_, ?_, numbers, line, ?_⟩
  · rw [printed, List.head?_cons]
    decide +kernel
  · rw [row, lowEq, highEq]
    decide +kernel
  · rw [three, lowEq, highEq]
    rfl

end LtramBench.Monitoring
