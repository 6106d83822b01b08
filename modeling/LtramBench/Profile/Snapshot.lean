import LtramBench.Profile.Spliced
import Mathlib.Tactic.Linarith

/-!
# From `/proc/vmstat` to the delta report

`snap` reads the lines `name value` of `/proc/vmstat` into an array, and prints
the values of the tracked counters in the order of its own list.  The names
stand in three places: in that list, in the header of the file, and in the list
from which the report takes the name of a column.
-/

namespace LtramBench.Profile

open LtramBench.Shell

/-! ## `snap` -/

/-- The list `order` of `snap`. -/
def snapNames : List Text :=
  ["pgpgin", "pgpgout", "pgfault", "pgmajfault", "pgalloc_normal", "pgalloc_movable",
    "nr_file_pages", "nr_dirty", "nr_writeback", "workingset_refault_file", "nr_active_file",
    "nr_inactive_file", "nr_dirtied"].map String.toList

/-- The text of the variable `order`. -/
def order : Text :=
  joined ' ' snapNames

/-- The names over the columns of the file, behind label, phase and time. -/
def columns : List Text :=
  (fields ',' header).drop 3

/-- `[a-z_]`. -/
def isNameChar (char : Char) : Bool :=
  char.isLower || char = '_'

/-- `/^[a-z_]+ [0-9]+/`. -/
def isCounterLine (record : Text) : Bool :=
  record.takeWhile isNameChar ≠ [] &&
    match record.dropWhile isNameChar with
    | ' ' :: digit :: _ => digit.isDigit
    | _ => false

/-- What may follow the mantissa of a number that is a whole field. -/
def endsNumber : Text → Bool
  | 'e' :: rest | 'E' :: rest =>
      (readSign rest).2.takeWhile Char.isDigit ≠ [] &&
        ((readSign rest).2.dropWhile Char.isDigit).all isBlank
  | rest => rest.all isBlank

/-- A field that `awk` treats as a number. -/
def looksNumeric (text : Text) : Bool :=
  let unsigned := (readSign (text.dropWhile isBlank)).2
  let fraction := readFraction (unsigned.dropWhile Char.isDigit)
  unsigned.takeWhile Char.isDigit ++ fraction.1 ≠ [] && endsNumber fraction.2

/-- The truth of a field: a number is true unless it is zero, any other text
unless it is empty. -/
def IsTrue (text : Text) : Prop :=
  if looksNumeric text then number text ≠ 0 else text ≠ []

instance (text : Text) : Decidable (IsTrue text) :=
  inferInstanceAs (Decidable (if looksNumeric text then number text ≠ 0 else text ≠ []))

/-- `/^[a-z_]+ [0-9]+/ { vals[$1] = $2 }`. -/
def snapRule (_ : Nat) (record : Text) (vals : Text → Text) : Text → Text :=
  if isCounterLine record then assign vals (field (words record) 1) (field (words record) 2)
  else vals

/-- The counters that the kernel keeps in sectors. -/
def inSectors (name : Text) : Prop :=
  name = "pgpgin".toList ∨ name = "pgpgout".toList

instance (name : Text) : Decidable (inSectors name) :=
  inferInstanceAs (Decidable (_ ∨ _))

/-- What the `END` rule prints for one name. -/
def snapValue (name text : Text) : Text :=
  let v := if IsTrue text then text else "0".toList
  if inSectors name then percentD (number v / 8) else v

/-- `snap`. -/
def snap (vmstat : List Text) : Text :=
  let vals := scan snapRule 1 vmstat fun _ => []
  joined ',' ((words order).map fun name => snapValue name (vals name))

/-- The argument of the two `echo` commands that append a row. -/
def snapRow (label phase : Text) (time : Nat) (vmstat : List Text) : Text :=
  joined ',' [label, phase, decimal time, snap vmstat]

/-! ## The text of `/proc/vmstat` -/

/-- The lines of `/proc/vmstat`: any counters, in any order. -/
structure Vmstat where
  counters : List Pair
  distinct : (counters.map Pair.key).Nodup

namespace Vmstat

def text (vmstat : Vmstat) : List Text :=
  vmstat.counters.map Pair.render

/-- The value of a counter; a counter that is absent counts as 0. -/
def value (vmstat : Vmstat) (name : Text) : Nat :=
  valueOf vmstat.counters name

end Vmstat

/-- A counter in pages. -/
def inPages (name : Text) (value : Nat) : Nat :=
  if inSectors name then value / 8 else value

/-- The change of a counter between two snapshots, in pages. -/
def pageDelta (before after : Vmstat) (name : Text) : Int :=
  (inPages name (after.value name) : Int) - inPages name (before.value name)

/-- What `snap` extracts from `/proc/vmstat`. -/
def Vmstat.snapshot (vmstat : Vmstat) : Snapshot where
  values := Profile.counters.map fun name => inPages name (vmstat.value name)
  complete := List.length_map _

/-! ## What `snap` prints -/

theorem columns_eq : columns = counters := by
  rw [columns, fields_header]
  rfl

theorem solid_of_mem_columns {name : Text} (tracked : name ∈ columns) : Solid name :=
  solid_of_mem_counters (columns_eq ▸ tracked)

theorem isNameChar_of_mem_counters {name : Text} (tracked : name ∈ counters) :
    name ≠ [] ∧ ∀ char ∈ name, isNameChar char = true := by
  have checked : counters.all (fun name => name.all isNameChar) = true := by decide
  exact ⟨(solid_of_mem_counters tracked).nonempty,
    List.all_eq_true.mp (List.all_eq_true.mp checked name tracked)⟩

/-- The list of `snap` is the list of columns. -/
theorem words_order : words order = counters :=
  words_joined fun _ member => solid_of_mem_counters member

/-- The line of a tracked counter passes the pattern. -/
theorem isCounterLine_render {pair : Pair} (tracked : pair.key ∈ counters) :
    isCounterLine pair.render = true := by
  obtain ⟨nonempty, nameChars⟩ := isNameChar_of_mem_counters tracked
  obtain ⟨first, others, digits, isDigit⟩ := exists_decimal_eq_cons pair.value
  have blank : isNameChar ' ' = false := by decide
  have taken : pair.render.takeWhile isNameChar = pair.key := by
    rw [Pair.render, List.takeWhile_append_of_pos nameChars]
    simp [blank]
  have dropped : pair.render.dropWhile isNameChar = ' ' :: first :: others := by
    rw [Pair.render, List.dropWhile_append_of_pos nameChars, digits]
    simp [blank]
  simp [isCounterLine, taken, dropped, nonempty, isDigit]

/-- The array of `snap` at a tracked name. -/
theorem scan_snapRule (vmstat : Vmstat) {name : Text} (tracked : name ∈ counters) (nr : Nat) :
    scan snapRule nr vmstat.text (fun _ => []) name =
      match vmstat.counters.find? (fun pair => pair.key = name) with
      | some pair => decimal pair.value
      | none => [] := by
  have stored := @scan_assign isCounterLine _ vmstat.distinct nr (fun _ => []) name
  have passes : (fun pair : Pair => decide (pair.key = name ∧ isCounterLine pair.render)) =
      fun pair => decide (pair.key = name) := by
    funext pair
    rw [decide_eq_decide]
    constructor
    · intro both
      exact both.1
    · rintro rfl
      exact ⟨rfl, isCounterLine_render tracked⟩
  rw [passes] at stored
  exact stored

/-- The test for truth replaces an absent counter by 0 and leaves a number as it
is. -/
theorem ite_isTrue_decimal (value : Nat) :
    (if IsTrue (decimal value) then decimal value else "0".toList) = decimal value := by
  by_cases holds : IsTrue (decimal value)
  · rw [if_pos holds]
  · rw [if_neg holds]
    unfold IsTrue at holds
    split at holds
    · rw [number_decimal_self, not_not, Nat.cast_eq_zero] at holds
      rw [holds]
      rfl
    · exact absurd (solid_decimal value).nonempty holds

theorem ite_isTrue_nil : (if IsTrue [] then [] else "0".toList) = decimal 0 := by
  decide

/-- What `snap` prints for a counter is its value in pages. -/
theorem snapValue_scan (vmstat : Vmstat) {name : Text} (tracked : name ∈ counters) :
    snapValue name (scan snapRule 1 vmstat.text (fun _ => []) name) =
      decimal (inPages name (vmstat.value name)) := by
  have read : (if IsTrue (scan snapRule 1 vmstat.text (fun _ => []) name)
      then scan snapRule 1 vmstat.text (fun _ => []) name else "0".toList) =
        decimal (vmstat.value name) := by
    rw [scan_snapRule vmstat tracked, Vmstat.value, valueOf]
    cases vmstat.counters.find? (fun pair => pair.key = name) with
    | none => exact ite_isTrue_nil
    | some pair => exact ite_isTrue_decimal pair.value
  rw [snapValue, read, inPages]
  split
  · rw [number_decimal_self]
    exact_mod_cast percentD_div (vmstat.value name) 8
  · rfl

theorem snap_text (vmstat : Vmstat) :
    snap vmstat.text = joined ',' (vmstat.snapshot.values.map decimal) := by
  unfold snap
  rw [words_order, Vmstat.snapshot, List.map_map]
  refine congrArg (joined ',') (List.map_congr_left ?_)
  intro name tracked
  exact snapValue_scan vmstat tracked

/-- The row that a run appends is the row of its snapshot. -/
theorem snapRow_text (label phase : Text) (time : Nat) (vmstat : Vmstat) :
    snapRow label phase time vmstat.text = row label phase time vmstat.snapshot := by
  obtain ⟨first, others, values⟩ : ∃ first others,
      vmstat.snapshot.values.map decimal = first :: others :=
    ⟨_, _, rfl⟩
  rw [snapRow, snap_text, row, rowFields, values]
  simp only [joined_cons_cons, joined_singleton]

/-! ## The report -/

/-- The deltas of two snapshots of `/proc/vmstat`. -/
theorem deltas_snapshot (before after : Vmstat) :
    deltas before.snapshot after.snapshot =
      counters.map fun name => deltaLine name (pageDelta before after name) := by
  simp [deltas, Vmstat.snapshot, pageDelta, List.zipWith_map_left, List.zipWith_map_right]

/-- Dividing before subtracting costs less than a page. -/
theorem abs_div_sub_div_lt (before after : Nat) :
    |(((after / 8 : Nat) : ℚ) - (before / 8 : Nat)) - ((after : ℚ) - before) / 8| < 1 := by
  have afterSplit : ((after / 8 : Nat) : ℚ) * 8 + (after % 8 : Nat) = after := by
    exact_mod_cast Nat.div_add_mod' after 8
  have beforeSplit : ((before / 8 : Nat) : ℚ) * 8 + (before % 8 : Nat) = before := by
    exact_mod_cast Nat.div_add_mod' before 8
  have afterRest : ((after % 8 : Nat) : ℚ) < 8 := by
    exact_mod_cast Nat.mod_lt after (by decide)
  have beforeRest : ((before % 8 : Nat) : ℚ) < 8 := by
    exact_mod_cast Nat.mod_lt before (by decide)
  have afterNonneg : (0 : ℚ) ≤ (after % 8 : Nat) := Nat.cast_nonneg _
  have beforeNonneg : (0 : ℚ) ≤ (before % 8 : Nat) := Nat.cast_nonneg _
  rw [abs_lt]
  constructor <;> linarith

/-- What the row of a snapshot holds behind label, phase and time. -/
theorem fields_snapRow {label phase : Text} (clean : ',' ∉ label) (phaseClean : ',' ∉ phase)
    (time : Nat) (vmstat : Vmstat) :
    (fields ',' (snapRow label phase time vmstat.text)).drop 3 =
      columns.map fun name => decimal (inPages name (vmstat.value name)) := by
  rw [snapRow_text, fields_row clean phaseClean, columns_eq, rowFields, Vmstat.snapshot,
    List.map_map]
  rfl

/-- For every two texts of `/proc/vmstat` the report has one line for each tracked
counter, in the order of the columns.  A line shows two words, the name that heads
the column and the delta of the values that `snap` printed into it; the names of
`snap` are those of the columns.  The delta is exact for the counters in pages; for
those in sectors it is the difference of the whole pages, less than a page from
the true one.  The deltas of consecutive windows add up. -/
theorem reportStage_vmstat (awk : Awk) (label : GivenLabel) (plain : Plain label.text)
    {earlier : List Text} (headed : earlier ≠ [])
    (unfinished : ∀ record ∈ earlier, ¬ IsAfterRow label.text record)
    (started finished : Nat) (before after : Vmstat) :
    let first := snapRow label.text beforePhase started before.text
    let second := snapRow label.text afterPhase finished after.text
    let printed := reportStage awk label.text (earlier ++ [first, second])
    printed = columns.map (fun name => deltaLine name (pageDelta before after name)) ∧
    printed.map nameAndNumber =
      columns.map (fun name => (name, (pageDelta before after name : ℚ))) ∧
    (∀ line ∈ printed, (words line).length = 2) ∧
    (fields ',' first).drop 3 =
      columns.map (fun name => decimal (inPages name (before.value name))) ∧
    (fields ',' second).drop 3 =
      columns.map (fun name => decimal (inPages name (after.value name))) ∧
    words order = columns ∧ columns = counters ∧ counters.length = 13 ∧
    ∀ name ∈ columns,
      (¬ inSectors name →
        pageDelta before after name = (after.value name : Int) - before.value name) ∧
      (inSectors name →
        pageDelta before after name =
            ((after.value name / 8 : Nat) : Int) - (before.value name / 8 : Nat) ∧
          |(pageDelta before after name : ℚ) - ((after.value name : ℚ) - before.value name) / 8| <
            1) ∧
      ∀ middle : Vmstat, pageDelta before middle name + pageDelta middle after name =
        pageDelta before after name := by
  intro first second printed
  have lines : printed = columns.map fun name => deltaLine name (pageDelta before after name) := by
    rw [columns_eq, ← deltas_snapshot]
    change reportStage awk label.text (earlier ++ [first, second]) = _
    rw [reportStage_of_plain awk label plain]
    change deltaReport label.text (earlier ++ [snapRow _ _ _ _, snapRow _ _ _ _]) = _
    rw [snapRow_text, snapRow_text]
    exact deltaReport_append plain.1 headed unfinished started finished _ _
  refine ⟨lines, ?_, ?_, fields_snapRow plain.1 (by decide) started before,
    fields_snapRow plain.1 (by decide) finished after, words_order.trans columns_eq.symm,
    columns_eq, rfl, ?_⟩
  · rw [lines, List.map_map]
    refine List.map_congr_left ?_
    intro name tracked
    exact nameAndNumber_deltaLine (solid_of_mem_columns tracked) _
  · intro line member
    rw [lines] at member
    obtain ⟨name, tracked, rfl⟩ := List.mem_map.mp member
    rw [words_deltaLine (solid_of_mem_columns tracked)]
    rfl
  · intro name _
    refine ⟨?_, ?_, ?_⟩
    · intro pages
      rw [pageDelta, inPages, inPages, if_neg pages, if_neg pages]
    · intro sectors
      have delta : pageDelta before after name =
          ((after.value name / 8 : Nat) : Int) - (before.value name / 8 : Nat) := by
        rw [pageDelta, inPages, inPages, if_pos sectors, if_pos sectors]
      refine ⟨delta, ?_⟩
      rw [delta]
      push_cast
      exact_mod_cast abs_div_sub_div_lt (before.value name) (after.value name)
    · intro middle
      unfold pageDelta
      omega

/-- A text with one counter. -/
def oneCounter (value : Nat) : Vmstat where
  counters := [⟨"pgpgin".toList, value, solid_of_mem_counters List.mem_cons_self⟩]
  distinct := by simp

/-- An `awk` for which a backslash denotes itself and a foreign program prints
nothing. -/
def silentAwk : Awk where
  escape _ := ('\\', 0)
  foreign _ _ := []

/-- A single sector that completes a page counts as one; a counter that is absent
has not changed. -/
theorem reportStage_vmstat_sectors :
    let printed := reportStage silentAwk ycsbc.text
      ([header] ++ [snapRow ycsbc.text beforePhase 100 (oneCounter 7).text,
        snapRow ycsbc.text afterPhase 101 (oneCounter 8).text])
    printed.take 2 = ["  pgpgin                         +1".toList,
      "  pgpgout                        +0".toList] ∧
    (printed.map nameAndNumber).take 2 = [("pgpgin".toList, 1), ("pgpgout".toList, 0)] := by
  have plain : Plain ycsbc.text := by
    simp [Plain, ycsbc]
  intro printed
  obtain ⟨lines, shown, -⟩ := reportStage_vmstat silentAwk ycsbc plain (List.cons_ne_nil header [])
    (unfinished_header ycsbc.text) 100 101 (oneCounter 7) (oneCounter 8)
  have names : columns.take 2 = ["pgpgin".toList, "pgpgout".toList] := by
    rw [columns_eq]
    rfl
  have deltas : pageDelta (oneCounter 7) (oneCounter 8) "pgpgin".toList = 1 ∧
      pageDelta (oneCounter 7) (oneCounter 8) "pgpgout".toList = 0 := by
    decide
  constructor
  · rw [show printed = _ from lines, ← List.map_take, names, List.map_cons, List.map_singleton,
      deltas.1, deltas.2]
    decide
  · rw [show printed.map nameAndNumber = _ from shown, ← List.map_take, names, List.map_cons,
      List.map_singleton, deltas.1, deltas.2]
    rfl

end LtramBench.Profile
