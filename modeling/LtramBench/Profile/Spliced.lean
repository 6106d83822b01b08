import LtramBench.Profile.Report
import LtramBench.Shell.Literal

/-!
# The label in the program text of the report

The script writes the label into the first field of a row as it stands, and
separately splices it between two quotes of the report's `awk` program.  There it
is read as the body of a string literal.  The guest's shell and its `awk` are
those of BusyBox: `echo` prints a row as it is, and an escape sequence denotes
one character.

A label with a quote can end the literal, and the rest of it is then program
text.  What such a program does is left open, unless a literal stays open on the
line.  A label has no `/`, so no regular expression stands there.

What the report prints is compared with the deltas of the run twice: on a fresh
file, and behind what earlier runs with the label left.
-/

namespace LtramBench.Profile

open LtramBench.Shell

/-- A label that the script accepts and that can be part of a file name. -/
structure GivenLabel where
  text : Text
  nonempty : text ≠ []
  inFileName : ∀ char ∈ text, char ≠ '\n' ∧ char ≠ '/'

/-- What is left open of `awk`: the character that an escape sequence denotes and
how many characters after the first it takes, and what a program prints into
which a label has brought text of its own. -/
structure Awk where
  escape : Text → Char × Nat
  foreign : Text → List Text → List Text

/-! ## The program -/

/-- The text between the closing quote of the first label and the end of its
line. -/
def ruleRest : Text :=
  " && $2==\"before\" \x7b for (i=4; i<=NF; i++) b[i]=$i; names_set=0 \x7d\n".toList

/-- What `awk` makes of the program. -/
inductive Reading where
  | comparedTo (text : Text)
  | foreign
  | rejected
  deriving DecidableEq

/-- Where the literal ends decides what the program is.  If it ends at the quote
that the script wrote, `$1` is compared to what the label denotes.  If it ends
elsewhere, the text behind it is read as program text; a literal that has no end
on the line makes `awk` reject the program. -/
def readLabel (awk : Awk) (label : Text) : Reading :=
  match readLiteral (label ++ '"' :: ruleRest) with
  | none => .rejected
  | some (body, rest) =>
      if rest = ruleRest then .comparedTo (decode awk.escape 0 body)
      else if literalsClosed false rest then .foreign
      else .rejected

/-- The lines under `Deltas for LABEL`. -/
def reportStage (awk : Awk) (label : Text) (file : List Text) : List Text :=
  match readLabel awk label with
  | .comparedTo text => deltaReport text file
  | .foreign => tail 20 (awk.foreign label file)
  | .rejected => []

/-- The file of a label after its first run. -/
def freshFile (label : Text) (started finished : Nat) (before after : Snapshot) : List Text :=
  [header, row label beforePhase started before, row label afterPhase finished after]

/-- For every pair of snapshots the report on a fresh file is the 13 deltas. -/
def FindsRows (awk : Awk) (label : GivenLabel) : Prop :=
  ∀ started finished before after,
    reportStage awk label.text (freshFile label.text started finished before after) =
      deltas before after

/-- A label without the characters that either side treats specially. -/
def Plain (label : Text) : Prop :=
  ',' ∉ label ∧ '"' ∉ label ∧ '\\' ∉ label

/-! ## A plain label -/

theorem readLabel_of_plain (awk : Awk) (label : GivenLabel) (plain : Plain label.text) :
    readLabel awk label.text = .comparedTo label.text := by
  have unspecial : ∀ char ∈ label.text, char ≠ '"' ∧ char ≠ '\\' ∧ char ≠ '\n' := by
    intro char member
    exact ⟨fun same => plain.2.1 (same ▸ member), fun same => plain.2.2 (same ▸ member),
      (label.inFileName char member).1⟩
  rw [readLabel, readLiteral_append unspecial]
  simp only [if_true, decode_of_not_mem awk.escape plain.2.2]

theorem reportStage_of_plain (awk : Awk) (label : GivenLabel) (plain : Plain label.text)
    (file : List Text) : reportStage awk label.text file = deltaReport label.text file := by
  rw [reportStage, readLabel_of_plain awk label plain]

theorem findsRows_of_plain (awk : Awk) (label : GivenLabel) (plain : Plain label.text) :
    FindsRows awk label := by
  intro started finished before after
  rw [reportStage_of_plain awk label plain]
  exact deltaReport_append plain.1 (List.cons_ne_nil header []) (unfinished_header label.text)
    started finished before after

/-! ## Any other label -/

/-- A literal that ends at the quote of the script is the whole label. -/
theorem closed_of_readLabel {awk : Awk} {label text : Text}
    (compared : readLabel awk label = .comparedTo text) :
    Closed label ∧ text = decode awk.escape 0 label := by
  unfold readLabel at compared
  split at compared
  · cases compared
  · rename_i body rest found
    obtain ⟨split, closed⟩ := readLiteral_eq_some found
    split_ifs at compared with whole
    subst whole
    rw [← List.append_cancel_right split] at closed compared
    exact ⟨closed, (Reading.comparedTo.inj compared).symm⟩

/-- Rows with a column too many print either nothing or a line too many. -/
theorem printed_scan_of_long {compared : Text} {rows : List Text}
    (long : ∀ record ∈ rows, field (fields ',' record) 1 = compared →
      17 ≤ (fields ',' record).length) (nr : Nat) (state : ReportState) :
    (scan (reportRule compared) nr rows state).printed = state.printed ∨
      state.printed.length + 14 ≤ (scan (reportRule compared) nr rows state).printed.length := by
  induction rows generalizing nr state with
  | nil => exact .inl rfl
  | cons record rest ih =>
      have later := ih (fun other member => long other (List.mem_cons_of_mem record member))
        (nr + 1) (reportRule compared nr record state)
      have own : (reportRule compared nr record state).printed = state.printed ∨
          state.printed.length + 14 ≤ (reportRule compared nr record state).printed.length := by
        unfold reportRule
        split
        · exact .inl rfl
        · dsimp only
          split
          · rename_i selected
            refine .inr ?_
            have columns := long record List.mem_cons_self selected.1
            split <;> simp [deltaLines] <;> omega
          · split <;> exact .inl rfl
      rw [scan_cons]
      rcases own with same | more
      · rw [same] at later
        exact later
      · rcases later with same | further
        · rw [same]
          exact .inr more
        · exact .inr (by omega)

/-- A comma in the label adds a column. -/
theorem length_fields_row {label : Text} (comma : ',' ∈ label) {phase : Text}
    (phaseClean : ',' ∉ phase) (time : Nat) (snapshot : Snapshot) :
    17 ≤ (fields ',' (row label phase time snapshot)).length := by
  obtain ⟨front, back, rfl⟩ := List.append_of_mem comma
  let others := phase :: decimal time :: snapshot.values.map decimal
  have read : (joined ',' others).splitOn ',' = others :=
    List.splitOn_intercalate ',' (comma_not_mem_values phaseClean time snapshot)
      (List.cons_ne_nil _ _)
  have columns : others.length = 15 := by
    simp [others, snapshot.complete, counters]
  have frontLength := List.length_pos_iff.mpr (List.splitOn_ne_nil ',' front)
  have backLength := List.length_pos_iff.mpr (List.splitOn_ne_nil ',' back)
  rw [row, rowFields, joined_cons_cons, fields_of_ne_nil (by simp), List.append_assoc,
    List.cons_append, List.splitOn_append_cons_self, List.splitOn_append_cons_self,
    List.length_append, List.length_append, read, columns]
  omega

/-- The first field of a row whose label has no comma is the label. -/
theorem field_one_row {label : Text} (clean : ',' ∉ label) (phase : Text) (time : Nat)
    (snapshot : Snapshot) : field (fields ',' (row label phase time snapshot)) 1 = label := by
  rw [row, rowFields, joined_cons_cons, fields_of_ne_nil (by simp),
    List.splitOn_append_cons_self_of_not_mem clean]
  rfl

/-- If the rows that are compared equal all have a column too many, the report on
a fresh file has the wrong length. -/
theorem reportStage_ne_of_long {awk : Awk} {label compared : Text}
    (read : readLabel awk label = .comparedTo compared)
    (long : ∀ phase ∈ [beforePhase, afterPhase], ∀ time snapshot,
      field (fields ',' (row label phase time snapshot)) 1 = compared →
        17 ≤ (fields ',' (row label phase time snapshot)).length)
    (started finished : Nat) (before after : Snapshot) :
    reportStage awk label (freshFile label started finished before after) ≠
      deltas before after := by
  intro finds
  let first := row label beforePhase started before
  let second := row label afterPhase finished after
  let start : ReportState := ⟨fun _ => [], []⟩
  have rowsLong : ∀ record ∈ [first, second],
      field (fields ',' record) 1 = compared → 17 ≤ (fields ',' record).length := by
    intro record member
    rcases List.mem_pair.mp member with rfl | rfl
    · exact long beforePhase List.mem_cons_self started before
    · exact long afterPhase (by simp) finished after
  have report : min 20 (scan (reportRule compared) 2 [first, second] start).printed.length = 13 := by
    rw [← length_deltas before after, ← finds, reportStage, read]
    exact (length_tail 20 _).symm
  rcases printed_scan_of_long rowsLong 2 start with silent | many
  · rw [silent] at report
    cases report
  · have fourteen : 14 ≤ (scan (reportRule compared) 2 [first, second] start).printed.length :=
      Nat.le_of_add_left_le many
    omega

/-- A comma shifts the columns whatever the label is compared to. -/
theorem reportStage_ne_of_comma {awk : Awk} {label compared : Text} (comma : ',' ∈ label)
    (read : readLabel awk label = .comparedTo compared) (started finished : Nat)
    (before after : Snapshot) :
    reportStage awk label (freshFile label started finished before after) ≠
      deltas before after := by
  apply reportStage_ne_of_long read
  intro phase member time snapshot _
  apply length_fields_row comma
  rcases List.mem_pair.mp member with rfl | rfl <;> decide

/-- On a fresh file the report of a label that is not plain is wrong, unless the
label brings program text of its own. -/
theorem plain_or_foreign_of_reportStage {awk : Awk} {label : Text} {started finished : Nat}
    {before after : Snapshot}
    (finds : reportStage awk label (freshFile label started finished before after) =
      deltas before after) : Plain label ∨ readLabel awk label = .foreign := by
  cases read : readLabel awk label with
  | foreign => exact .inr rfl
  | rejected =>
      have report := congrArg List.length finds
      rw [length_deltas, reportStage, read] at report
      cases report
  | comparedTo compared =>
      obtain ⟨closed, rfl⟩ := closed_of_readLabel read
      have clean : ',' ∉ label := by
        intro comma
        exact reportStage_ne_of_comma comma read started finished before after finds
      have unescaped : '\\' ∉ label := by
        rw [← decode_eq_self_iff awk.escape closed]
        by_contra other
        refine reportStage_ne_of_long read ?_ started finished before after finds
        intro phase _ time snapshot same
        rw [field_one_row clean] at same
        exact absurd same.symm other
      exact .inl ⟨clean, closed.quote_not_mem unescaped, unescaped⟩

/-- The report finds the rows of a label that has no comma, quote or backslash.
Any other label is either not found, or ends the literal and so brings program
text of its own. -/
theorem findsRows_plain_or_foreign (awk : Awk) (label : GivenLabel) :
    (Plain label.text → FindsRows awk label) ∧
      (FindsRows awk label → Plain label.text ∨ readLabel awk label.text = .foreign) := by
  refine ⟨findsRows_of_plain awk label, ?_⟩
  intro finds
  exact plain_or_foreign_of_reportStage (finds 0 0 (uniformSnapshot 0) (uniformSnapshot 0))

/-- A label that is a list. -/
def listed : GivenLabel where
  text := "a,b".toList
  nonempty := by simp
  inFileName := by simp

/-- With a comma the rows are not found. -/
theorem listed_not_found : ¬ ∃ awk : Awk, FindsRows awk listed := by
  rintro ⟨awk, finds⟩
  have read : readLabel awk listed.text = .comparedTo (decode awk.escape 0 listed.text) := by
    have body : readLiteral (listed.text ++ '"' :: ruleRest) = some (listed.text, ruleRest) :=
      readLiteral_append (by simp [listed]) ruleRest
    rw [readLabel, body]
    simp only [if_true]
  exact reportStage_ne_of_comma (by simp [listed]) read 0 0 (uniformSnapshot 0) (uniformSnapshot 0)
    (finds 0 0 (uniformSnapshot 0) (uniformSnapshot 0))

/-- A single quote in the label leaves a literal open on the line. -/
example (awk : Awk) : readLabel awk "a\"b".toList = .rejected := by
  rfl

/-! ## A file of earlier runs -/

/-- A completed run is reported as on a fresh file, namely by its own deltas. -/
def ReportsOwnDeltas (awk : Awk) (label : Text) (history : List Run) (started finished : Nat)
    (before after : Snapshot) : Prop :=
  let run : Run := ⟨started, before, some (finished, after)⟩
  let fresh := reportStage awk label (appendRun label none run)
  reportStage awk label (appendRun label (some (historyFile label history)) run) = fresh ∧
    fresh = deltas before after

theorem reportsOwnDeltas_of_plain (awk : Awk) (label : GivenLabel) (plain : Plain label.text)
    {history : List Run} (unfinished : ∀ run ∈ history, run.finished = none)
    (started finished : Nat) (before after : Snapshot) :
    ReportsOwnDeltas awk label.text history started finished before after := by
  have own := (deltaReport_appendRun_iff plain.1 history started finished before after).mpr
    unfinished
  have fresh := findsRows_of_plain awk label plain started finished before after
  rw [← reportStage_of_plain awk label plain] at own
  exact ⟨own.trans fresh.symm, fresh⟩

/-- A completed run is reported by its own deltas if its label has no comma, quote
or backslash and no earlier run of the file was completed.  In any other case it
is not, unless the label ends the literal and so brings program text of its own.
The deltas show, for each counter in the order of the columns, its name and the
difference of its values. -/
theorem reportsOwnDeltas_plain_unfinished_or_foreign (awk : Awk) (label : GivenLabel)
    (history : List Run) (started finished : Nat) (before after : Snapshot) :
    (Plain label.text ∧ (∀ run ∈ history, run.finished = none) →
      ReportsOwnDeltas awk label.text history started finished before after) ∧
    (ReportsOwnDeltas awk label.text history started finished before after →
      (Plain label.text ∧ ∀ run ∈ history, run.finished = none) ∨
        readLabel awk label.text = .foreign) ∧
    (deltas before after).map nameAndNumber =
      List.zip counters (List.zipWith (fun later earlier : Nat => (later : ℚ) - earlier)
        after.values before.values) := by
  refine ⟨?_, ?_, nameAndNumber_deltas before after⟩
  · rintro ⟨plain, unfinished⟩
    exact reportsOwnDeltas_of_plain awk label plain unfinished started finished before after
  · rintro ⟨same, fresh⟩
    rcases plain_or_foreign_of_reportStage fresh with plain | foreign
    · refine .inl ⟨plain, ?_⟩
      rw [reportStage_of_plain awk label plain] at same
      exact (deltaReport_appendRun_iff plain.1 history started finished before after).mp
        (same.trans fresh)
    · exact .inr foreign

def ycsbc : GivenLabel where
  text := "ycsbc".toList
  nonempty := by simp
  inFileName := by simp

/-- After one completed run, the report of the next prints seven lines of the
earlier block before its own. -/
theorem reportStage_repeats_earlier_run :
    ¬ ∃ awk : Awk, ReportsOwnDeltas awk ycsbc.text
      [⟨0, uniformSnapshot 0, some (1, uniformSnapshot 5)⟩] 2 3 (uniformSnapshot 5)
      (uniformSnapshot 7) := by
  rintro ⟨awk, same, fresh⟩
  have plain : Plain ycsbc.text := by
    simp [Plain, ycsbc]
  have report := same.trans fresh
  rw [reportStage_of_plain awk ycsbc plain, deltaReport_appendRun_iff plain.1] at report
  have unfinished := report _ List.mem_cons_self
  cases unfinished

end LtramBench.Profile
