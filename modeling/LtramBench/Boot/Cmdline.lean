import LtramBench.Shell.Grep

/-!
# The boot parameters from `run-vm.sh` to `S51ltramrun`

The host interpolates the requested mode into the kernel command line.  The
guest searches that line for `interactive=1`, and cuts the workload's name out
of the word `ltram_workload=...`.  Both then name the log of the run after the
workload, through an unquoted variable each.
-/

namespace LtramBench.Boot

open LtramBench.Shell

/-! ## The host -/

/-- `INTERACTIVE` and `WORKLOAD` of `run-vm.sh`. -/
structure Host where
  interactive : Bool
  workload : Text
  deriving DecidableEq

def interactiveMode : Text :=
  "interactive".toList

/-- How `run-vm.sh` reads its argument. -/
def selectMode (mode : Text) : Host :=
  if mode = interactiveMode then ⟨true, []⟩ else ⟨false, mode⟩

/-- The argument of `-append`. -/
def appendLine (host : Host) : Text :=
  "root=/dev/vda rw console=ttyS0 nokaslr numa=on ltram_workload=".toList ++ host.workload ++
    " interactive=".toList ++ (if host.interactive then "1".toList else "0".toList)

/-! ## The guest -/

/-- `INTERACTIVE` and `SELECTED` of `S51ltramrun`. -/
structure Guest where
  interactive : Bool
  selected : Text
  deriving DecidableEq

def workloadKey : Text :=
  "ltram_workload=".toList

def interactiveSet : Text :=
  "interactive=1".toList

/-- `detect_interactive` and the extraction of `SELECTED`. -/
def readCmdline (cmdline : Text) : Guest where
  interactive := grepQ interactiveSet cmdline
  selected := substitution ((grepO (wordWidth workloadKey) 0 cmdline).map (cut '=' 2))

/-! ## The log -/

/-- `meminfo_<workload>.txt`. -/
def logFile (workload : Text) : Text :=
  "meminfo_".toList ++ workload ++ ".txt".toList

/-- The log that `start_run $SELECTED` writes, where `expand` is what the shell
makes of an unquoted variable. -/
def guestLog (expand : Text → List Text) (guest : Guest) : Text :=
  logFile ((expand guest.selected).headD [])

/-- The log that `meminfo_plot.py $WORKLOAD` reads. -/
def hostLog (expand : Text → List Text) (host : Host) : Text :=
  logFile ((expand host.workload).headD [])

/-- The guest learns the mode the host was given, and both use its log. -/
def RoundTrips (guestExpand hostExpand : Text → List Text) (mode : Text) : Prop :=
  let host := selectMode mode
  let guest := readCmdline (appendLine host)
  (guest.interactive = true ↔ mode = interactiveMode) ∧
    (mode ≠ interactiveMode →
      guest.selected = mode ∧ guestLog guestExpand guest = logFile mode ∧
        hostLog hostExpand host = logFile mode)

/-! ## Reading the line back -/

/-- The words of the command line. -/
def cmdlineWords (host : Host) : List Text :=
  ["root=/dev/vda".toList, "rw".toList, "console=ttyS0".toList, "nokaslr".toList,
    "numa=on".toList, workloadKey ++ host.workload,
    "interactive=".toList ++ (if host.interactive then "1".toList else "0".toList)]

/-- Text behind the last word of a line belongs to that word, up to a blank. -/
theorem joined_append_word (first second third fourth fifth key workload name flag : Text) :
    joined ' ' [first, second, third, fourth, fifth, key] ++ workload ++ ' ' :: name ++ flag =
      joined ' ' [first, second, third, fourth, fifth, key ++ workload, name ++ flag] := by
  simp only [joined_cons_cons, joined_singleton, List.append_assoc, List.cons_append]

theorem appendLine_eq_joined (host : Host) : appendLine host = joined ' ' (cmdlineWords host) := by
  have front : "root=/dev/vda rw console=ttyS0 nokaslr numa=on ltram_workload=".toList =
      joined ' ' ["root=/dev/vda".toList, "rw".toList, "console=ttyS0".toList, "nokaslr".toList,
        "numa=on".toList, workloadKey] := by
    decide
  have middle : " interactive=".toList = ' ' :: "interactive=".toList := by
    decide
  have spelled := congrArg₂ (fun front middle : Text => front ++ host.workload ++ middle ++
    (if host.interactive then "1".toList else "0".toList)) front middle
  exact spelled.trans (joined_append_word _ _ _ _ _ _ _ _ _)

theorem cmdlineWords_solid {host : Host} (solid : ' ' ∉ host.workload) :
    ∀ word ∈ cmdlineWords host, ' ' ∉ word := by
  have keySolid : ' ' ∉ workloadKey := by decide
  have interactiveSolid : ' ' ∉
      "interactive=".toList ++ (if host.interactive then "1".toList else "0".toList) := by
    cases host.interactive <;> decide
  simp only [cmdlineWords, List.mem_cons, List.not_mem_nil, or_false, forall_eq_or_imp, forall_eq]
  refine ⟨by decide, by decide, by decide, by decide, by decide, ?_, interactiveSolid⟩
  rw [List.mem_append]
  exact not_or_intro keySolid solid

/-- The guest reads the workload up to its first `=`. -/
theorem selected_appendLine {host : Host} (solid : ' ' ∉ host.workload)
    (single : '\n' ∉ host.workload) :
    (readCmdline (appendLine host)).selected = host.workload.takeWhile (· ≠ '=') := by
  have found : fromFirst workloadKey (workloadKey ++ host.workload) =
      some (workloadKey ++ host.workload) :=
    rfl
  have last : fromFirst workloadKey
      ("interactive=".toList ++ (if host.interactive then "1".toList else "0".toList)) = none := by
    cases host.interactive <;> decide
  have matched : grepO (wordWidth workloadKey) 0 (appendLine host) =
      [workloadKey ++ host.workload] := by
    rw [appendLine_eq_joined, grepO_joined (by decide) (by decide) (cmdlineWords_solid solid)]
    simp only [cmdlineWords, List.flatMap_cons, List.flatMap_nil, found, last]
    rfl
  have keyClean : '=' ∉ "ltram_workload".toList := by decide
  have cutEq : cut '=' 2 (workloadKey ++ host.workload) = host.workload.takeWhile (· ≠ '=') :=
    cut_two keyClean host.workload
  rw [readCmdline, matched, List.map_singleton, cutEq]
  exact substitution_singleton fun member => single (List.takeWhile_subset _ member)

theorem selected_eq_iff {host : Host} (solid : ' ' ∉ host.workload)
    (single : '\n' ∉ host.workload) :
    (readCmdline (appendLine host)).selected = host.workload ↔ '=' ∉ host.workload := by
  rw [selected_appendLine solid single, List.takeWhile_eq_self_iff]
  simp only [ne_eq, decide_not, Bool.not_eq_eq_eq_not, Bool.not_true, decide_eq_false_iff_not]
  exact ⟨fun all member => all '=' member rfl, fun clean char member same => clean (same ▸ member)⟩

theorem interactive_appendLine (host : Host) :
    (readCmdline (appendLine host)).interactive =
      (grepQ interactiveSet (workloadKey ++ host.workload) || host.interactive) := by
  have last : grepQ interactiveSet
      ("interactive=".toList ++ (if host.interactive then "1".toList else "0".toList)) =
        host.interactive := by
    cases host.interactive <;> decide
  have others : ∀ word ∈ ["root=/dev/vda".toList, "rw".toList, "console=ttyS0".toList,
      "nokaslr".toList, "numa=on".toList], grepQ interactiveSet word = false := by
    decide
  simp only [List.mem_cons, List.not_mem_nil, or_false, forall_eq_or_imp, forall_eq] at others
  obtain ⟨root, rw, console, nokaslr, numa⟩ := others
  rw [readCmdline, appendLine_eq_joined, grepQ_joined (by decide) (by decide)]
  simp only [cmdlineWords, List.any_cons, List.any_nil, root, rw, console, nokaslr, numa, last,
    Bool.false_or, Bool.or_false]

/-- A workload without `=` cannot be taken for `interactive=1`. -/
theorem grepQ_interactiveSet_workload {workload : Text} (clean : '=' ∉ workload) :
    grepQ interactiveSet (workloadKey ++ workload) = false := by
  rw [Bool.eq_false_iff, ne_eq, grepQ_iff (by decide)]
  rintro ⟨before, after, occurrence⟩
  have keyClean : '=' ∉ "ltram_workload".toList := by decide
  have same : (before ++ "interactive".toList) ++ '=' :: ('1' :: after) =
      "ltram_workload".toList ++ '=' :: workload := by
    have set : interactiveSet = "interactive".toList ++ '=' :: ['1'] := by decide
    have key : workloadKey = "ltram_workload".toList ++ ['='] := by decide
    rw [set, key] at occurrence
    simpa only [List.append_assoc, List.cons_append, List.nil_append] using occurrence
  have ending : "interactive".toList <:+ "ltram_workload".toList :=
    ⟨before, eq_of_single_separator keyClean clean same⟩
  exact absurd ending (by decide)

/-! ## The round trip -/

theorem logFile_injective : Function.Injective logFile := by
  intro first second same
  unfold logFile at same
  exact List.append_cancel_left (List.append_cancel_right same)

/-- For every mode without white space, the boot parameters survive exactly when
the mode has no `=` and neither shell expands it to something else. -/
theorem roundTrips_iff {mode : Text} (solid : ∀ char ∈ mode, char.isWhitespace = false)
    (guestExpand hostExpand : Text → List Text) :
    RoundTrips guestExpand hostExpand mode ↔
      '=' ∉ mode ∧ (mode ≠ interactiveMode →
        (guestExpand mode).headD [] = mode ∧ (hostExpand mode).headD [] = mode) := by
  have blank : ' ' ∉ mode := fun member => absurd (solid ' ' member) (by decide)
  have newline : '\n' ∉ mode := fun member => absurd (solid '\n' member) (by decide)
  unfold RoundTrips
  by_cases interactive : mode = interactiveMode
  · subst interactive
    have clean : '=' ∉ interactiveMode := by decide
    simp [selectMode, interactive_appendLine, clean]
  · have host : selectMode mode = ⟨false, mode⟩ := if_neg interactive
    have selectedIff := @selected_eq_iff ⟨false, mode⟩ blank newline
    simp only [host, interactive_appendLine, Bool.or_false, interactive, iff_false, ne_eq,
      not_false_eq_true, true_implies, selectedIff]
    constructor
    · rintro ⟨-, clean, guest, plotted⟩
      rw [guestLog, selectedIff.mpr clean] at guest
      exact ⟨clean, logFile_injective guest, logFile_injective plotted⟩
    · rintro ⟨clean, guest, plotted⟩
      refine ⟨by simp [grepQ_interactiveSet_workload clean], clean, ?_, ?_⟩
      · rw [guestLog, selectedIff.mpr clean, guest]
      · rw [hostLog, plotted]

/-- A shell in a directory where no name matches leaves a word as it is. -/
def expandNothing (word : Text) : List Text :=
  if word = [] then [] else [word]

theorem roundTrips_matmul : RoundTrips expandNothing expandNothing "matmul".toList :=
  (roundTrips_iff (by simp) expandNothing expandNothing).mpr
    ⟨by decide, fun _ => ⟨by decide, by decide⟩⟩

/-- The guest cuts the mode `a=b` down to `a`. -/
theorem not_roundTrips_equals : ¬ RoundTrips expandNothing expandNothing "a=b".toList := by
  intro trips
  have selected := (trips.2 (by decide)).1
  revert selected
  decide

end LtramBench.Boot
