import LtramBench.Shell.Arguments

/-!
# The workload runner `run_profile.sh`

A workload is a file `NAME.work` in `profiles/`, a snippet that sets `LABEL`,
`PREP` and `RUN`.  The runner sources one snippet after the other into the same
shell, so that their variables persist, and hands the result to the profiler.

Requested names arrive as they are.  Without a request the names come from an
unquoted `$(list_all)`, in which a name can be lost or changed.
-/

namespace LtramBench.Runner

open LtramBench.Shell

/-! ## Workload files -/

/-- The variables that a snippet may set. -/
structure Variables where
  label : Text
  prep : Text
  run : Text
  deriving DecidableEq

inductive Variable where
  | label
  | prep
  | run

/-- An assignment; its value may use what the variables hold. -/
structure Assignment where
  target : Variable
  value : Variables → Text

abbrev Snippet := List Assignment

def Variables.set (values : Variables) (target : Variable) (text : Text) : Variables :=
  match target with
  | .label => { values with label := text }
  | .prep => { values with prep := text }
  | .run => { values with run := text }

/-- `. "$f"`. -/
def source (snippet : Snippet) (values : Variables) : Variables :=
  snippet.foldl (fun values assignment =>
    values.set assignment.target (assignment.value values)) values

/-- What the runner finds: the file at `$PROFILES/NAME.work`, for any name, and the
names of the files in the directory itself, in the order of the shell. -/
structure Profiles where
  file : Text → Option Snippet
  names : List Text
  distinct : names.Nodup
  listed : ∀ name, name ∈ names ↔ '/' ∉ name ∧ (file name).isSome

/-! ## The script -/

/-- The pattern `*.work` passes over a file whose name starts with a dot. -/
def isHidden (name : Text) : Bool :=
  (name ++ ".work".toList).head? = some '.'

/-- What `list_all` prints. -/
def listAll (profiles : Profiles) : Text :=
  (profiles.names.filter fun name => !isHidden name).flatMap echo

/-- What the arguments are after the defaulting. -/
def requested (shell : Matching) (profiles : Profiles) (directory : Directory)
    (args : List Text) : List Text :=
  if args = [] ∨ args.head? = some "all".toList then arguments shell directory (listAll profiles)
  else args

/-- What was executed for a name: the command of `PREP`, unless that is empty, and
the profiler with a label and a command. -/
structure Execution where
  name : Text
  prep : Option Text
  label : Text
  run : Text
  deriving DecidableEq

/-- The commands for a name once its snippet is loaded. -/
def Variables.execution (values : Variables) (name : Text) : Execution where
  name := name
  prep := if values.prep ≠ [] then some values.prep else none
  label := values.label
  run := values.run

/-- The shell between two iterations of the loop. -/
structure State where
  values : Variables
  executed : List Execution
  messages : List Text

/-- The message for a name without a file. -/
def unknownWorkload (profiles : Profiles) (name : Text) : Text :=
  "!! unknown workload '".toList ++ name ++ "'. Available: ".toList ++
    substitutionText ((listAll profiles).map fun char => if char = '\n' then ' ' else char)

/-- `LABEL="$name"; PREP=""; RUN=""`. -/
def reset (name : Text) (values : Variables) : Variables :=
  ((values.set .label name).set .prep []).set .run []

/-- One iteration of the loop. -/
def profile (profiles : Profiles) (state : State) (name : Text) : State :=
  match profiles.file name with
  | none => { state with messages := state.messages ++ [unknownWorkload profiles name] }
  | some snippet =>
      let values := source snippet (reset name state.values)
      { state with
        values := values
        executed := state.executed ++ [values.execution name] }

/-- The message for an empty list of names. -/
def noWorkloads : Text :=
  "No workloads found in /mnt/workloads/profiles (expected <name>.work files).".toList

/-- The script, from what the variables hold at the start. -/
def runProfile (shell : Matching) (profiles : Profiles) (directory : Directory)
    (values : Variables) (args : List Text) : State :=
  let names := requested shell profiles directory args
  if names = [] then ⟨values, [], [noWorkloads]⟩
  else names.foldl (profile profiles) ⟨values, [], []⟩

/-! ## What is promised -/

/-- What a file alone defines for its name over the defaults. -/
def Profiles.execution (profiles : Profiles) (name : Text) : Option Execution :=
  (profiles.file name).map fun snippet => (source snippet ⟨name, [], []⟩).execution name

/-- In every working directory and environment, requested names are executed in
order, each as its own file defines it, and without a request every file of the
directory is executed exactly once. -/
structure Complete (shell : Matching) (profiles : Profiles) : Prop where
  requested : ∀ directory values first rest, first ≠ "all".toList →
    (runProfile shell profiles directory values (first :: rest)).executed =
      (first :: rest).filterMap profiles.execution
  all : ∀ directory values args, args = [] ∨ args.head? = some "all".toList →
    ((runProfile shell profiles directory values args).executed).Perm
      (profiles.names.filterMap profiles.execution)

/-- A name that survives being listed. -/
structure Listable (shell : Matching) (name : Text) : Prop where
  visible : isHidden name = false
  noOption : isEchoOption name = false
  solid : Solid name
  verbatim : Verbatim shell name

/-! ## The loop -/

theorem reset_eq (name : Text) (values : Variables) : reset name values = ⟨name, [], []⟩ :=
  rfl

theorem executed_profile (profiles : Profiles) (state : State) (name : Text) :
    (profile profiles state name).executed =
      state.executed ++ (profiles.execution name).toList := by
  unfold profile Profiles.execution
  cases profiles.file name with
  | none => simp
  | some snippet => simp [reset_eq]

/-- An iteration depends on the earlier ones only through what they executed. -/
theorem executed_foldl_profile (profiles : Profiles) (names : List Text) (state : State) :
    (names.foldl (profile profiles) state).executed =
      state.executed ++ names.filterMap profiles.execution := by
  induction names generalizing state with
  | nil => simp
  | cons name rest ih =>
      rw [List.foldl_cons, ih, executed_profile, List.append_assoc]
      cases found : profiles.execution name <;> simp [found]

theorem executed_runProfile (shell : Matching) (profiles : Profiles) (directory : Directory)
    (values : Variables) (args : List Text) :
    (runProfile shell profiles directory values args).executed =
      (requested shell profiles directory args).filterMap profiles.execution := by
  unfold runProfile
  dsimp only
  split
  · rename_i empty
    rw [empty]
    rfl
  · exact executed_foldl_profile profiles _ _

theorem name_of_execution {profiles : Profiles} {name : Text} {execution : Execution}
    (found : profiles.execution name = some execution) : execution.name = name := by
  obtain ⟨snippet, -, rfl⟩ := Option.map_eq_some_iff.mp found
  rfl

/-- A listed name has an execution of its own. -/
theorem exists_execution {profiles : Profiles} {name : Text} (member : name ∈ profiles.names) :
    ∃ execution, profiles.execution name = some execution := by
  obtain ⟨-, exists_file⟩ := (profiles.listed name).mp member
  obtain ⟨snippet, file⟩ := Option.isSome_iff_exists.mp exists_file
  exact ⟨_, by rw [Profiles.execution, file, Option.map_some]⟩

/-! ## The list of all workloads -/

section Listing

variable {shell : Matching} {profiles : Profiles}

theorem requested_all (directory : Directory) {args : List Text}
    (defaulted : args = [] ∨ args.head? = some "all".toList) :
    requested shell profiles directory args = arguments shell directory (listAll profiles) :=
  if_pos defaulted

/-- If every file is executed, every name is among the arguments. -/
theorem Complete.mem_arguments (complete : Complete shell profiles) (directory : Directory)
    {name : Text} (member : name ∈ profiles.names) :
    name ∈ arguments shell directory (listAll profiles) := by
  obtain ⟨execution, found⟩ := exists_execution member
  have every := complete.all directory ⟨[], [], []⟩ [] (.inl rfl)
  rw [executed_runProfile, requested_all directory (.inl rfl)] at every
  have executed := every.mem_iff.mpr (List.mem_filterMap.mpr ⟨name, member, found⟩)
  obtain ⟨argument, isArgument, argumentFound⟩ := List.mem_filterMap.mp executed
  rw [← name_of_execution found, name_of_execution argumentFound]
  exact isArgument

/-- Names that are words and match nothing else are listed unless they are hidden
or an option. -/
theorem arguments_listAll
    (plain : ∀ name ∈ profiles.names, Solid name ∧ Verbatim shell name) (directory : Directory) :
    arguments shell directory (listAll profiles) =
      (profiles.names.filter fun name => !isHidden name).filter fun name => !isEchoOption name := by
  apply arguments_flatMap_echo
  · intro name member
    exact (plain name (List.mem_of_mem_filter member)).1
  · intro name member
    exact (plain name (List.mem_of_mem_filter member)).2

-- a file that is only called `.work` is hidden as well
example : isHidden ".a".toList = true ∧ isHidden [] = true ∧ isHidden "a.b".toList = false := by
  decide

theorem arguments_listAll_of_listable (listable : ∀ name ∈ profiles.names, Listable shell name)
    (directory : Directory) : arguments shell directory (listAll profiles) = profiles.names := by
  rw [arguments_listAll fun name member => ⟨(listable name member).solid,
    (listable name member).verbatim⟩, List.filter_filter, List.filter_eq_self]
  intro name member
  rw [(listable name member).visible, (listable name member).noOption]
  rfl

/-- If every file is executed in every directory, the names are words that match
nothing else: in a directory with one other file that a name matches, the name is
replaced. -/
theorem Complete.plain (complete : Complete shell profiles) {name : Text}
    (member : name ∈ profiles.names) : Solid name ∧ Verbatim shell name := by
  refine ⟨solid_of_mem_arguments_empty (complete.mem_arguments .empty member), ?_⟩
  intro file named found
  by_contra other
  exact not_mem_arguments_of_matches named found other _ (complete.mem_arguments _ member)

end Listing

/-- The runner keeps its promise exactly when every name survives being listed: it
is one word, visible, no option of `echo`, and as a pattern it matches no other
name.  A name without `*`, `?` and a closed bracket is no pattern. -/
theorem complete_iff_listable (shell : Matching) (profiles : Profiles) :
    (Complete shell profiles ↔ ∀ name ∈ profiles.names, Listable shell name) ∧
      ∀ name, isPattern name = false → Verbatim shell name := by
  refine ⟨⟨?_, ?_⟩, fun name => verbatim_of_not_isPattern shell⟩
  · intro complete name member
    -- now that every name is a word, what was printed is what was listed
    have survived := complete.mem_arguments .empty member
    rw [arguments_listAll fun name member => complete.plain member, List.mem_filter,
      List.mem_filter] at survived
    exact {
      visible := by simpa using survived.1.2
      noOption := by simpa using survived.2
      solid := (complete.plain member).1
      verbatim := (complete.plain member).2 }
  · intro listable
    refine ⟨?_, ?_⟩
    · intro directory values first rest named
      rw [executed_runProfile, requested, if_neg]
      rintro (empty | head)
      · cases empty
      · exact named (Option.some.inj head)
    · intro directory values args defaulted
      rw [executed_runProfile, requested_all directory defaulted,
        arguments_listAll_of_listable listable directory]

/-- A directory with one file, whose name has a blank. -/
def spaced : Profiles where
  file name := if name = "a b".toList then some [] else none
  names := ["a b".toList]
  distinct := by simp
  listed name := by
    rw [List.mem_singleton]
    constructor
    · rintro rfl
      decide
    · rintro ⟨-, found⟩
      by_contra other
      rw [if_neg other] at found
      cases found

/-- The only workload is not run, whatever the shell takes for a pattern. -/
theorem spaced_incomplete : ¬ ∃ shell : Matching, Complete shell spaced := by
  rintro ⟨shell, complete⟩
  have argument := complete.mem_arguments .empty (List.mem_singleton.mpr rfl)
  have solid := solid_of_mem_arguments_empty argument
  exact absurd (solid.unbroken ' ' (by decide)) (by decide)

end LtramBench.Runner
