import LtramBench.Ycsb.Database
import Mathlib.Data.List.DropRight

/-!
# The command line and the property files

`ParseCommandLine` of `ycsbc.cc`, `properties.h` and `Trim` of `utils.h`.  The
properties of the benchmark come from options with a value each and from files of
lines; a later one replaces an earlier one.

A file is what it contains, or nothing if it cannot be opened.
-/

namespace LtramBench.Ycsb

open LtramBench.Shell

/-! ## Property files -/

def isspace (c : Char) : Bool :=
  c = ' ' || c = '\t' || c = '\n' || c = '\x0b' || c = '\x0c' || c = '\x0d'

def trim (str : Text) : Text :=
  (str.dropWhile isspace).rdropWhile isspace

def setProperty (props : Record) (key value : Text) : Record :=
  Function.update props key (some value)

/-- What a line sets: a line that begins with `#` or has no equals sign is skipped. -/
def propertyOf (line : Text) : Option KVPair :=
  if line.head? = some '#' then none
  else if '=' ∈ line then
    some (trim (line.takeWhile (· != '=')), trim ((line.dropWhile (· != '=')).drop 1))
  else none

def load (props : Record) (input : Text) : Record :=
  (input.splitOn '\n').foldl (fun props line =>
    match propertyOf line with
    | none => props
    | some (key, value) => setProperty props key value) props

/-! ## The command line -/

/-- How the command line ends: with the name of the last file and the properties,
with a message and `exit`, or with an exception that is not caught. -/
inductive Parsed where
  | returned (filename : Text) (props : Record)
  | exited (output : Text)
  | aborted

def usageMessage (command : Text) : Text :=
  "Usage: ".toList ++ command ++ " [options]\n".toList ++ "Options:\n".toList ++
    "  -threads n: execute using n threads (default: 1)\n".toList ++
    "  -db dbname: specify the name of the DB to use (default: basic)\n".toList ++
    "  -P propertyfile: load properties from the given file. Multiple files can\n".toList ++
    "                   be specified, and will be processed in the order specified\n".toList

def unknownOption (arg : Text) : Text :=
  "Unknown option '".toList ++ arg ++ "'\n".toList

/-- The options that set one property, in the order of the comparisons. -/
def propertyOptions : List KVPair :=
  [("-threads".toList, "threadcount".toList), ("-db".toList, "dbname".toList),
    ("-host".toList, "host".toList), ("-port".toList, "port".toList),
    ("-slaves".toList, "slaves".toList)]

/-- The loop over the options, from the arguments that are left. -/
def parseOptions (files : Text → Option Text) (command filename : Text) (props : Record) :
    List Text → Parsed
  | [] => .returned filename props
  | arg :: rest =>
      if "-".toList.isPrefixOf arg then
        match propertyOptions.lookup arg with
        | some property =>
            match rest with
            | [] => .exited (usageMessage command)
            | value :: rest =>
                parseOptions files command filename (setProperty props property value) rest
        | none =>
            if arg = "-P".toList then
              match rest with
              | [] => .exited (usageMessage command)
              | name :: rest =>
                  match files name with
                  -- `Load` throws an `Exception`, and what is caught is a string
                  | none => .aborted
                  | some input => parseOptions files command name (load props input) rest
            else .exited (unknownOption arg)
      else .exited (usageMessage command)

/-- `ParseCommandLine`, from the arguments after the command. -/
def parseCommandLine (files : Text → Option Text) (command : Text) (args : List Text) : Parsed :=
  if args = [] then .exited (usageMessage command)
  else parseOptions files command [] Record.empty args

/-! ## What a line says -/

/-- No blanks at the ends. -/
structure Trimmed (text : Text) : Prop where
  front : ∀ c ∈ text.head?, isspace c = false
  back : ∀ c ∈ text.getLast?, isspace c = false

/-- A text with blanks around it. -/
structure Padded (text padded : Text) : Prop where
  trimmed : Trimmed text
  spelled : ∃ front back : Text, (∀ c ∈ front, isspace c = true) ∧
    (∀ c ∈ back, isspace c = true) ∧ padded = front ++ text ++ back

/-- A line that sets a property. -/
structure Sets (line : Text) (p : KVPair) : Prop where
  noComment : line.head? ≠ some '#'
  spelled : ∃ left right : Text, line = left ++ '=' :: right ∧ '=' ∉ left ∧
    Padded p.1 left ∧ Padded p.2 right

theorem dropWhile_of_head? {text : Text} (front : ∀ c ∈ text.head?, isspace c = false) :
    text.dropWhile isspace = text := by
  cases text with
  | nil => rfl
  | cons c rest => exact List.dropWhile_cons_of_neg (by simp [front c rfl])

theorem rdropWhile_append {text back : Text} (last : ∀ c ∈ text.getLast?, isspace c = false)
    (blank : ∀ c ∈ back, isspace c = true) : (text ++ back).rdropWhile isspace = text := by
  have reversed : ∀ c ∈ text.reverse.head?, isspace c = false := by
    rw [List.head?_reverse]
    exact last
  rw [List.rdropWhile, List.reverse_append,
    List.dropWhile_append_of_pos fun c member => blank c (List.mem_reverse.mp member),
    dropWhile_of_head? reversed, List.reverse_reverse]

theorem trimmed_trim (str : Text) : Trimmed (trim str) where
  front := by
    intro c first
    have isPrefix : trim str <+: str.dropWhile isspace := List.rdropWhile_prefix isspace _
    obtain ⟨rest, whole⟩ := isPrefix
    have found : (str.dropWhile isspace).head? = some c := by
      rw [← whole, List.head?_append, first]
      rfl
    have stopped := List.head?_dropWhile_not isspace str
    rw [found] at stopped
    exact stopped
  back := by
    intro c last
    have nonempty : trim str ≠ [] := by
      rintro empty
      rw [empty] at last
      cases last
    have isLast : (trim str).getLast nonempty = c :=
      Option.some.inj ((List.getLast?_eq_some_getLast nonempty).symm.trans last)
    have stopped := List.rdropWhile_last_not isspace (str.dropWhile isspace) nonempty
    rw [← isLast]
    exact Bool.eq_false_iff.mpr stopped

/-- A text comes out of `Trim` exactly when it was padded. -/
theorem trim_eq_iff {str text : Text} : trim str = text ↔ Padded text str := by
  constructor
  · rintro rfl
    refine ⟨trimmed_trim str, str.takeWhile isspace, (str.dropWhile isspace).rtakeWhile isspace,
      fun c member => List.mem_takeWhile_imp member,
      fun c member => List.mem_rtakeWhile_imp member, ?_⟩
    rw [List.append_assoc, trim, List.rdropWhile_append_rtakeWhile, List.takeWhile_append_dropWhile]
  · rintro ⟨trimmed, front, back, before, after, rfl⟩
    rw [trim, List.append_assoc, List.dropWhile_append_of_pos before]
    cases text with
    | nil =>
        have none : back.dropWhile isspace = [] := List.dropWhile_eq_nil_iff.mpr after
        rw [List.nil_append, none]
        rfl
    | cons c rest =>
        have front : ∀ d ∈ (c :: rest ++ back).head?, isspace d = false := trimmed.front
        rw [dropWhile_of_head? front]
        exact rdropWhile_append trimmed.back after

theorem bne_of_mem_before {left : Text} (clean : '=' ∉ left) :
    ∀ c ∈ left, (c != '=') = true := fun _ member =>
  bne_iff_ne.mpr fun same => clean (same ▸ member)

theorem takeWhile_before {left right : Text} (clean : '=' ∉ left) :
    (left ++ '=' :: right).takeWhile (· != '=') = left := by
  rw [List.takeWhile_append_of_pos (bne_of_mem_before clean),
    List.takeWhile_cons_of_neg (by decide), List.append_nil]

theorem dropWhile_before {left right : Text} (clean : '=' ∉ left) :
    (left ++ '=' :: right).dropWhile (· != '=') = '=' :: right := by
  rw [List.dropWhile_append_of_pos (bne_of_mem_before clean),
    List.dropWhile_cons_of_neg (by decide)]

/-- A line is taken as an assignment exactly when it is one. -/
theorem propertyOf_eq_some_iff {line : Text} {p : KVPair} :
    propertyOf line = some p ↔ Sets line p := by
  constructor
  · intro found
    unfold propertyOf at found
    split at found
    · cases found
    · next noComment =>
      split at found
      · next member =>
        obtain ⟨left, right, rfl, clean⟩ := List.eq_append_cons_of_mem member
        rw [takeWhile_before clean, dropWhile_before clean] at found
        obtain rfl := Option.some.inj found
        exact ⟨noComment, left, right, rfl, clean, trim_eq_iff.mp rfl, trim_eq_iff.mp rfl⟩
      · cases found
  · rintro ⟨noComment, left, right, rfl, clean, key, value⟩
    have member : '=' ∈ left ++ '=' :: right := by simp
    rw [propertyOf, if_neg noComment, if_pos member, takeWhile_before clean,
      dropWhile_before clean, trim_eq_iff.mpr key]
    exact congrArg some (Prod.ext rfl (trim_eq_iff.mpr value))

/-! ## What a file says -/

/-- The assignments of some lines, in their order. -/
inductive LinesSet : List Text → List KVPair → Prop where
  | nil : LinesSet [] []
  | skips {line : Text} {lines : List Text} {sets : List KVPair} (skipped : ∀ p, ¬ Sets line p)
      (rest : LinesSet lines sets) : LinesSet (line :: lines) sets
  | sets {line : Text} {lines : List Text} {p : KVPair} {sets : List KVPair} (own : Sets line p)
      (rest : LinesSet lines sets) : LinesSet (line :: lines) (p :: sets)

/-- The assignments of a file, whose lines are what is between line ends. -/
structure FileSets (input : Text) (sets : List KVPair) : Prop where
  lines : ∃ lines : List Text, input = joined '\n' lines ∧ lines ≠ [] ∧
    (∀ line ∈ lines, '\n' ∉ line) ∧ LinesSet lines sets

theorem linesSet_iff {lines : List Text} {sets : List KVPair} :
    LinesSet lines sets ↔ sets = lines.filterMap propertyOf := by
  constructor
  · intro read
    induction read with
    | nil => rfl
    | @skips line lines sets skipped _ ih =>
        have none : propertyOf line = none := by
          cases found : propertyOf line with
          | none => rfl
          | some p => exact absurd (propertyOf_eq_some_iff.mp found) (skipped p)
        rw [List.filterMap_cons_none none, ih]
    | sets own _ ih => rw [List.filterMap_cons_some (propertyOf_eq_some_iff.mpr own), ih]
  · rintro rfl
    induction lines with
    | nil => exact .nil
    | cons line lines ih =>
        cases found : propertyOf line with
        | none =>
            rw [List.filterMap_cons_none found]
            refine .skips (fun p own => ?_) ih
            rw [propertyOf_eq_some_iff.mpr own] at found
            cases found
        | some p =>
            rw [List.filterMap_cons_some found]
            exact .sets (propertyOf_eq_some_iff.mp found) ih

theorem fileSets_iff {input : Text} {sets : List KVPair} :
    FileSets input sets ↔ sets = (input.splitOn '\n').filterMap propertyOf := by
  constructor
  · rintro ⟨lines, rfl, nonempty, clean, read⟩
    rw [joined, List.splitOn_intercalate '\n' clean nonempty]
    exact linesSet_iff.mp read
  · intro read
    exact ⟨input.splitOn '\n', (List.intercalate_splitOn '\n').symm, List.splitOn_ne_nil _ _,
      fun line member => not_mem_of_mem_splitOn member, linesSet_iff.mpr read⟩

/-- Loading a file writes what the file sets. -/
theorem load_of_fileSets {props : Record} {input : Text} {sets : List KVPair}
    (reads : FileSets input sets) : load props input = props.write sets := by
  obtain rfl := fileSets_iff.mp reads
  rw [load]
  induction input.splitOn '\n' generalizing props with
  | nil => rfl
  | cons line lines ih =>
      rw [List.foldl_cons, ih]
      cases found : propertyOf line with
      | none => rw [List.filterMap_cons_none found]
      | some p =>
          rw [List.filterMap_cons_some found]
          rfl

/-! ## What a command line says -/

section CommandLine

variable {files : Text → Option Text}

/-- The last file of some options, after an earlier one, and their assignments. -/
inductive OptionsSet (files : Text → Option Text) :
    Text → List Text → Text → List KVPair → Prop where
  | nil {filename : Text} : OptionsSet files filename [] filename []
  | property {filename last value : Text} {args : List Text} {p : KVPair} {sets : List KVPair}
      (known : p ∈ propertyOptions) (rest : OptionsSet files filename args last sets) :
      OptionsSet files filename (p.1 :: value :: args) last ((p.2, value) :: sets)
  | file {filename name input last : Text} {args : List Text} {own sets : List KVPair}
      (opens : files name = some input) (reads : FileSets input own)
      (rest : OptionsSet files name args last sets) :
      OptionsSet files filename ("-P".toList :: name :: args) last (own ++ sets)

/-- Where the loop ends, with the properties it has until then. -/
inductive Ends (files : Text → Option Text) (command last : Text) (props : Record) :
    List Text → Parsed → Prop where
  | whole : Ends files command last props [] (.returned last props)
  | noValue {arg : Text} (option : arg ∈ "-P".toList :: propertyOptions.map Prod.fst) :
      Ends files command last props [arg] (.exited (usageMessage command))
  | notOpen {name : Text} {args : List Text} (missing : files name = none) :
      Ends files command last props ("-P".toList :: name :: args) .aborted
  | unknown {arg : Text} {args : List Text} (dash : "-".toList <+: arg)
      (other : arg ∉ "-P".toList :: propertyOptions.map Prod.fst) :
      Ends files command last props (arg :: args) (.exited (unknownOption arg))
  | noOption {arg : Text} {args : List Text} (plain : ¬ "-".toList <+: arg) :
      Ends files command last props (arg :: args) (.exited (usageMessage command))

theorem lookup_propertyOptions_iff {arg property : Text} :
    propertyOptions.lookup arg = some property ↔ (arg, property) ∈ propertyOptions := by
  constructor
  · intro found
    obtain ⟨before, after, whole, -⟩ := List.lookup_eq_some_iff.mp found
    rw [whole]
    exact List.mem_append_right before List.mem_cons_self
  · intro member
    have each : ∀ p ∈ propertyOptions, propertyOptions.lookup p.1 = some p.2 := by decide
    exact each _ member

theorem lookup_propertyOptions_eq_none_iff {arg : Text} :
    propertyOptions.lookup arg = none ↔ arg ∉ propertyOptions.map Prod.fst := by
  rw [List.lookup_eq_none_iff]
  constructor
  · intro other member
    obtain ⟨p, known, rfl⟩ := List.mem_map.mp member
    exact absurd (other p known) (by simp)
  · intro absent p known
    exact bne_iff_ne.mpr fun same => absent (List.mem_map.mpr ⟨p, known, same.symm⟩)

theorem dash_of_mem {arg : Text} (known : arg ∈ "-P".toList :: propertyOptions.map Prod.fst) :
    "-".toList.isPrefixOf arg = true := by
  have each : ∀ arg ∈ "-P".toList :: propertyOptions.map Prod.fst,
      "-".toList.isPrefixOf arg = true := by decide
  exact each arg known

variable {command filename : Text} {props : Record}

theorem parseOptions_property {p : KVPair} (known : p ∈ propertyOptions) (value : Text)
    (args : List Text) :
    parseOptions files command filename props (p.1 :: value :: args) =
      parseOptions files command filename (setProperty props p.2 value) args := by
  have dash := dash_of_mem (List.mem_cons_of_mem _ (List.mem_map_of_mem known))
  rw [parseOptions, if_pos dash, lookup_propertyOptions_iff.mpr known]

theorem parseOptions_file (name : Text) (args : List Text) :
    parseOptions files command filename props ("-P".toList :: name :: args) =
      match files name with
      | none => .aborted
      | some input => parseOptions files command name (load props input) args := by
  have other : propertyOptions.lookup "-P".toList = none := by decide
  rw [parseOptions, if_pos (by decide), other]
  rfl

/-- Options in front are read first. -/
theorem parseOptions_append {before : List Text} {last : Text} {sets : List KVPair}
    (reads : OptionsSet files filename before last sets) (args : List Text) :
    parseOptions files command filename props (before ++ args) =
      parseOptions files command last (props.write sets) args := by
  induction reads generalizing props with
  | nil => rfl
  | @property filename last value before p sets known _ ih =>
      rw [List.cons_append, List.cons_append, parseOptions_property known, ih]
      rfl
  | @file filename name input last before own sets opens own_reads _ ih =>
      rw [List.cons_append, List.cons_append, parseOptions_file, opens, Record.write_append,
        ← load_of_fileSets own_reads]
      exact ih

theorem parseOptions_of_ends {args : List Text} {outcome : Parsed}
    (ends : Ends files command filename props args outcome) :
    parseOptions files command filename props args = outcome := by
  cases ends with
  | whole => rfl
  | @noValue arg option =>
      rw [parseOptions, if_pos (dash_of_mem option)]
      rcases List.mem_cons.mp option with rfl | known
      · rfl
      · obtain ⟨p, isOption, rfl⟩ := List.mem_map.mp known
        rw [lookup_propertyOptions_iff.mpr isOption]
  | notOpen missing => rw [parseOptions_file, missing]
  | unknown dash other =>
      rw [List.mem_cons, not_or] at other
      rw [parseOptions.eq_def]
      dsimp only
      rw [if_pos (List.isPrefixOf_iff_prefix.mpr dash),
        lookup_propertyOptions_eq_none_iff.mpr other.2]
      exact if_neg other.1
  | noOption plain =>
      rw [parseOptions.eq_def]
      exact if_neg fun dash => plain (List.isPrefixOf_iff_prefix.mp dash)

/-- Every command line is some options and a rest where the loop ends. -/
theorem exists_ends (args : List Text) :
    ∃ before rest last sets, args = before ++ rest ∧
      OptionsSet files filename before last sets ∧
      Ends files command last (props.write sets) rest
        (parseOptions files command filename props args) := by
  fun_induction parseOptions files command filename props args with
  | case1 => exact ⟨[], [], _, [], rfl, .nil, .whole⟩
  | case2 filename props arg dash property found =>
      have known := lookup_propertyOptions_iff.mp found
      exact ⟨[], [arg], _, [], rfl, .nil,
        .noValue (List.mem_cons_of_mem _ (List.mem_map_of_mem known))⟩
  | case3 filename props arg dash property found value args ih =>
      obtain ⟨before, rest, last, sets, rfl, reads, ends⟩ := ih
      have known := lookup_propertyOptions_iff.mp found
      exact ⟨arg :: value :: before, rest, last, _, rfl, .property known reads, ends⟩
  | case4 filename props => exact ⟨[], _, _, [], rfl, .nil, .noValue List.mem_cons_self⟩
  | case5 filename props name args missing => exact ⟨[], _, _, [], rfl, .nil, .notOpen missing⟩
  | case6 filename props name args input opens dash found ih =>
      obtain ⟨before, rest, last, sets, rfl, reads, ends⟩ := ih
      have own : FileSets input _ := fileSets_iff.mpr rfl
      rw [load_of_fileSets own, ← Record.write_append, ← load_of_fileSets own] at ends
      exact ⟨_ :: name :: before, rest, last, _, rfl, .file opens own reads, ends⟩
  | case7 filename props arg args dash found other =>
      have absent := lookup_propertyOptions_eq_none_iff.mp found
      exact ⟨[], arg :: args, _, [], rfl, .nil, .unknown (List.isPrefixOf_iff_prefix.mp dash)
        (List.not_mem_cons_of_ne_of_not_mem other absent)⟩
  | case8 filename props arg args plain =>
      exact ⟨[], arg :: args, _, [], rfl, .nil,
        .noOption fun dash => plain (List.isPrefixOf_iff_prefix.mpr dash)⟩

end CommandLine

theorem parseCommandLine_of_optionsSet {files : Text → Option Text} {args : List Text}
    (nonempty : args ≠ []) {last : Text} {sets : List KVPair}
    (reads : OptionsSet files [] args last sets) (command : Text) :
    parseCommandLine files command args = .returned last (Record.empty.write sets) := by
  have whole := @parseOptions_append files command [] Record.empty args last sets reads []
  rw [List.append_nil] at whole
  rw [parseCommandLine, if_neg nonempty, whole]
  rfl

/-- The command line is read as options with their values, one after the other, and
the result is the one of the first argument that is not part of an option. -/
theorem parseCommandLine_eq_iff (files : Text → Option Text) (command : Text)
    (args : List Text) (outcome : Parsed) :
    parseCommandLine files command args = outcome ↔
      (args = [] ∧ outcome = .exited (usageMessage command)) ∨
      (args ≠ [] ∧ ∃ before rest last sets, args = before ++ rest ∧
        OptionsSet files [] before last sets ∧
        Ends files command last (Record.empty.write sets) rest outcome) := by
  by_cases empty : args = []
  · rw [parseCommandLine, if_pos empty]
    constructor
    · exact fun same => .inl ⟨empty, same.symm⟩
    · rintro (⟨-, same⟩ | ⟨nonempty, -⟩)
      · exact same.symm
      · exact absurd empty nonempty
  · rw [parseCommandLine, if_neg empty]
    constructor
    · rintro rfl
      exact .inr ⟨empty, exists_ends args⟩
    · rintro (⟨nonempty, -⟩ | ⟨-, before, rest, last, sets, rfl, reads, ends⟩)
      · exact absurd nonempty empty
      · rw [parseOptions_append reads]
        exact parseOptions_of_ends ends

end LtramBench.Ycsb
