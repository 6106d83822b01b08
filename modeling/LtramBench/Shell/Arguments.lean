import LtramBench.Shell.Words
import Mathlib.Data.List.DropRight

/-!
# From the output of a command to arguments

The shell replaces an unquoted `$(command)` by what the command printed, without
its last line ends, cuts that into words, and replaces a word that is a pattern
by the names in the working directory that match it.  Printing a text with `echo`
and reading it back this way gives one argument only if the text survives each of
the three steps.
-/

namespace LtramBench.Shell

/-! ## `echo` -/

/-- An argument that `echo` takes for an option: a dash and letters of `neE`. -/
def isEchoOption : Text → Bool
  | '-' :: letter :: letters =>
      (letter :: letters).all fun char => char = 'n' || char = 'e' || char = 'E'
  | _ => false

/-- What `echo` prints for one argument.  Without any text left only the line end
is printed, and `-n` suppresses it. -/
def echo (text : Text) : Text :=
  if isEchoOption text then if 'n' ∈ text then [] else ['\n']
  else text ++ ['\n']

/-! ## Substitution -/

/-- `$(command)`, from what the command prints. -/
def substitutionText (output : Text) : Text :=
  output.rdropWhile (· = '\n')

/-- A word that can be a pattern: it has a `*`, a `?`, or a `[` that a `]` follows. -/
def isPattern (word : Text) : Bool :=
  '*' ∈ word || '?' ∈ word || ']' ∈ word.dropWhile (· ≠ '[')

/-- How the shell matches a word against the name of a file.  A word that is no
pattern matches nothing but itself. -/
structure Matching where
  matchesName : Text → Text → Bool
  literal : ∀ word file, isPattern word = false → matchesName word file = true → file = word

/-- A text that can be the name of a file. -/
def IsFileName (text : Text) : Prop :=
  text ≠ [] ∧ '/' ∉ text

/-- A working directory, in the order of the shell. -/
structure Directory where
  files : List Text
  distinct : files.Nodup
  named : ∀ file ∈ files, IsFileName file

/-- A directory without files. -/
def Directory.empty : Directory :=
  ⟨[], List.nodup_nil, by simp⟩

/-- Pathname expansion: the names that match a word, or the word itself if there
are none. -/
def expand (shell : Matching) (directory : Directory) (word : Text) : List Text :=
  let found := directory.files.filter (shell.matchesName word)
  if found = [] then [word] else found

/-- The arguments from an unquoted `$(command)`. -/
def arguments (shell : Matching) (directory : Directory) (output : Text) : List Text :=
  (words (substitutionText output)).flatMap (expand shell directory)

/-- A word that matches no file but one of its own name. -/
def Verbatim (shell : Matching) (word : Text) : Prop :=
  ∀ file, IsFileName file → shell.matchesName word file = true → file = word

theorem verbatim_of_not_isPattern (shell : Matching) {word : Text}
    (plain : isPattern word = false) : Verbatim shell word :=
  fun file _ found => shell.literal word file plain found

-- a bracket that is not closed is no pattern
example : isPattern "a[b".toList = false ∧ isPattern "a[b]".toList = true := by
  decide

/-- In every directory, a word that matches at most itself stays as it is. -/
theorem expand_of_verbatim {shell : Matching} {word : Text} (verbatim : Verbatim shell word)
    (directory : Directory) : expand shell directory word = [word] := by
  have distinct : (directory.files.filter (shell.matchesName word)).Nodup :=
    directory.distinct.filter _
  have same : ∀ file ∈ directory.files.filter (shell.matchesName word), file = word := by
    intro file member
    obtain ⟨inside, holds⟩ := List.mem_filter.mp member
    exact verbatim file (directory.named file inside) holds
  unfold expand
  generalize directory.files.filter (shell.matchesName word) = found at distinct same
  match found with
  | [] => rfl
  | [file] =>
      rw [same file List.mem_cons_self]
      rfl
  | first :: second :: rest =>
      have one := same first List.mem_cons_self
      have two := same second (by simp)
      rw [one, two] at distinct
      simp at distinct

/-! ## Printing names and reading them back -/

/-- Line ends at the end do not matter to the words. -/
theorem words_substitutionText (output : Text) : words (substitutionText output) = words output := by
  unfold substitutionText
  induction output using List.reverseRecOn with
  | nil => rfl
  | append_singleton front last ih =>
      rw [List.rdropWhile_concat]
      split
      · rename_i newline
        have blank : isBlank last = true := by
          rw [of_decide_eq_true newline]
          rfl
        rw [ih, words_append_cons blank, words_nil, List.append_nil]
      · rfl

theorem words_echo_append (text rest : Text) :
    words (echo text ++ rest) = words (echo text) ++ words rest := by
  unfold echo
  split
  · split
    · rfl
    · rw [List.singleton_append, words_cons rfl, words_cons rfl]
      rfl
  · rw [List.append_assoc, List.singleton_append, words_append_cons rfl, words_append_cons rfl,
      words_nil, List.append_nil]

theorem words_echo {text : Text} (solid : Solid text) :
    words (echo text) = if isEchoOption text then [] else [text] := by
  unfold echo
  split
  · split
    · exact words_nil
    · exact words_cons rfl []
  · rw [solid.words_append rfl, words_nil]

-- a dash alone is no option, and one other letter makes a text of it
example : isEchoOption "-ne".toList = true ∧ isEchoOption "-".toList = false ∧
    isEchoOption "-nx".toList = false := by
  decide

/-- The words of a list of names that are words: those that are no options. -/
theorem words_flatMap_echo {names : List Text} (solid : ∀ name ∈ names, Solid name) :
    words (names.flatMap echo) = names.filter fun name => !isEchoOption name := by
  induction names with
  | nil => rfl
  | cons name rest ih =>
      have restSolid : ∀ other ∈ rest, Solid other :=
        fun other member => solid other (List.mem_cons_of_mem name member)
      rw [List.flatMap_cons, words_echo_append, words_echo (solid name List.mem_cons_self),
        ih restSolid]
      cases option : isEchoOption name <;> simp [option]

theorem flatMap_expand {shell : Matching} {texts : List Text}
    (verbatim : ∀ word ∈ texts, Verbatim shell word) (directory : Directory) :
    texts.flatMap (expand shell directory) = texts := by
  induction texts with
  | nil => rfl
  | cons word rest ih =>
      rw [List.flatMap_cons, expand_of_verbatim (verbatim word List.mem_cons_self),
        ih fun other member => verbatim other (List.mem_cons_of_mem word member)]
      rfl

/-- Names that are words and match nothing else arrive, except for the options. -/
theorem arguments_flatMap_echo {shell : Matching} {names : List Text}
    (solid : ∀ name ∈ names, Solid name) (verbatim : ∀ name ∈ names, Verbatim shell name)
    (directory : Directory) :
    arguments shell directory (names.flatMap echo) =
      names.filter fun name => !isEchoOption name := by
  rw [arguments, words_substitutionText, words_flatMap_echo solid]
  apply flatMap_expand
  intro name member
  exact verbatim name (List.mem_of_mem_filter member)

/-! ## What cannot arrive -/

/-- In a directory without files, whatever arrives is a word. -/
theorem solid_of_mem_arguments_empty {shell : Matching} {output argument : Text}
    (member : argument ∈ arguments shell .empty output) : Solid argument := by
  obtain ⟨word, inside, found⟩ := List.mem_flatMap.mp member
  rw [List.mem_singleton.mp found]
  exact solid_of_mem_words inside

/-- A word does not arrive if the only file has another name that it matches. -/
theorem not_mem_arguments_of_matches {shell : Matching} {word file : Text}
    (named : IsFileName file) (found : shell.matchesName word file = true) (other : file ≠ word)
    (output : Text) :
    word ∉ arguments shell ⟨[file], by simp, by simpa using named⟩ output := by
  intro member
  obtain ⟨source, -, expanded⟩ := List.mem_flatMap.mp member
  by_cases matched : shell.matchesName source file = true
  · simp [expand, matched, other.symm] at expanded
  · simp only [expand, List.filter_singleton, matched] at expanded
    have same : word = source := by
      simpa using expanded
    rw [same] at found
    exact matched found

end LtramBench.Shell
