import LtramBench.Shell.Fields
import Mathlib.Data.List.DropRight

/-!
# Searching a line of words

`grep` for a literal, `grep -o` for a literal followed by the rest of its word,
`cut`, and the command substitution that collects their output.  When the
literal has no blank, an occurrence in a line of blank-separated words lies
inside one word, so both searches can be done word by word.
-/

namespace LtramBench.Shell

/-! ## The commands -/

/-- The line from the first occurrence of the literal on. -/
def fromFirst (literal : Text) : Text → Option Text
  | [] => none
  | char :: rest =>
      if literal.isPrefixOf (char :: rest) then some (char :: rest) else fromFirst literal rest

/-- `grep -q literal`, for a nonempty literal. -/
def grepQ (literal line : Text) : Bool :=
  (fromFirst literal line).isSome

/-- `grep -o`, where `width` is the length of the longest match at the front of a
text: the leftmost matches, none of them overlapping or empty.  The first
argument counts the characters that the last match still covers. -/
def grepO (width : Text → Option Nat) : Nat → Text → List Text
  | _, [] => []
  | skip + 1, _ :: rest => grepO width skip rest
  | 0, char :: rest =>
      match width (char :: rest) with
      | some (more + 1) => (char :: rest).take (more + 1) :: grepO width more rest
      | _ => grepO width 0 rest

/-- The longest match of `literal[^ ]*` at the front of a text. -/
def wordWidth (literal text : Text) : Option Nat :=
  if literal.isPrefixOf text then
    some (literal.length + ((text.drop literal.length).takeWhile (· ≠ ' ')).length)
  else none

/-- `cut -d separator -f index`, for one line. -/
def cut (separator : Char) (index : Nat) (line : Text) : Text :=
  if separator ∈ line then field (line.splitOn separator) index else line

/-- `$(...)`: the output without its trailing newlines. -/
def substitution (lines : List Text) : Text :=
  (joined '\n' lines).rdropWhile (· = '\n')

theorem substitution_singleton {line : Text} (single : '\n' ∉ line) :
    substitution [line] = line := by
  have joinedEq : joined '\n' [line] = line := by
    simp [joined]
  rw [substitution, joinedEq, List.rdropWhile_eq_self_iff]
  intro nonempty newline
  have last : line.getLast nonempty = '\n' := by
    simpa using newline
  exact single (last ▸ List.getLast_mem nonempty)

/-- The second field after a key without the separator. -/
theorem cut_two {separator : Char} {key : Text} (clean : separator ∉ key) (rest : Text) :
    cut separator 2 (key ++ separator :: rest) = rest.takeWhile (· ≠ separator) := by
  rw [cut, if_pos (by simp), List.splitOn_append_cons_self_of_not_mem clean, field]
  by_cases inside : separator ∈ rest
  · obtain ⟨front, back, rfl, frontClean⟩ := List.eq_append_cons_of_mem inside
    have ahead : ∀ char ∈ front, decide (char ≠ separator) = true := by
      intro char member
      exact decide_eq_true fun same => frontClean (same ▸ member)
    rw [List.splitOn_append_cons_self_of_not_mem frontClean,
      List.takeWhile_append_of_pos ahead, List.takeWhile_cons_of_neg (by simp)]
    simp
  · have all : ∀ char ∈ rest, decide (char ≠ separator) = true := by
      intro char member
      exact decide_eq_true fun same => inside (same ▸ member)
    rw [List.splitOn_eq_singleton inside, List.takeWhile_eq_self_iff.mpr all]
    simp

/-! ## One word -/

section Word

variable {literal : Text} (solid : ' ' ∉ literal)

include solid in
theorem fromFirst_append {word rest : Text} (ends : EndsAt ' ' rest) :
    (fromFirst literal (word ++ rest)).isSome =
      ((fromFirst literal word).isSome || (fromFirst literal rest).isSome) := by
  induction word with
  | nil => rfl
  | cons char word ih =>
      rw [List.cons_append, fromFirst, fromFirst, ← List.cons_append,
        isPrefixOf_append solid ends]
      split
      · rfl
      · exact ih

theorem grepO_skip (width : Text → Option Nat) (covered rest : Text) :
    grepO width covered.length (covered ++ rest) = grepO width 0 rest := by
  induction covered with
  | nil => rfl
  | cons char covered ih => exact ih

/-- A match covers the rest of its word. -/
theorem wordWidth_append {word rest : Text} (ends : EndsAt ' ' rest) (wordSolid : ' ' ∉ word)
    (matched : literal.isPrefixOf word = true) :
    wordWidth literal (word ++ rest) = some word.length := by
  obtain ⟨after, rfl⟩ := List.isPrefixOf_iff_prefix.mp matched
  have inside : ∀ char ∈ after, decide (char ≠ ' ') = true := by
    intro char member
    exact decide_eq_true fun blank =>
      wordSolid (List.mem_append_right literal (blank ▸ member))
  have covered : (after ++ rest).takeWhile (· ≠ ' ') = after := by
    rw [List.takeWhile_append_of_pos inside]
    cases rest with
    | nil => simp
    | cons char rest => simp [ends char rfl]
  have front : literal.isPrefixOf (literal ++ after ++ rest) = true := by
    rw [List.isPrefixOf_iff_prefix, List.append_assoc]
    exact List.prefix_append literal (after ++ rest)
  rw [wordWidth, if_pos front, List.append_assoc, List.drop_left, covered, List.length_append]

include solid in
/-- `grep -o` finds in a word its part from the first occurrence on. -/
theorem grepO_append {word rest : Text} (ends : EndsAt ' ' rest) (wordSolid : ' ' ∉ word) :
    grepO (wordWidth literal) 0 (word ++ rest) =
      (fromFirst literal word).toList ++ grepO (wordWidth literal) 0 rest := by
  induction word with
  | nil => rfl
  | cons char word ih =>
      by_cases matched : literal.isPrefixOf (char :: word) = true
      · have width := wordWidth_append ends wordSolid matched
        rw [List.cons_append, List.length_cons] at width
        rw [List.cons_append, grepO, width, fromFirst, if_pos matched]
        simp only [← List.cons_append, grepO_skip]
        rw [show word.length + 1 = (char :: word).length from rfl, List.take_left]
        rfl
      · have missed : wordWidth literal (char :: (word ++ rest)) = none := by
          rw [wordWidth, ← List.cons_append, isPrefixOf_append solid ends, if_neg matched]
        rw [List.cons_append, grepO, missed, fromFirst, if_neg matched]
        exact ih fun member => wordSolid (List.mem_cons_of_mem char member)

end Word

/-! ## A line of words -/

section Line

variable {literal : Text} (nonempty : literal ≠ []) (solid : ' ' ∉ literal)

include nonempty solid

theorem not_isPrefixOf_blank (rest : Text) : literal.isPrefixOf (' ' :: rest) = false := by
  cases literal with
  | nil => exact absurd rfl nonempty
  | cons char literal =>
      have other : char ≠ ' ' := fun same => solid (same ▸ List.mem_cons_self)
      exact not_isPrefixOf_cons other rest

/-- In a line of words `grep -o` finds what it finds in each word. -/
theorem grepO_joined {words : List Text} (wordsSolid : ∀ word ∈ words, ' ' ∉ word) :
    grepO (wordWidth literal) 0 (joined ' ' words) =
      words.flatMap fun word => (fromFirst literal word).toList := by
  induction words with
  | nil => rfl
  | cons word rest ih =>
      have wordSolid := wordsSolid word List.mem_cons_self
      cases rest with
      | nil =>
          have ends : EndsAt ' ' [] := nofun
          have whole := grepO_append solid ends wordSolid
          simpa [joined, grepO] using whole
      | cons second rest =>
          have blank : grepO (wordWidth literal) 0 (' ' :: joined ' ' (second :: rest)) =
              grepO (wordWidth literal) 0 (joined ' ' (second :: rest)) := by
            rw [grepO, wordWidth, not_isPrefixOf_blank nonempty solid]
            rfl
          rw [joined_cons_cons, grepO_append solid (by simp [EndsAt]) wordSolid, blank,
            ih fun other member => wordsSolid other (List.mem_cons_of_mem word member)]
          rfl

/-- A literal occurs in a line of words exactly when it occurs in a word. -/
theorem grepQ_joined (words : List Text) :
    grepQ literal (joined ' ' words) = words.any (grepQ literal) := by
  induction words with
  | nil => rfl
  | cons word rest ih =>
      cases rest with
      | nil => simp [joined]
      | cons second rest =>
          have blank : fromFirst literal (' ' :: joined ' ' (second :: rest)) =
              fromFirst literal (joined ' ' (second :: rest)) := by
            rw [fromFirst, not_isPrefixOf_blank nonempty solid]
            rfl
          rw [joined_cons_cons, grepQ, fromFirst_append solid (by simp [EndsAt]), blank,
            List.any_cons, ← ih]
          rfl

end Line

/-! ## Occurrences -/

/-- A search succeeds exactly on the texts that contain the literal. -/
theorem grepQ_iff {literal : Text} (nonempty : literal ≠ []) (line : Text) :
    grepQ literal line = true ↔ literal <:+: line := by
  unfold grepQ
  induction line with
  | nil => simp [fromFirst, nonempty]
  | cons char rest ih =>
      rw [fromFirst, List.infix_cons_iff, ← ih, ← List.isPrefixOf_iff_prefix]
      split <;> simp_all

end LtramBench.Shell
