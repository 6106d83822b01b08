import Mathlib.Data.List.GetD
import Mathlib.Data.List.Infix

/-!
# Records, fields and matches

The part of `awk`, `grep`, `cut` and `tail` that line-oriented scripts rely on.
A text is a list of characters and a file is the list of its lines.

Fields are numbered from 1, as in `awk`, and a field past the last one is empty;
an empty record has no field at all.
-/

namespace LtramBench.Shell

abbrev Text := List Char

/-! ## One separating character -/

/-- The fields of a record under a one-character `FS`. -/
def fields (separator : Char) (record : Text) : List Text :=
  if record = [] then [] else record.splitOn separator

/-- `$index`. -/
def field (parts : List Text) (index : Nat) : Text :=
  parts.getD (index - 1) []

/-- The parts with a separator between any two of them. -/
def joined (separator : Char) (parts : List Text) : Text :=
  [separator].intercalate parts

@[simp]
theorem fields_nil (separator : Char) : fields separator [] = [] :=
  rfl

theorem fields_of_ne_nil {separator : Char} {record : Text} (nonempty : record ≠ []) :
    fields separator record = record.splitOn separator :=
  if_neg nonempty

@[simp]
theorem joined_singleton (separator : Char) (part : Text) : joined separator [part] = part := by
  simp [joined]

theorem joined_cons_cons (separator : Char) (first second : Text) (rest : List Text) :
    joined separator (first :: second :: rest) =
      first ++ separator :: joined separator (second :: rest) := by
  simp [joined]

/-- The part before the first separator and the rest can be told apart when the
first part is known. -/
theorem joined_cons_inj {separator : Char} {first : Text} {second third : List Text}
    (secondClean : ∀ part ∈ second, separator ∉ part) (thirdClean : ∀ part ∈ third, separator ∉ part)
    (secondNonempty : second ≠ []) (thirdNonempty : third ≠ []) :
    joined separator (first :: second) = joined separator (first :: third) ↔ second = third := by
  constructor
  · intro same
    obtain ⟨head, tail, rfl⟩ := List.exists_cons_of_ne_nil secondNonempty
    obtain ⟨head', tail', rfl⟩ := List.exists_cons_of_ne_nil thirdNonempty
    rw [joined_cons_cons, joined_cons_cons] at same
    have rest := List.tail_eq_of_cons_eq (List.append_cancel_left same)
    rw [← List.splitOn_intercalate separator secondClean secondNonempty,
      ← List.splitOn_intercalate separator thirdClean thirdNonempty]
    exact congrArg (List.splitOn separator) rest
  · rintro rfl
    rfl

/-- Joining two or more parts and splitting again gives them back. -/
theorem fields_joined {separator : Char} {parts : List Text} (several : 2 ≤ parts.length)
    (clean : ∀ part ∈ parts, separator ∉ part) :
    fields separator (joined separator parts) = parts := by
  match parts, several with
  | first :: second :: rest, _ =>
      have nonempty : joined separator (first :: second :: rest) ≠ [] := by
        rw [joined_cons_cons]
        simp
      rw [fields_of_ne_nil nonempty]
      exact List.splitOn_intercalate separator clean (by simp)

/-- A record has fewer than two fields exactly when it lacks the separator. -/
theorem length_fields_lt_two_iff (separator : Char) (record : Text) :
    (fields separator record).length < 2 ↔ separator ∉ record := by
  constructor
  · intro short member
    obtain ⟨before, after, rfl⟩ := List.append_of_mem member
    rw [fields_of_ne_nil (by simp), List.splitOn_append_cons_self, List.length_append] at short
    have left := List.length_pos_iff.mpr (List.splitOn_ne_nil separator before)
    have right := List.length_pos_iff.mpr (List.splitOn_ne_nil separator after)
    omega
  · intro absent
    by_cases empty : record = []
    · simp [empty]
    · rw [fields_of_ne_nil empty, List.splitOn_eq_singleton absent, List.length_singleton]
      exact Nat.one_lt_two

/-- No field contains the separator. -/
theorem not_mem_of_mem_splitOn {separator : Char} {text part : Text}
    (member : part ∈ text.splitOn separator) : separator ∉ part := by
  induction text generalizing part with
  | nil =>
      rw [List.splitOn_nil, List.mem_singleton] at member
      simp [member]
  | cons char rest ih =>
      rw [List.splitOn_cons_eq_if_modifyHead] at member
      split at member
      · rcases List.mem_cons.mp member with rfl | later
        · exact List.not_mem_nil
        · exact ih later
      · obtain ⟨head, tail, splitEq⟩ := List.exists_cons_of_ne_nil (List.splitOn_ne_nil separator rest)
        rw [splitEq, List.modifyHead_cons, List.mem_cons] at member
        rename_i other
        rcases member with rfl | later
        · intro inside
          rcases List.mem_cons.mp inside with rfl | inside
          · exact other (beq_self_eq_true _)
          · exact ih (splitEq ▸ List.mem_cons_self) inside
        · exact ih (splitEq ▸ List.mem_cons_of_mem head later)

/-- The text before the only separator of a line. -/
theorem eq_of_single_separator {separator : Char} {name value before after : Text}
    (nameClean : separator ∉ name) (valueClean : separator ∉ value)
    (same : before ++ separator :: after = name ++ separator :: value) : before = name := by
  have parts := congrArg (List.splitOn separator) same
  rw [List.splitOn_append_cons_self, List.splitOn_append_cons_self_of_not_mem nameClean,
    List.splitOn_eq_singleton valueClean] at parts
  obtain ⟨first, others, beforeParts⟩ :=
    List.exists_cons_of_ne_nil (List.splitOn_ne_nil separator before)
  rw [beforeParts, List.cons_append, List.cons.injEq, List.append_eq_singleton_iff] at parts
  rcases parts with ⟨rfl, ⟨rfl, -⟩ | ⟨-, empty⟩⟩
  · rw [← @List.intercalate_splitOn _ before _ _ separator, beforeParts]
    simp
  · exact absurd empty (List.splitOn_ne_nil separator after)

/-! ## Prefixes -/

/-- The text is empty or begins with `stop`. -/
def EndsAt (stop : Char) (rest : Text) : Prop :=
  ∀ char ∈ rest.head?, char = stop

/-- A literal without `stop` matches no further than the text before `stop`. -/
theorem isPrefixOf_append {stop : Char} {literal text rest : Text} (solid : stop ∉ literal)
    (ends : EndsAt stop rest) :
    literal.isPrefixOf (text ++ rest) = literal.isPrefixOf text := by
  rw [Bool.eq_iff_iff, List.isPrefixOf_iff_prefix, List.isPrefixOf_iff_prefix]
  constructor
  · intro matched
    rcases List.prefix_or_prefix_of_prefix matched (List.prefix_append text rest) with
      inside | ⟨extra, rfl⟩
    · exact inside
    · cases extra with
      | nil => simp
      | cons char extra =>
          have front : char :: extra <+: rest := (List.prefix_append_right_inj text).mp matched
          obtain ⟨tail, rfl⟩ := front
          have stopped := ends char rfl
          exact absurd (by simp [stopped]) solid
  · intro matched
    exact matched.trans (List.prefix_append text rest)

/-! ## A longer separator -/

/-- The pieces of a record between the leftmost occurrences of a separator of
several characters.  The first argument counts the characters of the last
occurrence that are still ahead. -/
def splitText (separator : Text) : Nat → Text → List Text
  | _, [] => [[]]
  | skip + 1, _ :: rest => splitText separator skip rest
  | 0, char :: rest =>
      if separator.isPrefixOf (char :: rest) then
        [] :: splitText separator (separator.length - 1) rest
      else (splitText separator 0 rest).modifyHead (char :: ·)

/-- The fields of a record under an `FS` of several literal characters. -/
def fieldsText (separator record : Text) : List Text :=
  if record = [] then [] else splitText separator 0 record

section SplitText

variable {first : Char} {others : Text}

theorem not_isPrefixOf_cons {char : Char} (other : first ≠ char) (rest : Text) :
    (first :: others).isPrefixOf (char :: rest) = false := by
  simp [List.isPrefixOf, other]

theorem splitText_of_not_mem {text : Text} (absent : first ∉ text) :
    splitText (first :: others) 0 text = [text] := by
  induction text with
  | nil => rfl
  | cons char rest ih =>
      rw [List.mem_cons, not_or] at absent
      rw [splitText, not_isPrefixOf_cons absent.1, ih absent.2]
      rfl

theorem splitText_skip (separator covered rest : Text) :
    splitText separator covered.length (covered ++ rest) = splitText separator 0 rest := by
  induction covered with
  | nil => rfl
  | cons char covered ih => exact ih

/-- The text before the first occurrence is the first piece. -/
theorem splitText_append {text : Text} (absent : first ∉ text) (rest : Text) :
    splitText (first :: others) 0 (text ++ (first :: others ++ rest)) =
      text :: splitText (first :: others) 0 rest := by
  induction text with
  | nil =>
      have front : (first :: others).isPrefixOf (first :: (others ++ rest)) = true := by
        simp
      rw [List.nil_append, List.cons_append, splitText, if_pos front]
      exact congrArg ([] :: ·) (splitText_skip (first :: others) others rest)
  | cons char text ih =>
      rw [List.mem_cons, not_or] at absent
      rw [List.cons_append, splitText, not_isPrefixOf_cons absent.1, ih absent.2]
      rfl

end SplitText

/-! ## Reading a file -/

section Scan

variable {σ : Type}

/-- Apply a rule to every record in turn; the rule is told `NR`. -/
def scan (rule : Nat → Text → σ → σ) : Nat → List Text → σ → σ
  | _, [], state => state
  | nr, record :: rest, state => scan rule (nr + 1) rest (rule nr record state)

@[simp]
theorem scan_nil (rule : Nat → Text → σ → σ) (nr : Nat) (state : σ) :
    scan rule nr [] state = state :=
  rfl

@[simp]
theorem scan_cons (rule : Nat → Text → σ → σ) (nr : Nat) (record : Text) (rest : List Text)
    (state : σ) :
    scan rule nr (record :: rest) state = scan rule (nr + 1) rest (rule nr record state) :=
  rfl

theorem scan_append (rule : Nat → Text → σ → σ) (nr : Nat) (first second : List Text)
    (state : σ) :
    scan rule nr (first ++ second) state =
      scan rule (nr + first.length) second (scan rule nr first state) := by
  induction first generalizing nr state with
  | nil => rfl
  | cons record rest ih =>
      rw [List.cons_append, scan_cons, scan_cons, ih, List.length_cons]
      congr 1
      omega

/-- A rule that only touches one part of the state acts on that part alone. -/
theorem scan_lift {τ : Type} {rule : Nat → Text → σ → σ} {inner : Nat → Text → τ → τ}
    (embed : τ → σ)
    (lifts : ∀ nr record part, rule nr record (embed part) = embed (inner nr record part))
    (nr : Nat) (file : List Text) (part : τ) :
    scan rule nr file (embed part) = embed (scan inner nr file part) := by
  induction file generalizing nr part with
  | nil => rfl
  | cons record rest ih => rw [scan_cons, scan_cons, lifts, ih]

/-- Apply a rule to several files; it is told `NR`, which counts the records of
all files, and `FNR`, which starts again with each.  The second argument is the
number of records read before. -/
def scanFiles (rule : Nat → Nat → Text → σ → σ) : Nat → List (List Text) → σ → σ
  | _, [], state => state
  | read, file :: rest, state =>
      scanFiles rule (read + file.length) rest
        (scan (fun fnr record => rule (read + fnr) fnr record) 1 file state)

/-- `NR==FNR` tells the first of two files from the second, unless it is empty. -/
theorem scanFiles_pair {store use : Text → σ → σ} {first : List Text} (nonempty : first ≠ [])
    (second : List Text) (state : σ) :
    scanFiles (fun nr fnr record state =>
        if nr = fnr then store record state else use record state) 0 [first, second] state =
      scan (fun _ => use) 1 second (scan (fun _ => store) 1 first state) := by
  have positive := List.length_pos_iff.mpr nonempty
  have storing : (fun fnr record state =>
      if 0 + fnr = fnr then store record state else use record state) = fun _ => store := by
    funext fnr record state
    exact if_pos (Nat.zero_add fnr)
  have later : (fun fnr record state =>
      if 0 + first.length + fnr = fnr then store record state else use record state) =
        fun _ => use := by
    funext fnr record state
    exact if_neg (by omega)
  simp only [scanFiles, storing, later]

end Scan

/-- `tail -count`. -/
def tail (count : Nat) (lines : List Text) : List Text :=
  lines.drop (lines.length - count)

theorem tail_of_length_le {count : Nat} {lines : List Text} (few : lines.length ≤ count) :
    tail count lines = lines := by
  rw [tail, Nat.sub_eq_zero_of_le few, List.drop_zero]

theorem length_tail (count : Nat) (lines : List Text) :
    (tail count lines).length = min count lines.length := by
  rw [tail, List.length_drop]
  omega

end LtramBench.Shell
