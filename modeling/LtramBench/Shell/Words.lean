import LtramBench.Shell.Number

/-!
# Words, pairs and arrays

The default `FS` of `awk` and the default `IFS` of the shell cut a text into
words: the pieces between blanks.  A file of lines `key value` fills an array
with `array[$1] = $2`, and with different keys the order of the lines does not
matter.
-/

namespace LtramBench.Shell

/-! ## Words -/

/-- The words of a text. -/
def words (text : Text) : List Text :=
  (text.splitOnP isBlank).filter (· ≠ [])

/-- A text that is one word. -/
structure Solid (text : Text) : Prop where
  nonempty : text ≠ []
  unbroken : ∀ char ∈ text, isBlank char = false

@[simp]
theorem words_nil : words [] = [] := by
  simp [words]

/-- A blank separates words. -/
theorem words_append_cons {char : Char} (blank : isBlank char = true) (first second : Text) :
    words (first ++ char :: second) = words first ++ words second := by
  rw [words, List.splitOnP_append_cons first second blank, List.filter_append]
  rfl

theorem words_cons {char : Char} (blank : isBlank char = true) (text : Text) :
    words (char :: text) = words text := by
  have separated := words_append_cons blank [] text
  rw [words_nil] at separated
  exact separated

theorem Solid.words {text : Text} (solid : Solid text) : words text = [text] := by
  rw [Shell.words, List.splitOnP_eq_singleton solid.unbroken]
  simp [solid.nonempty]

theorem Solid.words_append {text : Text} (solid : Solid text) {char : Char}
    (blank : isBlank char = true) (rest : Text) :
    Shell.words (text ++ char :: rest) = text :: Shell.words rest := by
  rw [words_append_cons blank, solid.words]
  rfl

theorem words_replicate_append (count : Nat) (text : Text) :
    words (List.replicate count ' ' ++ text) = words text := by
  induction count with
  | zero => rfl
  | succ count ih =>
      rw [List.replicate_succ, List.cons_append, words_cons rfl, ih]

theorem words_joined {parts : List Text} (solid : ∀ part ∈ parts, Solid part) :
    words (joined ' ' parts) = parts := by
  induction parts with
  | nil => simp [joined]
  | cons first rest ih =>
      have firstSolid := solid first List.mem_cons_self
      have restSolid : ∀ part ∈ rest, Solid part :=
        fun part member => solid part (List.mem_cons_of_mem first member)
      cases rest with
      | nil => rw [joined_singleton, firstSolid.words]
      | cons second rest => rw [joined_cons_cons, firstSolid.words_append rfl, ih restSolid]

/-- No piece between blanks contains one. -/
theorem isBlank_of_mem_splitOnP {text piece : Text} (member : piece ∈ text.splitOnP isBlank) :
    ∀ char ∈ piece, isBlank char = false := by
  induction text generalizing piece with
  | nil =>
      rw [List.splitOnP_nil, List.mem_singleton] at member
      simp [member]
  | cons first rest ih =>
      rw [List.splitOnP_cons_eq_if_modifyHead] at member
      split at member
      · rcases List.mem_cons.mp member with rfl | later
        · simp
        · exact ih later
      · rename_i letter
        obtain ⟨head, tail, splitEq⟩ :=
          List.exists_cons_of_ne_nil (List.splitOnP_ne_nil isBlank rest)
        rw [splitEq, List.modifyHead_cons, List.mem_cons] at member
        rcases member with rfl | later
        · intro char inside
          rcases List.mem_cons.mp inside with rfl | inside
          · simpa using letter
          · exact ih (splitEq ▸ List.mem_cons_self) char inside
        · exact ih (splitEq ▸ List.mem_cons_of_mem head later)

theorem solid_of_mem_words {text word : Text} (member : word ∈ words text) : Solid word := by
  obtain ⟨piece, nonempty⟩ := List.mem_filter.mp member
  exact ⟨by simpa using nonempty, isBlank_of_mem_splitOnP piece⟩

theorem Solid.cons {text : Text} (solid : Solid text) {char : Char}
    (unblank : isBlank char = false) : Solid (char :: text) where
  nonempty := List.cons_ne_nil char text
  unbroken other member := by
    rcases List.mem_cons.mp member with rfl | inside
    · exact unblank
    · exact solid.unbroken other inside

theorem Solid.append {text behind : Text} (solid : Solid text)
    (unblank : ∀ char ∈ behind, isBlank char = false) : Solid (text ++ behind) where
  nonempty := by simp [solid.nonempty]
  unbroken char member := by
    rcases List.mem_append.mp member with inside | later
    · exact solid.unbroken char inside
    · exact unblank char later

theorem solid_decimal (value : Nat) : Solid (decimal value) where
  nonempty := Nat.toDigits_ne_nil
  unbroken _ member := isBlank_of_isDigit (isDigit_of_mem_decimal member)

theorem solid_printInt (value : Int) : Solid (printInt value) := by
  cases value with
  | ofNat size => exact solid_decimal size
  | negSucc size => exact (solid_decimal (size + 1)).cons rfl

theorem solid_percentPlusD (value : ℚ) : Solid (percentPlusD value) := by
  unfold percentPlusD
  split
  · exact (solid_printInt (truncate value)).cons rfl
  · exact solid_printInt (truncate value)

/-! ## Printed columns -/

/-- What a line that starts with a name and a number shows. -/
def nameAndNumber (line : Text) : Text × ℚ :=
  (field (words line) 1, number (field (words line) 2))

/-- Padding belongs to no word. -/
theorem words_padStart {text : Text} (width : Nat) : words (padStart width text) = words text :=
  words_replicate_append _ text

/-- A padded column starts with its text. -/
theorem padEnd_append (width : Nat) (text rest : Text) :
    padEnd width text ++ ' ' :: rest =
      text ++ ' ' :: (List.replicate (width - text.length) ' ' ++ rest) := by
  rw [padEnd, List.append_assoc, ← List.cons_append, ← List.replicate_succ,
    List.replicate_succ', List.append_assoc]
  rfl

theorem words_padEnd_append {text : Text} (solid : Solid text) (width : Nat) (rest : Text) :
    words (padEnd width text ++ ' ' :: rest) = text :: words rest := by
  rw [padEnd_append, solid.words_append rfl, words_replicate_append]

theorem words_padStart_append {text : Text} (solid : Solid text) (width : Nat) (rest : Text) :
    words (padStart width text ++ ' ' :: rest) = text :: words rest := by
  rw [padStart, List.append_assoc, words_replicate_append, solid.words_append rfl]

/-! ## Lines of a key and a value -/

/-- A line `key value`. -/
structure Pair where
  key : Text
  value : Nat
  solid : Solid key

def Pair.render (pair : Pair) : Text :=
  pair.key ++ ' ' :: decimal pair.value

@[simp]
theorem Pair.words_render (pair : Pair) : words pair.render = [pair.key, decimal pair.value] := by
  rw [Pair.render, pair.solid.words_append rfl, (solid_decimal pair.value).words]

/-- The value of a key; a key that is absent counts as 0. -/
def valueOf (pairs : List Pair) (key : Text) : Nat :=
  match pairs.find? (fun pair => pair.key = key) with
  | some pair => pair.value
  | none => 0

/-! ## Arrays -/

/-- `array[key] = text`. -/
def assign (array : Text → Text) (key text : Text) : Text → Text :=
  fun other => if other = key then text else array other

/-- What an array holds after the lines that pass `test` were stored in it. -/
theorem scan_assign {test : Text → Bool} {pairs : List Pair}
    (distinct : (pairs.map Pair.key).Nodup) (nr : Nat) (array : Text → Text) (key : Text) :
    scan (fun _ record array =>
        if test record then assign array (field (words record) 1) (field (words record) 2)
        else array) nr (pairs.map Pair.render) array key =
      match pairs.find? (fun pair => pair.key = key ∧ test pair.render) with
      | some pair => decimal pair.value
      | none => array key := by
  induction pairs generalizing nr array with
  | nil => rfl
  | cons pair rest ih =>
      rw [List.map_cons, List.nodup_cons] at distinct
      rw [List.map_cons, scan_cons, ih distinct.2]
      by_cases own : pair.key = key
      · have absent : rest.find? (fun pair => pair.key = key ∧ test pair.render) = none := by
          rw [List.find?_eq_none]
          intro other member found
          have same : other.key = key := by
            simp only [decide_eq_true_eq] at found
            exact found.1
          exact distinct.1 (List.mem_map.mpr ⟨other, member, same.trans own.symm⟩)
        rw [absent]
        cases passed : test pair.render with
        | false =>
            rw [List.find?_cons_of_neg (by simp [passed]), absent]
            rfl
        | true => simp [passed, own, assign, field]
      · rw [List.find?_cons_of_neg (by simp [own])]
        have kept : (if test pair.render = true then assign array (field (words pair.render) 1)
            (field (words pair.render) 2) else array) key = array key := by
          split
          · simp [assign, field, Ne.symm own]
          · rfl
        rw [kept]

end LtramBench.Shell
