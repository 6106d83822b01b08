import LtramBench.Hiredis.Command
import Mathlib.Data.List.TakeWhile

/-!
# Command formats

`redisvFormatCommand` reads a format character by character.  Blanks separate the
arguments of the command, `%s` and `%b` insert bytes, `%%` is a percent sign, and
any other conversion is handed to `vsnprintf`, which is a parameter here.  Reading
an argument that was not passed, or past the end of the format, is undefined.
-/

namespace LtramBench.Hiredis

open LtramBench.Shell

/-- A variable argument, with its type. -/
inductive VaArg where
  | pointer (memory : Text)
  | size (value : Nat)
  | int (value : Int)
  | long (value : Int)
  | longLong (value : Int)
  | double (bits : Nat)

def Formatted.andThen {α β : Type} : Formatted α → (α → Formatted β) → Formatted β
  | ok value, next => next value
  | memoryError, _ => memoryError
  | formatError, _ => formatError
  | undefined, _ => undefined

/-- The locals of the loop. -/
structure Building where
  curargv : List Text
  curarg : Text
  touched : Bool
  totlen : Int
  args : List VaArg

/-- Bytes go to the current argument. -/
def Building.touch (b : Building) (bytes : Text) : Building :=
  { b with curarg := b.curarg ++ bytes, touched := true }

/-- The current argument is complete, if it was touched. -/
def Building.separate (b : Building) : Building :=
  if b.touched then
    { b with curargv := b.curargv ++ [b.curarg], curarg := [], touched := false,
             totlen := int (b.totlen + bulklen b.curarg.length) }
  else b

/-! ## Conversions -/

/-- The type that a conversion takes from the variable arguments. -/
inductive VaType where
  | int
  | long
  | longLong
  | double

/-- What stands behind a percent sign: nothing valid, the end of the format, or a
conversion of this length. -/
inductive Conversion where
  | invalid
  | pastEnd
  | valid (length : Nat) (type : VaType)

def intfmts : Text := "diouxX".toList

/-- A conversion with a size modifier. -/
def sized (before : Nat) (type : VaType) : Text → Conversion
  | [] => .invalid
  | c :: _ => if c ∈ intfmts then .valid (before + 1) type else .invalid

/-- Flags, width, precision, size and the conversion itself. -/
def scanConversion (spec : Text) : Conversion :=
  let p := spec.dropWhile (· ∈ "#0-+ ".toList)
  let p := p.dropWhile Char.isDigit
  let p := match p with
    | '.' :: rest => rest.dropWhile Char.isDigit
    | p => p
  let before := spec.length - p.length
  match p with
  -- `strchr` finds the NUL at the end of the table
  | [] => .pastEnd
  | 'h' :: 'h' :: rest => sized (before + 2) .int rest
  | 'h' :: rest => sized (before + 1) .int rest
  | 'l' :: 'l' :: rest => sized (before + 2) .longLong rest
  | 'l' :: rest => sized (before + 1) .long rest
  | c :: _ =>
      if c ∈ intfmts then .valid (before + 1) .int
      else if c ∈ "eEfFgGaA".toList then .valid (before + 1) .double
      else .invalid

/-- `va_arg`. -/
def vaArg : VaType → List VaArg → Option (VaArg × List VaArg)
  | .int, .int value :: args => some (.int value, args)
  | .long, .long value :: args => some (.long value, args)
  | .longLong, .longLong value :: args => some (.longLong value, args)
  | .double, .double bits :: args => some (.double bits, args)
  | _, _ => none

/-- A conversion with these characters behind its percent sign: the new locals and
how many of the characters it uses.  A conversion too long for the buffer of the
source takes its argument but is not printed. -/
def convert (vsnprintf : Text → VaArg → Text) (spec : Text) (b : Building) :
    Formatted (Building × Nat) :=
  match spec with
  | 's' :: _ =>
      match b.args with
      | .pointer memory :: args => .ok ({ b.touch (cString memory) with args }, 1)
      | _ => .undefined
  | 'b' :: _ =>
      match b.args with
      | .pointer memory :: .size size :: args =>
          if size ≤ memory.length then .ok ({ b.touch (memory.take size) with args }, 1)
          else .undefined
      | _ => .undefined
  | '%' :: _ => .ok (b.touch ['%'], 1)
  | _ =>
      match scanConversion spec with
      | .invalid => .formatError
      | .pastEnd => .undefined
      | .valid length type =>
          match vaArg type b.args with
          | none => .undefined
          | some (arg, args) =>
              if length + 1 < 14 then
                .ok ({ b.touch (vsnprintf ('%' :: spec.take length) arg) with args }, length)
              else .ok ({ b.touch [] with args }, 1)

/-! ## The loop -/

/-- The loop over the format; some characters belong to the conversion before. -/
def parseFormat (vsnprintf : Text → VaArg → Text) : Nat → Text → Building → Formatted Building
  | _, [], b => .ok b
  | skip + 1, _ :: rest, b => parseFormat vsnprintf skip rest b
  | 0, c :: rest, b =>
      if c ≠ '%' ∨ rest = [] then
        if c = ' ' then parseFormat vsnprintf 0 rest b.separate
        else parseFormat vsnprintf 0 rest (b.touch [c])
      else
        (convert vsnprintf rest b).andThen fun converted =>
          parseFormat vsnprintf converted.2 rest converted.1

/-- The locals when an argument is complete. -/
def Building.between (curargv : List Text) (args : List VaArg) : Building :=
  { curargv, curarg := [], touched := false,
    totlen := addBulklens 0 (curargv.map List.length), args }

/-- The arguments of the command that a format makes. -/
def formatArguments (vsnprintf : Text → VaArg → Text) (format : Text) (args : List VaArg) :
    Formatted Building :=
  (parseFormat vsnprintf 0 (cString format) (Building.between [] args)).andThen fun b =>
    .ok b.separate

/-- `redisvFormatCommand`: the command and the length it returns.  Every argument is
an `sds` string. -/
def redisvFormatCommand (vsnprintf : Text → VaArg → Text) (format : Text) (args : List VaArg) :
    Formatted (Text × Int) :=
  (formatArguments vsnprintf format args).andThen fun b =>
    if ∀ arg ∈ b.curargv, SdsFits arg.length then
      framed b.curargv (int (b.totlen + (1 + countDigits b.curargv.length + 2 : Nat)))
    else .undefined

theorem cString_of_not_mem {text : Text} (absent : '\x00' ∉ text) : cString text = text := by
  refine List.takeWhile_eq_self_iff.mpr fun char member => decide_eq_true ?_
  rintro rfl
  exact absent member

theorem not_mem_joined {separator char : Char} (other : char ≠ separator) {parts : List Text}
    (absent : ∀ part ∈ parts, char ∉ part) : char ∉ joined separator parts := by
  induction parts with
  | nil => simp [joined]
  | cons first rest ih =>
      have inFirst := absent first List.mem_cons_self
      have inRest := ih fun part member => absent part (List.mem_cons_of_mem _ member)
      cases rest with
      | nil => rwa [joined_singleton]
      | cons second rest =>
          rw [joined_cons_cons, List.mem_append, List.mem_cons]
          rintro (early | same | late)
          · exact inFirst early
          · exact other same
          · exact inRest late

theorem mem_joined {separator char : Char} {parts : List Text} {part : Text}
    (member : part ∈ parts) (inside : char ∈ part) : char ∈ joined separator parts := by
  induction parts with
  | nil => cases member
  | cons first rest ih =>
      cases rest with
      | nil =>
          rw [List.mem_singleton] at member
          rwa [joined_singleton, ← member]
      | cons second rest =>
          rw [joined_cons_cons, List.mem_append, List.mem_cons]
          rcases List.mem_cons.mp member with rfl | later
          · exact .inl inside
          · exact .inr (.inr (ih later))

/-! ## Steps of the loop -/

@[simp]
theorem Formatted.andThen_ok {α β : Type} (value : α) (next : α → Formatted β) :
    (Formatted.ok value).andThen next = next value :=
  rfl

theorem Formatted.andThen_eq_ok {α β : Type} {first : Formatted α} {next : α → Formatted β}
    {result : β} (both : first.andThen next = .ok result) :
    ∃ value, first = .ok value ∧ next value = .ok result := by
  cases first with
  | ok value => exact ⟨value, rfl, both⟩
  | memoryError => cases both
  | formatError => cases both
  | undefined => cases both

@[simp]
theorem Building.touch_touch (b : Building) (first second : Text) :
    (b.touch first).touch second = b.touch (first ++ second) := by
  simp only [touch, List.append_assoc]

theorem Building.separate_touch (curargv : List Text) (bytes : Text) (args : List VaArg) :
    ((between curargv args).touch bytes).separate = between (curargv ++ [bytes]) args := by
  simp only [between, touch, separate, if_true, addBulklens, List.map_append, List.map_singleton,
    List.foldl_append, List.foldl_cons, List.foldl_nil, List.nil_append]

section Steps

variable {vsnprintf : Text → VaArg → Text}

theorem parseFormat_letter {c : Char} (notPercent : c ≠ '%') (notBlank : c ≠ ' ') (rest : Text)
    (b : Building) :
    parseFormat vsnprintf 0 (c :: rest) b = parseFormat vsnprintf 0 rest (b.touch [c]) := by
  rw [parseFormat, if_pos (.inl notPercent), if_neg notBlank]

theorem parseFormat_blank (rest : Text) (b : Building) :
    parseFormat vsnprintf 0 (' ' :: rest) b = parseFormat vsnprintf 0 rest b.separate := by
  rw [parseFormat, if_pos (.inl (by decide)), if_pos rfl]

theorem parseFormat_percent {rest : Text} (more : rest ≠ []) (b : Building) :
    parseFormat vsnprintf 0 ('%' :: rest) b =
      (convert vsnprintf rest b).andThen fun converted =>
        parseFormat vsnprintf converted.2 rest converted.1 := by
  rw [parseFormat, if_neg (by simp [more])]

/-- Bytes that are neither blanks nor percent signs are taken as they are. -/
theorem parseFormat_letters {text : Text} (nonempty : text ≠ [])
    (clean : ∀ c ∈ text, c ≠ '%' ∧ c ≠ ' ') (rest : Text) (b : Building) :
    parseFormat vsnprintf 0 (text ++ rest) b = parseFormat vsnprintf 0 rest (b.touch text) := by
  induction text generalizing b with
  | nil => exact absurd rfl nonempty
  | cons c text ih =>
      obtain ⟨notPercent, notBlank⟩ := clean c List.mem_cons_self
      rw [List.cons_append, parseFormat_letter notPercent notBlank]
      cases text with
      | nil => rfl
      | cons next text =>
          rw [ih (List.cons_ne_nil _ _) fun c member => clean c (List.mem_cons_of_mem _ member),
            Building.touch_touch]
          rfl

end Steps

/-! ## Templates -/

/-- A piece of a format: bytes as they are, a percent sign that is written twice, or
an argument that is inserted. -/
inductive Piece where
  | literal (text : Text)
  | percent
  | string (memory : Text)
  | binary (memory : Text) (size : Nat)

namespace Piece

/-- A piece in the format. -/
def format : Piece → Text
  | literal text => text
  | percent => ['%', '%']
  | string _ => ['%', 's']
  | binary _ _ => ['%', 'b']

/-- What a piece takes from the variable arguments. -/
def args : Piece → List VaArg
  | literal _ | percent => []
  | string memory => [.pointer memory]
  | binary memory size => [.pointer memory, .size size]

/-- What a piece stands for. -/
def bytes : Piece → Text
  | literal text => text
  | percent => ['%']
  | string memory => cString memory
  | binary memory size => memory.take size

/-- Literal bytes have no meaning of their own, and binary ones are there. -/
def Clean : Piece → Prop
  | literal text => text ≠ [] ∧ ∀ c ∈ text, c ≠ '%' ∧ c ≠ ' ' ∧ c ≠ '\x00'
  | percent | string _ => True
  | binary memory size => size ≤ memory.length

variable {vsnprintf : Text → VaArg → Text}

theorem parse {piece : Piece} (clean : piece.Clean) (rest : Text) (others : List VaArg)
    (b : Building) :
    parseFormat vsnprintf 0 (piece.format ++ rest) { b with args := piece.args ++ others } =
      parseFormat vsnprintf 0 rest { b.touch piece.bytes with args := others } := by
  cases piece with
  | literal text =>
      rw [format, parseFormat_letters clean.1 fun c member =>
        ⟨(clean.2 c member).1, (clean.2 c member).2.1⟩]
      rfl
  | percent =>
      rw [format, List.cons_append, List.cons_append, parseFormat_percent (List.cons_ne_nil _ _)]
      rfl
  | string memory =>
      rw [format, List.cons_append, List.cons_append, parseFormat_percent (List.cons_ne_nil _ _)]
      rfl
  | binary memory size =>
      have there : size ≤ memory.length := clean
      rw [format, List.cons_append, List.cons_append, parseFormat_percent (List.cons_ne_nil _ _)]
      simp only [convert, List.cons_append, List.nil_append, args, if_pos there,
        Formatted.andThen_ok]
      rfl

theorem nul_not_mem_format {piece : Piece} (clean : piece.Clean) : '\x00' ∉ piece.format := by
  cases piece with
  | literal text => exact fun member => (clean.2 _ member).2.2 rfl
  | percent => exact fun member => absurd member (show '\x00' ∉ ['%', '%'] by decide)
  | string memory => exact fun member => absurd member (show '\x00' ∉ ['%', 's'] by decide)
  | binary memory size => exact fun member => absurd member (show '\x00' ∉ ['%', 'b'] by decide)

end Piece

/-- A template: words of one or more pieces. -/
abbrev Template := List (List Piece)

namespace Template

def format (template : Template) : Text :=
  joined ' ' (template.map fun word => word.flatMap Piece.format)

def args (template : Template) : List VaArg :=
  template.flatMap fun word => word.flatMap Piece.args

/-- The arguments that a template stands for. -/
def argv (template : Template) : List Text :=
  template.map fun word => word.flatMap Piece.bytes

def Clean (template : Template) : Prop :=
  ∀ word ∈ template, word ≠ [] ∧ ∀ piece ∈ word, piece.Clean

variable {vsnprintf : Text → VaArg → Text}

theorem parse_word {word : List Piece} (nonempty : word ≠ []) (clean : ∀ piece ∈ word, piece.Clean)
    (rest : Text) (others : List VaArg) (b : Building) :
    parseFormat vsnprintf 0 (word.flatMap Piece.format ++ rest)
        { b with args := word.flatMap Piece.args ++ others } =
      parseFormat vsnprintf 0 rest { b.touch (word.flatMap Piece.bytes) with args := others } := by
  induction word generalizing b with
  | nil => exact absurd rfl nonempty
  | cons piece word ih =>
      have pieceClean := clean piece List.mem_cons_self
      simp only [List.flatMap_cons, List.append_assoc]
      rw [Piece.parse pieceClean]
      cases word with
      | nil =>
          simp only [List.flatMap_nil, List.nil_append, List.append_nil]
      | cons next word =>
          rw [ih (List.cons_ne_nil _ _)
            (fun piece member => clean piece (List.mem_cons_of_mem _ member)) (b.touch piece.bytes),
            Building.touch_touch]

/-- After the loop and its last argument, a clean template has become its
arguments. -/
theorem parse {template : Template} (clean : template.Clean) (curargv : List Text) :
    ((parseFormat vsnprintf 0 template.format
        (Building.between curargv template.args)).andThen fun b => .ok b.separate) =
      .ok (Building.between (curargv ++ template.argv) []) := by
  induction template generalizing curargv with
  | nil => simp [format, args, argv, joined, parseFormat, Building.separate, Building.between]
  | cons word rest ih =>
      obtain ⟨nonempty, wordClean⟩ := clean word List.mem_cons_self
      have restClean : Template.Clean rest := fun word member =>
        clean word (List.mem_cons_of_mem _ member)
      have first : ∀ later, parseFormat vsnprintf 0 (word.flatMap Piece.format ++ later)
          (Building.between curargv (args (word :: rest))) =
            parseFormat vsnprintf 0 later
              ((Building.between curargv (args rest)).touch (word.flatMap Piece.bytes)) :=
        fun later => parse_word nonempty wordClean later (args rest)
          (Building.between curargv [])
      cases rest with
      | nil =>
          have text : format [word] = word.flatMap Piece.format ++ [] := by
            rw [format, List.map_singleton, joined_singleton, List.append_nil]
          rw [text, first, parseFormat, Formatted.andThen_ok, Building.separate_touch]
          rfl
      | cons second rest =>
          have text : format (word :: second :: rest) =
              word.flatMap Piece.format ++ ' ' :: format (second :: rest) := by
            simp only [format, List.map_cons, joined_cons_cons]
          rw [text, first, parseFormat_blank, Building.separate_touch, ih restClean]
          simp only [argv, List.map_cons, List.append_assoc, List.singleton_append]

theorem cString_format {template : Template} (clean : template.Clean) :
    cString template.format = template.format := by
  refine cString_of_not_mem fun member => ?_
  refine not_mem_joined (by decide) (fun part isPart => ?_) member
  obtain ⟨word, isWord, rfl⟩ := List.mem_map.mp isPart
  rw [List.mem_flatMap]
  rintro ⟨piece, isPiece, inside⟩
  exact Piece.nul_not_mem_format ((clean word isWord).2 piece isPiece) inside

/-- What the formatter collects from a clean template. -/
theorem formatArguments_format {template : Template} (clean : template.Clean) :
    formatArguments vsnprintf template.format template.args =
      .ok (.between template.argv []) := by
  have parsed := @parse vsnprintf _ clean []
  rw [List.nil_append] at parsed
  rw [formatArguments, cString_format clean]
  exact parsed

end Template

/-! ## The length -/

/-- `totlen` is what the complete arguments add up to. -/
def Building.Counted (b : Building) : Prop :=
  b.totlen = addBulklens 0 (b.curargv.map List.length)

theorem Building.Counted.separate {b : Building} (counted : b.Counted) : b.separate.Counted := by
  unfold Building.separate
  split
  · have total : b.totlen = addBulklens 0 (b.curargv.map List.length) := counted
    simp only [Counted, total, addBulklens, List.map_append, List.map_singleton, List.foldl_append,
      List.foldl_cons, List.foldl_nil]
  · exact counted

section Counted

variable {vsnprintf : Text → VaArg → Text}

/-- A conversion completes no argument. -/
theorem counted_of_convert {spec : Text} {b : Building} {converted : Building × Nat}
    (ok : convert vsnprintf spec b = .ok converted) (counted : b.Counted) :
    converted.1.Counted := by
  unfold convert at ok
  split at ok
  · split at ok <;> cases ok
    exact counted
  · split at ok
    · split at ok <;> cases ok
      exact counted
    · cases ok
  · cases ok
    exact counted
  · split at ok
    · cases ok
    · cases ok
    · split at ok
      · cases ok
      · split at ok <;> cases ok <;> exact counted

theorem counted_of_parseFormat {skip : Nat} {text : Text} {b after : Building}
    (parsed : parseFormat vsnprintf skip text b = .ok after) (counted : b.Counted) :
    after.Counted := by
  induction text generalizing skip b with
  | nil =>
      cases skip <;>
        · cases parsed
          exact counted
  | cons c rest ih =>
      cases skip with
      | succ skip => exact ih parsed counted
      | zero =>
          rw [parseFormat] at parsed
          split at parsed
          · split at parsed
            · exact ih parsed counted.separate
            · exact ih parsed counted
          · obtain ⟨converted, ok, later⟩ := Formatted.andThen_eq_ok parsed
            exact ih later (counted_of_convert ok counted)

theorem counted_of_formatArguments {format : Text} {args : List VaArg} {b : Building}
    (formatted : formatArguments vsnprintf format args = .ok b) : b.Counted := by
  obtain ⟨after, parsed, last⟩ := Formatted.andThen_eq_ok formatted
  cases last
  have start : (Building.between [] args).Counted := rfl
  exact (counted_of_parseFormat parsed start).separate

/-- What was collected becomes its command, if it fits. -/
theorem redisvFormatCommand_eq {format : Text} {args : List VaArg} {b : Building}
    (formatted : formatArguments vsnprintf format args = .ok b)
    (fits : SdsFits (writeCommand b.curargv).length) :
    redisvFormatCommand vsnprintf format args =
      .ok (writeCommand b.curargv, (writeCommand b.curargv).length) := by
  have each : ∀ arg ∈ b.curargv, SdsFits arg.length := fun arg member => by
    have bound := (bounds_writeCommand b.curargv).2 arg member
    unfold SdsFits at fits ⊢
    omega
  have size : (writeCommand b.curargv).length = 1 + countDigits b.curargv.length + 2 +
      ((b.curargv.map List.length).map bulklen).sum := by
    rw [length_writeCommand, commandSize, List.length_map]
  have small : (writeCommand b.curargv).length < 2 ^ 31 :=
    Nat.lt_of_le_of_lt (Nat.le_add_left _ _) fits
  have counted : b.totlen = ((b.curargv.map List.length).map bulklen).sum := by
    have added := @addBulklens_eq 0 (b.curargv.map List.length) (by omega)
    rw [Nat.zero_add] at added
    exact (counted_of_formatArguments formatted).trans added
  have total : ((b.curargv.map List.length).map bulklen).sum +
      (1 + countDigits b.curargv.length + 2) = (writeCommand b.curargv).length := by omega
  rw [redisvFormatCommand, formatted, Formatted.andThen_ok, if_pos each, counted, ← Nat.cast_add,
    total, int_of_lt small, framed_eq fits]

/-- What is returned is the command of what was collected. -/
theorem eq_writeCommand_of_redisvFormatCommand {format : Text} {args : List VaArg}
    {cmd : Text × Int} (ok : redisvFormatCommand vsnprintf format args = .ok cmd) :
    ∃ b, formatArguments vsnprintf format args = .ok b ∧ cmd.1 = writeCommand b.curargv := by
  obtain ⟨b, formatted, framing⟩ := Formatted.andThen_eq_ok ok
  refine ⟨b, formatted, ?_⟩
  unfold framed at framing
  split at framing
  · split at framing
    · cases framing
    · split at framing <;> cases framing
      rfl
  · cases framing

end Counted

/-- Inserted arguments reach the server as they are: whatever bytes they hold, a
clean template becomes the command of its arguments, of the length it returns. -/
theorem redisvFormatCommand_template (vsnprintf : Text → VaArg → Text) {template : Template}
    (clean : template.Clean) (fits : SdsFits (writeCommand template.argv).length) :
    redisvFormatCommand vsnprintf template.format template.args =
      .ok (writeCommand template.argv, (writeCommand template.argv).length) :=
  redisvFormatCommand_eq (Template.formatArguments_format clean) fits

theorem redisvFormatCommand_template_hgetall :
    redisvFormatCommand (fun _ _ => []) "HGETALL %s".toList [.pointer "a %s b".toList] =
      .ok ("*2\r\n$7\r\nHGETALL\r\n$6\r\na %s b\r\n".toList, 29) := by
  have clean : Template.Clean [[.literal "HGETALL".toList], [.string "a %s b".toList]] := by
    intro word member
    rcases List.mem_cons.mp member with rfl | member
    · refine ⟨List.cons_ne_nil _ _, fun piece own => ?_⟩
      obtain rfl := List.mem_singleton.mp own
      exact ⟨by decide, by simp⟩
    · obtain rfl := List.mem_singleton.mp member
      refine ⟨List.cons_ne_nil _ _, fun piece own => ?_⟩
      obtain rfl := List.mem_singleton.mp own
      exact trivial
  exact redisvFormatCommand_template (fun _ _ => []) clean (by decide)

/-! ## Formats without arguments -/

/-- A byte of a format that has no conversions. -/
def Building.read (b : Building) (c : Char) : Building :=
  if c = ' ' then b.separate else b.touch [c]

/-- A percent sign at the end of a format is no conversion. -/
theorem parseFormat_literal {vsnprintf : Text → VaArg → Text} {text : Text}
    (literal : '%' ∉ text.dropLast) (b : Building) :
    parseFormat vsnprintf 0 text b = .ok (text.foldl Building.read b) := by
  induction text generalizing b with
  | nil => rfl
  | cons c rest ih =>
      have plain : c ≠ '%' ∨ rest = [] := by
        cases rest with
        | nil => exact .inr rfl
        | cons next rest =>
            rw [List.dropLast_cons_cons, List.mem_cons, not_or] at literal
            exact .inl (Ne.symm literal.1)
      have restLiteral : '%' ∉ rest.dropLast := by
        cases rest with
        | nil => exact List.not_mem_nil
        | cons next rest =>
            rw [List.dropLast_cons_cons, List.mem_cons, not_or] at literal
            exact literal.2
      rw [parseFormat, if_pos plain, List.foldl_cons, Building.read]
      split <;> exact ih restLiteral _

theorem foldl_read {text : Text} (nonempty : text ≠ []) (solid : ' ' ∉ text) (b : Building) :
    text.foldl Building.read b = b.touch text := by
  induction text generalizing b with
  | nil => exact absurd rfl nonempty
  | cons c rest ih =>
      rw [List.mem_cons, not_or] at solid
      rw [List.foldl_cons, Building.read, if_neg (Ne.symm solid.1)]
      cases rest with
      | nil => rfl
      | cons next rest =>
          rw [ih (List.cons_ne_nil _ _) solid.2, Building.touch_touch]
          rfl

/-- Pieces between blanks become the arguments. -/
theorem foldl_read_joined {pieces : List Text} (solid : ∀ piece ∈ pieces, piece ≠ [] ∧ ' ' ∉ piece)
    (curargv : List Text) (args : List VaArg) :
    ((joined ' ' pieces).foldl Building.read (.between curargv args)).separate =
      .between (curargv ++ pieces) args := by
  induction pieces generalizing curargv with
  | nil => simp [joined, Building.separate, Building.between]
  | cons first rest ih =>
      obtain ⟨nonempty, unbroken⟩ := solid first List.mem_cons_self
      have restSolid : ∀ piece ∈ rest, piece ≠ [] ∧ ' ' ∉ piece := fun piece member =>
        solid piece (List.mem_cons_of_mem _ member)
      cases rest with
      | nil =>
          rw [joined_singleton, foldl_read nonempty unbroken, Building.separate_touch]
      | cons second rest =>
          rw [joined_cons_cons, List.foldl_append, foldl_read nonempty unbroken, List.foldl_cons,
            Building.read, if_pos rfl, Building.separate_touch, ih restSolid, List.append_assoc,
            List.singleton_append]

/-- How many bytes the arguments hold. -/
def Building.written (b : Building) : Nat :=
  (b.curargv.map List.length).sum + b.curarg.length

/-- How many bytes of a format are not blanks. -/
def solidLength (text : Text) : Nat :=
  text.countP (· ≠ ' ')

/-- No argument is empty. -/
structure Building.Filled (b : Building) : Prop where
  argv : ∀ arg ∈ b.curargv, arg ≠ []
  arg : b.touched = true → b.curarg ≠ []

theorem Building.Filled.separate {b : Building} (filled : b.Filled) : b.separate.Filled := by
  unfold Building.separate
  split
  · next touched =>
      refine ⟨fun arg member => ?_, fun touched => nomatch touched⟩
      rcases List.mem_append.mp member with before | last
      · exact filled.argv arg before
      · rw [List.mem_singleton.mp last]
        exact filled.arg touched
  · exact filled

theorem Building.Filled.touch {b : Building} (filled : b.Filled) {bytes : Text}
    (nonempty : bytes ≠ []) : (b.touch bytes).Filled where
  argv := filled.argv
  arg _ := by simp [Building.touch, nonempty]

theorem Building.written_separate (b : Building) : b.separate.written = b.written := by
  unfold Building.separate
  split
  · simp [Building.written]
  · rfl

theorem Building.written_touch (b : Building) (bytes : Text) :
    (b.touch bytes).written = b.written + bytes.length := by
  simp [Building.written, Building.touch, Nat.add_assoc]

/-- What a format without arguments can give: no empty argument, and no more bytes
than the format has; fewer as soon as a percent sign is read. -/
structure Copies (text : Text) (b after : Building) : Prop where
  args : after.args = []
  filled : b.Filled → after.Filled
  bound : after.written ≤ b.written + solidLength text
  percent : '%' ∈ text.dropLast → after.written < b.written + solidLength text

theorem solidLength_cons (c : Char) (rest : Text) :
    solidLength (c :: rest) = solidLength rest + if c = ' ' then 0 else 1 := by
  unfold solidLength
  rw [List.countP_cons]
  by_cases blank : c = ' ' <;> simp [blank]

/-- One byte more in front. -/
theorem Copies.cons {c : Char} {rest : Text} {b middle after : Building}
    (copies : Copies rest middle after) (plain : c ≠ '%' ∨ rest = [])
    (filled : b.Filled → middle.Filled)
    (written : middle.written = b.written + if c = ' ' then 0 else 1) :
    Copies (c :: rest) b after := by
  have bound := copies.bound
  refine ⟨copies.args, fun start => copies.filled (filled start), ?_, fun percent => ?_⟩
  · rw [solidLength_cons]
    omega
  · have inRest : '%' ∈ rest.dropLast := by
      cases rest with
      | nil => cases percent
      | cons next rest =>
          rw [List.dropLast_cons_cons, List.mem_cons] at percent
          rcases percent with rfl | later
          · exact absurd plain (by simp)
          · exact later
    have less := copies.percent inRest
    rw [solidLength_cons]
    omega

/-- Without arguments the only conversion that succeeds is `%%`. -/
theorem convert_of_no_args {vsnprintf : Text → VaArg → Text} {spec : Text} {b : Building}
    {converted : Building × Nat} (noArgs : b.args = [])
    (ok : convert vsnprintf spec b = .ok converted) :
    ∃ rest, spec = '%' :: rest ∧ converted = (b.touch ['%'], 1) := by
  have noValue : ∀ type, vaArg type ([] : List VaArg) = none := by
    intro type
    cases type <;> rfl
  unfold convert at ok
  split at ok
  · rw [noArgs] at ok
    cases ok
  · rw [noArgs] at ok
    cases ok
  · exact ⟨_, rfl, (Formatted.ok.inj ok).symm⟩
  · split at ok
    · cases ok
    · cases ok
    · rw [noArgs, noValue] at ok
      cases ok

theorem copies_of_parseFormat {vsnprintf : Text → VaArg → Text} {text : Text} {b after : Building}
    (noArgs : b.args = []) (parsed : parseFormat vsnprintf 0 text b = .ok after) :
    Copies text b after := by
  induction size : text.length using Nat.strongRecOn generalizing text b with
  | _ bound ih =>
      cases text with
      | nil =>
          cases parsed
          exact ⟨noArgs, id, Nat.le_add_right _ _, fun member => nomatch member⟩
      | cons c rest =>
          rw [List.length_cons] at size
          by_cases plain : c ≠ '%' ∨ rest = []
          · rw [parseFormat, if_pos plain] at parsed
            split at parsed
            · next blank =>
                have args : b.separate.args = [] := by
                  unfold Building.separate
                  split <;> exact noArgs
                refine (ih rest.length (by omega) args parsed rfl).cons plain
                  Building.Filled.separate ?_
                rw [if_pos blank, b.written_separate]
                rfl
            · next letter =>
                refine (ih rest.length (by omega) (show (b.touch [c]).args = [] from noArgs) parsed rfl).cons plain
                  (fun filled => filled.touch (List.cons_ne_nil _ _)) ?_
                rw [if_neg letter, b.written_touch]
                rfl
          · rw [not_or, not_not] at plain
            obtain ⟨rfl, more⟩ := plain
            rw [parseFormat_percent more] at parsed
            obtain ⟨converted, ok, later⟩ := Formatted.andThen_eq_ok parsed
            obtain ⟨left, rfl, rfl⟩ := convert_of_no_args noArgs ok
            rw [parseFormat] at later
            rw [List.length_cons] at size
            have copies := ih left.length (by omega) (show (b.touch ['%']).args = [] from noArgs)
              later rfl
            have one := copies.bound
            rw [b.written_touch, List.length_singleton] at one
            -- two bytes of the format, one byte of the argument
            have two : solidLength ('%' :: '%' :: left) = solidLength left + 2 := by
              rw [solidLength_cons, solidLength_cons]
              rfl
            refine ⟨copies.args, fun filled => copies.filled
              (filled.touch (List.cons_ne_nil _ _)), ?_, fun _ => ?_⟩
            · rw [two]
              omega
            · rw [two]
              omega

theorem solidLength_le (text : Text) : solidLength text ≤ text.length :=
  List.countP_le_length

theorem solidLength_append (first second : Text) :
    solidLength (first ++ second) = solidLength first + solidLength second :=
  List.countP_append

theorem solidLength_eq_length_iff (text : Text) : solidLength text = text.length ↔ ' ' ∉ text := by
  unfold solidLength
  rw [List.countP_eq_length]
  constructor
  · intro solid member
    exact absurd rfl (of_decide_eq_true (solid ' ' member))
  · intro absent char member
    exact decide_eq_true fun blank => absent (blank ▸ member)

theorem solidLength_joined (pieces : List Text) :
    solidLength (joined ' ' pieces) = (pieces.map solidLength).sum := by
  induction pieces with
  | nil => rfl
  | cons first rest ih =>
      cases rest with
      | nil => simp
      | cons second rest =>
          rw [joined_cons_cons, solidLength_append, solidLength_cons, if_pos rfl, ih,
            Nat.add_zero]
          rfl

theorem sum_solidLength_le (pieces : List Text) :
    (pieces.map solidLength).sum ≤ (pieces.map List.length).sum := by
  induction pieces with
  | nil => exact Nat.le_refl _
  | cons piece rest ih => exact Nat.add_le_add (solidLength_le piece) ih

/-- Pieces that lose nothing with their blanks have none. -/
theorem solid_of_sum_eq {pieces : List Text}
    (same : (pieces.map solidLength).sum = (pieces.map List.length).sum) :
    ∀ piece ∈ pieces, ' ' ∉ piece := by
  induction pieces with
  | nil => exact fun _ member => nomatch member
  | cons first rest ih =>
      simp only [List.map_cons, List.sum_cons] at same
      have firstBound := solidLength_le first
      have restBound := sum_solidLength_le rest
      intro piece member
      rcases List.mem_cons.mp member with rfl | later
      · exact (solidLength_eq_length_iff piece).mp (by omega)
      · exact ih (by omega) piece later

/-- Cutting a format at a NUL loses bytes that are not blanks. -/
theorem solidLength_cString (text : Text) :
    solidLength (cString text) ≤ solidLength text ∧
      ('\x00' ∈ text → solidLength (cString text) < solidLength text) := by
  induction text with
  | nil => exact ⟨Nat.le_refl _, fun member => nomatch member⟩
  | cons char rest ih =>
      by_cases nul : char = '\x00'
      · subst nul
        have cut : cString ('\x00' :: rest) = [] := rfl
        rw [cut, solidLength_cons, if_neg (by decide)]
        exact ⟨Nat.zero_le _, fun _ => Nat.succ_pos _⟩
      · have kept : cString (char :: rest) = char :: cString rest := by
          simp [cString, nul]
        rw [kept, solidLength_cons, solidLength_cons]
        refine ⟨Nat.add_le_add_right ih.1 _, fun member => ?_⟩
        rcases List.mem_cons.mp member with same | later
        · exact absurd same.symm nul
        · exact Nat.add_lt_add_right (ih.2 later) _

/-- Exactly when a command that is passed as a format, without arguments, becomes
the command of its pieces: no piece is empty or has a blank or a NUL in it, and
there is no percent sign except as the last byte. -/
theorem formatArguments_joined_iff (vsnprintf : Text → VaArg → Text) (pieces : List Text) :
    (∃ b, formatArguments vsnprintf (joined ' ' pieces) [] = .ok b ∧ b.curargv = pieces) ↔
      (∀ piece ∈ pieces, piece ≠ [] ∧ ' ' ∉ piece ∧ '\x00' ∉ piece) ∧
        '%' ∉ (joined ' ' pieces).dropLast := by
  constructor
  · rintro ⟨b, formatted, isPieces⟩
    obtain ⟨after, parsed, last⟩ := Formatted.andThen_eq_ok formatted
    have last : after.separate = b := Formatted.ok.inj last
    have copies := copies_of_parseFormat rfl parsed
    have empty : (Building.between [] []).written = 0 := rfl
    have startFilled : (Building.between [] []).Filled :=
      ⟨fun _ member => absurd member List.not_mem_nil, fun touched => nomatch touched⟩
    have filled : b.Filled := last ▸ (copies.filled startFilled).separate
    -- the pieces have as many bytes as the format can give
    have all : (pieces.map List.length).sum ≤ after.written := by
      rw [← after.written_separate, last, ← isPieces]
      exact Nat.le_add_right _ _
    have given := copies.bound
    have cut := solidLength_cString (joined ' ' pieces)
    have solidPieces := solidLength_joined pieces
    have bounded := sum_solidLength_le pieces
    have same : (pieces.map solidLength).sum = (pieces.map List.length).sum := by
      omega
    have noBlank := solid_of_sum_eq same
    have noNul : '\x00' ∉ joined ' ' pieces := fun member => by
      have less := cut.2 member
      omega
    refine ⟨fun piece member => ⟨?_, noBlank piece member, ?_⟩, fun percent => ?_⟩
    · exact filled.argv piece (isPieces ▸ member)
    · exact fun inside => noNul (mem_joined member inside)
    · rw [cString_of_not_mem noNul] at copies
      have less := copies.percent percent
      omega
  · rintro ⟨clean, literal⟩
    have noNul : '\x00' ∉ joined ' ' pieces :=
      not_mem_joined (by decide) fun piece member => (clean piece member).2.2
    refine ⟨.between pieces [], ?_, rfl⟩
    rw [formatArguments, cString_of_not_mem noNul, parseFormat_literal literal,
      Formatted.andThen_ok, foldl_read_joined fun piece member =>
        ⟨(clean piece member).1, (clean piece member).2.1⟩]
    rfl

end LtramBench.Hiredis
