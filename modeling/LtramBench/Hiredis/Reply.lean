import LtramBench.Shell.Number
import LtramBench.Streaming.Parser

/-!
# The replies of the Redis protocol

A reply is a line, a string with its length in front, or an array of replies with
their number in front.  The grammar below says what a stream of bytes means; it
is recursive and reads from a complete or incomplete input, while `read.c` keeps
a stack of tasks and a buffer.

A byte is written as the character with its number.  Where the C code runs into
undefined behaviour (a number that does not fit, an item stored through a null
pointer) the grammar fails with `undefined`.  Allocation failures are left out, and so
are strings and buffers of 2 GiB or more, whose lengths are no `int`s.
-/

namespace LtramBench.Hiredis

open LtramBench.Shell LtramBench.Streaming

/-- What `freeReplyObject` takes apart.  An array has the number that the reply
claims and the items that it got. -/
inductive Reply where
  | error (text : Text)
  | status (text : Text)
  | integer (value : Int)
  | nil
  | string (text : Text)
  | array (elements : Nat) (items : List Reply)

/-- The values of `type` in a task. -/
inductive ItemType where
  | error
  | status
  | integer
  | string
  | array
  deriving DecidableEq

inductive Failure where
  | protocol (message : Text)
  | undefined
  deriving DecidableEq

abbrev ReplyParser := Parser Failure Char

/-! ## Bytes and lines -/

/-- The type that a byte announces. -/
def itemType : Char → Option ItemType
  | '-' => some .error
  | '+' => some .status
  | ':' => some .integer
  | '$' => some .string
  | '*' => some .array
  | _ => none

/-- `isprint` in the C locale. -/
def isPrint (byte : Char) : Bool :=
  0x20 ≤ byte.toNat && byte.toNat < 0x7f

/-- `%02x`. -/
def hexByte (byte : Char) : Text :=
  let digits := Nat.toDigits 16 byte.toNat
  List.replicate (2 - digits.length) '0' ++ digits

/-- `chrtos`. -/
def chrtos (byte : Char) : Text :=
  let inner : Text :=
    if byte = '\\' ∨ byte = '"' then ['\\', byte]
    else if byte = '\n' then ['\\', 'n']
    else if byte = '\r' then ['\\', 'r']
    else if byte = '\t' then ['\\', 't']
    else if byte = '\x07' then ['\\', 'a']
    else if byte = '\x08' then ['\\', 'b']
    else if isPrint byte then [byte]
    else '\\' :: 'x' :: hexByte byte
  '"' :: inner ++ ['"']

/-- The message for an unknown type byte. -/
def protocolByte (byte : Char) : Failure :=
  .protocol ("Protocol error, got ".toList ++ chrtos byte ++ " as reply type byte".toList)

/-- The message for too many arrays inside each other. -/
def tooDeep : Failure :=
  .protocol "No support for nested multi bulk replies with depth > 7".toList

/-- `seekNewline`: the position of the first `\r\n`. -/
def seekNewline : Text → Option Nat
  | [] => none
  | byte :: rest =>
      if byte = '\r' ∧ rest.head? = some '\n' then some 0 else (seekNewline rest).map (· + 1)

/-- The loop of `readLongLong`; a number that does not fit is undefined. -/
def readDigits : Nat → Text → Option Int
  | v, [] => some v
  | v, c :: rest =>
      if c = '\r' then some v
      else if c.isDigit then
        let v := v * 10 + (c.toNat - '0'.toNat)
        if v < 2 ^ 63 then readDigits v rest else none
      else some (-1)

/-- `readLongLong`, on a line that `\r` ends.  A line that is no number reads as
`-1`, whatever its sign. -/
def readLongLong (line : Text) : Option Int :=
  let signed := readSign line
  match readDigits 0 signed.2 with
  | none => none
  | some value =>
      if value = -1 then some (-1) else if signed.1 then some (-value) else some value

/-- The conversion to `int`. -/
def toInt (value : Int) : Int :=
  value.bmod (2 ^ 32)

/-- The conversion of an `int` to `size_t`. -/
def toSize (value : Int) : Nat :=
  (value % 2 ^ 64).toNat

/-! ## The grammar -/

/-- What one item creates: a reply, or an array whose items are still to come.
The number is the one of the array's head line. -/
inductive Object where
  | complete (made : Reply)
  | container (elements : Int)

/-- A line, without its end. -/
def line : ReplyParser Text := fun input =>
  match seekNewline input with
  | none => .more
  | some length => .done (input.take length) (input.drop (length + 2))

/-- A byte that announces a type. -/
def typeByte : ReplyParser ItemType
  | [] => .more
  | byte :: rest =>
      match itemType byte with
      | none => .failed (protocolByte byte)
      | some type => .done type rest

/-- A number of bytes and a line end, which is not looked at. -/
def counted (count : Nat) : ReplyParser Text := fun input =>
  if count + 2 ≤ input.length then .done (input.take count) (input.drop (count + 2)) else .more

/-- A line with a number. -/
def numberLine : ReplyParser Int := fun input =>
  (line input).andThen fun text rest =>
    match readLongLong text with
    | none => .failed .undefined
    | some value => .done value rest

/-- A reply behind a line. -/
def lineItem (make : Text → Reply) : ReplyParser Object := fun input =>
  (line input).andThen fun text rest => .done (.complete (make text)) rest

/-- A string whose head line has this number. -/
def stringOf (length : Int) : ReplyParser Object := fun input =>
  if length < 0 then .done (.complete .nil) input
  else if length + 2 < 2 ^ 63 then
    (counted length.toNat input).andThen fun text rest => .done (.complete (.string text)) rest
  else .failed .undefined

/-- An array whose head line has this number.  Only -1 is no array; any other
number that is not positive is one without items. -/
def arrayOf (elements : Int) : ReplyParser Object := fun input =>
  if elements = -1 then .done (.complete .nil) input
  else if 0 < elements then .done (.container elements) input
  else .done (.complete (.array (toSize (toInt elements)) [])) input

/-- An item behind its type byte, in which arrays go no deeper than `levels`. -/
def item (levels : Nat) : ItemType → ReplyParser Object
  | .error => lineItem .error
  | .status => lineItem .status
  | .integer => fun input =>
      (numberLine input).andThen fun value rest => .done (.complete (.integer value)) rest
  | .string => fun input => (numberLine input).andThen stringOf
  | .array => fun input =>
      if levels = 0 then .failed tooDeep else (numberLine input).andThen arrayOf

/-- One item. -/
def object (levels : Nat) : ReplyParser Object := fun input =>
  (typeByte input).andThen (item levels)

/-- The reply that an object becomes.  An array has room for as many items as its
number converted to `int`; where that is not positive, the first item has no
place. -/
def contents : Nat → Object → ReplyParser Reply
  | _, .complete made => fun input => .done made input
  | 0, .container _ => fun _ => .failed tooDeep
  | levels + 1, .container elements => fun input =>
      if 0 < toInt elements then
        (times (fun input => (object levels input).andThen (contents levels))
          (toInt elements).toNat input).andThen fun items rest =>
            .done (.array (toInt elements).toNat items) rest
      else (object levels input).andThen fun _ _ => .failed .undefined

/-- A reply in which arrays go no deeper than `levels`. -/
def reply (levels : Nat) : ReplyParser Reply := fun input =>
  (object levels input).andThen (contents levels)

theorem contents_container (levels : Nat) (elements : Int) (input : Text) :
    contents (levels + 1) (.container elements) input =
      if 0 < toInt elements then
        (times (reply levels) (toInt elements).toNat input).andThen fun items rest =>
          .done (.array (toInt elements).toNat items) rest
      else (object levels input).andThen fun _ _ => .failed .undefined :=
  rfl

/-! ## More input changes no reply -/

theorem seekNewline_append {input : Text} {length : Nat} (found : seekNewline input = some length)
    (later : Text) : seekNewline (input ++ later) = some length := by
  induction input generalizing length with
  | nil => cases found
  | cons byte rest ih =>
      simp only [seekNewline] at found
      rw [List.cons_append, seekNewline]
      split at found
      · next ends =>
          rw [if_pos ⟨ends.1, by rw [List.head?_append, ends.2]; rfl⟩]
          exact found
      · next goes =>
          obtain ⟨before, inRest, same⟩ := Option.map_eq_some_iff.mp found
          -- the rest has a line end, so it has a first character
          have nonempty : rest ≠ [] := by
            rintro rfl
            cases inRest
          rw [if_neg (by rwa [List.head?_append_of_ne_nil _ nonempty]), ih inRest]
          exact congrArg some same

theorem length_of_seekNewline {input : Text} {length : Nat}
    (found : seekNewline input = some length) : length + 2 ≤ input.length := by
  induction input generalizing length with
  | nil => cases found
  | cons byte rest ih =>
      simp only [seekNewline] at found
      split at found
      · next ends =>
          cases found
          cases rest with
          | nil => cases ends.2
          | cons next rest =>
              simp only [List.length_cons]
              omega
      · obtain ⟨before, inRest, same⟩ := Option.map_eq_some_iff.mp found
        have := ih inRest
        simp only [List.length_cons]
        omega

theorem line_eq_done_iff {input text rest : Text} :
    line input = .done text rest ↔
      ∃ length, seekNewline input = some length ∧ text = input.take length ∧
        rest = input.drop (length + 2) := by
  unfold line
  cases found : seekNewline input with
  | none => simp
  | some length =>
      simp only [Parsed.done.injEq, Option.some.injEq]
      constructor
      · rintro ⟨rfl, rfl⟩
        exact ⟨length, rfl, rfl, rfl⟩
      · rintro ⟨_, rfl, rfl, rfl⟩
        exact ⟨rfl, rfl⟩

theorem line_stable : Stable line where
  done {input text rest} found later := by
    obtain ⟨length, newline, rfl, rfl⟩ := line_eq_done_iff.mp found
    have bound := length_of_seekNewline newline
    refine line_eq_done_iff.mpr ⟨length, seekNewline_append newline later, ?_, ?_⟩
    · exact (List.take_append_of_le_length (by omega)).symm
    · exact (List.drop_append_of_le_length bound).symm
  failed {input error} found := by
    unfold line at found
    split at found <;> cases found

theorem line_consumes : Consumes line := by
  intro input text rest found
  obtain ⟨length, newline, -, rfl⟩ := line_eq_done_iff.mp found
  have bound := length_of_seekNewline newline
  rw [List.length_drop]
  omega

theorem typeByte_stable : Stable typeByte where
  done {input type rest} found later := by
    cases input with
    | nil => cases found
    | cons byte left =>
        unfold typeByte at found ⊢
        rw [List.cons_append]
        cases announced : itemType byte with
        | none => simp [announced] at found
        | some announcedType =>
            simp only [announced, Parsed.done.injEq] at found ⊢
            exact ⟨found.1, by rw [found.2]⟩
  failed {input error} found later := by
    cases input with
    | nil => cases found
    | cons byte left =>
        unfold typeByte at found ⊢
        rw [List.cons_append]
        cases announced : itemType byte with
        | none => simpa only [announced] using found
        | some announcedType => simp [announced] at found

theorem typeByte_consumes : Consumes typeByte := by
  intro input type rest found
  cases input with
  | nil => cases found
  | cons byte left =>
      unfold typeByte at found
      cases announced : itemType byte with
      | none => simp [announced] at found
      | some announcedType =>
          simp only [announced, Parsed.done.injEq] at found
          rw [← found.2, List.length_cons]
          exact Nat.lt_succ_self _

theorem counted_stable (count : Nat) : Stable (counted count) where
  done {input text rest} found later := by
    unfold counted at found ⊢
    split at found
    · next enough =>
        cases found
        rw [if_pos (by rw [List.length_append]; omega),
          List.take_append_of_le_length (by omega), List.drop_append_of_le_length enough]
    · cases found
  failed {input error} found := by
    unfold counted at found
    split at found <;> cases found

theorem counted_shrinks (count : Nat) : Shrinks (counted count) := by
  intro input text rest found
  unfold counted at found
  split at found
  · cases found
    rw [List.length_drop]
    omega
  · cases found

theorem shrinks_done {α : Type} (value : α) :
    Shrinks (fun input => (.done value input : Parsed Failure Char α)) := by
  intro input made rest found
  cases found
  exact Nat.le_refl _

theorem shrinks_failed {α : Type} (failure : Failure) :
    Shrinks (fun _ => (.failed failure : Parsed Failure Char α)) := by
  intro input made rest found
  cases found

theorem numberLine_stable : Stable numberLine := by
  refine line_stable.andThen fun text => ?_
  cases readLongLong text with
  | none => exact stable_failed _
  | some value => exact stable_done value

theorem numberLine_consumes : Consumes numberLine := by
  refine line_consumes.andThen fun text => ?_
  cases readLongLong text with
  | none => exact shrinks_failed _
  | some value => exact shrinks_done value

theorem stringOf_stable (length : Int) : Stable (stringOf length) := by
  unfold stringOf
  split
  · exact stable_done _
  · split
    · exact (counted_stable _).andThen fun text => stable_done _
    · exact stable_failed _

theorem stringOf_shrinks (length : Int) : Shrinks (stringOf length) := by
  unfold stringOf
  split
  · exact shrinks_done _
  · split
    · exact (counted_shrinks _).andThen fun text => shrinks_done _
    · exact shrinks_failed _

theorem arrayOf_stable (elements : Int) : Stable (arrayOf elements) := by
  unfold arrayOf
  split
  · exact stable_done _
  · split <;> exact stable_done _

theorem arrayOf_shrinks (elements : Int) : Shrinks (arrayOf elements) := by
  unfold arrayOf
  split
  · exact shrinks_done _
  · split <;> exact shrinks_done _

theorem item_stable (levels : Nat) (type : ItemType) : Stable (item levels type) := by
  cases type with
  | error => exact line_stable.andThen fun text => stable_done _
  | status => exact line_stable.andThen fun text => stable_done _
  | integer => exact numberLine_stable.andThen fun value => stable_done _
  | string => exact numberLine_stable.andThen stringOf_stable
  | array =>
      unfold item
      dsimp only
      split
      · exact stable_failed _
      · exact numberLine_stable.andThen arrayOf_stable

theorem item_consumes (levels : Nat) (type : ItemType) : Consumes (item levels type) := by
  cases type with
  | error => exact line_consumes.andThen fun text => shrinks_done _
  | status => exact line_consumes.andThen fun text => shrinks_done _
  | integer => exact numberLine_consumes.andThen fun value => shrinks_done _
  | string => exact numberLine_consumes.andThen stringOf_shrinks
  | array =>
      unfold item
      dsimp only
      split
      · intro input made rest found
        cases found
      · exact numberLine_consumes.andThen arrayOf_shrinks

theorem object_stable (levels : Nat) : Stable (object levels) :=
  typeByte_stable.andThen (item_stable levels)

theorem object_consumes (levels : Nat) : Consumes (object levels) :=
  typeByte_consumes.andThen fun type => (item_consumes levels type).shrinks

theorem contents_stable (levels : Nat) (made : Object) : Stable (contents levels made) := by
  induction levels generalizing made with
  | zero =>
      cases made with
      | complete made => exact stable_done made
      | container elements => exact stable_failed _
  | succ levels ih =>
      cases made with
      | complete made => exact stable_done made
      | container elements =>
          unfold contents
          split
          · exact (((object_stable levels).andThen ih).times _).andThen fun items =>
              stable_done _
          · exact (object_stable levels).andThen fun _ => stable_failed _

theorem contents_shrinks (levels : Nat) (made : Object) : Shrinks (contents levels made) := by
  induction levels generalizing made with
  | zero =>
      cases made with
      | complete made => exact shrinks_done made
      | container elements => exact shrinks_failed _
  | succ levels ih =>
      cases made with
      | complete made => exact shrinks_done made
      | container elements =>
          unfold contents
          split
          · exact (((object_consumes levels).andThen ih).shrinks.times _).andThen fun items =>
              shrinks_done _
          · exact ((object_consumes levels).andThen fun _ => shrinks_failed _).shrinks

theorem reply_stable (levels : Nat) : Stable (reply levels) :=
  (object_stable levels).andThen (contents_stable levels)

theorem reply_consumes (levels : Nat) : Consumes (reply levels) :=
  (object_consumes levels).andThen (contents_shrinks levels)

end LtramBench.Hiredis
