import LtramBench.Hiredis.Encode

/-!
# Formatting commands

The two ways of `hiredis.c` to write a command: from an array of arguments, and
from a format in which blanks separate the arguments and `%` starts a conversion.
A command is an array of strings, in the format of the replies.

Its length is an `int`, and so are the lengths of an `sds` string: nothing is said of
strings that outgrow it.  There is enough memory, but `malloc` fails for a negative
size.
-/

namespace LtramBench.Hiredis

open LtramBench.Shell LtramBench.Streaming

/-! ## Sizes -/

/-- The loop of `countDigits`. -/
def countDigitsFrom : Nat → Nat → Nat → Nat
  | 0, _, result => result
  | rounds + 1, v, result =>
      if v < 10 then result
      else if v < 100 then result + 1
      else if v < 1000 then result + 2
      else if v < 10000 then result + 3
      else countDigitsFrom rounds (v / 10000) (result + 4)

/-- `countDigits`; every round divides the number. -/
def countDigits (v : Nat) : Nat :=
  countDigitsFrom (v + 1) v 1

/-- `bulklen`. -/
def bulklen (len : Nat) : Nat :=
  1 + countDigits len + 2 + len + 2

/-- A number in an `int`. -/
def int (value : Int) : Int :=
  value.bmod (2 ^ 32)

/-- A C string ends before its first NUL. -/
def cString (text : Text) : Text :=
  text.takeWhile (· ≠ '\x00')

/-! ## From an array of arguments -/

/-- The lengths of the arguments: `argvlen`, or what `strlen` says. -/
def lengthsOf (argv : List Text) : Option (List Nat) → List Nat
  | some argvlen => argvlen
  | none => argv.map fun arg => (cString arg).length

/-- The bytes of the arguments. -/
def argumentsOf (argv : List Text) (argvlen : Option (List Nat)) : List Text :=
  List.zipWith (fun arg len => arg.take len) argv (lengthsOf argv argvlen)

/-- `totlen` after some arguments. -/
def addBulklens (start : Int) (lengths : List Nat) : Int :=
  lengths.foldl (fun totlen len => int (totlen + bulklen len)) start

/-- `totlen` of a command. -/
def totlen (lengths : List Nat) : Int :=
  addBulklens ((1 + countDigits lengths.length + 2 : Nat) : Int) lengths

/-- The result of a formatting function. -/
inductive Formatted (α : Type) where
  | ok (value : α)
  | memoryError
  | formatError
  | undefined
  deriving DecidableEq

/-- One argument at protocol level. -/
def writeArgument (arg : Text) : Text :=
  '$' :: decimal arg.length ++ crlf ++ arg ++ crlf

/-- Build the command at protocol level. -/
def writeCommand (args : List Text) : Text :=
  args.foldl (fun cmd arg => cmd ++ writeArgument arg) ('*' :: decimal args.length ++ crlf)

/-- The command in a buffer of one byte more than `totlen`, and the length that is
returned.  A command of another length is written past the end of the buffer. -/
def framed (args : List Text) (totlen : Int) : Formatted (Text × Int) :=
  if totlen + 1 < 0 then .memoryError
  else if totlen + 1 < 2 ^ 31 ∧ (writeCommand args).length = totlen then
    .ok (writeCommand args, totlen)
  else .undefined

/-- `redisFormatCommandArgv`. -/
def redisFormatCommandArgv (argv : List Text) (argvlen : Option (List Nat)) :
    Formatted (Text × Int) :=
  framed (argumentsOf argv argvlen) (totlen (lengthsOf argv argvlen))

/-! ## `sds.c` -/

/-- `SDS_MAX_PREALLOC`. -/
def sdsMaxPrealloc : Nat := 1024 * 1024

/-- Lengths whose string and the room behind it fit their `int`s. -/
abbrev SdsFits (len : Nat) : Prop :=
  sdsMaxPrealloc + len < 2 ^ 31

/-- `sdsMakeRoomFor`; nothing where a length does not fit. -/
def sdsMakeRoomFor (s : Text) (addlen : Nat) : Option Text :=
  if SdsFits (s.length + addlen) then some s else none

/-- `sdscatlen`. -/
def sdscatlen (s t : Text) : Option Text :=
  (sdsMakeRoomFor s t.length).map (· ++ t)

/-- The digits of a number, the last one first. -/
def reversedDigits : Nat → Nat → Text
  | 0, _ => []
  | rounds + 1, v =>
      Nat.digitChar (v % 10) :: if v / 10 = 0 then [] else reversedDigits rounds (v / 10)

/-- `sdsull2str`. -/
def sdsull2str (v : Nat) : Text :=
  (reversedDigits (v + 1) v).reverse

/-- `sdsll2str`. -/
def sdsll2str (value : Int) : Text :=
  (reversedDigits (value.natAbs + 1) value.natAbs ++ if value < 0 then ['-'] else []).reverse

/-- What `sdscatfmt` takes from its arguments. -/
inductive SdsArg where
  | string (text : Text)
  | sds (text : Text)
  | signed (value : Int)
  | unsigned (value : Nat)

/-- `sdscatfmt`; nothing when an argument is missing or of another kind. -/
def sdscatfmt (s : Text) : Text → List SdsArg → Option Text
  | [], _ => some s
  | '%' :: 's' :: rest, .string text :: args => sdscatfmt (s ++ cString text) rest args
  | '%' :: 'S' :: rest, .sds text :: args => sdscatfmt (s ++ text) rest args
  | '%' :: 'i' :: rest, .signed value :: args => sdscatfmt (s ++ sdsll2str value) rest args
  | '%' :: 'I' :: rest, .signed value :: args => sdscatfmt (s ++ sdsll2str value) rest args
  | '%' :: 'u' :: rest, .unsigned value :: args => sdscatfmt (s ++ sdsull2str value) rest args
  | '%' :: 'U' :: rest, .unsigned value :: args => sdscatfmt (s ++ sdsull2str value) rest args
  | '%' :: 'T' :: rest, .unsigned value :: args => sdscatfmt (s ++ sdsull2str value) rest args
  | '%' :: next :: rest, args =>
      if next ∈ ['s', 'S', 'i', 'I', 'u', 'U', 'T'] then none else sdscatfmt (s ++ [next]) rest args
  | ['%'], _ => none
  | f :: rest, args => sdscatfmt (s ++ [f]) rest args

/-- One argument, appended to a command that has room for it. -/
def sdsArgument (cmd arg : Text) : Option Text :=
  (sdscatfmt cmd "$%T\r\n".toList [.unsigned arg.length]).map (· ++ arg ++ crlf)

/-- The size of a command in an `unsigned long long`. -/
def commandSize (lengths : List Nat) : Nat :=
  1 + countDigits lengths.length + 2 + (lengths.map bulklen).sum

/-- `redisFormatSdsCommandArgv`, with its assertion. -/
def redisFormatSdsCommandArgv (argv : List Text) (argvlen : Option (List Nat)) :
    Option (Text × Int) := do
  let args := argumentsOf argv argvlen
  let totlen := commandSize (lengthsOf argv argvlen)
  let cmd ← sdsMakeRoomFor [] totlen
  let cmd ← sdscatfmt cmd "*%i\r\n".toList [.signed args.length]
  let cmd ← args.foldlM sdsArgument cmd
  if cmd.length = totlen then some (cmd, int totlen) else none

/-! ## Digits -/

theorem length_decimal_of_lt {v : Nat} (small : v < 10) : (decimal v).length = 1 := by
  rw [decimal, Nat.toDigits_of_lt_base small]
  rfl

theorem length_decimal_of_le {v : Nat} (large : 10 ≤ v) :
    (decimal v).length = (decimal (v / 10)).length + 1 := by
  rw [decimal, Nat.toDigits_of_base_le (by decide) large, List.length_append]
  rfl

theorem countDigitsFrom_eq {rounds v : Nat} (enough : v < rounds) (result : Nat) :
    countDigitsFrom rounds v result + 1 = (decimal v).length + result := by
  induction rounds generalizing v result with
  | zero => exact absurd enough (Nat.not_lt_zero _)
  | succ rounds ih =>
      unfold countDigitsFrom
      split
      · next one =>
          rw [length_decimal_of_lt one]
          omega
      · rw [length_decimal_of_le (by omega)]
        split
        · rw [length_decimal_of_lt (by omega)]
          omega
        · rw [length_decimal_of_le (by omega)]
          split
          · rw [length_decimal_of_lt (by omega)]
            omega
          · rw [length_decimal_of_le (by omega)]
            split
            · rw [length_decimal_of_lt (by omega)]
              omega
            · have fewer : v / 10 / 10 / 10 / 10 = v / 10000 := by
                simp only [Nat.div_div_eq_div_mul]
              rw [length_decimal_of_le (by omega), ih (by omega), fewer]
              omega

/-- The digits are counted right, four at a time. -/
theorem countDigits_eq (v : Nat) : countDigits v = (decimal v).length :=
  Nat.succ.inj (countDigitsFrom_eq (Nat.lt_succ_self v) 1)

theorem reversedDigits_eq {rounds v : Nat} (enough : v < rounds) :
    reversedDigits rounds v = (decimal v).reverse := by
  induction rounds generalizing v with
  | zero => exact absurd enough (Nat.not_lt_zero _)
  | succ rounds ih =>
      unfold reversedDigits decimal
      split
      · next last =>
          rw [Nat.toDigits_of_lt_base (by omega), Nat.mod_eq_of_lt (by omega)]
          rfl
      · next more =>
          rw [ih (by omega), Nat.toDigits_of_base_le (by decide) (by omega), List.reverse_append]
          rfl

theorem sdsull2str_eq (v : Nat) : sdsull2str v = decimal v := by
  rw [sdsull2str, reversedDigits_eq (Nat.lt_succ_self v), List.reverse_reverse]

theorem sdsll2str_natCast (v : Nat) : sdsll2str v = decimal v := by
  rw [sdsll2str, if_neg (by omega), List.append_nil, Int.natAbs_natCast]
  exact sdsull2str_eq v

/-! ## The two formatters -/

theorem bulklen_eq (arg : Text) : bulklen arg.length = (writeArgument arg).length := by
  simp only [bulklen, countDigits_eq, writeArgument, crlf, List.cons_append, List.length_cons,
    List.length_append, List.length_nil]
  omega

/-- The size of a command. -/
theorem length_writeCommand (args : List Text) :
    (writeCommand args).length = commandSize (args.map List.length) := by
  have grows : ∀ (rest : List Text) (cmd : Text),
      (rest.foldl (fun cmd arg => cmd ++ writeArgument arg) cmd).length =
        cmd.length + ((rest.map List.length).map bulklen).sum := by
    intro rest
    induction rest with
    | nil => exact fun cmd => rfl
    | cons arg rest ih =>
        intro cmd
        rw [List.foldl_cons, ih, List.map_cons, List.map_cons, List.sum_cons, List.length_append,
          bulklen_eq, Nat.add_assoc]
  have head : ('*' :: decimal args.length ++ crlf).length = 1 + countDigits args.length + 2 := by
    simp only [countDigits_eq, crlf, List.cons_append, List.length_cons, List.length_append,
      List.length_nil]
    omega
  rw [writeCommand, grows, head, commandSize, List.length_map]

theorem int_of_lt {value : Nat} (small : value < 2 ^ 31) : int value = value :=
  Int.bmod_eq_of_le (by omega) (by omega)

/-- A sum that fits is added up right. -/
theorem addBulklens_eq {start : Nat} {lengths : List Nat}
    (small : start + (lengths.map bulklen).sum < 2 ^ 31) :
    addBulklens start lengths = (start + (lengths.map bulklen).sum : Nat) := by
  unfold addBulklens
  induction lengths generalizing start with
  | nil => rfl
  | cons len rest ih =>
      rw [List.map_cons, List.sum_cons, ← Nat.add_assoc] at small ⊢
      have step : int (start + bulklen len) = (start + bulklen len : Nat) :=
        int_of_lt (Nat.lt_of_le_of_lt (Nat.le_add_right _ _) small)
      rw [List.foldl_cons, step]
      exact ih small

theorem totlen_eq {lengths : List Nat} (small : commandSize lengths < 2 ^ 31) :
    totlen lengths = commandSize lengths :=
  addBulklens_eq small

/-- A command that fits an `int` is framed. -/
theorem framed_eq {args : List Text} (fits : SdsFits (writeCommand args).length) :
    framed args (writeCommand args).length =
      .ok (writeCommand args, (writeCommand args).length) := by
  unfold SdsFits sdsMaxPrealloc at fits
  rw [framed, if_neg (by omega), if_pos ⟨by omega, rfl⟩]

/-- The command as a reply. -/
def commandReply (args : List Text) : Reply :=
  .array args.length (args.map .string)

/-- A command is an array of strings. -/
theorem writeCommand_eq_encode (args : List Text) :
    writeCommand args = encode (commandReply args) := by
  have bytes : ∀ (rest : List Text) (cmd : Text),
      rest.foldl (fun cmd arg => cmd ++ writeArgument arg) cmd =
        cmd ++ encodeAll (rest.map .string) := by
    intro rest
    induction rest with
    | nil => exact fun cmd => (List.append_nil cmd).symm
    | cons arg rest ih =>
        intro cmd
        rw [List.foldl_cons, ih, List.map_cons, encodeAll, encode, writeArgument]
        simp only [List.append_assoc, List.cons_append]
  rw [writeCommand, bytes, commandReply, encode, List.length_map]
  rfl

/-- Arguments with their own lengths. -/
theorem argumentsOf_lengths (argv : List Text) :
    argumentsOf argv (some (argv.map List.length)) = argv := by
  unfold argumentsOf lengthsOf
  induction argv with
  | nil => rfl
  | cons arg rest ih => rw [List.map_cons, List.zipWith_cons_cons, List.take_length, ih]

/-- What a caller of the formatters promises: the bytes that `argvlen` counts are
there, and the command fits. -/
structure Callable (argv : List Text) (argvlen : Option (List Nat)) : Prop where
  there : ∀ lengths, argvlen = some lengths →
    List.Forall₂ (fun arg len => len ≤ arg.length) argv lengths
  fits : SdsFits (commandSize (lengthsOf argv argvlen))

section Callable

variable {argv : List Text} {argvlen : Option (List Nat)}

theorem Callable.bounds (callable : Callable argv argvlen) :
    List.Forall₂ (fun arg len => len ≤ arg.length) argv (lengthsOf argv argvlen) := by
  cases argvlen with
  | some lengths => exact callable.there lengths rfl
  | none =>
      refine List.forall₂_map_right_iff.mpr (List.forall₂_same.mpr fun arg _ => ?_)
      exact (List.takeWhile_sublist _).length_le

/-- As many bytes are copied as the lengths say. -/
theorem Callable.lengths (callable : Callable argv argvlen) :
    (argumentsOf argv argvlen).map List.length = lengthsOf argv argvlen := by
  have bounds := callable.bounds
  unfold argumentsOf
  clear callable
  generalize lengthsOf argv argvlen = lengths at bounds
  induction bounds with
  | nil => rfl
  | cons bound _ ih =>
      rw [List.zipWith_cons_cons, List.map_cons, ih, List.length_take, Nat.min_eq_left bound]

theorem Callable.size (callable : Callable argv argvlen) :
    (writeCommand (argumentsOf argv argvlen)).length = commandSize (lengthsOf argv argvlen) := by
  rw [length_writeCommand, callable.lengths]

/-- The length of a command is counted right. -/
theorem redisFormatCommandArgv_eq (callable : Callable argv argvlen) :
    redisFormatCommandArgv argv argvlen =
      .ok (writeCommand (argumentsOf argv argvlen),
        (writeCommand (argumentsOf argv argvlen)).length) := by
  have fits := callable.fits
  rw [← callable.size] at fits
  have counted : totlen (lengthsOf argv argvlen) =
      (writeCommand (argumentsOf argv argvlen)).length := by
    rw [callable.size]
    exact totlen_eq (Nat.lt_of_le_of_lt (Nat.le_add_left _ _) callable.fits)
  rw [redisFormatCommandArgv, counted, framed_eq fits]

/-- The formatter on `sds` strings writes the same command. -/
theorem redisFormatSdsCommandArgv_eq (callable : Callable argv argvlen) :
    redisFormatSdsCommandArgv argv argvlen =
      some (writeCommand (argumentsOf argv argvlen),
        ((writeCommand (argumentsOf argv argvlen)).length : Int)) := by
  have start : ∀ count : Nat, sdscatfmt [] "*%i\r\n".toList [.signed count] =
      some ('*' :: decimal count ++ crlf) := by
    intro count
    have written : sdscatfmt [] "*%i\r\n".toList [.signed count] =
        some (['*'] ++ sdsll2str count ++ ['\r'] ++ ['\n']) := rfl
    rw [written, sdsll2str_natCast, List.append_assoc]
    rfl
  have argument : ∀ cmd arg : Text, sdsArgument cmd arg = some (cmd ++ writeArgument arg) := by
    intro cmd arg
    have written : sdscatfmt cmd "$%T\r\n".toList [.unsigned arg.length] =
        some (cmd ++ ['$'] ++ sdsull2str arg.length ++ ['\r'] ++ ['\n']) := rfl
    rw [sdsArgument, written, sdsull2str_eq, Option.map_some, writeArgument, crlf]
    simp only [List.append_assoc, List.cons_append, List.nil_append]
  have every : ∀ (rest : List Text) (cmd : Text), rest.foldlM sdsArgument cmd =
      some (rest.foldl (fun cmd arg => cmd ++ writeArgument arg) cmd) := by
    intro rest
    induction rest with
    | nil => exact fun cmd => rfl
    | cons arg rest ih =>
        intro cmd
        rw [List.foldlM_cons, argument, Option.bind_eq_bind, Option.bind_some, ih]
        rfl
  have room : sdsMakeRoomFor [] (commandSize (lengthsOf argv argvlen)) = some [] := by
    rw [sdsMakeRoomFor, List.length_nil, Nat.zero_add, if_pos callable.fits]
  have small : commandSize (lengthsOf argv argvlen) < 2 ^ 31 :=
    Nat.lt_of_le_of_lt (Nat.le_add_left _ _) callable.fits
  simp only [redisFormatSdsCommandArgv, room, start, every, Option.bind_eq_bind, Option.bind_some]
  rw [← writeCommand, if_pos callable.size, callable.size, int_of_lt small]

theorem sdscatlen_eq {s t : Text} (fits : SdsFits (s.length + t.length)) :
    sdscatlen s t = some (s ++ t) := by
  rw [sdscatlen, sdsMakeRoomFor, if_pos fits, Option.map_some]

theorem depth_commandReply (args : List Text) : (commandReply args).depth = 1 := by
  have flat : depthAll (args.map Reply.string) = 0 := by
    induction args with
    | nil => rfl
    | cons arg rest ih =>
        rw [List.map_cons, depthAll, ih]
        rfl
  rw [commandReply, Reply.depth, flat]

/-- A command is longer than each of its arguments and than their number. -/
theorem bounds_writeCommand (args : List Text) :
    args.length < (writeCommand args).length ∧
      ∀ arg ∈ args, arg.length + 5 < (writeCommand args).length := by
  have size : (writeCommand args).length =
      1 + countDigits args.length + 2 + (args.map fun arg => bulklen arg.length).sum := by
    rw [length_writeCommand, commandSize, List.length_map, List.map_map]
    rfl
  have each : ∀ rest : List Text, rest.length ≤ (rest.map fun arg => bulklen arg.length).sum ∧
      ∀ arg ∈ rest, arg.length + 5 ≤ (rest.map fun arg => bulklen arg.length).sum := by
    intro rest
    induction rest with
    | nil => exact ⟨Nat.le_refl _, fun _ member => nomatch member⟩
    | cons first rest ih =>
        have own : first.length + 5 ≤ bulklen first.length := by
          unfold bulklen
          omega
        rw [List.map_cons, List.sum_cons, List.length_cons]
        refine ⟨by omega, fun arg member => ?_⟩
        rcases List.mem_cons.mp member with rfl | later
        · omega
        · have bound := ih.2 arg later
          omega
  obtain ⟨count, sizes⟩ := each args
  refine ⟨by omega, fun arg member => ?_⟩
  have bound := sizes arg member
  omega

/-- A command that fits is a reply that can be read. -/
theorem readable_commandReply {args : List Text} (fits : SdsFits (writeCommand args).length) :
    WellFormed (commandReply args) ∧ (commandReply args).depth ≤ maxLevels := by
  unfold SdsFits at fits
  obtain ⟨count, sizes⟩ := bounds_writeCommand args
  refine ⟨?_, by rw [depth_commandReply]; decide⟩
  have size : args.length = (args.map Reply.string).length := (List.length_map _).symm
  rw [commandReply, size]
  refine .array (by rw [← size]; omega) fun made member => ?_
  obtain ⟨arg, isArg, rfl⟩ := List.mem_map.mp member
  have bound := sizes arg isArg
  exact .string (by omega)

end Callable

end LtramBench.Hiredis
