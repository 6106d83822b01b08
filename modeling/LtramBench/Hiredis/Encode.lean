import LtramBench.Hiredis.Stream

/-!
# The bytes of a reply

Replies as a server writes them, and back.  A reply is read from its bytes exactly
when its arrays are not too deep; the reader stops at the first one that is.
-/

namespace LtramBench.Hiredis

open LtramBench.Interaction LtramBench.Shell LtramBench.Streaming

/-! ## Writing -/

/-- The end of a line. -/
def crlf : Text := ['\r', '\n']

mutual

/-- The bytes of a reply. -/
def encode : Reply → Text
  | .error text => '-' :: (text ++ crlf)
  | .status text => '+' :: (text ++ crlf)
  | .integer value => ':' :: (printInt value ++ crlf)
  | .nil => '$' :: (printInt (-1) ++ crlf)
  | .string text => '$' :: (decimal text.length ++ crlf ++ (text ++ crlf))
  | .array _ items => '*' :: (decimal items.length ++ crlf ++ encodeAll items)

/-- Replies one after the other. -/
def encodeAll : List Reply → Text
  | [] => []
  | first :: rest => encode first ++ encodeAll rest

end

mutual

/-- How deep arrays go. -/
def Reply.depth : Reply → Nat
  | .array _ items => depthAll items + 1
  | _ => 0

/-- How deep the deepest of some replies goes. -/
def depthAll : List Reply → Nat
  | [] => 0
  | first :: rest => max first.depth (depthAll rest)

end

/-- A reply that the protocol can carry: lines without a line end in them, numbers
that fit, and an array with as many items as it says. -/
inductive WellFormed : Reply → Prop
  | error {text : Text} (oneLine : seekNewline text = none) : WellFormed (.error text)
  | status {text : Text} (oneLine : seekNewline text = none) : WellFormed (.status text)
  | integer {value : Int} (fits : value.natAbs < 2 ^ 63) : WellFormed (.integer value)
  | nil : WellFormed .nil
  | string {text : Text} (fits : text.length + 2 < 2 ^ 63) : WellFormed (.string text)
  | array {items : List Reply} (fits : items.length < 2 ^ 31)
      (each : ∀ made ∈ items, WellFormed made) : WellFormed (.array items.length items)

/-! ## Lines and numbers -/

theorem seekNewline_of_not_mem {text : Text} (absent : '\r' ∉ text) : seekNewline text = none := by
  induction text with
  | nil => rfl
  | cons byte rest ih =>
      rw [List.mem_cons, not_or] at absent
      rw [seekNewline, if_neg fun ends => absent.1 ends.1.symm, ih absent.2]
      rfl

theorem seekNewline_crlf {text : Text} (oneLine : seekNewline text = none) (later : Text) :
    seekNewline (text ++ (crlf ++ later)) = some text.length := by
  induction text with
  | nil => rfl
  | cons byte rest ih =>
      rw [seekNewline] at oneLine
      split at oneLine
      · cases oneLine
      · next goes =>
          have inRest : seekNewline rest = none := Option.map_eq_none_iff.mp oneLine
          have still : ¬ (byte = '\r' ∧ (rest ++ (crlf ++ later)).head? = some '\n') := by
            cases rest with
            | nil => exact fun ends => absurd ends.2 (by simp [crlf])
            | cons next rest => exact goes
          rw [List.cons_append, seekNewline, if_neg still, ih inRest]
          rfl

theorem line_crlf {text : Text} (oneLine : seekNewline text = none) (later : Text) :
    line (text ++ (crlf ++ later)) = .done text later := by
  rw [line_of_seekNewline (seekNewline_crlf oneLine later), List.take_left', ← List.append_assoc]
  · rw [List.drop_left']
    simp [crlf]
  · rfl

theorem le_ofDigitChars (digits : Text) (start : Nat) :
    start ≤ Nat.ofDigitChars 10 digits start := by
  induction digits generalizing start with
  | nil => exact Nat.le_refl _
  | cons digit digits ih =>
      rw [Nat.ofDigitChars_cons]
      exact Nat.le_trans (by omega) (ih _)

/-- Digits are read as their number as long as it fits. -/
theorem readDigits_of_digits {digits : Text} (all : ∀ char ∈ digits, char.isDigit = true)
    {start : Nat} (fits : Nat.ofDigitChars 10 digits start < 2 ^ 63) :
    readDigits start digits = some (Nat.ofDigitChars 10 digits start : Int) := by
  induction digits generalizing start with
  | nil => rfl
  | cons digit digits ih =>
      have isDigit : digit.isDigit = true := all digit List.mem_cons_self
      have goesOn : digit ≠ '\r' := by
        rintro rfl
        cases isDigit
      rw [Nat.ofDigitChars_cons, Nat.mul_comm] at fits ⊢
      have bound := Nat.lt_of_le_of_lt (le_ofDigitChars digits _) fits
      unfold readDigits
      rw [if_neg goesOn, if_pos isDigit]
      dsimp only
      rw [if_pos bound]
      exact ih (fun char member => all char (List.mem_cons_of_mem _ member)) fits

theorem readDigits_decimal {value : Nat} (fits : value < 2 ^ 63) :
    readDigits 0 (decimal value) = some (value : Int) := by
  have back : Nat.ofDigitChars 10 (decimal value) 0 = value := Nat.ofDigitChars_ten_toDigits
  have read := readDigits_of_digits (fun char member => isDigit_of_mem_decimal member)
    (show Nat.ofDigitChars 10 (decimal value) 0 < 2 ^ 63 by rwa [back])
  rwa [back] at read

theorem readLongLong_decimal {value : Nat} (fits : value < 2 ^ 63) :
    readLongLong (decimal value) = some (value : Int) := by
  have unsigned := readSign_decimal value []
  rw [List.append_nil] at unsigned
  have natural : (value : Int) ≠ -1 := by omega
  unfold readLongLong
  simp only [unsigned, readDigits_decimal fits, if_neg natural, Bool.false_eq_true, if_false]

/-- A number that fits is read back. -/
theorem readLongLong_printInt {value : Int} (fits : value.natAbs < 2 ^ 63) :
    readLongLong (printInt value) = some value := by
  cases value with
  | ofNat value => exact readLongLong_decimal fits
  | negSucc value =>
      have natural : ((value + 1 : Nat) : Int) ≠ -1 := by omega
      have read : readDigits 0 (decimal (value + 1)) = some ((value + 1 : Nat) : Int) :=
        readDigits_decimal fits
      unfold readLongLong
      simp only [printInt, readSign, read, if_neg natural, if_true]
      rfl

theorem cr_not_mem_decimal (value : Nat) : '\r' ∉ decimal value :=
  not_mem_decimal rfl value

theorem cr_not_mem_printInt (value : Int) : '\r' ∉ printInt value := by
  cases value with
  | ofNat value => exact cr_not_mem_decimal value
  | negSucc value =>
      rw [printInt, List.mem_cons, not_or]
      exact ⟨by decide, cr_not_mem_decimal _⟩

theorem numberLine_printInt {value : Int} (fits : value.natAbs < 2 ^ 63) (later : Text) :
    numberLine (printInt value ++ (crlf ++ later)) = .done value later := by
  unfold numberLine
  rw [line_crlf (seekNewline_of_not_mem (cr_not_mem_printInt value)), andThen_done,
    readLongLong_printInt fits]

theorem numberLine_decimal {value : Nat} (fits : value < 2 ^ 63) (later : Text) :
    numberLine (decimal value ++ (crlf ++ later)) = .done (value : Int) later := by
  have printed : printInt (value : Int) = decimal value := rfl
  rw [← printed]
  exact numberLine_printInt (by simpa using fits) later

/-! ## Reading -/

theorem object_of_typeByte (levels : Nat) {byte : Char} {type : ItemType}
    (announced : itemType byte = some type) (rest : Text) :
    object levels (byte :: rest) = item levels type rest := by
  simp only [object, typeByte, announced, andThen_done]

theorem counted_crlf (text later : Text) :
    counted text.length (text ++ (crlf ++ later)) = .done text later := by
  unfold counted
  rw [if_pos (by simp [crlf]), List.take_left', ← List.append_assoc, List.drop_left']
  · simp [crlf]
  · rfl

theorem stringOf_length {text : Text} (fits : text.length + 2 < 2 ^ 63) (later : Text) :
    stringOf text.length (text ++ (crlf ++ later)) =
      .done (.complete (.string text)) later := by
  have natural : ¬ (text.length : Int) < 0 := by omega
  have small : (text.length : Int) + 2 < 2 ^ 63 := by omega
  rw [stringOf, if_neg natural, if_pos small, Int.toNat_natCast, counted_crlf]
  rfl

theorem reply_of_complete {levels : Nat} {input rest : Text} {made : Reply}
    (found : object levels input = .done (.complete made) rest) :
    reply levels input = .done made rest := by
  unfold reply
  rw [found, andThen_done]
  cases levels <;> rfl

theorem toInt_natCast {count : Nat} (fits : count < 2 ^ 31) : toInt count = count := by
  unfold toInt
  rw [Int.bmod_eq_of_le] <;> omega

section Items

variable {levels : Nat}

/-- Items that are each read, or one of them not. -/
theorem times_encodeAll {items : List Reply}
    (each : ∀ made ∈ items, ∀ later, reply levels (encode made ++ later) =
      if made.depth ≤ levels then .done made later else .failed tooDeep) (later : Text) :
    times (reply levels) items.length (encodeAll items ++ later) =
      if depthAll items ≤ levels then .done items later else .failed tooDeep := by
  induction items with
  | nil => simp [encodeAll, depthAll]
  | cons first rest ih =>
      have others := ih fun made member => each made (List.mem_cons_of_mem _ member)
      rw [List.length_cons, times_succ, encodeAll, List.append_assoc,
        each first List.mem_cons_self]
      by_cases shallow : first.depth ≤ levels
      · rw [if_pos shallow, andThen_done, others]
        by_cases restShallow : depthAll rest ≤ levels
        · rw [if_pos restShallow, andThen_done, if_pos (by simp [depthAll, shallow, restShallow])]
        · rw [if_neg restShallow, andThen_failed, if_neg (by simp [depthAll, restShallow])]
      · rw [if_neg shallow, andThen_failed, if_neg (by simp [depthAll, shallow])]

/-- The head line of an array. -/
theorem object_array {items : List Reply} (fits : items.length < 2 ^ 31) (later : Text) :
    object (levels + 1) (encode (.array items.length items) ++ later) =
      if items = [] then .done (.complete (.array 0 [])) later
      else .done (.container items.length) (encodeAll items ++ later) := by
  have head : numberLine (decimal items.length ++ (crlf ++ (encodeAll items ++ later))) =
      .done (items.length : Int) (encodeAll items ++ later) :=
    numberLine_decimal (by omega) _
  rw [encode, List.cons_append, object_of_typeByte _ rfl]
  simp only [item, Nat.succ_ne_zero, if_false, List.append_assoc, head, andThen_done, arrayOf]
  cases items with
  | nil => rfl
  | cons first rest =>
      have positive : (0 : Int) < (first :: rest).length := by
        simp only [List.length_cons]
        omega
      rw [if_neg (by omega), if_pos positive, if_neg (List.cons_ne_nil _ _)]

theorem reply_of_flat {input rest : Text} {made : Reply} (flat : made.depth = 0)
    (found : object levels input = .done (.complete made) rest) :
    reply levels input = if made.depth ≤ levels then .done made rest else .failed tooDeep := by
  rw [if_pos (flat ▸ Nat.zero_le _)]
  exact reply_of_complete found

/-- The bytes of a reply are read as that reply, unless its arrays are too deep. -/
theorem reply_encode {made : Reply} (wellFormed : WellFormed made) (later : Text) :
    reply levels (encode made ++ later) =
      if made.depth ≤ levels then .done made later else .failed tooDeep := by
  induction wellFormed generalizing levels later with
  | error oneLine =>
      refine reply_of_flat rfl ?_
      rw [encode, List.cons_append, object_of_typeByte _ rfl]
      simp only [item, lineItem, List.append_assoc, line_crlf oneLine, andThen_done]
  | status oneLine =>
      refine reply_of_flat rfl ?_
      rw [encode, List.cons_append, object_of_typeByte _ rfl]
      simp only [item, lineItem, List.append_assoc, line_crlf oneLine, andThen_done]
  | integer fits =>
      refine reply_of_flat rfl ?_
      rw [encode, List.cons_append, object_of_typeByte _ rfl]
      simp only [item, List.append_assoc, numberLine_printInt fits, andThen_done]
  | nil =>
      refine reply_of_flat rfl ?_
      have number := numberLine_printInt (show (-1 : Int).natAbs < 2 ^ 63 by decide) later
      rw [encode, List.cons_append, object_of_typeByte _ rfl]
      simp only [item, List.append_assoc, number, andThen_done, stringOf, Int.reduceNeg,
        Int.reduceLT, if_true]
  | string fits =>
      refine reply_of_flat rfl ?_
      rename_i text
      have number := numberLine_decimal (Nat.lt_of_le_of_lt (Nat.le_add_right _ 2) fits)
      rw [encode, List.cons_append, object_of_typeByte _ rfl]
      simp only [item, List.append_assoc]
      rw [number, andThen_done, stringOf_length fits]
  | array fits each ih =>
      rename_i items
      cases levels with
      | zero =>
          rw [if_neg (by simp [Reply.depth]), encode, List.cons_append]
          unfold reply
          rw [object_of_typeByte _ rfl]
          rfl
      | succ levels =>
          have deeper : (Reply.array items.length items).depth ≤ levels + 1 ↔
              depthAll items ≤ levels := by
            simp [Reply.depth]
          have head : object (levels + 1) _ = _ := object_array fits later
          simp only [deeper]
          cases items with
          | nil =>
              rw [if_pos rfl] at head
              have flat : depthAll [] ≤ levels := Nat.zero_le _
              rw [if_pos flat]
              exact reply_of_complete head
          | cons first rest =>
              have size := toInt_natCast fits
              have positive : 0 < toInt (first :: rest).length := by
                rw [size, List.length_cons]
                omega
              rw [if_neg (List.cons_ne_nil _ _)] at head
              unfold reply
              rw [head, andThen_done, contents_container, if_pos positive, size,
                Int.toNat_natCast, times_encodeAll fun made member later => ih made member later]
              by_cases shallow : depthAll (first :: rest) ≤ levels
              · rw [if_pos shallow, if_pos shallow, andThen_done]
              · rw [if_neg shallow, if_neg shallow, andThen_failed]

end Items

/-! ## Whole streams -/

/-- Replies that the reader can read. -/
def Readable (replies : List Reply) : Prop :=
  ∀ made ∈ replies, WellFormed made ∧ made.depth ≤ maxLevels

theorem decode_encodeAll {replies : List Reply} (readable : Readable replies) (rest : Text) :
    decode (reply maxLevels) (encodeAll replies ++ rest) =
      (replies ++ (decode (reply maxLevels) rest).1, (decode (reply maxLevels) rest).2) := by
  induction replies with
  | nil => rfl
  | cons first others ih =>
      obtain ⟨wellFormed, shallow⟩ := readable first List.mem_cons_self
      have found : reply maxLevels (encode first ++ (encodeAll others ++ rest)) =
          .done first (encodeAll others ++ rest) := by
        rw [reply_encode wellFormed, if_pos shallow]
      have remaining := ih fun made member => readable made (List.mem_cons_of_mem _ member)
      rw [encodeAll, List.append_assoc, decode_of_done (reply_consumes _) found, remaining]
      rfl

theorem decode_nil : decode (reply maxLevels) [] = ([], .pending []) :=
  decode_of_more rfl

/-- The bytes of replies mean these replies. -/
theorem decode_whole {replies : List Reply} (readable : Readable replies) :
    decode (reply maxLevels) (encodeAll replies) = (replies, .pending []) := by
  have decoded := decode_encodeAll readable []
  rwa [List.append_nil, decode_nil, List.append_nil] at decoded

/-- A client that feeds the bytes of some replies, cut anywhere, gets these replies
back in order and never an error, and all of them when it asks until there is
none. -/
theorem reader_reads_back {replies : List Reply} (readable : Readable replies) {α : Type}
    (client : Program (readerInterface Failure Char Reply) α)
    (sent : fed (readerMachine.run client Reader.create).trace <+: encodeAll replies) :
    values (readerMachine.run client Reader.create).trace <+: replies ∧
      (∀ failure, ⟨.next, .error failure⟩ ∉ (readerMachine.run client Reader.create).trace) ∧
      (fed (readerMachine.run client Reader.create).trace = encodeAll replies →
        Drained (readerMachine.run client Reader.create).trace →
        values (readerMachine.run client Reader.create).trace = replies) := by
  obtain ⟨front, drained, failed⟩ := reader_gives_front client
  generalize (readerMachine.run client Reader.create).trace = trace at *
  have all := decode_whole readable
  obtain ⟨gave, left, isFront, meaning⟩ :=
    decode_front (reply_stable _) (reply_consumes _) sent all
  refine ⟨?_, fun failure reported => ?_, fun complete waits => ?_⟩
  · rw [meaning] at front
    exact front.trans isFront
  · cases congrArg Prod.snd ((failed failure reported).symm.trans meaning)
  · obtain ⟨rest, last⟩ := drained waits
    rw [complete, all] at last
    exact (congrArg Prod.fst last).symm

theorem reader_reads_back_two :
    values (readerMachine.run (script [.feed "+OK\r\n$2\r".toList, .next, .feed "\nab\r\n".toList,
      .next, .next]) Reader.create).trace = [.status "OK".toList, .string "ab".toList] := by
  have readable : Readable [.status "OK".toList, .string "ab".toList] := by
    intro made member
    rcases List.mem_pair.mp member with rfl | rfl
    · exact ⟨.status (by decide), by decide⟩
    · exact ⟨.string (by decide), by decide⟩
  have sent : fed (readerMachine.run (script [.feed "+OK\r\n$2\r".toList, .next,
      .feed "\nab\r\n".toList, .next, .next]) Reader.create).trace =
        encodeAll [.status "OK".toList, .string "ab".toList] := by
    decide
  have all := (reader_reads_back readable (script [.feed "+OK\r\n$2\r".toList, .next,
      .feed "\nab\r\n".toList, .next, .next]) (sent ▸ List.prefix_refl _)).2.2
  exact all sent ⟨_, List.dropLast_append_getLast? _ rfl |>.symm⟩

/-- A reply with too many arrays inside each other ends the stream: the client gets
the replies in front of it, then only the error.  Once it has fed that reply, it is
never told to wait. -/
theorem reader_stops_at_deep {replies : List Reply} (readable : Readable replies) {deep : Reply}
    (wellFormed : WellFormed deep) (tooManyLevels : maxLevels < deep.depth) (later : Text)
    {α : Type} (client : Program (readerInterface Failure Char Reply) α)
    (sent : fed (readerMachine.run client Reader.create).trace <+:
      encodeAll replies ++ (encode deep ++ later)) :
    values (readerMachine.run client Reader.create).trace <+: replies ∧
      (encodeAll replies ++ encode deep <+: fed (readerMachine.run client Reader.create).trace →
        ¬ Drained (readerMachine.run client Reader.create).trace) ∧
      ∀ failure, ⟨.next, .error failure⟩ ∈ (readerMachine.run client Reader.create).trace →
        failure = tooDeep ∧ values (readerMachine.run client Reader.create).trace = replies := by
  obtain ⟨front, drained, failed⟩ := reader_gives_front client
  obtain ⟨fewer, fails⟩ := decode_prefix (reply_stable maxLevels) (reply_consumes _) sent
  generalize (readerMachine.run client Reader.create).trace = trace at *
  have stops : ∀ rest, decode (reply maxLevels) (encodeAll replies ++ (encode deep ++ rest)) =
      (replies, .failed tooDeep) := by
    intro rest
    have found : reply maxLevels (encode deep ++ rest) = .failed tooDeep := by
      rw [reply_encode wellFormed, if_neg (Nat.not_le_of_lt tooManyLevels)]
    rw [decode_encodeAll readable, decode_of_failed found, List.append_nil]
  refine ⟨?_, fun complete waits => ?_, fun failure reported => ?_⟩
  · rw [stops] at fewer
    exact front.trans fewer
  · obtain ⟨rest, last⟩ := drained waits
    obtain ⟨after, all⟩ := complete
    rw [List.append_assoc] at all
    rw [← all, stops] at last
    cases congrArg Prod.snd last
  · have meaning := (fails _ _ (failed failure reported)).symm.trans (stops later)
    exact ⟨Ending.failed.inj (congrArg Prod.snd meaning), congrArg Prod.fst meaning⟩

/-- Arrays of one item inside each other. -/
def nestedArrays : Nat → Reply
  | 0 => .nil
  | levels + 1 => .array 1 [nestedArrays levels]

theorem nestedArrays_wellFormed (levels : Nat) : WellFormed (nestedArrays levels) := by
  induction levels with
  | zero => exact .nil
  | succ levels ih =>
      refine @WellFormed.array [nestedArrays levels]
        (Nat.one_lt_two_pow (by decide)) fun made member => ?_
      rw [List.mem_singleton.mp member]
      exact ih

theorem nestedArrays_depth (levels : Nat) : (nestedArrays levels).depth = levels := by
  induction levels with
  | zero => rfl
  | succ levels ih =>
      simp only [nestedArrays, Reply.depth, depthAll, ih]
      omega

theorem reader_stops_at_deep_nine :
    ¬ Drained (readerMachine.run (script [.feed (encode (nestedArrays 9)), .next])
      Reader.create).trace := by
  have sent : fed (readerMachine.run (script [.feed (encode (nestedArrays 9)), .next])
      Reader.create).trace = encodeAll [] ++ (encode (nestedArrays 9) ++ []) := by
    decide
  refine (reader_stops_at_deep (fun _ member => absurd member List.not_mem_nil)
    (nestedArrays_wellFormed 9) (by rw [nestedArrays_depth]; decide) []
    (script [.feed (encode (nestedArrays 9)), .next]) (sent ▸ List.prefix_refl _)).2.1 ?_
  rw [sent, List.append_nil]

end LtramBench.Hiredis
