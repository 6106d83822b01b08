import LtramBench.Ycsb.Progress

/-!
# The database as a store of records

An update is sent as it is meant exactly when nothing in it has a meaning for the
formatter.  With a server that keeps hashes as the commands say, the calls of a
session then read and write one store of records.
-/

namespace LtramBench.Ycsb

open LtramBench.Hiredis LtramBench.Interaction LtramBench.Shell LtramBench.Streaming

/-! ## Which updates are sent as they are meant -/

/-- The key and the fields and values of an update. -/
def updatePieces (key : Text) (values : List KVPair) : List Text :=
  key :: values.flatMap fun p => [p.1, p.2]

/-- What an update means to send. -/
def updateArguments (key : Text) (values : List KVPair) : List Text :=
  "HMSET".toList :: updatePieces key values

theorem joined_append_cons (separator : Char) {parts : List Text} (nonempty : parts ≠ [])
    (part : Text) (rest : List Text) :
    joined separator (parts ++ part :: rest) =
      joined separator parts ++ separator :: joined separator (part :: rest) := by
  induction parts with
  | nil => exact absurd rfl nonempty
  | cons first others ih =>
      cases others with
      | nil =>
          rw [joined_singleton]
          exact joined_cons_cons separator first part rest
      | cons second others =>
          have tail := ih (List.cons_ne_nil second others)
          rw [List.cons_append] at tail
          rw [List.cons_append, List.cons_append, joined_cons_cons, tail, joined_cons_cons]
          simp only [List.append_assoc, List.cons_append]

/-- The loop over the values puts them behind a text of arguments. -/
theorem foldl_joined {parts : List Text} (nonempty : parts ≠ []) (values : List KVPair) :
    values.foldl (fun cmd p => cmd ++ ' ' :: p.1 ++ ' ' :: p.2) (joined ' ' parts) =
      joined ' ' (parts ++ values.flatMap fun p => [p.1, p.2]) := by
  induction values generalizing parts with
  | nil => simp only [List.foldl_nil, List.flatMap_nil, List.append_nil]
  | cons p rest ih =>
      have step : joined ' ' parts ++ ' ' :: p.1 ++ ' ' :: p.2 =
          joined ' ' (parts ++ [p.1, p.2]) := by
        rw [joined_append_cons ' ' nonempty, joined_cons_cons, joined_singleton]
        simp only [List.append_assoc, List.cons_append]
      rw [List.foldl_cons, step, ih (by simp), List.flatMap_cons, List.append_assoc]

/-- `len` counts what the loop appends. -/
theorem foldl_length (values : List KVPair) (cmd : Text) :
    (values.foldl (fun cmd p => cmd ++ ' ' :: p.1 ++ ' ' :: p.2) cmd).length =
      values.foldl (fun len p => len + (p.1.length + p.2.length + 2)) cmd.length := by
  induction values generalizing cmd with
  | nil => rfl
  | cons p rest ih =>
      rw [List.foldl_cons, List.foldl_cons, ih]
      congr 1
      simp only [List.length_append, List.length_cons]
      omega

/-- The text of an update is its arguments with blanks between them. -/
theorem updateText_eq (key : Text) (values : List KVPair) :
    updateText key values = joined ' ' (updateArguments key values) := by
  have start : "HMSET".toList ++ ' ' :: key = joined ' ' ["HMSET".toList, key] := by
    rw [joined_cons_cons, joined_singleton]
  rw [updateText, start, foldl_joined (List.cons_ne_nil _ _)]
  rfl

/-- The assertion about the length of the text holds. -/
theorem length_updateText (key : Text) (values : List KVPair) :
    (updateText key values).length = updateLength key values := by
  have start : ("HMSET".toList ++ ' ' :: key).length = "HMSET".toList.length + key.length + 1 := by
    rw [List.length_append, List.length_cons]
    omega
  rw [updateText, foldl_length, start, updateLength]

theorem updateCommand_eq (key : Text) (values : List KVPair) :
    updateCommand key values =
      if ∀ p ∈ values, ' ' ∉ p.1 ∧ ' ' ∉ p.2 then
        some (joined ' ' (updateArguments key values)) else none := by
  simp only [updateCommand, length_updateText, and_true, List.all_eq_true, decide_eq_true_eq]
  rw [updateText_eq]

theorem sentFormat_eq_some_iff {vsnprintf : Text → VaArg → Text} {format : Text}
    {args : List VaArg} {argv : List Text} :
    sentFormat vsnprintf format args = some argv ↔
      ∃ b, formatArguments vsnprintf format args = .ok b ∧ b.curargv = argv := by
  unfold sentFormat
  constructor
  · intro sent
    split at sent
    · next b formatted => exact ⟨b, formatted, Option.some.inj sent⟩
    · cases sent
  · rintro ⟨b, formatted, rfl⟩
    rw [formatted]

theorem updatePieces_of_mem {key : Text} {values : List KVPair} {p : KVPair}
    (member : p ∈ values) :
    p.1 ∈ updatePieces key values ∧ p.2 ∈ updatePieces key values := by
  have own : ∀ piece ∈ [p.1, p.2], piece ∈ updatePieces key values := fun piece isOwn =>
    List.mem_cons_of_mem key (List.mem_flatMap.mpr ⟨p, member, isOwn⟩)
  exact ⟨own p.1 (by simp), own p.2 (by simp)⟩

/-- The text of an update is cut into its arguments again exactly when every piece
is a word of its own and no percent sign is read as a conversion. -/
theorem sentFormat_update_iff {vsnprintf : Text → VaArg → Text} {key : Text}
    {values : List KVPair} :
    sentFormat vsnprintf (joined ' ' (updateArguments key values)) [] =
        some (updateArguments key values) ↔
      (∀ piece ∈ updatePieces key values, piece ≠ [] ∧ ' ' ∉ piece ∧ '\x00' ∉ piece) ∧
        '%' ∉ (joined ' ' (updateArguments key values)).dropLast := by
  have verb : ("HMSET".toList : Text) ≠ [] ∧ ' ' ∉ "HMSET".toList ∧ '\x00' ∉ "HMSET".toList := by
    decide
  have whole := formatArguments_joined_iff vsnprintf (updateArguments key values)
  rw [← sentFormat_eq_some_iff, updateArguments, List.forall_mem_cons, and_iff_right verb,
    ← updateArguments] at whole
  exact whole

/-- Where the assertions of the loop hold, a call sends what its text is cut into. -/
theorem argumentsSent_update {vsnprintf : Text → VaArg → Text} {slaves : Int} {key : Text}
    {values : List KVPair} {argv : List Text}
    (solid : ∀ p ∈ values, ' ' ∉ p.1 ∧ ' ' ∉ p.2)
    (formatted : sentFormat vsnprintf (joined ' ' (updateArguments key values)) [] = some argv) :
    argumentsSent vsnprintf slaves (.update key values) =
      some (argv :: waitArguments slaves) := by
  rw [argumentsSent, updateCommand_eq, if_pos solid, Option.bind_some, formatted]
  rfl

theorem argumentsSent_update_of_clean {vsnprintf : Text → VaArg → Text} {slaves : Int}
    {key : Text} {values : List KVPair}
    (clean : ∀ piece ∈ updatePieces key values, piece ≠ [] ∧ ' ' ∉ piece ∧ '\x00' ∉ piece)
    (plain : '%' ∉ (joined ' ' (updateArguments key values)).dropLast) :
    argumentsSent vsnprintf slaves (.update key values) =
      some (updateArguments key values :: waitArguments slaves) := by
  -- the assertions of the loop hold when the pieces have no blanks
  have solid : ∀ p ∈ values, ' ' ∉ p.1 ∧ ' ' ∉ p.2 := by
    intro p member
    obtain ⟨field, value⟩ := @updatePieces_of_mem key values p member
    exact ⟨(clean p.1 field).2.1, (clean p.2 value).2.1⟩
  exact argumentsSent_update solid (sentFormat_update_iff.mpr ⟨clean, plain⟩)

/-- The records of a database. -/
abbrev Records := Text → Record

namespace Records

/-- No records. -/
def empty : Records := fun _ => Record.empty

/-- What a command does to the hashes of a server. -/
def serve (records : Records) : List Text → Records
  | verb :: key :: rest =>
      if verb = "HMSET".toList then setAll records key rest
      else if verb = "DEL".toList then Function.update records key Record.empty
      else records
  | _ => records
where
  setAll (records : Records) (key : Text) : List Text → Records
    | field :: value :: rest =>
        setAll (Function.update records key
          (Function.update (records key) field (some value))) key rest
    | _ => records

end Records

/-- The answer to `HMGET`. -/
def valuesReply (record : Record) (fields : List Text) : Reply :=
  .array fields.length (fields.map fun field => ((record field).map Reply.string).getD .nil)

/-- The answer to `HGETALL`. -/
def entriesReply (entries : List KVPair) : Reply :=
  .array (2 * entries.length) (entries.flatMap fun p => [.string p.1, .string p.2])

/-- What the documentation of the server says of the answer to a command that reads. -/
def Documented (records : Records) : List Text → Reply → Prop
  | [verb, key], made => verb = "HGETALL".toList →
      ∃ entries, (records key).Lists entries ∧ made = entriesReply entries
  | verb :: key :: fields, made => verb = "HMGET".toList →
      made = valuesReply (records key) fields
  | _, _ => True

/-! ## The calls as calls of a store -/

namespace Operation

/-- What a call does to the records. -/
def effect : Operation → Records → Records
  | .read _ _, records | .scan _ _ _, records => records
  | .update key values, records | .insert key values, records =>
      Function.update records key ((records key).write values)
  | .delete key, records => Function.update records key Record.empty

/-- What a call returns: a field that is missing has an empty value. -/
def Gives (records : Records) : Operation → List KVPair → Prop
  | .read key (some fields), result =>
      result = fields.map fun field => (field, ((records key) field).getD [])
  | .read key none, result => (records key).Lists result
  | _, result => result = []

/-- The commands that a call means. -/
def intended (slaves : Int) : Operation → List (List Text)
  | .read key (some fields) => ["HMGET".toList :: key :: fields]
  | .read key none => [["HGETALL".toList, key]]
  | .scan _ _ _ => []
  | .update key values | .insert key values =>
      updateArguments key values :: waitArguments slaves
  | .delete key => ["DEL".toList, key] :: waitArguments slaves

/-- The calls that the server has an answer to, and what they write ends where it
ends in C. -/
def Clean : Operation → Prop
  | .read _ (some fields) => fields ≠ []
  | .read _ none => True
  | .scan _ _ _ => False
  | .update _ values | .insert _ values => ∀ p ∈ values, '\x00' ∉ p.1 ∧ '\x00' ∉ p.2
  | .delete _ => True

/-- The calls whose command is the one they mean. -/
def Sendable : Operation → Prop
  | .read _ (some fields) => fields ≠ []
  | .read key none => '\x00' ∉ key
  | .scan _ _ _ => False
  | .update key values | .insert key values =>
      (∀ piece ∈ updatePieces key values, piece ≠ [] ∧ ' ' ∉ piece ∧ '\x00' ∉ piece) ∧
        '%' ∉ (joined ' ' (updateArguments key values)).dropLast
  | .delete key => (key ≠ [] ∧ ' ' ∉ key ∧ '\x00' ∉ key) ∧ '%' ∉ (deleteCommand key).dropLast

end Operation

/-- The results of a session are those of a store of records. -/
def SessionGives : Records → List Operation → List (List KVPair) → Prop
  | _, [], results => results = []
  | records, operation :: rest, result :: results =>
      operation.Gives records result ∧ SessionGives (operation.effect records) rest results
  | _, _ :: _, [] => False

/-- A call that does what another one means. -/
structure Means (vsnprintf : Text → VaArg → Text) (slaves : Int) (call meant : Operation) :
    Prop where
  sent : argumentsSent vsnprintf slaves call = some (meant.intended slaves)
  result : ∀ made, resultOf call made = resultOf meant made
  clean : meant.Clean

/-! ### What the server keeps is what the calls mean -/

section Server

variable {vsnprintf : Text → VaArg → Text} {slaves : Int} {records : Records}

theorem setAll_pieces (key : Text) (values : List KVPair) :
    Records.serve.setAll records key (values.flatMap fun p => [p.1, p.2]) =
      Function.update records key ((records key).write values) := by
  induction values generalizing records with
  | nil => exact (Function.update_eq_self key records).symm
  | cons p rest ih =>
      rw [List.flatMap_cons]
      change Records.serve.setAll _ key (rest.flatMap fun p => [p.1, p.2]) = _
      rw [ih, Function.update_self, Function.update_idem]
      rfl

theorem serve_update (key : Text) (values : List KVPair) :
    records.serve (updateArguments key values) =
      Function.update records key ((records key).write values) :=
  setAll_pieces key values

/-- The `WAIT` changes nothing. -/
theorem foldl_serve_wait : (waitArguments slaves).foldl Records.serve records = records := by
  unfold waitArguments
  split <;> rfl

theorem argumentsSent_of_sendable {operation : Operation} (sendable : operation.Sendable) :
    argumentsSent vsnprintf slaves operation = some (operation.intended slaves) := by
  cases operation with
  | read key fields =>
      cases fields with
      | some fields => rfl
      | none =>
          rw [argumentsSent, cString_of_not_mem sendable]
          rfl
  | scan key len fields => exact sendable.elim
  | update key values => exact argumentsSent_update_of_clean sendable.1 sendable.2
  | insert key values => exact argumentsSent_update_of_clean sendable.1 sendable.2
  | delete key =>
      have text : deleteCommand key = joined ' ' ["DEL".toList, key] := by
        rw [joined_cons_cons, joined_singleton]
        rfl
      have formatted := (formatArguments_joined_iff vsnprintf ["DEL".toList, key]).mpr
        ⟨by
          rw [List.forall_mem_cons]
          exact ⟨by decide, fun piece member => List.mem_singleton.mp member ▸ sendable.1⟩,
          text ▸ sendable.2⟩
      rw [argumentsSent, text, sentFormat_eq_some_iff.mpr formatted]
      rfl

theorem updatePieces_clean {key : Text} {values : List KVPair}
    (clean : ∀ piece ∈ updatePieces key values, piece ≠ [] ∧ ' ' ∉ piece ∧ '\x00' ∉ piece) :
    ∀ p ∈ values, '\x00' ∉ p.1 ∧ '\x00' ∉ p.2 := by
  intro p member
  obtain ⟨field, value⟩ := @updatePieces_of_mem key values p member
  exact ⟨(clean p.1 field).2.2, (clean p.2 value).2.2⟩

theorem means_self {operation : Operation} (sendable : operation.Sendable) :
    Means vsnprintf slaves operation operation where
  sent := argumentsSent_of_sendable sendable
  result := fun _ => rfl
  clean := by
    cases operation with
    | read key fields =>
        cases fields with
        | some fields => exact sendable
        | none => exact trivial
    | scan key len fields => exact sendable
    | update key values => exact updatePieces_clean sendable.1
    | insert key values => exact updatePieces_clean sendable.1
    | delete key => exact trivial

theorem foldl_serve_intended (operation : Operation) :
    (operation.intended slaves).foldl Records.serve records = operation.effect records := by
  cases operation with
  | read key fields =>
      cases fields with
      | some fields => rfl
      | none => rfl
  | scan key len fields => rfl
  | update key values =>
      rw [Operation.intended, List.foldl_cons, foldl_serve_wait, serve_update]
      rfl
  | insert key values =>
      rw [Operation.intended, List.foldl_cons, foldl_serve_wait, serve_update]
      rfl
  | delete key =>
      rw [Operation.intended, List.foldl_cons, foldl_serve_wait]
      rfl

end Server

/-! ### What comes back -/

/-- No field and no value of the records has a NUL in it. -/
def NoNul (records : Records) : Prop :=
  ∀ key field value, records key field = some value → '\x00' ∉ field ∧ '\x00' ∉ value

theorem NoNul.effect {records : Records} (noNul : NoNul records) {operation : Operation}
    (clean : operation.Clean) : NoNul (operation.effect records) := by
  have writes : ∀ key values, (∀ p ∈ values, '\x00' ∉ p.1 ∧ '\x00' ∉ p.2) →
      NoNul (Function.update records key ((records key).write values)) := by
    intro key values clean other field value found
    by_cases same : other = key
    · rw [same, Function.update_self] at found
      rcases Record.write_eq_some found with written | old
      · exact clean (field, value) written
      · exact noNul key field value old
    · rw [Function.update_of_ne same] at found
      exact noNul other field value found
  cases operation with
  | read key fields => exact noNul
  | scan key len fields => exact noNul
  | update key values => exact writes key values clean
  | insert key values => exact writes key values clean
  | delete key =>
      intro other field value found
      by_cases same : other = key
      · rw [Operation.effect, same, Function.update_self] at found
        cases found
      · rw [Operation.effect, Function.update_of_ne same] at found
        exact noNul other field value found

theorem readPairs_entries {entries : List KVPair}
    (noNul : ∀ p ∈ entries, '\x00' ∉ p.1 ∧ '\x00' ∉ p.2) :
    readPairs (entries.flatMap fun p => [.string p.1, .string p.2]) = some entries := by
  induction entries with
  | nil => rfl
  | cons p rest ih =>
      have own := noNul p List.mem_cons_self
      have later := ih fun q member => noNul q (List.mem_cons_of_mem p member)
      change (readPairs (rest.flatMap fun p => [.string p.1, .string p.2])).bind _ = _
      rw [later, Option.bind_some, cString_of_not_mem own.1, cString_of_not_mem own.2]
      rfl

theorem readAll_entries {entries : List KVPair}
    (noNul : ∀ p ∈ entries, '\x00' ∉ p.1 ∧ '\x00' ∉ p.2) :
    readAll (entriesReply entries) = some entries := by
  have count : (entries.flatMap fun p => [Reply.string p.1, Reply.string p.2]).length =
      2 * entries.length := by
    rw [List.length_flatMap]
    simp [Nat.mul_comm]
  rw [entriesReply, readAll, if_pos count.symm, readPairs_entries noNul]

theorem readFields_values {record : Record}
    (noNul : ∀ field value, record field = some value → '\x00' ∉ value) (fields : List Text) :
    readFields fields (valuesReply record fields) =
      some (fields.map fun field => (field, (record field).getD [])) := by
  have text : ∀ field,
      cString ((str (((record field).map Reply.string).getD .nil)).getD []) =
        (record field).getD [] := by
    intro field
    cases found : record field with
    | none => rfl
    | some value => exact cString_of_not_mem (noNul field value found)
  have zipped : ∀ value : Text → Text,
      fields.zip (fields.map value) = fields.map fun field => (field, value field) := by
    intro value
    have both := @List.zip_map' _ _ _ id value fields
    rw [List.map_id] at both
    exact both
  rw [valuesReply, readFields, if_pos ⟨rfl, (List.length_map _).symm⟩, List.map_map]
  simp only [Function.comp_def, zipped, text]

/-- What a call returns when the server answers as documented. -/
theorem gives_of_documented {slaves : Int} {records : Records} (noNul : NoNul records)
    {operation : Operation} (clean : operation.Clean) {argv : List Text}
    {others : List (List Text)} (sent : operation.intended slaves = argv :: others)
    {made : Reply} (documented : Documented records argv made) :
    ∃ result, resultOf operation made = some result ∧ operation.Gives records result := by
  cases operation with
  | read key fields =>
      cases fields with
      | some fields =>
          obtain rfl := (List.cons.inj sent).1
          obtain ⟨field, rest, rfl⟩ := List.exists_cons_of_ne_nil clean
          obtain rfl := documented rfl
          rw [resultOf, readFields_values fun field value found => (noNul _ _ _ found).2]
          exact ⟨_, rfl, rfl⟩
      | none =>
          obtain rfl := (List.cons.inj sent).1
          obtain ⟨entries, lists, rfl⟩ := documented rfl
          have noNulEntries : ∀ p ∈ entries, '\x00' ∉ p.1 ∧ '\x00' ∉ p.2 := fun p member =>
            noNul key p.1 p.2 ((lists.mem_iff p).mp member)
          rw [resultOf, readAll_entries noNulEntries]
          exact ⟨entries, rfl, lists⟩
  | scan key len fields => exact clean.elim
  | update key values => exact ⟨[], rfl, rfl⟩
  | insert key values => exact ⟨[], rfl, rfl⟩
  | delete key => exact ⟨[], rfl, rfl⟩

/-- With documented answers every call has a result, and the results are those of a
store. -/
theorem sessionGives_of_documented {vsnprintf : Text → VaArg → Text} {slaves : Int}
    {answer : List Reply → Reply} {operations meant : List Operation} {history : List (List Text)}
    (noNul : NoNul (history.foldl Records.serve .empty))
    (means : List.Forall₂ (Means vsnprintf slaves) operations meant)
    (serves : ∀ later argv, later ++ [argv] <+: commandsOf vsnprintf slaves operations →
      Documented ((history ++ later).foldl Records.serve .empty) argv
        (answer ((history ++ later ++ [argv]).map commandReply))) :
    ∃ results, expected vsnprintf slaves answer (history.map commandReply) operations =
        some results ∧
      SessionGives (history.foldl Records.serve .empty) meant results := by
  induction means generalizing history with
  | nil => exact ⟨[], rfl, rfl⟩
  | @cons operation own rest others means _ ih =>
      obtain ⟨argv, waits, intended⟩ : ∃ argv waits, own.intended slaves = argv :: waits := by
        cases own with
        | read key fields => cases fields <;> exact ⟨_, _, rfl⟩
        | scan key len fields => exact means.clean.elim
        | update key values => exact ⟨_, _, rfl⟩
        | insert key values => exact ⟨_, _, rfl⟩
        | delete key => exact ⟨_, _, rfl⟩
      have commands : commandsOf vsnprintf slaves (operation :: rest) =
          own.intended slaves ++ commandsOf vsnprintf slaves rest := by
        rw [commandsOf, List.flatMap_cons, means.sent]
        rfl
      have after : (history ++ own.intended slaves).foldl Records.serve .empty =
          own.effect (history.foldl Records.serve .empty) := by
        rw [List.foldl_append, foldl_serve_intended]
      have documented := serves [] argv (by
        rw [commands, intended]
        exact ⟨waits ++ commandsOf vsnprintf slaves rest, rfl⟩)
      rw [List.append_nil, List.map_append] at documented
      obtain ⟨result, found, gives⟩ := gives_of_documented noNul means.clean intended documented
      obtain ⟨results, later, laterGives⟩ := @ih (history ++ own.intended slaves)
        (after ▸ noNul.effect means.clean) (by
          intro more next isPrefix
          have whole := serves (own.intended slaves ++ more) next (by
            rw [commands, List.append_assoc]
            exact (List.prefix_append_right_inj _).mpr isPrefix)
          rw [← List.append_assoc] at whole
          exact whole)
      rw [List.map_append] at later
      rw [after] at laterGives
      have first : resultOf operation (answer (history.map commandReply ++
          ((own.intended slaves).map commandReply).take 1)) = some result := by
        rw [means.result, intended]
        exact found
      refine ⟨result :: results, ?_, gives, laterGives⟩
      simp only [expected, means.sent, first, later, Option.bind_eq_bind, Option.bind_some]
      rfl

section Session

variable {vsnprintf : Text → VaArg → Text} {answer : List Reply → Reply} {slaves : Int}
  {operations : List Operation}

/-- A server that answers the commands of a session as documented. -/
def Serves (vsnprintf : Text → VaArg → Text) (slaves : Int) (answer : List Reply → Reply)
    (operations : List Operation) : Prop :=
  ∀ history argv, history ++ [argv] <+: commandsOf vsnprintf slaves operations →
    Documented (history.foldl Records.serve .empty) argv
      (answer ((history ++ [argv]).map commandReply))

/-- Of two commands, each is answered in the store that the ones before it left. -/
theorem serves_of_two {first second : List Text}
    (sends : commandsOf vsnprintf slaves operations = [first, second])
    (one : Documented .empty first (answer [commandReply first]))
    (two : Documented (Records.serve .empty first) second
      (answer [commandReply first, commandReply second])) :
    Serves vsnprintf slaves answer operations := by
  intro history argv isPrefix
  rw [sends] at isPrefix
  rcases history with _ | ⟨earlier, _ | ⟨later, history⟩⟩
  · obtain rfl := (List.cons_prefix_cons.mp isPrefix).1
    exact one
  · obtain ⟨rfl, rest⟩ := List.cons_prefix_cons.mp isPrefix
    obtain rfl := (List.cons_prefix_cons.mp rest).1
    exact two
  · have short := isPrefix.length_le
    simp at short

theorem sessionGives_of_serves {meant : List Operation}
    (means : List.Forall₂ (Means vsnprintf slaves) operations meant)
    (serves : Serves vsnprintf slaves answer operations) :
    ∃ results, expected vsnprintf slaves answer [] operations = some results ∧
      SessionGives .empty meant results := by
  have start : NoNul .empty := fun key field value found => nomatch found
  exact @sessionGives_of_documented _ _ _ _ _ [] start means serves

end Session

/-- With a server that answers as documented, a session reads and writes one store of
records: every call returns what the calls before it left there.  While the connection
moves, the session returns. -/
theorem session_is_store {vsnprintf : Text → VaArg → Text} (prints : PrintsInts vsnprintf)
    {answer : List Reply → Reply} (readable : ∀ commands, Readable [answer commands])
    {slaves : Int} (waits : ∀ argv ∈ waitArguments slaves, Fits argv)
    {operations : List Operation} (sendable : ∀ operation ∈ operations, operation.Sendable)
    (fits : ∀ argv ∈ commandsOf vsnprintf slaves operations, Fits argv)
    (serves : Serves vsnprintf slaves answer operations) (fuel : Nat) :
    (∀ trace c results,
      (session vsnprintf fuel slaves Context.init operations).Runs trace (some (c, results)) →
        (serverContract answer).Respects (serverContract answer).start trace → c.err = none →
          SessionGives .empty operations results) ∧
      (Enough answer fuel ((commandsOf vsnprintf slaves operations).map commandReply) →
        (livelyContract answer).Returns (session vsnprintf fuel slaves Context.init operations)
          (fun out _ => out.1.err = none ∧ SessionGives .empty operations out.2)
          (livelyContract answer).start) := by
  have means : List.Forall₂ (Means vsnprintf slaves) operations operations :=
    List.forall₂_same.mpr fun operation member => means_self (sendable operation member)
  obtain ⟨results, gives, store⟩ := sessionGives_of_serves means serves
  constructor
  · intro trace c found run honest noError
    have same := session_expected prints readable waits fits run honest noError
    exact Option.some.inj (gives.symm.trans same) ▸ store
  · intro enough
    refine (session_returns readable prints waits fits gives enough idle_init).mono ?_
    rintro out after ⟨noError, same⟩
    exact ⟨noError, same ▸ store⟩

/-- An update of a field and a read of it. -/
def updateAndRead : List Operation :=
  [.update "k".toList [("f".toList, "v".toList)], .read "k".toList (some ["f".toList])]

/-- A server for these. -/
def answersOne (commands : List Reply) : Reply :=
  if commands.length = 2 then .array 1 [.string "v".toList] else .status "OK".toList

def updateAndReadTrace : List (Event socketInterface) :=
  [⟨.write "*4\r\n$5\r\nHMSET\r\n$1\r\nk\r\n$1\r\nf\r\n$1\r\nv\r\n".toList, .wrote 36⟩,
    ⟨.read, .got "+OK\r\n".toList⟩,
    ⟨.write "*3\r\n$5\r\nHMGET\r\n$1\r\nk\r\n$1\r\nf\r\n".toList, .wrote 29⟩,
    ⟨.read, .got "*1\r\n$1\r\nv\r\n".toList⟩]

theorem session_is_store_one :
    (∃ c, (session printsInts 99 0 Context.init updateAndRead).Runs updateAndReadTrace
        (some (c, [[], [("f".toList, "v".toList)]])) ∧ c.err = none) ∧
      SessionGives .empty updateAndRead [[], [("f".toList, "v".toList)]] ∧
      (livelyContract answersOne).Returns (session printsInts 99 0 Context.init updateAndRead)
        (fun out _ => out.1.err = none ∧ SessionGives .empty updateAndRead out.2)
        (livelyContract answersOne).start := by
  have readable : ∀ commands, Readable [answersOne commands] := by
    intro commands made member
    rw [List.mem_singleton.mp member, answersOne]
    split
    · exact @Fits.readable ["v".toList] (by decide)
    · exact ⟨.status (by decide), by decide⟩
  have run : ∃ c, (session printsInts 99 0 Context.init updateAndRead).Runs updateAndReadTrace
      (some (c, [[], [("f".toList, "v".toList)]])) ∧ c.err = none :=
    ⟨_, .call (.call (.call (.call (.done _)))), rfl⟩
  have commands : commandsOf printsInts 0 updateAndRead =
      [["HMSET".toList, "k".toList, "f".toList, "v".toList],
        ["HMGET".toList, "k".toList, "f".toList]] := rfl
  have first : ∀ argv ∈ [["HMSET".toList, "k".toList, "f".toList, "v".toList]], Fits argv :=
    List.forall_mem_singleton.mpr (by decide)
  have both : ∀ argv ∈ [["HMSET".toList, "k".toList, "f".toList, "v".toList],
      ["HMGET".toList, "k".toList, "f".toList]], Fits argv :=
    List.forall_mem_cons.mpr ⟨first _ List.mem_cons_self,
      List.forall_mem_singleton.mpr (by decide)⟩
  have sendable : ∀ operation ∈ updateAndRead, operation.Sendable := by
    rw [updateAndRead, List.forall_mem_cons, List.forall_mem_singleton]
    exact ⟨⟨by decide, by decide⟩, List.cons_ne_nil _ _⟩
  have serves : Serves printsInts 0 answersOne updateAndRead :=
    serves_of_two commands (fun read => absurd read (by decide)) fun _ => rfl
  have store := @session_is_store printsInts (fun _ => rfl) answersOne readable 0
    (by simp [waitArguments]) _ sendable (commands ▸ both) serves 99
  obtain ⟨c, run, noError⟩ := run
  refine ⟨⟨c, run, noError⟩, store.1 _ c _ run ⟨trivial, ?_, trivial, ?_, trivial⟩ noError,
    store.2 ⟨by decide, by decide⟩⟩
  · exact allowed_of_whole first (by decide) ⟨[], by decide⟩
  · exact allowed_of_whole both (by decide) ⟨[], by decide⟩

end LtramBench.Ycsb
