import LtramBench.Ycsb.Client
import LtramBench.Ycsb.Store
import Mathlib.Data.List.Nodup

/-!
# The benchmark against Redis

A run of `main` with one thread, from the generators down to the connection.  A value
of percent signs means something to the formatter: it arrives at half its length.
Apart from that the server gets what the client calls, and the reads find whole
records.
-/

namespace LtramBench.Ycsb

open LtramBench.Hiredis LtramBench.Interaction LtramBench.Shell LtramBench.Streaming

/-! ## What arrives -/

/-- A value as it arrives. -/
def arriving (value : Text) : Text :=
  if '%' ∈ value then value.take (value.length / 2) else value

/-- A call as it arrives. -/
def Operation.arriving : Operation → Operation
  | .update key values => .update key (values.map fun p => (p.1, Ycsb.arriving p.2))
  | .insert key values => .insert key (values.map fun p => (p.1, Ycsb.arriving p.2))
  | other => other

theorem arriving_replicate (len : Nat) (char : Char) :
    arriving (List.replicate len char) =
      List.replicate (if char = '%' then len / 2 else len) char := by
  unfold arriving
  by_cases percent : char = '%'
  · subst percent
    rw [if_pos rfl]
    by_cases empty : len = 0
    · subst empty
      rfl
    · rw [if_pos (List.mem_replicate.mpr ⟨empty, rfl⟩), List.length_replicate, List.take_replicate]
      congr 1
      omega
  · rw [if_neg percent, if_neg fun member => percent (List.eq_of_mem_replicate member).symm]

/-- Bytes without a meaning for the formatter. -/
def Literal (text : Text) : Prop :=
  text ≠ [] ∧ ∀ c ∈ text, c ≠ '%' ∧ c ≠ ' ' ∧ c ≠ '\x00'

/-- A value as the formatter reads it. -/
def valueWord (value : Text) : List Piece :=
  if '%' ∈ value then List.replicate (value.length / 2) .percent else [.literal value]

/-- A word of a template without arguments: what it is in the format, and what it
stands for. -/
structure Spells (word : List Piece) (text bytes : Text) : Prop where
  format : word.flatMap Piece.format = text
  bytes : word.flatMap Piece.bytes = bytes
  args : word.flatMap Piece.args = []
  nonempty : word ≠ []
  clean : ∀ piece ∈ word, piece.Clean

namespace Spells

theorem literal {text : Text} (plain : Literal text) : Spells [.literal text] text text where
  format := List.append_nil text
  bytes := List.append_nil text
  args := rfl
  nonempty := List.cons_ne_nil _ _
  clean := fun _ member => List.mem_singleton.mp member ▸ plain

theorem percents {half : Nat} (positive : 0 < half) :
    Spells (List.replicate half .percent) (List.replicate (half + half) '%')
      (List.replicate half '%') where
  format := by
    induction half with
    | zero => rfl
    | succ half ih =>
        cases half with
        | zero => rfl
        | succ half =>
            rw [List.replicate_succ, List.flatMap_cons, ih (Nat.succ_pos half)]
            have count : half + 1 + 1 + (half + 1 + 1) = half + 1 + (half + 1) + 1 + 1 := by omega
            rw [count]
            rfl
  bytes := by
    rw [List.flatMap_replicate]
    simp [Piece.bytes]
  args := by
    rw [List.flatMap_replicate]
    simp [Piece.args]
  nonempty := fun empty => by
    rw [List.replicate_eq_nil_iff] at empty
    omega
  clean := fun piece member => List.eq_of_mem_replicate member ▸ trivial

/-- A value of an even number of one printable character. -/
theorem value {len : Nat} {char : Char} (positive : 0 < len) (even : len % 2 = 0)
    (printable : 33 ≤ char.toNat ∧ char.toNat ≤ 126) :
    Spells (valueWord (List.replicate len char)) (List.replicate len char)
      (arriving (List.replicate len char)) := by
  obtain ⟨half, rfl⟩ : ∃ half, len = half + half := ⟨len / 2, by omega⟩
  rw [arriving_replicate, valueWord]
  by_cases percent : char = '%'
  · subst percent
    have halved : (half + half) / 2 = half := by omega
    rw [if_pos (List.mem_replicate.mpr ⟨by omega, rfl⟩), if_pos rfl, List.length_replicate, halved]
    exact percents (by omega)
  · rw [if_neg fun member => percent (List.eq_of_mem_replicate member).symm, if_neg percent]
    refine literal ⟨fun empty => ?_, fun c member => ?_⟩
    · rw [List.replicate_eq_nil_iff] at empty
      omega
    · rw [List.eq_of_mem_replicate member]
      refine ⟨percent, ?_, ?_⟩
      · rintro rfl
        exact absurd printable (by decide)
      · rintro rfl
        exact absurd printable (by decide)

/-- A format of spelled words is sent as what they stand for. -/
theorem sentFormat {vsnprintf : Text → VaArg → Text} {spelled : List (List Piece × Text × Text)}
    (each : ∀ word ∈ spelled, Spells word.1 word.2.1 word.2.2) :
    Ycsb.sentFormat vsnprintf (joined ' ' (spelled.map fun word => word.2.1)) [] =
      some (spelled.map fun word => word.2.2) := by
  have clean : Template.Clean (spelled.map fun word => word.1) := by
    intro word member
    obtain ⟨own, isOwn, rfl⟩ := List.mem_map.mp member
    exact ⟨(each own isOwn).nonempty, (each own isOwn).clean⟩
  have format : Template.format (spelled.map fun word => word.1) =
      joined ' ' (spelled.map fun word => word.2.1) := by
    rw [Template.format, List.map_map]
    congr 1
    exact List.map_congr_left fun word member => (each word member).format
  have argv : Template.argv (spelled.map fun word => word.1) =
      spelled.map fun word => word.2.2 := by
    rw [Template.argv, List.map_map]
    exact List.map_congr_left fun word member => (each word member).bytes
  have args : Template.args (spelled.map fun word => word.1) = [] := by
    rw [Template.args, List.flatMap_eq_nil_iff]
    intro word member
    obtain ⟨own, isOwn, rfl⟩ := List.mem_map.mp member
    exact (each own isOwn).args
  have formatted := @Template.formatArguments_format vsnprintf _ clean
  rw [format, args] at formatted
  exact sentFormat_eq_some_iff.mpr ⟨_, formatted, argv⟩

end Spells

/-! ## The client's calls arrive -/

theorem literal_append {first second : Text} (plain : Literal first)
    (rest : ∀ c ∈ second, c ≠ '%' ∧ c ≠ ' ' ∧ c ≠ '\x00') : Literal (first ++ second) := by
  refine ⟨fun empty => plain.1 (List.append_eq_nil_iff.mp empty).1, fun c member => ?_⟩
  rcases List.mem_append.mp member with front | back
  · exact plain.2 c front
  · exact rest c back

theorem literal_of_mem_decimal {value : Nat} {c : Char} (member : c ∈ decimal value) :
    c ≠ '%' ∧ c ≠ ' ' ∧ c ≠ '\x00' := by
  have digit := isDigit_of_mem_decimal member
  refine ⟨?_, ?_, ?_⟩ <;> · rintro rfl; cases digit

namespace CoreWorkload

variable {workload : CoreWorkload} {lengths : Nat → Prop}

theorem literal_fieldName (index : Nat) : Literal (fieldName index) :=
  literal_append ⟨by decide, by simp⟩ fun _ member => literal_of_mem_decimal member

theorem literal_buildKeyName (key_num : Nat) : Literal (workload.buildKeyName key_num) := by
  unfold buildKeyName
  rw [List.append_assoc]
  refine literal_append ⟨by decide, by simp⟩ fun c member => ?_
  rcases List.mem_append.mp member with zero | digit
  · rw [List.eq_of_mem_replicate zero]
    decide
  · exact literal_of_mem_decimal digit

theorem literal_of_mem_fieldNames {field : Text} (member : field ∈ workload.fieldNames) :
    Literal field := by
  obtain ⟨index, -, rfl⟩ := List.mem_map.mp member
  exact literal_fieldName index

/-- Lengths of fields that survive the formatter. -/
def Even (lengths : Nat → Prop) : Prop :=
  ∀ len, lengths len → 0 < len ∧ len % 2 = 0

theorem Filled.spells {value : Text} (filled : Filled lengths value) (even : Even lengths) :
    Spells (valueWord value) value (arriving value) := by
  obtain ⟨len, char, allowed, printable, rfl⟩ := filled
  exact Spells.value (even len allowed).1 (even len allowed).2 printable

theorem Filled.not_mem {value : Text} (filled : Filled lengths value) {c : Char}
    (outside : ¬(33 ≤ c.toNat ∧ c.toNat ≤ 126)) : c ∉ value := by
  obtain ⟨len, char, -, printable, rfl⟩ := filled
  intro member
  rw [List.eq_of_mem_replicate member] at outside
  exact outside printable

theorem Filled.not_mem_arriving {value : Text} (filled : Filled lengths value) {c : Char}
    (outside : ¬(33 ≤ c.toNat ∧ c.toNat ≤ 126)) : c ∉ Ycsb.arriving value := by
  unfold Ycsb.arriving
  split
  · exact fun member => filled.not_mem outside (List.mem_of_mem_take member)
  · exact filled.not_mem outside

variable {vsnprintf : Text → VaArg → Text} {slaves : Int}

theorem sentFormat_updateArguments {key : Text} (plain : Literal key) {values : List KVPair}
    (some : workload.Partial lengths values) (even : Even lengths) :
    sentFormat vsnprintf (joined ' ' (updateArguments key values)) [] =
      .some (updateArguments key (values.map fun p => (p.1, Ycsb.arriving p.2))) := by
  have sent := @Spells.sentFormat vsnprintf (([Piece.literal "HMSET".toList], "HMSET".toList,
    "HMSET".toList) :: ([Piece.literal key], key, key) :: values.flatMap fun p =>
      [([Piece.literal p.1], p.1, p.1), (valueWord p.2, p.2, Ycsb.arriving p.2)]) ?_
  · simp only [List.map_cons, List.map_flatMap, List.map_nil] at sent
    rw [updateArguments, updatePieces, sent, updateArguments, updatePieces, List.flatMap_map]
  · intro word member
    rcases List.mem_cons.mp member with rfl | member
    · exact .literal ⟨by decide, by simp⟩
    · rcases List.mem_cons.mp member with rfl | member
      · exact .literal plain
      · obtain ⟨p, isValue, own⟩ := List.mem_flatMap.mp member
        obtain ⟨known, filled⟩ := some p isValue
        rcases List.mem_cons.mp own with rfl | own
        · exact .literal (literal_of_mem_fieldNames known)
        · rw [List.mem_singleton.mp own]
          exact filled.spells even

/-- An update arrives with its values of percent signs halved. -/
theorem means_update {key : Text} (plain : Literal key) {values : List KVPair}
    (some : workload.Partial lengths values) (even : Even lengths) :
    Means vsnprintf slaves (.update key values) (Operation.arriving (.update key values)) where
  sent := by
    have solid : ∀ p ∈ values, ' ' ∉ p.1 ∧ ' ' ∉ p.2 := fun p member =>
      ⟨fun blank => ((literal_of_mem_fieldNames (some p member).1).2 _ blank).2.1 rfl,
        (some p member).2.not_mem (by decide)⟩
    exact argumentsSent_update solid (sentFormat_updateArguments plain some even)
  result := fun _ => rfl
  clean := by
    intro p member
    obtain ⟨own, isOwn, rfl⟩ := List.mem_map.mp member
    exact ⟨fun nul => ((literal_of_mem_fieldNames (some own isOwn).1).2 _ nul).2.2 rfl,
      (some own isOwn).2.not_mem_arriving (by decide)⟩

theorem Loads.means {key_num : Nat} {call : Operation} (loads : workload.Loads lengths key_num call)
    (even : Even lengths) : Means vsnprintf slaves call call.arriving := by
  obtain ⟨values, whole, rfl⟩ := loads
  have update := @means_update workload lengths vsnprintf slaves _
    (@literal_buildKeyName workload (uint64 key_num)) _ whole.toPartial even
  exact ⟨update.sent, fun _ => rfl, update.clean⟩

theorem Known.literal {key : Text} (known : workload.Known key) : Literal key := by
  obtain ⟨key_num, -, rfl⟩ := known
  exact literal_buildKeyName key_num

theorem Transacts.means {call : Operation} (transacts : workload.Transacts lengths call)
    (even : Even lengths) (noScan : ∀ key len fields, call ≠ .scan key len fields) :
    Means vsnprintf slaves call call.arriving := by
  cases call with
  | read key fields =>
      obtain ⟨known, asks⟩ := transacts
      refine means_self ?_
      cases fields with
      | none => exact fun nul => (known.literal.2 _ nul).2.2 rfl
      | some fields =>
          unfold Asks at asks
          split at asks
          · cases asks
          · obtain ⟨index, same⟩ := asks
            rw [Option.some.inj same]
            exact List.cons_ne_nil _ _
  | scan key len fields => exact absurd rfl (noScan key len fields)
  | update key values => exact means_update transacts.1.literal transacts.2 even
  | insert key values =>
      obtain ⟨key_num, loads⟩ := transacts
      exact loads.means even
  | delete key => exact transacts.elim

/-! ## What the reads find -/

/-- A value that was generated and sent. -/
def Arrived (lengths : Nat → Prop) (value : Text) : Prop :=
  ∃ len char, lengths len ∧ (33 ≤ char.toNat ∧ char.toNat ≤ 126) ∧
    value = List.replicate (if char = '%' then len / 2 else len) char

theorem Filled.arrived {value : Text} (filled : Filled lengths value) :
    Arrived lengths (Ycsb.arriving value) := by
  obtain ⟨len, char, allowed, printable, rfl⟩ := filled
  exact ⟨len, char, allowed, printable, arriving_replicate len char⟩

/-- A record with all its fields. -/
structure Full (workload : CoreWorkload) (lengths : Nat → Prop) (record : Record) : Prop where
  fields : ∀ field, (record field).isSome = true ↔ field ∈ workload.fieldNames
  values : ∀ field value, record field = some value → Arrived lengths value

/-- Nothing but whole records, and those of the first key numbers are there. -/
structure Stored (workload : CoreWorkload) (lengths : Nat → Prop) (loaded : Nat)
    (records : Records) : Prop where
  each : ∀ key, records key = Record.empty ∨ workload.Full lengths (records key)
  there : ∀ key_num < loaded, workload.Full lengths
    (records (workload.buildKeyName (uint64 key_num)))

/-- What a read should find. -/
def Answered (workload : CoreWorkload) (lengths : Nat → Prop) : Operation → List KVPair → Prop
  | .read _ none, result =>
      (result.map Prod.fst).Perm workload.fieldNames ∧ ∀ p ∈ result, Arrived lengths p.2
  | .read _ (some fields), result => result = fields.map fun field => (field, [])
  | _, _ => True

/-- Writing values for known fields keeps a record whole, and a value for every field
makes it so. -/
theorem full_write {record : Record} {values : List KVPair}
    (some : workload.Partial lengths values)
    (start : workload.Full lengths record ∨
      record = Record.empty ∧ workload.Whole lengths values) :
    workload.Full lengths
      (record.write (values.map fun p => (p.1, Ycsb.arriving p.2))) := by
  have names : (values.map fun p => (p.1, Ycsb.arriving p.2)).map Prod.fst =
      values.map Prod.fst := by
    rw [List.map_map]
    rfl
  constructor
  · intro field
    rw [Record.isSome_write, names]
    have known : field ∈ values.map Prod.fst → field ∈ workload.fieldNames := by
      intro member
      obtain ⟨p, isValue, rfl⟩ := List.mem_map.mp member
      exact (some p isValue).1
    rcases start with full | ⟨rfl, whole⟩
    · rw [full.fields]
      exact ⟨fun either => either.elim known id, .inr⟩
    · rw [whole.fields]
      exact ⟨fun either => either.elim id fun isSome => (nomatch isSome), fun member => .inl member⟩
  · intro field value found
    rcases Record.write_eq_some found with written | old
    · obtain ⟨p, isValue, same⟩ := List.mem_map.mp written
      rw [← (Prod.mk.inj same).2]
      exact (some p isValue).2.arrived
    · rcases start with full | ⟨rfl, -⟩
      · exact full.values field value old
      · cases old

theorem Stored.update {loaded : Nat} {records : Records}
    (stored : workload.Stored lengths loaded records) {key : Text} {record : Record}
    (full : workload.Full lengths record) :
    workload.Stored lengths loaded (Function.update records key record) where
  each := by
    intro other
    by_cases same : other = key
    · rw [same, Function.update_self]
      exact .inr full
    · rw [Function.update_of_ne same]
      exact stored.each other
  there := by
    intro key_num small
    by_cases same : workload.buildKeyName (uint64 key_num) = key
    · rw [same, Function.update_self]
      exact full
    · rw [Function.update_of_ne same]
      exact stored.there key_num small

/-- A record that is inserted is whole, whatever was there. -/
theorem Stored.insert {loaded : Nat} {records : Records}
    (stored : workload.Stored lengths loaded records) (key : Text) {values : List KVPair}
    (whole : workload.Whole lengths values) :
    workload.Full lengths
      ((records key).write (values.map fun p => (p.1, Ycsb.arriving p.2))) := by
  refine full_write whole.toPartial ?_
  rcases stored.each key with empty | full
  · exact .inr ⟨empty, whole⟩
  · exact .inl full

/-- Loading a key number. -/
theorem Stored.load {loaded : Nat} {records : Records}
    (stored : workload.Stored lengths loaded records) {call : Operation}
    (loads : workload.Loads lengths loaded call) :
    workload.Stored lengths (loaded + 1) (call.arriving.effect records) := by
  obtain ⟨values, whole, rfl⟩ := loads
  have full := stored.insert (workload.buildKeyName (uint64 loaded)) whole
  have updated := @Stored.update _ _ _ _ stored (workload.buildKeyName (uint64 loaded)) _ full
  refine ⟨updated.each, fun key_num small => ?_⟩
  rcases Nat.lt_succ_iff_lt_or_eq.mp small with before | rfl
  · exact updated.there key_num before
  · simp only [Operation.arriving, Operation.effect, Function.update_self]
    exact full

theorem nodup_fieldNames : workload.fieldNames.Nodup := by
  refine List.Nodup.map (fun first second same => ?_) List.nodup_range
  exact decimal_injective (List.append_cancel_left same)

/-- The fields that reads ask for are not those of a record. -/
theorem not_mem_fieldNames (index : Nat) :
    "field".toList ++ fieldName index ∉ workload.fieldNames := by
  intro member
  obtain ⟨other, -, same⟩ := List.mem_map.mp member
  have digits : decimal other = fieldName index := List.append_cancel_left same
  have letter : 'f' ∈ decimal other := digits ▸ List.mem_append_left _ List.mem_cons_self
  exact not_mem_decimal rfl other letter

variable {records : Records}

/-- A known key was loaded. -/
theorem Stored.known (stored : workload.Stored lengths workload.record_count records)
    (some : 0 < workload.record_count) (fits : workload.record_count < 2 ^ 64) {key : Text}
    (known : workload.Known key) : workload.Full lengths (records key) := by
  obtain ⟨key_num, bound, rfl⟩ := known
  have last : workload.lastInserted = workload.record_count - 1 := by
    unfold lastInserted uint64
    omega
  have own : uint64 key_num = key_num := by
    unfold uint64
    omega
  rw [← own]
  exact stored.there key_num (by omega)

/-- A transaction keeps the records whole and finds what it should. -/
theorem Stored.transact (stored : workload.Stored lengths workload.record_count records)
    (some : 0 < workload.record_count) (fits : workload.record_count < 2 ^ 64) {call : Operation}
    (transacts : workload.Transacts lengths call) {result : List KVPair}
    (gives : call.arriving.Gives records result) :
    workload.Answered lengths call result ∧
      workload.Stored lengths workload.record_count (call.arriving.effect records) := by
  cases call with
  | read key fields =>
      obtain ⟨known, asks⟩ := transacts
      have full := stored.known some fits known
      refine ⟨?_, stored⟩
      unfold Asks at asks
      cases fields with
      | none =>
          have lists : (records key).Lists result := gives
          refine ⟨(List.perm_ext_iff_of_nodup lists.nodup ?_).mpr fun field => ?_, fun p member => ?_⟩
          · exact nodup_fieldNames
          · rw [← full.fields, List.mem_map]
            constructor
            · rintro ⟨p, isEntry, rfl⟩
              rw [(lists.mem_iff p).mp isEntry]
              rfl
            · intro isSome
              obtain ⟨value, found⟩ := Option.isSome_iff_exists.mp isSome
              exact ⟨(field, value), (lists.mem_iff _).mpr found, rfl⟩
          · exact full.values p.1 p.2 ((lists.mem_iff p).mp member)
      | some fields =>
          split at asks
          · cases asks
          · obtain ⟨index, same⟩ := asks
            obtain rfl := Option.some.inj same
            have missing : records key ("field".toList ++ fieldName index) = none := by
              rw [Option.eq_none_iff_forall_ne_some]
              intro value found
              have member := (full.fields _).mp (by rw [found]; rfl)
              exact not_mem_fieldNames index member
            have found : result = ["field".toList ++ fieldName index].map fun field =>
              (field, (records key field).getD []) := gives
            rw [List.map_singleton, missing] at found
            exact found
  | scan key len fields => exact ⟨trivial, stored⟩
  | update key values =>
      exact ⟨trivial, stored.update
        (full_write transacts.2 (.inl (stored.known some fits transacts.1)))⟩
  | insert key values =>
      obtain ⟨key_num, own, whole, same⟩ := transacts
      obtain rfl := (Operation.insert.inj same).2
      exact ⟨trivial, stored.update (stored.insert key whole)⟩
  | delete key => exact transacts.elim

/-! ## The whole run -/

/-- Loading leaves whole records. -/
theorem stored_of_loads {loads : List Operation} {loaded count : Nat}
    (loadsAll : List.Forall₂ (workload.Loads lengths) (List.range' loaded count) loads)
    (stored : workload.Stored lengths loaded records) :
    workload.Stored lengths (loaded + count)
      ((loads.map Operation.arriving).foldl (fun records call => call.effect records) records) := by
  induction count generalizing loaded loads records with
  | zero =>
      cases loadsAll
      exact stored
  | succ count ih =>
      rw [List.range'_succ] at loadsAll
      cases loadsAll with
      | cons own rest =>
          have later := ih rest (stored.load own)
          rw [Nat.add_right_comm, Nat.add_assoc] at later
          exact later

theorem exists_loads {numbers : List Nat} {loads : List Operation}
    (loadsAll : List.Forall₂ (workload.Loads lengths) numbers loads) :
    ∀ call ∈ loads, ∃ key_num, workload.Loads lengths key_num call := by
  induction loadsAll with
  | nil => exact fun call member => nomatch member
  | cons own _ ih =>
      intro call member
      rcases List.mem_cons.mp member with rfl | later
      · exact ⟨_, own⟩
      · exact ih call later

/-- The reads of a session of transactions find what they should. -/
theorem answered_of_gives (some : 0 < workload.record_count)
    (fits : workload.record_count < 2 ^ 64) {transactions : List Operation}
    (transacts : ∀ call ∈ transactions, workload.Transacts lengths call)
    (stored : workload.Stored lengths workload.record_count records)
    {results : List (List KVPair)}
    (gives : SessionGives records (transactions.map Operation.arriving) results) :
    List.Forall₂ (workload.Answered lengths) transactions results := by
  induction transactions generalizing records results with
  | nil =>
      obtain rfl : results = [] := gives
      exact .nil
  | cons call rest ih =>
      cases results with
      | nil => exact gives.elim
      | cons result results =>
          obtain ⟨own, later⟩ := gives
          obtain ⟨answered, kept⟩ :=
            stored.transact some fits (transacts call List.mem_cons_self) own
          exact .cons answered
            (ih (fun other member => transacts other (List.mem_cons_of_mem _ member)) kept later)

end CoreWorkload

/-- A session splits into its first calls and the others. -/
theorem sessionGives_append {records : Records} {first second : List Operation}
    {results : List (List KVPair)} (gives : SessionGives records (first ++ second) results) :
    first.length ≤ results.length ∧
      SessionGives (first.foldl (fun records call => call.effect records) records) second
        (results.drop first.length) := by
  induction first generalizing records results with
  | nil => exact ⟨Nat.zero_le _, gives⟩
  | cons call rest ih =>
      cases results with
      | nil => exact gives.elim
      | cons result results =>
          obtain ⟨longer, later⟩ := ih gives.2
          exact ⟨Nat.succ_le_succ longer, later⟩

/-- Calls without a command have no result. -/
theorem sends_of_expected {vsnprintf : Text → VaArg → Text} {slaves : Int}
    {answer : List Reply → Reply} {operations : List Operation} {history : List Reply}
    {results : List (List KVPair)}
    (gives : expected vsnprintf slaves answer history operations = some results) :
    ∀ call ∈ operations, argumentsSent vsnprintf slaves call ≠ none := by
  induction operations generalizing history results with
  | nil => exact fun call member => nomatch member
  | cons operation rest ih =>
      cases sent : argumentsSent vsnprintf slaves operation with
      | none =>
          rw [expected, sent] at gives
          cases gives
      | some argvs =>
          rw [expected, sent] at gives
          simp only [Option.bind_eq_bind, Option.bind_some, Option.bind_eq_some_iff] at gives
          obtain ⟨result, -, later, laterGives, -⟩ := gives
          intro call member
          rcases List.mem_cons.mp member with rfl | member
          · rw [sent]
            exact Option.some_ne_none argvs
          · exact ih laterGives call member

namespace CoreWorkload

variable (workload : CoreWorkload) (lengths : Nat → Prop) (vsnprintf : Text → VaArg → Text)
  (slaves : Int) (answer : List Reply → Reply)

/-- The results of a run: one for every load, and what each transaction should find. -/
def Found (loads transactions : List Operation) (results : List (List KVPair)) : Prop :=
  loads.length ≤ results.length ∧
    List.Forall₂ (workload.Answered lengths) transactions (results.drop loads.length)

/-- What comes of some calls against a server: a run without an error finds what it
should, and while the connection moves, it comes to its end, unless there are scans. -/
def Finds (loads transactions : List Operation) : Prop :=
  (∀ argv ∈ commandsOf vsnprintf slaves (loads ++ transactions), Fits argv) →
    Serves vsnprintf slaves answer (loads ++ transactions) → ∀ fuel,
      (∀ trace c results,
        (session vsnprintf fuel slaves Context.init (loads ++ transactions)).Runs trace
            (some (c, results)) →
          (serverContract answer).Respects (serverContract answer).start trace → c.err = none →
            workload.Found lengths loads transactions results) ∧
        ((∀ key len fields, .scan key len fields ∉ transactions) →
          Enough answer fuel
              ((commandsOf vsnprintf slaves (loads ++ transactions)).map commandReply) →
            (livelyContract answer).Returns
              (session vsnprintf fuel slaves Context.init (loads ++ transactions))
              (fun out _ => out.1.err = none ∧ workload.Found lengths loads transactions out.2)
              (livelyContract answer).start)

variable {workload lengths vsnprintf slaves answer} {operation_count : Nat}
  {loads transactions : List Operation}

/-- The results of the calls of a run. -/
theorem Calls.found (calls : workload.Calls lengths 0 operation_count loads transactions)
    (even : Even lengths) (someRecord : 0 < workload.record_count)
    (records : workload.record_count < 2 ^ 64)
    (noScan : ∀ key len fields, .scan key len fields ∉ transactions)
    (serves : Serves vsnprintf slaves answer (loads ++ transactions)) :
    ∃ results, expected vsnprintf slaves answer [] (loads ++ transactions) = some results ∧
      workload.Found lengths loads transactions results := by
  have means : List.Forall₂ (Means vsnprintf slaves) (loads ++ transactions)
      ((loads ++ transactions).map Operation.arriving) := by
    rw [List.forall₂_map_right_iff, List.forall₂_same]
    intro call member
    rcases List.mem_append.mp member with isLoad | isTransaction
    · obtain ⟨key_num, own⟩ := exists_loads calls.loads call isLoad
      exact own.means even
    · exact (calls.transacts call isTransaction).means even fun key len fields scan =>
        noScan key len fields (scan ▸ isTransaction)
  obtain ⟨results, gives, store⟩ := sessionGives_of_serves means serves
  rw [List.map_append] at store
  obtain ⟨longer, after⟩ := sessionGives_append store
  rw [List.length_map] at longer after
  have start : workload.Stored lengths 0 .empty :=
    ⟨fun key => .inl rfl, fun key_num small => absurd small (Nat.not_lt_zero _)⟩
  have stored := stored_of_loads calls.loads start
  rw [Nat.zero_add] at stored
  exact ⟨results, gives, longer, answered_of_gives someRecord records calls.transacts stored after⟩

theorem Calls.finds (calls : workload.Calls lengths 0 operation_count loads transactions)
    (even : Even lengths) (someRecord : 0 < workload.record_count)
    (records : workload.record_count < 2 ^ 64) (prints : PrintsInts vsnprintf)
    (readable : ∀ commands, Readable [answer commands])
    (waits : ∀ argv ∈ waitArguments slaves, Fits argv) :
    workload.Finds lengths vsnprintf slaves answer loads transactions := by
  intro fits serves fuel
  constructor
  · intro trace c results run honest noError
    have gives := session_expected prints readable waits fits run honest noError
    -- a scan would have ended the run
    have noScan : ∀ key len fields, .scan key len fields ∉ transactions :=
      fun key len fields member =>
        sends_of_expected gives _ (List.mem_append_right loads member) rfl
    obtain ⟨found, same, correct⟩ := calls.found even someRecord records noScan serves
    exact Option.some.inj (same.symm.trans gives) ▸ correct
  · intro noScan enough
    obtain ⟨found, gives, correct⟩ := calls.found even someRecord records noScan serves
    refine (session_returns readable prints waits fits gives enough idle_init).mono ?_
    rintro out after ⟨noError, same⟩
    exact ⟨noError, same ▸ correct⟩

end CoreWorkload

/-- The benchmark with one thread against Redis: whatever the generators choose and
wherever the network cuts, every read of whole records returns every field of the
record once, each with one character over and over, as often as it was generated or,
if it is the percent sign, half as often; a read of one field finds nothing.  And with
choosers that hit before the rounds are over, the client makes its calls. -/
theorem benchmark_reads (workload : CoreWorkload) (lengths : Nat → Prop)
    (even : CoreWorkload.Even lengths) (someField : 0 < workload.field_count)
    (someRecord : 0 < workload.record_count) (records : workload.record_count < 2 ^ 64)
    {vsnprintf : Text → VaArg → Text} (prints : PrintsInts vsnprintf)
    {answer : List Reply → Reply} (readable : ∀ commands, Readable [answer commands])
    {slaves : Int} (waits : ∀ argv ∈ waitArguments slaves, Fits argv)
    (rounds operation_count : Nat) :
    (∀ choices loads transactions,
      (workload.main rounds operation_count).Runs choices (some (loads, transactions)) →
        (workload.ranges lengths 0).Respects 0 choices →
          workload.Finds lengths vsnprintf slaves answer loads transactions) ∧
      ((∃ len, lengths len) → 0 < rounds →
        (workload.choosing lengths 0 rounds).Returns (workload.main rounds operation_count)
          (fun calls _ => calls.1.length = workload.record_count ∧
            operation_count ≤ calls.2.length ∧
              workload.Finds lengths vsnprintf slaves answer calls.1 calls.2) (0, 0)) := by
  constructor
  · intro choices loads transactions chosen ranges
    have calls := (CoreWorkload.main_under someField rounds operation_count).runs chosen ranges
    exact calls.finds even someRecord records prints readable waits
  · intro someLength someRound
    refine (CoreWorkload.main_returns someLength someField someRound operation_count).mono ?_
    intro out after calls
    have count := calls.loads.length_eq
    rw [List.length_range'] at count
    exact ⟨count.symm, calls.count, calls.finds even someRecord records prints readable waits⟩

/-- One record of one field, and a server for reading it. -/
def oneRecord : CoreWorkload where
  field_count := 1
  read_all_fields := true
  write_all_fields := false
  ordered_inserts := true
  record_count := 1
  zero_padding := 1

def oneLoad : List Operation :=
  [.insert "user0".toList [("field0".toList, "%%".toList)]]

def oneRead : List Operation :=
  [.read "user0".toList none]

def answersRecord (commands : List Reply) : Reply :=
  if commands.length = 2 then .array 2 [.string "field0".toList, .string "%".toList]
  else .status "OK".toList

theorem commandsOf_oneRead : commandsOf printsInts 0 (oneLoad ++ oneRead) =
    [["HMSET".toList, "user0".toList, "field0".toList, "%".toList],
      ["HGETALL".toList, "user0".toList]] :=
  rfl

theorem serves_oneRead : Serves printsInts 0 answersRecord (oneLoad ++ oneRead) := by
  refine serves_of_two commandsOf_oneRead (fun read => absurd read (by decide)) fun _ =>
    ⟨[("field0".toList, "%".toList)], ⟨by simp, fun p => ?_⟩, rfl⟩
  have record : Records.serve .empty
      (updateArguments "user0".toList [("field0".toList, "%".toList)]) "user0".toList =
      Function.update Record.empty "field0".toList (some "%".toList) := by
    rw [serve_update, Function.update_self]
    rfl
  change _ ↔ Records.serve .empty
    (updateArguments "user0".toList [("field0".toList, "%".toList)]) "user0".toList p.1 = _
  rw [record, List.mem_singleton]
  by_cases same : p.1 = "field0".toList
  · rw [same, Function.update_self]
    exact ⟨fun own => own ▸ rfl, fun value => Prod.ext same (Option.some.inj value).symm⟩
  · rw [Function.update_of_ne same]
    exact ⟨fun own => absurd (own ▸ rfl) same, fun value => nomatch value⟩

/-- The loading of one record, with a percent sign for its value, and a read of it. -/
def oneChoices : List (Event generators) :=
  [⟨.key_generator, (0 : Nat)⟩, ⟨.field_len_generator, (2 : Nat)⟩, ⟨.randomPrintChar, '%'⟩,
    ⟨.op_chooser, Transaction.read⟩, ⟨.key_chooser, (0 : Nat)⟩]

/-- What the calls send and get. -/
def oneTrace : List (Event socketInterface) :=
  [⟨.write "*4\r\n$5\r\nHMSET\r\n$5\r\nuser0\r\n$6\r\nfield0\r\n$1\r\n%\r\n".toList, .wrote 46⟩,
    ⟨.read, .got "+OK\r\n".toList⟩,
    ⟨.write "*2\r\n$7\r\nHGETALL\r\n$5\r\nuser0\r\n".toList, .wrote 28⟩,
    ⟨.read, .got "*2\r\n$6\r\nfield0\r\n$1\r\n%\r\n".toList⟩]

theorem benchmark_reads_one :
    (oneRecord.main 1 1).Runs oneChoices (some (oneLoad, oneRead)) ∧
      (∃ c, (session printsInts 99 0 Context.init (oneLoad ++ oneRead)).Runs oneTrace
        (some (c, [[], [("field0".toList, "%".toList)]])) ∧ c.err = none) ∧
      oneRecord.Found (· = 2) oneLoad oneRead [[], [("field0".toList, "%".toList)]] ∧
      (livelyContract answersRecord).Returns
        (session printsInts 99 0 Context.init (oneLoad ++ oneRead))
        (fun out _ => out.1.err = none ∧ oneRecord.Found (· = 2) oneLoad oneRead out.2)
        (livelyContract answersRecord).start ∧
      (oneRecord.choosing (· = 2) 0 1).Returns (oneRecord.main 1 1)
        (fun calls _ => calls.1.length = 1 ∧ 1 ≤ calls.2.length) (0, 0) := by
  have chosen : (oneRecord.main 1 1).Runs oneChoices (some (oneLoad, oneRead)) :=
    .call (.call (.call (.call (.call (.done _)))))
  have ranges : (oneRecord.ranges (· = 2) 0).Respects 0 oneChoices :=
    ⟨rfl, rfl, ⟨by decide, by decide⟩, trivial, trivial, trivial⟩
  have readable : ∀ commands, Readable [answersRecord commands] := by
    intro commands made member
    rw [List.mem_singleton.mp member, answersRecord]
    split
    · exact @Fits.readable ["field0".toList, "%".toList] (by decide)
    · exact ⟨.status (by decide), by decide⟩
  have first : ∀ argv ∈ [["HMSET".toList, "user0".toList, "field0".toList, "%".toList]],
      Fits argv :=
    List.forall_mem_singleton.mpr (by decide)
  have both : ∀ argv ∈ [["HMSET".toList, "user0".toList, "field0".toList, "%".toList],
      ["HGETALL".toList, "user0".toList]], Fits argv :=
    List.forall_mem_cons.mpr ⟨first _ List.mem_cons_self,
      List.forall_mem_singleton.mpr (by decide)⟩
  have run : ∃ c, (session printsInts 99 0 Context.init (oneLoad ++ oneRead)).Runs oneTrace
      (some (c, [[], [("field0".toList, "%".toList)]])) ∧ c.err = none :=
    ⟨_, .call (.call (.call (.call (.done _)))), rfl⟩
  have reads := @benchmark_reads oneRecord (· = 2) (by rintro len rfl; decide) (by decide)
    (by decide) (by decide) printsInts (fun _ => rfl) answersRecord readable 0
    (by simp [waitArguments]) 1 1
  have finds := reads.1 _ _ _ chosen ranges (commandsOf_oneRead ▸ both) serves_oneRead 99
  obtain ⟨c, run, noError⟩ := run
  refine ⟨chosen, ⟨c, run, noError⟩, finds.1 _ c _ run ⟨trivial, ?_, trivial, ?_, trivial⟩ noError,
    finds.2 (by simp [oneRead]) ⟨by decide, by decide⟩,
    (reads.2 ⟨2, rfl⟩ (by decide)).mono fun _ _ calls => ⟨calls.1, calls.2.1⟩⟩
  · exact allowed_of_whole first (by decide) ⟨[], by decide⟩
  · exact allowed_of_whole both (by decide) ⟨[], by decide⟩

end LtramBench.Ycsb
