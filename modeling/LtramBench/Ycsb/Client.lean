import LtramBench.Ycsb.Workload

/-!
# What a client calls

With generators that keep their ranges, loading inserts the numbers of a counter one
by one, each with all fields, and transactions only touch keys and fields that loading
has inserted.  When the chooser of keys does not miss too often, the client ends.
-/

namespace LtramBench.Ycsb

open LtramBench.Interaction LtramBench.Shell

namespace CoreWorkload

variable (workload : CoreWorkload) (lengths : Nat → Prop)

/-- The ranges of the generators.  The counter is `key_generator_`; `lengths` are those
of the field length distribution.  The bound on the fields is an `int` that becomes a
`uint64_t`. -/
def ranges (insert_start : Nat) : Contract generators Nat where
  start := insert_start
  allows counter
    | .key_generator, key_num => key_num = uint64 counter
    | .field_chooser, (index : Nat) => (index : Int) ≤ (workload.field_count - 1) % 2 ^ 64
    | .field_len_generator, len => lengths len
    | .randomPrintChar, char => 33 ≤ char.toNat ∧ char.toNat ≤ 126
    | _, _ => True
  advance counter
    | ⟨.key_generator, _⟩ => counter + 1
    | _ => counter

/-! ## The calls -/

/-- The names of the fields of a record. -/
def fieldNames : List Text :=
  (List.range workload.field_count.toNat).map fieldName

/-- One printable character, over and over. -/
def Filled (value : Text) : Prop :=
  ∃ len char, lengths len ∧ (33 ≤ char.toNat ∧ char.toNat ≤ 126) ∧ value = List.replicate len char

/-- Values for some fields of a record. -/
def Partial (values : List KVPair) : Prop :=
  ∀ p ∈ values, p.1 ∈ workload.fieldNames ∧ Filled lengths p.2

/-- A value for every field of a record. -/
structure Whole (values : List KVPair) : Prop where
  fields : values.map Prod.fst = workload.fieldNames
  filled : ∀ p ∈ values, Filled lengths p.2

/-- The insertion of a key number. -/
def Loads (key_num : Nat) (call : Operation) : Prop :=
  ∃ values, workload.Whole lengths values ∧
    call = .insert (workload.buildKeyName (uint64 key_num)) values

/-- A key that a transaction may choose. -/
def Known (key : Text) : Prop :=
  ∃ key_num ≤ workload.lastInserted, key = workload.buildKeyName key_num

/-- The fields of a read: all of them, or one that no record has. -/
def Asks (fields : Option (List Text)) : Prop :=
  if workload.read_all_fields then fields = none
  else ∃ index, fields = some ["field".toList ++ fieldName index]

/-- What a transaction may call. -/
def Transacts : Operation → Prop
  | .read key fields | .scan key _ fields => workload.Known key ∧ workload.Asks fields
  | .update key values => workload.Known key ∧ workload.Partial lengths values
  | .insert key values => (∃ key_num, workload.Loads lengths key_num (.insert key values))
  | .delete _ => False

/-! ## Generators that keep their ranges -/

variable {workload lengths} {insert_start counter : Nat}

theorem Whole.toPartial {values : List KVPair} (whole : workload.Whole lengths values) :
    workload.Partial lengths values := fun p member =>
  ⟨whole.fields ▸ List.mem_map_of_mem member, whole.filled p member⟩

theorem nextSequenceKey_under :
    (workload.ranges lengths insert_start).Under workload.nextSequenceKey
      (fun key after => key = workload.buildKeyName (uint64 counter) ∧ after = counter + 1)
      counter := by
  intro (key_num : Nat) (same : key_num = uint64 counter)
  subst same
  exact ⟨rfl, rfl⟩

theorem nextTransactionKey_under (fuel : Nat) :
    (workload.ranges lengths insert_start).Under (workload.nextTransactionKey fuel)
      (fun key after => workload.Known key ∧ after = counter) counter := by
  induction fuel with
  | zero => exact trivial
  | succ fuel ih =>
      rw [nextTransactionKey_succ]
      refine Contract.under_call fun (key_num : Nat) _ => ?_
      exact Contract.under_ite (fun _ => ih) fun small => ⟨⟨key_num, Nat.le_of_not_lt small, rfl⟩, rfl⟩

theorem nextFieldName_under (some : 0 < workload.field_count) :
    (workload.ranges lengths insert_start).Under nextFieldName
      (fun name after => name ∈ workload.fieldNames ∧ after = counter) counter := by
  intro (index : Nat) (small : (index : Int) ≤ (workload.field_count - 1) % 2 ^ 64)
  exact ⟨List.mem_map_of_mem (List.mem_range.mpr (by omega)), rfl⟩

theorem nextValue_under :
    (workload.ranges lengths insert_start).Under nextValue
      (fun value after => Filled lengths value ∧ after = counter) counter := by
  intro len allowed char printable
  exact ⟨⟨len, char, allowed, printable, rfl⟩, rfl⟩

theorem buildValues_under :
    (workload.ranges lengths insert_start).Under workload.buildValues
      (fun values after => workload.Whole lengths values ∧ after = counter) counter := by
  unfold buildValues
  refine Contract.Under.mono (Contract.under_forCount (fun index values after =>
    (values.map Prod.fst = (List.range index).map fieldName ∧
      ∀ p ∈ values, Filled lengths p.2) ∧ after = counter) ?_ ?_) ?_
  · rintro index values after - ⟨⟨names, filled⟩, rfl⟩
    refine Contract.under_bind (nextValue_under.mono ?_)
    rintro value after ⟨own, rfl⟩
    refine ⟨⟨?_, ?_⟩, rfl⟩
    · rw [List.map_append, names, List.range_succ, List.map_append]
      rfl
    · intro p member
      rcases List.mem_append.mp member with old | new
      · exact filled p old
      · exact List.mem_singleton.mp new ▸ own
  · exact ⟨⟨rfl, fun p member => nomatch member⟩, rfl⟩
  · rintro values after ⟨⟨names, filled⟩, same⟩
    exact ⟨⟨names, filled⟩, same⟩

theorem buildUpdate_under (some : 0 < workload.field_count) :
    (workload.ranges lengths insert_start).Under buildUpdate
      (fun values after => workload.Partial lengths values ∧ after = counter) counter := by
  refine Contract.under_bind ((nextFieldName_under some).mono ?_)
  rintro field after ⟨known, rfl⟩
  refine Contract.under_bind (nextValue_under.mono ?_)
  rintro value after ⟨filled, rfl⟩
  refine ⟨fun p member => ?_, rfl⟩
  rw [List.mem_singleton.mp member]
  exact ⟨known, filled⟩

theorem updateValues_under (some : 0 < workload.field_count) :
    (workload.ranges lengths insert_start).Under workload.updateValues
      (fun values after => workload.Partial lengths values ∧ after = counter) counter := by
  unfold updateValues
  split
  · refine buildValues_under.mono ?_
    rintro values after ⟨whole, same⟩
    exact ⟨whole.toPartial, same⟩
  · exact buildUpdate_under some

theorem readFieldNames_under :
    (workload.ranges lengths insert_start).Under workload.readFieldNames
      (fun fields after => workload.Asks fields ∧ after = counter) counter := by
  unfold readFieldNames Asks
  split
  · exact ⟨rfl, rfl⟩
  · intro index _
    exact ⟨⟨index, rfl⟩, rfl⟩

theorem doInsert_under :
    (workload.ranges lengths insert_start).Under workload.doInsert
      (fun call after => workload.Loads lengths counter call ∧ after = counter + 1) counter := by
  refine Contract.under_bind (nextSequenceKey_under.mono ?_)
  rintro key after ⟨rfl, rfl⟩
  refine Contract.under_bind (buildValues_under.mono ?_)
  rintro values after ⟨whole, rfl⟩
  exact ⟨⟨values, whole, rfl⟩, rfl⟩

/-- A transaction makes one call or two. -/
theorem doTransaction_under (someField : 0 < workload.field_count) (fuel : Nat) :
    (workload.ranges lengths insert_start).Under (workload.doTransaction fuel)
      (fun calls _ => calls ≠ [] ∧ ∀ call ∈ calls, workload.Transacts lengths call) counter := by
  have one : ∀ {call : Operation}, workload.Transacts lengths call →
      [call] ≠ [] ∧ ∀ other ∈ [call], workload.Transacts lengths other := by
    intro call holds
    exact ⟨List.cons_ne_nil _ _, fun other member => List.mem_singleton.mp member ▸ holds⟩
  intro operation _
  cases operation with
  | insert =>
      change (workload.ranges lengths insert_start).Under workload.transactionInsert _ _
      refine Contract.under_bind (nextSequenceKey_under.mono ?_)
      rintro key after ⟨rfl, rfl⟩
      refine Contract.under_bind (buildValues_under.mono ?_)
      rintro values after ⟨whole, rfl⟩
      exact one ⟨counter, values, whole, rfl⟩
  | read =>
      change (workload.ranges lengths insert_start).Under (workload.transactionRead fuel) _ _
      refine Contract.under_bind ((nextTransactionKey_under fuel).mono ?_)
      rintro key after ⟨known, rfl⟩
      refine Contract.under_bind (readFieldNames_under.mono ?_)
      rintro fields after ⟨asks, rfl⟩
      exact one ⟨known, asks⟩
  | update =>
      change (workload.ranges lengths insert_start).Under (workload.transactionUpdate fuel) _ _
      refine Contract.under_bind ((nextTransactionKey_under fuel).mono ?_)
      rintro key after ⟨known, rfl⟩
      refine Contract.under_bind ((updateValues_under someField).mono ?_)
      rintro values after ⟨some, rfl⟩
      exact one ⟨known, some⟩
  | scan =>
      change (workload.ranges lengths insert_start).Under (workload.transactionScan fuel) _ _
      refine Contract.under_bind ((nextTransactionKey_under fuel).mono ?_)
      rintro key after ⟨known, rfl⟩ (len : Nat) _
      change (workload.ranges lengths insert_start).Under (workload.readFieldNames >>= fun fields =>
        pure [Operation.scan key ((len : Int).bmod (2 ^ 32)) fields]) _ _
      refine Contract.under_bind (readFieldNames_under.mono ?_)
      rintro fields after ⟨asks, rfl⟩
      exact one ⟨known, asks⟩
  | readModifyWrite =>
      change (workload.ranges lengths insert_start).Under (workload.transactionReadModifyWrite fuel) _ _
      refine Contract.under_bind ((nextTransactionKey_under fuel).mono ?_)
      rintro key after ⟨known, rfl⟩
      refine Contract.under_bind (readFieldNames_under.mono ?_)
      rintro fields after ⟨asks, rfl⟩
      refine Contract.under_bind ((updateValues_under someField).mono ?_)
      rintro values after ⟨some, rfl⟩
      refine ⟨List.cons_ne_nil _ _, fun other member => ?_⟩
      rcases List.mem_cons.mp member with rfl | member
      · exact ⟨known, asks⟩
      · rw [List.mem_singleton.mp member]
        exact ⟨known, some⟩

/-- Loading inserts the numbers of the counter one after the other. -/
theorem delegateClient_loads (fuel num_ops : Nat) :
    (workload.ranges lengths insert_start).Under (workload.delegateClient fuel num_ops true)
      (fun calls after => List.Forall₂ (workload.Loads lengths) (List.range' counter num_ops) calls ∧
        after = counter + num_ops) counter := by
  unfold delegateClient
  refine Contract.under_forCount (fun index calls after =>
    List.Forall₂ (workload.Loads lengths) (List.range' counter index) calls ∧
      after = counter + index) ?_ ⟨.nil, rfl⟩
  rintro index calls after - ⟨loaded, rfl⟩
  refine Contract.under_bind (Contract.under_bind (doInsert_under.mono ?_))
  rintro call after ⟨loads, rfl⟩
  refine ⟨?_, rfl⟩
  rw [List.range'_concat, Nat.one_mul]
  exact List.rel_append loaded (.cons loads .nil)

theorem delegateClient_transacts (someField : 0 < workload.field_count) (fuel num_ops : Nat) :
    (workload.ranges lengths insert_start).Under (workload.delegateClient fuel num_ops false)
      (fun calls _ => num_ops ≤ calls.length ∧ ∀ call ∈ calls, workload.Transacts lengths call)
      counter := by
  unfold delegateClient
  refine Contract.under_forCount (fun index (calls : List Operation) _ =>
    index ≤ calls.length ∧ ∀ call ∈ calls, workload.Transacts lengths call)
    ?_ ⟨Nat.le_refl _, fun call member => nomatch member⟩
  intro index calls ghost _ before
  refine Contract.under_bind ((doTransaction_under someField fuel).mono ?_)
  intro next after transacts
  have more := List.length_pos_of_ne_nil transacts.1
  constructor
  · rw [List.length_append]
    have count := before.1
    omega
  · intro call member
    rcases List.mem_append.mp member with old | new
    · exact before.2 call old
    · exact transacts.2 call new

variable (workload lengths) in
/-- The calls of a run: a load of every record, and the transactions. -/
structure Calls (insert_start operation_count : Nat) (loads transactions : List Operation) :
    Prop where
  loads : List.Forall₂ (workload.Loads lengths) (List.range' insert_start workload.record_count)
    loads
  count : operation_count ≤ transactions.length
  transacts : ∀ call ∈ transactions, workload.Transacts lengths call

theorem main_under (someField : 0 < workload.field_count) (fuel operation_count : Nat) :
    (workload.ranges lengths insert_start).Under (workload.main fuel operation_count)
      (fun calls _ => workload.Calls lengths insert_start operation_count calls.1 calls.2)
      insert_start := by
  refine Contract.under_bind ((delegateClient_loads fuel workload.record_count).mono ?_)
  rintro loads after ⟨loaded, rfl⟩
  refine Contract.under_bind ((delegateClient_transacts someField fuel operation_count).mono ?_)
  intro transactions after transacts
  exact ⟨loaded, transacts.1, transacts.2⟩

/-! ## Choosers that do not miss too often -/

variable (workload lengths) in
/-- Generators that keep their ranges, and less than `rounds` keys in a row that were not
inserted.  The second number counts these keys. -/
def choosing (insert_start rounds : Nat) : Contract generators (Nat × Nat) where
  start := (insert_start, 0)
  allows ghost request answer :=
    (workload.ranges lengths insert_start).allows ghost.1 request answer ∧
      match request, answer with
      | .key_chooser, (key_num : Nat) =>
          key_num ≤ workload.lastInserted ∨ ghost.2 + 1 < rounds
      | _, _ => True
  advance ghost event :=
    ((workload.ranges lengths insert_start).advance ghost.1 event,
      match event with
      | ⟨.key_chooser, (key_num : Nat)⟩ =>
          if workload.lastInserted < key_num then ghost.2 + 1 else 0
      | _ => ghost.2)

variable {rounds : Nat}

theorem under_choosing {α : Type} {program : Choosing α} {post : α → Nat → Prop}
    {ghost : Nat × Nat}
    (holds : (workload.ranges lengths insert_start).Under program post ghost.1) :
    (workload.choosing lengths insert_start rounds).Under program
      (fun value after => post value after.1) ghost :=
  Contract.Under.comap Prod.fst holds (fun _ _ _ allowed => allowed.1) fun _ _ => rfl

variable (workload lengths insert_start rounds) in
/-- A program that returns with no miss pending. -/
def Prompt {α : Type} (program : Choosing α) : Prop :=
  ∀ ghost : Nat × Nat, ghost.2 = 0 →
    (workload.choosing lengths insert_start rounds).Returns program (fun _ after => after.2 = 0)
      ghost

namespace Prompt

variable {α β : Type}

theorem pure (value : α) : Prompt workload lengths insert_start rounds (.done value) :=
  fun _ calm => calm

theorem bind {program : Choosing α} {next : α → Choosing β}
    (first : Prompt workload lengths insert_start rounds program)
    (rest : ∀ value, Prompt workload lengths insert_start rounds (next value)) :
    Prompt workload lengths insert_start rounds (program >>= next) :=
  fun ghost calm => Contract.returns_bind ((first ghost calm).mono fun value after kept =>
    rest value after kept)

/-- A generator other than the chooser of keys has an answer. -/
theorem ask {generator : Generator} (other : generator ≠ .key_chooser)
    (some : ∀ counter, ∃ answer,
      (workload.ranges lengths insert_start).allows counter generator answer) :
    Prompt workload lengths insert_start rounds (@Program.perform generators generator) := by
  intro ghost calm
  obtain ⟨answer, allowed⟩ := some ghost.1
  refine ⟨⟨answer, allowed, ?_⟩, fun answer _ => ?_⟩
  · cases generator <;> first | exact trivial | exact absurd rfl other
  · cases generator <;> first | exact calm | exact absurd rfl other

theorem forCount {body : Nat → β → Choosing β}
    (round : ∀ index value, Prompt workload lengths insert_start rounds (body index value))
    (index count : Nat) (start : β) :
    Prompt workload lengths insert_start rounds (Program.forCount body index count start) :=
  fun _ calm => Contract.returns_forCount round index count start calm

end Prompt

theorem prompt_nextSequenceKey :
    Prompt workload lengths insert_start rounds workload.nextSequenceKey :=
  .bind (.ask nofun fun counter => ⟨uint64 counter, rfl⟩) fun _ => .pure _

/-- The loop over the keys ends before its rounds do. -/
theorem prompt_nextTransactionKey (some : 0 < rounds) :
    Prompt workload lengths insert_start rounds (workload.nextTransactionKey rounds) := by
  suffices rest : ∀ (left : Nat) (ghost : Nat × Nat), 0 < left → ghost.2 + left = rounds →
      (workload.choosing lengths insert_start rounds).Returns (workload.nextTransactionKey left)
        (fun _ after => after.2 = 0) ghost from
    fun ghost calm => rest rounds ghost some (by omega)
  intro left
  induction left with
  | zero => exact fun ghost none => absurd none (Nat.not_lt_zero _)
  | succ left ih =>
      intro ghost _ total
      rw [nextTransactionKey_succ]
      refine Contract.returns_call ⟨(0 : Nat), trivial, .inl (Nat.zero_le _)⟩ ?_
      intro (key_num : Nat) (allowed : True ∧
        (key_num ≤ workload.lastInserted ∨ ghost.2 + 1 < rounds))
      have pending : ((workload.choosing lengths insert_start rounds).advance ghost
          ⟨.key_chooser, key_num⟩).2 = if workload.lastInserted < key_num then ghost.2 + 1 else 0 :=
        rfl
      refine Contract.returns_ite (fun missed => ?_) fun found => ?_
      · rw [if_pos missed] at pending
        have again := allowed.2.resolve_left (Nat.not_le_of_lt missed)
        exact ih _ (by omega) (by omega)
      · rw [if_neg found] at pending
        exact pending

theorem prompt_nextFieldName : Prompt workload lengths insert_start rounds nextFieldName :=
  .bind (.ask nofun fun _ => ⟨(0 : Nat), Int.emod_nonneg _ (by decide)⟩) fun _ => .pure _

variable (someLength : ∃ len, lengths len)
include someLength

theorem prompt_nextValue : Prompt workload lengths insert_start rounds nextValue :=
  .bind (.ask nofun fun _ => someLength) fun _ =>
    .bind (.ask nofun fun _ => ⟨'!', by decide, by decide⟩) fun _ => .pure _

theorem prompt_buildValues : Prompt workload lengths insert_start rounds workload.buildValues :=
  .forCount (fun _ _ => .bind (prompt_nextValue someLength) fun _ => .pure _) _ _ _

theorem prompt_updateValues :
    Prompt workload lengths insert_start rounds workload.updateValues := by
  unfold updateValues
  split
  · exact prompt_buildValues someLength
  · exact .bind prompt_nextFieldName fun _ => .bind (prompt_nextValue someLength) fun _ => .pure _

omit someLength in
theorem prompt_readFieldNames :
    Prompt workload lengths insert_start rounds workload.readFieldNames := by
  unfold readFieldNames
  split
  · exact .pure _
  · exact .bind prompt_nextFieldName fun _ => .pure _

theorem prompt_doTransaction (some : 0 < rounds) :
    Prompt workload lengths insert_start rounds (workload.doTransaction rounds) := by
  have key := @prompt_nextTransactionKey workload lengths insert_start rounds some
  refine .bind (.ask nofun fun _ => ⟨Transaction.read, trivial⟩) fun operation => ?_
  cases operation with
  | insert =>
      exact .bind prompt_nextSequenceKey fun _ => .bind (prompt_buildValues someLength) fun _ =>
        .pure _
  | read => exact .bind key fun _ => .bind prompt_readFieldNames fun _ => .pure _
  | update => exact .bind key fun _ => .bind (prompt_updateValues someLength) fun _ => .pure _
  | scan =>
      exact .bind key fun _ => .bind (.ask nofun fun _ => ⟨(0 : Nat), trivial⟩) fun _ =>
        .bind prompt_readFieldNames fun _ => .pure _
  | readModifyWrite =>
      exact .bind key fun _ => .bind prompt_readFieldNames fun _ =>
        .bind (prompt_updateValues someLength) fun _ => .pure _

theorem prompt_delegateClient (some : 0 < rounds) (num_ops : Nat) (is_loading : Bool) :
    Prompt workload lengths insert_start rounds
      (workload.delegateClient rounds num_ops is_loading) := by
  refine .forCount (fun _ _ => ?_) _ _ _
  cases is_loading with
  | true =>
      exact .bind (.bind prompt_nextSequenceKey fun _ => .bind (prompt_buildValues someLength)
        fun _ => .pure _) fun _ => .pure _
  | false => exact .bind (prompt_doTransaction someLength some) fun _ => .pure _

/-- The client ends with its calls. -/
theorem main_returns (someField : 0 < workload.field_count) (some : 0 < rounds)
    (operation_count : Nat) :
    (workload.choosing lengths insert_start rounds).Returns (workload.main rounds operation_count)
      (fun calls _ => workload.Calls lengths insert_start operation_count calls.1 calls.2)
      (insert_start, 0) := by
  have prompt : Prompt workload lengths insert_start rounds
      (workload.main rounds operation_count) :=
    .bind (prompt_delegateClient someLength some _ _) fun _ =>
      .bind (prompt_delegateClient someLength some _ _) fun _ => .pure _
  refine ((prompt (insert_start, 0) rfl).and_under
    (under_choosing (main_under someField rounds operation_count))).mono ?_
  exact fun _ _ both => both.2

end CoreWorkload

end LtramBench.Ycsb
