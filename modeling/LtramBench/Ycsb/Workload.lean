import LtramBench.Interaction.Contract
import LtramBench.Shell.Number
import LtramBench.Ycsb.Database

/-!
# The workload and its client

`core_workload.cc`, `client.h` and the loops of `ycsbc.cc`.  A client asks generators
what to do next and calls the database; what it asks and calls does not depend on what
the database returns, so a client is a program over the generators that collects its
calls.
-/

namespace LtramBench.Ycsb

open LtramBench.Interaction LtramBench.Shell

/-! ## Generators -/

/-- The operations of `op_chooser_`. -/
inductive Transaction where
  | insert
  | read
  | update
  | scan
  | readModifyWrite

/-- What is asked of the generators and of `rand`. -/
inductive Generator where
  | key_generator
  | key_chooser
  | field_chooser
  | field_len_generator
  | scan_len_chooser
  | op_chooser
  | randomPrintChar

/-- The generators; those of numbers give a `uint64_t`. -/
def generators : Interface where
  Call := Generator
  Answer
    | .op_chooser => Transaction
    | .randomPrintChar => Char
    | _ => Nat

/-- A number in a `uint64_t`. -/
def uint64 (value : Nat) : Nat :=
  value % 0x10000000000000000

/-- A program that asks generators. -/
abbrev Choosing := Program generators

/-- The members of a workload that are not generators. -/
structure CoreWorkload where
  field_count : Int
  read_all_fields : Bool
  write_all_fields : Bool
  ordered_inserts : Bool
  record_count : Nat
  zero_padding : Int

/-! ## Keys -/

def kFNVOffsetBasis64 : UInt64 := 0xCBF29CE484222325

def kFNVPrime64 : UInt64 := 1099511628211

/-- Some rounds of the loop over the octets. -/
def fnvRounds : Nat → UInt64 → UInt64 → UInt64
  | 0, _, hash => hash
  | rounds + 1, val, hash =>
      fnvRounds rounds (val >>> 8) ((hash ^^^ (val &&& 0x00ff)) * kFNVPrime64)

def fnvHash64 (val : UInt64) : UInt64 :=
  fnvRounds 8 val kFNVOffsetBasis64

namespace CoreWorkload

variable (workload : CoreWorkload)

/-- The difference with the length is taken in `size_t` and put into an `int`. -/
def buildKeyName (key_num : Nat) : Text :=
  let key_num := if workload.ordered_inserts then key_num
    else (fnvHash64 (.ofNat key_num)).toNat
  let key_num_str := decimal key_num
  let zeros := (workload.zero_padding - key_num_str.length).bmod (2 ^ 32)
  "user".toList ++ List.replicate zeros.toNat '0' ++ key_num_str

/-- `insert_key_sequence_.Last()`: nothing moves this counter. -/
def lastInserted : Nat :=
  uint64 (workload.record_count + 0xFFFFFFFFFFFFFFFF)

def nextSequenceKey : Choosing Text := do
  let key_num : Nat ← @Program.perform generators .key_generator
  pure (workload.buildKeyName key_num)

/-- So many rounds of the loop. -/
def nextTransactionKey : Nat → Choosing Text
  | 0 => .crash
  | rounds + 1 => do
      let key_num : Nat ← @Program.perform generators .key_chooser
      if workload.lastInserted < key_num then nextTransactionKey rounds
      else pure (workload.buildKeyName key_num)

theorem nextTransactionKey_succ (rounds : Nat) :
    workload.nextTransactionKey (rounds + 1) = .call .key_chooser fun (key_num : Nat) =>
      if workload.lastInserted < key_num then workload.nextTransactionKey rounds
      else .done (workload.buildKeyName key_num) :=
  rfl

/-! ## Fields and values -/

/-- The name of a field. -/
def fieldName (index : Nat) : Text :=
  "field".toList ++ decimal index

def nextFieldName : Choosing Text := do
  let index : Nat ← @Program.perform generators .field_chooser
  pure (fieldName index)

/-- A value: one character, over and over. -/
def nextValue : Choosing Text := do
  let len : Nat ← @Program.perform generators .field_len_generator
  let char : Char ← @Program.perform generators .randomPrintChar
  pure (List.replicate len char)

def buildValues : Choosing (List KVPair) :=
  Program.forCount (fun i values => do
    let value ← nextValue
    pure (values ++ [(fieldName i, value)])) 0 workload.field_count.toNat []

def buildUpdate : Choosing (List KVPair) := do
  let field ← nextFieldName
  let value ← nextValue
  pure [(field, value)]

/-! ## Clients -/

/-- The values of an update. -/
def updateValues : Choosing (List KVPair) :=
  if workload.write_all_fields then workload.buildValues else buildUpdate

/-- The fields of a read; the name of a field is put behind another `field`. -/
def readFieldNames : Choosing (Option (List Text)) :=
  if workload.read_all_fields then pure none
  else do
    let name ← nextFieldName
    pure (some ["field".toList ++ name])

def doInsert : Choosing Operation := do
  let key ← workload.nextSequenceKey
  let pairs ← workload.buildValues
  pure (.insert key pairs)

variable (fuel : Nat)

def transactionRead : Choosing (List Operation) := do
  let key ← workload.nextTransactionKey fuel
  let fields ← workload.readFieldNames
  pure [.read key fields]

def transactionReadModifyWrite : Choosing (List Operation) := do
  let key ← workload.nextTransactionKey fuel
  let fields ← workload.readFieldNames
  let values ← workload.updateValues
  pure [.read key fields, .update key values]

def transactionScan : Choosing (List Operation) := do
  let key ← workload.nextTransactionKey fuel
  let len : Nat ← @Program.perform generators .scan_len_chooser
  let fields ← workload.readFieldNames
  pure [.scan key ((len : Int).bmod (2 ^ 32)) fields]

def transactionUpdate : Choosing (List Operation) := do
  let key ← workload.nextTransactionKey fuel
  let values ← workload.updateValues
  pure [.update key values]

def transactionInsert : Choosing (List Operation) := do
  let key ← workload.nextSequenceKey
  let values ← workload.buildValues
  pure [.insert key values]

def doTransaction : Choosing (List Operation) := do
  let operation : Transaction ← @Program.perform generators .op_chooser
  match operation with
  | .read => workload.transactionRead fuel
  | .update => workload.transactionUpdate fuel
  | .insert => workload.transactionInsert
  | .scan => workload.transactionScan fuel
  | .readModifyWrite => workload.transactionReadModifyWrite fuel

/-- The calls of `DelegateClient`. -/
def delegateClient (num_ops : Nat) (is_loading : Bool) : Choosing (List Operation) :=
  Program.forCount (fun _ calls => do
    let next ← if is_loading then do
        let call ← workload.doInsert
        pure [call]
      else workload.doTransaction fuel
    pure (calls ++ next)) 0 num_ops []

/-- The calls of `main` with one thread: loading, and then transactions. -/
def main (operation_count : Nat) : Choosing (List Operation × List Operation) := do
  let loads ← workload.delegateClient fuel workload.record_count true
  let transactions ← workload.delegateClient fuel operation_count false
  pure (loads, transactions)

end CoreWorkload

end LtramBench.Ycsb
