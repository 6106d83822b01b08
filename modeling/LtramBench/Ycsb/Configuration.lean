import LtramBench.Shell.Number
import LtramBench.Ycsb.Options
import LtramBench.Ycsb.Workload

/-!
# What the properties configure

The first half of `main`, `CreateDB` and `CoreWorkload::Init`: the properties are
read as numbers, switches and names, each with a default.  What is computed with
`double` is a parameter.

The process ends when an exception is not caught, when an assertion fails, and, as far
as this model goes, when the behaviour is undefined.
-/

namespace LtramBench.Ycsb

open LtramBench.Shell

/-! ## Reading a property -/

def getProperty (props : Record) (key default_value : Text) : Text :=
  (props key).getD default_value

/-- `stoi`, unless it throws. -/
def stoi (str : Text) : Option Int :=
  let signed := readSign (str.dropWhile isspace)
  let digits := signed.2.takeWhile Char.isDigit
  let value : Int := if signed.1 then -digitsValue digits else digitsValue digits
  if digits ≠ [] ∧ -2 ^ 31 ≤ value ∧ value < 2 ^ 31 then some value else none

/-- `StrToBool`, unless it throws. -/
def strToBool (str : Text) : Option Bool :=
  let str := str.map Char.toLower
  if str = "true".toList ∨ str = "1".toList then some true
  else if str = "false".toList ∨ str = "0".toList then some false
  else none

/-- The databases that can be created when TBB is not used. -/
inductive Database where
  | basic
  | lockStl
  | redis (host : Text) (port slaves : Int)
  deriving DecidableEq

/-- `CreateDB`: nothing if `stoi` throws, and `some none` for the null pointer.  A
connection to Redis is taken to succeed. -/
def createDB (props : Record) : Option (Option Database) :=
  let dbname := getProperty props "dbname".toList []
  if dbname = "basic".toList then some (some .basic)
  else if dbname = "lock_stl".toList then some (some .lockStl)
  else if dbname = "redis".toList then do
    let port ← stoi (getProperty props "port".toList "6379".toList)
    let slaves ← stoi (getProperty props "slaves".toList "0".toList)
    pure (some (.redis (getProperty props "host".toList "127.0.0.1".toList) port slaves))
  else some none

/-! ## Initializing the workload -/

/-- What is computed with `double`: whether `stod` accepts a text, and the keys that
some operations add when a proportion of them inserts. -/
structure Doubles where
  stod : Text → Bool
  new_keys : Int → Text → Int

/-- An `int` as a `uint64_t`. -/
def toUint64 (value : Int) : Nat :=
  (value % 2 ^ 64).toNat

def kMaxNumItems : Nat :=
  (2 ^ 64 - 1) >>> 24

/-- The assertion of `ZipfianGenerator`. -/
def zipfianAccepts (num_items : Nat) : Bool :=
  2 ≤ num_items ∧ num_items < kMaxNumItems

/-- A `UniformGenerator` or a `ZipfianGenerator` from 1 on. -/
def fromOneAccepts (dist : Text) (max : Int) : Bool :=
  if dist = "uniform".toList then 1 ≤ toUint64 max
  else if dist = "zipfian".toList then zipfianAccepts (toUint64 max)
  else false

/-- The generators of field lengths. -/
inductive FieldLengths where
  | constant (field_len : Int)
  | uniform (field_len : Int)
  | zipfian (field_len : Int)
  deriving DecidableEq

def getFieldLenGenerator (props : Record) : Option FieldLengths := do
  let field_len_dist := getProperty props "field_len_dist".toList "constant".toList
  let field_len ← stoi (getProperty props "fieldlength".toList "100".toList)
  if field_len_dist = "constant".toList then pure (.constant field_len)
  else if fromOneAccepts field_len_dist field_len then
    if field_len_dist = "uniform".toList then pure (.uniform field_len)
    else pure (.zipfian field_len)
  else none

/-- The generator of keys: the zipfian distribution has places for new keys, and the
latest one goes back from the last key. -/
def requestAccepts (doubles : Doubles) (props : Record) (record_count : Int) : Bool :=
  let request_dist := getProperty props "requestdistribution".toList "uniform".toList
  if request_dist = "uniform".toList then true
  else if request_dist = "zipfian".toList then
    match stoi (getProperty props "operationcount".toList []) with
    | none => false
    | some op_count =>
        let insert_proportion := getProperty props "insertproportion".toList "0.0".toList
        zipfianAccepts (toUint64 (record_count + doubles.new_keys op_count insert_proportion))
  else if request_dist = "latest".toList then zipfianAccepts (toUint64 (record_count - 1))
  else false

/-- The properties of the proportions and their defaults. -/
def proportions : List KVPair :=
  [("readproportion".toList, "0.95".toList), ("updateproportion".toList, "0.05".toList),
    ("insertproportion".toList, "0.0".toList), ("scanproportion".toList, "0.0".toList),
    ("readmodifywriteproportion".toList, "0.0".toList)]

/-- What `Init` makes of the properties. -/
structure Initialized where
  workload : CoreWorkload
  field_lengths : FieldLengths
  insert_start : Int
  max_scan_len : Int

/-- `CoreWorkload::Init`, unless the process ends. -/
def init (doubles : Doubles) (props : Record) : Option Initialized := do
  let field_count ← stoi (getProperty props "fieldcount".toList "10".toList)
  let field_lengths ← getFieldLenGenerator props
  guard (proportions.all fun p => doubles.stod (getProperty props p.1 p.2))
  let record_count ← stoi (getProperty props "recordcount".toList [])
  let zero_padding ← stoi (getProperty props "zeropadding".toList "1".toList)
  let max_scan_len ← stoi (getProperty props "maxscanlength".toList "1000".toList)
  let scan_len_dist := getProperty props "scanlengthdistribution".toList "uniform".toList
  let insert_start ← stoi (getProperty props "insertstart".toList "0".toList)
  let read_all_fields ← strToBool (getProperty props "readallfields".toList "true".toList)
  let write_all_fields ← strToBool (getProperty props "writeallfields".toList "false".toList)
  let ordered_inserts := getProperty props "insertorder".toList "hashed".toList ≠ "hashed".toList
  guard (requestAccepts doubles props record_count)
  guard (fromOneAccepts scan_len_dist max_scan_len)
  pure
    { workload :=
        { field_count, read_all_fields, write_all_fields, ordered_inserts, zero_padding
          record_count := toUint64 record_count }
      field_lengths, insert_start, max_scan_len }

/-! ## Starting -/

/-- What `main` reads.  The number of operations is read after loading, and may be
missing until then. -/
structure Settings where
  db : Database
  initialized : Initialized
  num_threads : Int
  total_loads : Int
  total_transactions : Option Int

inductive Started where
  | clients (settings : Settings)
  | exited (output : Text)
  | aborted

/-- `main`, up to its first client. -/
def start (doubles : Doubles) (files : Text → Option Text) (command : Text)
    (args : List Text) : Started :=
  match parseCommandLine files command args with
  | .exited output => .exited output
  | .aborted => .aborted
  | .returned _ props =>
      match createDB props with
      | none => .aborted
      | some none =>
          -- `props["dbname"]` throws when there is none
          match props "dbname".toList with
          | none => .aborted
          | some dbname => .exited ("Unknown database name ".toList ++ dbname ++ ['\n'])
      | some (some db) =>
          let settings : Option Settings := do
            let initialized ← init doubles props
            let num_threads ← stoi (getProperty props "threadcount".toList "1".toList)
            let total_loads ← (props "recordcount".toList).bind stoi
            pure
              { db, initialized, num_threads, total_loads
                total_transactions := (props "operationcount".toList).bind stoi }
          match settings with
          | none => .aborted
          | some settings => .clients settings

/-! ## Numbers and switches are read back -/

/-- What fits into an `int`. -/
def InInt (value : Int) : Prop :=
  -2 ^ 31 ≤ value ∧ value < 2 ^ 31

instance (value : Int) : Decidable (InInt value) :=
  inferInstanceAs (Decidable (_ ∧ _))

/-- The text of a switch. -/
def boolText (value : Bool) : Text :=
  if value then "true".toList else "false".toList

/-- The properties of a setting with their defaults, and the texts that they need. -/
def Database.spelled : Database → List (KVPair × Text)
  | .basic => [(("dbname".toList, []), "basic".toList)]
  | .lockStl => [(("dbname".toList, []), "lock_stl".toList)]
  | .redis host port slaves =>
      [(("dbname".toList, []), "redis".toList),
        (("host".toList, "127.0.0.1".toList), host),
        (("port".toList, "6379".toList), printInt port),
        (("slaves".toList, "0".toList), printInt slaves)]

def FieldLengths.spelled (field_lengths : FieldLengths) : List (KVPair × Text) :=
  let (dist, field_len) : Text × Int := match field_lengths with
    | .constant field_len => ("constant".toList, field_len)
    | .uniform field_len => ("uniform".toList, field_len)
    | .zipfian field_len => ("zipfian".toList, field_len)
  [(("field_len_dist".toList, "constant".toList), dist),
    (("fieldlength".toList, "100".toList), printInt field_len)]

/-- The properties that `Init` reads as numbers, switches and names. -/
def Initialized.spelled (initialized : Initialized) : List (KVPair × Text) :=
  let workload := initialized.workload
  initialized.field_lengths.spelled ++
    [(("fieldcount".toList, "10".toList), printInt workload.field_count),
      (("zeropadding".toList, "1".toList), printInt workload.zero_padding),
      (("maxscanlength".toList, "1000".toList), printInt initialized.max_scan_len),
      (("insertstart".toList, "0".toList), printInt initialized.insert_start),
      (("readallfields".toList, "true".toList), boolText workload.read_all_fields),
      (("writeallfields".toList, "false".toList), boolText workload.write_all_fields),
      (("insertorder".toList, "hashed".toList),
        if workload.ordered_inserts then "ordered".toList else "hashed".toList)]

def Settings.spelled (settings : Settings) : List (KVPair × Text) :=
  settings.db.spelled ++ settings.initialized.spelled ++
    [(("threadcount".toList, "1".toList), printInt settings.num_threads),
      (("recordcount".toList, []), printInt settings.total_loads),
      (("operationcount".toList, []), (settings.total_transactions.map printInt).getD [])]

/-- The numbers of a database. -/
def Database.Fits : Database → Prop
  | .redis _ port slaves => InInt port ∧ InInt slaves
  | _ => True

/-- The numbers of a generator, which it accepts. -/
def FieldLengths.Fits : FieldLengths → Prop
  | .constant field_len => InInt field_len
  | .uniform field_len => InInt field_len ∧ fromOneAccepts "uniform".toList field_len = true
  | .zipfian field_len => InInt field_len ∧ fromOneAccepts "zipfian".toList field_len = true

/-- The numbers that `Init` reads fit into an `int`. -/
structure Initialized.Fits (initialized : Initialized) : Prop where
  field_lengths : initialized.field_lengths.Fits
  field_count : InInt initialized.workload.field_count
  zero_padding : InInt initialized.workload.zero_padding
  max_scan_len : InInt initialized.max_scan_len
  insert_start : InInt initialized.insert_start

/-- Settings whose numbers fit into an `int`; the records are counted in `size_t`. -/
structure Settings.Fits (settings : Settings) : Prop where
  db : settings.db.Fits
  initialized : settings.initialized.Fits
  num_threads : InInt settings.num_threads
  total_loads : InInt settings.total_loads
  total_transactions : ∀ value ∈ settings.total_transactions, InInt value
  record_count : settings.initialized.workload.record_count = toUint64 settings.total_loads

section Reading

variable {props : Record} {doubles : Doubles}

end Reading

/-- Without the name of a database nothing starts, although the usage message has a
default for it. -/
theorem start_without_dbname (doubles : Doubles) (files : Text → Option Text) (command : Text)
    {args : List Text} (nonempty : args ≠ []) {last : Text} {sets : List KVPair}
    (reads : OptionsSet files [] args last sets)
    (unnamed : "dbname".toList ∉ sets.map Prod.fst) :
    start doubles files command args = .aborted := by
  have missing : Record.empty.write sets "dbname".toList = none := by
    rw [← Option.not_isSome_iff_eq_none, Record.isSome_write]
    rintro (named | before)
    · exact unnamed named
    · cases before
  have dbname : getProperty (Record.empty.write sets) "dbname".toList [] = [] := by
    rw [getProperty, missing]
    rfl
  have noDatabase : createDB (Record.empty.write sets) = some none := by
    rw [createDB, dbname]
    rfl
  unfold start
  rw [parseCommandLine_of_optionsSet nonempty reads]
  dsimp only
  rw [noDatabase, missing]

theorem start_without_dbname_threads :
    start ⟨fun _ => true, fun _ _ => 0⟩ (fun _ => none) "ycsbc".toList
        ["-threads".toList, "4".toList] = .aborted :=
  start_without_dbname _ _ _ (List.cons_ne_nil _ _)
    (.property (p := ("-threads".toList, "threadcount".toList)) (by decide) .nil) (by decide)

end LtramBench.Ycsb
