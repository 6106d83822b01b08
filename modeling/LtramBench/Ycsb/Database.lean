import LtramBench.Shell.Fields
import Mathlib.Logic.Function.Basic

/-!
# Databases of records

The interface of `db.h`, and what it is for: a record is a partial function from
fields to values, and the calls of a client read and write records.
-/

namespace LtramBench.Ycsb

open LtramBench.Shell

/-- A field and its value. -/
abbrev KVPair := Text × Text

/-- The calls of a client of the database. -/
inductive Operation where
  | read (key : Text) (fields : Option (List Text))
  | scan (key : Text) (len : Int) (fields : Option (List Text))
  | update (key : Text) (values : List KVPair)
  | insert (key : Text) (values : List KVPair)
  | delete (key : Text)

/-! ## Records -/

/-- The values of the fields of a record. -/
abbrev Record := Text → Option Text

namespace Record

/-- A record without fields. -/
def empty : Record := fun _ => none

/-- Write some values, one after the other. -/
def write (record : Record) (values : List KVPair) : Record :=
  values.foldl (fun record p => Function.update record p.1 (some p.2)) record

/-- The entries of a record in some order, each once. -/
structure Lists (record : Record) (entries : List KVPair) : Prop where
  nodup : (entries.map Prod.fst).Nodup
  mem_iff : ∀ p, p ∈ entries ↔ record p.1 = some p.2

@[simp]
theorem write_nil (record : Record) : record.write [] = record :=
  rfl

@[simp]
theorem write_cons (record : Record) (p : KVPair) (values : List KVPair) :
    record.write (p :: values) = write (Function.update record p.1 (some p.2)) values :=
  rfl

theorem write_append (record : Record) (first second : List KVPair) :
    record.write (first ++ second) = (record.write first).write second :=
  List.foldl_append

/-- What a record holds after writing was there or was written. -/
theorem write_eq_some {record : Record} {values : List KVPair} {field value : Text}
    (found : record.write values field = some value) :
    (field, value) ∈ values ∨ record field = some value := by
  induction values generalizing record with
  | nil => exact .inr found
  | cons p rest ih =>
      rw [write_cons] at found
      rcases ih found with later | now
      · exact .inl (List.mem_cons_of_mem p later)
      · by_cases same : field = p.1
        · rw [same, Function.update_self] at now
          have pair : (field, value) = p := Prod.ext same (Option.some.inj now).symm
          exact .inl (pair ▸ List.mem_cons_self)
        · rw [Function.update_of_ne same] at now
          exact .inr now

/-- A record has the fields that were written and those it had before. -/
theorem isSome_write (record : Record) (values : List KVPair) (field : Text) :
    (record.write values field).isSome = true ↔
      field ∈ values.map Prod.fst ∨ (record field).isSome = true := by
  induction values generalizing record with
  | nil =>
      rw [write_nil, List.map_nil]
      exact (or_iff_right List.not_mem_nil).symm
  | cons p rest ih =>
      rw [write_cons, ih, List.map_cons, List.mem_cons]
      by_cases same : field = p.1
      · rw [same, Function.update_self]
        simp
      · rw [Function.update_of_ne same]
        simp only [same, false_or]

end Record

end LtramBench.Ycsb
