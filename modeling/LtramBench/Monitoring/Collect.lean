import LtramBench.Shell.Number

/-!
# One row of `meminfo_log.sh`

`collect` reads `/proc/meminfo` with one rule for each column: a regular
expression anchored at the front of the line stores the second field, and the
last line that matches wins.  The expressions are the names of the fields
without the colon, so they also match every field whose name is longer.
-/

namespace LtramBench.Monitoring

open LtramBench.Shell

/-! ## The program -/

/-- The value columns, in the order in which they are printed. -/
inductive Column where
  | anon
  | buf
  | pt
  | cache
  | mapped
  | sun
  | ks
  | vm
  | shmem
  | ahp
  deriving DecidableEq, Repr

namespace Column

def all : List Column :=
  [anon, buf, pt, cache, mapped, sun, ks, vm, shmem, ahp]

/-- The name of the field, which the rule of the column searches for. -/
def name : Column → Text
  | anon => "AnonPages".toList
  | buf => "Buffers".toList
  | pt => "PageTables".toList
  | cache => "Cached".toList
  | mapped => "Mapped".toList
  | sun => "SUnreclaim".toList
  | ks => "KernelStack".toList
  | vm => "VmallocUsed".toList
  | shmem => "Shmem".toList
  | ahp => "AnonHugePages".toList

theorem mem_all (column : Column) : column ∈ all := by
  cases column <;> decide

theorem colon_not_mem_name (column : Column) : ':' ∉ column.name := by
  cases column <;> decide

end Column

/-- `FS`. -/
def separator : Text :=
  ": ".toList

/-- The ten rules `/^Name/ { var=$2 }`, for one record; a variable that is not
set is empty. -/
def collectRule (_ : Nat) (record : Text) (stored : Column → Text) (column : Column) : Text :=
  if column.name.isPrefixOf record then field (fieldsText separator record) 2 else stored column

/-- The header that `collect` prints. -/
def collectHeader : Text :=
  joined ',' (["ts_s", "anon_kb", "buffers_kb", "pagetables_kb", "cache_kb", "mapped_kb",
    "slab_unreclaimable_kb", "kernel_stack_kb", "vmalloc_kb", "shmem_kb",
    "anon_hugepages_kb"].map String.toList)

/-- The row that one round of `collect` prints. -/
def collectRow (ts : Text) (meminfo : List Text) : Text :=
  let stored := scan collectRule 1 meminfo fun _ => []
  joined ',' (ts :: Column.all.map fun column => percentD (number (stored column)))

/-! ## The kernel's format -/

/-- A line of `/proc/meminfo`: the key, a colon, at least one blank, the value,
and perhaps the unit. -/
structure Line where
  key : Text
  clean : ':' ∉ key
  blanks : Nat
  value : Nat
  unit : Bool

/-- The text of a line. -/
def Line.render (line : Line) : Text :=
  line.key ++ (separator ++ (List.replicate line.blanks ' ' ++
    (decimal line.value ++ if line.unit then " kB".toList else [])))

/-- The value of the field with this name, `0` when there is none. -/
def fieldValue (name : Text) (lines : List Line) : Nat :=
  ((lines.find? fun line => line.key = name).map Line.value).getD 0

/-- The row with the value of its own field in each column. -/
def exactRow (ts : Text) (lines : List Line) : Text :=
  joined ',' (ts :: Column.all.map fun column => decimal (fieldValue column.name lines))

/-- A line whose key is longer than the name, and after which no key begins with
the name. -/
def Shadows (name : Text) (line : Line) (lines : List Line) : Prop :=
  ∃ before after, lines = before ++ line :: after ∧ name <+: line.key ∧ line.key ≠ name ∧
    ∀ later ∈ after, ¬ name <+: later.key

/-! ## What a column holds -/

/-- The second field of a line is its value, behind blanks and before the unit. -/
theorem field_two_render (line : Line) :
    field (fieldsText separator line.render) 2 =
      List.replicate line.blanks ' ' ++
        (decimal line.value ++ if line.unit then " kB".toList else []) := by
  have colonAbsent : ':' ∉ List.replicate line.blanks ' ' ++
      (decimal line.value ++ if line.unit then " kB".toList else []) := by
    have unitAbsent : ':' ∉ if line.unit then " kB".toList else [] := by
      cases line.unit <;> decide
    have blanksAbsent : ':' ∉ List.replicate line.blanks ' ' := by
      simp [List.mem_replicate]
    simp only [List.mem_append, not_or]
    exact ⟨blanksAbsent, not_mem_decimal rfl line.value, unitAbsent⟩
  have nonempty : line.render ≠ [] := by
    simp [Line.render, separator]
  rw [fieldsText, if_neg nonempty, Line.render]
  have pieces := @splitText_append ':' [' '] line.key line.clean
    (List.replicate line.blanks ' ' ++ (decimal line.value ++ if line.unit then " kB".toList else []))
  rw [splitText_of_not_mem colonAbsent] at pieces
  exact congrArg (field · 2) pieces

theorem number_field_two_render (line : Line) :
    number (field (fieldsText separator line.render) 2) = line.value := by
  have ends : EndsNatural (if line.unit then " kB".toList else []) := by
    cases line.unit
    · exact endsNatural_nil
    · rintro char same
      cases same
      decide
  rw [field_two_render, number_decimal ends]

theorem isPrefixOf_render (column : Column) (line : Line) :
    column.name.isPrefixOf line.render = column.name.isPrefixOf line.key := by
  have ends : EndsAt ':' (separator ++ (List.replicate line.blanks ' ' ++
      (decimal line.value ++ if line.unit then " kB".toList else []))) := by
    rintro char same
    cases same
    rfl
  exact isPrefixOf_append column.colon_not_mem_name ends

/-- The value of the last line whose key begins with the name. -/
def lastValue (name : Text) (lines : List Line) : Nat :=
  ((lines.reverse.find? fun line => name.isPrefixOf line.key).map Line.value).getD 0

/-- The rule of a column keeps the last line that matches. -/
theorem number_scan_collectRule (column : Column) (lines : List Line) (nr : Nat) :
    number (scan collectRule nr (lines.map Line.render) (fun _ => []) column) =
      lastValue column.name lines := by
  induction lines using List.reverseRecOn with
  | nil => simp [lastValue]
  | append_singleton lines line ih =>
      rw [List.map_append, List.map_singleton, scan_append, scan_cons, scan_nil, collectRule,
        isPrefixOf_render, lastValue, List.reverse_append, List.reverse_singleton,
        List.singleton_append, List.find?_cons]
      split
      · rename_i matched
        rw [matched, number_field_two_render]
        rfl
      · rename_i missed
        rw [Bool.not_eq_true] at missed
        rw [missed]
        exact ih

/-- The row, column by column. -/
theorem collectRow_render (ts : Text) (lines : List Line) :
    collectRow ts (lines.map Line.render) =
      joined ',' (ts :: Column.all.map fun column => decimal (lastValue column.name lines)) := by
  simp only [collectRow, number_scan_collectRule, percentD_natCast]

theorem exactRow_eq_iff (ts : Text) (lines : List Line) :
    collectRow ts (lines.map Line.render) = exactRow ts lines ↔
      ∀ column : Column, lastValue column.name lines = fieldValue column.name lines := by
  have clean : ∀ values : Column → Nat,
      ∀ part ∈ Column.all.map fun column => decimal (values column), ',' ∉ part := by
    intro values part member
    obtain ⟨column, -, rfl⟩ := List.mem_map.mp member
    exact not_mem_decimal rfl (values column)
  rw [collectRow_render, exactRow, joined_cons_inj (clean _) (clean _) (by simp [Column.all])
    (by simp [Column.all]), List.map_inj_left]
  constructor
  · intro same column
    exact decimal_injective (same column column.mem_all)
  · intro same column _
    rw [same column]

/-! ## Shadowing -/

/-- A line that shadows the name is the last one to match it. -/
theorem Shadows.find?_eq {name : Text} {line : Line} {lines : List Line}
    (shadows : Shadows name line lines) :
    lines.reverse.find? (fun line => name.isPrefixOf line.key) = some line := by
  obtain ⟨before, after, rfl, front, -, last⟩ := shadows
  rw [List.find?_eq_some_iff_append]
  refine ⟨List.isPrefixOf_iff_prefix.mpr front, after.reverse, before.reverse, by simp, ?_⟩
  intro later member
  rw [Bool.not_eq_true', ← Bool.not_eq_true, List.isPrefixOf_iff_prefix]
  exact last later (List.mem_reverse.mp member)

/-- With distinct keys, a field is found by its key. -/
theorem fieldValue_of_mem {lines : List Line} (distinct : (lines.map Line.key).Nodup) {line : Line}
    (member : line ∈ lines) : fieldValue line.key lines = line.value := by
  induction lines with
  | nil => cases member
  | cons first rest ih =>
      rw [List.map_cons, List.nodup_cons] at distinct
      rcases List.mem_cons.mp member with rfl | later
      · simp [fieldValue]
      · have other : first.key ≠ line.key :=
          fun same => distinct.1 (List.mem_map.mpr ⟨line, later, same.symm⟩)
        rw [fieldValue, List.find?_cons_of_neg (by simpa using other)]
        exact ih distinct.2 later

theorem fieldValue_of_not_mem {name : Text} {lines : List Line}
    (absent : ∀ line ∈ lines, line.key ≠ name) : fieldValue name lines = 0 := by
  have missed : lines.find? (fun line => line.key = name) = none := by
    rw [List.find?_eq_none]
    intro line member
    simpa using absent line member
  rw [fieldValue, missed]
  rfl

/-- A column is right exactly when the line that shadows it, if there is one,
has the same value. -/
theorem lastValue_eq_fieldValue_iff (name : Text) {lines : List Line}
    (distinct : (lines.map Line.key).Nodup) :
    lastValue name lines = fieldValue name lines ↔
      ∀ line, Shadows name line lines → line.value = fieldValue name lines := by
  constructor
  · intro right line shadows
    rw [← right, lastValue, shadows.find?_eq]
    rfl
  · intro carried
    cases found : lines.reverse.find? (fun line => name.isPrefixOf line.key) with
    | none =>
        have absent : ∀ line ∈ lines, line.key ≠ name := by
          rintro line member rfl
          have missed := List.find?_eq_none.mp found line (List.mem_reverse.mpr member)
          exact missed (List.isPrefixOf_iff_prefix.mpr List.prefix_rfl)
        rw [fieldValue_of_not_mem absent, lastValue, found]
        rfl
    | some line =>
        obtain ⟨matched, after, before, order, last⟩ := List.find?_eq_some_iff_append.mp found
        have split : lines = before.reverse ++ line :: after.reverse := by
          rw [← List.reverse_reverse lines, order]
          simp
        have value : lastValue name lines = line.value := by
          rw [lastValue, found]
          rfl
        rw [value]
        by_cases own : line.key = name
        · subst own
          exact (fieldValue_of_mem distinct (by rw [split]; simp)).symm
        · apply carried
          refine ⟨before.reverse, after.reverse, split, List.isPrefixOf_iff_prefix.mp matched, own, ?_⟩
          intro later member front
          have missed := last later (List.mem_reverse.mp member)
          simp [List.isPrefixOf_iff_prefix.mpr front] at missed

/-- For every `/proc/meminfo` with distinct keys, the row holds in each column the
value of the column's own field exactly when every line that shadows a column
has that very value. -/
theorem collectRow_eq_exactRow_iff (ts : Text) {lines : List Line}
    (distinct : (lines.map Line.key).Nodup) :
    collectRow ts (lines.map Line.render) = exactRow ts lines ↔
      ∀ (column : Column) (line : Line), Shadows column.name line lines →
        line.value = fieldValue column.name lines := by
  rw [exactRow_eq_iff]
  exact forall_congr' fun column => lastValue_eq_fieldValue_iff column.name distinct

/-- The shared-memory lines as the kernel prints them, with a page in use. -/
def shmemLines : List Line :=
  [⟨"Shmem".toList, by decide, 12, 100, true⟩, ⟨"ShmemHugePages".toList, by decide, 7, 0, true⟩]

/-- Without huge pages the column of `Shmem` is `0` whatever `Shmem` is. -/
theorem collectRow_shmem_shadowed :
    collectRow "1.5".toList (shmemLines.map Line.render) ≠ exactRow "1.5".toList shmemLines := by
  rw [ne_eq, exactRow_eq_iff]
  intro right
  exact absurd (right .shmem) (by decide)

/-- The cache lines as the kernel prints them. -/
def cacheLines : List Line :=
  [⟨"Cached".toList, by decide, 11, 42, true⟩, ⟨"SwapCached".toList, by decide, 9, 7, true⟩]

/-- A key that only ends with the name of a column does not disturb it. -/
theorem collectRow_cache_exact :
    collectRow "1.5".toList (cacheLines.map Line.render) = exactRow "1.5".toList cacheLines := by
  rw [collectRow_eq_exactRow_iff _ (by decide)]
  rintro column line ⟨before, after, split, front, other, -⟩
  have member : line ∈ cacheLines := by
    rw [split]
    simp
  simp only [cacheLines, List.mem_cons, List.not_mem_nil, or_false] at member
  rcases member with rfl | rfl
  · cases column <;> revert front other <;> decide
  · cases column <;> revert front <;> decide

end LtramBench.Monitoring
