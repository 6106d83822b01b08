import LtramBench.Shell.Words
import Mathlib.Tactic.Linarith

/-!
# The placement report of `profile_workload.sh`

`node_snap` reads the `meminfo` and the `numastat` of the LtRAM node into lines
`key value`; a file that cannot be read contributes nothing.  The report compares
the snapshot from before the run with the one from after it.  Memory fields are
in kB and are shown in pages of 4 KB.
-/

namespace LtramBench.Profile

open LtramBench.Shell

/-! ## `node_snap` -/

/-- `$i ~ /:$/`. -/
def endsInColon (text : Text) : Bool :=
  text.getLast? = some ':'

/-- What the loop of `node_snap` prints, from some field on: a field that ends in a
colon, without it, and the field behind it. -/
def keyLines : List Text → List Text
  | [] => []
  | part :: rest =>
      (if endsInColon part then [part.dropLast ++ ' ' :: rest.headD []] else []) ++ keyLines rest

/-- `node_snap`; a file that is not readable is absent. -/
def nodeSnap (meminfo numastat : Option (List Text)) : List Text :=
  (meminfo.getD []).flatMap (fun record => keyLines (words record)) ++ numastat.getD []

/-! ## The report -/

def allocationKeys : List Text :=
  ["numa_hit", "local_node", "other_node", "numa_miss", "numa_foreign"].map String.toList

def memoryKeys : List Text :=
  ["MemUsed", "FilePages", "AnonPages", "Active(file)", "Inactive(file)", "Dirty", "Writeback",
    "Mapped", "Shmem"].map String.toList

/-- `printf "%-18s %+d  (allocs into LtRAM node)\n"`. -/
def allocationLine (key : Text) (delta : ℚ) : Text :=
  padEnd 18 key ++ " ".toList ++ percentPlusD delta ++ "  (allocs into LtRAM node)".toList

/-- `printf "%-18s %+d pages\n"`. -/
def memoryLine (key : Text) (pages : ℚ) : Text :=
  padEnd 18 key ++ " ".toList ++ percentPlusD pages ++ " pages".toList

/-- The array `b` and what was printed. -/
structure PlacementState where
  before : Text → Text
  printed : List Text

/-- `b[$1]=$2`. -/
def assignNode (record : Text) (before : Text → Text) : Text → Text :=
  assign before (field (words record) 1) (field (words record) 2)

/-- The rule for the first file. -/
def storeNode (record : Text) (state : PlacementState) : PlacementState :=
  { state with before := assignNode record state.before }

/-- The rule for the second file. -/
def compareNode (record : Text) (state : PlacementState) : PlacementState :=
  let key := field (words record) 1
  let d := number (field (words record) 2) - number (state.before key)
  if key ∈ allocationKeys then
    { state with printed := state.printed ++ [allocationLine key d] }
  else if key ∈ memoryKeys then
    { state with printed := state.printed ++ [memoryLine key (truncate (d / 4))] }
  else state

/-- What the `awk` program of the report prints for the two files. -/
def nodeDeltas (before after : List Text) : List Text :=
  (scanFiles (fun nr fnr record state =>
      if nr = fnr then storeNode record state else compareNode record state)
    0 [before, after] ⟨fun _ => [], []⟩).printed

/-- The two lines above the deltas. -/
def placementHeader (label node : Text) : List Text :=
  ["# LtRAM placement for ".toList ++ label ++ " (node ".toList ++ node ++
      " = ZONE_LTRAM only)".toList,
    "# memory deltas in 4 KB pages; numa_* are cumulative alloc counts".toList]

/-- The lines below the deltas. -/
def placementNotes : List Text :=
  ["---",
    "FilePages delta = read-only/file data placed in LtRAM (the target case)",
    "AnonPages delta = anonymous pages in LtRAM (read-only anon routing)",
    "Dirty/Writeback = LtRAM pages that got WRITTEN -> should stay ~0 if",
    "                  read-only placement is safe for this workload"].map String.toList

/-- The line that replaces the deltas. -/
def placementUnavailable (node : Text) : Text :=
  "(node ".toList ++ node ++ " stats unavailable -- no LtRAM node or sysfs not mounted)".toList

/-- The report; `[ -s FILE ]` asks for a file that is not empty. -/
def placement (label node : Text) (before after : List Text) : List Text :=
  placementHeader label node ++
    if before ≠ [] ∧ after ≠ [] then nodeDeltas before after ++ placementNotes
    else [placementUnavailable node]

/-! ## The files of a node -/

/-- A line of `meminfo`: the node, the key with its colon, the value, and a unit
for most keys. -/
structure MeminfoLine extends Pair where
  node : Nat
  gap : Nat
  inKb : Bool

def MeminfoLine.render (line : MeminfoLine) : Text :=
  "Node".toList ++ ' ' :: (decimal line.node ++ ' ' :: (line.key ++ [':'] ++ ' ' ::
    (List.replicate line.gap ' ' ++
      (decimal line.value ++ if line.inKb then ' ' :: "kB".toList else []))))

/-- The two files of a node at one moment, each of which may be unreadable. -/
structure NodeFiles where
  meminfo : Option (List MeminfoLine)
  numastat : Option (List Pair)
  distinct : ((meminfo.getD []).map (fun line => line.key) ++
    (numastat.getD []).map Pair.key).Nodup

namespace NodeFiles

/-- The entries of both files, in order. -/
def entries (files : NodeFiles) : List Pair :=
  (files.meminfo.getD []).map MeminfoLine.toPair ++ files.numastat.getD []

/-- What `node_snap` prints for them. -/
def snap (files : NodeFiles) : List Text :=
  nodeSnap (files.meminfo.map (List.map MeminfoLine.render))
    (files.numastat.map (List.map Pair.render))

end NodeFiles

/-! ## What `node_snap` prints -/

theorem solid_append_colon {key : Text} (solid : Solid key) : Solid (key ++ [':']) where
  nonempty := by simp
  unbroken char member := by
    rcases List.mem_append.mp member with inside | colon
    · exact solid.unbroken char inside
    · rw [List.mem_singleton.mp colon]
      rfl

theorem MeminfoLine.words_render (line : MeminfoLine) :
    words line.render =
      "Node".toList :: decimal line.node :: (line.key ++ [':']) :: decimal line.value ::
        if line.inKb then ["kB".toList] else [] := by
  have label : Solid "Node".toList := ⟨by simp, by simp [isBlank]⟩
  have unit : Solid "kB".toList := ⟨by simp, by simp [isBlank]⟩
  rw [render, label.words_append rfl, (solid_decimal line.node).words_append rfl,
    (solid_append_colon line.solid).words_append rfl, words_replicate_append]
  cases line.inKb with
  | false =>
      simp only [Bool.false_eq_true, if_false, List.append_nil]
      rw [(solid_decimal line.value).words]
  | true =>
      simp only [if_true]
      rw [(solid_decimal line.value).words_append rfl, unit.words]

theorem endsInColon_decimal (value : Nat) : endsInColon (decimal value) = false := by
  rw [endsInColon, decide_eq_false_iff_not]
  intro last
  exact not_mem_decimal rfl value (List.mem_of_getLast? last)

theorem endsInColon_append (key : Text) : endsInColon (key ++ [':']) = true := by
  simp [endsInColon]

/-- The loop finds the key of a line, and only it. -/
theorem keyLines_render (line : MeminfoLine) :
    keyLines (words line.render) = [line.toPair.render] := by
  have label : endsInColon "Node".toList = false := by decide
  have unit : keyLines (if line.inKb then ["kB".toList] else []) = [] := by
    cases line.inKb <;> rfl
  rw [line.words_render]
  simp only [keyLines, label, endsInColon_decimal, endsInColon_append, unit]
  simp [Pair.render]

/-- `node_snap` prints the entries of the two files. -/
theorem NodeFiles.snap_eq (files : NodeFiles) : files.snap = files.entries.map Pair.render := by
  have fromMeminfo : ((files.meminfo.map (List.map MeminfoLine.render)).getD []).flatMap
      (fun record => keyLines (words record)) =
        (files.meminfo.getD []).map fun line => line.toPair.render := by
    cases files.meminfo with
    | none => rfl
    | some lines =>
        simp only [Option.map_some, Option.getD_some, List.flatMap_map, keyLines_render]
        exact List.map_eq_flatMap.symm
  have fromNumastat : (files.numastat.map (List.map Pair.render)).getD [] =
      (files.numastat.getD []).map Pair.render := by
    cases files.numastat <;> rfl
  rw [snap, nodeSnap, fromMeminfo, fromNumastat, entries, List.map_append, List.map_map]
  rfl

theorem NodeFiles.nodup_keys (files : NodeFiles) : (files.entries.map Pair.key).Nodup := by
  rw [entries, List.map_append, List.map_map]
  exact files.distinct

/-! ## What the report prints -/

/-- The keys that have a line in the report. -/
def IsTracked (key : Text) : Prop :=
  key ∈ allocationKeys ∨ key ∈ memoryKeys

instance (key : Text) : Decidable (IsTracked key) :=
  inferInstanceAs (Decidable (_ ∨ _))

/-- The change of an entry; a key that was missing before counts as 0. -/
def change (before : List Pair) (entry : Pair) : Int :=
  (entry.value : Int) - valueOf before entry.key

/-- The line of a tracked entry. -/
def changeLine (before : List Pair) (entry : Pair) : Text :=
  if entry.key ∈ allocationKeys then allocationLine entry.key (change before entry)
  else memoryLine entry.key ((change before entry).tdiv 4)

theorem words_allocationLine {key : Text} (solid : Solid key) (delta : ℚ) :
    words (allocationLine key delta) =
      key :: percentPlusD delta :: ["(allocs", "into", "LtRAM", "node)"].map String.toList := by
  have front : allocationLine key delta =
      padEnd 18 key ++ ' ' :: (percentPlusD delta ++ ' ' :: " (allocs into LtRAM node)".toList) := by
    simp [allocationLine]
  have note : words " (allocs into LtRAM node)".toList =
      ["(allocs", "into", "LtRAM", "node)"].map String.toList := by decide
  rw [front, words_padEnd_append solid, (solid_percentPlusD delta).words_append rfl, note]

theorem words_memoryLine {key : Text} (solid : Solid key) (pages : ℚ) :
    words (memoryLine key pages) = [key, percentPlusD pages, "pages".toList] := by
  have front : memoryLine key pages =
      padEnd 18 key ++ ' ' :: (percentPlusD pages ++ ' ' :: "pages".toList) := by
    simp [memoryLine]
  have unit : Solid "pages".toList := ⟨by simp, by simp [isBlank]⟩
  rw [front, words_padEnd_append solid, (solid_percentPlusD pages).words_append rfl, unit.words]

/-- What the line of an entry shows. -/
theorem nameAndNumber_changeLine (before : List Pair) (entry : Pair) :
    nameAndNumber (changeLine before entry) =
      (entry.key, ((if entry.key ∈ allocationKeys then change before entry
        else (change before entry).tdiv 4 : Int) : ℚ)) := by
  unfold changeLine
  split
  · simp [nameAndNumber, words_allocationLine entry.solid, field]
  · simp [nameAndNumber, words_memoryLine entry.solid, field]

/-- The first file only fills the array. -/
theorem scan_storeNode (file : List Text) (state : PlacementState) :
    scan (fun _ => storeNode) 1 file state =
      { state with before := scan (fun _ => assignNode) 1 file state.before } := by
  exact scan_lift (PlacementState.mk · state.printed) (fun _ _ _ => rfl) 1 file state.before

/-- The stored text of a key, as a number. -/
theorem number_scan_assignNode {pairs : List Pair} (distinct : (pairs.map Pair.key).Nodup)
    (key : Text) :
    number (scan (fun _ => assignNode) 1 (pairs.map Pair.render) (fun _ => []) key) =
      valueOf pairs key := by
  have stored := @scan_assign (fun _ => true) _ distinct 1 (fun _ => []) key
  simp only [if_true, and_true] at stored
  unfold assignNode
  rw [stored, valueOf]
  cases pairs.find? (fun pair => pair.key = key) with
  | none => exact number_nil
  | some pair => exact number_decimal_self pair.value

/-- One entry of the second file. -/
theorem compareNode_render {before : List Pair} {state : PlacementState}
    (stored : ∀ key, number (state.before key) = valueOf before key) (entry : Pair) :
    compareNode entry.render state =
      { state with
        printed := state.printed ++
          if IsTracked entry.key then [changeLine before entry] else [] } := by
  have delta : (entry.value : ℚ) - valueOf before entry.key = (change before entry : ℚ) := by
    simp [change]
  unfold compareNode
  simp only [entry.words_render, field, List.getD_cons_zero, Nat.sub_self,
    show (2 - 1 : Nat) = 0 + 1 from rfl, List.getD_cons_succ, number_decimal_self, stored, delta]
  by_cases allocation : entry.key ∈ allocationKeys
  · simp [IsTracked, changeLine, allocation]
  · by_cases memory : entry.key ∈ memoryKeys
    · have pages := truncate_div (change before entry) 4
      simp only [Nat.cast_ofNat] at pages
      simp [IsTracked, changeLine, allocation, memory, pages]
    · simp [IsTracked, allocation, memory]

/-- The second file prints a line for each tracked entry. -/
theorem scan_compareNode {before : List Pair} {state : PlacementState}
    (stored : ∀ key, number (state.before key) = valueOf before key) (after : List Pair)
    (nr : Nat) :
    (scan (fun _ => compareNode) nr (after.map Pair.render) state).printed =
      state.printed ++
        (after.filter fun entry => IsTracked entry.key).map (changeLine before) := by
  induction after generalizing nr state with
  | nil => simp
  | cons entry rest ih =>
      rw [List.map_cons, scan_cons, compareNode_render stored entry, ih (by exact stored)]
      by_cases tracked : IsTracked entry.key
      · simp [tracked]
      · simp [tracked]

theorem nodeDeltas_snap {before : NodeFiles} (nonempty : before.snap ≠ []) (after : NodeFiles) :
    nodeDeltas before.snap after.snap =
      (after.entries.filter fun entry => IsTracked entry.key).map (changeLine before.entries) := by
  rw [nodeDeltas, scanFiles_pair nonempty, scan_storeNode, before.snap_eq, after.snap_eq]
  exact scan_compareNode (number_scan_assignNode before.nodup_keys) _ 1

theorem NodeFiles.snap_eq_nil_iff (files : NodeFiles) : files.snap = [] ↔ files.entries = [] := by
  rw [files.snap_eq, List.map_eq_nil_iff]

/-- A truncated quotient is zero or has the sign of the change, and it is less
than one page away from the true quotient. -/
theorem tdiv_four (delta : Int) :
    (delta.tdiv 4 = 0 ∨ (delta.tdiv 4).sign = delta.sign) ∧
      |((delta.tdiv 4 : Int) : ℚ) - (delta : ℚ) / 4| < 1 := by
  have bounds : (delta.tdiv 4 = 0 ∨ 0 < delta.tdiv 4 ∧ 0 < delta ∨ delta.tdiv 4 < 0 ∧ delta < 0) ∧
      -4 < delta - 4 * delta.tdiv 4 ∧ delta - 4 * delta.tdiv 4 < 4 := by
    rcases Int.le_total 0 delta with nonneg | nonpos
    · rw [Int.tdiv_eq_ediv_of_nonneg nonneg]
      omega
    · rw [← Int.neg_neg delta, Int.neg_tdiv, Int.tdiv_eq_ediv_of_nonneg (Int.neg_nonneg.mpr nonpos)]
      omega
  obtain ⟨signs, lower, upper⟩ := bounds
  refine ⟨?_, ?_⟩
  · rcases signs with zero | ⟨quotient, total⟩ | ⟨quotient, total⟩
    · exact .inl zero
    · exact .inr (by rw [Int.sign_eq_one_of_pos quotient, Int.sign_eq_one_of_pos total])
    · exact .inr (by rw [Int.sign_eq_neg_one_of_neg quotient, Int.sign_eq_neg_one_of_neg total])
  · have lowerRat : (-4 : ℚ) < delta - 4 * (delta.tdiv 4 : Int) := by exact_mod_cast lower
    have upperRat : (delta : ℚ) - 4 * (delta.tdiv 4 : Int) < 4 := by exact_mod_cast upper
    rw [abs_lt]
    constructor <;> linarith

theorem not_mem_allocationKeys {key : Text} (memory : key ∈ memoryKeys) :
    key ∉ allocationKeys := by
  have apart : ∀ key ∈ memoryKeys, key ∉ allocationKeys := by decide
  exact apart key memory

theorem change_of_not_mem {before : List Pair} {entry : Pair}
    (missing : entry.key ∉ before.map Pair.key) : change before entry = entry.value := by
  have absent : before.find? (fun pair => pair.key = entry.key) = none := by
    rw [List.find?_eq_none]
    intro pair member
    rw [decide_eq_true_eq]
    intro same
    exact missing (List.mem_map.mpr ⟨pair, member, same⟩)
  simp [change, valueOf, absent]

/-- With both snapshots the report has one line for each tracked entry of the
second, in its order.  The line shows the key and a number: for an allocation
counter its change, for a memory field the change in whole pages, towards zero.
Without one of the snapshots there is only a remark. -/
theorem placement_snap (label node : Text) (before after : NodeFiles) :
    (before.snap ≠ [] ∧ after.snap ≠ [] →
      placement label node before.snap after.snap =
        placementHeader label node ++
          ((after.entries.filter fun entry => IsTracked entry.key).map
            (changeLine before.entries) ++ placementNotes)) ∧
    ((after.entries.filter fun entry => IsTracked entry.key).map
        (changeLine before.entries)).map nameAndNumber =
      (after.entries.filter fun entry => IsTracked entry.key).map (fun entry =>
        (entry.key, ((if entry.key ∈ allocationKeys then change before.entries entry
          else (change before.entries entry).tdiv 4 : Int) : ℚ))) ∧
    (before.snap = [] ∨ after.snap = [] →
      placement label node before.snap after.snap =
        placementHeader label node ++ [placementUnavailable node]) ∧
    (∀ files : NodeFiles, (files.snap = [] ↔ files.entries = []) ∧
      (files.entries.map Pair.key).Nodup) ∧
    ∀ entry : Pair,
      (entry.key ∈ allocationKeys →
        changeLine before.entries entry =
          allocationLine entry.key (change before.entries entry)) ∧
      (entry.key ∈ memoryKeys →
        changeLine before.entries entry =
            memoryLine entry.key ((change before.entries entry).tdiv 4) ∧
          ((change before.entries entry).tdiv 4 = 0 ∨
            ((change before.entries entry).tdiv 4).sign = (change before.entries entry).sign) ∧
          |(((change before.entries entry).tdiv 4 : Int) : ℚ) -
            (change before.entries entry : ℚ) / 4| < 1) ∧
      (entry.key ∉ before.entries.map Pair.key →
        change before.entries entry = entry.value) := by
  refine ⟨?_, ?_, ?_, ?_, ?_⟩
  · intro both
    rw [placement, if_pos both, nodeDeltas_snap both.1]
  · rw [List.map_map]
    exact List.map_congr_left fun entry _ => nameAndNumber_changeLine before.entries entry
  · intro missing
    rw [placement, if_neg]
    rintro ⟨first, second⟩
    rcases missing with empty | empty
    · exact first empty
    · exact second empty
  · intro files
    exact ⟨files.snap_eq_nil_iff, files.nodup_keys⟩
  · intro entry
    refine ⟨?_, ?_, change_of_not_mem⟩
    · intro allocation
      rw [changeLine, if_pos allocation]
    · intro memory
      refine ⟨?_, tdiv_four _⟩
      rw [changeLine, if_neg (not_mem_allocationKeys memory)]

/-- A node with one field of `meminfo` and one counter of `numastat`. -/
def smallNode (dirty hits : Nat) : NodeFiles where
  meminfo := some [{
    key := "Dirty".toList
    value := dirty
    solid := ⟨by simp, by simp [isBlank]⟩
    node := 1
    gap := 3
    inKb := true }]
  numastat := some [⟨"numa_hit".toList, hits, ⟨by simp, by simp [isBlank]⟩⟩]
  distinct := by simp

/-- 7 kB less are one whole page less. -/
theorem placement_snap_smallNode :
    placement "ycsbc".toList "1".toList (smallNode 9 5).snap (smallNode 2 12).snap =
      placementHeader "ycsbc".toList "1".toList ++
        (["Dirty              -1 pages".toList,
          "numa_hit           +7  (allocs into LtRAM node)".toList] ++ placementNotes) ∧
    ["Dirty              -1 pages".toList,
      "numa_hit           +7  (allocs into LtRAM node)".toList].map nameAndNumber =
      [("Dirty".toList, -1), ("numa_hit".toList, 7)] := by
  obtain ⟨whole, shown, -⟩ := placement_snap "ycsbc".toList "1".toList (smallNode 9 5) (smallNode 2 12)
  have lines : ((smallNode 2 12).entries.filter fun entry => IsTracked entry.key).map
      (changeLine (smallNode 9 5).entries) =
        ["Dirty              -1 pages".toList,
          "numa_hit           +7  (allocs into LtRAM node)".toList] := by
    decide +kernel
  have present : ∀ dirty hits, (smallNode dirty hits).snap ≠ [] := by
    intro dirty hits
    rw [Ne, NodeFiles.snap_eq_nil_iff]
    exact List.cons_ne_nil _ _
  rw [lines] at whole shown
  refine ⟨whole ⟨present 9 5, present 2 12⟩, shown.trans ?_⟩
  decide +kernel

end LtramBench.Profile
