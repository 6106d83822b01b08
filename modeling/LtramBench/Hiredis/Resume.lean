import LtramBench.Hiredis.Reader
import LtramBench.Streaming.Source

/-!
# What the reader is going to give

A reader in the middle of a reply stands for a parser of the input to come: the
item on top of its stack, then the rest of every array below it.  One step of the
reader keeps that parser, a suspended reader waits for input, and a failure is the
failure of the parser.
-/

namespace LtramBench.Hiredis

open LtramBench.Shell LtramBench.Streaming Reader

/-! ## Stacks as parsers -/

/-- The rest of the arrays around a reply that is complete. -/
def enclose : List ReadTask → Reply → ReplyParser Reply
  | [], made => fun input => .done made input
  | prv :: below, made => fun input =>
      (times (reply (7 - below.length)) (prv.elements.toNat - (prv.obj.length + 1)) input).andThen
        fun items rest =>
          enclose below (.array prv.elements.toNat (prv.obj ++ made :: items)) rest

/-- An object and everything around it. -/
def place (parents : List ReadTask) (made : Object) : ReplyParser Reply := fun input =>
  if hasRoom parents then (contents (8 - parents.length) made input).andThen (enclose parents)
  else .failed .undefined

/-- An item whose type may be known. -/
def typed (levels : Nat) : Option ItemType → ReplyParser Object
  | none => object levels
  | some type => item levels type

/-- What a stack stands for, or the reply that emptied it. -/
def expects : List ReadTask → Option Reply → ReplyParser Reply
  | cur :: parents, _ => fun input =>
      (typed (8 - parents.length) cur.type input).andThen (place parents)
  | [], some made => fun input => .done made input
  | [], none => reply 8

/-- What a reader gives when `later` is fed to it. -/
def Reader.meaning (r : Reader) (later : Text) : Parsed Failure Char Reply :=
  expects r.rstack r.reply (r.unread ++ later)

theorem place_complete {parents : List ReadTask} (room : hasRoom parents = true) (made : Reply)
    (input : Text) : place parents (.complete made) input = enclose parents made input := by
  unfold place
  rw [if_pos room]
  cases 8 - parents.length <;> rfl

theorem place_eq_failed {parents : List ReadTask} (full : ¬ hasRoom parents = true) (made : Object)
    (input : Text) : place parents made input = .failed .undefined := by
  unfold place
  rw [if_neg full]

/-- A task of any type in a parent with room reads a whole reply. -/
theorem expects_task {parents : List ReadTask} (room : hasRoom parents = true) (idx : Int)
    (emitted : Option Reply) (input : Text) :
    expects (task idx :: parents) emitted input =
      (reply (8 - parents.length) input).andThen (enclose parents) := by
  unfold reply
  rw [andThen_assoc]
  change (object _ input).andThen _ = _
  congr 1
  funext made rest
  unfold place
  rw [if_pos room]

/-! ## The invariant -/

/-- The arrays below a task: it is the next item of its parent, and the parent
has a place for it. -/
def Filling : Int → List ReadTask → Prop
  | _, [] => True
  | idx, prv :: below => idx = prv.obj.length ∧ idx < prv.elements ∧ Filling prv.idx below

/-- A stack with this task on top can be resumed. -/
structure Resumable (cur : ReadTask) (parents : List ReadTask) : Prop where
  depth : parents.length ≤ 8
  filling : hasRoom parents = true → Filling cur.idx parents

/-- Storing an object moves on to the next item, and what is expected is what was
to follow the object. -/
theorem expects_moveToNextTask {cur : ReadTask} {parents : List ReadTask}
    (depth : parents.length ≤ 8) (filling : Filling cur.idx parents) (made : Reply)
    (input : Text) :
    expects (moveToNextTask made (cur :: parents)).1
        (moveToNextTask made (cur :: parents)).2 input =
      enclose parents made input := by
  induction parents generalizing cur made with
  | nil => rfl
  | cons prv below ih =>
      obtain ⟨next, bound, rest⟩ := filling
      have levels : 8 - (below.length + 1) = 7 - below.length := by omega
      unfold moveToNextTask enclose
      dsimp only
      split
      · next last =>
          have noMore : prv.elements.toNat - (prv.obj.length + 1) = 0 := by omega
          rw [noMore, times_zero, andThen_done]
          exact ih (by simp only [List.length_cons] at depth; omega) rest _
      · next more =>
          obtain ⟨count, left⟩ : ∃ count, prv.elements.toNat - (prv.obj.length + 1) = count + 1 :=
            ⟨prv.elements.toNat - (prv.obj.length + 1) - 1, by omega⟩
          have nextLeft : prv.elements.toNat - (prv.obj.length + 1 + 1) = count := by omega
          have room : hasRoom ({ prv with obj := prv.obj ++ [made] } :: below) = true :=
            decide_eq_true (by dsimp only; omega)
          rw [expects_task room, List.length_cons, levels, left, times_succ, andThen_assoc]
          congr 1
          funext value rest
          simp only [enclose, andThen_assoc, andThen_done, List.length_append,
            List.length_singleton, nextLeft, List.append_assoc, List.singleton_append]

/-- The stack after an object is stored. -/
theorem moveToNextTask_cases {cur : ReadTask} {parents : List ReadTask}
    (depth : parents.length ≤ 8) (filling : Filling cur.idx parents) (made : Reply) :
    (moveToNextTask made (cur :: parents)).1 = [] ∧
        (moveToNextTask made (cur :: parents)).2.isSome = true ∨
      ∃ idx below, (moveToNextTask made (cur :: parents)).1 = task idx :: below ∧
        (moveToNextTask made (cur :: parents)).2 = none ∧
        Resumable (task idx) below := by
  induction parents generalizing cur made with
  | nil => exact .inl ⟨rfl, rfl⟩
  | cons prv below ih =>
      obtain ⟨next, bound, rest⟩ := filling
      unfold moveToNextTask
      dsimp only
      split
      · exact ih (by simp only [List.length_cons] at depth; omega) rest _
      · next more =>
          refine .inr ⟨_, _, rfl, rfl, depth, fun _ => ⟨?_, ?_, rest⟩⟩
          · simp only [task, List.length_append, List.length_singleton]
            omega
          · simp only [task]
            omega

/-- A reader without a failure.  A task that is suspended in the head line of an
array is not too deep for one. -/
structure Sound (r : Reader) : Prop where
  err : r.err = none
  inside : r.pos ≤ r.buf.length
  resumable : ∀ {cur parents}, r.rstack = cur :: parents → Resumable cur parents
  suspended : ∀ {cur parents}, r.rstack = cur :: parents → cur.type = some .array →
    parents.length < 8

/-- A reader at the start of an item or behind its type. -/
structure Busy (r : Reader) (cur : ReadTask) (parents : List ReadTask) : Prop where
  err : r.err = none
  inside : r.pos ≤ r.buf.length
  stack : r.rstack = cur :: parents
  resumable : Resumable cur parents

/-- What one step leaves: less input, or a reader that waits, or a failure.  What
is expected does not change. -/
inductive Steps (expected : Text → Parsed Failure Char Reply) (bound : Nat) :
    Reader × Bool → Prop
  | goes {after : Reader} (sound : Sound after) (shorter : after.unread.length < bound)
      (emitted : after.rstack = [] → after.reply.isSome = true)
      (same : ∀ later, after.meaning later = expected later) : Steps expected bound (after, true)
  | waits {after : Reader} (sound : Sound after) (busy : after.rstack ≠ [])
      (same : ∀ later, after.meaning later = expected later) (more : expected [] = .more) :
      Steps expected bound (after, false)
  | fails {failure : Failure} (same : ∀ later, expected later = .failed failure) :
      Steps expected bound (setError failure, false)

section Step

variable {r : Reader} {cur : ReadTask} {parents : List ReadTask} {type : ItemType}

theorem Busy.meaning_eq (busy : Busy r cur parents) (known : cur.type = some type)
    (later : Text) :
    r.meaning later =
      (item (8 - parents.length) type (r.unread ++ later)).andThen (place parents) := by
  unfold Reader.meaning
  rw [busy.stack, expects, known]
  rfl

/-- Reading a number of bytes. -/
theorem unread_advance (r : Reader) (count : Nat) :
    ({ r with pos := r.pos + count } : Reader).unread = r.unread.drop count := by
  simp only [unread, List.drop_drop]

theorem Busy.advance (busy : Busy r cur parents) {count : Nat} (there : count ≤ r.unread.length) :
    Busy { r with pos := r.pos + count } cur parents where
  err := busy.err
  inside := by
    have inside := busy.inside
    simp only [unread, List.length_drop] at there
    dsimp only
    omega
  stack := busy.stack
  resumable := busy.resumable

/-- The item that is read next is not there yet. -/
theorem Busy.waits (busy : Busy r cur parents) (known : cur.type = some type)
    (more : item (8 - parents.length) type r.unread = .more) :
    Steps r.meaning r.unread.length (r, false) := by
  refine .waits ⟨busy.err, busy.inside, ?_, ?_⟩ ?_ (fun _ => rfl) ?_
  · intro top below stack
    cases busy.stack.symm.trans stack
    exact busy.resumable
  · intro top below stack array
    cases busy.stack.symm.trans stack
    -- too deep an array fails and does not wait
    by_contra deep
    rw [known] at array
    cases array
    rw [show 8 - parents.length = 0 by omega] at more
    cases more
  · rw [busy.stack]
    exact List.cons_ne_nil _ _
  · rw [busy.meaning_eq known, List.append_nil, more]
    rfl

theorem Busy.fails (busy : Busy r cur parents) (known : cur.type = some type) {failure : Failure}
    (failed : item (8 - parents.length) type r.unread = .failed failure) :
    Steps r.meaning r.unread.length (setError failure, false) := by
  refine .fails fun later => ?_
  rw [busy.meaning_eq known, (item_stable _ type).failed failed]
  rfl

/-- The item that is read next is complete. -/
theorem Busy.finishes (busy : Busy r cur parents) (known : cur.type = some type) {made : Reply}
    {count : Nat} (there : count ≤ r.unread.length)
    (found : item (8 - parents.length) type r.unread =
      .done (.complete made) (r.unread.drop count)) :
    Steps r.meaning r.unread.length (finish { r with pos := r.pos + count } made) := by
  have shorter := item_consumes _ type found
  have meaning : ∀ later, r.meaning later =
      place parents (.complete made) (r.unread.drop count ++ later) := by
    intro later
    rw [busy.meaning_eq known, (item_stable _ type).done found]
    rfl
  unfold finish
  rw [busy.stack, List.tail_cons]
  split
  · next room =>
      have filling := busy.resumable.filling room
      have next := moveToNextTask_cases busy.resumable.depth filling made
      refine .goes ⟨busy.err, (busy.advance there).inside, ?_, ?_⟩ ?_ ?_ ?_
      · intro top below stack
        rcases next with ⟨empty, -⟩ | ⟨idx, left, pushed, -, resumable⟩
        · cases empty.symm.trans stack
        · cases pushed.symm.trans stack
          exact resumable
      · intro top below stack array
        rcases next with ⟨empty, -⟩ | ⟨idx, left, pushed, -, resumable⟩
        · cases empty.symm.trans stack
        · cases pushed.symm.trans stack
          cases array
      · simpa only [unread, List.drop_drop] using shorter
      · intro empty
        rcases next with ⟨-, emitted⟩ | ⟨idx, left, pushed, -, -⟩
        · exact emitted
        · cases pushed.symm.trans empty
      · intro later
        rw [meaning, place_complete room]
        simp only [Reader.meaning, unread, ← List.drop_drop]
        exact expects_moveToNextTask busy.resumable.depth filling made _
  · next full =>
      refine .fails fun later => ?_
      rw [meaning, place_eq_failed full]

/-! ## The three kinds of items -/

theorem line_of_seekNewline {input : Text} {length : Nat}
    (newline : seekNewline input = some length) :
    line input = .done (input.take length) (input.drop (length + 2)) := by
  unfold line
  rw [newline]

theorem line_of_none {input : Text} (newline : seekNewline input = none) : line input = .more := by
  unfold line
  rw [newline]

theorem numberLine_of_seekNewline {input : Text} {length : Nat} {value : Int}
    (newline : seekNewline input = some length)
    (number : readLongLong (input.take length) = some value) :
    numberLine input = .done value (input.drop (length + 2)) := by
  unfold numberLine
  rw [line_of_seekNewline newline, andThen_done, number]

theorem numberLine_of_overflow {input : Text} {length : Nat}
    (newline : seekNewline input = some length)
    (number : readLongLong (input.take length) = none) :
    numberLine input = .failed .undefined := by
  unfold numberLine
  rw [line_of_seekNewline newline, andThen_done, number]

theorem numberLine_of_none {input : Text} (newline : seekNewline input = none) :
    numberLine input = .more := by
  unfold numberLine
  rw [line_of_none newline]
  rfl

theorem processLineItem_steps (busy : Busy r cur parents) (known : cur.type = some type)
    (simple : type = .error ∨ type = .status ∨ type = .integer) :
    Steps r.meaning r.unread.length (r.processLineItem type) := by
  unfold processLineItem readLine
  cases newline : seekNewline r.unread with
  | none =>
      refine busy.waits known ?_
      rcases simple with rfl | rfl | rfl
      · simp only [item, lineItem, line_of_none newline, andThen_more]
      · simp only [item, lineItem, line_of_none newline, andThen_more]
      · simp only [item, numberLine_of_none newline, andThen_more]
  | some len =>
      have there := length_of_seekNewline newline
      rcases simple with rfl | rfl | rfl
      · refine busy.finishes known there ?_
        simp only [item, lineItem, line_of_seekNewline newline, andThen_done]
      · refine busy.finishes known there ?_
        simp only [item, lineItem, line_of_seekNewline newline, andThen_done]
      · simp only [Option.map_some]
        cases number : readLongLong (r.unread.take len) with
        | none =>
            refine busy.fails known ?_
            simp only [item, numberLine_of_overflow newline number, andThen_failed]
        | some value =>
            refine busy.finishes known there ?_
            simp only [item, numberLine_of_seekNewline newline number, andThen_done]

theorem processBulkItem_steps (busy : Busy r cur parents) (known : cur.type = some .string) :
    Steps r.meaning r.unread.length r.processBulkItem := by
  unfold processBulkItem
  cases newline : seekNewline r.unread with
  | none =>
      refine busy.waits known ?_
      simp only [item, numberLine_of_none newline, andThen_more]
  | some len =>
      have there := length_of_seekNewline newline
      dsimp only
      cases number : readLongLong (r.unread.take len) with
      | none =>
          refine busy.fails known ?_
          simp only [item, numberLine_of_overflow newline number, andThen_failed]
      | some size =>
          have behind : item (8 - parents.length) .string r.unread =
              stringOf size (r.unread.drop (len + 2)) := by
            simp only [item, numberLine_of_seekNewline newline number, andThen_done]
          have unreadLength : r.unread.length = r.buf.length - r.pos := List.length_drop
          dsimp only
          split
          · next negative =>
              refine busy.finishes known there ?_
              rw [behind, stringOf, if_pos negative]
          · next natural =>
              split
              · next small =>
                  split
                  · next complete =>
                      have whole : size.toNat + 2 ≤ (r.unread.drop (len + 2)).length := by
                        rw [List.length_drop]
                        omega
                      refine busy.finishes known (by omega) ?_
                      rw [behind, stringOf, if_neg natural, if_pos small, counted, if_pos whole,
                        andThen_done, List.drop_drop]
                  · next incomplete =>
                      have partly : ¬ size.toNat + 2 ≤ (r.unread.drop (len + 2)).length := by
                        rw [List.length_drop]
                        omega
                      refine busy.waits known ?_
                      rw [behind, stringOf, if_neg natural, if_pos small, counted, if_neg partly]
                      rfl
              · next huge =>
                  refine busy.fails known ?_
                  rw [behind, stringOf, if_neg natural, if_neg huge]

/-- The contents of an array are what the first task in it and the array expect. -/
theorem expects_contents (shallow : parents.length < 8)
    (elements : Int) (emitted : Option Reply) (input : Text) :
    expects (task 0 :: { cur with elements := toInt elements, obj := [] } :: parents) emitted
        input =
      (contents (8 - parents.length) (.container elements) input).andThen (enclose parents) := by
  have levels : 8 - parents.length = 7 - parents.length + 1 := by omega
  have inner : 8 - (parents.length + 1) = 7 - parents.length := by omega
  rw [levels, contents_container]
  by_cases positive : 0 < toInt elements
  · obtain ⟨count, size⟩ : ∃ count, (toInt elements).toNat = count + 1 :=
      ⟨(toInt elements).toNat - 1, by omega⟩
    have place : hasRoom ({ cur with elements := toInt elements, obj := [] } :: parents) = true :=
      decide_eq_true positive
    rw [if_pos positive, expects_task place, List.length_cons, inner, size,
      times_succ, andThen_assoc, andThen_assoc]
    congr 1
    funext value rest
    simp only [enclose, size, andThen_assoc, andThen_done, List.length_nil, Nat.zero_add,
      Nat.add_sub_cancel, List.nil_append]
  · have full : ¬ hasRoom ({ cur with elements := toInt elements, obj := [] } :: parents) = true :=
      fun room => positive (of_decide_eq_true room)
    rw [if_neg positive, andThen_assoc]
    simp only [expects, List.length_cons, inner, andThen_failed]
    change (object _ input).andThen _ = _
    congr 1
    funext made rest
    exact place_eq_failed full made rest

/-- The items of an array go on top of it. -/
theorem Busy.pushes (busy : Busy r cur parents) (known : cur.type = some .array)
    (room : hasRoom parents = true) (shallow : parents.length < 8) {elements : Int} {count : Nat}
    (there : count ≤ r.unread.length)
    (found : item (8 - parents.length) .array r.unread =
      .done (.container elements) (r.unread.drop count)) :
    Steps r.meaning r.unread.length
      ({ r with
          pos := r.pos + count
          rstack := task 0 :: { cur with elements := toInt elements, obj := [] } :: parents },
        true) := by
  have shorter := item_consumes _ .array found
  refine .goes ⟨busy.err, (busy.advance there).inside, ?_, ?_⟩ ?_ ?_ ?_
  · rintro top below ⟨⟩
    refine ⟨Nat.succ_le_of_lt shallow, fun inner => ?_⟩
    have positive : 0 < toInt elements := of_decide_eq_true inner
    exact ⟨rfl, positive, busy.resumable.filling room⟩
  · rintro top below ⟨⟩ array
    cases array
  · simpa only [unread, List.drop_drop] using shorter
  · intro empty
    cases empty
  · intro later
    rw [busy.meaning_eq known, (item_stable _ .array).done found, andThen_done,
      place, if_pos room]
    simp only [Reader.meaning, unread, ← List.drop_drop]
    exact expects_contents shallow elements _ _

theorem processMultiBulkItem_steps (busy : Busy r cur parents) (known : cur.type = some .array) :
    Steps r.meaning r.unread.length (r.processMultiBulkItem cur parents) := by
  unfold processMultiBulkItem
  split
  · next deep =>
      refine busy.fails known ?_
      simp [item, deep]
  · next shallow =>
      have depth := busy.resumable.depth
      have allowed : 8 - parents.length ≠ 0 := by omega
      unfold readLine
      cases newline : seekNewline r.unread with
      | none =>
          refine busy.waits known ?_
          simp only [item, if_neg allowed, numberLine_of_none newline, andThen_more]
      | some len =>
          have there := length_of_seekNewline newline
          simp only [Option.map_some]
          cases number : readLongLong (r.unread.take len) with
          | none =>
              refine busy.fails known ?_
              simp only [item, if_neg allowed, numberLine_of_overflow newline number,
                andThen_failed]
          | some elements =>
              have behind : item (8 - parents.length) .array r.unread =
                  arrayOf elements (r.unread.drop (len + 2)) := by
                simp only [item, if_neg allowed, numberLine_of_seekNewline newline number,
                  andThen_done]
              dsimp only
              split
              · next isNil =>
                  refine busy.finishes known there ?_
                  rw [behind, arrayOf, if_pos isNil]
              · next isArray =>
                  split
                  · next positive =>
                      have container : item (8 - parents.length) .array r.unread =
                          .done (.container elements) (r.unread.drop (len + 2)) := by
                        rw [behind, arrayOf, if_neg isArray, if_pos positive]
                      split
                      · next room => exact busy.pushes known room (by omega) there container
                      · next full =>
                          refine .fails fun later => ?_
                          rw [busy.meaning_eq known, (item_stable _ .array).done container,
                            andThen_done, place_eq_failed full]
                  · next empty =>
                      refine busy.finishes known there ?_
                      rw [behind, arrayOf, if_neg isArray, if_neg empty]

theorem processTyped_steps (busy : Busy r cur parents) (known : cur.type = some type) :
    Steps r.meaning r.unread.length (r.processTyped cur parents type) := by
  cases type with
  | error => exact processLineItem_steps busy known (.inl rfl)
  | status => exact processLineItem_steps busy known (.inr (.inl rfl))
  | integer => exact processLineItem_steps busy known (.inr (.inr rfl))
  | string => exact processBulkItem_steps busy known
  | array => exact processMultiBulkItem_steps busy known

end Step

/-! ## One call -/

theorem Steps.mono {expected : Text → Parsed Failure Char Reply} {bound larger : Nat}
    (le : bound ≤ larger) {result : Reader × Bool} (steps : Steps expected bound result) :
    Steps expected larger result := by
  cases steps with
  | goes sound shorter emitted same =>
      exact .goes sound (Nat.lt_of_lt_of_le shorter le) emitted same
  | waits sound busy same more => exact .waits sound busy same more
  | fails same => exact .fails same

theorem Sound.busy {r : Reader} (sound : Sound r) {cur : ReadTask} {parents : List ReadTask}
    (stack : r.rstack = cur :: parents) : Busy r cur parents :=
  ⟨sound.err, sound.inside, stack, sound.resumable stack⟩

/-- Reading the type byte. -/
theorem processItem_steps {r : Reader} (sound : Sound r) (started : r.rstack ≠ []) :
    Steps r.meaning r.unread.length r.processItem := by
  obtain ⟨cur, parents, stack⟩ := List.exists_cons_of_ne_nil started
  have busy := sound.busy stack
  unfold processItem
  rw [stack]
  dsimp only
  cases known : cur.type with
  | some type => exact processTyped_steps busy known
  | none =>
      have meaning : ∀ later, r.meaning later =
          (object (8 - parents.length) (r.unread ++ later)).andThen (place parents) := by
        intro later
        unfold Reader.meaning
        rw [stack, expects, known]
        rfl
      dsimp only
      cases input : r.unread with
      | nil =>
          refine .waits sound started (fun _ => rfl) ?_
          rw [meaning, input]
          rfl
      | cons byte rest =>
          dsimp only
          cases announced : itemType byte with
          | none =>
              refine .fails fun later => ?_
              rw [meaning, input, List.cons_append]
              simp only [object, typeByte, announced, andThen_failed]
          | some type =>
              -- the task remembers the type
              let typedCur : ReadTask := { cur with type := some type }
              let behind : Reader :=
                { r with pos := r.pos + 1, rstack := typedCur :: parents }
              have there : 1 ≤ r.unread.length := by
                rw [input]
                exact Nat.succ_le_succ (Nat.zero_le _)
              have unreadBehind : behind.unread = rest := by
                have advanced := unread_advance r 1
                rw [input] at advanced
                exact advanced
              have busyBehind : Busy behind typedCur parents :=
                ⟨busy.err, (busy.advance there).inside, rfl,
                  ⟨busy.resumable.depth, busy.resumable.filling⟩⟩
              have same : behind.meaning = r.meaning := by
                funext later
                rw [meaning, busyBehind.meaning_eq rfl, unreadBehind, input, List.cons_append]
                simp only [object, typeByte, announced, andThen_done]
              have steps := processTyped_steps busyBehind rfl
              rw [same, unreadBehind] at steps
              exact steps.mono (Nat.le_succ _)

/-- The loop ends with a reply, with a reader that waits, or with a failure. -/
theorem processItems_cases {r : Reader} (sound : Sound r)
    (emitted : r.rstack = [] → r.reply.isSome = true) {fuel : Nat}
    (enough : r.unread.length < fuel) :
    (∃ failure, processItems fuel r = setError failure ∧
        ∀ later, r.meaning later = .failed failure) ∨
      Sound (processItems fuel r) ∧
        ((processItems fuel r).rstack = [] → (processItems fuel r).reply.isSome = true) ∧
        (∀ later, (processItems fuel r).meaning later = r.meaning later) ∧
        ((processItems fuel r).rstack ≠ [] → r.meaning [] = .more) := by
  induction fuel generalizing r with
  | zero => exact absurd enough (Nat.not_lt_zero _)
  | succ fuel ih =>
      unfold processItems
      split
      · next empty => exact .inr ⟨sound, emitted, fun _ => rfl, fun busy => absurd empty busy⟩
      · next started =>
          have steps := processItem_steps sound started
          generalize r.processItem = result at steps
          cases steps with
          | goes after shorter emitted same =>
              rcases ih after emitted (by omega) with
                ⟨failure, failed, always⟩ | ⟨last, given, kept, more⟩
              · exact .inl ⟨failure, failed, fun later => (same later).symm.trans (always later)⟩
              · refine .inr ⟨last, given, fun later => (kept later).trans (same later),
                  fun busy => ?_⟩
                exact (same []).symm.trans (more busy)
          | waits after busy same more =>
              exact .inr ⟨after, fun empty => absurd empty busy, same, fun _ => more⟩
          | fails same => exact .inl ⟨_, rfl, same⟩

theorem Sound.discard {r : Reader} (sound : Sound r) : Sound r.discard := by
  unfold Reader.discard
  split
  · exact ⟨sound.err, Nat.zero_le _, sound.resumable, sound.suspended⟩
  · exact sound

theorem meaning_discard (r : Reader) (later : Text) :
    r.discard.meaning later = r.meaning later := by
  unfold Reader.discard
  split <;> rfl

end LtramBench.Hiredis
