import LtramBench.Hiredis.Resume

/-!
# The reader gives the replies of its input

For a client, the reader of `read.c` is the plain reader of the grammar: fed in any
pieces and asked at any time, it gives the replies that the bytes mean.
-/

namespace LtramBench.Hiredis

open LtramBench.Interaction LtramBench.Shell LtramBench.Streaming Reader

/-- The reader as its clients see it. -/
def readerMachine : Machine (readerInterface Failure Char Reply) Reader
  | .feed chunk, r => ((r.redisReaderFeed chunk).2, (r.redisReaderFeed chunk).1)
  | .next, r => (r.redisReaderGetReply.2, r.redisReaderGetReply.1)

/-- The deepest that arrays may go. -/
abbrev maxLevels : Nat := 8

/-- The reader is between two calls, and the plain reader has this input left. -/
inductive Tracks : Reader → Except Failure Text → Prop
  | reading {r : Reader} {text : Text} (sound : Sound r) (resting : r.rstack = [] → r.reply = none)
      (same : ∀ later, r.meaning later = reply maxLevels (text ++ later)) : Tracks r (.ok text)
  | failed {r : Reader} {failure : Failure} (err : r.err = some failure) :
      Tracks r (.error failure)

theorem andThen_done_eq {ε β α : Type} (parsed : Parsed ε β α) :
    (parsed.andThen fun value rest => .done value rest) = parsed := by
  cases parsed <;> rfl

/-- Without any input there is no reply. -/
theorem Sound.meaning_empty {r : Reader} (sound : Sound r) (resting : r.rstack = [] → r.reply = none)
    (empty : r.buf = []) : r.meaning [] = .more := by
  have noInput : r.unread = [] := by
    rw [unread, empty, List.drop_nil]
  unfold Reader.meaning
  rw [noInput, List.append_nil]
  cases stack : r.rstack with
  | nil =>
      rw [resting stack]
      rfl
  | cons cur parents =>
      have waiting : typed (8 - parents.length) cur.type [] = .more := by
        cases known : cur.type with
        | none => rfl
        | some type =>
            cases type with
            | array =>
                have shallow := sound.suspended stack known
                simp only [typed, item]
                rw [if_neg (by omega)]
                rfl
            | error => rfl
            | status => rfl
            | integer => rfl
            | string => rfl
      simp only [expects, waiting, andThen_more]

/-- A new piece of input. -/
theorem Sound.feed {r : Reader} (sound : Sound r) (chunk : Text) :
    r.redisReaderFeed chunk = ({ r with buf := r.buf ++ chunk }, true) ∧
      Sound { r with buf := r.buf ++ chunk } ∧
      ∀ later, ({ r with buf := r.buf ++ chunk } : Reader).meaning later =
        r.meaning (chunk ++ later) := by
  refine ⟨?_, ⟨sound.err, ?_, sound.resumable, sound.suspended⟩, fun later => ?_⟩
  · rw [redisReaderFeed, sound.err]
    rfl
  · have inside := sound.inside
    simp only [List.length_append]
    omega
  · simp only [Reader.meaning, unread]
    rw [List.drop_append_of_le_length sound.inside, List.append_assoc]

/-- The task at the bottom of the stack reads a reply. -/
theorem Sound.start {r : Reader} (sound : Sound r) (resting : r.rstack = [] → r.reply = none) :
    Sound r.start ∧ r.start.rstack ≠ [] ∧ ∀ later, r.start.meaning later = r.meaning later := by
  unfold Reader.start
  split
  · next empty =>
      refine ⟨⟨sound.err, sound.inside, ?_, ?_⟩, List.cons_ne_nil _ _, fun later => ?_⟩
      · rintro cur parents ⟨⟩
        exact ⟨Nat.zero_le _, fun _ => trivial⟩
      · rintro cur parents ⟨⟩ array
        cases array
      · simp only [Reader.meaning]
        rw [expects_task rfl, empty, resting empty]
        exact andThen_done_eq _
  · next busy => exact ⟨sound, busy, fun _ => rfl⟩

/-- A reader after the loop gives its reply or keeps waiting. -/
theorem Sound.emit {r : Reader} (sound : Sound r) (emitted : r.rstack = [] → r.reply.isSome = true)
    {text : Text} (same : ∀ later, r.meaning later = reply maxLevels (text ++ later))
    (more : r.rstack ≠ [] → reply maxLevels text = .more) :
    r.emit.2 = (plainReader (reply maxLevels) .next (.ok text)).1 ∧
      Tracks r.emit.1 (plainReader (reply maxLevels) .next (.ok text)).2 := by
  have discarded := sound.discard
  have rstack : r.discard.rstack = r.rstack := by
    unfold Reader.discard
    split <;> rfl
  have given : r.discard.reply = r.reply := by
    unfold Reader.discard
    split <;> rfl
  unfold Reader.emit
  rw [sound.err]
  dsimp only
  split
  · next empty =>
      rw [rstack] at empty
      obtain ⟨made, isMade⟩ := Option.isSome_iff_exists.mp (emitted empty)
      have found : reply maxLevels text = .done made r.discard.unread := by
        rw [← List.append_nil text, ← same, ← meaning_discard, Reader.meaning, rstack, given, empty,
          isMade, List.append_nil]
        rfl
      simp only [plainReader, found]
      refine ⟨by rw [given, isMade], .reading ⟨discarded.err, discarded.inside,
        discarded.resumable, discarded.suspended⟩ (fun _ => rfl) fun later => ?_⟩
      simp only [Reader.meaning]
      rw [rstack, empty]
      rfl
  · next busy =>
      rw [rstack] at busy
      simp only [plainReader, more busy]
      exact ⟨trivial, .reading discarded (fun empty => absurd (rstack ▸ empty) busy)
        fun later => (meaning_discard r later).trans (same later)⟩

/-- A request for a reply. -/
theorem Tracks.getReply {r : Reader} {text : Text} (tracks : Tracks r (.ok text)) :
    r.redisReaderGetReply.2 = (plainReader (reply maxLevels) .next (.ok text)).1 ∧
      Tracks r.redisReaderGetReply.1 (plainReader (reply maxLevels) .next (.ok text)).2 := by
  obtain ⟨sound, resting, same⟩ := tracks
  unfold redisReaderGetReply
  rw [sound.err]
  dsimp only
  split
  · next empty =>
      have more : reply maxLevels text = .more := by
        rw [← List.append_nil text, ← same]
        exact sound.meaning_empty resting empty
      simp only [plainReader, more]
      exact ⟨trivial, .reading sound resting same⟩
  · next input =>
      obtain ⟨started, busy, startedSame⟩ := sound.start resting
      have startedText : ∀ later, r.start.meaning later = reply maxLevels (text ++ later) :=
        fun later => (startedSame later).trans (same later)
      rcases processItems_cases started (fun empty => absurd empty busy)
        (Nat.lt_succ_self _) with ⟨failure, failed, always⟩ | ⟨after, emitted, kept, more⟩
      · have fails : reply maxLevels text = .failed failure := by
          rw [← List.append_nil text, ← startedText, always]
        rw [failed]
        simp only [Reader.emit, setError, plainReader, fails]
        exact ⟨trivial, .failed rfl⟩
      · refine after.emit emitted (fun later => (kept later).trans (startedText later))
          fun waits => ?_
        rw [← List.append_nil text, ← startedText]
        exact more waits

/-- Every call gives what the plain reader gives. -/
theorem readerMachine_simulates :
    Simulates readerMachine (plainReader (reply maxLevels)) Tracks := by
  intro request r image tracks
  cases tracks with
  | failed err =>
      cases request with
      | feed chunk =>
          simp only [readerMachine, redisReaderFeed, err, plainReader]
          exact ⟨rfl, .failed err⟩
      | next =>
          simp only [readerMachine, redisReaderGetReply, err, plainReader]
          exact ⟨trivial, .failed err⟩
  | reading sound resting same =>
      cases request with
      | feed chunk =>
          obtain ⟨fed, fedSound, fedSame⟩ := sound.feed chunk
          simp only [readerMachine, fed, plainReader]
          refine ⟨trivial, .reading fedSound resting fun later => ?_⟩
          rw [fedSame, same, List.append_assoc]
      | next => exact Tracks.getReply (.reading sound resting same)

theorem create_tracks : Tracks Reader.create (.ok []) := by
  refine .reading ⟨rfl, Nat.zero_le _, ?_, ?_⟩ (fun _ => rfl) fun _ => rfl
  · intro cur parents stack
    cases stack
  · intro cur parents stack
    cases stack

/-- A client cannot tell the reader from the plain reader of the grammar. -/
theorem reader_refines {α : Type} (client : Program (readerInterface Failure Char Reply) α) :
    (readerMachine.run client Reader.create).result =
        ((plainReader (reply maxLevels)).run client (.ok [])).result ∧
      (readerMachine.run client Reader.create).trace =
        ((plainReader (reply maxLevels)).run client (.ok [])).trace := by
  obtain ⟨result, trace, -⟩ := readerMachine_simulates.run client create_tracks
  exact ⟨result, trace⟩

/-- The replies that a run gives are the ones at the front of what was fed. -/
theorem reader_gives_front {α : Type} (client : Program (readerInterface Failure Char Reply) α) :
    values (readerMachine.run client Reader.create).trace <+:
        (decode (reply maxLevels) (fed (readerMachine.run client Reader.create).trace)).1 ∧
      (Drained (readerMachine.run client Reader.create).trace →
        ∃ rest, decode (reply maxLevels) (fed (readerMachine.run client Reader.create).trace) =
          (values (readerMachine.run client Reader.create).trace, .pending rest)) ∧
      ∀ failure, ⟨.next, .error failure⟩ ∈ (readerMachine.run client Reader.create).trace →
        decode (reply maxLevels) (fed (readerMachine.run client Reader.create).trace) =
          (values (readerMachine.run client Reader.create).trace, .failed failure) := by
  have sameTrace := (readerMachine_simulates.run client create_tracks).2.1
  exact plainReader_gives (reply_stable _) (reply_consumes _) client sameTrace.symm

/-- Of two clients, the first feeds the front of what the second feeds, or all of it,
in other pieces.  They get the same replies, as far as they ask; where the second is
told to wait, or the first gets an error, the other gets no more. -/
theorem reader_ignores_pieces {α γ : Type}
    (first : Program (readerInterface Failure Char Reply) α)
    (second : Program (readerInterface Failure Char Reply) γ)
    (inFront : fed (readerMachine.run first Reader.create).trace <+:
      fed (readerMachine.run second Reader.create).trace) :
    (values (readerMachine.run first Reader.create).trace <+:
        values (readerMachine.run second Reader.create).trace ∨
      values (readerMachine.run second Reader.create).trace <+:
        values (readerMachine.run first Reader.create).trace) ∧
    (Drained (readerMachine.run second Reader.create).trace →
      values (readerMachine.run first Reader.create).trace <+:
          values (readerMachine.run second Reader.create).trace ∧
        ∀ failure, ⟨.next, .error failure⟩ ∉ (readerMachine.run first Reader.create).trace) ∧
    ∀ failure, ⟨.next, .error failure⟩ ∈ (readerMachine.run first Reader.create).trace →
      values (readerMachine.run second Reader.create).trace <+:
          values (readerMachine.run first Reader.create).trace ∧
        ¬ Drained (readerMachine.run second Reader.create).trace ∧
        ∀ other, ⟨.next, .error other⟩ ∈ (readerMachine.run second Reader.create).trace →
          other = failure ∧ values (readerMachine.run second Reader.create).trace =
            values (readerMachine.run first Reader.create).trace := by
  obtain ⟨firstFront, -, firstFailed⟩ := reader_gives_front first
  obtain ⟨secondFront, secondDrained, secondFailed⟩ := reader_gives_front second
  obtain ⟨fewer, fails⟩ := decode_prefix (reply_stable maxLevels) (reply_consumes _) inFront
  generalize (readerMachine.run first Reader.create).trace = firstTrace at *
  generalize (readerMachine.run second Reader.create).trace = secondTrace at *
  have inWhole := firstFront.trans fewer
  refine ⟨List.prefix_or_prefix_of_prefix inWhole secondFront, fun waits => ?_,
    fun failure failed => ?_⟩
  · obtain ⟨rest, meaning⟩ := secondDrained waits
    refine ⟨by rwa [meaning] at inWhole, fun failure failed => ?_⟩
    cases congrArg Prod.snd (meaning.symm.trans (fails _ _ (firstFailed failure failed)))
  · have meaning := fails _ _ (firstFailed failure failed)
    refine ⟨by rwa [meaning] at secondFront, fun waits => ?_, fun other otherFailed => ?_⟩
    · obtain ⟨rest, otherMeaning⟩ := secondDrained waits
      cases congrArg Prod.snd (meaning.symm.trans otherMeaning)
    · have agree := (secondFailed other otherFailed).symm.trans meaning
      exact ⟨Ending.failed.inj (congrArg Prod.snd agree), congrArg Prod.fst agree⟩

theorem reader_ignores_pieces_line :
    values (readerMachine.run (script [.feed ":".toList, .next, .feed "1\r\n".toList, .next])
        Reader.create).trace <+:
      values (readerMachine.run (script [.feed ":1\r\n".toList, .next, .next])
        Reader.create).trace := by
  have same : fed (readerMachine.run (script [.feed ":1\r\n".toList, .next, .next])
        Reader.create).trace =
      fed (readerMachine.run (script [.feed ":".toList, .next, .feed "1\r\n".toList, .next])
        Reader.create).trace := by
    decide
  have drained : Drained (readerMachine.run (script [.feed ":1\r\n".toList, .next, .next])
      Reader.create).trace :=
    ⟨_, List.dropLast_append_getLast? _ rfl |>.symm⟩
  exact ((reader_ignores_pieces _ _ (same ▸ List.prefix_refl _)).2.1 drained).1

end LtramBench.Hiredis
