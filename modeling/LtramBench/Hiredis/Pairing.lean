import LtramBench.Hiredis.Connection

/-!
# Replies belong to commands

The server answers every command that it got completely, in order; an answer may
depend on all the commands before it.  The network cuts both directions anywhere.
Then the replies that `redisGetReply` returns are the answers to the commands that
were appended, one after the other.  As long as the network carries something, there
is a reply to every command.
-/

namespace LtramBench.Hiredis

open LtramBench.Interaction LtramBench.Shell LtramBench.Streaming

/-! ## The server -/

/-- The answers to some commands, after others. -/
def answersFrom (answer : List Reply → Reply) : List Reply → List Reply → List Reply
  | _, [] => []
  | history, command :: rest =>
      answer (history ++ [command]) :: answersFrom answer (history ++ [command]) rest

/-- The answers to all commands. -/
def answersTo (answer : List Reply → Reply) (commands : List Reply) : List Reply :=
  answersFrom answer [] commands

/-- The commands that are complete in what a server received. -/
def commandsIn (received : Text) : List Reply :=
  (decode (reply maxLevels) received).1

/-- What went over the connection, in either direction. -/
structure Wire where
  sent : Text
  received : Text

/-- The connection to a server with these answers. -/
def serverContract (answer : List Reply → Reply) : Contract socketInterface Wire where
  start := { sent := [], received := [] }
  allows wire
    | .read, .got bytes =>
        wire.received ++ bytes <+: encodeAll (answersTo answer (commandsIn wire.sent))
    | _, _ => True
  advance wire
    | ⟨.write bytes, .wrote count⟩ => { wire with sent := wire.sent ++ bytes.take count }
    | ⟨.read, .got bytes⟩ => { wire with received := wire.received ++ bytes }
    | _ => wire

/-- The same connection when it does not fail and every call moves something. -/
def livelyContract (answer : List Reply → Reply) : Contract socketInterface Wire where
  start := (serverContract answer).start
  allows wire
    | .write bytes, .wrote count => 0 < count ∧ count ≤ bytes.length
    | .read, .got bytes =>
        bytes ≠ [] ∧ wire.received ++ bytes <+: encodeAll (answersTo answer (commandsIn wire.sent))
    | _, _ => False
  advance := (serverContract answer).advance

section Answers

variable {answer : List Reply → Reply}

theorem answersFrom_append (history first second : List Reply) :
    answersFrom answer history (first ++ second) =
      answersFrom answer history first ++ answersFrom answer (history ++ first) second := by
  induction first generalizing history with
  | nil => rw [List.append_nil]; rfl
  | cons command rest ih =>
      simp only [List.cons_append, answersFrom, ih, List.append_assoc, List.nil_append]

theorem answersTo_append (first second : List Reply) :
    answersTo answer (first ++ second) =
      answersTo answer first ++ answersFrom answer first second :=
  answersFrom_append [] first second

theorem length_answersFrom (history commands : List Reply) :
    (answersFrom answer history commands).length = commands.length := by
  induction commands generalizing history with
  | nil => rfl
  | cons command rest ih => rw [answersFrom, List.length_cons, ih, List.length_cons]

theorem length_answersTo (commands : List Reply) :
    (answersTo answer commands).length = commands.length :=
  length_answersFrom [] commands

theorem answersTo_mono {first second : List Reply} (isPrefix : first <+: second) :
    answersTo answer first <+: answersTo answer second := by
  obtain ⟨later, rfl⟩ := isPrefix
  rw [answersTo_append]
  exact List.prefix_append _ _

theorem encode_ne_nil (made : Reply) : encode made ≠ [] := by
  cases made <;> simp [encode]

theorem encodeAll_append (first second : List Reply) :
    encodeAll (first ++ second) = encodeAll first ++ encodeAll second := by
  induction first with
  | nil => rfl
  | cons made rest ih => rw [List.cons_append, encodeAll, ih, encodeAll, List.append_assoc]

theorem encodeAll_mono {first second : List Reply} (isPrefix : first <+: second) :
    encodeAll first <+: encodeAll second := by
  obtain ⟨later, rfl⟩ := isPrefix
  rw [encodeAll_append]
  exact List.prefix_append _ _

theorem readable_answersTo (readable : ∀ commands, Readable [answer commands])
    (commands : List Reply) : Readable (answersTo answer commands) := by
  have each : ∀ history rest : List Reply, Readable (answersFrom answer history rest) := by
    intro history rest
    induction rest generalizing history with
    | nil => exact fun _ member => nomatch member
    | cons command rest ih =>
        intro made member
        rcases List.mem_cons.mp member with rfl | later
        · exact readable _ _ List.mem_cons_self
        · exact ih _ made later
  exact each [] commands

end Answers

/-! ## The invariant -/

/-- So many of the answers to the commands were taken, and what the reader holds
comes next. -/
structure Paired (answer : List Reply → Reply) (commands : List Reply) (taken : Nat)
    (c : Context) (wire : Wire) : Prop where
  err : c.err = none
  bound : taken ≤ commands.length
  readable : Readable commands
  written : wire.sent ++ c.obuf = encodeAll commands
  received : wire.received <+: encodeAll (answersTo answer commands)
  reading : ∃ text, Tracks c.reader (.ok text) ∧
    wire.received = encodeAll ((answersTo answer commands).take taken) ++ text

section Pairing

variable {answer : List Reply → Reply} {commands : List Reply} {taken : Nat} {c : Context}
  {wire : Wire}

theorem paired_init : Paired answer [] 0 Context.init (serverContract answer).start where
  err := rfl
  bound := Nat.le_refl _
  readable := fun _ member => nomatch member
  written := rfl
  received := List.nil_prefix
  reading := ⟨[], create_tracks, rfl⟩

/-- New commands. -/
theorem Paired.append (paired : Paired answer commands taken c wire) {more : List Reply}
    (readable : Readable more) :
    Paired answer (commands ++ more) taken { c with obuf := c.obuf ++ encodeAll more } wire where
  err := paired.err
  bound := by
    have bound := paired.bound
    rw [List.length_append]
    omega
  readable := fun made member =>
    (List.mem_append.mp member).elim (paired.readable made) (readable made)
  written := by
    rw [encodeAll_append, ← paired.written, List.append_assoc]
  received := paired.received.trans
    (encodeAll_mono (answersTo_mono (List.prefix_append _ _)))
  reading := by
    obtain ⟨text, tracks, received⟩ := paired.reading
    refine ⟨text, tracks, ?_⟩
    rw [answersTo_append, List.take_append_of_le_length (by
      rw [length_answersTo]
      exact paired.bound)]
    exact received

/-- The front of the bytes of some replies is an incomplete reply or the first of
them. -/
theorem reply_of_front {replies : List Reply} (readable : Readable replies) {text : Text}
    (isPrefix : text <+: encodeAll replies) :
    reply maxLevels text = .more ∨
      ∃ first rest left, replies = first :: rest ∧ text = encode first ++ left ∧
        reply maxLevels text = .done first left := by
  obtain ⟨later, whole⟩ := isPrefix
  cases replies with
  | nil =>
      rw [encodeAll, List.append_eq_nil_iff] at whole
      rw [whole.1]
      exact .inl rfl
  | cons first rest =>
      obtain ⟨wellFormed, shallow⟩ := readable first List.mem_cons_self
      have all : reply maxLevels (text ++ later) = .done first (encodeAll rest) := by
        rw [whole, encodeAll, reply_encode wellFormed, if_pos shallow]
      cases found : reply maxLevels text with
      | more => exact .inl rfl
      | failed failure =>
          rw [(reply_stable _).failed found] at all
          cases all
      | done made left =>
          rw [(reply_stable _).done found] at all
          obtain ⟨rfl, remains⟩ := Parsed.done.inj all
          refine .inr ⟨made, rest, left, rfl, ?_, rfl⟩
          rw [encodeAll, ← remains, ← List.append_assoc] at whole
          exact List.append_cancel_right whole

/-- Asking the reader: no reply yet, because something is still to come, or the next
answer. -/
theorem Paired.fromReader (paired : Paired answer commands taken c wire)
    (readable : ∀ commands, Readable [answer commands]) :
    ((redisGetReplyFromReader c).2 = some none ∧
        (taken < commands.length → wire.received ≠ encodeAll (answersTo answer commands)) ∧
        Paired answer commands taken (redisGetReplyFromReader c).1 wire) ∨
      ∃ made, (redisGetReplyFromReader c).2 = some (some made) ∧
        (answersTo answer commands)[taken]? = some made ∧
        Paired answer commands (taken + 1) (redisGetReplyFromReader c).1 wire := by
  obtain ⟨text, tracks, received⟩ := paired.reading
  have answers := readable_answersTo readable commands
  have split := List.take_append_drop taken (answersTo answer commands)
  -- what the reader holds is the front of the remaining answers
  have isPrefix : text <+: encodeAll ((answersTo answer commands).drop taken) := by
    have sent := paired.received
    rw [received] at sent
    nth_rewrite 2 [← split] at sent
    rw [encodeAll_append] at sent
    exact (List.prefix_append_right_inj _).mp sent
  have remaining : Readable ((answersTo answer commands).drop taken) :=
    fun made member => answers made (List.mem_of_mem_drop member)
  obtain ⟨sameAnswer, after⟩ := tracks.getReply
  unfold redisGetReplyFromReader
  generalize c.reader.redisReaderGetReply = result at sameAnswer after
  obtain ⟨reader, answered⟩ := result
  dsimp only at sameAnswer after
  rcases reply_of_front remaining isPrefix with more | ⟨first, rest, left, isNext, front, found⟩
  · simp only [plainReader, more] at sameAnswer after
    subst sameAnswer
    refine .inl ⟨rfl, fun left all => ?_, paired.err, paired.bound, paired.readable,
      paired.written, paired.received, text, after, received⟩
    -- all the bytes of the next answer would be there
    have rest : text = encodeAll ((answersTo answer commands).drop taken) := by
      rw [received] at all
      nth_rewrite 2 [← split] at all
      rw [encodeAll_append] at all
      exact List.append_cancel_left all
    cases next : (answersTo answer commands).drop taken with
    | nil =>
        rw [List.drop_eq_nil_iff, length_answersTo] at next
        omega
    | cons first others =>
        obtain ⟨wellFormed, shallow⟩ := remaining first (next ▸ List.mem_cons_self)
        rw [rest, next, encodeAll, reply_encode wellFormed, if_pos shallow] at more
        cases more
  · simp only [plainReader, found] at sameAnswer after
    subst sameAnswer
    have next : (answersTo answer commands)[taken]? = some first := by
      rw [← List.head?_drop, isNext]
      rfl
    have more : taken < commands.length := by
      rw [← @length_answersTo answer]
      exact (List.getElem?_eq_some_iff.mp next).1
    refine .inr ⟨first, rfl, next, paired.err, more, paired.readable, paired.written,
      paired.received, left, after, ?_⟩
    rw [List.take_add_one, next, encodeAll_append, received, front]
    simp only [Option.toList, encodeAll, List.append_nil, List.append_assoc]

/-- Writing keeps the invariant. -/
theorem Paired.write (paired : Paired answer commands taken c wire) (count : Nat) :
    Paired answer commands taken { c with obuf := c.obuf.drop count }
      { wire with sent := wire.sent ++ c.obuf.take count } where
  err := paired.err
  bound := paired.bound
  readable := paired.readable
  written := by
    rw [List.append_assoc, List.take_append_drop]
    exact paired.written
  received := paired.received
  reading := paired.reading

theorem commandsIn_encodeAll {commands : List Reply} (readable : Readable commands) :
    commandsIn (encodeAll commands) = commands := by
  rw [commandsIn, decode_whole readable]

theorem Paired.commandsIn_front (paired : Paired answer commands taken c wire) :
    commandsIn wire.sent <+: commands := by
  have whole := decode_whole paired.readable
  have sent : wire.sent <+: encodeAll commands := ⟨c.obuf, paired.written⟩
  obtain ⟨some, left, isPrefix, decoded⟩ :=
    decode_front (reply_stable _) (reply_consumes _) sent whole
  rw [commandsIn, decoded]
  exact isPrefix

/-- What the server sends is taken up. -/
theorem Paired.read (paired : Paired answer commands taken c wire) {bytes : Text}
    (allowed : wire.received ++ bytes <+: encodeAll (answersTo answer (commandsIn wire.sent))) :
    (c.reader.redisReaderFeed bytes).2 = true ∧
      Paired answer commands taken { c with reader := (c.reader.redisReaderFeed bytes).1 }
        { wire with received := wire.received ++ bytes } := by
  obtain ⟨text, tracks, received⟩ := paired.reading
  have step := readerMachine_simulates (.feed bytes) c.reader _ tracks
  refine ⟨step.1, paired.err, paired.bound, paired.readable, paired.written, ?_, text ++ bytes,
    step.2, ?_⟩
  · exact allowed.trans (encodeAll_mono (answersTo_mono paired.commandsIn_front))
  · simp only [received, List.append_assoc]

/-! ## The calls -/

/-- The invariant holds, or the context has an error. -/
def Intact (answer : List Reply → Reply) (commands : List Reply) (taken : Nat)
    (out : Context × Bool) (wire : Wire) : Prop :=
  if out.2 then Paired answer commands taken out.1 wire else out.1.err.isSome

/-- The next answer was taken, or the context has an error. -/
def Answered (answer : List Reply → Reply) (commands : List Reply) (taken : Nat)
    (out : Context × Option Reply) (wire : Wire) : Prop :=
  match out.2 with
  | some made =>
      (answersTo answer commands)[taken]? = some made ∧
        Paired answer commands (taken + 1) out.1 wire
  | none => out.1.err.isSome

theorem redisBufferWrite_under (paired : Paired answer commands taken c wire) :
    (serverContract answer).Under (redisBufferWrite c) (Intact answer commands taken) wire := by
  have noError : ¬ c.err.isSome = true := by simp [paired.err]
  unfold redisBufferWrite
  rw [if_neg noError]
  split
  · exact paired
  · refine Contract.under_bind fun written allowed => ?_
    cases written with
    | wrote count => exact paired.write count
    | interrupted => exact paired
    | failed => exact rfl

theorem redisBufferRead_under (paired : Paired answer commands taken c wire) :
    (serverContract answer).Under (redisBufferRead c) (Intact answer commands taken) wire := by
  have noError : ¬ c.err.isSome = true := by simp [paired.err]
  unfold redisBufferRead
  rw [if_neg noError]
  refine Contract.under_bind fun received allowed => ?_
  cases received with
  | got bytes =>
      obtain ⟨fed, after⟩ := paired.read allowed
      have result : c.reader.redisReaderFeed bytes = ((c.reader.redisReaderFeed bytes).1, true) :=
        Prod.ext rfl fed
      simp only [Contract.Under]
      rw [result]
      exact after
  | closed => exact rfl
  | interrupted => exact paired
  | failed => exact rfl

theorem writeAll_under (fuel : Nat) (paired : Paired answer commands taken c wire) :
    (serverContract answer).Under (writeAll fuel c) (Intact answer commands taken) wire := by
  induction fuel generalizing c wire with
  | zero => exact trivial
  | succ fuel ih =>
      refine Contract.under_bind ((redisBufferWrite_under paired).mono ?_)
      rintro ⟨c, ok⟩ wire intact
      cases ok with
      | true =>
          simp only [Intact, if_true] at intact ⊢
          split
          · exact intact
          · exact ih intact
      | false => exact intact

theorem readReply_under (fuel : Nat) (readable : ∀ commands, Readable [answer commands])
    (paired : Paired answer commands taken c wire) :
    (serverContract answer).Under (readReply fuel c) (Answered answer commands taken) wire := by
  induction fuel generalizing c wire with
  | zero => exact trivial
  | succ fuel ih =>
      refine Contract.under_bind ((redisBufferRead_under paired).mono ?_)
      rintro ⟨c, ok⟩ wire intact
      cases ok with
      | false => exact intact
      | true =>
          have intact : Paired answer commands taken c wire := intact
          have asked := intact.fromReader readable
          simp only [if_true]
          generalize redisGetReplyFromReader c = result at asked
          obtain ⟨after, answered⟩ := result
          rcases asked with ⟨rfl, -, kept⟩ | ⟨made, rfl, next, kept⟩
          · exact ih kept
          · exact ⟨next, kept⟩

/-- `redisGetReply` returns the next answer. -/
theorem redisGetReply_under (fuel : Nat) (readable : ∀ commands, Readable [answer commands])
    (paired : Paired answer commands taken c wire) :
    (serverContract answer).Under (redisGetReply fuel c) (Answered answer commands taken)
      wire := by
  have asked := paired.fromReader readable
  unfold redisGetReply
  generalize redisGetReplyFromReader c = result at asked
  obtain ⟨after, answered⟩ := result
  rcases asked with ⟨rfl, -, kept⟩ | ⟨made, rfl, next, kept⟩
  · refine Contract.under_bind ((writeAll_under fuel kept).mono ?_)
    rintro ⟨c, ok⟩ wire intact
    cases ok with
    | true => exact readReply_under fuel readable intact
    | false => exact intact
  · exact ⟨next, kept⟩

/-! ## A connection that moves -/

section Lively

/-- What holds of every run against a server holds when the connection moves. -/
theorem under_lively {α : Type} {program : Client α} {post : α → Wire → Prop}
    (holds : (serverContract answer).Under program post wire) :
    (livelyContract answer).Under program post wire := by
  refine Contract.Under.comap id holds (fun ghost request reply allowed => ?_) fun _ _ => rfl
  cases request with
  | write bytes => exact trivial
  | read =>
      cases reply with
      | got bytes => exact allowed.2
      | closed => exact trivial
      | interrupted => exact trivial
      | failed => exact trivial

/-- A write makes the output buffer shorter. -/
theorem redisBufferWrite_returns (noError : c.err = none) :
    (livelyContract answer).Returns (redisBufferWrite c) (fun out after =>
      out.2 = true ∧ out.1.err = none ∧ after.received = wire.received ∧
        (out.1.obuf = [] ∨ out.1.obuf.length < c.obuf.length)) wire := by
  have working : ¬ c.err.isSome = true := by simp [noError]
  unfold redisBufferWrite
  rw [if_neg working]
  split
  · next empty => exact ⟨rfl, noError, rfl, .inl empty⟩
  · next some =>
      have positive := List.length_pos_of_ne_nil some
      refine Contract.returns_bind ⟨⟨.wrote c.obuf.length, positive, Nat.le_refl _⟩, ?_⟩
      intro written allowed
      cases written with
      | wrote count =>
          obtain ⟨moves, -⟩ : 0 < count ∧ count ≤ c.obuf.length := allowed
          refine ⟨rfl, noError, rfl, .inr ?_⟩
          rw [List.length_drop]
          omega
      | interrupted => exact allowed.elim
      | failed => exact allowed.elim

/-- The output buffer gets empty, one byte a round or faster. -/
theorem writeAll_empties {fuel : Nat} (noError : c.err = none) (enough : c.obuf.length < fuel) :
    (livelyContract answer).Returns (writeAll fuel c) (fun out after =>
      out.2 = true ∧ out.1.obuf = [] ∧ after.received = wire.received) wire := by
  induction fuel generalizing c wire with
  | zero => exact absurd enough (Nat.not_lt_zero _)
  | succ fuel ih =>
      refine Contract.returns_bind ((redisBufferWrite_returns noError).mono ?_)
      rintro ⟨next, ok⟩ after ⟨rfl, stillNoError, received, less⟩
      rw [← received]
      simp only [if_true]
      split
      · next empty => exact ⟨rfl, empty, rfl⟩
      · next some =>
          have shorter : next.obuf.length < c.obuf.length := less.resolve_left some
          exact ih stillNoError (by omega)

theorem writeAll_returns {fuel : Nat} (paired : Paired answer commands taken c wire)
    (enough : c.obuf.length < fuel) :
    (livelyContract answer).Returns (writeAll fuel c) (fun out after =>
      out.2 = true ∧ out.1.obuf = [] ∧ after.received = wire.received ∧
        Paired answer commands taken out.1 after) wire := by
  have both := (writeAll_empties paired.err enough).and_under
    (under_lively (writeAll_under fuel paired))
  refine both.mono ?_
  rintro ⟨next, ok⟩ after ⟨⟨rfl, empty, received⟩, intact⟩
  exact ⟨rfl, empty, received, intact⟩

/-- When everything is written and not everything has come, the server sends more. -/
theorem redisBufferRead_returns (paired : Paired answer commands taken c wire)
    (written : c.obuf = []) (more : wire.received ≠ encodeAll (answersTo answer commands)) :
    (livelyContract answer).Returns (redisBufferRead c) (fun out after =>
      out.2 = true ∧ out.1.obuf = [] ∧ wire.received.length < after.received.length ∧
        Paired answer commands taken out.1 after) wire := by
  have noError : ¬ c.err.isSome = true := by simp [paired.err]
  have sent : commandsIn wire.sent = commands := by
    have all := paired.written
    rw [written, List.append_nil] at all
    rw [all, commandsIn_encodeAll paired.readable]
  unfold redisBufferRead
  rw [if_neg noError]
  refine Contract.returns_bind ⟨?_, fun received allowed => ?_⟩
  · obtain ⟨rest, whole⟩ := paired.received
    refine ⟨.got rest, fun empty => more ?_, ?_⟩
    · rw [← whole, empty, List.append_nil]
    · rw [whole, sent]
  · cases received with
    | got bytes =>
        obtain ⟨nonempty, isPrefix⟩ : bytes ≠ [] ∧ wire.received ++ bytes <+:
          encodeAll (answersTo answer (commandsIn wire.sent)) := allowed
        obtain ⟨fed, after⟩ := paired.read isPrefix
        have result : c.reader.redisReaderFeed bytes =
            ((c.reader.redisReaderFeed bytes).1, true) := Prod.ext rfl fed
        have positive := List.length_pos_of_ne_nil nonempty
        simp only [Contract.Returns]
        rw [result]
        refine ⟨rfl, written, ?_, after⟩
        simp only [livelyContract, serverContract, List.length_append]
        omega
    | closed => exact allowed.elim
    | interrupted => exact allowed.elim
    | failed => exact allowed.elim

theorem redisGetReplyFromReader_obuf (c : Context) :
    (redisGetReplyFromReader c).1.obuf = c.obuf := by
  unfold redisGetReplyFromReader
  generalize c.reader.redisReaderGetReply = result
  obtain ⟨reader, answered⟩ := result
  cases answered <;> rfl

/-- The next answer was taken, and everything is written. -/
def Obtained (answer : List Reply → Reply) (commands : List Reply) (taken : Nat)
    (out : Context × Option Reply) (wire : Wire) : Prop :=
  out.1.obuf = [] ∧ ∃ made, out.2 = some made ∧ (answersTo answer commands)[taken]? = some made ∧
    Paired answer commands (taken + 1) out.1 wire

/-- The bytes that are still to come get fewer until there is a reply. -/
theorem readReply_returns {fuel : Nat} (readable : ∀ commands, Readable [answer commands])
    (paired : Paired answer commands taken c wire) (written : c.obuf = [])
    (owed : taken < commands.length)
    (more : wire.received ≠ encodeAll (answersTo answer commands))
    (enough : (encodeAll (answersTo answer commands)).length < fuel + wire.received.length) :
    (livelyContract answer).Returns (readReply fuel c) (Obtained answer commands taken) wire := by
  induction fuel generalizing c wire with
  | zero =>
      have front := paired.received.length_le
      omega
  | succ fuel ih =>
      refine Contract.returns_bind ((redisBufferRead_returns paired written more).mono ?_)
      rintro ⟨c, ok⟩ after ⟨rfl, written, grows, paired⟩
      have asked := paired.fromReader readable
      have kept := redisGetReplyFromReader_obuf c
      simp only [if_true]
      generalize redisGetReplyFromReader c = result at asked kept
      obtain ⟨next, answered⟩ := result
      rcases asked with ⟨rfl, more, paired⟩ | ⟨made, rfl, found, paired⟩
      · exact ih paired (kept.trans written) (more owed) (by omega)
      · exact ⟨kept.trans written, made, rfl, found, paired⟩

/-- Where nothing of the next answer has come, the reader has none. -/
theorem Paired.nothing (paired : Paired answer commands taken c wire)
    (readable : ∀ commands, Readable [answer commands])
    (fresh : wire.received = encodeAll ((answersTo answer commands).take taken)) :
    (redisGetReplyFromReader c).2 = some none := by
  rcases paired.fromReader readable with ⟨none, -⟩ | ⟨made, -, found, after⟩
  · exact none
  · obtain ⟨text, -, received⟩ := after.reading
    rw [fresh, List.take_add_one, found, encodeAll_append, List.append_assoc] at received
    have nothing := List.append_cancel_left ((List.append_nil _).trans received)
    simp [encodeAll, encode_ne_nil] at nothing

/-- `redisGetReply` returns the next answer: it does not wait for what never comes. -/
theorem redisGetReply_returns {fuel : Nat} (readable : ∀ commands, Readable [answer commands])
    (paired : Paired answer commands taken c wire) (owed : taken < commands.length)
    (quiet : c.obuf = [] ∨ wire.received = encodeAll ((answersTo answer commands).take taken))
    (enoughWrites : c.obuf.length < fuel)
    (enoughReads : (encodeAll (answersTo answer commands)).length < fuel) :
    (livelyContract answer).Returns (redisGetReply fuel c) (Obtained answer commands taken)
      wire := by
  have asked := paired.fromReader readable
  have kept := redisGetReplyFromReader_obuf c
  have nothing := @Paired.nothing _ _ _ _ _ paired readable
  unfold redisGetReply
  generalize redisGetReplyFromReader c = result at asked kept nothing
  obtain ⟨next, answered⟩ := result
  rcases asked with ⟨rfl, more, paired⟩ | ⟨made, rfl, found, paired⟩
  · have sameBuffer : next.obuf = c.obuf := kept
    refine Contract.returns_bind ((writeAll_returns paired (by rwa [sameBuffer])).mono ?_)
    rintro ⟨c, ok⟩ after ⟨rfl, written, received, paired⟩
    exact readReply_returns readable paired written owed (received ▸ more owed) (by omega)
  · refine ⟨?_, made, rfl, found, paired⟩
    rcases quiet with written | fresh
    · exact kept.trans written
    · cases nothing fresh

end Lively

/-! ## A context with an error -/

section Error

variable {σ : Type} {contract : Contract socketInterface σ} {ghost : σ}

theorem redisGetReplyFromReader_err (broken : c.err.isSome = true) :
    (redisGetReplyFromReader c).1.err.isSome = true := by
  unfold redisGetReplyFromReader
  generalize c.reader.redisReaderGetReply = result
  obtain ⟨reader, answered⟩ := result
  cases answered with
  | error failure => rfl
  | ok aux => exact broken

/-- An error stays. -/
theorem redisGetReply_err (fuel : Nat) (broken : c.err.isSome = true) :
    contract.Under (redisGetReply fuel c) (fun out _ => out.1.err.isSome = true) ghost := by
  have still := redisGetReplyFromReader_err broken
  unfold redisGetReply
  generalize redisGetReplyFromReader c = result at still
  obtain ⟨after, answered⟩ := result
  cases answered with
  | none => exact still
  | some aux =>
      cases aux with
      | some made => exact still
      | none =>
          cases fuel with
          | zero => exact trivial
          | succ fuel =>
              simp only [writeAll, redisBufferWrite, if_pos still]
              exact still

end Error

end Pairing

end LtramBench.Hiredis
