import LtramBench.Ycsb.Session

/-!
# Sessions come to their end

As long as the connection moves, a session neither waits for what never comes nor
runs out of rounds: nothing is left to write when a call waits for its answer, and
between two calls nothing is left to read.  So the calls return, and what they return
is what the server answered to their own commands.
-/

namespace LtramBench.Ycsb

open LtramBench.Hiredis LtramBench.Interaction LtramBench.Shell LtramBench.Streaming

section Progress

variable {vsnprintf : Text → VaArg → Text} {fuel : Nat} {slaves : Int}
  {answer : List Reply → Reply} {history : List Reply} {c : Context} {wire : Wire}

/-- Every answer was taken, and nothing is left to write. -/
structure Idle (answer : List Reply → Reply) (commands : List Reply) (c : Context)
    (wire : Wire) : Prop where
  upToDate : UpToDate answer commands c wire
  written : c.obuf = []

theorem idle_init : Idle answer [] Context.init (livelyContract answer).start where
  upToDate := paired_init
  written := rfl

/-- Nothing came before it was asked for. -/
theorem Idle.fresh (idle : Idle answer history c wire) (more : List Reply) :
    wire.received = encodeAll ((answersTo answer (history ++ more)).take history.length) := by
  obtain ⟨text, -, received⟩ := idle.upToDate.reading
  have all : (answersTo answer history).take history.length = answersTo answer history :=
    List.take_of_length_le (Nat.le_of_eq (length_answersTo history))
  have isPrefix := idle.upToDate.received
  rw [all] at received
  rw [received] at isPrefix
  -- the reader holds nothing beyond the last answer
  have nothing : text = [] := by
    have short := isPrefix.length_le
    rw [List.length_append] at short
    exact List.length_eq_zero_iff.mp (by omega)
  rw [received, nothing, List.append_nil, answersTo_append,
    List.take_append_of_le_length (Nat.le_of_eq (length_answersTo history).symm), all]

theorem Enough.front {first second : List Reply} (enough : Enough answer fuel (first ++ second)) :
    Enough answer fuel first := by
  obtain ⟨writes, reads⟩ := enough
  rw [encodeAll_append, List.length_append] at writes
  rw [answersTo_append, encodeAll_append, List.length_append] at reads
  exact ⟨by omega, by omega⟩

/-- Some commands are in the output buffer, and their answers are not there yet. -/
structure Awaiting (answer : List Reply → Reply) (fuel : Nat) (history commands : List Reply)
    (c : Context) (wire : Wire) : Prop where
  paired : Paired answer (history ++ commands) history.length c wire
  fresh : wire.received = encodeAll ((answersTo answer (history ++ commands)).take history.length)
  writes : c.obuf.length < fuel
  reads : (encodeAll (answersTo answer (history ++ commands))).length < fuel

theorem Idle.append (idle : Idle answer history c wire) {commands : List Reply}
    (readable : Readable commands) (enough : Enough answer fuel (history ++ commands)) :
    Awaiting answer fuel history commands { c with obuf := c.obuf ++ encodeAll commands } wire where
  paired := idle.upToDate.append readable
  fresh := idle.fresh commands
  writes := by
    have writes := enough.writes
    rw [encodeAll_append, List.length_append] at writes
    change (c.obuf ++ encodeAll commands).length < fuel
    rw [idle.written, List.nil_append]
    omega
  reads := enough.reads

theorem returns_orExit {σ α β : Type} {contract : Contract socketInterface σ} {value : Option α}
    {found : α} {next : α → Client β} {post : β → σ → Prop} {ghost : σ} (same : value = some found)
    (holds : contract.Returns (next found) post ghost) :
    contract.Returns (orExit value >>= next) post ghost := by
  rw [same]
  exact holds

/-! ## Commands -/

theorem room_waits (waits : ∀ argv ∈ waitArguments slaves, Fits argv) :
    sdsMaxPrealloc + (encodeAll ((waitArguments slaves).map commandReply)).length < 2 ^ 30 := by
  unfold waitArguments at waits ⊢
  split
  · decide
  · next some =>
      rw [if_neg some] at waits
      rw [encodeAll_singleton]
      exact waits _ List.mem_cons_self

/-- A `WAIT` that fits is appended. -/
theorem appendWait_eq (prints : PrintsInts vsnprintf)
    (fits : SdsFits
      (c.obuf.length + (encodeAll ((waitArguments slaves).map commandReply)).length)) :
    appendWait vsnprintf slaves c =
      some ({ c with obuf := c.obuf ++ encodeAll ((waitArguments slaves).map commandReply) },
        true) := by
  unfold appendWait waitArguments at *
  split
  · rw [List.map_nil, encodeAll, List.append_nil]
  · next some =>
      rw [if_neg some, encodeAll_singleton] at fits
      rw [encodeAll_singleton]
      exact redisvAppendCommand_eq (sentFormat_wait prints) fits

variable (readable : ∀ commands, Readable [answer commands])
include readable

/-- The replies to a command and its `WAIT` come. -/
theorem awaitReplies_returns {argv : List Text}
    (awaiting : Awaiting answer fuel history ((argv :: waitArguments slaves).map commandReply) c
      wire) :
    (livelyContract answer).Returns (awaitReplies fuel slaves c)
      (Idle answer (history ++ (argv :: waitArguments slaves).map commandReply)) wire := by
  obtain ⟨paired, fresh, writes, reads⟩ := awaiting
  have owed : history.length <
      (history ++ (argv :: waitArguments slaves).map commandReply).length := by
    simp
  refine Contract.returns_bind
    ((redisGetReply_returns readable paired owed (.inr fresh) writes reads).mono ?_)
  rintro ⟨c, reply⟩ wire ⟨written, made, rfl, -, one⟩
  change (livelyContract answer).Returns (if slaves = 0 then _ else _) _ _
  split
  · next none =>
      have count : (history ++ (argv :: waitArguments slaves).map commandReply).length =
          history.length + 1 := by
        simp [waitArguments, none]
      refine ⟨?_, written⟩
      rw [UpToDate, count]
      exact one
  · next some =>
      have count : (history ++ (argv :: waitArguments slaves).map commandReply).length =
          history.length + 1 + 1 := by
        simp [waitArguments, some]
      have writes : c.obuf.length < fuel := by
        rw [show c.obuf = [] from written]
        exact Nat.lt_of_le_of_lt (Nat.zero_le _) reads
      refine Contract.returns_bind ((redisGetReply_returns readable one (by omega) (.inl written)
        writes reads).mono ?_)
      rintro ⟨c, reply⟩ wire ⟨written, made, rfl, -, two⟩
      refine ⟨?_, written⟩
      rw [UpToDate, count]
      exact two

/-- A command goes out, and its replies come. -/
theorem command_returns (prints : PrintsInts vsnprintf)
    (waits : ∀ argv ∈ waitArguments slaves, Fits argv) (idle : Idle answer history c wire)
    {cmd : Text} {argv : List Text} (sent : sentFormat vsnprintf cmd [] = some argv)
    (fits : Fits argv)
    (enough : Enough answer fuel (history ++ (argv :: waitArguments slaves).map commandReply)) :
    (livelyContract answer).Returns (command vsnprintf fuel slaves c cmd)
      (Idle answer (history ++ (argv :: waitArguments slaves).map commandReply)) wire := by
  have all : Readable ((argv :: waitArguments slaves).map commandReply) :=
    readable_commands (List.forall_mem_cons.mpr ⟨fits, waits⟩)
  have awaiting := idle.append all enough
  have room := room_waits waits
  have own : sdsMaxPrealloc + (writeCommand argv).length < 2 ^ 30 := fits
  have bytes : encodeAll ((argv :: waitArguments slaves).map commandReply) =
      writeCommand argv ++ encodeAll ((waitArguments slaves).map commandReply) := by
    rw [List.map_cons, encodeAll, writeCommand_eq_encode]
  rw [bytes, ← List.append_assoc] at awaiting
  refine returns_orExit (redisvAppendCommand_eq sent ?_) (returns_orExit (appendWait_eq prints ?_)
    (awaitReplies_returns readable awaiting))
  · rw [idle.written, List.length_nil, Nat.zero_add]
    exact fits.sds
  · unfold SdsFits
    simp only [idle.written, List.nil_append]
    omega

/-- The reply to a read comes. -/
theorem read_returns {argv : List Text} {operation : Operation} {result : List KVPair}
    (found : resultOf operation (answer (history ++ [commandReply argv])) = some result)
    (awaiting : Awaiting answer fuel history [commandReply argv] c wire) :
    (livelyContract answer).Returns (redisGetReply fuel c >>= fun (c, reply) =>
      match reply with
      | none => pure (c, [])
      | some reply => do
          let result ← orExit (resultOf operation reply)
          pure (c, result)) (fun out after =>
        out.2 = result ∧ Idle answer (history ++ [commandReply argv]) out.1 after) wire := by
  obtain ⟨paired, fresh, writes, reads⟩ := awaiting
  have count : (history ++ [commandReply argv]).length = history.length + 1 := by
    simp
  refine Contract.returns_bind ((redisGetReply_returns readable paired (by omega) (.inr fresh)
    writes reads).mono ?_)
  rintro ⟨c, reply⟩ wire ⟨written, made, rfl, own, one⟩
  rw [answersTo_getElem] at own
  obtain rfl := Option.some.inj own
  refine returns_orExit found ⟨rfl, ?_, written⟩
  rw [UpToDate, count]
  exact one

/-- A call returns its result. -/
theorem perform_returns (prints : PrintsInts vsnprintf)
    (waits : ∀ argv ∈ waitArguments slaves, Fits argv) (idle : Idle answer history c wire)
    {operation : Operation} {argvs : List (List Text)}
    (sent : argumentsSent vsnprintf slaves operation = some argvs)
    (fits : ∀ argv ∈ argvs, Fits argv) {result : List KVPair}
    (found : resultOf operation (answer (history ++ (argvs.map commandReply).take 1)) = some result)
    (enough : Enough answer fuel (history ++ argvs.map commandReply)) :
    (livelyContract answer).Returns (perform vsnprintf fuel slaves c operation) (fun out after =>
      out.2 = result ∧ Idle answer (history ++ argvs.map commandReply) out.1 after) wire := by
  -- a call whose command is a text
  have byFormat : ∀ cmd, (sentFormat vsnprintf cmd []).map (· :: waitArguments slaves) =
      some argvs → [] = result → (livelyContract answer).Returns
        (command vsnprintf fuel slaves c cmd >>= fun c => pure (c, [])) (fun out after =>
          out.2 = result ∧ Idle answer (history ++ argvs.map commandReply) out.1 after) wire := by
    intro cmd formats empty
    obtain ⟨argv, formatted, rfl⟩ := Option.map_eq_some_iff.mp formats
    refine Contract.returns_bind ((command_returns readable prints waits idle formatted
      (fits argv List.mem_cons_self) enough).mono ?_)
    intro out after idle
    exact ⟨empty, idle⟩
  cases operation with
  | read key fields =>
      cases fields with
      | some fields =>
          obtain rfl := Option.some.inj sent
          have own : Fits ("HMGET".toList :: key :: fields) := fits _ List.mem_cons_self
          have awaiting := idle.append (readable_commands fits) enough
          rw [encodeAll_singleton] at awaiting
          refine returns_orExit ?_ (read_returns readable found awaiting)
          have appended := @redisAppendCommandArgv_eq c _ _ own.callable (by
            rw [argumentsOf_lengths, idle.written, List.length_nil, Nat.zero_add]
            exact own.sds)
          rwa [argumentsOf_lengths] at appended
      | none =>
          obtain rfl := Option.some.inj sent
          have own : Fits ["HGETALL".toList, cString key] := fits _ List.mem_cons_self
          have awaiting := idle.append (readable_commands fits) enough
          rw [encodeAll_singleton] at awaiting
          refine returns_orExit (redisvAppendCommand_eq (sentFormat_hgetall key) ?_)
            (read_returns readable found awaiting)
          rw [idle.written, List.length_nil, Nat.zero_add]
          exact own.sds
  | scan key len fields => cases sent
  | update key values =>
      obtain ⟨cmd, built, formats⟩ := Option.bind_eq_some_iff.mp sent
      exact returns_orExit built (byFormat cmd formats (Option.some.inj found))
  | insert key values =>
      obtain ⟨cmd, built, formats⟩ := Option.bind_eq_some_iff.mp sent
      exact returns_orExit built (byFormat cmd formats (Option.some.inj found))
  | delete key => exact byFormat _ sent (Option.some.inj found)

/-- A session returns what it should. -/
theorem session_returns (prints : PrintsInts vsnprintf)
    (waits : ∀ argv ∈ waitArguments slaves, Fits argv) {operations : List Operation}
    (fits : ∀ argv ∈ commandsOf vsnprintf slaves operations, Fits argv)
    {results : List (List KVPair)}
    (gives : expected vsnprintf slaves answer history operations = some results)
    (enough : Enough answer fuel
      (history ++ (commandsOf vsnprintf slaves operations).map commandReply))
    (idle : Idle answer history c wire) :
    (livelyContract answer).Returns (session vsnprintf fuel slaves c operations) (fun out _ =>
      out.1.err = none ∧ out.2 = results) wire := by
  induction operations generalizing history c wire results with
  | nil =>
      cases gives
      exact ⟨idle.upToDate.err, rfl⟩
  | cons operation rest ih =>
      simp only [expected, Option.bind_eq_bind, Option.bind_eq_some_iff] at gives
      obtain ⟨argvs, sent, result, found, others, later, same⟩ := gives
      obtain rfl := Option.some.inj same
      have commands : commandsOf vsnprintf slaves (operation :: rest) =
          argvs ++ commandsOf vsnprintf slaves rest := by
        rw [commandsOf, List.flatMap_cons, sent]
        rfl
      rw [commands, List.map_append, ← List.append_assoc] at enough
      rw [commands, List.forall_mem_append] at fits
      refine Contract.returns_bind
        ((perform_returns readable prints waits idle sent fits.1 found enough.front).mono ?_)
      rintro ⟨c, own⟩ wire ⟨rfl, idle⟩
      refine Contract.returns_bind ((ih fits.2 later enough idle).mono ?_)
      rintro ⟨c, results⟩ wire ⟨noError, rfl⟩
      exact ⟨noError, rfl⟩

end Progress

/-- Every call of the database returns what the server answered to its own command,
wherever the network cuts what it carries, as long as the connection has no error.
And while the connection moves, no call gets stuck: with a round for every byte, the
whole session returns. -/
theorem session_returns_answers {vsnprintf : Text → VaArg → Text} (prints : PrintsInts vsnprintf)
    {answer : List Reply → Reply} (readable : ∀ commands, Readable [answer commands])
    {slaves : Int} (waits : ∀ argv ∈ waitArguments slaves, Fits argv)
    {operations : List Operation}
    (fits : ∀ argv ∈ commandsOf vsnprintf slaves operations, Fits argv) (fuel : Nat) :
    (∀ trace c results,
      (session vsnprintf fuel slaves Context.init operations).Runs trace (some (c, results)) →
        (serverContract answer).Respects (serverContract answer).start trace → c.err = none →
          expected vsnprintf slaves answer [] operations = some results) ∧
      ∀ results, expected vsnprintf slaves answer [] operations = some results →
        Enough answer fuel ((commandsOf vsnprintf slaves operations).map commandReply) →
          (livelyContract answer).Returns (session vsnprintf fuel slaves Context.init operations)
            (fun out _ => out.1.err = none ∧ out.2 = results) (livelyContract answer).start :=
  ⟨fun _ _ _ run honest noError => session_expected prints readable waits fits run honest noError,
    fun _ gives enough => session_returns readable prints waits fits gives enough idle_init⟩

/-- A C library that prints integers and nothing else. -/
def printsInts (_ : Text) : VaArg → Text
  | .int value => printInt value
  | _ => []

/-- A server with one value. -/
def answersValue (_ : List Reply) : Reply :=
  .array 1 [.string "v".toList]

/-- The read of a field: its command is cut, after an interruption. -/
def readTrace : List (Event socketInterface) :=
  [⟨.write "*3\r\n$5\r\nHMGET\r\n$1\r\nk\r\n$1\r\nf\r\n".toList, .interrupted⟩,
    ⟨.write "*3\r\n$5\r\nHMGET\r\n$1\r\nk\r\n$1\r\nf\r\n".toList, .wrote 15⟩,
    ⟨.write "$1\r\nk\r\n$1\r\nf\r\n".toList, .wrote 14⟩,
    ⟨.read, .got "*1\r\n$1\r\nv\r\n".toList⟩]

theorem session_returns_answers_read :
    (∃ c, (session printsInts 42 0 Context.init [.read "k".toList (some ["f".toList])]).Runs
        readTrace (some (c, [[("f".toList, "v".toList)]])) ∧ c.err = none) ∧
      expected printsInts 0 answersValue [] [.read "k".toList (some ["f".toList])] =
        some [[("f".toList, "v".toList)]] ∧
      (livelyContract answersValue).Returns
        (session printsInts 42 0 Context.init [.read "k".toList (some ["f".toList])])
        (fun out _ => out.1.err = none ∧ out.2 = [[("f".toList, "v".toList)]])
        (livelyContract answersValue).start := by
  have readable : ∀ commands : List Reply, Readable [answersValue commands] := by
    intro _ made member
    rw [List.mem_singleton.mp member]
    exact @Fits.readable ["v".toList] (by decide)
  have commands : commandsOf printsInts 0 [.read "k".toList (some ["f".toList])] =
      [["HMGET".toList, "k".toList, "f".toList]] := rfl
  have fits : ∀ argv ∈ [["HMGET".toList, "k".toList, "f".toList]], Fits argv :=
    List.forall_mem_singleton.mpr (by decide)
  have run : ∃ c, (session printsInts 42 0 Context.init [.read "k".toList (some ["f".toList])]).Runs
      readTrace (some (c, [[("f".toList, "v".toList)]])) ∧ c.err = none :=
    ⟨_, .call (.call (.call (.call (.done _)))), rfl⟩
  obtain ⟨c, read, noError⟩ := run
  have answers := @session_returns_answers printsInts (fun _ => rfl) answersValue readable 0
    (by simp [waitArguments]) _ (commands ▸ fits) 42
  have gives := answers.1 _ c _ read ⟨trivial, trivial, trivial,
    allowed_of_whole fits (by decide) ⟨[], by decide⟩, trivial⟩ noError
  exact ⟨⟨c, read, noError⟩, gives, answers.2 _ gives ⟨by decide, by decide⟩⟩

end LtramBench.Ycsb
