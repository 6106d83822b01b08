import LtramBench.Ycsb.RedisDB

/-!
# Sessions with a server

What the calls of the database return, told without buffers and pieces: every call
sends its commands and computes its result from the server's answer to the first of
them.  The program does exactly that, wherever the network cuts, and as long as the
network carries something it comes to its end.
-/

namespace LtramBench.Ycsb

open LtramBench.Hiredis LtramBench.Interaction LtramBench.Shell LtramBench.Streaming

/-! ## The meaning of a session -/

/-- The arguments that a format sends, if it can be formatted. -/
def sentFormat (vsnprintf : Text → VaArg → Text) (format : Text) (args : List VaArg) :
    Option (List Text) :=
  match formatArguments vsnprintf format args with
  | .ok b => some b.curargv
  | _ => none

/-- The `WAIT` behind a command. -/
def waitArguments (slaves : Int) : List (List Text) :=
  if slaves = 0 then [] else [["WAIT".toList, printInt slaves, printInt 0]]

/-- The commands of a call. -/
def argumentsSent (vsnprintf : Text → VaArg → Text) (slaves : Int) :
    Operation → Option (List (List Text))
  | .read key (some fields) => some ["HMGET".toList :: key :: fields]
  | .read key none => some [["HGETALL".toList, cString key]]
  | .scan _ _ _ => none
  | .update key values | .insert key values =>
      (updateCommand key values).bind fun cmd =>
        (sentFormat vsnprintf cmd []).map (· :: waitArguments slaves)
  | .delete key =>
      (sentFormat vsnprintf (deleteCommand key) []).map (· :: waitArguments slaves)

/-- The result of a call, from the answer to its first command. -/
def resultOf : Operation → Reply → Option (List KVPair)
  | .read _ (some fields), made => readFields fields made
  | .read _ none, made => readAll made
  | _, _ => some []

/-- The results of a session, when the server has got some commands before. -/
def expected (vsnprintf : Text → VaArg → Text) (slaves : Int) (answer : List Reply → Reply) :
    List Reply → List Operation → Option (List (List KVPair))
  | _, [] => some []
  | history, operation :: rest => do
      let argvs ← argumentsSent vsnprintf slaves operation
      let commands := argvs.map commandReply
      let result ← resultOf operation (answer (history ++ commands.take 1))
      let results ← expected vsnprintf slaves answer (history ++ commands) rest
      pure (result :: results)

/-- The commands of a session. -/
def commandsOf (vsnprintf : Text → VaArg → Text) (slaves : Int) (operations : List Operation) :
    List (List Text) :=
  operations.flatMap fun operation => (argumentsSent vsnprintf slaves operation).getD []

/-- A command that leaves room for a second one in an `sds` string. -/
abbrev Fits (argv : List Text) : Prop :=
  sdsMaxPrealloc + (writeCommand argv).length < 2 ^ 30

/-- More rounds than there are bytes in some commands, and in the answers to them. -/
structure Enough (answer : List Reply → Reply) (fuel : Nat) (commands : List Reply) : Prop where
  writes : (encodeAll commands).length < fuel
  reads : (encodeAll (answersTo answer commands)).length < fuel

/-! ## Commands -/

section Commands

variable {vsnprintf : Text → VaArg → Text} {fuel : Nat} {slaves : Int}
  {answer : List Reply → Reply} {history : List Reply} {taken : Nat} {c : Context} {wire : Wire}

theorem under_orExit {σ α β : Type} {contract : Contract socketInterface σ} {value : Option α}
    {next : α → Client β} {post : β → σ → Prop} {ghost : σ}
    (holds : ∀ found, value = some found → contract.Under (next found) post ghost) :
    contract.Under (orExit value >>= next) post ghost := by
  cases value with
  | none => exact trivial
  | some found => exact holds found rfl

theorem Fits.sds {argv : List Text} (fits : Fits argv) : SdsFits (writeCommand argv).length := by
  unfold Fits at fits
  unfold SdsFits
  omega

theorem Fits.readable {argv : List Text} (fits : Fits argv) :
    WellFormed (commandReply argv) ∧ (commandReply argv).depth ≤ maxLevels :=
  readable_commandReply fits.sds

theorem readable_commands {argvs : List (List Text)} (fits : ∀ argv ∈ argvs, Fits argv) :
    Readable (argvs.map commandReply) := by
  intro made member
  obtain ⟨argv, own, rfl⟩ := List.mem_map.mp member
  exact (fits argv own).readable

/-- A command with the lengths of its arguments. -/
theorem Fits.callable {argv : List Text} (fits : Fits argv) :
    Callable argv (some (argv.map List.length)) where
  there lengths same := by
    obtain rfl := Option.some.inj same
    exact List.forall₂_map_right_iff.mpr (List.forall₂_same.mpr fun arg _ => Nat.le_refl _)
  fits := by
    have size := fits.sds
    rw [length_writeCommand] at size
    exact size

/-- A server that has got whole commands may send its answers to them. -/
theorem allowed_of_whole {argvs : List (List Text)} (fits : ∀ argv ∈ argvs, Fits argv)
    {sent received : Text} (whole : sent = encodeAll (argvs.map commandReply))
    (answered : received <+: encodeAll (answersTo answer (argvs.map commandReply))) :
    received <+: encodeAll (answersTo answer (commandsIn sent)) := by
  rw [whole, commandsIn_encodeAll (readable_commands fits)]
  exact answered

theorem encodeAll_singleton (argv : List Text) :
    encodeAll ([argv].map commandReply) = writeCommand argv := by
  rw [List.map_singleton, encodeAll, encodeAll, List.append_nil, writeCommand_eq_encode]

theorem paired_appendArguments (paired : Paired answer history taken c wire)
    {argv : List Text} (fits : Fits argv) :
    Paired answer (history ++ [commandReply argv]) taken
      { c with obuf := c.obuf ++ writeCommand argv } wire := by
  rw [← encodeAll_singleton]
  exact paired.append (readable_commands (List.forall_mem_singleton.mpr fits))

theorem append_eq_some {cmd : Text} {out : Context} (appended : c.append cmd = some out) :
    out = { c with obuf := c.obuf ++ cmd } := by
  obtain ⟨obuf, fits, rfl⟩ := Option.map_eq_some_iff.mp appended
  obtain ⟨room, there, rfl⟩ := Option.map_eq_some_iff.mp fits
  unfold sdsMakeRoomFor at there
  split at there
  · rw [Option.some.inj there]
  · cases there

/-- Appending a format: the command it makes, or an error. -/
theorem redisvAppendCommand_cases {format : Text} {args : List VaArg} {out : Context × Bool}
    (appended : redisvAppendCommand vsnprintf c format args = some out) :
    (∃ argv, sentFormat vsnprintf format args = some argv ∧
        out = ({ c with obuf := c.obuf ++ writeCommand argv }, true)) ∨
      out.1.err.isSome = true ∧ out.2 = false := by
  unfold redisvAppendCommand at appended
  split at appended
  · next cmd ok =>
      obtain ⟨b, formatted, written⟩ := eq_writeCommand_of_redisvFormatCommand ok
      obtain ⟨after, fits, rfl⟩ := Option.map_eq_some_iff.mp appended
      refine .inl ⟨b.curargv, ?_, ?_⟩
      · rw [sentFormat, formatted]
      · rw [append_eq_some fits, written]
  · cases appended
    exact .inr ⟨rfl, rfl⟩
  · cases appended
    exact .inr ⟨rfl, rfl⟩
  · cases appended

/-- A command that fits is appended. -/
theorem redisvAppendCommand_eq {format : Text} {args : List VaArg} {argv : List Text}
    (sent : sentFormat vsnprintf format args = some argv)
    (fits : SdsFits (c.obuf.length + (writeCommand argv).length)) :
    redisvAppendCommand vsnprintf c format args =
      some ({ c with obuf := c.obuf ++ writeCommand argv }, true) := by
  have own : SdsFits (writeCommand argv).length := by
    unfold SdsFits at fits ⊢
    omega
  unfold sentFormat at sent
  split at sent
  · next b formatted =>
      obtain rfl := Option.some.inj sent
      rw [redisvAppendCommand, redisvFormatCommand_eq formatted own]
      dsimp only
      rw [Context.append_eq fits, Option.map_some]
  · cases sent

/-- `vsnprintf` prints integers. -/
def PrintsInts (vsnprintf : Text → VaArg → Text) : Prop :=
  ∀ value, vsnprintf "%d".toList (.int value) = printInt value

theorem sentFormat_wait (prints : PrintsInts vsnprintf) :
    sentFormat vsnprintf "WAIT %d %d".toList [.int slaves, .int 0] =
      some ["WAIT".toList, printInt slaves, printInt 0] := by
  rw [← prints, ← prints]
  rfl

theorem sentFormat_hgetall (key : Text) :
    sentFormat vsnprintf "HGETALL %s".toList [.pointer key] =
      some ["HGETALL".toList, cString key] :=
  rfl

/-! ### Errors stay -/

section Error

variable {σ : Type} {contract : Contract socketInterface σ} {ghost : σ}

/-- The context that a call leaves has an error. -/
abbrev Broken (out : Context) (_ : σ) : Prop := out.err.isSome = true

theorem redisvAppendCommand_broken (broken : c.err.isSome = true) {format : Text}
    {args : List VaArg} {out : Context × Bool}
    (appended : redisvAppendCommand vsnprintf c format args = some out) :
    out.1.err.isSome = true := by
  rcases redisvAppendCommand_cases appended with ⟨argv, -, rfl⟩ | ⟨failed, -⟩
  · exact broken
  · exact failed

theorem awaitReplies_broken (broken : c.err.isSome = true) :
    contract.Under (awaitReplies fuel slaves c) Broken ghost := by
  refine Contract.under_bind ((redisGetReply_err fuel broken).mono ?_)
  rintro ⟨c, reply⟩ ghost broken
  cases reply with
  | none => exact trivial
  | some made =>
      change contract.Under (if slaves = 0 then _ else _) _ _
      split
      · exact broken
      · refine Contract.under_bind ((redisGetReply_err fuel broken).mono ?_)
        rintro ⟨c, reply⟩ ghost broken
        cases reply with
        | none => exact trivial
        | some made => exact broken

theorem appendWait_broken (broken : c.err.isSome = true) {out : Context × Bool}
    (appended : appendWait vsnprintf slaves c = some out) : out.1.err.isSome = true := by
  unfold appendWait at appended
  split at appended
  · cases appended
    exact broken
  · exact redisvAppendCommand_broken broken appended

theorem command_broken (broken : c.err.isSome = true) (cmd : Text) :
    contract.Under (command vsnprintf fuel slaves c cmd) Broken ghost := by
  refine under_orExit fun first appended => ?_
  have firstBroken := redisvAppendCommand_broken broken appended
  refine under_orExit fun second waits => ?_
  exact awaitReplies_broken (appendWait_broken firstBroken waits)

/-- The context that a call leaves with a result has an error. -/
abbrev BrokenWith {α : Type} (out : Context × α) (_ : σ) : Prop := out.1.err.isSome = true

/-- Waiting for the reply to a read, in a context with an error. -/
theorem readReply_broken (broken : c.err.isSome = true) (read : Reply → Option (List KVPair)) :
    contract.Under (redisGetReply fuel c >>= fun (c, reply) =>
      match reply with
      | none => pure (c, [])
      | some reply => do
          let result ← orExit (read reply)
          pure (c, result)) BrokenWith ghost := by
  refine Contract.under_bind ((redisGetReply_err fuel broken).mono ?_)
  rintro ⟨c, reply⟩ ghost broken
  cases reply with
  | none => exact broken
  | some made => exact under_orExit fun result found => broken

theorem perform_broken (broken : c.err.isSome = true) (operation : Operation) :
    contract.Under (perform vsnprintf fuel slaves c operation) BrokenWith ghost := by
  have updates : ∀ key values, contract.Under
      (perform vsnprintf fuel slaves c (.update key values)) BrokenWith ghost := by
    intro key values
    refine under_orExit fun cmd built => ?_
    exact Contract.under_bind ((command_broken broken cmd).mono fun c ghost broken => broken)
  cases operation with
  | read key fields =>
      cases fields with
      | some fields =>
          refine under_orExit fun appended found => ?_
          have appendedBroken : appended.err.isSome = true := by
            obtain ⟨cmd, -, fits⟩ := Option.bind_eq_some_iff.mp found
            rw [append_eq_some fits]
            exact broken
          exact readReply_broken appendedBroken (readFields fields)
      | none =>
          refine under_orExit fun appended found => ?_
          have appendedBroken := redisvAppendCommand_broken broken found
          obtain ⟨c, ok⟩ := appended
          cases ok with
          | true => exact readReply_broken appendedBroken readAll
          | false => exact appendedBroken
  | scan key len fields => exact trivial
  | update key values => exact updates key values
  | insert key values => exact updates key values
  | delete key =>
      exact Contract.under_bind ((command_broken broken _).mono fun c ghost broken => broken)

theorem session_broken (broken : c.err.isSome = true) (operations : List Operation) :
    contract.Under (session vsnprintf fuel slaves c operations) BrokenWith ghost := by
  induction operations generalizing c ghost with
  | nil => exact broken
  | cons operation rest ih =>
      refine Contract.under_bind ((perform_broken broken operation).mono ?_)
      rintro ⟨c, result⟩ ghost broken
      exact Contract.under_bind ((ih broken).mono fun out ghost broken => broken)

end Error

/-! ### Answers belong to calls -/

theorem answersTo_getElem (history rest : List Reply) (command : Reply) :
    (answersTo answer (history ++ command :: rest))[history.length]? =
      some (answer (history ++ [command])) := by
  rw [answersTo_append, List.getElem?_append_right (by rw [length_answersTo]),
    length_answersTo, Nat.sub_self]
  rfl

/-- Every answer so far was taken. -/
abbrev UpToDate (answer : List Reply → Reply) (commands : List Reply) (c : Context)
    (wire : Wire) : Prop :=
  Paired answer commands commands.length c wire

/-- What appending a format to a context without pending replies leaves. -/
theorem UpToDate.appendFormat (upToDate : UpToDate answer history c wire) {format : Text}
    {args : List VaArg} {out : Context × Bool}
    (appended : redisvAppendCommand vsnprintf c format args = some out)
    (fits : ∀ argv, sentFormat vsnprintf format args = some argv → Fits argv) :
    (∃ argv, sentFormat vsnprintf format args = some argv ∧ out.2 = true ∧
        Paired answer (history ++ [commandReply argv]) history.length out.1 wire) ∨
      out.1.err.isSome = true ∧ out.2 = false := by
  rcases redisvAppendCommand_cases appended with ⟨argv, sent, rfl⟩ | failed
  · exact .inl ⟨argv, sent, rfl, paired_appendArguments upToDate (fits argv sent)⟩
  · exact .inr failed

/-- Appending the `WAIT`. -/
theorem paired_appendWait (prints : PrintsInts vsnprintf)
    (waits : ∀ argv ∈ waitArguments slaves, Fits argv) {argv : List Text}
    (paired : Paired answer (history ++ [commandReply argv]) taken c wire) {out : Context × Bool}
    (appended : appendWait vsnprintf slaves c = some out) :
    Paired answer (history ++ (argv :: waitArguments slaves).map commandReply) taken out.1 wire ∨
      out.1.err.isSome = true := by
  unfold appendWait at appended
  split at appended
  · next none =>
      cases appended
      rw [waitArguments, if_pos none]
      exact .inl paired
  · next some =>
      rw [waitArguments, if_neg some] at waits ⊢
      have sent := @sentFormat_wait _ slaves prints
      rcases redisvAppendCommand_cases appended with ⟨sentArgv, sent', rfl⟩ | ⟨failed, -⟩
      · obtain rfl := Option.some.inj (sent.symm.trans sent')
        have both := paired_appendArguments paired (waits _ List.mem_cons_self)
        rw [List.append_assoc] at both
        exact .inl both
      · exact .inr failed

/-- What a call of the database leaves, unless the context has an error. -/
def Performed (vsnprintf : Text → VaArg → Text) (slaves : Int) (answer : List Reply → Reply)
    (history : List Reply) (operation : Operation) (out : Context × List KVPair)
    (after : Wire) : Prop :=
  out.1.err = none → ∃ argvs, argumentsSent vsnprintf slaves operation = some argvs ∧
    resultOf operation (answer (history ++ (argvs.map commandReply).take 1)) = some out.2 ∧
    UpToDate answer (history ++ argvs.map commandReply) out.1 after

theorem performed_of_broken {operation : Operation} {out : Context × List KVPair} {after : Wire}
    (broken : out.1.err.isSome = true) :
    Performed vsnprintf slaves answer history operation out after := by
  intro noError
  rw [noError] at broken
  cases broken

variable (readable : ∀ commands, Readable [answer commands])
include readable

/-- The replies to a command and its `WAIT` are taken. -/
theorem awaitReplies_under {argv : List Text}
    (paired : Paired answer (history ++ (argv :: waitArguments slaves).map commandReply)
      history.length c wire) :
    (serverContract answer).Under (awaitReplies fuel slaves c) (fun out after =>
      out.err = none → UpToDate answer
        (history ++ (argv :: waitArguments slaves).map commandReply) out after) wire := by
  refine Contract.under_bind ((redisGetReply_under fuel readable paired).mono ?_)
  rintro ⟨c, reply⟩ wire answered
  cases reply with
  | none => exact trivial
  | some made =>
      obtain ⟨-, one⟩ := answered
      change (serverContract answer).Under (if slaves = 0 then _ else _) _ _
      split
      · next none =>
          intro noError
          have count : (history ++ (argv :: waitArguments slaves).map commandReply).length =
              history.length + 1 := by
            simp [waitArguments, none]
          rw [UpToDate, count]
          exact one
      · next some =>
          refine Contract.under_bind ((redisGetReply_under fuel readable one).mono ?_)
          rintro ⟨c, reply⟩ wire answered
          cases reply with
          | none => exact trivial
          | some made =>
              intro noError
              have count : (history ++ (argv :: waitArguments slaves).map commandReply).length =
                  history.length + 1 + 1 := by
                simp [waitArguments, some]
              rw [UpToDate, count]
              exact answered.2

/-- A command goes out as its format says, and its replies are taken. -/
theorem command_under (prints : PrintsInts vsnprintf)
    (waits : ∀ argv ∈ waitArguments slaves, Fits argv)
    (upToDate : UpToDate answer history c wire) (cmd : Text)
    (fits : ∀ argv, sentFormat vsnprintf cmd [] = some argv → Fits argv) :
    (serverContract answer).Under (command vsnprintf fuel slaves c cmd) (fun out after =>
      out.err = none → ∃ argv, sentFormat vsnprintf cmd [] = some argv ∧ UpToDate answer
        (history ++ (argv :: waitArguments slaves).map commandReply) out after) wire := by
  refine under_orExit fun first appended => under_orExit fun second waiting => ?_
  have ends : second.1.err.isSome = true → (serverContract answer).Under
      (awaitReplies fuel slaves second.1) (fun out after => out.err = none →
        ∃ argv, sentFormat vsnprintf cmd [] = some argv ∧ UpToDate answer
          (history ++ (argv :: waitArguments slaves).map commandReply) out after) wire := by
    intro broken
    refine (awaitReplies_broken broken).mono ?_
    intro out after (outBroken : out.err.isSome = true) noError
    rw [noError] at outBroken
    cases outBroken
  rcases upToDate.appendFormat appended fits with ⟨argv, sent, -, paired⟩ | ⟨broken, -⟩
  · rcases paired_appendWait prints waits paired waiting with both | broken
    · refine (awaitReplies_under readable both).mono ?_
      intro out after kept noError
      exact ⟨argv, sent, kept noError⟩
    · exact ends broken
  · exact ends (appendWait_broken broken waiting)

/-- A read gets the answer to its command. -/
theorem read_under {argv : List Text} {operation : Operation}
    (sent : argumentsSent vsnprintf slaves operation = some [argv])
    (paired : Paired answer (history ++ [commandReply argv]) history.length c wire) :
    (serverContract answer).Under (redisGetReply fuel c >>= fun (c, reply) =>
      match reply with
      | none => pure (c, [])
      | some reply => do
          let result ← orExit (resultOf operation reply)
          pure (c, result)) (Performed vsnprintf slaves answer history operation) wire := by
  refine Contract.under_bind ((redisGetReply_under fuel readable paired).mono ?_)
  rintro ⟨c, reply⟩ wire answered
  cases reply with
  | none => exact performed_of_broken answered
  | some made =>
      obtain ⟨own, kept⟩ := answered
      rw [answersTo_getElem] at own
      refine under_orExit fun result found noError => ⟨[argv], sent, ?_, ?_⟩
      · rw [← found, ← Option.some.inj own]
        rfl
      · have count : (history ++ [argv].map commandReply).length = history.length + 1 := by
          simp
        rw [UpToDate, count]
        exact kept

/-- A call whose command is a text gets nothing but its turn. -/
theorem format_under (prints : PrintsInts vsnprintf)
    (waits : ∀ argv ∈ waitArguments slaves, Fits argv)
    (upToDate : UpToDate answer history c wire) {operation : Operation} {cmd : Text}
    (sent : argumentsSent vsnprintf slaves operation =
      (sentFormat vsnprintf cmd []).map (· :: waitArguments slaves))
    (silent : ∀ made, resultOf operation made = some [])
    (fits : ∀ argvs, argumentsSent vsnprintf slaves operation = some argvs →
      ∀ argv ∈ argvs, Fits argv) :
    (serverContract answer).Under (command vsnprintf fuel slaves c cmd >>= fun c => pure (c, []))
      (Performed vsnprintf slaves answer history operation) wire := by
  have fitsFormat : ∀ argv, sentFormat vsnprintf cmd [] = some argv → Fits argv := by
    intro argv formatted
    refine fits (argv :: waitArguments slaves) ?_ argv List.mem_cons_self
    rw [sent, formatted]
    rfl
  refine Contract.under_bind ((command_under readable prints waits upToDate cmd fitsFormat).mono ?_)
  intro out after kept noError
  obtain ⟨argv, formatted, upToDate⟩ := kept noError
  exact ⟨argv :: waitArguments slaves, by rw [sent, formatted]; rfl, silent _, upToDate⟩

theorem perform_under (prints : PrintsInts vsnprintf)
    (waits : ∀ argv ∈ waitArguments slaves, Fits argv)
    (upToDate : UpToDate answer history c wire) (operation : Operation)
    (fits : ∀ argvs, argumentsSent vsnprintf slaves operation = some argvs →
      ∀ argv ∈ argvs, Fits argv) :
    (serverContract answer).Under (perform vsnprintf fuel slaves c operation)
      (Performed vsnprintf slaves answer history operation) wire := by
  cases operation with
  | read key fields =>
      cases fields with
      | some fields =>
          refine under_orExit fun appended found => ?_
          have fitsRead : Fits ("HMGET".toList :: key :: fields) := fits _ rfl _ List.mem_cons_self
          have paired := paired_appendArguments upToDate fitsRead
          have sent : argumentsSent vsnprintf slaves (.read key (some fields)) =
              some ["HMGET".toList :: key :: fields] := rfl
          rw [redisAppendCommandArgv, redisFormatSdsCommandArgv_eq fitsRead.callable,
            argumentsOf_lengths, Option.bind_some] at found
          rw [append_eq_some found]
          exact read_under readable sent paired
      | none =>
          refine under_orExit fun appended found => ?_
          have fitsRead := fits _ rfl _ List.mem_cons_self
          rcases upToDate.appendFormat found (fun argv sent => by
            obtain rfl := Option.some.inj ((sentFormat_hgetall key).symm.trans sent)
            exact fitsRead) with ⟨argv, sent, ok, paired⟩ | ⟨broken, failed⟩
          · obtain rfl := Option.some.inj ((sentFormat_hgetall key).symm.trans sent)
            have sent : argumentsSent vsnprintf slaves (.read key none) =
                some [["HGETALL".toList, cString key]] := rfl
            obtain ⟨c, done⟩ := appended
            subst ok
            exact read_under readable sent paired
          · obtain ⟨c, done⟩ := appended
            subst failed
            exact performed_of_broken broken
  | scan key len fields => exact trivial
  | update key values =>
      refine under_orExit fun cmd built => ?_
      refine format_under readable prints waits upToDate ?_ (fun _ => rfl) fits
      rw [argumentsSent, built, Option.bind_some]
  | insert key values =>
      refine under_orExit fun cmd built => ?_
      refine format_under readable prints waits upToDate ?_ (fun _ => rfl) fits
      rw [argumentsSent, built, Option.bind_some]
  | delete key => exact format_under readable prints waits upToDate rfl (fun _ => rfl) fits

theorem session_under (prints : PrintsInts vsnprintf)
    (waits : ∀ argv ∈ waitArguments slaves, Fits argv) (operations : List Operation)
    (fits : ∀ operation ∈ operations, ∀ argvs, argumentsSent vsnprintf slaves operation =
      some argvs → ∀ argv ∈ argvs, Fits argv)
    (upToDate : UpToDate answer history c wire) :
    (serverContract answer).Under (session vsnprintf fuel slaves c operations) (fun out _ =>
      out.1.err = none →
        expected vsnprintf slaves answer history operations = some out.2) wire := by
  induction operations generalizing history c wire with
  | nil => exact fun _ => rfl
  | cons operation rest ih =>
      have own := @perform_under _ fuel _ _ _ _ _ readable prints waits upToDate operation
        (fits operation List.mem_cons_self)
      refine Contract.under_bind (own.mono ?_)
      rintro ⟨c, result⟩ wire performed
      cases error : c.err with
      | some err =>
          have broken : c.err.isSome = true := by
            rw [error]
            rfl
          refine Contract.under_bind ((session_broken broken rest).mono ?_)
          intro out after (stillBroken : out.1.err.isSome = true) (noError : out.1.err = none)
          rw [noError] at stillBroken
          cases stillBroken
      | none =>
          obtain ⟨argvs, sent, found, kept⟩ := performed error
          refine Contract.under_bind ((ih (fun later member => fits later
            (List.mem_cons_of_mem _ member)) kept).mono ?_)
          intro out after later noError
          simp only [expected, sent, found, later noError, Option.bind_eq_bind, Option.bind_some]
          rfl

end Commands

/-- What a session returns, in terms of its commands. -/
theorem session_expected {vsnprintf : Text → VaArg → Text} (prints : PrintsInts vsnprintf)
    {answer : List Reply → Reply} (readable : ∀ commands, Readable [answer commands])
    {slaves : Int} (waits : ∀ argv ∈ waitArguments slaves, Fits argv)
    {operations : List Operation}
    (fits : ∀ argv ∈ commandsOf vsnprintf slaves operations, Fits argv)
    {fuel : Nat} {trace : List (Event socketInterface)} {c : Context}
    {results : List (List KVPair)}
    (run : (session vsnprintf fuel slaves Context.init operations).Runs trace (some (c, results)))
    (honest : (serverContract answer).Respects (serverContract answer).start trace)
    (noError : c.err = none) :
    expected vsnprintf slaves answer [] operations = some results := by
  have fitsEach : ∀ operation ∈ operations, ∀ argvs,
      argumentsSent vsnprintf slaves operation = some argvs → ∀ argv ∈ argvs, Fits argv := by
    intro operation member argvs sent argv own
    refine fits argv (List.mem_flatMap.mpr ⟨operation, member, ?_⟩)
    rw [sent]
    exact own
  exact (session_under readable prints waits operations fitsEach paired_init).runs run honest noError

end LtramBench.Ycsb
