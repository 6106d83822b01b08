import LtramBench.Hiredis.Format
import LtramBench.Interaction.Contract

/-!
# Blocking connections

A context holds the commands that are not written yet and a reader for what comes
back.  `redisGetReply` writes, reads and asks the reader until there is a reply.

The loops of the source have no bound.  Here they have one, and a run that reaches
it is cut off like a run that crashes.
-/

namespace LtramBench.Hiredis

open LtramBench.Interaction LtramBench.Shell LtramBench.Streaming

/-! ## The socket -/

/-- The calls on the socket. -/
inductive SocketCall where
  | write (bytes : Text)
  | read

/-- What `write` returns. -/
inductive Written where
  | wrote (count : Nat)
  | interrupted
  | failed

/-- What `read` returns. -/
inductive Received where
  | got (bytes : Text)
  | closed
  | interrupted
  | failed

abbrev SocketCall.Answer : SocketCall → Type
  | write _ => Written
  | read => Received

abbrev socketInterface : Interface := ⟨SocketCall, SocketCall.Answer⟩

/-- Programs that use the connection. -/
abbrev Client := Program socketInterface

def socketWrite (bytes : Text) : Client Written :=
  .perform (I := socketInterface) (.write bytes)

def socketRead : Client Received :=
  .perform (I := socketInterface) .read

/-! ## The context -/

/-- The error of a context. -/
inductive ContextError where
  | io
  | eof
  | oom (message : Text)
  | other (message : Text)
  | protocol (failure : Failure)

/-- `redisContext`. -/
structure Context where
  err : Option ContextError
  obuf : Text
  reader : Reader

/-- `redisContextInit`, connected. -/
def Context.init : Context :=
  { err := none, obuf := [], reader := Reader.create }

/-- `__redisAppendCommand`. -/
def Context.append (c : Context) (cmd : Text) : Option Context :=
  (sdscatlen c.obuf cmd).map fun obuf => { c with obuf }

/-- `redisvAppendCommand`, and whether it returns `REDIS_OK`; nothing when the format
is undefined. -/
def redisvAppendCommand (vsnprintf : Text → VaArg → Text) (c : Context) (format : Text)
    (args : List VaArg) : Option (Context × Bool) :=
  match redisvFormatCommand vsnprintf format args with
  | .ok cmd => (c.append cmd.1).map (·, true)
  | .memoryError => some ({ c with err := some (.oom "Out of memory".toList) }, false)
  | .formatError => some ({ c with err := some (.other "Invalid format string".toList) }, false)
  | .undefined => none

/-- `redisAppendCommandArgv`. -/
def redisAppendCommandArgv (c : Context) (argv : List Text) (argvlen : Option (List Nat)) :
    Option Context :=
  (redisFormatSdsCommandArgv argv argvlen).bind fun cmd => c.append cmd.1

/-- `redisBufferWrite`, and whether it returns `REDIS_OK`. -/
def redisBufferWrite (c : Context) : Client (Context × Bool) :=
  if c.err.isSome then pure (c, false)
  else if c.obuf = [] then pure (c, true)
  else do
    match ← socketWrite c.obuf with
    | .wrote count => pure ({ c with obuf := c.obuf.drop count }, true)
    | .interrupted => pure (c, true)
    | .failed => pure ({ c with err := some .io }, false)

/-- `redisBufferRead`, and whether it returns `REDIS_OK`. -/
def redisBufferRead (c : Context) : Client (Context × Bool) :=
  if c.err.isSome then pure (c, false)
  else do
    match ← socketRead with
    | .got bytes =>
        let (reader, fed) := c.reader.redisReaderFeed bytes
        if fed then pure ({ c with reader }, true)
        else pure ({ c with reader, err := reader.err.map .protocol }, false)
    | .closed => pure ({ c with err := some .eof }, false)
    | .interrupted => pure (c, true)
    | .failed => pure ({ c with err := some .io }, false)

/-- `redisGetReplyFromReader`: no result where it returns `REDIS_ERR`. -/
def redisGetReplyFromReader (c : Context) : Context × Option (Option Reply) :=
  match c.reader.redisReaderGetReply with
  | (reader, .error failure) => ({ c with reader, err := some (.protocol failure) }, none)
  | (reader, .ok aux) => ({ c with reader }, some aux)

/-- Write until done. -/
def writeAll : Nat → Context → Client (Context × Bool)
  | 0, _ => .crash
  | fuel + 1, c => do
      let (c, ok) ← redisBufferWrite c
      if ok then
        if c.obuf = [] then pure (c, true) else writeAll fuel c
      else pure (c, false)

/-- Read until there is a reply. -/
def readReply : Nat → Context → Client (Context × Option Reply)
  | 0, _ => .crash
  | fuel + 1, c => do
      let (c, ok) ← redisBufferRead c
      if ok then
        match redisGetReplyFromReader c with
        | (c, none) => pure (c, none)
        | (c, some (some aux)) => pure (c, some aux)
        | (c, some none) => readReply fuel c
      else pure (c, none)

/-- `redisGetReply` on a blocking context: no reply where it returns `REDIS_ERR`. -/
def redisGetReply (fuel : Nat) (c : Context) : Client (Context × Option Reply) :=
  match redisGetReplyFromReader c with
  | (c, none) => pure (c, none)
  | (c, some (some aux)) => pure (c, some aux)
  | (c, some none) => do
      let (c, ok) ← writeAll fuel c
      if ok then readReply fuel c else pure (c, none)

/-! ## Commands in the output buffer -/

theorem Context.append_eq {c : Context} {cmd : Text} (fits : SdsFits (c.obuf.length + cmd.length)) :
    c.append cmd = some { c with obuf := c.obuf ++ cmd } := by
  rw [append, sdscatlen_eq fits, Option.map_some]

theorem redisAppendCommandArgv_eq {c : Context} {argv : List Text} {argvlen : Option (List Nat)}
    (callable : Callable argv argvlen)
    (fits : SdsFits (c.obuf.length + (writeCommand (argumentsOf argv argvlen)).length)) :
    redisAppendCommandArgv c argv argvlen =
      some { c with obuf := c.obuf ++ writeCommand (argumentsOf argv argvlen) } := by
  rw [redisAppendCommandArgv, redisFormatSdsCommandArgv_eq callable, Option.bind_some,
    Context.append_eq fits]

/-- A command with the lengths of its arguments. -/
abbrev Call := List Text × Option (List Nat)

/-- The commands that are appended, as replies. -/
def repliesOf (calls : List Call) : List Reply :=
  calls.map fun call => commandReply (argumentsOf call.1 call.2)

/-- Appending commands one after the other. -/
theorem foldlM_redisAppendCommandArgv {calls : List Call}
    (callable : ∀ call ∈ calls, Callable call.1 call.2) {c : Context}
    (fits : SdsFits (c.obuf.length + (encodeAll (repliesOf calls)).length)) :
    calls.foldlM (fun c call => redisAppendCommandArgv c call.1 call.2) c =
      some { c with obuf := c.obuf ++ encodeAll (repliesOf calls) } := by
  induction calls generalizing c with
  | nil =>
      rw [repliesOf, List.map_nil, encodeAll, List.append_nil]
      rfl
  | cons call rest ih =>
      rw [List.forall_mem_cons] at callable
      have bytes : encodeAll (repliesOf (call :: rest)) =
          writeCommand (argumentsOf call.1 call.2) ++ encodeAll (repliesOf rest) := by
        rw [repliesOf, List.map_cons, encodeAll, writeCommand_eq_encode]
        rfl
      rw [bytes, List.length_append, ← Nat.add_assoc] at fits
      have own : SdsFits (c.obuf.length + (writeCommand (argumentsOf call.1 call.2)).length) := by
        unfold SdsFits at fits ⊢
        omega
      rw [List.foldlM_cons, redisAppendCommandArgv_eq callable.1 own, Option.bind_eq_bind,
        Option.bind_some, ih callable.2 (by rwa [List.length_append]), bytes]
      simp only [List.append_assoc]

/-- Every command is as long as both formatters say, and the output buffer of a
context to which commands were appended one after the other is taken apart into
exactly these commands and their arguments. -/
theorem commands_read_back {calls : List Call} (callable : ∀ call ∈ calls, Callable call.1 call.2)
    (fits : SdsFits (calls.map fun call => commandSize (lengthsOf call.1 call.2)).sum) :
    (∀ call ∈ calls, ∃ bytes : Text,
      redisFormatCommandArgv call.1 call.2 = .ok (bytes, bytes.length) ∧
        redisFormatSdsCommandArgv call.1 call.2 = some (bytes, (bytes.length : Int)) ∧
        bytes.length = commandSize (lengthsOf call.1 call.2)) ∧
      ∃ c, calls.foldlM (fun c call => redisAppendCommandArgv c call.1 call.2) Context.init =
          some c ∧
        decode (reply maxLevels) c.obuf = (repliesOf calls, .pending []) := by
  refine ⟨fun call member => ?_, ?_⟩
  · have own := callable call member
    exact ⟨_, redisFormatCommandArgv_eq own, redisFormatSdsCommandArgv_eq own, own.size⟩
  · have total : ∀ rest : List Call, (∀ call ∈ rest, Callable call.1 call.2) →
        (encodeAll (repliesOf rest)).length =
          (rest.map fun call => commandSize (lengthsOf call.1 call.2)).sum := by
      intro rest
      induction rest with
      | nil => exact fun _ => rfl
      | cons call rest ih =>
          intro each
          rw [List.forall_mem_cons] at each
          rw [repliesOf, List.map_cons, encodeAll, List.length_append, ← writeCommand_eq_encode,
            each.1.size, ← repliesOf, ih each.2, List.map_cons, List.sum_cons]
    have readable : Readable (repliesOf calls) := by
      intro made member
      obtain ⟨call, isCall, rfl⟩ := List.mem_map.mp member
      have own := callable call isCall
      exact readable_commandReply (by rw [own.size]; exact own.fits)
    have empty : Context.init.obuf = [] := rfl
    refine ⟨_, foldlM_redisAppendCommandArgv callable ?_, decode_whole readable⟩
    rw [empty, List.length_nil, Nat.zero_add, total calls callable]
    exact fits

theorem commands_read_back_get :
    (∃ bytes : Text, redisFormatCommandArgv ["GET".toList, "a b%".toList] none =
        .ok (bytes, bytes.length) ∧
      redisFormatSdsCommandArgv ["GET".toList, "a b%".toList] none =
        some (bytes, (bytes.length : Int)) ∧ bytes.length = 23) ∧
    ∃ c, redisAppendCommandArgv Context.init ["GET".toList, "a b%".toList] none = some c ∧
      decode (reply maxLevels) c.obuf =
        ([.array 2 [.string "GET".toList, .string "a b%".toList]], .pending []) := by
  have callable : ∀ call ∈ ([(["GET".toList, "a b%".toList], none)] : List Call),
      Callable call.1 call.2 :=
    List.forall_mem_singleton.mpr ⟨nofun, by decide⟩
  have size : commandSize (lengthsOf ["GET".toList, "a b%".toList] none) = 23 := by decide
  obtain ⟨framed, c, appended, decoded⟩ := commands_read_back callable (by decide)
  obtain ⟨bytes, one, other, length⟩ := framed _ List.mem_cons_self
  rw [List.foldlM_cons, Option.bind_eq_bind] at appended
  obtain ⟨after, first, last⟩ := Option.bind_eq_some_iff.mp appended
  cases last
  exact ⟨⟨bytes, one, other, length.trans size⟩, c, first, decoded⟩

end LtramBench.Hiredis
