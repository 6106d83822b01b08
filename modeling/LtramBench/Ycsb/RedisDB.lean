import LtramBench.Hiredis.Pairing
import LtramBench.Ycsb.Database

/-!
# The database on Redis

`redis_db.cc` and `redis_client.h`.  A read passes its arguments one by one, or
inserts the key into a format.  An update and a delete build a text, and that text
is the format of the command.

The process ends when an assertion fails, when `HandleError` exits, and, as far as
this model goes, when the behaviour is undefined.
-/

namespace LtramBench.Ycsb

open LtramBench.Hiredis LtramBench.Interaction LtramBench.Shell LtramBench.Streaming

/-! ## What is sent -/

/-- The length that `Update` reserves. -/
def updateLength (key : Text) (values : List KVPair) : Nat :=
  values.foldl (fun len p => len + (p.1.length + p.2.length + 2))
    ("HMSET".toList.length + key.length + 1)

/-- The text that `Update` appends. -/
def updateText (key : Text) (values : List KVPair) : Text :=
  values.foldl (fun cmd p => cmd ++ ' ' :: p.1 ++ ' ' :: p.2) ("HMSET".toList ++ ' ' :: key)

/-- The text of `Update`, if its assertions hold. -/
def updateCommand (key : Text) (values : List KVPair) : Option Text :=
  if values.all (fun p => ' ' ∉ p.1 ∧ ' ' ∉ p.2) ∧
      (updateText key values).length = updateLength key values then
    some (updateText key values)
  else none

/-- The text that `Delete` builds. -/
def deleteCommand (key : Text) : Text :=
  "DEL ".toList ++ key

/-! ## What comes back -/

/-- `str` of a reply. -/
def str : Reply → Option Text
  | .string text => some text
  | .status text => some text
  | .error text => some text
  | _ => none

/-- The values of some fields; a value that is missing is empty. -/
def readFields (fields : List Text) : Reply → Option (List KVPair)
  | .array elements items =>
      if fields.length = elements ∧ elements = items.length then
        some (fields.zip (items.map fun item => cString ((str item).getD [])))
      else none
  | _ => none

/-- Fields and values in turn. -/
def readPairs : List Reply → Option (List KVPair)
  | field :: value :: rest => do
      let field ← str field
      let value ← str value
      let others ← readPairs rest
      pure ((cString field, cString value) :: others)
  | _ => some []

/-- All fields and their values. -/
def readAll : Reply → Option (List KVPair)
  | .array elements items => if elements = items.length then readPairs items else none
  | _ => none

/-- Go on with a value, or end the process. -/
def orExit {α : Type} : Option α → Client α
  | some value => pure value
  | none => .crash

section Database

/- `vsnprintf` of the C library, a bound on the rounds of every loop, and the number
of slaves that `WAIT` waits for. -/
variable (vsnprintf : Text → VaArg → Text) (fuel : Nat) (slaves : Int)

/-- The `WAIT` of a client with slaves. -/
def appendWait (c : Context) : Option (Context × Bool) :=
  if slaves = 0 then some (c, true)
  else redisvAppendCommand vsnprintf c "WAIT %d %d".toList [.int slaves, .int 0]

/-- The replies of a command and its `WAIT`. -/
def awaitReplies (c : Context) : Client Context := do
  let (c, reply) ← redisGetReply fuel c
  let _ ← orExit reply
  if slaves = 0 then pure c
  else do
    let (c, reply) ← redisGetReply fuel c
    let _ ← orExit reply
    pure c

/-- `RedisClient::Command`; it does not look at what appending returns. -/
def command (c : Context) (cmd : Text) : Client Context := do
  let (c, _) ← orExit (redisvAppendCommand vsnprintf c cmd [])
  let (c, _) ← orExit (appendWait vsnprintf slaves c)
  awaitReplies fuel slaves c

/-- `Read` with fields: no reply, no values. -/
def readWith (c : Context) (key : Text) (fields : List Text) :
    Client (Context × List KVPair) := do
  let argv := "HMGET".toList :: key :: fields
  let c ← orExit (redisAppendCommandArgv c argv (some (argv.map List.length)))
  let (c, reply) ← redisGetReply fuel c
  match reply with
  | none => pure (c, [])
  | some reply => do
      let result ← orExit (readFields fields reply)
      pure (c, result)

/-- `Read` without fields: no reply, no values. -/
def readWhole (c : Context) (key : Text) : Client (Context × List KVPair) := do
  let (c, ok) ← orExit (redisvAppendCommand vsnprintf c "HGETALL %s".toList [.pointer key])
  if ok then
    let (c, reply) ← redisGetReply fuel c
    match reply with
    | none => pure (c, [])
    | some reply => do
        let result ← orExit (readAll reply)
        pure (c, result)
  else pure (c, [])

/-- One call of the database; `Scan` throws what nobody catches. -/
def perform (c : Context) : Operation → Client (Context × List KVPair)
  | .read key (some fields) => readWith fuel c key fields
  | .read key none => readWhole vsnprintf fuel c key
  | .scan _ _ _ => .crash
  | .update key values | .insert key values => do
      let cmd ← orExit (updateCommand key values)
      let c ← command vsnprintf fuel slaves c cmd
      pure (c, [])
  | .delete key => do
      let c ← command vsnprintf fuel slaves c (deleteCommand key)
      pure (c, [])

/-- One call after the other. -/
def session (c : Context) : List Operation → Client (Context × List (List KVPair))
  | [] => pure (c, [])
  | operation :: rest => do
      let (c, result) ← perform vsnprintf fuel slaves c operation
      let (c, results) ← session c rest
      pure (c, result :: results)

end Database

end LtramBench.Ycsb
