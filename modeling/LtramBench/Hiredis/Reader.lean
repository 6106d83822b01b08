import LtramBench.Hiredis.Reply

/-!
# The reply reader

`read.c`: a buffer with a cursor and a stack of the arrays that are not complete
yet.  The top of the stack is the item that is read next; it keeps its type when
the rest of the item has not arrived.

The source stores an object in its parent when it creates it and fills an array
afterwards.  Here an array is built from the items it got, and stored when its
last item is there.

Positions and lengths are natural numbers.  In the source the length of an `sds`
string and the locals of `seekNewline` are `int`s, so what is said of the reader is
about buffers below 2 GiB.
-/

namespace LtramBench.Hiredis

open LtramBench.Shell LtramBench.Streaming

/-- An entry of `rstack`; the parent of an entry is the one below it.  No type
stands for -1. -/
structure ReadTask where
  type : Option ItemType
  elements : Int
  idx : Int
  obj : List Reply

/-- `redisReader`; the length of the buffer is `len` and the top of the stack is
its first entry. -/
structure Reader where
  err : Option Failure
  buf : Text
  pos : Nat
  rstack : List ReadTask
  reply : Option Reply

namespace Reader

/-- `redisReaderCreate`. -/
def create : Reader :=
  { err := none, buf := [], pos := 0, rstack := [], reply := none }

/-- `__redisReaderSetError`. -/
def setError (failure : Failure) : Reader :=
  { err := some failure, buf := [], pos := 0, rstack := [], reply := none }

/-- What `buf + pos` points to. -/
def unread (r : Reader) : Text :=
  r.buf.drop r.pos

/-- A task for an item of any type. -/
def task (idx : Int) : ReadTask :=
  { type := none, elements := -1, idx, obj := [] }

/-- `readLine`. -/
def readLine (r : Reader) : Option (Text × Reader) :=
  (seekNewline r.unread).map fun len =>
    (r.unread.take len, { r with pos := r.pos + (len + 2) })

/-- Store a finished object at `idx` of its parent; then `moveToNextTask`.  What
is at the bottom of the stack is the reply. -/
def moveToNextTask : Reply → List ReadTask → List ReadTask × Option Reply
  | obj, cur :: prv :: below =>
      let items := prv.obj ++ [obj]
      if cur.idx = prv.elements - 1 then
        moveToNextTask (.array prv.elements.toNat items) (prv :: below)
      else (task (cur.idx + 1) :: { prv with obj := items } :: below, none)
  | obj, _ => ([], some obj)

/-- Whether a task with these parents can store an object: an array of no items
has no place for one. -/
def hasRoom : List ReadTask → Bool
  | prv :: _ => decide (0 < prv.elements)
  | [] => true

/-- Create an object that is complete, and go on with the next task. -/
def finish (r : Reader) (obj : Reply) : Reader × Bool :=
  if hasRoom r.rstack.tail then
    ({ r with rstack := (moveToNextTask obj r.rstack).1,
              reply := (moveToNextTask obj r.rstack).2 }, true)
  else (setError .undefined, false)

/-- `processLineItem`. -/
def processLineItem (r : Reader) (type : ItemType) : Reader × Bool :=
  match r.readLine with
  | none => (r, false)
  | some (text, after) =>
      match type with
      | .integer =>
          match readLongLong text with
          | none => (setError .undefined, false)
          | some value => after.finish (.integer value)
      | .error => after.finish (.error text)
      | _ => after.finish (.status text)

/-- `processBulkItem`; nothing is consumed before the whole string is there. -/
def processBulkItem (r : Reader) : Reader × Bool :=
  match seekNewline r.unread with
  | none => (r, false)
  | some newline =>
      match readLongLong (r.unread.take newline) with
      | none => (setError .undefined, false)
      | some len =>
          if len < 0 then
            finish { r with pos := r.pos + (newline + 2) } .nil
          else if len + 2 < 2 ^ 63 then
            let bytelen := newline + 2 + (len.toNat + 2)
            if r.pos + bytelen ≤ r.buf.length then
              finish { r with pos := r.pos + bytelen }
                (.string ((r.unread.drop (newline + 2)).take len.toNat))
            else (r, false)
          else (setError .undefined, false)

/-- `processMultiBulkItem` for the task on top of the others. -/
def processMultiBulkItem (r : Reader) (cur : ReadTask) (below : List ReadTask) :
    Reader × Bool :=
  if below.length = 8 then (setError tooDeep, false)
  else
    match r.readLine with
    | none => (r, false)
    | some (text, after) =>
        match readLongLong text with
        | none => (setError .undefined, false)
        | some elements =>
            if elements = -1 then after.finish .nil
            else if 0 < elements then
              if hasRoom below then
                ({ after with
                    rstack := task 0 :: { cur with elements := toInt elements, obj := [] } :: below },
                  true)
              else (setError .undefined, false)
            else after.finish (.array (toSize (toInt elements)) [])

/-- The typed part of `processItem`. -/
def processTyped (r : Reader) (cur : ReadTask) (below : List ReadTask) (type : ItemType) :
    Reader × Bool :=
  match type with
  | .error | .status | .integer => r.processLineItem type
  | .string => r.processBulkItem
  | .array => r.processMultiBulkItem cur below

/-- `processItem`, and whether it returns `REDIS_OK`. -/
def processItem (r : Reader) : Reader × Bool :=
  match r.rstack with
  | [] => (r, false)
  | cur :: below =>
      match cur.type with
      | some type => r.processTyped cur below type
      | none =>
          match r.unread with
          | [] => (r, false)
          | byte :: _ =>
              match itemType byte with
              | none => (setError (protocolByte byte), false)
              | some type =>
                  let cur := { cur with type := some type }
                  processTyped { r with pos := r.pos + 1, rstack := cur :: below } cur below type

/-- The loop over `processItem`. -/
def processItems : Nat → Reader → Reader
  | 0, r => r
  | fuel + 1, r =>
      if r.rstack = [] then r
      else if r.processItem.2 then processItems fuel r.processItem.1
      else r.processItem.1

/-- Drop what was read when it is 1024 bytes or more. -/
def discard (r : Reader) : Reader :=
  if 1024 ≤ r.pos then { r with buf := r.unread, pos := 0 } else r

/-- `redisReaderFeed`, and whether it returns `REDIS_OK`. -/
def redisReaderFeed (r : Reader) (chunk : Text) : Reader × Bool :=
  if r.err.isSome then (r, false) else ({ r with buf := r.buf ++ chunk }, true)

/-- The first task of a reply. -/
def start (r : Reader) : Reader :=
  if r.rstack = [] then { r with rstack := [task (-1)] } else r

/-- The end of `redisReaderGetReply`. -/
def emit (r : Reader) : Reader × Except Failure (Option Reply) :=
  match r.err with
  | some failure => (r, .error failure)
  | none =>
      let r := r.discard
      if r.rstack = [] then ({ r with reply := none }, .ok r.reply) else (r, .ok none)

/-- `redisReaderGetReply`: a reply when there is one, or the error.  Every item
takes a byte or more, so the loop needs no more turns than there are bytes. -/
def redisReaderGetReply (r : Reader) : Reader × Except Failure (Option Reply) :=
  match r.err with
  | some failure => (r, .error failure)
  | none =>
      if r.buf = [] then (r, .ok none)
      else emit (processItems (r.start.unread.length + 1) r.start)

end Reader

end LtramBench.Hiredis
