import Baldur.Lib.Overwrite
import Baldur.Storage.BackendCore

/-!
Degraded writers beside the recovery (`_do_recovery`), the backend's reads and `incr`. A writer reads the mode
without the lock and takes effect later; what Redis shows is read cell by cell.
-/

namespace Baldur.Storage

open Baldur.Wal

/-- The places a key has: its string, the fields of its hash, the members of its sorted set. -/
inductive Cell
  | value
  | field (name : String)
  | member (name : String)
  deriving DecidableEq

inductive Stored
  | string (value : RedisString)
  | text (value : String)
  | score (value : Int)
  deriving DecidableEq

abbrev Content := Key × Cell → Option Stored

def Redis.cells (redis : Redis) : Content := fun place =>
  match redis place.1, place.2 with
  | some (.string value), .value => some (.string value)
  | some (.hash fields), .field name => (fields.find name).map fun item => .text item.2
  | some (.zset scores), .member name => (scores.find name).map fun item => .score item.2
  | _, _ => none

namespace WriteOp

/-- What an operation does to a cell of its key: SET replaces whatever the key held. -/
def onCell : WriteOp → Cell → Option (Option Stored)
  | set _ value, .value => some (some (.string (.scalar value)))
  | set _ _, _ => some none
  | setBlob _ blob, .value => some (some (.string (.blob blob)))
  | setBlob _ _, _ => some none
  | delete _, _ => some none
  | hset _ mapping, .field name => (mapping.find name).map fun item => some (.text item.2)
  | hset _ _, _ => none
  | hdel _ field, .field name => if name = field then some none else none
  | hdel _ _, _ => none
  | zadd _ mapping, .member name => (mapping.find name).map fun item => some (.score item.2)
  | zadd _ _, _ => none
  | zrem _ members, .member name => if name ∈ members then some none else none
  | zrem _ _, _ => none

def effect (op : WriteOp) : Overwrite.Write (Key × Cell) (Option Stored) :=
  fun place => if place.1 = op.key then op.onCell place.2 else none

end WriteOp

def statePriority (state : String) : Nat :=
  if state.toLower = "open" then 3
  else if state.toLower = "half_open" then 2
  else if state.toLower = "closed" then 1
  else 0

/-- `DriftReconciler.reconcile` without timestamps: the winning state. -/
def reconcile (l1 l2 : String) : String :=
  if l1.toLower = l2.toLower then l1
  else if (l1.toLower = "half_open") ≠ (l2.toLower = "half_open") then
    if l2.toLower = "half_open" then l2 else l1
  else if statePriority l2 < statePriority l1 then l1
  else if statePriority l1 < statePriority l2 then l2
  else l1

def isBreakerKey (key : Key) : Bool :=
  key.name.startsWith "cb:"

def Fields.stateOr (fields : Fields) : String :=
  match fields.find "state" with
  | none => "closed"
  | some item => item.2

/-- The fields the sync writes: a breaker's state is reconciled with a hash that is there. -/
def syncedFields (redis : Redis) (key : Key) (fields : Fields) : Fields :=
  match redis key with
  | some (.hash stored) =>
      if isBreakerKey key ∧ stored.entries ≠ [] then
        fields.put ("state", reconcile fields.stateOr stored.stateOr)
      else fields
  | _ => fields

/-- `_sync_memory_to_redis` on one item of its snapshot; a dictionary is read when its turn comes, and the
reconciled state goes into it. The recovering thread spells the key, and a command that fails is passed over. -/
def syncItem (synthetic : Bool) (memory : Memory) (redis : Redis) (item : Key × MemoryValue) : Memory × Redis :=
  let key := item.1.full synthetic
  match item.2 with
  | .zset _ => (memory, redis)
  | .scalar value => (memory, redis.assign key (some (.string (.scalar value))))
  | .hash reference =>
      let fields := syncedFields redis key (memory.hashes reference)
      (memory.setHash reference fields, (redis.hset key fields).getD redis)

structure Writer where
  call : WriteCall
  toRedis : Bool

inductive RecoveryStage
  | idle
  | entered
  | replaying (entries : List (WalEntry WriteOp))
  | replayed
  | syncing (items : List (Key × MemoryValue))
  | synced
  | cleaned

structure Window where
  backend : Backend
  redis : Redis
  writers : List Writer := []
  stage : RecoveryStage := .idle
  landed : List WriteOp := []

/-- What a step of the recovery finds: the memory left, where it is known, and its thread's test mode. -/
structure Turn where
  available : Option Nat := none
  synthetic : Bool := false

inductive WindowAction
  | check (call : WriteCall)
  | land (writer now : Nat)
  | recover (turn : Turn := {})

def WriteCall.run (redis : Redis) : WriteCall → Option Redis
  | single op => redis.execute op
  | batchWriteOps ops => ops.foldlM (fun before op => before.pipe op) redis

namespace Window

variable (medium : Medium) (cap : Nat) (alive : Nat → Bool) (turn : Turn) (window : Window)

def landDegraded (now : Nat) (call : WriteCall) : Window :=
  let out := window.backend.degradedWrite medium cap now call
  { window with
    backend := out.1
    landed := if out.2 then window.landed ++ call.ops else window.landed }

/-- The effect of a call whose mode check is behind it; a failing command degrades the backend. -/
def landCall (now : Nat) (writer : Writer) : Window :=
  if writer.call.supported = false then window
  else if writer.toRedis then
    match writer.call.run window.redis with
    | some redis => { window with redis := redis, landed := window.landed ++ writer.call.ops }
    | none => landDegraded medium cap { window with backend := { window.backend with mode := .degraded } } now
        writer.call
  else window.landDegraded medium cap now writer.call

def finalize : Window :=
  let delta := window.backend.wal.recoverUnprocessed medium.resync turn.available window.backend.lastProcessedWalSeq
    .runtime
  let out := delta.foldl Backend.replayEntry (window.redis, window.backend.lastProcessedWalSeq, 0)
  { window with
    redis := out.1
    stage := .idle
    backend := { window.backend with
      lastProcessedWalSeq := out.2.1
      mode := .redis
      memory := { window.backend.memory with values := Table.empty, blobs := [] } } }

def recover : Window :=
  match window.stage with
  | .idle =>
      if window.backend.mode = .degraded then
        { window with stage := .entered, backend := { window.backend with mode := .recovering } }
      else window
  | .entered =>
      { window with stage := .replaying (window.backend.wal.recoverUnprocessed medium.resync turn.available
          window.backend.lastProcessedWalSeq .runtime) }
  | .replaying [] => { window with stage := .replayed }
  | .replaying (entry :: rest) =>
      let out := Backend.replayEntry (window.redis, window.backend.lastProcessedWalSeq, 0) entry
      { window with
        stage := .replaying rest
        redis := out.1
        backend := { window.backend with lastProcessedWalSeq := out.2.1 } }
  | .replayed => { window with stage := .syncing window.backend.memory.values.entries }
  | .syncing [] => { window with stage := .synced }
  | .syncing (item :: rest) =>
      let out := syncItem turn.synthetic window.backend.memory window.redis item
      { window with
        stage := .syncing rest
        redis := out.2
        backend := { window.backend with memory := out.1 } }
  | .synced =>
      { window with
        stage := .cleaned
        backend := { window.backend with
          wal := window.backend.wal.cleanupProcessed alive window.backend.lastProcessedWalSeq .runtime } }
  | .cleaned => window.finalize medium turn

def step (window : Window) : WindowAction → Window
  | .check call => { window with
      writers := window.writers ++ [⟨call, window.backend.mode = .redis⟩] }
  | .land index now =>
      match window.writers[index]? with
      | none => window
      | some writer => landCall medium cap { window with writers := window.writers.eraseIdx index } now writer
  | .recover turn => window.recover medium alive turn

def run (window : Window) (actions : List WindowAction) : Window :=
  actions.foldl (step medium cap alive) window

end Window

/-- The conversions at the edges: the cache adapter's JSON, Redis' integers, Python's `int` of a text. -/
structure Codec where
  serialize : Scalar → List UInt8
  deserialize : List UInt8 → Option Scalar
  integer : List UInt8 → Option Int
  int : String → Option Int

inductive Request
  | get
  | hget (field : String)
  | hgetall
  | zrange (start stop : Int)
  | zrevrange (start stop : Int)
  | zrangebyscore (least most : Int) (offset : Int) (count : Option Int)
  | zcard
  | zcount (least most : Int)
  | getBlob

structure Query where
  key : Key
  request : Request

inductive Reply
  | nothing
  | scalar (value : Scalar)
  | text (value : String)
  | fields (mapping : Fields)
  | items (list : List (String × Int))
  | members (names : List String)
  | count (number : Nat)
  | bytes (blob : List UInt8)
  | raised
  deriving DecidableEq

def slice {α : Type} (items : List α) (start : Int) (stop : Option Int) : List α :=
  let bound (index : Int) : Nat :=
    if index < 0 then (index + items.length).toNat else min index.toNat items.length
  (items.take (stop.elim items.length bound)).drop (bound start)

def inWindow (least most : Int) (item : String × Int) : Bool :=
  least ≤ item.2 ∧ item.2 ≤ most

namespace Memory

variable (memory : Memory)

def blob (key : Key) : Option (List UInt8) :=
  (memory.blobs.find? fun item => item.1 = key).map Prod.snd

/-- What iterating over `_memory.get(key, [])` yields; characters and field names are no items. -/
def iterate (key : Key) : Option (List (Option (String × Int))) :=
  match memory.find key with
  | none => some []
  | some (.zset items) => some (items.map some)
  | some (.hash reference) => some ((memory.hashes reference).entries.map fun _ => none)
  | some (.scalar (.text text)) => some (text.toList.map fun _ => none)
  | some (.scalar (.number _)) => none

def sliceable (key : Key) : Option (List (Option (String × Int))) :=
  match memory.find key with
  | some (.hash _) => none
  | _ => memory.iterate key

def membersOf (found : Option (List (Option (String × Int)))) : Reply :=
  match found.bind (List.mapM id) with
  | none => .raised
  | some items => .members (items.map Prod.fst)

def stopIndex (stop : Int) : Option Int :=
  if 0 ≤ stop then some (stop + 1) else none

def selected (key : Key) (least most : Int) : Option (List (String × Int)) :=
  ((memory.iterate key).bind (List.mapM id)).map (List.filter (inWindow least most))

def answer (query : Query) : Reply :=
  let key := query.key.short
  match query.request with
  | .get =>
      match memory.find key with
      | none => .nothing
      | some (.scalar value) => .scalar value
      | some (.hash reference) => .fields (memory.hashes reference)
      | some (.zset items) => .items items
  | .hget field =>
      match memory.find key with
      | none => .nothing
      | some (.hash reference) =>
          match (memory.hashes reference).find field with
          | none => .nothing
          | some item => .text item.2
      | some _ => .raised
  | .hgetall =>
      match memory.find key with
      | none => .fields Table.empty
      | some (.scalar value) => .scalar value
      | some (.hash reference) => .fields (memory.hashes reference)
      | some (.zset items) => .items items
  | .zrange start stop =>
      membersOf ((memory.sliceable key).map fun items => slice items start (stopIndex stop))
  | .zrevrange start stop =>
      membersOf ((memory.iterate key).map fun items => slice items.reverse start (stopIndex stop))
  | .zrangebyscore least most offset count =>
      match memory.selected key least most with
      | none => .raised
      | some items => .members (slice (items.map Prod.fst) offset (count.map (offset + ·)))
  | .zcard =>
      match memory.iterate key with
      | none => .raised
      | some items => .count items.length
  | .zcount least most =>
      match memory.selected key least most with
      | none => .raised
      | some items => .count items.length
  | .getBlob =>
      match memory.blob key with
      | none => .nothing
      | some blob => .bytes blob

def incremented (codec : Codec) (key : Key) : Option Int :=
  match memory.find key with
  | none => some 1
  | some (.scalar (.number value)) => some (value + 1)
  | some (.scalar (.text text)) => (codec.int text).map (· + 1)
  | some _ => none

end Memory

namespace Redis

variable (redis : Redis)

def ranked (scores : Scores) : List (String × Int) :=
  scores.entries.insertionSort fun first second =>
    first.2 < second.2 ∨ first.2 = second.2 ∧ first.1 ≤ second.1

/-- The members a command on a sorted set sees; another type is an error. -/
def sortedSet (key : Key) : Option (List (String × Int)) :=
  match redis key with
  | none => some []
  | some (.zset scores) => some (ranked scores)
  | some _ => none

def range {α : Type} (items : List α) (start stop : Int) : List α :=
  let first := max (if start < 0 then start + items.length else start) 0
  let last := if stop < 0 then stop + items.length else stop
  if last < first ∨ items.length ≤ first then []
  else (items.drop first.toNat).take (min last (items.length - 1) - first + 1).toNat

/-- The LIMIT of ZRANGEBYSCORE: a negative offset skips everything, a negative count takes everything. -/
def limit {α : Type} (items : List α) (offset count : Int) : List α :=
  if offset < 0 then []
  else if count < 0 then items.drop offset.toNat
  else (items.drop offset.toNat).take count.toNat

def membersOf (found : Option (List (String × Int))) : Reply :=
  match found with
  | none => .raised
  | some items => .members (items.map Prod.fst)

/-- What a read returns when Redis answers it; the cache adapter's `get` turns an error into `None`. -/
def answer (codec : Codec) (query : Query) : Reply :=
  let key := query.key
  match query.request with
  | .get =>
      match redis key with
      | some (.string (.scalar value)) => .scalar value
      | some (.string (.blob bytes)) => ((codec.deserialize bytes).map Reply.scalar).getD .nothing
      | _ => .nothing
  | .hget field =>
      match redis key with
      | none => .nothing
      | some (.hash fields) =>
          match fields.find field with
          | none => .nothing
          | some item => .text item.2
      | some _ => .raised
  | .hgetall =>
      match redis key with
      | none => .fields Table.empty
      | some (.hash fields) => .fields fields
      | some _ => .raised
  | .zrange start stop => membersOf ((redis.sortedSet key).map fun items => range items start stop)
  | .zrevrange start stop =>
      membersOf ((redis.sortedSet key).map fun items => range items.reverse start stop)
  | .zrangebyscore least most offset count =>
      membersOf ((redis.sortedSet key).map fun items =>
        limit (items.filter (inWindow least most)) offset (count.getD (-1)))
  | .zcard =>
      match redis.sortedSet key with
      | none => .raised
      | some items => .count items.length
  | .zcount least most =>
      match redis.sortedSet key with
      | none => .raised
      | some items => .count (items.filter (inWindow least most)).length
  | .getBlob =>
      match redis key with
      | none => .nothing
      | some (.string (.blob bytes)) => .bytes bytes
      | some (.string (.scalar value)) => .bytes (codec.serialize value)
      | some _ => .raised

def incr (codec : Codec) (key : Key) : Option Redis :=
  let next (value : Int) : Option Redis :=
    if -2 ^ 63 ≤ value ∧ value < 2 ^ 63 - 1 then
      some (redis.assign key (some (.string (.scalar (.number (value + 1))))))
    else none
  match redis key with
  | none => next 0
  | some (.string (.scalar (.number value))) => next value
  | some (.string (.blob bytes)) => (codec.integer bytes).bind next
  | some _ => none

end Redis

inductive StorageCall
  | write (call : WriteCall)
  | incr (key : Key)

/-- The degraded branch of a call; the log record of an increment is a `set`. -/
def Backend.degradedCall (codec : Codec) (medium : Medium) (cap : Nat) (backend : Backend) (now : Nat) :
    StorageCall → Backend
  | .write call => (backend.degradedWrite medium cap now call).1
  | .incr key =>
      match backend.memory.incremented codec key.short with
      | none => backend
      | some value => (backend.degradedWrite medium cap now (.single (.set key (.number value)))).1

def Redis.serve (codec : Codec) (redis : Redis) : StorageCall → Redis
  | .write call => if call.supported then (call.run redis).getD redis else redis
  | .incr key => (redis.incr codec key).getD redis

def Backend.degradedCalls (codec : Codec) (medium : Medium) (cap : Nat) (backend : Backend)
    (calls : List (Nat × StorageCall)) : Backend :=
  calls.foldl (fun before call => before.degradedCall codec medium cap call.1 call.2) backend

def Redis.serveAll (codec : Codec) (redis : Redis) (calls : List (Nat × StorageCall)) : Redis :=
  calls.foldl (fun before call => before.serve codec call.2) redis

end Baldur.Storage
