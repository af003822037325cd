import Baldur.Wal.WalCore
import Mathlib.Algebra.Ring.Int.Defs

/-!
The resilient storage backend (`adapters/resilient/backend.py`): log records, Redis commands, the memory of
degraded mode and the startup recovery. A logged blob stands for its base64 form.
-/

namespace Baldur.Storage

open Baldur.Wal

inductive StorageMode
  | redis
  | degraded
  | recovering
  deriving DecidableEq

/-- A value of `set`: a number, or anything else as its text. -/
inductive Scalar
  | text (value : String)
  | number (value : Int)
  deriving DecidableEq

abbrev Fields := Table String (String × String) Prod.fst

abbrev Scores := Table String (String × Int) Prod.fst

/-- A key as `_get_full_key` spells it: `synthetic` is the prefix `xtest:` of a thread in test mode. -/
structure Key where
  name : String
  synthetic : Bool := false
  deriving DecidableEq

instance : Coe String Key :=
  ⟨fun name => { name }⟩

namespace Key

def full (synthetic : Bool) (key : Key) : Key :=
  { key with synthetic := synthetic || key.synthetic }

theorem full_false (key : Key) : key.full false = key :=
  rfl

def short (key : Key) : Key :=
  { key with synthetic := false }

theorem short_eq {key : Key} (real : key.synthetic = false) : key.short = key := by
  rw [short, ← real]

end Key

inductive WriteOp
  | set (key : Key) (value : Scalar)
  | hset (key : Key) (mapping : Fields)
  | hdel (key : Key) (field : String)
  | delete (key : Key)
  | zadd (key : Key) (mapping : Scores)
  | zrem (key : Key) (members : List String)
  | setBlob (key : Key) (blob : List UInt8)
  deriving DecidableEq

namespace WriteOp

def key : WriteOp → Key
  | set key _ => key
  | hset key _ => key
  | hdel key _ => key
  | delete key => key
  | zadd key _ => key
  | zrem key _ => key
  | setBlob key _ => key

/-- The operation as the memory has it, under the key without a prefix. -/
def short : WriteOp → WriteOp
  | set key value => set key.short value
  | hset key mapping => hset key.short mapping
  | hdel key field => hdel key.short field
  | delete key => delete key.short
  | zadd key mapping => zadd key.short mapping
  | zrem key members => zrem key.short members
  | setBlob key blob => setBlob key.short blob

theorem short_eq {op : WriteOp} (real : op.key.synthetic = false) : op.short = op := by
  cases op <;> simp_all [short, key, Key.short_eq]

theorem map_short {ops : List WriteOp} (real : ∀ op ∈ ops, op.key.synthetic = false) : ops.map short = ops := by
  have same := List.map_congr_left fun op member => short_eq (real op member)
  rw [same, List.map_id']

end WriteOp

inductive RedisString
  | scalar (value : Scalar)
  | blob (bytes : List UInt8)
  deriving DecidableEq

inductive RedisValue
  | string (value : RedisString)
  | hash (fields : Fields)
  | zset (scores : Scores)
  deriving DecidableEq

abbrev Redis := Key → Option RedisValue

namespace Redis

variable (redis : Redis)

def assign (key : Key) (value : Option RedisValue) : Redis :=
  fun other => if other = key then value else redis other

def hashOf (fields : Fields) : Option RedisValue :=
  if fields.entries = [] then none else some (.hash fields)

def zsetOf (scores : Scores) : Option RedisValue :=
  if scores.entries = [] then none else some (.zset scores)

def hset (key : Key) (mapping : Fields) : Option Redis :=
  if mapping.entries = [] then none
  else match redis key with
    | none => some (redis.assign key (some (.hash mapping)))
    | some (.hash fields) => some (redis.assign key (some (.hash (fields.update mapping))))
    | some _ => none

def hdel (key : Key) (field : String) : Option Redis :=
  match redis key with
  | none => some redis
  | some (.hash fields) => some (redis.assign key (hashOf (fields.erase field)))
  | some _ => none

def zadd (key : Key) (mapping : Scores) : Option Redis :=
  if mapping.entries = [] then none
  else match redis key with
    | none => some (redis.assign key (some (.zset mapping)))
    | some (.zset scores) => some (redis.assign key (some (.zset (scores.update mapping))))
    | some _ => none

def zrem (key : Key) (members : List String) : Option Redis :=
  if members = [] then none
  else match redis key with
    | none => some redis
    | some (.zset scores) => some (redis.assign key (zsetOf (members.foldl Table.erase scores)))
    | some _ => none

/-- The command of an operation; `none` is an error of the client or the server (no fields, no members, a key
of another type). -/
def execute : WriteOp → Option Redis
  | .set key value => some (redis.assign key (some (.string (.scalar value))))
  | .setBlob key blob => some (redis.assign key (some (.string (.blob blob))))
  | .delete key => some (redis.assign key none)
  | .hset key mapping => redis.hset key mapping
  | .hdel key field => redis.hdel key field
  | .zadd key mapping => redis.zadd key mapping
  | .zrem key members => redis.zrem key members

/-- The command of an operation in a batch: `_pipe_zrem` leaves out an empty list of members. -/
def pipe : WriteOp → Option Redis
  | .zrem key members => if members = [] then some redis else redis.zrem key members
  | op => redis.execute op

/-- `_replay_wal_entry`: an empty field name and an empty list of members are passed over. -/
def replay : WriteOp → Option Redis
  | .hdel key field => if field = "" then some redis else redis.hdel key field
  | op => redis.pipe op

end Redis

/-- A value of `_memory`; a dictionary is an object, named by a reference. -/
inductive MemoryValue
  | scalar (value : Scalar)
  | hash (reference : Nat)
  | zset (items : List (String × Int))
  deriving DecidableEq

structure Memory where
  values : Table Key (Key × MemoryValue) Prod.fst := Table.empty
  hashes : Nat → Fields := fun _ => Table.empty
  nextReference : Nat := 0
  blobs : List (Key × List UInt8) := []

namespace Memory

variable (memory : Memory)

def find (key : Key) : Option MemoryValue :=
  (memory.values.find key).map Prod.snd

def assign (key : Key) (value : MemoryValue) : Memory :=
  { memory with values := memory.values.put (key, value) }

def setHash (reference : Nat) (fields : Fields) : Memory :=
  { memory with hashes := fun other => if other = reference then fields else memory.hashes other }

def evict (cap : Nat) : List (Key × List UInt8) → List (Key × List UInt8)
  | [] => []
  | oldest :: rest =>
      if cap < ((oldest :: rest).map fun item => item.2.length).sum then evict cap rest else oldest :: rest

def applySetBlob (cap : Nat) (key : Key) (blob : List UInt8) : Memory :=
  { memory with blobs := evict cap (memory.blobs.filter (fun item => item.1 ≠ key) ++ [(key, blob)]) }

def sortByScore (items : List (String × Int)) : List (String × Int) :=
  items.insertionSort fun first second => first.2 ≤ second.2

/-- `_mem_apply_zadd`: members are appended, those present included. Anything but a list raises. -/
def applyZadd (key : Key) (mapping : Scores) : Option Memory :=
  match memory.find key with
  | none => some (memory.assign key (.zset (sortByScore mapping.entries)))
  | some (.zset items) => some (memory.assign key (.zset (sortByScore (items ++ mapping.entries))))
  | some _ => none

/-- `_mem_apply_zrem`; an empty text or dictionary has no item to raise on and becomes a list. -/
def applyZrem (key : Key) (members : List String) : Option Memory :=
  if members = [] then some memory
  else match memory.find key with
    | none => some memory
    | some (.zset items) => some (memory.assign key (.zset (items.filter fun item => item.1 ∉ members)))
    | some (.scalar (.text text)) => if text = "" then some (memory.assign key (.zset [])) else none
    | some (.scalar (.number _)) => none
    | some (.hash reference) =>
        if (memory.hashes reference).entries = [] then some (memory.assign key (.zset [])) else none

def applyDelete (key : Key) : Memory :=
  { memory with
    values := memory.values.erase key
    blobs := memory.blobs.filter fun item => item.1 ≠ key }

def applySet (key : Key) (value : Scalar) : Memory :=
  memory.assign key (.scalar value)

def applyHset (key : Key) (mapping : Fields) : Option Memory :=
  match memory.find key with
  | none =>
      some ({ memory.assign key (.hash memory.nextReference) with
        nextReference := memory.nextReference + 1 }.setHash memory.nextReference
          (Table.update Table.empty mapping))
  | some (.hash reference) => some (memory.setHash reference ((memory.hashes reference).update mapping))
  | some _ => none

def applyHdel (key : Key) (field : String) : Memory :=
  match memory.find key with
  | some (.hash reference) => memory.setHash reference ((memory.hashes reference).erase field)
  | _ => memory

def write (cap : Nat) : WriteOp → Option Memory
  | .set key value => some (memory.applySet key value)
  | .hset key mapping => memory.applyHset key mapping
  | .hdel key field => some (memory.applyHdel key field)
  | .delete key => some (memory.applyDelete key)
  | .zadd key mapping => memory.applyZadd key mapping
  | .zrem key members => memory.applyZrem key members
  | .setBlob key blob => some (memory.applySetBlob cap key blob)

end Memory

inductive WriteCall
  | single (op : WriteOp)
  | batchWriteOps (ops : List WriteOp)
  deriving DecidableEq

def WriteOp.inBatch : WriteOp → Bool
  | set .. => false
  | hset .. => false
  | hdel .. => false
  | _ => true

/-- A batch with an operation outside the vocabulary raises before it touches anything. -/
def WriteCall.supported : WriteCall → Bool
  | single _ => true
  | batchWriteOps ops => ops.all WriteOp.inBatch

def WriteCall.ops : WriteCall → List WriteOp
  | single op => [op]
  | batchWriteOps ops => ops

structure Backend where
  mode : StorageMode := .degraded
  redisInitialized : Bool := false
  wal : WriteAheadLog WriteOp
  memory : Memory := {}
  lastProcessedWalSeq : Nat := 0

/-- The lengths serialized records have, and what a scan behind an overlong one finds. -/
structure Medium where
  serializedSize : WriteOp → Nat
  resync : List (WalEntry WriteOp) → List (WalEntry WriteOp)

namespace Medium

variable (medium : Medium)

def payload (op : WriteOp) : WriteAheadLog.Payload WriteOp :=
  ⟨op, medium.serializedSize op⟩

def logCall (wal : WriteAheadLog WriteOp) (now : Nat) : WriteCall → WriteAheadLog WriteOp
  | .single op => wal.write now false (medium.payload op)
  | .batchWriteOps ops => wal.batchWriteEntries now (ops.map medium.payload)

end Medium

def Memory.writeAll (cap : Nat) : Memory → List WriteOp → Memory × Bool
  | memory, [] => (memory, true)
  | memory, op :: rest =>
      match memory.write cap op with
      | none => (memory, false)
      | some written => Memory.writeAll cap written rest

namespace Backend

/-- A degraded call: the log first, then the memory. A call that raises is not acknowledged. -/
def degradedWrite (medium : Medium) (cap : Nat) (backend : Backend) (now : Nat) (call : WriteCall) : Backend × Bool :=
  if call.supported then
    let out := backend.memory.writeAll cap (call.ops.map .short)
    ({ backend with wal := medium.logCall backend.wal now call, memory := out.1 }, out.2)
  else
    (backend, false)

def build (config : WalConfig) (pid : Nat) (dir : WalDir WriteOp) : Backend where
  wal := .initOrRecover config pid dir

/-- What the replay of one entry leaves of Redis, the cursor and the count of replays; an entry that fails is
passed over. -/
def replayEntry (before : Redis × Nat × Nat) (entry : WalEntry WriteOp) : Redis × Nat × Nat :=
  match before.1.replay entry.data with
  | none => before
  | some replayed => (replayed, entry.sequence, before.2.2 + 1)

/-- It asks first how many entries this process has written. -/
def recoverFromWalOnStartup (medium : Medium) (alive : Nat → Bool) (available : Option Nat) (backend : Backend)
    (redis : Redis) : Backend × Redis :=
  if backend.wal.totalEntries = 0 then
    (backend, redis)
  else if backend.mode = .degraded then
    (backend, redis)
  else
    let entries := backend.wal.recoverUnprocessed medium.resync available backend.lastProcessedWalSeq .startup
    let out := entries.foldl replayEntry (redis, backend.lastProcessedWalSeq, 0)
    ({ backend with
        lastProcessedWalSeq := out.2.1
        wal := if 0 < out.2.2 then backend.wal.cleanupProcessed alive out.2.1 .startup else backend.wal }, out.1)

/-- The first-init branch of `_ensure_redis` on a Redis that answers. -/
def ensureRedis (medium : Medium) (alive : Nat → Bool) (available : Option Nat) (backend : Backend) (redis : Redis) :
    Backend × Redis :=
  recoverFromWalOnStartup medium alive available { backend with redisInitialized := true, mode := .redis } redis

end Backend

end Baldur.Storage
