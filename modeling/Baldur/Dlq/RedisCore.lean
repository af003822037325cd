import Baldur.Dlq.MemoryCore
import Baldur.Lib.Pool
import Mathlib.Data.List.Sort

/-!
The Redis dead letter queue (`adapters/redis/dlq.py`, `dlq_lifecycle.py`) in normal mode, over single
commands: a MULTI/EXEC block is one, as is each write of a `batch_write_ops` pipeline. A blob is the entry it
decodes to; its version counts its writes.
-/

namespace Baldur.Dlq

inductive IndexKey
  | pending
  | status (status : FailedOperationStatus)
  | byDomain (domain : String)
  | all
  | statusDomain (status : FailedOperationStatus) (domain : String)
  | domains
  deriving DecidableEq

namespace IndexKey

def family : IndexKey → String
  | .pending => "pending"
  | .status _ => "status"
  | .byDomain _ => "by_domain"
  | .all => "all"
  | .statusDomain _ _ => "status_domain"
  | .domains => "domains"

def qualifier : IndexKey → Option String
  | .status named => some named.text
  | .byDomain domain => some domain
  | .statusDomain named domain => some (named.text ++ ":" ++ domain)
  | _ => none

def text (key : IndexKey) : String :=
  "dlq:" ++ key.family ++ match key.qualifier with
    | none => ""
    | some qualifier => ":" ++ qualifier

end IndexKey

abbrev SortedSet := Table String (String × Time) Prod.fst

def zorder (left right : String × Time) : Bool :=
  left.2 < right.2 || left.2 = right.2 && left.1 ≤ right.1

def zindex (size : Nat) (index : Int) : Int :=
  if index < 0 then size + index else index

def SortedSet.zrange (set : SortedSet) (start stop : Int) : List String :=
  let members := (set.entries.insertionSort fun left right => zorder left right = true).map Prod.fst
  let first := (max (zindex members.length start) 0).toNat
  let last := zindex members.length stop
  (members.drop first).take (last - first + 1).toNat

inductive RedisWrite
  | setBlob (entry : Entry)
  | delete (id : String)
  | zadd (key : IndexKey) (member : String) (score : Time)
  | zrem (key : IndexKey) (member : String)

structure RedisWorld where
  clock : Time
  blobs : Storage := Table.empty
  version : String → Nat := fun _ => 0
  index : IndexKey → SortedSet := fun _ => Table.empty
  /-- The namespace `{pod_id}:{pid}:{run_nonce}` of the repository's entry ids, and its counter. -/
  namespaceText : String := ""
  nextSeq : Nat := 0

namespace RedisWorld

variable (world : RedisWorld)

def find (id : String) : Option Entry :=
  world.blobs.find id

def score (key : IndexKey) (member : String) : Option Time :=
  ((world.index key).find member).map Prod.snd

def touch (id : String) : String → Nat :=
  fun other => if other = id then world.version other + 1 else world.version other

def apply (world : RedisWorld) : RedisWrite → RedisWorld
  | .setBlob entry => { world with blobs := world.blobs.put entry, version := world.touch entry.id }
  | .delete id => { world with blobs := world.blobs.erase id, version := world.touch id }
  | .zadd key member score => { world with
      index := fun other => if other = key then (world.index other).put (member, score) else world.index other }
  | .zrem key member => { world with
      index := fun other => if other = key then (world.index other).erase member else world.index other }

def applyAll (world : RedisWorld) (writes : List RedisWrite) : RedisWorld :=
  writes.foldl apply world

end RedisWorld

inductive RedisCommand
  | now
  | allocateId
  | get (id : String)
  /-- The read that opens an `_update`: a GET under a name of its own. -/
  | loadForUpdate (id : String)
  | watch (id : String)
  | write (write : RedisWrite)
  | deleteKey (id : String)
  | zrange (key : IndexKey) (start stop : Int)
  /-- MULTI/EXEC of the writes, refused when the watched blob was written since. -/
  | execute (id : String) (watched : Nat) (writes : List RedisWrite)

@[reducible] def RedisCommand.Answer : RedisCommand → Type
  | .now => Time
  | .allocateId => String
  | .get _ => Option Entry
  | .loadForUpdate _ => Option Entry
  | .watch _ => Nat
  | .write _ => Unit
  | .deleteKey _ => Bool
  | .zrange .. => List String
  | .execute .. => Bool

def RedisWorld.exec : (command : RedisCommand) → RedisWorld → RedisWorld × command.Answer
  | .now, world => (world, world.clock)
  | .allocateId, world =>
      ({ world with nextSeq := world.nextSeq + 1 }, world.namespaceText ++ ":" ++ world.nextSeq.repr)
  | .get id, world => (world, world.find id)
  | .loadForUpdate id, world => (world, world.find id)
  | .watch id, world => (world, world.version id)
  | .write write, world => (world.apply write, ())
  | .deleteKey id, world => (world.apply (.delete id), (world.find id).isSome)
  | .zrange key start stop, world => (world, (world.index key).zrange start stop)
  | .execute id watched writes, world =>
      if world.version id = watched then (world.applyAll writes, true) else (world, false)

abbrev RedisProg := Prog RedisCommand RedisCommand.Answer

structure UpdateFields where
  status : Option FailedOperationStatus := none
  retryCount : Option Int := none
  lastRetryAt : Option Time := none
  resolutionType : Option String := none
  resolutionNote : Option String := none
  resolvedAt : Option Time := none
  resolvedById : Option Int := none
  metadata : Option Metadata := none
  recommendedAction : Option String := none

def UpdateFields.apply (fields : UpdateFields) (now : Time) (entry : Entry) : Entry :=
  { entry with
    updatedAt := some now
    status := fields.status.getD entry.status
    retryCount := fields.retryCount.getD entry.retryCount
    lastRetryAt := fields.lastRetryAt.or entry.lastRetryAt
    resolutionType := fields.resolutionType.getD entry.resolutionType
    resolutionNote := fields.resolutionNote.getD entry.resolutionNote
    resolvedAt := fields.resolvedAt.or entry.resolvedAt
    resolvedById := fields.resolvedById.or entry.resolvedById
    recommendedAction := fields.recommendedAction.getD entry.recommendedAction
    metadata := match fields.metadata with
      | none => entry.metadata
      | some changes => entry.metadata.merge changes }

namespace FailedOperationData

/-- The score of every index: the creation instant; a blob without one is scored by the clock. -/
def createdAtScore (entry : Entry) (now : Time) : Time :=
  entry.createdAt.getD now

/-- `_is_stale_replaying`: the Redis release ages entries by their last write. -/
def isStaleBlob (entry : Entry) (cutoff : Time) : Bool :=
  entry.status = .replaying && match entry.updatedAt with
    | none => false
    | some instant => instant < cutoff

def markStaleReleased (entry : Entry) (now : Time) : Entry :=
  let released := { entry with
    updatedAt := some now
    metadata := entry.metadata.set "released_from_stale" (.flag true) }
  if entry.maxRetries ≤ entry.retryCount then
    { released with status := .requiresReview, resolutionNote := staleReleaseAtCapNote }
  else
    { released with status := .pending }

end FailedOperationData

namespace RedisDlq

def command (command : RedisCommand) : RedisProg command.Answer :=
  Prog.perform command

def now : RedisProg Time :=
  command .now

def getById (id : String) : RedisProg (Option Entry) :=
  command (.get id)

def batchWriteOps : List RedisWrite → RedisProg Unit
  | [] => return ()
  | write :: rest => do
      let _ ← command (.write write)
      batchWriteOps rest

def statusKey : FailedOperationStatus → IndexKey
  | .pending => .pending
  | status => .status status

def whenDomain (domain : String) (writes : List RedisWrite) : List RedisWrite :=
  if domain = "" then [] else writes

def creationMoves (entry : Entry) (score : Time) : List RedisWrite :=
  [.setBlob entry, .zadd .pending entry.id score, .zadd (.byDomain entry.domain) entry.id score,
    .zadd .all entry.id score, .zadd (.statusDomain .pending entry.domain) entry.id score,
    .zadd .domains entry.domain score]

def newEntry (domain failureType errorMessage : String) (metadata : Metadata) (retryCount maxRetries : Int)
    (recommendedAction id : String) (instant : Time) : Entry :=
  { id, domain, failureType, errorMessage, metadata, retryCount, maxRetries, recommendedAction
    status := .pending, createdAt := some instant, updatedAt := some instant }

def create (domain failureType errorMessage : String) (metadata : Metadata) (retryCount maxRetries : Int)
    (recommendedAction : String) : RedisProg Entry := do
  let id : String ← command .allocateId
  let instant ← now
  let entry := newEntry domain failureType errorMessage metadata retryCount maxRetries recommendedAction id instant
  batchWriteOps (creationMoves entry instant)
  return entry

def statusMoves (old updated : Entry) (score : Time) : List RedisWrite :=
  [.zrem (statusKey old.status) old.id, .zadd (statusKey updated.status) old.id score] ++
    whenDomain old.domain [.zrem (.statusDomain old.status old.domain) old.id,
      .zadd (.statusDomain updated.status old.domain) old.id score] ++
    [.setBlob updated]

/-- An unguarded read, then the batch. -/
def update (id : String) (fields : UpdateFields) : RedisProg Bool := do
  let existing : Option Entry ← command (.loadForUpdate id)
  match existing with
  | none => return false
  | some existing =>
      let instant ← now
      let updated := fields.apply instant existing
      if fields.status.isNone then
        batchWriteOps [.setBlob updated]
      else
        batchWriteOps (statusMoves existing updated (existing.createdAtScore instant))
      return true

/-- A text argument of `update_status`; the empty one leaves the field alone. -/
def givenText (text : String) : Option String :=
  if text = "" then none else some text

def updateStatus (id : String) (changes : StatusUpdate) : RedisProg Bool := do
  let instant ← now
  update id
    { status := some changes.status
      resolutionType := givenText changes.resolutionType
      resolutionNote := givenText changes.resolutionNote
      resolvedById := changes.resolvedById
      resolvedAt := if orId changes.resolvedById none = none then none else some instant
      recommendedAction := givenText changes.recommendedAction }

def completeReplay (id : String) (completion : Completion) (errorDetails : Option Metadata) : RedisProg Bool := do
  let entry ← getById id
  if completion.success then
    let prior := match entry with
      | some stored => stored.resolutionType
      | none => ""
    let instant ← now
    update id
      { status := some .resolved
        resolutionType := some (orText completion.resolutionType prior)
        resolutionNote := some completion.note
        resolvedAt := some instant
        resolvedById := completion.resolvedById }
  else
    let destination : FailedOperationStatus := match entry with
      | some stored => if stored.maxRetries ≤ stored.retryCount then .requiresReview else .pending
      | none => .pending
    update id { status := some destination, resolutionNote := some completion.note, metadata := errorDetails }

def acquisitionMoves (source updated : Entry) (score : Time) : List RedisWrite :=
  [.zrem (statusKey source.status) source.id, .setBlob updated,
    .zadd (.status .replaying) source.id score] ++
    whenDomain source.domain [.zrem (.statusDomain source.status source.domain) source.id,
      .zadd (.statusDomain .replaying source.domain) source.id score]

section

variable {α : Type} (id : String) (absent : α) (decides : Entry → RedisProg (α × Option (List RedisWrite)))

/-- The answer for the blob as it was read, with the transaction it takes; a WATCH conflict reads the blob
again, at most `attempts` times. -/
def watchLoop : (attempts : Nat) → RedisProg α
  | 0 => return absent
  | attempts + 1 => do
      let watched : Nat ← command (.watch id)
      match ← getById id with
      | none => return absent
      | some entry =>
          match ← decides entry with
          | (answer, none) => return answer
          | (answer, some writes) =>
              let written : Bool ← command (.execute id watched writes)
              if written then return answer else watchLoop attempts

end

/-- `_try_acquire_atomic`. -/
def tryAcquireForReplay (id : String) (maxRetries : Int) (force : Bool) : Nat → RedisProg Acquisition :=
  watchLoop id .refused fun entry => do
    let instant ← now
    match entry.tryAcquireForReplay instant maxRetries force with
    | .acquired updated =>
        return (.acquired updated, some (acquisitionMoves entry updated (entry.createdAtScore instant)))
    | verdict => return (verdict, none)

def returnReplayAttempt (id : String) (acquiredRetryCount : Int) : Nat → RedisProg Bool :=
  watchLoop id false fun entry =>
    if entry.holdsAttempt acquiredRetryCount then
      return (true, some [.setBlob { entry with retryCount := acquiredRetryCount - 1 }])
    else
      return (false, none)

def releaseMoves (source updated : Entry) (score : Time) : List RedisWrite :=
  [.zrem (.status .replaying) source.id, .zadd (statusKey updated.status) source.id score] ++
    whenDomain source.domain [.zrem (.statusDomain .replaying source.domain) source.id,
      .zadd (.statusDomain updated.status source.domain) source.id score] ++
    [.setBlob updated]

def releaseOneStale (id : String) (cutoff : Time) : Nat → RedisProg Bool :=
  watchLoop id false fun entry => do
    if entry.isStaleBlob cutoff then
      let instant ← now
      return (true, some (releaseMoves entry (entry.markStaleReleased instant) (entry.createdAtScore instant)))
    else
      return (false, none)

def watchMaxAttempts : Nat := 5

def loadEntries (ids : List String) : RedisProg (List Entry) :=
  ids.foldlM (fun entries id => do
    match ← getById id with
    | none => return entries
    | some entry => return entries ++ [entry]) []

def releaseStaleReplaying (olderThanMinutes : Int) : RedisProg Nat := do
  let ids : List String ← command (.zrange (.status .replaying) 0 999)
  let replaying ← loadEntries ids
  let instant ← now
  let cutoff := instant - minutes olderThanMinutes
  replaying.foldlM (fun released entry => do
    if (match entry.updatedAt with | none => false | some written => decide (written < cutoff)) then
      let moved ← releaseOneStale entry.id cutoff watchMaxAttempts
      return if moved then released + 1 else released
    else
      return released) 0

def deletionMoves (entry : Entry) : List RedisWrite :=
  [.delete entry.id] ++ whenDomain entry.domain [.zrem (.byDomain entry.domain) entry.id] ++
    [.zrem (statusKey entry.status) entry.id, .zrem .all entry.id] ++
    whenDomain entry.domain [.zrem (.statusDomain entry.status entry.domain) entry.id]

def delete (id : String) : RedisProg Bool := do
  match ← getById id with
  | none => command (.deleteKey id)
  | some entry =>
      batchWriteOps (deletionMoves entry)
      return true

end RedisDlq

end Baldur.Dlq
