import Baldur.Dlq.ReplayCore
import Baldur.Dlq.RedisCore
import Baldur.Lib.Sequential
import Mathlib.Data.Finset.Sort
import Mathlib.Data.String.Basic

/-!
Eviction from the dead letter queues. In memory the scan, the read and the deletion loop each hold the lock;
in Redis the scan, every read and every deletion is a call.
-/

namespace Baldur.Dlq

open RedisDlq

namespace FailedOperationStatus

def evictionProtected (status : FailedOperationStatus) : Bool :=
  status = .replaying || status = .reviewing

def terminal (status : FailedOperationStatus) : Bool :=
  status = .resolved || status = .rejected || status = .archived

def nonEvictable (status : FailedOperationStatus) : Bool :=
  status.terminal || status.evictionProtected

end FailedOperationStatus

/-- A summary as `compress_entries` returns it; the stores only read its id. -/
structure CompressedEntry where
  id : String

abbrev CompressedStorage := Table String CompressedEntry CompressedEntry.id

structure SetIteration where
  order : Finset String → List String
  distinct : ∀ set, (order set).Nodup
  complete : ∀ set item, item ∈ order set ↔ item ∈ set

/-- One set in a given order, every other sorted. -/
def SetIteration.listing (ids : Finset String) (listed : List String) (distinct : listed.Nodup)
    (complete : ∀ item, item ∈ listed ↔ item ∈ ids) : SetIteration where
  order set := if set = ids then listed else set.sort (· ≤ ·)
  distinct set := by
    split
    · exact distinct
    · exact set.sort_nodup (· ≤ ·)
  complete set item := by
    split
    · rename_i same
      rw [same]
      exact complete item
    · exact set.mem_sort (· ≤ ·)

def sliceTo {α : Type} (items : List α) (count : Int) : List α :=
  if 0 ≤ count then items.take count.toNat else items.take (items.length + count).toNat

/-- `if domain`: the empty text selects no domain. -/
def givenDomain (domain : Option String) : Option String :=
  domain.filter fun text => text ≠ ""

structure MemoryEvictionWorld where
  clock : Time
  store : MemoryStore
  iteration : SetIteration
  compressed : CompressedStorage := Table.empty

namespace MemoryStore

variable (store : MemoryStore)

def candidates (iteration : SetIteration) (domain : Option String) : List Entry :=
  match givenDomain domain with
  | some named => (iteration.order (store.indexByDomain named)).filterMap store.find
  | none => store.storage.entries

def getOldestIds (iteration : SetIteration) (now : Time) (count : Int) (domain : Option String) : List String :=
  let evictable := (store.candidates iteration domain).filter fun entry => !entry.status.nonEvictable
  let oldestFirst := evictable.insertionSort fun left right => left.createdAtScore now ≤ right.createdAtScore now
  (sliceTo oldestFirst count).map FailedOperationData.id

def pop (id : String) : MemoryStore × Bool :=
  match store.find id with
  | none => (store, false)
  | some entry =>
      (({ store with storage := store.storage.erase id } : MemoryStore).removeFromIndex id entry.status
        entry.domain, true)

def popCounted (evicted : MemoryStore × Nat) (id : String) : MemoryStore × Nat :=
  let popped := evicted.1.pop id
  (popped.1, if popped.2 then evicted.2 + 1 else evicted.2)

def popAll (ids : List String) : MemoryStore × Nat :=
  ids.foldl popCounted (store, 0)

def popUnprotectedCounted (evicted : MemoryStore × Nat) (id : String) : MemoryStore × Nat :=
  if (evicted.1.find id).any fun entry => entry.status.evictionProtected then
    evicted
  else
    popCounted evicted id

/-- The locked deletion loop of `evict_oldest`: an entry in a protected status is skipped. -/
def popUnprotected (ids : List String) : MemoryStore × Nat :=
  ids.foldl popUnprotectedCounted (store, 0)

end MemoryStore

inductive MemoryEvictionCall
  | lifecycle (call : MemoryCall)
  | getOldestIds (count : Int) (domain : Option String)
  | readStored (ids : List String)
  | storeCompressedEntry (summary : CompressedEntry)
  | popUnprotected (ids : List String)
  | popAll (ids : List String)

@[reducible] def MemoryEvictionCall.Answer : MemoryEvictionCall → Type
  | .lifecycle call => call.Answer
  | .getOldestIds .. => List String
  | .readStored _ => List Entry
  | .storeCompressedEntry _ => Bool
  | .popUnprotected _ => Nat
  | .popAll _ => Nat

def MemoryEvictionWorld.exec :
    (call : MemoryEvictionCall) → MemoryEvictionWorld → MemoryEvictionWorld × call.Answer
  | .lifecycle call, world =>
      let out := call.exec world.clock world.store
      ({ world with store := out.1 }, out.2)
  | .getOldestIds count domain, world =>
      (world, world.store.getOldestIds world.iteration world.clock count domain)
  | .readStored ids, world => (world, ids.filterMap world.store.find)
  | .storeCompressedEntry summary, world => ({ world with compressed := world.compressed.put summary }, true)
  | .popUnprotected ids, world =>
      let out := world.store.popUnprotected ids
      ({ world with store := out.1 }, out.2)
  | .popAll ids, world =>
      let out := world.store.popAll ids
      ({ world with store := out.1 }, out.2)

abbrev MemoryEvictionProg := Prog MemoryEvictionCall MemoryEvictionCall.Answer

namespace MemoryDlq

def command (call : MemoryEvictionCall) : MemoryEvictionProg call.Answer :=
  Prog.perform call

def evictOldest (count : Int) (domain : Option String) : MemoryEvictionProg Nat := do
  let oldestIds : List String ← command (.getOldestIds count domain)
  command (.popUnprotected oldestIds)

def storeSummaries : List CompressedEntry → MemoryEvictionProg Unit
  | [] => return ()
  | summary :: rest => do
      let _ ← command (.storeCompressedEntry summary)
      storeSummaries rest

def compressAndEvictOldest (compressEntries : List Entry → List CompressedEntry) (count : Int)
    (domain : Option String) : MemoryEvictionProg Nat := do
  let oldestIds : List String ← command (.getOldestIds count domain)
  if oldestIds = [] then
    return 0
  else
    let entries : List Entry ← command (.readStored oldestIds)
    if entries.isEmpty then
      return 0
    else
      storeSummaries (compressEntries entries)
      command (.popAll oldestIds)

end MemoryDlq

inductive MemoryEvictionJob
  | evictOldest (count : Int) (domain : Option String)
  | compressAndEvictOldest (compressEntries : List Entry → List CompressedEntry) (count : Int)
      (domain : Option String)
  | lifecycle (call : MemoryCall)

def MemoryEvictionJob.program : MemoryEvictionJob → MemoryEvictionProg Unit
  | .evictOldest count domain => discard (MemoryDlq.evictOldest count domain)
  | .compressAndEvictOldest compressEntries count domain =>
      discard (MemoryDlq.compressAndEvictOldest compressEntries count domain)
  | .lifecycle call => discard (MemoryDlq.command (.lifecycle call))

def MemoryEvictionWorld.disturb : ClockChange → MemoryEvictionWorld → MemoryEvictionWorld
  | .advance elapsed, world => { world with clock := world.clock + elapsed }

abbrev MemoryEvictionConfig :=
  Pool.Config MemoryEvictionCall MemoryEvictionCall.Answer MemoryEvictionWorld Unit

abbrev MemoryEvictionAction := Pool.Action MemoryEvictionCall MemoryEvictionCall.Answer ClockChange Unit

def memoryEviction : Pool.Machine MemoryEvictionCall MemoryEvictionCall.Answer MemoryEvictionWorld ClockChange Unit :=
  ⟨MemoryEvictionWorld.exec, MemoryEvictionWorld.disturb, fun _ _ => []⟩

structure RedisEvictionWorld where
  redis : RedisWorld
  compressed : CompressedStorage := Table.empty

inductive RedisEvictionCall
  | tryAcquireForReplay (id : String) (maxRetries : Int) (force : Bool)
  | completeReplay (id : String) (completion : Completion) (errorDetails : Option Metadata)
  | updateStatus (id : String) (update : StatusUpdate)
  | returnReplayAttempt (id : String) (acquiredRetryCount : Int)
  | releaseStaleReplaying (olderThanMinutes : Int)
  | getOldestIds (count : Int) (domain : Option String)
  | getById (id : String)
  | loadBlob (id : String)
  | storeCompressedEntry (summary : CompressedEntry)
  | delete (id : String)

@[reducible] def RedisEvictionCall.Answer : RedisEvictionCall → Type
  | .tryAcquireForReplay .. => Acquisition
  | .completeReplay .. => Bool
  | .updateStatus .. => Bool
  | .returnReplayAttempt .. => Bool
  | .releaseStaleReplaying _ => Nat
  | .getOldestIds .. => List String
  | .getById _ => Option Entry
  | .loadBlob _ => Option Entry
  | .storeCompressedEntry _ => Bool
  | .delete _ => Bool

namespace RedisDlq

def getOldestIds (count : Int) (domain : Option String) : RedisProg (List String) :=
  match givenDomain domain with
  | some named => command (.zrange (.byDomain named) 0 (count - 1))
  | none => command (.zrange .pending 0 (count - 1))

end RedisDlq

namespace RedisEvictionWorld

variable {α : Type}

def perform (world : RedisEvictionWorld) (program : RedisProg α) : RedisEvictionWorld × α :=
  let out := program.run RedisWorld.exec world.redis
  ({ world with redis := out.1 }, out.2)

def exec : (call : RedisEvictionCall) → RedisEvictionWorld → RedisEvictionWorld × call.Answer
  | .tryAcquireForReplay id maxRetries force, world =>
      world.perform (tryAcquireForReplay id maxRetries force watchMaxAttempts)
  | .completeReplay id completion errorDetails, world =>
      world.perform (completeReplay id completion errorDetails)
  | .updateStatus id update, world => world.perform (updateStatus id update)
  | .returnReplayAttempt id acquiredRetryCount, world =>
      world.perform (returnReplayAttempt id acquiredRetryCount watchMaxAttempts)
  | .releaseStaleReplaying olderThanMinutes, world =>
      world.perform (releaseStaleReplaying olderThanMinutes)
  | .getOldestIds count domain, world => world.perform (getOldestIds count domain)
  | .getById id, world => world.perform (getById id)
  | .loadBlob id, world => world.perform (getById id)
  | .storeCompressedEntry summary, world => ({ world with compressed := world.compressed.put summary }, true)
  | .delete id, world => world.perform (delete id)

def disturb : ClockChange → RedisEvictionWorld → RedisEvictionWorld
  | .advance elapsed, world => { world with redis := { world.redis with clock := world.redis.clock + elapsed } }

end RedisEvictionWorld

abbrev RedisEvictionProg := Prog RedisEvictionCall RedisEvictionCall.Answer

namespace RedisMaintenance

def command (call : RedisEvictionCall) : RedisEvictionProg call.Answer :=
  Prog.perform call

def evictOne (evicted : Nat) (id : String) : RedisEvictionProg Nat := do
  let data : Option Entry ← command (.loadBlob id)
  if data.any fun entry => entry.status.evictionProtected then
    return evicted
  else
    let deleted : Bool ← command (.delete id)
    return if deleted then evicted + 1 else evicted

def evictOldest (count : Int) (domain : Option String) : RedisEvictionProg Nat := do
  let oldestIds : List String ← command (.getOldestIds count domain)
  oldestIds.foldlM evictOne 0

def readEntries (ids : List String) : RedisEvictionProg (List Entry) :=
  ids.foldlM (fun entries id => do
    let entry : Option Entry ← command (.getById id)
    return match entry with
      | none => entries
      | some entry => entries ++ [entry]) []

def storeSummaries : List CompressedEntry → RedisEvictionProg Unit
  | [] => return ()
  | summary :: rest => do
      let _ ← command (.storeCompressedEntry summary)
      storeSummaries rest

def deleteEntries (entries : List Entry) : RedisEvictionProg Nat :=
  entries.foldlM (fun evicted entry => do
    let deleted : Bool ← command (.delete entry.id)
    return if deleted then evicted + 1 else evicted) 0

def compressAndEvictOldest (compressEntries : List Entry → List CompressedEntry) (count : Int)
    (domain : Option String) : RedisEvictionProg Nat := do
  let oldestIds : List String ← command (.getOldestIds count domain)
  if oldestIds = [] then
    return 0
  else
    let entries ← readEntries oldestIds
    if entries.isEmpty then
      return 0
    else
      storeSummaries (compressEntries entries)
      deleteEntries entries

end RedisMaintenance

inductive RedisEvictionJob
  | evictOldest (count : Int) (domain : Option String)
  | compressAndEvictOldest (compressEntries : List Entry → List CompressedEntry) (count : Int)
      (domain : Option String)
  | tryAcquireForReplay (id : String) (maxRetries : Int) (force : Bool)
  | completeReplay (id : String) (completion : Completion) (errorDetails : Option Metadata)
  | updateStatus (id : String) (update : StatusUpdate)
  | returnReplayAttempt (id : String) (acquiredRetryCount : Int)
  | releaseStaleReplaying (olderThanMinutes : Int)

def RedisEvictionJob.program : RedisEvictionJob → RedisEvictionProg Unit
  | .evictOldest count domain => discard (RedisMaintenance.evictOldest count domain)
  | .compressAndEvictOldest compressEntries count domain =>
      discard (RedisMaintenance.compressAndEvictOldest compressEntries count domain)
  | .tryAcquireForReplay id maxRetries force =>
      discard (RedisMaintenance.command (.tryAcquireForReplay id maxRetries force))
  | .completeReplay id completion errorDetails =>
      discard (RedisMaintenance.command (.completeReplay id completion errorDetails))
  | .updateStatus id update => discard (RedisMaintenance.command (.updateStatus id update))
  | .returnReplayAttempt id acquiredRetryCount =>
      discard (RedisMaintenance.command (.returnReplayAttempt id acquiredRetryCount))
  | .releaseStaleReplaying olderThanMinutes =>
      discard (RedisMaintenance.command (.releaseStaleReplaying olderThanMinutes))

abbrev RedisEvictionConfig :=
  Pool.Config RedisEvictionCall RedisEvictionCall.Answer RedisEvictionWorld Unit

abbrev RedisEvictionAction := Pool.Action RedisEvictionCall RedisEvictionCall.Answer ClockChange Unit

def redisEviction : Pool.Machine RedisEvictionCall RedisEvictionCall.Answer RedisEvictionWorld ClockChange Unit :=
  ⟨RedisEvictionWorld.exec, RedisEvictionWorld.disturb, fun _ _ => []⟩

end Baldur.Dlq
