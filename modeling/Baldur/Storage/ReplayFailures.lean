import Baldur.Storage.OutageReplay

/-!
Recoveries that lose writes. A replay loop goes on behind a replay that raises and moves its one cursor to the
latest that succeeded; a fresh process on the directory of a crash replays nothing.
-/

namespace Baldur.Storage

open Baldur.Wal List WriteAheadLog

/-- What a replay loop meets: the memory left for its read, and the turns at which the replay raises. -/
structure LoopTurns where
  available : Option Nat := none
  raises : Nat → Bool

structure Loop extends LoopTurns where
  mode : RecoverMode
  wal : WriteAheadLog WriteOp
  cursor : Nat
  /-- Whether a cleanup follows so many replays. -/
  cleans : Nat → Bool

namespace Loop

variable (medium : Medium) (alive : Nat → Bool) (loop : Loop)

def entries : List (WalEntry WriteOp × Nat) :=
  (loop.wal.recoverUnprocessed medium.resync loop.available loop.cursor loop.mode).zipIdx

def replay (raises : Nat → Bool) (cursor : Nat) (item : WalEntry WriteOp × Nat) : Nat :=
  if raises item.2 then cursor else item.1.sequence

def reached : Nat :=
  (loop.entries medium).foldl (replay loop.raises) loop.cursor

def left : WriteAheadLog WriteOp :=
  if loop.cleans ((loop.entries medium).countP fun item => !loop.raises item.2) then
    loop.wal.cleanupProcessed alive (loop.reached medium) loop.mode
  else loop.wal

/-- A read after the loop returns the entry, if it has the memory for the log. -/
def Returns (entry : WalEntry WriteOp) : Prop :=
  ∀ memory, memoryGuard memory (loop.wal.dir.glob loop.mode loop.wal.pid) = none →
    entry ∈ (loop.left medium alive).recoverUnprocessed medium.resync memory (loop.reached medium) loop.mode

end Loop

section

variable (medium : Medium) (alive : Nat → Bool) (loops : List Loop)

/-- Whether the replay raised, for every entry of every loop. -/
def outcomes : List (WalEntry WriteOp × Bool) :=
  loops.flatMap fun loop => (loop.entries medium).map fun item => (item.1, loop.raises item.2)

/-- Whatever raised and no loop replayed is returned after the last of them. -/
def Kept : Prop :=
  ∀ failed ∈ outcomes medium loops, failed.2 = true → (failed.1, false) ∉ outcomes medium loops →
    ∀ last ∈ loops.getLast?, last.Returns medium alive failed.1

/-- It has a greater sequence than whatever was replayed. -/
def Ordered : Prop :=
  ∀ failed ∈ outcomes medium loops, failed.2 = true → (failed.1, false) ∉ outcomes medium loops →
    ∀ replayed ∈ outcomes medium loops, replayed.2 = false → replayed.1.sequence < failed.1.sequence

end

inductive Recovery
  | startup (turns : LoopTurns)
  | doRecovery (bulk delta : LoopTurns)

/-- The replay loops of a recovery, with nobody writing meanwhile. -/
def Backend.loops (medium : Medium) (alive : Nat → Bool) (backend : Backend) : Recovery → List Loop
  | .startup turns =>
      if backend.wal.totalEntries = 0 ∨ backend.mode = .degraded then []
      else [{ turns with
        mode := .startup, wal := backend.wal, cursor := backend.lastProcessedWalSeq, cleans := (0 < ·) }]
  | .doRecovery turns delta =>
      let bulk : Loop := { turns with
        mode := .runtime, wal := backend.wal, cursor := backend.lastProcessedWalSeq, cleans := fun _ => true }
      [bulk, { delta with
        mode := .runtime, wal := bulk.left medium alive, cursor := bulk.reached medium, cleans := fun _ => false }]

def Legible (wal : WriteAheadLog WriteOp) : Prop :=
  ∀ file ∈ wal.dir.entries, ∀ entry ∈ file.records, entry.size ≤ maxRecordSizeBytes

def Held (wal : WriteAheadLog WriteOp) (mode : RecoverMode) (cursor : Nat) (entry : WalEntry WriteOp) : Prop :=
  cursor < entry.sequence ∧ ∃ file ∈ wal.dir.glob mode wal.pid, entry ∈ file.records

variable {medium : Medium} {alive : Nat → Bool} {wal : WriteAheadLog WriteOp} {mode : RecoverMode} {cursor : Nat}
  {entry : WalEntry WriteOp} {file : WalFile WriteOp}

theorem mem_recoverChunked {files : List (WalFile WriteOp)} {bytes : Nat}
    (short : ∀ file ∈ files, ∀ entry ∈ file.records, entry.size ≤ maxRecordSizeBytes)
    (read : entry ∈ recoverChunked medium.resync files cursor bytes) :
    cursor < entry.sequence ∧ ∃ file ∈ files, entry ∈ file.records := by
  rw [recoverChunked, sortBySequence, mem_insertionSort] at read
  revert read
  refine foldlRecOn (motive := fun (read : List (WalEntry WriteOp) × Nat) => entry ∈ read.1 → _) files _
    (fun none => by simp at none) fun read earlier file member => ?_
  split
  · exact earlier
  · rw [mem_append, mem_filter, readBestEffort_short _ (short file member)]
    rintro (before | ⟨inside, above⟩)
    · exact earlier before
    · exact ⟨of_decide_eq_true above, file, member, inside⟩

namespace Legible

variable (legible : Legible wal)

include legible

theorem mem_recover_iff :
    entry ∈ wal.recoverUnprocessed medium.resync none cursor mode ↔ Held wal mode cursor entry := by
  simp only [Held, recoverUnprocessed, memoryGuard, Option.filter_none, sortBySequence, mem_insertionSort, mem_flatMap,
    mem_filter, decide_eq_true_eq, ← and_assoc, exists_and_right]
  refine and_comm.trans (and_congr_right fun _ => exists_congr fun file => and_congr_right fun found => ?_)
  have short := legible file (mem_glob.mp found).1
  split
  · rw [readWalFile_short short]
  · rw [readBestEffort_short medium.resync short]

theorem of_mem_recover {available : Option Nat}
    (read : entry ∈ wal.recoverUnprocessed medium.resync available cursor mode) : Held wal mode cursor entry := by
  cases guarded : memoryGuard available (wal.dir.glob mode wal.pid) with
  | none =>
    rw [recoverUnprocessed_roomy guarded] at read
    exact legible.mem_recover_iff.mp read
  | some =>
    simp only [recoverUnprocessed, guarded] at read
    exact mem_recoverChunked (fun file found => legible file (mem_glob.mp found).1) read

theorem mem_cleaned {last : Nat} (found : file ∈ wal.dir.glob mode wal.pid) (inside : entry ∈ file.records)
    (above : last < entry.sequence) : file ∈ (wal.cleanupProcessed alive last mode).dir.glob mode wal.pid := by
  obtain ⟨there, selected⟩ := mem_glob.mp found
  refine mem_glob.mpr ⟨mem_unlinkAll.mpr ⟨there, fun unlinked => ?_⟩, selected⟩
  -- A file is unlinked by its greatest sequence, and that of `entry` is above the cursor.
  simp only [mem_map, mem_filter, Bool.and_eq_true, decide_eq_true_eq] at unlinked
  obtain ⟨other, ⟨otherFound, _, processed⟩, same⟩ := unlinked
  rw [← records_of_mem (mem_glob.mp otherFound).1, same, records_of_mem there] at processed
  have reaches := le_fileMaxSequence (legible file there) inside
  omega

end Legible

namespace Loop

theorem replay_lt_iff (raises : Nat → Bool) (items : List (WalEntry WriteOp × Nat)) (cursor : Nat)
    (sorted : items.Pairwise fun first second => first.1.sequence ≤ second.1.sequence)
    (after : ∀ item ∈ items, cursor ≤ item.1.sequence) (bound : Nat) :
    items.foldl (replay raises) cursor < bound ↔
      cursor < bound ∧ ∀ item ∈ items, raises item.2 = false → item.1.sequence < bound := by
  induction items generalizing cursor with
  | nil => simp
  | cons item rest ih =>
    obtain ⟨first, later⟩ := pairwise_cons.mp sorted
    obtain ⟨below, others⟩ := forall_mem_cons.mp after
    rw [foldl_cons]
    cases raised : raises item.2 with
    | true => simp [replay, raised, ih cursor later others]
    | false =>
      simp only [replay, raised, Bool.false_eq_true, if_false, ih _ later first, forall_mem_cons, forall_const]
      exact ⟨fun ⟨head, tail⟩ => ⟨by omega, head, tail⟩, And.right⟩

variable {loop : Loop} (legible : Legible loop.wal)

include legible

theorem held_of_met {item : WalEntry WriteOp × Bool} (met : item ∈ outcomes medium [loop]) :
    Held loop.wal loop.mode loop.cursor item.1 := by
  simp only [outcomes, flatMap_singleton, mem_map] at met
  obtain ⟨found, member, rfl⟩ := met
  exact legible.of_mem_recover (fst_mem_of_mem_zipIdx member)

theorem reached_lt_iff (bound : Nat) : loop.reached medium < bound ↔ loop.cursor < bound ∧
    ∀ item ∈ outcomes medium [loop], item.2 = false → item.1.sequence < bound := by
  have sorted : ((loop.entries medium).map Prod.fst).Pairwise fun first second => first.sequence ≤ second.sequence := by
    rw [entries, zipIdx_map_fst, recoverUnprocessed]
    split <;> exact pairwise_insertionSort _ _
  rw [pairwise_map] at sorted
  simp only [outcomes, flatMap_singleton, forall_mem_map]
  exact replay_lt_iff _ _ _ sorted (fun item found =>
    (legible.of_mem_recover (fst_mem_of_mem_zipIdx found)).1.le) bound

theorem held_left : Held (loop.left medium alive) loop.mode (loop.reached medium) entry ↔
    Held loop.wal loop.mode loop.cursor entry ∧
      ∀ item ∈ outcomes medium [loop], item.2 = false → item.1.sequence < entry.sequence := by
  unfold left
  constructor
  · rintro ⟨above, file, found, inside⟩
    obtain ⟨unprocessed, later⟩ := (reached_lt_iff legible _).mp above
    refine ⟨⟨unprocessed, file, ?_, inside⟩, later⟩
    split at found
    · obtain ⟨there, selected⟩ := mem_glob.mp found
      exact mem_glob.mpr ⟨(mem_unlinkAll.mp there).1, selected⟩
    · exact found
  · rintro ⟨⟨unprocessed, file, found, inside⟩, later⟩
    have above := (reached_lt_iff legible _).mpr ⟨unprocessed, later⟩
    refine ⟨above, file, ?_, inside⟩
    split
    · exact legible.mem_cleaned found inside above
    · exact found

theorem legible_left : Legible (loop.left medium alive) := by
  unfold left
  split
  · exact fun file found => legible file (mem_unlinkAll.mp found).1
  · exact legible

theorem returns_iff : loop.Returns medium alive entry ↔
    Held (loop.left medium alive) loop.mode (loop.reached medium) entry := by
  have left : Legible (loop.left medium alive) := legible_left legible
  refine ⟨fun returns => left.mem_recover_iff.mp (returns none rfl), fun held memory roomy => ?_⟩
  rw [recoverUnprocessed_roomy ?_]
  · exact left.mem_recover_iff.mpr held
  · unfold Loop.left
    split
    · exact roomy_unlinkAll roomy
    · exact roomy

theorem delta_returns_iff {delta : Loop} (mode : delta.mode = loop.mode) (wal : delta.wal = loop.left medium alive)
    (cursor : delta.cursor = loop.reached medium) {met : WalEntry WriteOp × Bool}
    (found : met ∈ outcomes medium [loop, delta]) : delta.Returns medium alive met.1 ↔
      ∀ item ∈ outcomes medium [loop, delta], item.2 = false → item.1.sequence < met.1.sequence := by
  have held : Held (loop.left medium alive) _ _ met.1 ↔ _ := held_left legible
  rw [← wal, ← cursor, ← mode] at held
  have later : Legible delta.wal := wal ▸ legible_left legible
  have both : outcomes medium [loop, delta] = outcomes medium [loop] ++ outcomes medium [delta] := by simp [outcomes]
  rw [both, mem_append] at found
  rw [returns_iff later, held_left later, held, both, forall_mem_append, and_assoc]
  refine and_iff_right ?_
  rcases found with first | second
  · exact mode ▸ held_of_met legible first
  · exact (held.mp (held_of_met later second)).1

end Loop

def twoWrites : Backend where
  mode := .redis
  wal := unitMedium.logCall (.initOrRecover {} 100 Table.empty) 0 (.batchWriteOps [.delete "first", .delete "second"])

namespace Backend

variable (medium : Medium) (cap : Nat)

def serve (backend : Backend) : List (Nat × WriteCall) → Backend × List WriteOp
  | [] => (backend, [])
  | (now, call) :: rest =>
      let out := backend.degradedWrite medium cap now call
      let served := serve out.1 rest
      (served.1, if out.2 then call.ops ++ served.2 else served.2)

/-- The directory a crash leaves behind, with the records of a call in flight that reached it. -/
def crash (backend : Backend) (inFlight : Option (Nat × List WriteOp)) : WalDir WriteOp :=
  match inFlight with
  | none => backend.wal.dir
  | some (now, ops) =>
      (backend.wal.store now (WriteAheadLog.numbered backend.wal.sequence (ops.map medium.payload))).dir

def restart (config : WalConfig) (pid : Nat) (alive : Nat → Bool) (available : Option Nat) (dir : WalDir WriteOp)
    (redis : Redis) : Backend × Redis :=
  (build config pid dir).ensureRedis medium alive available redis

theorem restart_content (config : WalConfig) (pid : Nat) (alive : Nat → Bool) (available : Option Nat)
    (dir : WalDir WriteOp) (redis : Redis) : (restart medium config pid alive available dir redis).2 = redis := by
  have unwritten : (build config pid dir).wal.totalEntries = 0 := rfl
  simp only [restart, ensureRedis, recoverFromWalOnStartup, unwritten, if_true]

end Backend

def Redis.applyAll (redis : Redis) (ops : List WriteOp) : Option Redis :=
  ops.foldlM (fun before op => before.pipe op) redis

/-- After the restart Redis holds the result of the acknowledged writes exactly when they change nothing. -/
theorem restart_recovers_iff (medium : Medium) (cap : Nat) (backend : Backend) (calls : List (Nat × WriteCall))
    (inFlight : Option (Nat × List WriteOp)) (config : WalConfig) (pid : Nat) (alive : Nat → Bool)
    (available : Option Nat) (before : Redis) :
    before.applyAll (backend.serve medium cap calls).2 =
        some (Backend.restart medium config pid alive available
          ((backend.serve medium cap calls).1.crash medium inFlight) before).2 ↔
      before.applyAll (backend.serve medium cap calls).2 = some before := by
  rw [Backend.restart_content]

theorem restart_loses_acknowledged_set :
    let medium : Medium := ⟨fun _ => 64, fun _ => []⟩
    let served := (Backend.build {} 100 Table.empty).serve medium 1048576 [(0, .single (.set "flag" (.text "on")))]
    served.2 = [.set "flag" (.text "on")] ∧
      (Backend.restart medium {} 200 (fun _ => false) none (served.1.crash medium none) fun _ => none).2 "flag" = none ∧
      (Redis.applyAll (fun _ => none) served.2).map (fun redis => redis "flag") =
        some (some (.string (.scalar (.text "on")))) := by
  decide +kernel

end Baldur.Storage
