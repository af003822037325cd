import Baldur.Storage.WrittenCells
import Baldur.Wal.WalFiles

/-!
A write that is acknowledged around a recovery is in Redis afterwards, as long as no writer is between its
mode check and its effect when the recovery flips the mode.
-/

namespace Baldur.Storage

open Baldur.Wal Overwrite Backend List Memory Option Table WalEntry WriteAheadLog WriteOp

variable {base : Content} {item : Key × MemoryValue} {redis after : Redis}
  {new : List (WalEntry WriteOp)} {ops : List WriteOp} {stage : RecoveryStage}

section

variable {base : Content} {writes : List (Write (Key × Cell) (Option Stored))} {memory after : Memory} {op : WriteOp}

/-- What the sync will read from a dictionary of its snapshot is in the base or about to be written. -/
structure DictionaryOk (base : Content) (writes : List (Write (Key × Cell) (Option Stored))) (memory : Memory)
    (key : Key) (reference : Nat) : Prop where
  allocated : reference < memory.nextReference
  single : ∀ other, memory.find other = some (.hash reference) → other = key
  fields : ∀ name item, (memory.hashes reference).find name = some item →
    Touched writes (key, .field name) ∨ base (key, .field name) = some (.text item.2)
  stated : isBreakerKey key = true → ((memory.hashes reference).find "state").isSome

def ItemOk (base : Content) (writes : List (Write (Key × Cell) (Option Stored))) (memory : Memory) :
    Key × MemoryValue → Prop
  | (key, .scalar value) => ∀ cell, Touched writes (key, cell) ∨
      base (key, cell) = if cell = .value then some (.string (.scalar value)) else none
  | (key, .hash reference) => DictionaryOk base writes memory key reference
  | (_, .zset _) => True

def Apart (first second : Key × MemoryValue) : Prop :=
  ∀ reference, first.2 = .hash reference → second.2 ≠ .hash reference

variable {key : Key} {reference : Nat}

section

variable (ok : DictionaryOk base writes memory key reference)

include ok

section

variable (next : memory.nextReference ≤ after.nextReference)
  (find : ∀ other, after.find other = some (.hash reference) → memory.find other = some (.hash reference))

include next find

theorem DictionaryOk.of_find
    (fields : ∀ name item, (after.hashes reference).find name = some item →
      (memory.hashes reference).find name = some item ∨ op.effect (key, .field name) ≠ none ∨ base (key, .field name) = some (.text item.2))
    (stated : isBreakerKey key = true → ((memory.hashes reference).find "state").isSome →
      ((after.hashes reference).find "state").isSome) :
    DictionaryOk base (writes ++ [op.effect]) after key reference where
  allocated := ok.allocated.trans_le next
  single other present := ok.single other (find other present)
  fields name item present := by
    rcases fields name item present with old | written | same
    · exact (ok.fields name item old).imp Touched.append_left id
    · exact .inl (Touched.append_right ⟨_, mem_cons_self, written⟩)
    · exact .inr same
  stated breaker := stated breaker (ok.stated breaker)

theorem DictionaryOk.kept (hashes : after.hashes reference = memory.hashes reference) :
    DictionaryOk base (writes ++ [op.effect]) after key reference := by
  refine ok.of_find next find (fun name item present => ?_) (fun _ stated => ?_)
  · rw [hashes] at present
    exact .inl present
  · rwa [hashes]

end

theorem dictionary_written (plain : op.Plain memory) (written : Written memory after op) :
    DictionaryOk base (writes ++ [op.effect]) after key reference := by
  cases written with
  | scalar other value hashes next find | listed _ items members hashes next find
  | gone other hashes next find =>
    exact ok.kept next.ge (fun name => hash_of_replaced (by simp) (find name)) (by rw [hashes])
  | untouched _ hashes next find =>
    exact ok.kept next.ge (fun name present => by rwa [find] at present) (by rw [hashes])
  | newHash other mapping absent hashes next find =>
    -- The dictionary of the snapshot is older than the one the write makes.
    have older := ok.allocated
    refine ok.kept (by omega) (fun name present => ?_) (by rw [hashes, if_neg (by omega)])
    rw [find] at present
    split at present
    · cases present
      omega
    · exact present
  | updated other mapping target present hashes next find =>
    refine ok.of_find next.ge (fun name there => ?_) (fun name item there => ?_) (fun _ stated => ?_)
    · rwa [find] at there
    · rw [hashes] at there
      split at there
      · rename_i same
        subst same
        obtain rfl := ok.single other present
        rw [find_update] at there
        cases changed : mapping.find name with
        | none => exact .inl (by simpa [changed] using there)
        | some => exact .inr (.inl (by simp [effect, key, onCell, changed]))
      · exact .inl there
    · rw [hashes]
      split
      · rename_i same
        subst same
        rw [find_update]
        cases mapping.find "state" with
        | none => exact stated
        | some => rfl
      · exact stated
  | erased other field target present hashes next find =>
    refine ok.of_find next.ge (fun name there => ?_) (fun name item there => ?_) (fun breaker stated => ?_)
    · rwa [find] at there
    · rw [hashes] at there
      split at there
      · rename_i same
        subst same
        rw [find_erase] at there
        split at there
        · cases there
        · exact .inl there
      · exact .inl there
    · rw [hashes]
      split
      · rename_i same
        subst same
        obtain rfl := ok.single other present
        rw [find_erase, if_neg (plain.2 breaker)]
        exact stated
      · exact stated

end

variable {item : Key × MemoryValue}

theorem item_written (ok : ItemOk base writes memory item) (plain : op.Plain memory)
    (written : Written memory after op) : ItemOk base (writes ++ [op.effect]) after item := by
  obtain ⟨key, value⟩ := item
  cases value with
  | scalar => exact fun cell => (ok cell).imp Touched.append_left id
  | hash => exact dictionary_written ok plain written
  | zset => trivial

theorem Memory.find_of_mem (member : item ∈ memory.values.entries) : memory.find item.1 = some item.2 := by
  rw [find, (memory.values.mem_entries_iff item).mp member]
  rfl

theorem items_of_mirrors (mirrors : Mirrors (applyAll base writes) memory) (wired : Wired memory) :
    ∀ item ∈ memory.values.entries, ItemOk base writes memory item := by
  intro item member
  obtain ⟨key, value⟩ := item
  have present : memory.find key = some value := find_of_mem member
  have settled (place : Key × Cell) (content : Option Stored) (shown : applyAll base writes place = content) :
      Touched writes place ∨ base place = content := by
    by_cases touched : Touched writes place
    · exact .inl touched
    · exact .inr ((applyAll_untouched touched base).symm.trans shown)
  cases value with
  | scalar value => exact fun cell => settled _ _ (mirrors.scalar key value present cell)
  | hash reference =>
    exact ⟨wired.allocated key reference present,
      fun other there => wired.single other key reference there present,
      fun name item listed => settled _ _ (mirrors.hash key reference present name item listed),
      wired.stated key reference present⟩
  | zset => trivial

theorem apart_of_wired (wired : Wired memory) : memory.values.entries.Pairwise Apart := by
  have distinct := pairwise_map.mp memory.values.distinct
  refine distinct.imp_of_mem ?_
  intro first second firstIn secondIn different reference one two
  have found {item : Key × MemoryValue} (member : item ∈ memory.values.entries)
      (hash : item.2 = .hash reference) : memory.find item.1 = some (.hash reference) := by
    rw [← hash]
    exact find_of_mem member
  exact different (wired.single _ _ _ (found firstIn one) (found secondIn two))

def Settled (redis : Redis) (base : Content) (writes : List (Write (Key × Cell) (Option Stored))) : Prop :=
  ∀ place, ¬ Touched writes place → redis.cells place = base place

theorem stateOr_eq {fields : Fields} {item : String × String} (present : fields.find "state" = some item) :
    fields.stateOr = item.2 := by
  simp [Fields.stateOr, present]

variable {redis : Redis}

theorem syncedFields_base {name : String} {item : String × String} (settled : Settled redis base writes)
    (ok : DictionaryOk base writes memory key reference) (untouched : ¬ Touched writes (key, .field name))
    (listed : (syncedFields redis key (memory.hashes reference)).find name = some item) :
    base (key, .field name) = some (.text item.2) := by
  unfold syncedFields at listed
  split at listed
  · rename_i stored there
    split at listed
    · rename_i breaker
      rw [find_put] at listed
      split at listed
      · rename_i same
        subst same
        cases listed
        obtain ⟨own, present⟩ := isSome_iff_exists.mp (ok.stated breaker.1)
        have based := (ok.fields _ _ present).resolve_left untouched
        have shown : redis.cells (key, .field "state") = some (.text own.2) := (settled _ untouched).trans based
        simp only [Redis.cells, there, map_eq_some_iff] at shown
        obtain ⟨found, isStored, sameText⟩ := shown
        have texts : found.2 = own.2 := Stored.text.inj sameText
        rw [stateOr_eq present, stateOr_eq isStored, texts]
        simpa [reconcile] using based
      · exact (ok.fields _ _ listed).resolve_left untouched
    · exact (ok.fields _ _ listed).resolve_left untouched
  · exact (ok.fields _ _ listed).resolve_left untouched

theorem syncItem_settled (settled : Settled redis base writes) (ok : ItemOk base writes memory item) :
    Settled (syncItem false memory redis item).2 base writes := by
  obtain ⟨key, value⟩ := item
  intro place untouched
  obtain ⟨name, cell⟩ := place
  cases value with
  | zset => exact settled _ untouched
  | scalar =>
    simp only [syncItem, Key.full_false]
    rw [cells_assign]
    split
    · rename_i here
      cases here
      rw [(ok cell).resolve_left untouched]
      cases cell <;> rfl
    · exact settled _ untouched
  | hash reference =>
    simp only [syncItem, Key.full_false]
    cases done : redis.hset key (syncedFields redis key (memory.hashes reference)) with
    | none => exact settled _ untouched
    | some =>
      rw [getD_some, cells_hset done]
      by_cases here : name = key
      · subst here
        rw [show (name, cell) = ((hset name (syncedFields redis name (memory.hashes reference))).key, cell)
          from rfl, apply_at]
        cases cell with
        | value | member other => exact settled _ untouched
        | field other =>
          simp only [onCell]
          cases listed : (syncedFields redis name (memory.hashes reference)).find other with
          | none => exact settled _ untouched
          | some => exact (syncedFields_base settled ok untouched listed).symm
      · rw [apply_of_ne here]
        exact settled _ untouched

theorem syncItem_items {other : Key × MemoryValue} (apart : Apart item other)
    (ok : ItemOk base writes memory other) : ItemOk base writes (syncItem false memory redis item).1 other := by
  obtain ⟨key, value⟩ := item
  cases value with
  | zset => exact ok
  | scalar => exact ok
  | hash reference =>
    obtain ⟨name, value⟩ := other
    cases value with
    | zset => trivial
    | scalar => exact ok
    | hash own =>
      have different : own ≠ reference := by
        rintro rfl
        exact apart own rfl rfl
      have same : (syncItem false memory redis (key, .hash reference)).1.hashes own = memory.hashes own := by
        simp [syncItem, setHash, different]
      refine ⟨ok.allocated, ok.single, ?_, ?_⟩
      · rw [same]
        exact ok.fields
      · rw [same]
        exact ok.stated

end

section

variable {op : WriteOp} {memory : Memory} {cap : Nat} {ops : List WriteOp}

def PlainAll (cap : Nat) : Memory → List WriteOp → Prop
  | _, [] => True
  | memory, op :: rest =>
      op.Plain memory ∧ ∃ after, memory.write cap op = some after ∧ PlainAll cap after rest

theorem fieldNamed_of_plain (plain : op.Plain memory) : op.FieldNamed := by
  cases op with
  | hdel => exact plain.1
  | _ => trivial

theorem fieldNamed_of_plainAll (plain : PlainAll cap memory ops) : ∀ op ∈ ops, op.FieldNamed := by
  induction ops generalizing memory with
  | nil => simp
  | cons op rest ih =>
    obtain ⟨first, after, _, others⟩ := plain
    intro other member
    rcases mem_cons.mp member with rfl | later
    · exact fieldNamed_of_plain first
    · exact ih others other later

theorem writeAll_cons {after : Memory} (done : memory.write cap op = some after) :
    memory.writeAll cap (op :: ops) = after.writeAll cap ops := by
  rw [writeAll, done]

theorem writeAll_done (plain : PlainAll cap memory ops) : (memory.writeAll cap ops).2 = true := by
  induction ops generalizing memory with
  | nil => rfl
  | cons op rest ih =>
    obtain ⟨_, after, done, others⟩ := plain
    rw [writeAll_cons done]
    exact ih others

theorem mirrors_writeAll {content : Content} (mirrors : Mirrors content memory) (wired : Wired memory)
    (plain : PlainAll cap memory ops) :
    Mirrors (applyAll content (ops.map effect)) (memory.writeAll cap ops).1 ∧ Wired (memory.writeAll cap ops).1 := by
  induction ops generalizing memory content with
  | nil => exact ⟨mirrors, wired⟩
  | cons op rest ih =>
    obtain ⟨first, after, done, others⟩ := plain
    have written := written_of_write done
    rw [writeAll_cons done, map_cons, applyAll_cons]
    exact ih (mirrors_written mirrors wired first written) (wired_written wired first written) others

theorem items_writeAll {writes : List (Write (Key × Cell) (Option Stored))}
    (ok : ItemOk base writes memory item) (plain : PlainAll cap memory ops) :
    ItemOk base (writes ++ ops.map effect) (memory.writeAll cap ops).1 item := by
  induction ops generalizing memory writes with
  | nil =>
    rw [map_nil, append_nil]
    exact ok
  | cons op rest ih =>
    obtain ⟨first, after, done, others⟩ := plain
    rw [writeAll_cons done, map_cons, append_cons]
    exact ih (item_written ok first (written_of_write done)) others

theorem logCall_eq {medium : Medium} {wal : WriteAheadLog WriteOp} (direct : wal.config.groupCommitEnabled = false)
    (now : Nat) (call : WriteCall) :
    medium.logCall wal now call = wal.batchWriteEntries now (call.ops.map medium.payload) := by
  cases call with
  | single => simp [Medium.logCall, WriteAheadLog.write, direct, WriteAheadLog.directWrite_eq, WriteCall.ops]
  | batchWriteOps => rfl

theorem batchWriteEntries_config (wal : WriteAheadLog WriteOp) (now : Nat) (payloads : List (Payload WriteOp)) :
    (wal.batchWriteEntries now payloads).config = wal.config := by
  unfold batchWriteEntries
  split
  · rfl
  · rw [store_config]

theorem batchWriteEntries_sequence (wal : WriteAheadLog WriteOp) (now : Nat) (payloads : List (Payload WriteOp)) :
    (wal.batchWriteEntries now payloads).sequence = wal.sequence + payloads.length := by
  unfold batchWriteEntries
  split
  · rename_i none
    simp [none]
  · rw [store_sequence]

theorem replayed_cells {entries : List (WalEntry WriteOp)} (named : ∀ entry ∈ entries, entry.data.FieldNamed)
    (done : entries.foldlM (fun before entry => before.replay entry.data) redis = some after) (last count : Nat) :
    (entries.foldl replayEntry (redis, last, count)).1.cells =
      applyAll redis.cells (entries.map fun entry => entry.data.effect) := by
  induction entries generalizing redis last count with
  | nil => rfl
  | cons entry rest ih =>
    rw [foldlM_cons] at done
    obtain ⟨middle, first, others⟩ := bind_eq_some_iff.mp done
    have step : replayEntry (redis, last, count) entry = (middle, entry.sequence, count + 1) := by
      simp [replayEntry, first]
    rw [foldl_cons, step, ih (fun other member => named other (mem_cons_of_mem _ member)) others,
      cells_replay (named entry mem_cons_self) first]
    rfl

end

def writesOf (entries : List (WalEntry WriteOp)) : List (Write (Key × Cell) (Option Stored)) :=
  entries.map fun entry => entry.data.effect

theorem writesOf_append (entries : List (WalEntry WriteOp))
    (same : new.map WalEntry.data = ops) : writesOf (entries ++ new) = writesOf entries ++ ops.map WriteOp.effect := by
  rw [writesOf, List.map_append, ← same, List.map_map]
  rfl

def Window.acknowledged (initial : Content) (window : Window) : Content :=
  applyAll initial (window.landed.map WriteOp.effect)

def StageOk (shown base : Content) (pending : List (WalEntry WriteOp)) (memory : Memory) : RecoveryStage → Prop
  | .idle => Mirrors shown memory ∧ Wired memory
  | .entered => Mirrors shown memory ∧ Wired memory
  | .replaying entries => (Mirrors shown memory ∧ Wired memory) ∧ ∃ later, pending = entries ++ later
  | .replayed => Mirrors shown memory ∧ Wired memory
  | .syncing items => (∀ item ∈ items, ItemOk base (writesOf pending) memory item) ∧ items.Pairwise Apart
  | .synced => True
  | .cleaned => True

/-- Before the flip: the log is split where the replay stands, and Redis has the part before wherever the part
behind does not write. -/
structure Outage (initial base : Content) (past pending : List (WalEntry WriteOp)) (window : Window) : Prop where
  mode : window.backend.mode ≠ .redis
  writers : ∀ writer ∈ window.writers, writer.toRedis = false
  direct : window.backend.wal.config.groupCommitEnabled = false
  tracks : Tracks window.backend.wal (past ++ pending) window.backend.lastProcessedWalSeq
  cursor : window.backend.lastProcessedWalSeq ≤ window.backend.wal.sequence
  behind : ∀ entry ∈ past, entry.sequence ≤ window.backend.lastProcessedWalSeq
  ahead : ∀ entry ∈ pending, window.backend.lastProcessedWalSeq < entry.sequence
  named : ∀ entry ∈ pending, entry.data.FieldNamed
  target : window.acknowledged initial = applyAll base (writesOf pending)
  settled : Settled window.redis base (writesOf pending)
  stage : StageOk (window.acknowledged initial) base pending window.backend.memory window.stage

/-- What a degraded call needs: room in the log, records of a readable length, plain operations, no test mode. -/
structure DegradedOk (medium : Medium) (cap : Nat) (backend : Backend) (now : Nat) (call : WriteCall) : Prop where
  real : ∀ op ∈ call.ops, op.key.synthetic = false
  plain : PlainAll cap backend.memory call.ops
  short : ∀ op ∈ call.ops, medium.serializedSize op ≤ maxRecordSizeBytes
  roomy : Tracks.StoreRoomy backend.wal now (WriteAheadLog.numbered backend.wal.sequence (call.ops.map medium.payload))

section

variable {medium : Medium} {cap now : Nat} {initial base shown : Content} {past pending : List (WalEntry WriteOp)}
  {memory : Memory} {window : Window} {call : WriteCall}

theorem map_data_logged (medium : Medium) (call : WriteCall) (sequence : Nat) :
    (WriteAheadLog.numbered sequence (call.ops.map medium.payload)).map WalEntry.data = call.ops := by
  rw [WriteAheadLog.map_data_numbered, List.map_map]
  exact map_id' _

theorem stage_writeAll (ok : StageOk shown base pending memory stage) (plain : PlainAll cap memory ops)
    (same : new.map data = ops) :
    StageOk (applyAll shown (ops.map effect)) base (pending ++ new) (memory.writeAll cap ops).1 stage := by
  cases stage with
  | synced => trivial
  | cleaned => trivial
  | replaying =>
    obtain ⟨shows, later, rfl⟩ := ok
    exact ⟨mirrors_writeAll shows.1 shows.2 plain, later ++ new, append_assoc _ _ _⟩
  | syncing =>
    refine ⟨fun item member => ?_, ok.2⟩
    rw [writesOf_append pending same]
    exact items_writeAll (ok.1 item member) plain
  | _ => exact mirrors_writeAll ok.1 ok.2 plain

theorem Outage.landDegraded (outage : Outage initial base past pending window)
    (supported : call.supported = true) (ok : DegradedOk medium cap window.backend now call) :
    Outage initial base past
      (pending ++ WriteAheadLog.numbered window.backend.wal.sequence (call.ops.map medium.payload))
      (window.landDegraded medium cap now call) := by
  have sequence := outage.cursor
  have data := map_data_logged medium call window.backend.wal.sequence
  have after : window.landDegraded medium cap now call = { window with
      backend := { window.backend with
        wal := window.backend.wal.batchWriteEntries now (call.ops.map medium.payload)
        memory := (window.backend.memory.writeAll cap call.ops).1 }
      landed := window.landed ++ call.ops } := by
    simp only [Window.landDegraded, degradedWrite, supported, if_true, map_short ok.real, writeAll_done ok.plain,
      logCall_eq outage.direct]
  have shown : (window.landDegraded medium cap now call).acknowledged initial =
      applyAll (window.acknowledged initial) (call.ops.map effect) := by
    rw [after, Window.acknowledged, map_append, applyAll_append]
    rfl
  have split := writesOf_append pending data
  have staged := stage_writeAll outage.stage ok.plain data
  rw [← shown] at staged
  rw [after] at shown staged ⊢
  refine ⟨outage.mode, outage.writers, ?_, ?_, ?_, outage.behind, ?_, ?_, ?_, ?_, staged⟩
  · exact (congrArg WalConfig.groupCommitEnabled (batchWriteEntries_config _ _ _)).trans outage.direct
  · rw [← append_assoc]
    refine outage.tracks.batchWriteEntries now _ ?_ ok.roomy
    intro payload member
    obtain ⟨op, inside, rfl⟩ := mem_map.mp member
    exact ok.short op inside
  · simp only [batchWriteEntries_sequence]
    omega
  · intro entry member
    rcases mem_append.mp member with old | new
    · exact outage.ahead entry old
    · have bounds := numbered_bounds _ _ entry new
      simp only
      omega
  · intro entry member
    rcases mem_append.mp member with old | new
    · exact outage.named entry old
    · refine fieldNamed_of_plainAll ok.plain entry.data ?_
      rw [← data]
      exact mem_map_of_mem new
  · rw [shown, split, applyAll_append, outage.target]
  · intro place untouched
    rw [split] at untouched
    exact outage.settled place fun touched => untouched touched.append_left

end

section

variable {entry : WalEntry WriteOp} {later : List (WalEntry WriteOp)}
  {medium : Medium} {alive : Nat → Bool} {initial base : Content}
  {past pending : List (WalEntry WriteOp)}
  {window : Window}

theorem Outage.unprocessed (outage : Outage initial base past pending window) :
    window.backend.wal.recoverUnprocessed medium.resync none window.backend.lastProcessedWalSeq .runtime = pending := by
  rw [outage.tracks.recoverUnprocessed medium.resync le_rfl, filter_append]
  have done : past.filter (fun entry => window.backend.lastProcessedWalSeq < entry.sequence) = [] := by
    refine filter_eq_nil_iff.mpr fun entry member => ?_
    have bound := outage.behind entry member
    simp only [decide_eq_true_eq]
    omega
  have left : pending.filter (fun entry => window.backend.lastProcessedWalSeq < entry.sequence) = pending :=
    filter_eq_self.mpr fun entry member => by simpa using outage.ahead entry member
  rw [done, left, nil_append]

theorem Outage.enter (outage : Outage initial base past pending window) {mode : StorageMode} (outside : mode ≠ .redis)
    (ok : StageOk (window.acknowledged initial) base pending window.backend.memory stage) :
    Outage initial base past pending
      { window with stage := stage, backend := { window.backend with mode := mode } } := by
  exact { outage with mode := outside, stage := ok }

theorem settled_replay
    (settled : Settled redis base (writesOf (entry :: later))) (named : entry.data.FieldNamed)
    (done : redis.replay entry.data = some after) :
    Settled after (apply base entry.data.effect) (writesOf later) := by
  intro place untouched
  rw [cells_replay named done]
  cases here : entry.data.effect place with
  | some => simp [apply, here]
  | none =>
    have same := settled place (by
      rintro ⟨write, member, touches⟩
      rcases mem_cons.mp member with rfl | further
      · exact touches here
      · exact untouched ⟨write, further, touches⟩)
    simp [apply, here, same]

theorem Outage.replayEntry {rest : List (WalEntry WriteOp)}
    (outage : Outage initial base past (entry :: rest ++ later) window)
    (shows : Mirrors (window.acknowledged initial) window.backend.memory ∧ Wired window.backend.memory)
    (done : window.redis.replay entry.data = some after) :
    Outage initial (apply base entry.data.effect) (past ++ [entry]) (rest ++ later) { window with
        stage := .replaying rest
        redis := after
        backend := { window.backend with lastProcessedWalSeq := entry.sequence } } := by
  have first := outage.ahead entry (by simp)
  have ordered := outage.tracks.ascending
  rw [List.cons_append, Ascending, List.pairwise_append, List.pairwise_cons] at ordered
  refine ⟨outage.mode, outage.writers, outage.direct, ?_, ?_, ?_, ?_, ?_, outage.target, ?_, shows, later, rfl⟩
  · rw [List.append_assoc]
    exact outage.tracks.advance first.le
  · exact outage.tracks.bounded entry (by simp)
  · intro other member
    rcases List.mem_append.mp member with old | same
    · exact (outage.behind other old).trans first.le
    · exact (congrArg WalEntry.sequence (List.mem_singleton.mp same)).le
  · exact ordered.2.1.1
  · exact fun other member => outage.named other (List.mem_cons_of_mem _ member)
  · exact settled_replay outage.settled (outage.named entry (by simp)) done

theorem Outage.syncItem {rest : List (Key × MemoryValue)}
    (outage : Outage initial base past pending window) (stage : window.stage = .syncing (item :: rest)) :
    Outage initial base past pending { window with
        stage := .syncing rest
        redis := (syncItem false window.backend.memory window.redis item).2
        backend := { window.backend with
          memory := (syncItem false window.backend.memory window.redis item).1 } } := by
  have ok := outage.stage
  rw [stage] at ok
  obtain ⟨items, apart⟩ := ok
  obtain ⟨others, distinct⟩ := pairwise_cons.mp apart
  refine { outage with settled := ?_, stage := ⟨fun other member => ?_, distinct⟩ }
  · exact syncItem_settled outage.settled (items item mem_cons_self)
  · exact syncItem_items (others other member) (items other (mem_cons_of_mem _ member))

theorem Outage.cleanup (outage : Outage initial base past pending window) :
    Outage initial base past pending { window with
        stage := .cleaned
        backend := { window.backend with
          wal := window.backend.wal.cleanupProcessed alive window.backend.lastProcessedWalSeq .runtime } } := by
  have tracks := outage.tracks.cleanupProcessed alive le_rfl .runtime
  exact { outage with tracks := tracks, stage := trivial }

structure Recovered (initial : Content) (window : Window) : Prop where
  mode : window.backend.mode = .redis
  idle : window.stage = .idle
  writers : ∀ writer ∈ window.writers, writer.toRedis = true
  shown : window.redis.cells = window.acknowledged initial

theorem Outage.finalize (outage : Outage initial base past pending window) (quiet : window.writers = [])
    (done : (pending.foldlM (fun (before : Redis) entry => before.replay entry.data) window.redis).isSome) :
    Recovered initial (window.finalize medium {}) := by
  obtain ⟨after, replayed⟩ := isSome_iff_exists.mp done
  refine ⟨rfl, rfl, ?_, ?_⟩
  · simp [Window.finalize, quiet]
  · simp only [Window.finalize, outage.unprocessed]
    rw [replayed_cells outage.named replayed]
    exact (applyAll_eq_of_agree outage.settled).trans outage.target.symm

end

namespace Window

variable (medium : Medium) (cap : Nat) (alive : Nat → Bool)

def DeltaReplays (window : Window) : Prop :=
  ((window.backend.wal.recoverUnprocessed medium.resync none window.backend.lastProcessedWalSeq .runtime).foldlM
    (fun (before : Redis) entry => before.replay entry.data) window.redis).isSome

/-- Parsed, the files of the log fit the memory left. -/
def Roomy (turn : Turn) (window : Window) : Prop :=
  memoryGuard turn.available (window.backend.wal.dir.glob .runtime window.backend.wal.pid) = none

def Calm (turn : Turn) (window : Window) : Prop :=
  match window.stage with
  | .entered | .cleaned => window.Roomy turn
  | .syncing _ => turn.synthetic = false
  | _ => True

/-- What a step may rely on: its Redis commands succeed, a degraded call is in order, and the flip finds no writer
between its mode check and its effect. A read of the log has the memory, the sync is not in test mode. -/
def Orderly (window : Window) : WindowAction → Prop
  | .check _ => True
  | .land index now => ∀ writer, window.writers[index]? = some writer → writer.call.supported = true →
      if writer.toRedis then (writer.call.run window.redis).isSome
      else DegradedOk medium cap window.backend now writer.call
  | .recover turn => window.Calm turn ∧
      match window.stage with
      | .replaying (entry :: _) => (window.redis.replay entry.data).isSome
      | .cleaned => window.writers = [] ∧ window.DeltaReplays medium
      | _ => True

def OrderlyRun : Window → List WindowAction → Prop
  | _, [] => True
  | window, action :: rest => Orderly medium cap window action ∧ OrderlyRun (step medium cap alive window action) rest

end Window

/-- The start of an outage: every logged entry replayed and nothing in memory. -/
structure Drained (window : Window) : Prop where
  mode : window.backend.mode = .degraded
  stage : window.stage = .idle
  writers : window.writers = []
  landed : window.landed = []
  memory : window.backend.memory.values = Table.empty
  direct : window.backend.wal.config.groupCommitEnabled = false
  cursor : window.backend.lastProcessedWalSeq ≤ window.backend.wal.sequence
  log : ∃ past, Tracks window.backend.wal past window.backend.lastProcessedWalSeq ∧
    ∀ entry ∈ past, entry.sequence ≤ window.backend.lastProcessedWalSeq

section

variable {writer : Writer} {now index : Nat}
  {medium : Medium} {cap : Nat} {alive : Nat → Bool} {initial : Content} {window : Window} {turn : Turn}

def Faithful (initial : Content) (window : Window) : Prop :=
  (∃ base past pending, Outage initial base past pending window) ∨ Recovered initial window

theorem outage_drained (drained : Drained window) :
    ∃ past, Outage window.redis.cells window.redis.cells past [] window := by
  obtain ⟨past, tracks, behind⟩ := drained.log
  have none (key : Key) : window.backend.memory.find key = none := by
    simp [Memory.find, drained.memory]
  refine ⟨past, by simp [drained.mode], by simp [drained.writers], drained.direct, by simpa using tracks, drained.cursor,
    behind, by simp, by simp, by simp [Window.acknowledged, drained.landed, writesOf, applyAll], fun _ _ => rfl, ?_⟩
  rw [drained.stage]
  refine ⟨⟨?_, ?_⟩, ⟨⟨?_, ?_⟩, ?_⟩⟩ <;> simp [none]

theorem recover_calm (calm : window.Calm turn) :
    window.recover medium alive turn = window.recover medium alive {} := by
  cases stage : window.stage with
  | entered =>
    simp only [Window.Calm, stage] at calm
    simp only [Window.recover, stage, recoverUnprocessed_roomy calm]
  | cleaned =>
    simp only [Window.Calm, stage] at calm
    simp only [Window.recover, stage, Window.finalize, recoverUnprocessed_roomy calm]
  | syncing items =>
    simp only [Window.Calm, stage] at calm
    cases items <;> simp only [Window.recover, stage, calm]
  | replaying entries => cases entries <;> simp only [Window.recover, stage]
  | _ => simp only [Window.recover, stage]

theorem Recovered.recover_eq (recovered : Recovered initial window) : window.recover medium alive turn = window := by
  simp [Window.recover, recovered.idle, recovered.mode]

theorem Outage.recover {past pending : List (WalEntry WriteOp)}
    (outage : Outage initial base past pending window) (orderly : window.Orderly medium cap (.recover turn)) :
    Faithful initial (window.recover medium alive turn) := by
  have ok := outage.stage
  obtain ⟨calm, orderly⟩ := orderly
  rw [recover_calm calm]
  cases stage : window.stage with
  | idle =>
    rw [stage] at ok
    simp only [Window.recover, stage]
    split
    · exact .inl ⟨base, past, pending, outage.enter (by simp) ok⟩
    · exact .inl ⟨base, past, pending, outage⟩
  | entered =>
    rw [stage] at ok
    simp only [Window.recover, stage]
    refine .inl ⟨base, past, pending, outage.enter outage.mode ⟨ok, [], ?_⟩⟩
    rw [outage.unprocessed, List.append_nil]
  | replaying entries =>
    rw [stage] at ok orderly
    cases entries with
    | nil =>
      simp only [Window.recover, stage]
      exact .inl ⟨base, past, pending, outage.enter outage.mode ok.1⟩
    | cons =>
      obtain ⟨shows, later, rfl⟩ := ok
      obtain ⟨after, done⟩ := Option.isSome_iff_exists.mp orderly
      simp only [Window.recover, stage, Backend.replayEntry, done]
      exact .inl ⟨_, _, _, outage.replayEntry shows done⟩
  | replayed =>
    rw [stage] at ok
    have shows := ok.1
    rw [outage.target] at shows
    simp only [Window.recover, stage]
    exact .inl ⟨base, past, pending, outage.enter outage.mode ⟨items_of_mirrors shows ok.2, apart_of_wired ok.2⟩⟩
  | syncing items =>
    cases items with
    | nil =>
      simp only [Window.recover, stage]
      exact .inl ⟨base, past, pending, outage.enter outage.mode trivial⟩
    | cons =>
      simp only [Window.recover, stage]
      exact .inl ⟨base, past, pending, outage.syncItem stage⟩
  | synced =>
    simp only [Window.recover, stage]
    exact .inl ⟨base, past, pending, outage.cleanup⟩
  | cleaned =>
    rw [stage] at orderly
    obtain ⟨quiet, replays⟩ := orderly
    rw [Window.DeltaReplays, outage.unprocessed] at replays
    simp only [Window.recover, stage]
    exact .inr (outage.finalize quiet replays)

theorem Recovered.landCall (recovered : Recovered initial window) (toRedis : writer.toRedis = true)
    (done : writer.call.supported = true → (writer.call.run window.redis).isSome) :
    Recovered initial (window.landCall medium cap now writer) := by
  unfold Window.landCall
  split
  · exact recovered
  · rename_i supported
    obtain ⟨after, ran⟩ := isSome_iff_exists.mp (done (by simpa using supported))
    simp only [ran]
    refine { recovered with shown := ?_ }
    rw [Window.acknowledged, map_append, applyAll_append, cells_run ran, recovered.shown]
    rfl

theorem step_land (chosen : window.writers[index]? = some writer) :
    window.step medium cap alive (.land index now) =
      Window.landCall medium cap { window with writers := window.writers.eraseIdx index } now writer := by
  simp only [Window.step, chosen]

theorem step_land_none (absent : window.writers[index]? = none) :
    window.step medium cap alive (.land index now) = window := by
  simp only [Window.step, absent]

theorem faithful_step (action : WindowAction) (faithful : Faithful initial window)
    (orderly : window.Orderly medium cap action) : Faithful initial (window.step medium cap alive action) := by
  rcases faithful with ⟨base, past, pending, outage⟩ | recovered
  · cases action with
    | check call =>
      have writers : ∀ writer ∈ window.writers ++ [⟨call, window.backend.mode = .redis⟩], writer.toRedis = false := by
        refine forall_mem_append.mpr ⟨outage.writers, ?_⟩
        exact forall_mem_singleton.mpr (decide_eq_false outage.mode)
      exact .inl ⟨base, past, pending, { outage with writers := writers }⟩
    | land index =>
      cases chosen : window.writers[index]? with
      | none =>
        rw [step_land_none chosen]
        exact .inl ⟨base, past, pending, outage⟩
      | some writer =>
        have left : Outage initial base past pending { window with writers := window.writers.eraseIdx index } :=
          { outage with
            writers := fun other member => outage.writers other (mem_of_mem_eraseIdx member) }
        have degraded := outage.writers writer (mem_of_getElem? chosen)
        have needs := orderly writer chosen
        simp only [degraded, Bool.false_eq_true, if_false] at needs
        rw [step_land chosen]
        cases supported : writer.call.supported with
        | false =>
          simp only [Window.landCall, supported, if_true]
          exact .inl ⟨base, past, pending, left⟩
        | true =>
          simp only [Window.landCall, supported, degraded, Bool.true_eq_false, Bool.false_eq_true, if_false]
          exact .inl ⟨base, past, _, left.landDegraded supported (needs supported)⟩
    | recover => exact outage.recover orderly
  · cases action with
    | check =>
      refine .inr { recovered with writers := forall_mem_append.mpr ⟨recovered.writers, ?_⟩ }
      exact forall_mem_singleton.mpr (decide_eq_true recovered.mode)
    | land index =>
      cases chosen : window.writers[index]? with
      | none =>
        rw [step_land_none chosen]
        exact .inr recovered
      | some writer =>
        have left : Recovered initial { window with writers := window.writers.eraseIdx index } :=
          { recovered with
            writers := fun other member => recovered.writers other (mem_of_mem_eraseIdx member) }
        have toRedis := recovered.writers writer (mem_of_getElem? chosen)
        rw [step_land chosen]
        refine .inr (left.landCall toRedis fun supported => ?_)
        simpa [toRedis] using orderly writer chosen supported
    | recover =>
      rw [Window.step, recovered.recover_eq]
      exact .inr recovered

theorem faithful_run (actions : List WindowAction) (faithful : Faithful initial window)
    (orderly : Window.OrderlyRun medium cap alive window actions) :
    Faithful initial (window.run medium cap alive actions) := by
  induction actions generalizing window with
  | nil => exact faithful
  | cons action rest ih => exact ih (faithful_step action faithful orderly.1) orderly.2

theorem acknowledged_writes_visible (window : Window) (drained : Drained window) (actions : List WindowAction)
    (orderly : Window.OrderlyRun medium cap alive window actions)
    (flipped : (window.run medium cap alive actions).backend.mode = .redis) (earlier later : List WriteOp) (op : WriteOp)
    (landed : (window.run medium cap alive actions).landed = earlier ++ op :: later) (place : Key × Cell)
    (content : Option Stored) (written : op.effect place = some content)
    (last : ∀ other ∈ later, other.effect place = none) :
    (window.run medium cap alive actions).redis.cells place = content := by
  obtain ⟨_, begun⟩ := outage_drained drained
  rcases faithful_run actions (.inl ⟨_, _, [], begun⟩) orderly with ⟨base, past, pending, outage⟩ | recovered
  · exact absurd flipped outage.mode
  · rw [recovered.shown, Window.acknowledged, landed, map_append, applyAll_append, map_cons, applyAll_cons,
      applyAll_untouched]
    · simp [apply, written]
    · rintro ⟨write, member, touches⟩
      obtain ⟨other, inside, rfl⟩ := mem_map.mp member
      exact touches (last other inside)

end

def freshWindow : Window where
  backend := .build {} 1 Table.empty
  redis := fun _ => none

def unitMedium : Medium where
  serializedSize _ := 1
  resync := id

theorem drained_freshWindow : Drained freshWindow where
  mode := rfl
  stage := rfl
  writers := rfl
  landed := rfl
  memory := rfl
  direct := rfl
  cursor := by decide
  log := by
    refine ⟨[], ⟨.nil, ?_, ?_, ?_, ?_, ?_, ?_⟩, ?_⟩ <;> simp [freshWindow, build, initOrRecover, empty]

def setCall : WriteCall :=
  .single (.set "k" (.text "v"))

theorem degraded_set_visible :
    (freshWindow.run unitMedium 0 (fun _ => true)
      ([.check setCall, .land 0 1] ++ List.replicate 9 .recover)).redis.cells ("k", .value) =
        some (.string (.scalar (.text "v"))) := by
  refine acknowledged_writes_visible freshWindow drained_freshWindow _ ?_ (by decide +kernel) [] [] (.set "k" (.text "v"))
    (by decide +kernel) _ _ (by decide) (by simp)
  refine ⟨trivial, ?_, ⟨trivial, trivial⟩, ⟨rfl, trivial⟩, ⟨trivial, rfl⟩, ⟨trivial, trivial⟩, ⟨trivial, trivial⟩,
    ⟨rfl, trivial⟩, ⟨rfl, trivial⟩, ⟨trivial, trivial⟩, ⟨rfl, rfl, rfl⟩, trivial⟩
  intro writer chosen _
  cases chosen
  refine ⟨by decide, ⟨trivial, _, rfl, trivial⟩, by decide, ?_⟩
  unfold Tracks.StoreRoomy
  decide

theorem late_writer_lost :
    let window := freshWindow.run unitMedium 0 (fun _ => true) ([.check setCall] ++ replicate 7 .recover ++ [.land 0 1])
    window.backend.mode = .redis ∧ window.writers.length = 0 ∧ window.landed = setCall.ops ∧
      window.redis.cells ("k", .value) = none := by
  decide +kernel

end Baldur.Storage
