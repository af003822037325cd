import Baldur.Lib.Ordered
import Baldur.Storage.WrittenCells

/-!
A backend that stays degraded answers like a Redis server given the same calls, as long as keys keep to one
kind between deletions and sorted sets only grow by members that come after those of their score.
-/

namespace Baldur.Storage

open List Option Table WriteOp

variable {other key : Key} {op : WriteOp} {scores : Scores}

def Ranks (first second : String × Int) : Prop :=
  first.2 < second.2 ∨ first.2 = second.2 ∧ first.1 < second.1

inductive Shown (redis : Redis) (memory : Memory) (key : Key) : Prop
  | absent (stored : redis key = none) (present : memory.find key = none) (noBlob : memory.blob key = none)
  | scalar (value : Scalar) (stored : redis key = some (.string (.scalar value)))
      (present : memory.find key = some (.scalar value)) (noBlob : memory.blob key = none)
  | hash (reference : Nat) (stored : redis key = Redis.hashOf (memory.hashes reference))
      (present : memory.find key = some (.hash reference)) (noBlob : memory.blob key = none)
  | zset (items : List (String × Int)) (scores : Scores) (stored : redis key = Redis.zsetOf scores)
      (present : memory.find key = some (.zset items)) (same : items.Perm scores.entries)
      (ordered : items.Pairwise Ranks) (noBlob : memory.blob key = none)
  | blob (bytes : List UInt8) (stored : redis key = some (.string (.blob bytes)))
      (present : memory.find key = none) (stores : memory.blob key = some bytes)

structure Mirrored (redis : Redis) (memory : Memory) : Prop where
  shown : ∀ key, Shown redis memory key
  owned : Owned memory

namespace Memory

variable (memory : Memory)

def HoldsHash (key : Key) : Prop :=
  memory.blob key = none ∧ ∀ value, memory.find key = some value → ∃ reference, value = .hash reference

def HoldsList (key : Key) : Prop :=
  memory.blob key = none ∧ ∀ value, memory.find key = some value → ∃ items, value = .zset items

def HoldsScalar (key : Key) : Prop :=
  memory.blob key = none ∧ ∀ value, memory.find key = some value → ∃ scalar, value = .scalar scalar

def Appends (key : Key) (mapping : Scores) : Prop :=
  (mapping.entries.Pairwise fun first second => first.2 = second.2 → first.1 < second.1) ∧
    ∀ items, memory.find key = some (.zset items) → ∀ old ∈ items, ∀ new ∈ mapping.entries,
      old.1 ≠ new.1 ∧ (old.2 = new.2 → old.1 < new.1)

def WithinBudget (cap : Nat) (key : Key) (blob : List UInt8) : Prop :=
  ((memory.blobs.filter (fun item => item.1 ≠ key) ++ [(key, blob)]).map fun item => item.2.length).sum ≤ cap

end Memory

open Memory Redis

def WriteOp.Fits (cap : Nat) (memory : Memory) : WriteOp → Prop
  | set key _ => memory.blob key = none
  | delete _ => True
  | hset key _ => memory.HoldsHash key
  | hdel key _ => memory.HoldsHash key
  | zadd key mapping => memory.HoldsList key ∧ memory.Appends key mapping
  | zrem key _ => memory.HoldsList key
  | setBlob key blob => memory.find key = none ∧ memory.WithinBudget cap key blob

def Redis.perform (redis : Redis) (op : WriteOp) : Redis :=
  (redis.execute op).getD redis

open Redis

section

variable {redis : Redis} {key : Key}

theorem assign_self (redis : Redis) (key : Key) (value : Option RedisValue) : redis.assign key value key = value := by
  simp [Redis.assign]

theorem assign_of_ne (redis : Redis) (value : Option RedisValue) (elsewhere : other ≠ key) :
    redis.assign key value other = redis other := by
  simp [Redis.assign, elsewhere]

variable {fields : Fields}

theorem hashOf_empty (empty : fields.entries = []) : hashOf fields = none := by
  simp [hashOf, empty]

theorem hashOf_of_ne (filled : fields.entries ≠ []) : hashOf fields = some (.hash fields) := by
  simp [hashOf, filled]

variable {scores : Scores}

theorem zsetOf_empty (empty : scores.entries = []) : zsetOf scores = none := by
  simp [zsetOf, empty]

theorem zsetOf_of_ne (filled : scores.entries ≠ []) : zsetOf scores = some (.zset scores) := by
  simp [zsetOf, filled]

theorem perform_hset (fields : Fields) (stored : redis key = hashOf fields) (mapping : Fields) :
    redis.perform (.hset key mapping) key = hashOf (fields.update mapping) := by
  simp only [perform, execute, Redis.hset]
  by_cases nothing : mapping.entries = []
  · rw [if_pos nothing, Option.getD_none, stored, Table.update, nothing, List.foldl_nil]
  · rw [if_neg nothing]
    by_cases empty : fields.entries = []
    · rw [hashOf_empty empty] at stored
      simp only [stored, Option.getD_some]
      rw [assign_self, Table.update_of_nil empty, hashOf_of_ne nothing]
    · rw [hashOf_of_ne empty] at stored
      simp only [stored, Option.getD_some]
      rw [assign_self, hashOf_of_ne (Table.entries_update_ne_nil fields nothing)]

theorem perform_zadd (scores : Scores) (stored : redis key = zsetOf scores) (mapping : Scores) :
    redis.perform (.zadd key mapping) key = zsetOf (scores.update mapping) := by
  simp only [perform, execute, Redis.zadd]
  by_cases nothing : mapping.entries = []
  · rw [if_pos nothing, Option.getD_none, stored, Table.update, nothing, List.foldl_nil]
  · rw [if_neg nothing]
    by_cases empty : scores.entries = []
    · rw [zsetOf_empty empty] at stored
      simp only [stored, Option.getD_some]
      rw [assign_self, Table.update_of_nil empty, zsetOf_of_ne nothing]
    · rw [zsetOf_of_ne empty] at stored
      simp only [stored, Option.getD_some]
      rw [assign_self, zsetOf_of_ne (Table.entries_update_ne_nil scores nothing)]

theorem perform_hdel (stored : redis key = hashOf fields) (field : String) :
    redis.perform (.hdel key field) key = hashOf (fields.erase field) := by
  simp only [perform, execute, Redis.hdel]
  by_cases empty : fields.entries = []
  · rw [hashOf_empty empty] at stored
    simp only [stored, getD_some]
    rw [hashOf_empty (by simp [erase, empty])]
  · rw [hashOf_of_ne empty] at stored
    simp only [stored, getD_some]
    rw [assign_self]

theorem entries_eraseAll (scores : Scores) (members : List String) :
    (members.foldl erase scores).entries = scores.entries.filter fun item => item.1 ∉ members := by
  induction members generalizing scores with
  | nil => simp
  | cons member rest ih =>
    rw [List.foldl_cons, ih, Table.erase, List.filter_filter]
    refine filter_congr fun item _ => ?_
    by_cases same : item.1 = member <;> simp [same]

theorem perform_zrem (stored : redis key = zsetOf scores) (members : List String) :
    redis.perform (.zrem key members) key = zsetOf (members.foldl Table.erase scores) := by
  simp only [perform, execute, Redis.zrem]
  by_cases nothing : members = []
  · rw [if_pos nothing, Option.getD_none, stored, nothing, List.foldl_nil]
  · rw [if_neg nothing]
    by_cases empty : scores.entries = []
    · rw [zsetOf_empty empty] at stored
      simp only [stored, Option.getD_some]
      rw [zsetOf_empty (by simp [entries_eraseAll, empty])]
    · rw [zsetOf_of_ne empty] at stored
      simp only [stored, Option.getD_some]
      rw [assign_self]

theorem perform_of_ne (redis : Redis) (elsewhere : other ≠ op.key) : redis.perform op other = redis other := by
  cases op with
  | hset | zadd =>
    simp only [perform, execute, Redis.hset, Redis.zadd]
    split
    · rfl
    · split
      · exact assign_of_ne redis _ elsewhere
      · exact assign_of_ne redis _ elsewhere
      · rfl
  | hdel =>
    simp only [perform, execute, Redis.hdel]
    split
    · rfl
    · exact assign_of_ne redis _ elsewhere
    · rfl
  | zrem =>
    simp only [perform, execute, Redis.zrem]
    split
    · rfl
    · split
      · rfl
      · exact assign_of_ne redis _ elsewhere
      · rfl
  | _ => exact assign_of_ne redis _ elsewhere

end

section

variable {items : List (String × Int)} {mapping : Scores}
  {redis : Redis} {memory after : Memory} {cap : Nat} {op : WriteOp}

theorem evict_eq {items : List (Key × List UInt8)} (fits : (items.map fun item => item.2.length).sum ≤ cap) :
    evict cap items = items := by
  cases items with
  | nil => rfl
  | cons => rw [evict, if_neg (by omega)]

theorem find_filter_ne (items : List (Key × List UInt8)) (key other : Key) :
    (items.filter fun item => item.1 ≠ key).find? (fun item => item.1 = other) =
      if other = key then none else items.find? fun item => item.1 = other := by
  rw [find?_filter]
  split
  · rename_i same
    subst same
    simp
  · rename_i different
    congr 1
    funext item
    by_cases here : item.1 = other
    · simp [here, different]
    · simp [here]

theorem blob_write (op : WriteOp) (fits : op.Fits cap memory) (done : memory.write cap op = some after) (other : Key) :
    after.blob other = match op with
      | .setBlob key blob => if other = key then some blob else memory.blob other
      | .delete key => if other = key then none else memory.blob other
      | _ => memory.blob other := by
  cases op with
  | set => cases done; rfl
  | hset =>
    simp only [write, Memory.applyHset] at done
    split at done <;> cases done <;> rfl
  | hdel =>
    cases done
    simp only [Memory.applyHdel]
    split <;> rfl
  | zadd =>
    simp only [write, Memory.applyZadd] at done
    split at done <;> cases done <;> rfl
  | zrem =>
    simp only [write, applyZrem] at done
    repeat' split at done
    all_goals first | cases done; rfl | cases done
  | delete =>
    cases done
    simp only [Memory.blob, Memory.applyDelete, find_filter_ne]
    split <;> rfl
  | setBlob key blob =>
    cases done
    simp only [Memory.blob, Memory.applySetBlob, evict_eq fits.2, List.find?_append, find_filter_ne]
    by_cases here : other = key
    · simp [here]
    · simp [here, Ne.symm here]

theorem Written.of_ne (owned : Owned memory) (written : Written memory after op) (elsewhere : other ≠ op.key) :
    after.find other = memory.find other ∧
      ∀ reference, memory.find other = some (.hash reference) → after.hashes reference = memory.hashes reference := by
  cases written with
  | scalar key value hashes next find | listed _ items members hashes next find
  | gone key hashes next find => exact ⟨(find other).trans (if_neg (Ne.symm elsewhere)), by simp [hashes]⟩
  | untouched _ hashes next find => exact ⟨find other, by simp [hashes]⟩
  | newHash key mapping absent hashes next find =>
    refine ⟨(find other).trans (if_neg (Ne.symm elsewhere)), fun reference present => ?_⟩
    have older := owned.allocated other reference present
    rw [hashes, if_neg (by omega)]
  | updated key mapping target there hashes next find | erased key field target there hashes next find =>
    refine ⟨find other, fun reference present => ?_⟩
    rw [hashes, if_neg]
    rintro rfl
    exact elsewhere (owned.single _ _ _ present there)

theorem Shown.of_same {redis' : Redis} (shown : Shown redis memory key)
    (stored : redis' key = redis key) (find : after.find key = memory.find key)
    (hashes : ∀ reference, memory.find key = some (.hash reference) → after.hashes reference = memory.hashes reference)
    (blobs : after.blob key = memory.blob key) : Shown redis' after key := by
  cases shown with
  | absent none present noBlob => exact .absent (stored.trans none) (find.trans present) (blobs.trans noBlob)
  | scalar value same present noBlob =>
    exact .scalar value (stored.trans same) (find.trans present) (blobs.trans noBlob)
  | hash reference same present noBlob =>
    refine .hash reference ?_ (find.trans present) (blobs.trans noBlob)
    rw [stored, same, hashes reference present]
  | zset items scores same present perm ordered noBlob =>
    exact .zset items scores (stored.trans same) (find.trans present) perm ordered (blobs.trans noBlob)
  | blob bytes same present stores => exact .blob bytes (stored.trans same) (find.trans present) (blobs.trans stores)

theorem hash_of_shown (shown : Shown redis memory key) (holds : memory.HoldsHash key) :
    (redis key = none ∧ memory.find key = none) ∨
      ∃ reference, redis key = hashOf (memory.hashes reference) ∧ memory.find key = some (.hash reference) := by
  cases shown with
  | absent stored present => exact .inl ⟨stored, present⟩
  | hash reference stored present => exact .inr ⟨reference, stored, present⟩
  | blob bytes stored present stores => simp [holds.1] at stores
  | scalar value stored present noBlob | zset items scores stored present same ordered noBlob =>
    obtain ⟨reference, other⟩ := holds.2 _ present
    cases other

theorem list_of_shown (shown : Shown redis memory key) (holds : memory.HoldsList key) :
    (redis key = none ∧ memory.find key = none) ∨
      ∃ items scores, redis key = zsetOf scores ∧ memory.find key = some (.zset items) ∧
        items.Perm scores.entries ∧ items.Pairwise Ranks := by
  cases shown with
  | absent stored present => exact .inl ⟨stored, present⟩
  | zset items scores stored present same ordered =>
    exact .inr ⟨items, scores, stored, present, same, ordered⟩
  | blob bytes stored present stores => simp [holds.1] at stores
  | scalar value stored present noBlob | hash reference stored present noBlob =>
    obtain ⟨items, other⟩ := holds.2 _ present
    cases other

theorem sortByScore_ranks
    (ties : items.Pairwise fun first second => first.2 = second.2 → first.1 < second.1) :
    (sortByScore items).Pairwise Ranks := by
  exact pairwise_insertionSort_ties (fun _ _ => Iff.rfl) ties

theorem zadd_shown (same : items.Perm scores.entries) (ordered : items.Pairwise Ranks)
    (ties : mapping.entries.Pairwise fun first second => first.2 = second.2 → first.1 < second.1)
    (fresh : ∀ old ∈ items, ∀ new ∈ mapping.entries, old.1 ≠ new.1 ∧ (old.2 = new.2 → old.1 < new.1)) :
    (sortByScore (items ++ mapping.entries)).Perm (scores.update mapping).entries ∧
      (sortByScore (items ++ mapping.entries)).Pairwise Ranks := by
  constructor
  · rw [entries_update_of_fresh]
    · exact (perm_insertionSort _ _).trans (same.append_right _)
    · intro new member known
      obtain ⟨old, isOld, named⟩ := mem_map.mp known
      exact (fresh old (same.mem_iff.mpr isOld) new member).1 named
  · refine sortByScore_ranks (pairwise_append.mpr ⟨ordered.imp ?_, ties, ?_⟩)
    · rintro first second (less | ⟨_, before⟩) tied
      · omega
      · exact before
    · exact fun old isOld new isNew => (fresh old isOld new isNew).2

attribute [local simp] Memory.setHash

theorem shown_hset {mapping : Fields} (shown : Shown redis memory key) (fits : (hset key mapping).Fits cap memory) :
    ∃ after, memory.write cap (.hset key mapping) = some after ∧
      Shown (redis.perform (.hset key mapping)) after key := by
  rcases hash_of_shown shown fits with ⟨stored, present⟩ | ⟨reference, stored, present⟩
  · have done : memory.write cap (.hset key mapping) = some ({ memory.assign key (.hash memory.nextReference) with
        nextReference := memory.nextReference + 1 }.setHash memory.nextReference (update empty mapping)) := by
      simp only [write, applyHset, present]
    refine ⟨_, done, .hash memory.nextReference ?_ ((memory.find_assign key key _).trans (if_pos rfl)) ?_⟩
    · have performed := perform_hset empty (stored.trans (hashOf_empty rfl).symm) mapping
      simpa using performed
    · exact (blob_write _ fits done key).trans fits.1
  · have done : memory.write cap (.hset key mapping) =
        some (memory.setHash reference ((memory.hashes reference).update mapping)) := by
      simp only [write, applyHset, present]
    refine ⟨_, done, .hash reference ?_ present ?_⟩
    · simpa using perform_hset _ stored mapping
    · exact (blob_write _ fits done key).trans fits.1

theorem shown_hdel {field : String} (shown : Shown redis memory key) (fits : (hdel key field).Fits cap memory) :
    Shown (redis.perform (.hdel key field)) (memory.applyHdel key field) key := by
  have noBlob := (blob_write (.hdel key field) fits rfl key).trans fits.1
  rcases hash_of_shown shown fits with ⟨stored, present⟩ | ⟨reference, stored, present⟩
  · have same : memory.applyHdel key field = memory := by simp [Memory.applyHdel, present]
    rw [same] at noBlob ⊢
    refine .absent ?_ present noBlob
    simp [perform, execute, Redis.hdel, stored]
  · have same : memory.applyHdel key field = memory.setHash reference ((memory.hashes reference).erase field) := by
      simp [applyHdel, present]
    rw [same] at noBlob ⊢
    refine .hash reference ?_ present noBlob
    simpa using perform_hdel stored field

theorem shown_zadd (shown : Shown redis memory key) (fits : (zadd key mapping).Fits cap memory) :
    ∃ after, memory.write cap (.zadd key mapping) = some after ∧
      Shown (redis.perform (.zadd key mapping)) after key := by
  rcases list_of_shown shown fits.1 with ⟨stored, present⟩ | ⟨items, scores, stored, present, same, ordered⟩
  · have done : memory.write cap (.zadd key mapping) =
        some (memory.assign key (.zset (sortByScore mapping.entries))) := by
      simp only [write, applyZadd, present]
    refine ⟨_, done, .zset _ mapping ?_ ((memory.find_assign key key _).trans (if_pos rfl)) ?_ ?_ ?_⟩
    · have performed := perform_zadd empty (stored.trans (zsetOf_empty rfl).symm) mapping
      rwa [update_of_nil rfl] at performed
    · exact perm_insertionSort _ _
    · exact sortByScore_ranks fits.2.1
    · exact (blob_write _ fits done key).trans fits.1.1
  · have done : memory.write cap (.zadd key mapping) =
        some (memory.assign key (.zset (sortByScore (items ++ mapping.entries)))) := by
      simp only [write, applyZadd, present]
    obtain ⟨perm, sorted⟩ := zadd_shown same ordered fits.2.1 (fits.2.2 items present)
    refine ⟨_, done, .zset _ (scores.update mapping) (perform_zadd _ stored mapping)
      ((memory.find_assign key key _).trans (if_pos rfl)) perm sorted ?_⟩
    exact (blob_write _ fits done key).trans fits.1.1

theorem shown_zrem {members : List String} (shown : Shown redis memory key)
    (fits : (WriteOp.zrem key members).Fits cap memory) :
    ∃ after, memory.write cap (.zrem key members) = some after ∧
      Shown (redis.perform (.zrem key members)) after key := by
  rcases list_of_shown shown fits with ⟨stored, present⟩ | ⟨items, scores, stored, present, same, ordered⟩
  · have done : memory.write cap (.zrem key members) = some memory := by
      simp only [write, applyZrem, present, ite_self]
    refine ⟨_, done, .absent ?_ present fits.1⟩
    simp only [perform, execute, Redis.zrem, stored]
    split <;> exact stored
  · by_cases nothing : members = []
    · have done : memory.write cap (.zrem key members) = some memory := by
        simp only [write, applyZrem, nothing, if_true]
      refine ⟨_, done, .zset items scores ?_ present same ordered fits.1⟩
      simpa [nothing] using perform_zrem stored members
    · have done : memory.write cap (.zrem key members) =
          some (memory.assign key (.zset (items.filter fun item => item.1 ∉ members))) := by
        simp only [write, applyZrem, if_neg nothing, present]
      refine ⟨_, done, .zset _ (members.foldl Table.erase scores) (perform_zrem stored members)
        ((memory.find_assign key key _).trans (if_pos rfl)) ?_ (ordered.sublist List.filter_sublist) ?_⟩
      · rw [entries_eraseAll]
        exact same.filter _
      · exact (blob_write _ fits done key).trans fits.1

theorem shown_write (shown : Shown redis memory op.key) (fits : op.Fits cap memory) :
    ∃ after, memory.write cap op = some after ∧ Shown (redis.perform op) after op.key := by
  cases op with
  | set key value =>
    refine ⟨_, rfl, .scalar value (assign_self _ _ _) ?_ fits⟩
    exact (memory.find_assign key key _).trans (if_pos rfl)
  | delete key =>
    refine ⟨_, rfl, .absent (assign_self _ _ _) ?_ ?_⟩
    · exact (memory.find_applyDelete key key).trans (if_pos rfl)
    · exact (blob_write (.delete key) fits rfl key).trans (if_pos rfl)
  | setBlob key blob =>
    refine ⟨_, rfl, .blob blob (assign_self _ _ _) fits.1 ?_⟩
    exact (blob_write (.setBlob key blob) fits rfl key).trans (if_pos rfl)
  | hset => exact shown_hset shown fits
  | hdel => exact ⟨_, rfl, shown_hdel shown fits⟩
  | zadd => exact shown_zadd shown fits
  | zrem => exact shown_zrem shown fits

theorem Mirrored.write (mirrored : Mirrored redis memory) (fits : op.Fits cap memory) :
    ∃ after, memory.write cap op = some after ∧ Mirrored (redis.perform op) after := by
  obtain ⟨after, done, here⟩ := shown_write (mirrored.shown op.key) fits
  have written := written_of_write done
  refine ⟨after, done, fun other => ?_, owned_written mirrored.owned written⟩
  by_cases same : other = op.key
  · exact same ▸ here
  · obtain ⟨find, hashes⟩ := written.of_ne mirrored.owned same
    refine (mirrored.shown other).of_same (perform_of_ne redis same) find hashes ?_
    rw [blob_write op fits done]
    cases op <;> first | rfl | exact if_neg same

end

section

variable {redis : Redis} {memory : Memory} {cap : Nat} {codec : Codec} {medium : Medium}

def WriteOp.Sent : WriteOp → Prop
  | zadd _ mapping => mapping.entries ≠ []
  | _ => True

def FitsAll (cap : Nat) : Memory → List WriteOp → Prop
  | _, [] => True
  | memory, op :: rest =>
      op.Fits cap memory ∧ op.Sent ∧ ∀ after, memory.write cap op = some after → FitsAll cap after rest

def WriteCall.Fits (cap : Nat) (memory : Memory) : WriteCall → Prop
  | single op => op.Fits cap memory
  | batchWriteOps ops => FitsAll cap memory ops

def Memory.Counts (memory : Memory) (key : Key) : Prop :=
  memory.blob key = none ∧ ∀ value, memory.find key = some value →
    ∃ number, value = .scalar (.number number) ∧ -2 ^ 63 ≤ number ∧ number < 2 ^ 63 - 1

def StorageCall.Fits (cap : Nat) (memory : Memory) : StorageCall → Prop
  | write call => call.supported = true → (∀ op ∈ call.ops, op.key.synthetic = false) ∧ call.Fits cap memory
  | incr key => key.synthetic = false ∧ memory.Counts key

theorem pipe_eq_perform (mirrored : Mirrored redis memory) (batched : op.inBatch = true)
    (fits : op.Fits cap memory) (sent : op.Sent) : redis.pipe op = some (redis.perform op) := by
  cases op with
  | delete => rfl
  | setBlob => rfl
  | zadd key mapping =>
    have nonempty : mapping.entries ≠ [] := sent
    simp only [Redis.pipe, perform, execute, Redis.zadd, if_neg nonempty]
    rcases list_of_shown (mirrored.shown key) fits.1 with ⟨stored, _⟩ | ⟨items, scores, stored, _⟩
    · simp [stored]
    · unfold zsetOf at stored
      split at stored <;> simp [stored]
  | zrem key =>
    simp only [Redis.pipe, perform, execute, Redis.zrem]
    split
    · rfl
    · rcases list_of_shown (mirrored.shown key) fits with ⟨stored, _⟩ | ⟨items, scores, stored, _⟩
      · simp [stored]
      · unfold zsetOf at stored
        split at stored <;> simp [stored]
  | _ => cases batched

theorem Mirrored.batch {ops : List WriteOp} (mirrored : Mirrored redis memory)
    (supported : ops.all inBatch = true) (fits : FitsAll cap memory ops) :
    ∃ served, ops.foldlM (fun (before : Redis) op => before.pipe op) redis = some served ∧
      Mirrored served (memory.writeAll cap ops).1 := by
  induction ops generalizing redis memory with
  | nil => exact ⟨redis, rfl, mirrored⟩
  | cons op rest ih =>
    rw [all_cons, Bool.and_eq_true] at supported
    obtain ⟨first, sent, others⟩ := fits
    obtain ⟨after, done, next⟩ := mirrored.write first
    obtain ⟨served, ran, last⟩ := ih next supported.2 (others after done)
    refine ⟨served, ?_, ?_⟩
    · rw [foldlM_cons, pipe_eq_perform mirrored supported.1 first sent]
      exact ran
    · rw [writeAll, done]
      exact last

attribute [local simp] Backend.degradedWrite Memory.incremented

theorem degradedWrite_memory (backend : Backend) (now : Nat) {call : WriteCall} (supported : call.supported = true)
    (real : ∀ op ∈ call.ops, op.key.synthetic = false) :
    (backend.degradedWrite medium cap now call).1.memory = (backend.memory.writeAll cap call.ops).1 := by
  simp [supported, map_short real]

variable {backend : Backend}

theorem Mirrored.single (mirrored : Mirrored redis backend.memory) (op : WriteOp)
    (real : op.key.synthetic = false) (fits : op.Fits cap backend.memory) (now : Nat) :
    Mirrored (redis.perform op) (backend.degradedWrite medium cap now (.single op)).1.memory := by
  obtain ⟨after, done, next⟩ := mirrored.write fits
  have all : ∀ other ∈ (WriteCall.single op).ops, other.key.synthetic = false := forall_mem_singleton.mpr real
  rw [degradedWrite_memory backend now rfl all, WriteCall.ops, writeAll, done]
  exact next

theorem Mirrored.call {call : StorageCall} (mirrored : Mirrored redis backend.memory)
    (fits : call.Fits cap backend.memory) (now : Nat) :
    Mirrored (redis.serve codec call) (backend.degradedCall codec medium cap now call).memory := by
  cases call with
  | write call =>
    cases supported : call.supported with
    | false => simpa [serve, Backend.degradedCall, supported] using mirrored
    | true =>
      simp only [serve, supported, if_true]
      cases call with
      | single op => exact mirrored.single op ((fits supported).1 op mem_cons_self) (fits supported).2 now
      | batchWriteOps =>
        obtain ⟨real, fits⟩ := fits supported
        obtain ⟨served, ran, last⟩ := mirrored.batch supported fits
        rw [WriteCall.run, ran, getD_some, Backend.degradedCall, degradedWrite_memory backend now supported real]
        exact last
  | incr key =>
    -- An increment is a `set` on both sides.
    obtain ⟨real, fits⟩ := fits
    have counted (value : Int) (next : backend.memory.incremented codec key = some value)
        (served : redis.incr codec key = some (redis.perform (.set key (.number value)))) :
        Mirrored (redis.serve codec (.incr key)) (backend.degradedCall codec medium cap now (.incr key)).memory := by
      simp only [serve, Backend.degradedCall, Key.short_eq real, next, served, getD_some]
      exact mirrored.single (.set key (.number value)) real fits.1 now
    cases mirrored.shown key with
    | absent stored present =>
      exact counted 1 (by simp [present]) (by simp [incr, stored, perform, execute])
    | scalar value stored present =>
      obtain ⟨number, same, least, most⟩ := fits.2 _ present
      cases same
      refine counted (number + 1) (by simp [present]) ?_
      simp only [incr, stored, if_pos (And.intro least most)]
      rfl
    | blob bytes stored present stores => simp [fits.1] at stores
    | hash reference stored present =>
      obtain ⟨number, same, _⟩ := fits.2 _ present
      cases same
    | zset items scores stored present =>
      obtain ⟨number, other, _⟩ := fits.2 _ present
      cases other

def FitsRun (codec : Codec) (medium : Medium) (cap : Nat) : Backend → List (Nat × StorageCall) → Prop
  | _, [] => True
  | backend, (now, call) :: rest =>
      call.Fits cap backend.memory ∧ FitsRun codec medium cap (backend.degradedCall codec medium cap now call) rest

theorem Mirrored.calls (calls : List (Nat × StorageCall)) (mirrored : Mirrored redis backend.memory)
    (fits : FitsRun codec medium cap backend calls) :
    Mirrored (redis.serveAll codec calls) (backend.degradedCalls codec medium cap calls).memory := by
  induction calls generalizing redis backend with
  | nil => exact mirrored
  | cons call rest ih => exact ih (mirrored.call fits.1 call.1) fits.2

end

section

variable {redis : Redis} {memory : Memory} {codec : Codec} {α β : Type}

/-- The read asks for the kind the key has, with indexes both sides take the same way. -/
def Query.Fits (memory : Memory) : Query → Prop
  | ⟨key, request⟩ => key.synthetic = false ∧ match request with
    | .get => memory.HoldsScalar key
    | .hget _ | .hgetall => memory.HoldsHash key
    | .zrange _ stop | .zrevrange _ stop => memory.HoldsList key ∧ -1 ≤ stop
    | .zrangebyscore _ _ offset count =>
        memory.HoldsList key ∧ 0 ≤ offset ∧ ∀ number, count = some number → 0 ≤ number
    | .zcard | .zcount _ _ => memory.HoldsList key
    | .getBlob => memory.find key = none

variable (items : List α)

theorem mapM_map_some : (items.map some).mapM id = some items := by
  induction items with
  | nil => rfl
  | cons item rest ih => simp [ih]

theorem slice_map (change : α → β) (items : List α) (start : Int) (stop : Option Int) :
    slice (items.map change) start stop = (slice items start stop).map change := by
  simp [slice, map_drop, map_take]

theorem drop_take_eq {first last start count : Nat} (starts : last ≤ first ∨ first = start)
    (counts : last - first = count) : (items.take last).drop first = (items.drop start).take count := by
  rcases starts with empty | rfl
  · have none : count = 0 := by omega
    rw [none, take_zero]
    exact drop_eq_nil_of_le (by rw [length_take]; omega)
  · rw [drop_take, counts]

theorem slice_eq_range (start : Int) {stop : Int} (least : -1 ≤ stop) :
    slice items start (stopIndex stop) = Redis.range items start stop := by
  have last : ((stopIndex stop).elim items.length fun index =>
      if index < 0 then (index + items.length).toNat else min index.toNat items.length) =
        min (if stop < 0 then stop + items.length else stop) (items.length - 1) + 1 := by
    unfold stopIndex
    by_cases counted : 0 ≤ stop
    · rw [if_pos counted, Option.elim_some, if_neg (by omega), if_neg (by omega)]
      omega
    · rw [if_neg counted, Option.elim_none, if_pos (by omega)]
      omega
  simp only [slice, Redis.range]
  generalize (if stop < 0 then stop + items.length else stop) = final at last ⊢
  generalize ((stopIndex stop).elim items.length fun index =>
    if index < 0 then (index + items.length).toNat else min index.toNat items.length) = bound at last ⊢
  rcases lt_or_ge start 0 with back | forward
  · rw [if_pos back, if_pos back]
    split
    · refine List.drop_eq_nil_of_le ?_
      rw [List.length_take]
      omega
    · refine drop_take_eq items ?_ ?_ <;> omega
  · rw [if_neg (not_lt.mpr forward), if_neg (not_lt.mpr forward)]
    split
    · refine List.drop_eq_nil_of_le ?_
      rw [List.length_take]
      omega
    · refine drop_take_eq items ?_ ?_ <;> omega

theorem slice_eq_limit {offset : Int} {count : Option Int} (least : 0 ≤ offset)
    (counts : ∀ number, count = some number → 0 ≤ number) :
    slice items offset (count.map (offset + ·)) = limit items offset (count.getD (-1)) := by
  simp only [slice, limit, if_neg (show ¬ offset < 0 by omega)]
  cases count with
  | none =>
    simp only [map_none, elim_none, getD_none, take_length, if_pos (show (-1 : Int) < 0 by decide)]
    rcases le_total offset.toNat items.length with inside | beyond
    · rw [min_eq_left inside]
    · rw [min_eq_right beyond, drop_length, drop_of_length_le beyond]
  | some number =>
    have positive := counts number rfl
    simp only [map_some, elim_some, getD_some, if_neg (show ¬ number < 0 by omega),
      if_neg (show ¬ offset + number < 0 by omega)]
    rcases le_total offset.toNat items.length with inside | beyond
    · rw [drop_take, min_eq_left inside]
      rcases le_total (offset + number).toNat items.length with short | long
      · congr 1
        omega
      · rw [take_of_length_le (by rw [length_drop]; omega),
          take_of_length_le (by rw [length_drop]; omega)]
    · rw [drop_of_length_le beyond, take_nil]
      exact drop_eq_nil_of_le (by rw [length_take]; omega)

theorem ranked_eq {items : List (String × Int)} (same : items.Perm scores.entries)
    (ordered : items.Pairwise Ranks) : ranked scores = items := by
  have total : Std.Total fun first second : String × Int =>
      first.2 < second.2 ∨ first.2 = second.2 ∧ first.1 ≤ second.1 := ⟨fun first second => by
    rcases lt_trichotomy first.2 second.2 with less | equal | more
    · exact .inl (.inl less)
    · exact (le_total first.1 second.1).imp (fun before => .inr ⟨equal, before⟩) fun before => .inr ⟨equal.symm, before⟩
    · exact .inr (.inl more)⟩
  have transitive : IsTrans (String × Int) fun first second =>
      first.2 < second.2 ∨ first.2 = second.2 ∧ first.1 ≤ second.1 := ⟨fun first second third early late => by
    rcases early with less | ⟨equal, before⟩ <;> rcases late with less' | ⟨equal', before'⟩
    · exact .inl (less.trans less')
    · exact .inl (equal' ▸ less)
    · exact .inl (equal ▸ less')
    · exact .inr ⟨equal.trans equal', before.trans before'⟩⟩
  refine ((perm_insertionSort _ _).trans same.symm).eq_of_pairwise ?_ (pairwise_insertionSort _ _) (ordered.imp ?_)
  · rintro first second _ _ (less | ⟨equal, before⟩) (less' | ⟨equal', before'⟩)
    · omega
    · omega
    · omega
    · exact Prod.ext (le_antisymm before before') equal
  · rintro first second (less | ⟨equal, before⟩)
    · exact .inl less
    · exact .inr ⟨equal, before.le⟩

theorem list_answers (shown : Shown redis memory key) (holds : memory.HoldsList key) :
    ∃ items, redis.sortedSet key = some items ∧ memory.iterate key = some (items.map some) ∧
      memory.sliceable key = some (items.map some) := by
  rcases list_of_shown shown holds with ⟨stored, present⟩ | ⟨items, scores, stored, present, same, ordered⟩
  · exact ⟨[], by simp [Redis.sortedSet, stored], by simp [Memory.iterate, present],
      by simp [Memory.sliceable, Memory.iterate, present]⟩
  · refine ⟨items, ?_, by simp [Memory.iterate, present], by simp [Memory.sliceable, Memory.iterate, present]⟩
    unfold zsetOf at stored
    split at stored
    · rename_i none
      rw [none, List.perm_nil] at same
      simp [Redis.sortedSet, stored, same]
    · simp [Redis.sortedSet, stored, ranked_eq same ordered]

theorem selected_of_iterate {items : List (String × Int)}
    (iterates : memory.iterate key = some (items.map some)) (least most : Int) :
    memory.selected key least most = some (items.filter (inWindow least most)) := by
  simp only [selected, iterates, bind_some, mapM_map_some, map_some]

theorem answers_agree {query : Query} (mirrored : Mirrored redis memory) (fits : query.Fits memory) :
    memory.answer query = redis.answer codec query := by
  obtain ⟨key, request⟩ := query
  obtain ⟨real, fits⟩ := fits
  simp only [Memory.answer, Redis.answer]
  rw [Key.short_eq real]
  cases request with
  | get =>
    cases mirrored.shown key with
    | absent stored present
    | scalar value stored present => simp [stored, present]
    | blob bytes stored present stores => simp [fits.1] at stores
    | hash reference stored present
    | zset items scores stored present =>
      obtain ⟨scalar, other⟩ := fits.2 _ present
      cases other
  | hget =>
    rcases hash_of_shown (mirrored.shown key) fits with ⟨stored, present⟩ | ⟨reference, stored, present⟩
    · simp [stored, present]
    · unfold hashOf at stored
      split at stored
      · rename_i none
        simp [stored, present, Table.find, none]
      · simp [stored, present]
  | hgetall =>
    rcases hash_of_shown (mirrored.shown key) fits with ⟨stored, present⟩ | ⟨reference, stored, present⟩
    · simp [stored, present]
    · unfold hashOf at stored
      split at stored
      · rename_i none
        have empty : memory.hashes reference = Table.empty := Table.ext none
        simp [stored, present, empty]
      · simp [stored, present]
  | zrange start =>
    obtain ⟨items, stored, _, slices⟩ := list_answers (mirrored.shown key) fits.1
    simp only [stored, slices, Option.map_some, slice_map, Memory.membersOf,
      Redis.membersOf, Option.bind_some, mapM_map_some, slice_eq_range items start fits.2]
  | zrevrange start =>
    obtain ⟨items, stored, iterates, _⟩ := list_answers (mirrored.shown key) fits.1
    simp only [stored, iterates, Option.map_some, ← List.map_reverse, slice_map,
      Memory.membersOf, Redis.membersOf, Option.bind_some, mapM_map_some, slice_eq_range items.reverse start fits.2]
  | zrangebyscore least most =>
    obtain ⟨items, stored, iterates, _⟩ := list_answers (mirrored.shown key) fits.1
    simp only [stored, selected_of_iterate iterates, Option.map_some, slice_map,
      Redis.membersOf, slice_eq_limit (items.filter (inWindow least most)) fits.2.1 fits.2.2]
  | zcard =>
    obtain ⟨items, stored, iterates, _⟩ := list_answers (mirrored.shown key) fits
    simp [stored, iterates]
  | zcount =>
    obtain ⟨items, stored, iterates, _⟩ := list_answers (mirrored.shown key) fits
    simp [stored, selected_of_iterate iterates]
  | getBlob =>
    cases mirrored.shown key with
    | absent stored present noBlob => simp [stored, noBlob]
    | blob bytes stored present stores => simp [stored, stores]
    | scalar value stored present
    | hash reference stored present
    | zset items scores stored present =>
      simp [present] at fits

theorem mirrored_empty (stores : memory.values = Table.empty) (blobs : memory.blobs = []) :
    Mirrored (fun _ => none) memory := by
  have absent (key : Key) : memory.find key = none := by
    simp [Memory.find, stores]
  have noBlob (key : Key) : memory.blob key = none := by
    simp [Memory.blob, blobs]
  refine ⟨fun key => .absent rfl (absent key) (noBlob key), ⟨?_, ?_⟩⟩ <;> simp [absent]

end

def plainCodec : Codec where
  serialize _ := []
  deserialize _ := none
  integer _ := none
  int _ := none

def memberOf (name : String) (score : Int) : Scores :=
  Table.put Table.empty (name, score)

def zaddCall (name : String) (score : Int) : Nat × StorageCall :=
  (1, .write (.single (.zadd "pending" (memberOf name score))))

def emptyBackend : Backend :=
  .build {} 1 Table.empty

def wideMedium : Medium where
  serializedSize _ := 1
  resync := id

end Baldur.Storage
