import Baldur.Storage.WindowCore

/-!
What the commands of Redis and the degraded writes do, cell by cell.
-/

namespace Baldur.Storage

open Baldur.Wal Overwrite Redis WriteOp Option Table

variable {key : Key} {op : WriteOp} {place : Key × Cell}

section

variable {redis after : Redis}

theorem cells_assign (key : Key) (value : Option RedisValue) (place : Key × Cell) :
    (redis.assign key value).cells place =
      if place.1 = key then cells (fun _ => value) place else redis.cells place := by
  by_cases here : place.1 = key <;> simp [cells, assign, here]

theorem cells_hashOf (fields : Fields) (place : Key × Cell) :
    cells (fun _ => hashOf fields) place = cells (fun _ => some (.hash fields)) place := by
  unfold hashOf
  split
  · rename_i none
    obtain ⟨key, cell⟩ := place
    cases cell <;> simp [cells, find, none]
  · rfl

theorem cells_zsetOf (scores : Scores) (place : Key × Cell) :
    cells (fun _ => zsetOf scores) place = cells (fun _ => some (.zset scores)) place := by
  unfold zsetOf
  split
  · rename_i none
    obtain ⟨key, cell⟩ := place
    cases cell <;> simp [cells, find, none]
  · rfl

theorem find_eraseAll (scores : Scores) (members : List String) (name : String) :
    (members.foldl erase scores).find name = if name ∈ members then none else scores.find name := by
  induction members generalizing scores with
  | nil => simp
  | cons member rest ih =>
    rw [List.foldl_cons, ih, find_erase]
    by_cases here : member = name
    · simp [here]
    · simp [here, Ne.symm here]

theorem cells_changed (op : WriteOp) {value : Option RedisValue}
    (content : ∀ cell, cells (fun _ => value) (op.key, cell) = (op.onCell cell).getD (redis.cells (op.key, cell))) :
    (redis.assign op.key value).cells = apply redis.cells op.effect := by
  funext place
  obtain ⟨name, cell⟩ := place
  rw [cells_assign]
  by_cases here : name = op.key
  · subst here
    simp [apply, effect, content]
  · simp [apply, effect, here]

theorem cells_unchanged (op : WriteOp) (content : ∀ cell, redis.cells (op.key, cell) =
      (op.onCell cell).getD (redis.cells (op.key, cell))) : redis.cells = apply redis.cells op.effect := by
  have same : redis.assign op.key (redis op.key) = redis := by
    funext other
    by_cases here : other = op.key <;> simp [assign, here]
  have changed : (redis.assign op.key (redis op.key)).cells = apply redis.cells op.effect := cells_changed op content
  rwa [same] at changed

attribute [local simp] Table.find_update WriteOp.key onCell

theorem cells_hset {mapping : Fields} (done : redis.hset key mapping = some after) :
    after.cells = apply redis.cells (hset key mapping).effect := by
  unfold Redis.hset at done
  split at done
  · cases done
  · split at done
    · rename_i absent
      cases done
      refine cells_changed (.hset key mapping) fun cell => ?_
      cases cell <;> simp [cells, absent]
      rename_i field
      cases mapping.find field <;> rfl
    · rename_i fields present
      cases done
      refine cells_changed (.hset key mapping) fun cell => ?_
      cases cell <;> simp [cells, present]
      rename_i field
      cases mapping.find field <;> simp
    · cases done

theorem cells_hdel {field : String} (done : redis.hdel key field = some after) :
    after.cells = apply redis.cells (hdel key field).effect := by
  unfold Redis.hdel at done
  split at done
  · rename_i absent
    cases done
    refine cells_unchanged (.hdel key field) fun cell => ?_
    cases cell <;> simp [cells, absent]
    split <;> rfl
  · rename_i fields present
    cases done
    refine cells_changed (.hdel key field) fun cell => ?_
    rw [cells_hashOf]
    cases cell <;> simp [cells, present, find_erase]
    rename_i other
    by_cases same : field = other
    · simp [same]
    · simp [same, Ne.symm same]
  · cases done

theorem cells_zadd {mapping : Scores} (done : redis.zadd key mapping = some after) :
    after.cells = apply redis.cells (zadd key mapping).effect := by
  unfold Redis.zadd at done
  split at done
  · cases done
  · split at done
    · rename_i absent
      cases done
      refine cells_changed (.zadd key mapping) fun cell => ?_
      cases cell <;> simp [cells, absent]
      rename_i member
      cases mapping.find member <;> rfl
    · rename_i scores present
      cases done
      refine cells_changed (.zadd key mapping) fun cell => ?_
      cases cell <;> simp [cells, present]
      rename_i member
      cases mapping.find member <;> simp
    · cases done

theorem cells_zrem {members : List String} (done : redis.zrem key members = some after) :
    after.cells = apply redis.cells (zrem key members).effect := by
  unfold Redis.zrem at done
  split at done
  · cases done
  · split at done
    · rename_i absent
      cases done
      refine cells_unchanged (.zrem key members) fun cell => ?_
      cases cell <;> simp [cells, absent]
      split <;> rfl
    · rename_i scores present
      cases done
      refine cells_changed (.zrem key members) fun cell => ?_
      rw [cells_zsetOf]
      cases cell <;> simp [cells, present, find_eraseAll]
      split <;> simp
    · cases done

theorem cells_execute (done : redis.execute op = some after) : after.cells = apply redis.cells op.effect := by
  cases op with
  | set key value =>
    cases done
    exact cells_changed (.set key value) fun cell => by cases cell <;> rfl
  | setBlob key blob =>
    cases done
    exact cells_changed (.setBlob key blob) fun cell => by cases cell <;> rfl
  | delete key =>
    cases done
    exact cells_changed (.delete key) fun cell => by cases cell <;> rfl
  | hset => exact cells_hset done
  | hdel => exact cells_hdel done
  | zadd => exact cells_zadd done
  | zrem => exact cells_zrem done

theorem cells_pipe (done : redis.pipe op = some after) : after.cells = apply redis.cells op.effect := by
  cases op with
  | zrem =>
    simp only [pipe] at done
    split at done
    · rename_i none
      cases done
      refine cells_unchanged _ fun cell => ?_
      cases cell <;> simp [none]
    · exact cells_zrem done
  | _ => exact cells_execute done

def WriteOp.FieldNamed : WriteOp → Prop
  | hdel _ field => field ≠ ""
  | _ => True

theorem cells_replay (named : op.FieldNamed) (done : redis.replay op = some after) :
    after.cells = apply redis.cells op.effect := by
  cases op with
  | hdel key field =>
    simp only [replay, if_neg (show field ≠ "" from named)] at done
    exact cells_hdel done
  | _ => exact cells_pipe done

theorem cells_pipeAll {ops : List WriteOp} (done : ops.foldlM (fun before op => before.pipe op) redis = some after) :
    after.cells = applyAll redis.cells (ops.map effect) := by
  induction ops generalizing redis with
  | nil =>
    cases done
    rfl
  | cons op rest ih =>
    rw [List.foldlM_cons] at done
    obtain ⟨middle, first, others⟩ := bind_eq_some_iff.mp done
    rw [ih others, cells_pipe first]
    rfl

theorem cells_run {call : WriteCall} (done : call.run redis = some after) :
    after.cells = applyAll redis.cells (call.ops.map effect) := by
  cases call with
  | single => exact cells_execute done
  | batchWriteOps => exact cells_pipeAll done

end

structure Mirrors (content : Content) (memory : Memory) : Prop where
  scalar : ∀ key value, memory.find key = some (.scalar value) → ∀ cell,
    content (key, cell) = if cell = .value then some (.string (.scalar value)) else none
  hash : ∀ key reference, memory.find key = some (.hash reference) → ∀ name item,
    (memory.hashes reference).find name = some item → content (key, .field name) = some (.text item.2)

structure Owned (memory : Memory) : Prop where
  allocated : ∀ key reference, memory.find key = some (.hash reference) → reference < memory.nextReference
  single : ∀ first second reference, memory.find first = some (.hash reference) →
    memory.find second = some (.hash reference) → first = second

structure Wired (memory : Memory) : Prop extends Owned memory where
  stated : ∀ key reference, memory.find key = some (.hash reference) → isBreakerKey key = true →
    ((memory.hashes reference).find "state").isSome

/-- What a degraded operation must not do: name an empty field, take a breaker's state away or start a breaker
without one, or store a blob over a value the memory keeps showing. -/
def WriteOp.Plain (memory : Memory) : WriteOp → Prop
  | hdel key field => field ≠ "" ∧ (isBreakerKey key = true → field ≠ "state")
  | hset key mapping => isBreakerKey key = true → memory.find key = none → (mapping.find "state").isSome
  | setBlob key _ => ∀ value, memory.find key = some value → ∃ items, value = .zset items
  | _ => True

namespace Memory

variable (memory : Memory)

theorem find_assign (key other : Key) (value : MemoryValue) :
    (memory.assign key value).find other = if key = other then some value else memory.find other := by
  simp only [find, assign, find_put]
  split <;> rfl

theorem find_applyDelete (key other : Key) :
    (memory.applyDelete key).find other = if key = other then none else memory.find other := by
  simp only [find, applyDelete, find_erase]
  split <;> rfl

end Memory

theorem apply_of_ne (elsewhere : place.1 ≠ op.key) (content : Content) :
    apply content op.effect place = content place := by
  simp [apply, effect, elsewhere]

theorem apply_at (content : Content) (cell : Cell) :
    apply content op.effect (op.key, cell) = (op.onCell cell).getD (content (op.key, cell)) := by
  simp [apply, effect]

inductive Written (memory after : Memory) : WriteOp → Prop
  | scalar (key : Key) (value : Scalar) (hashes : after.hashes = memory.hashes)
      (next : after.nextReference = memory.nextReference)
      (find : ∀ other, after.find other = if key = other then some (.scalar value) else memory.find other) :
      Written memory after (.set key value)
  | listed (op : WriteOp) (items : List (String × Int)) (members : ∀ name, op.onCell (.field name) = none)
      (hashes : after.hashes = memory.hashes) (next : after.nextReference = memory.nextReference)
      (find : ∀ other, after.find other = if op.key = other then some (.zset items) else memory.find other) :
      Written memory after op
  | gone (key : Key) (hashes : after.hashes = memory.hashes)
      (next : after.nextReference = memory.nextReference)
      (find : ∀ other, after.find other = if key = other then none else memory.find other) :
      Written memory after (.delete key)
  | untouched (op : WriteOp) (hashes : after.hashes = memory.hashes)
      (next : after.nextReference = memory.nextReference) (find : ∀ other, after.find other = memory.find other)
      (clear : op.Plain memory → ∀ value, memory.find op.key = some value →
        (∃ items, value = .zset items) ∨ (∀ cell, op.onCell cell = none) ∨
          (∃ scalar, value = .scalar scalar) ∧ ∀ cell content, op.onCell cell = some content →
            content = none ∧ cell ≠ .value) :
      Written memory after op
  | newHash (key : Key) (mapping : Fields) (absent : memory.find key = none)
      (hashes : ∀ reference, after.hashes reference =
        if reference = memory.nextReference then Table.update Table.empty mapping else memory.hashes reference)
      (next : after.nextReference = memory.nextReference + 1)
      (find : ∀ other, after.find other =
        if key = other then some (.hash memory.nextReference) else memory.find other) :
      Written memory after (.hset key mapping)
  | updated (key : Key) (mapping : Fields) (reference : Nat) (present : memory.find key = some (.hash reference))
      (hashes : ∀ other, after.hashes other =
        if other = reference then (memory.hashes reference).update mapping else memory.hashes other)
      (next : after.nextReference = memory.nextReference) (find : ∀ other, after.find other = memory.find other) :
      Written memory after (.hset key mapping)
  | erased (key : Key) (field : String) (reference : Nat) (present : memory.find key = some (.hash reference))
      (hashes : ∀ other, after.hashes other =
        if other = reference then (memory.hashes reference).erase field else memory.hashes other)
      (next : after.nextReference = memory.nextReference) (find : ∀ other, after.find other = memory.find other) :
      Written memory after (.hdel key field)

theorem written_of_write {cap : Nat} {memory after : Memory}
    (done : memory.write cap op = some after) : Written memory after op := by
  cases op with
  | set key value =>
    cases done
    exact .scalar key value rfl rfl (memory.find_assign key · _)
  | delete key =>
    cases done
    exact .gone key rfl rfl (memory.find_applyDelete key)
  | setBlob =>
    cases done
    exact .untouched _ rfl rfl (fun _ => rfl) fun plain value present => .inl (plain value present)
  | hset key mapping =>
    simp only [Memory.write, Memory.applyHset] at done
    split at done
    · rename_i absent
      cases done
      exact .newHash key mapping absent (fun _ => rfl) rfl (memory.find_assign key · _)
    · rename_i reference present
      cases done
      exact .updated key mapping reference present (fun _ => rfl) rfl fun _ => rfl
    · cases done
  | hdel key field =>
    cases done
    by_cases hashed : ∃ reference, memory.find key = some (.hash reference)
    · obtain ⟨reference, present⟩ := hashed
      have same : memory.applyHdel key field = memory.setHash reference ((memory.hashes reference).erase field) := by
        simp [Memory.applyHdel, present]
      exact .erased key field reference present (fun _ => by rw [same]; rfl) (by rw [same]; rfl)
        fun _ => by rw [same]; rfl
    · have same : memory.applyHdel key field = memory := by
        unfold Memory.applyHdel
        split
        · exact absurd ⟨_, ‹_›⟩ hashed
        · rfl
      refine .untouched _ (by rw [same]) (by rw [same]) (by simp [same]) fun _ value present => ?_
      cases value with
      | hash reference => exact absurd ⟨reference, present⟩ hashed
      | zset items => exact .inl ⟨items, rfl⟩
      | scalar scalar =>
        refine .inr (.inr ⟨⟨scalar, rfl⟩, fun cell content touched => ?_⟩)
        cases cell <;> simp [onCell] at touched ⊢
        exact touched.2.symm
  | zadd key =>
    simp only [Memory.write, Memory.applyZadd] at done
    split at done <;> cases done
    all_goals exact .listed _ _ (fun _ => rfl) rfl rfl (memory.find_assign key · _)
  | zrem key =>
    simp only [Memory.write, Memory.applyZrem] at done
    split at done
    · rename_i none
      cases done
      refine .untouched _ rfl rfl (fun _ => rfl) fun _ value _ => .inr (.inl fun cell => ?_)
      cases cell <;> simp [onCell, none]
    · split at done
      · rename_i absent
        cases done
        refine .untouched _ rfl rfl (fun _ => rfl) fun _ value here => ?_
        rw [WriteOp.key, absent] at here
        cases here
      · cases done
        exact .listed _ _ (fun _ => rfl) rfl rfl (memory.find_assign key · _)
      · split at done <;> cases done
        exact .listed _ _ (fun _ => rfl) rfl rfl (memory.find_assign key · _)
      · cases done
      · split at done <;> cases done
        exact .listed _ _ (fun _ => rfl) rfl rfl (memory.find_assign key · _)

section

variable {value : Option MemoryValue} {reference : Nat} {content : Content} {memory after : Memory} {op : WriteOp}

section

variable (mirrors : Mirrors content memory)

include mirrors

theorem Mirrors.of_key (find : ∀ other, op.key ≠ other →
      after.find other = memory.find other)
    (kept : ∀ other reference, op.key ≠ other → memory.find other = some (.hash reference) →
      after.hashes reference = memory.hashes reference)
    (scalar : ∀ value, after.find op.key = some (.scalar value) → ∀ cell,
      apply content op.effect (op.key, cell) = if cell = .value then some (.string (.scalar value)) else none)
    (hash : ∀ reference, after.find op.key = some (.hash reference) → ∀ name item,
      (after.hashes reference).find name = some item →
        apply content op.effect (op.key, .field name) = some (.text item.2)) :
    Mirrors (apply content op.effect) after where
  scalar key value present cell := by
    by_cases here : op.key = key
    · subst here
      exact scalar value present cell
    · rw [find key here] at present
      rw [apply_of_ne (Ne.symm here)]
      exact mirrors.scalar key value present cell
  hash key reference present name item listed := by
    by_cases here : op.key = key
    · subst here
      exact hash reference present name item listed
    · rw [find key here] at present
      rw [kept key reference here present] at listed
      rw [apply_of_ne (Ne.symm here)]
      exact mirrors.hash key reference present name item listed

theorem Mirrors.of_replaced (notHash : ∀ reference, value ≠ some (.hash reference)) (hashes : after.hashes = memory.hashes)
    (find : ∀ other, after.find other = if op.key = other then value else memory.find other)
    (scalar : ∀ held, value = some (.scalar held) → ∀ cell,
      apply content op.effect (op.key, cell) = if cell = .value then some (.string (.scalar held)) else none) :
    Mirrors (apply content op.effect) after := by
  have here : after.find op.key = value := (find op.key).trans (if_pos rfl)
  refine mirrors.of_key (fun other apart => (find other).trans (if_neg apart)) (fun _ _ _ _ => by rw [hashes]) ?_ ?_
  · exact fun held present => scalar held (here.symm.trans present)
  · exact fun reference present => absurd (here.symm.trans present) (notHash reference)

theorem Mirrors.of_hash (wired : Wired memory) {fields : Fields} (present : memory.find op.key = some (.hash reference))
    (hashes : ∀ other, after.hashes other = if other = reference then fields else memory.hashes other)
    (find : ∀ other, after.find other = memory.find other)
    (shown : ∀ name item, fields.find name = some item →
      apply content op.effect (op.key, .field name) = some (.text item.2)) :
    Mirrors (apply content op.effect) after := by
  refine mirrors.of_key (fun other _ => find other) ?_ ?_ ?_
  · intro other reference' apart there
    have different : reference' ≠ reference := by
      rintro rfl
      exact apart (wired.single _ _ _ present there)
    rw [hashes, if_neg different]
  · intro other there
    rw [find, present] at there
    cases there
  · intro reference' there name item stored
    rw [find, present] at there
    cases there
    rw [hashes, if_pos rfl] at stored
    exact shown name item stored

theorem mirrors_written (wired : Wired memory) (plain : op.Plain memory)
    (written : Written memory after op) : Mirrors (apply content op.effect) after := by
  cases written with
  | scalar key value hashes next find =>
    refine mirrors.of_replaced (by simp) hashes find fun held same cell => ?_
    cases same
    rw [apply_at]
    cases cell <;> rfl
  | listed _ items members hashes next find
  | gone key hashes next find => exact mirrors.of_replaced (by simp) hashes find (by simp)
  | untouched _ hashes next find clear =>
    refine mirrors.of_key (fun other _ => find other) (fun _ _ _ _ => by rw [hashes]) ?_ ?_
    · intro value present cell
      rw [find] at present
      rw [apply_at]
      rcases clear plain _ present with ⟨items, same⟩ | none | ⟨_, blank⟩
      · cases same
      · rw [none cell]
        exact mirrors.scalar _ value present cell
      · cases touched : op.onCell cell with
        | none => exact mirrors.scalar _ value present cell
        | some content =>
          obtain ⟨rfl, other⟩ := blank cell content touched
          simp [other]
    · intro reference present name item stored
      rw [find] at present
      rw [hashes] at stored
      rw [apply_at]
      rcases clear plain _ present with ⟨items, same⟩ | none | ⟨⟨scalar, same⟩, _⟩
      · cases same
      · rw [none]
        exact mirrors.hash _ reference present name item stored
      · cases same
  | newHash key mapping absent hashes next find =>
    refine mirrors.of_key (fun other apart => (find other).trans (if_neg apart)) ?_ ?_ ?_
    · intro other reference _ present
      have older := wired.allocated other reference present
      rw [hashes, if_neg (by omega)]
    · intro other present
      rw [find, WriteOp.key, if_pos rfl] at present
      cases present
    · intro reference present name item stored
      rw [find, WriteOp.key, if_pos rfl] at present
      cases present
      rw [hashes, if_pos rfl, Table.find_update, Table.find_empty, Option.or_none] at stored
      rw [apply_at]
      simp [onCell, stored]
  | updated key mapping reference present hashes next find =>
    refine mirrors.of_hash wired present hashes find fun name item stored => ?_
    rw [Table.find_update] at stored
    rw [apply_at]
    cases changed : mapping.find name with
    | none =>
      rw [changed, Option.none_or] at stored
      simpa [onCell, WriteOp.key, changed] using mirrors.hash key reference present name item stored
    | some =>
      rw [changed, Option.some_or] at stored
      cases stored
      simp [onCell, changed]
  | erased key field reference present hashes next find =>
    refine mirrors.of_hash wired present hashes find fun name item stored => ?_
    rw [Table.find_erase] at stored
    rw [apply_at]
    by_cases same : field = name
    · rw [if_pos same] at stored
      cases stored
    · rw [if_neg same] at stored
      simpa [onCell, WriteOp.key, Ne.symm same] using mirrors.hash key reference present name item stored

end

theorem Owned.of_find (owned : Owned memory) (next : memory.nextReference ≤ after.nextReference)
    (find : ∀ key reference, after.find key = some (.hash reference) → memory.find key = some (.hash reference)) :
    Owned after where
  allocated key reference present := (owned.allocated key reference (find key reference present)).trans_le next
  single first second reference one two :=
    owned.single first second reference (find first reference one) (find second reference two)

theorem hash_of_replaced {other : Key} (notHash : ∀ reference, value ≠ some (.hash reference))
    (find : after.find other = if key = other then value else memory.find other)
    (present : after.find other = some (.hash reference)) : memory.find other = some (.hash reference) := by
  rw [find] at present
  split at present
  · exact absurd present (notHash reference)
  · exact present

theorem owned_written (owned : Owned memory) (written : Written memory after op) : Owned after := by
  cases written with
  | scalar key value hashes next find | listed _ items members hashes next find
  | gone key hashes next find =>
    exact owned.of_find next.ge fun other _ => hash_of_replaced (by simp) (find other)
  | untouched _ hashes next find =>
    exact owned.of_find next.ge fun other _ present => find other ▸ present
  | updated key mapping reference present hashes next find
  | erased key field reference present hashes next find =>
    exact owned.of_find next.ge fun other _ there => find other ▸ there
  | newHash key mapping absent hashes next find =>
    -- The new reference is above every other, so it names no other key's dictionary.
    refine ⟨fun other reference present => ?_, fun first second reference one two => ?_⟩
    · rw [find] at present
      split at present
      · cases present
        omega
      · have older := owned.allocated other reference present
        omega
    · rw [find] at one two
      split at one <;> split at two
      · exact ‹key = first›.symm.trans ‹key = second›
      · cases one
        exact absurd (owned.allocated _ _ two) (lt_irrefl _)
      · cases two
        exact absurd (owned.allocated _ _ one) (lt_irrefl _)
      · exact owned.single _ _ _ one two

theorem wired_written (wired : Wired memory) (plain : op.Plain memory) (written : Written memory after op) :
    Wired after := by
  refine ⟨owned_written wired.toOwned written, fun other reference present breaker => ?_⟩
  cases written with
  | scalar key value hashes next find | listed _ items members hashes next find
  | gone key hashes next find =>
    rw [hashes]
    exact wired.stated other reference (hash_of_replaced (by simp) (find other) present) breaker
  | untouched _ hashes next find =>
    rw [hashes]
    exact wired.stated other reference (find other ▸ present) breaker
  | newHash key mapping absent hashes next find =>
    rw [find] at present
    split at present
    · rename_i here
      subst here
      cases present
      rw [hashes, if_pos rfl, find_update, find_empty, or_none]
      exact plain breaker absent
    · have older := wired.allocated other reference present
      rw [hashes, if_neg (by omega)]
      exact wired.stated other reference present breaker
  | updated key mapping target there hashes next find =>
    have stated := wired.stated other reference (find other ▸ present) breaker
    rw [hashes]
    split
    · rename_i same
      subst same
      rw [find_update]
      cases mapping.find "state" with
      | none => exact stated
      | some => rfl
    · exact stated
  | erased key field target there hashes next find =>
    rw [find] at present
    have stated := wired.stated other reference present breaker
    rw [hashes]
    split
    · rename_i same
      subst same
      obtain rfl := wired.single _ _ _ present there
      rw [find_erase, if_neg (plain.2 breaker)]
      exact stated
    · exact stated

end

end Baldur.Storage
