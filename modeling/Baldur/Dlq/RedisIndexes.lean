import Baldur.Dlq.RedisCore
import Baldur.Lib.Sequential
import Baldur.Lib.Words

/-!
The sorted sets mirror the blobs: an entry is in the global set, the set of its domain, of its status and of
both, scored by its creation instant.
-/

namespace Baldur.Dlq

open Prog

open FailedOperationData RedisDlq IndexKey List Option Table

variable {id : String} {world : RedisWorld} {writes : List RedisWrite} {entry updated : Entry}

theorem statusText_inj {first second : FailedOperationStatus} (same : first.text = second.text) : first = second := by
  cases first <;> cases second <;> first | rfl | exact absurd same (by decide)

variable (status : FailedOperationStatus)

theorem colon_notMem_statusText : ':' ∉ status.text.toList := by
  cases status <;> decide

theorem colon_notMem_family (key : IndexKey) : ':' ∉ key.family.toList := by
  cases key <;> simp only [family] <;> decide

theorem indexKey_text_injective : Function.Injective IndexKey.text := by
  intro first second same
  have letters := congrArg String.toList same
  simp only [IndexKey.text, String.toList_append, List.append_assoc, List.append_cancel_left_eq] at letters
  obtain ⟨families, qualifiers⟩ := Words.word_inj (colon_notMem_family first) (colon_notMem_family second)
    (by cases first.qualifier <;> [exact .inl rfl; exact .inr (by simp)])
    (by cases second.qualifier <;> [exact .inl rfl; exact .inr (by simp)]) letters
  have family : first.family = second.family := String.toList_inj.mp families
  have qualifier : first.qualifier = second.qualifier := by
    cases left : first.qualifier <;> cases right : second.qualifier <;>
      simp [left, right, String.toList_inj] at qualifiers ⊢
    exact qualifiers
  cases first <;> cases second <;> first | rfl | exact absurd family (by simp only [IndexKey.family]; decide) | skip
  · rename_i status status'
    exact congrArg _ (statusText_inj (by simpa [IndexKey.qualifier] using qualifier))
  · simpa [IndexKey.qualifier] using qualifier
  · rename_i status domain status' domain'
    simp only [IndexKey.qualifier, Option.some.injEq] at qualifier
    have composite := congrArg String.toList qualifier
    simp only [String.toList_append, List.append_assoc] at composite
    obtain ⟨statuses, domains⟩ := Words.word_inj (colon_notMem_statusText status)
      (colon_notMem_statusText status') (Or.inr (by simp)) (Or.inr (by simp)) composite
    have sameStatus := statusText_inj (String.toList_inj.mp statuses)
    have sameDomain : domain = domain' := by
      simpa [String.toList_inj] using domains
    rw [sameStatus, sameDomain]

namespace RedisWorld

theorem find_apply (world : RedisWorld) (write : RedisWrite) (id : String) :
    (world.apply write).find id = match write with
      | .setBlob entry => if entry.id = id then some entry else world.find id
      | .delete other => if other = id then none else world.find id
      | _ => world.find id := by
  cases write with
  | setBlob entry => exact find_put world.blobs entry id
  | delete other => exact find_erase world.blobs other id
  | zadd => rfl
  | zrem => rfl

attribute [local simp] RedisWorld.score apply

theorem score_apply (world : RedisWorld) (write : RedisWrite) (key : IndexKey) (member : String) :
    (world.apply write).score key member = match write with
      | .zadd other added score =>
        if key = other ∧ added = member then some score else world.score key member
      | .zrem other removed => if key = other ∧ removed = member then none else world.score key member
      | _ => world.score key member := by
  cases write with
  | setBlob => rfl
  | delete => rfl
  | zadd other added =>
    by_cases here : key = other
    · subst here
      by_cases same : added = member <;> simp [find_put, same]
    · simp [here]
  | zrem other removed =>
    by_cases here : key = other
    · subst here
      by_cases same : removed = member <;> simp [find_erase, same]
    · simp [here]

end RedisWorld

def homes (entry : Entry) : List IndexKey :=
  [.all, .byDomain entry.domain, statusKey entry.status, .statusDomain entry.status entry.domain]

def homeScore (blob : Option Entry) (key : IndexKey) : Option Time :=
  match blob with
  | none => none
  | some entry => if key ∈ homes entry then entry.createdAt else none

/-- Each id is in the sets its blob names and in no other; the registry of domains is no set of ids. -/
structure Mirrored (world : RedisWorld) : Prop where
  placed : ∀ id key, key ≠ .domains → world.score key id = homeScore (world.find id) key
  dated : ∀ id entry, world.find id = some entry → entry.createdAt.isSome = true
  domained : ∀ id entry, world.find id = some entry → entry.domain ≠ ""
  unused : ∀ seq, world.nextSeq ≤ seq → world.find (world.namespaceText ++ ":" ++ seq.repr) = none

theorem statusKey_replaying : statusKey .replaying = .status .replaying := by
  rfl

theorem statusKey_inj {first second : FailedOperationStatus} : statusKey first = statusKey second ↔ first = second := by
  cases first <;> cases second <;> simp [statusKey]

theorem statusKey_ne_all : statusKey status ≠ .all := by
  cases status <;> simp [statusKey]

theorem statusKey_ne_byDomain (domain : String) : statusKey status ≠ .byDomain domain := by
  cases status <;> simp [statusKey]

theorem statusKey_ne_statusDomain (other : FailedOperationStatus) (domain : String) :
    statusKey status ≠ .statusDomain other domain := by
  cases status <;> simp [statusKey]

def RedisWrite.concerns (id : String) : RedisWrite → Prop
  | .setBlob entry => entry.id = id
  | .delete other => other = id
  | .zadd key member _ => member = id ∨ key = .domains
  | .zrem _ member => member = id

namespace RedisWorld

theorem find_applyAll_of_ne {other : String} (apart : other ≠ id) (writes : List RedisWrite)
    (world : RedisWorld) (own : ∀ write ∈ writes, write.concerns id) :
    (world.applyAll writes).find other = world.find other := by
  refine foldlRecOn (motive := fun after => find after other = world.find other) writes _ rfl
    fun after same write member => ?_
  have own := own write member
  rw [find_apply, ← same]
  cases write with
  | setBlob entry =>
    have named : entry.id = id := own
    simp [named, apart.symm]
  | delete removed =>
    have named : removed = id := own
    simp [named, apart.symm]
  | zadd => rfl
  | zrem => rfl

theorem score_applyAll_of_ne {other : String} (apart : other ≠ id) {key : IndexKey}
    (indexed : key ≠ .domains) (writes : List RedisWrite) (world : RedisWorld)
    (own : ∀ write ∈ writes, write.concerns id) :
    (world.applyAll writes).score key other = world.score key other := by
  refine foldlRecOn (motive := fun after => score after key other = world.score key other) writes _ rfl
    fun after same write member => ?_
  have own := own write member
  rw [score_apply, ← same]
  cases write with
  | setBlob => rfl
  | delete => rfl
  | zadd target member =>
    refine if_neg ?_
    rintro ⟨rfl, rfl⟩
    rcases own with same | registry
    · exact apart same
    · exact indexed registry
  | zrem target member =>
    refine if_neg ?_
    rintro ⟨rfl, rfl⟩
    exact apart own

theorem applyAll_ids (writes : List RedisWrite) (world : RedisWorld) :
    (world.applyAll writes).namespaceText = world.namespaceText ∧ (world.applyAll writes).nextSeq = world.nextSeq := by
  induction writes generalizing world with
  | nil => exact ⟨rfl, rfl⟩
  | cons write rest ih =>
    obtain ⟨text, seq⟩ := ih (world.apply write)
    cases write <;> exact ⟨text, seq⟩

end RedisWorld

open RedisDlq RedisWorld RedisWrite

theorem mirrored_applyAll (mirrored : Mirrored world) (id : String) (own : ∀ write ∈ writes, write.concerns id)
    (blob : Option Entry) (stored : (world.applyAll writes).find id = blob)
    (placed : ∀ key, key ≠ .domains → (world.applyAll writes).score key id = homeScore blob key)
    (dated : ∀ entry, blob = some entry → entry.createdAt.isSome = true)
    (domained : ∀ entry, blob = some entry → entry.domain ≠ "")
    (unused : ∀ seq, world.nextSeq ≤ seq → id ≠ world.namespaceText ++ ":" ++ seq.repr ∨ blob = none) :
    Mirrored (world.applyAll writes) := by
  refine ⟨?_, ?_, ?_, ?_⟩
  · intro other key indexed
    by_cases same : other = id
    · subst same
      rw [placed key indexed, stored]
    · rw [score_applyAll_of_ne same indexed writes world own,
        find_applyAll_of_ne same writes world own]
      exact mirrored.placed other key indexed
  · intro other entry found
    by_cases same : other = id
    · subst same
      exact dated entry (stored.symm.trans found)
    · rw [find_applyAll_of_ne same writes world own] at found
      exact mirrored.dated other entry found
  · intro other entry found
    by_cases same : other = id
    · subst same
      exact domained entry (stored.symm.trans found)
    · rw [find_applyAll_of_ne same writes world own] at found
      exact mirrored.domained other entry found
  · intro seq later
    rw [(world.applyAll_ids writes).1]
    rw [(world.applyAll_ids writes).2] at later
    by_cases same : world.namespaceText ++ ":" ++ seq.repr = id
    · rcases unused seq later with apart | absent
      · exact absurd same.symm apart
      · rw [same, stored, absent]
    · rw [find_applyAll_of_ne same writes world own]
      exact mirrored.unused seq later

attribute [local simp] statusKey_ne_statusDomain

theorem homeScore_moved (domain : updated.domain = entry.domain)
    (created : updated.createdAt = entry.createdAt) {score : Time} (dated : entry.createdAt = some score)
    (key : IndexKey) :
    (if key = .statusDomain updated.status entry.domain then some score
      else if key = .statusDomain entry.status entry.domain then none
      else if key = statusKey updated.status then some score
      else if key = statusKey entry.status then none
      else homeScore (some entry) key) = homeScore (some updated) key := by
  simp only [homeScore, homes, domain, created, dated, mem_cons, not_mem_nil, or_false]
  by_cases composite : key = .statusDomain updated.status entry.domain
  · simp [composite]
  · by_cases left : key = .statusDomain entry.status entry.domain
    · subst left
      simp [composite, (statusKey_ne_statusDomain _ _ _).symm]
    · by_cases entered : key = statusKey updated.status
      · subst entered
        simp
      · by_cases gone : key = statusKey entry.status
        · subst gone
          have moved : entry.status ≠ updated.status := fun same => entered (by rw [same])
          simp [statusKey_ne_all, statusKey_ne_byDomain, statusKey_inj, moved]
        · simp [composite, left, entered, gone]

section

variable {world : RedisWorld} {entry updated : Entry}

section

variable (mirrored : Mirrored world) (found : world.find entry.id = some entry)

include mirrored found

attribute [local simp] applyAll concerns find_apply deletionMoves releaseMoves acquisitionMoves
  statusKey_replaying score_apply statusMoves whenDomain

theorem mirrored_setBlob (named : updated.id = entry.id) (status : updated.status = entry.status)
    (domain : updated.domain = entry.domain) (created : updated.createdAt = entry.createdAt) :
    Mirrored (world.applyAll [.setBlob updated]) := by
  have same : ∀ key, homeScore (some updated) key = homeScore (some entry) key := by
    intro key
    have together : homes updated = homes entry := by simp only [homes, status, domain]
    simp only [homeScore, together, created]
  refine mirrored_applyAll mirrored entry.id ?_ (some updated) ?_ ?_ ?_ ?_ ?_
  · simp [named]
  · simp [named]
  · intro key indexed
    simp only [applyAll, foldl_cons, foldl_nil, score_apply]
    rw [mirrored.placed _ key indexed, found, same]
  · rintro _ ⟨⟩
    rw [created]
    exact mirrored.dated _ entry found
  · rintro _ ⟨⟩
    rw [domain]
    exact mirrored.domained _ entry found
  · intro seq later
    refine .inl fun fresh => ?_
    have absent := mirrored.unused seq later
    rw [← fresh, found] at absent
    cases absent

theorem mirrored_moves (domain : updated.domain = entry.domain) (created : updated.createdAt = entry.createdAt)
    (instant : Time)
    (own : entry.domain ≠ "" → ∀ write ∈ writes, write.concerns entry.id)
    (stored : entry.domain ≠ "" → (world.applyAll writes).find entry.id = some updated)
    (scores : entry.domain ≠ "" → ∀ key, (world.applyAll writes).score key entry.id =
      if key = .statusDomain updated.status entry.domain then some (entry.createdAtScore instant)
      else if key = .statusDomain entry.status entry.domain then none
      else if key = statusKey updated.status then some (entry.createdAtScore instant)
      else if key = statusKey entry.status then none
      else world.score key entry.id) : Mirrored (world.applyAll writes) := by
  have domained := mirrored.domained _ entry found
  obtain ⟨score, dated⟩ := isSome_iff_exists.mp (mirrored.dated _ entry found)
  have scored : entry.createdAtScore instant = score := by
    simp [createdAtScore, dated]
  refine mirrored_applyAll mirrored entry.id (own domained) (some updated) (stored domained) ?_ ?_ ?_ ?_
  · intro key indexed
    rw [scores domained, mirrored.placed _ key indexed, found, scored]
    exact homeScore_moved domain created dated key
  · rintro _ ⟨⟩
    rw [created, dated]
    rfl
  · rintro _ ⟨⟩
    rw [domain]
    exact domained
  · intro seq later
    refine .inl fun fresh => ?_
    have absent := mirrored.unused seq later
    rw [← fresh, found] at absent
    cases absent

section

variable (named : updated.id = entry.id) (domain : updated.domain = entry.domain)
  (created : updated.createdAt = entry.createdAt)

include named domain created

theorem mirrored_statusMoves (instant : Time) :
    Mirrored (world.applyAll (statusMoves entry updated (entry.createdAtScore instant))) := by
  refine mirrored_moves mirrored found domain created instant ?_ ?_ ?_ <;> intro domained <;>
    simp [domained, named]

theorem mirrored_acquisitionMoves (replaying : updated.status = .replaying) (instant : Time) :
    Mirrored (world.applyAll (acquisitionMoves entry updated (entry.createdAtScore instant))) := by
  refine mirrored_moves mirrored found domain created instant ?_ ?_ ?_ <;> intro domained <;>
    simp [domained, named, replaying]

theorem mirrored_releaseMoves (replaying : entry.status = .replaying) (instant : Time) :
    Mirrored (world.applyAll (releaseMoves entry updated (entry.createdAtScore instant))) := by
  refine mirrored_moves mirrored found domain created instant ?_ ?_ ?_ <;> intro domained <;>
    simp [domained, named, replaying]

end

theorem mirrored_deletionMoves : Mirrored (world.applyAll (deletionMoves entry)) := by
  have domained := mirrored.domained _ entry found
  refine mirrored_applyAll mirrored entry.id ?_ none ?_ ?_ ?_ ?_ ?_
  · simp [domained]
  · simp [domained]
  · intro key indexed
    have before := mirrored.placed entry.id key indexed
    rw [found] at before
    simp only [homeScore, homes, mem_cons, not_mem_nil, or_false] at before
    simp [domained, before, homeScore]
    tauto
  · simp
  · simp
  · exact fun seq later => .inr rfl

end

theorem mirrored_creationMoves (entry : Entry) (mirrored : Mirrored world) (domained : entry.domain ≠ "")
    (pending : entry.status = .pending) {instant : Time} (created : entry.createdAt = some instant)
    (named : entry.id = world.namespaceText ++ ":" ++ world.nextSeq.repr) :
    Mirrored (({ world with nextSeq := world.nextSeq + 1 } : RedisWorld).applyAll (creationMoves entry instant)) := by
  have advanced : Mirrored { world with nextSeq := world.nextSeq + 1 } := by
    refine { mirrored with unused := ?_ }
    intro seq later
    exact mirrored.unused seq (Nat.le_of_succ_le later)
  have absent : world.find entry.id = none := by
    rw [named]
    exact mirrored.unused world.nextSeq (Nat.le_refl _)
  refine mirrored_applyAll advanced entry.id ?_ (some entry) ?_ ?_ ?_ ?_ ?_
  · simp [creationMoves, concerns]
  · simp [creationMoves, applyAll, find_apply]
  · intro key indexed
    have before : ({ world with nextSeq := world.nextSeq + 1 } : RedisWorld).score key entry.id = none := by
      rw [advanced.placed entry.id key indexed]
      change homeScore (world.find entry.id) key = none
      rw [absent]
      rfl
    have home : statusKey .pending = .pending := rfl
    simp only [creationMoves, applyAll, foldl_cons, foldl_nil,
      score_apply, indexed, false_and, if_false, and_true, before, homeScore, homes, pending, home, created, mem_cons,
      not_mem_nil, or_false]
    by_cases composite : key = .statusDomain .pending entry.domain
    · simp [composite]
    · by_cases whole : key = .all
      · simp [whole]
      · by_cases domain : key = .byDomain entry.domain
        · simp [domain]
        · by_cases waiting : key = .pending
          · simp [waiting]
          · simp [composite, whole, domain, waiting]
  · rintro _ ⟨⟩
    rw [created]
    rfl
  · rintro _ ⟨⟩
    exact domained
  · intro seq later
    refine .inl fun same => ?_
    rw [named] at same
    have digits := Words.repr_injective (String.append_right_inj _ |>.mp same)
    have beyond : world.nextSeq + 1 ≤ seq := later
    omega

end

/-!
Operations that run alone: between two commands only the clock moves.
-/

def OnlyClock (before after : RedisWorld) : Prop :=
  after = { before with clock := after.clock }

theorem onlyClock_refl (world : RedisWorld) : OnlyClock world world := by
  rfl

theorem OnlyClock.trans {first second third : RedisWorld} (left : OnlyClock first second)
    (right : OnlyClock second third) : OnlyClock first third := by
  rw [OnlyClock, right, left]

variable {before after : RedisWorld}

section

variable (same : OnlyClock before after)

include same

theorem OnlyClock.find (id : String) : after.find id = before.find id := by
  rw [same]
  rfl

theorem OnlyClock.apply (write : RedisWrite) : OnlyClock (before.apply write) (after.apply write) := by
  rw [OnlyClock, same]
  cases write <;> rfl

theorem OnlyClock.applyAll (writes : List RedisWrite) : OnlyClock (before.applyAll writes) (after.applyAll writes) := by
  induction writes generalizing before after with
  | nil => exact same
  | cons write rest ih => exact ih (same.apply write)

end

theorem Mirrored.drifted (mirrored : Mirrored before) (same : OnlyClock before after) : Mirrored after := by
  rw [same]
  exact { mirrored with }

abbrev Alone {α : Type} (program : RedisProg α) (world : RedisWorld) (post : α → RedisWorld → Prop) : Prop :=
  Ensures RedisWorld.exec OnlyClock program world post

section

variable (world : RedisWorld)

theorem alone_now : Alone now world fun _ after => OnlyClock world after := by
  exact ensures_perform fun during drifted => drifted

variable (id : String)

theorem alone_getById : Alone (getById id) world fun blob after => blob = world.find id ∧ OnlyClock world after := by
  refine ensures_perform fun during drifted => ?_
  exact ⟨drifted.find id, drifted⟩

theorem alone_loadForUpdate : Alone (command (.loadForUpdate id)) world fun blob after =>
      blob = world.find id ∧ OnlyClock world after := by
  refine ensures_perform fun during drifted => ?_
  exact ⟨drifted.find id, drifted⟩

theorem alone_watch : Alone (command (.watch id)) world fun _ after => OnlyClock world after := by
  exact ensures_perform fun during drifted => drifted

theorem alone_zrange (key : IndexKey) (start stop : Int) :
    Alone (command (.zrange key start stop)) world fun _ after => OnlyClock world after := by
  exact ensures_perform fun during drifted => drifted

theorem alone_batchWriteOps (writes : List RedisWrite) :
    Alone (batchWriteOps writes) world fun _ after => OnlyClock (world.applyAll writes) after := by
  induction writes generalizing world with
  | nil => exact ensures_ret (onlyClock_refl world)
  | cons write rest ih =>
    have first : Alone (command (.write write)) world fun _ after =>
        OnlyClock (world.apply write) after :=
      ensures_perform fun during drifted => drifted.apply write
    refine first.bind fun _ during drifted => (ih during).mono fun _ after same => ?_
    exact (drifted.applyAll rest).trans same

theorem alone_execute (watched : Nat) (writes : List RedisWrite) :
    Alone (command (.execute id watched writes)) world fun written after =>
      OnlyClock (if written then world.applyAll writes else world) after := by
  refine ensures_perform fun during drifted => ?_
  simp only [exec]
  split
  · simpa using drifted.applyAll writes
  · simpa using drifted

end

section

variable {world : RedisWorld}

theorem id_of_find (found : world.find id = some entry) : entry.id = id := by
  exact key_of_find found

section

variable (mirrored : Mirrored world)

include mirrored

theorem alone_update (id : String) (fields : UpdateFields) :
    Alone (RedisDlq.update id fields) world fun _ after => Mirrored after := by
  refine (alone_loadForUpdate world id).bind fun blob read ⟨loaded, drifted⟩ => ?_
  cases blob with
  | none => exact ensures_ret (mirrored.drifted drifted)
  | some existing =>
    refine (alone_now read).bind fun instant timed drifted' => ?_
    have current := mirrored.drifted (drifted.trans drifted')
    have named : existing.id = id := id_of_find loaded.symm
    have found : timed.find existing.id = some existing := by
      rw [named, (drifted.trans drifted').find id, ← loaded]
    by_cases still : fields.status.isNone = true
    · simp only [still, if_true]
      have kept : (fields.apply instant existing).status = existing.status := by
        rw [isNone_iff_eq_none] at still
        simp [UpdateFields.apply, still]
      refine (alone_batchWriteOps timed _).bind fun _ after same => ensures_ret ?_
      refine Mirrored.drifted ?_ same
      exact mirrored_setBlob current found rfl kept rfl rfl
    · simp only [still]
      refine (alone_batchWriteOps timed _).bind fun _ after same => ensures_ret ?_
      refine Mirrored.drifted ?_ same
      have same_id : (fields.apply instant existing).id = existing.id := rfl
      exact mirrored_statusMoves current found same_id rfl rfl instant

theorem alone_completeReplay (id : String) (completion : Completion) (errorDetails : Option Metadata) :
    Alone (completeReplay id completion errorDetails) world fun _ after => Mirrored after := by
  refine (alone_getById world id).bind fun entry read ⟨_, drifted⟩ => ?_
  have current := mirrored.drifted drifted
  refine ensures_ite (fun _ => ?_) (fun _ => alone_update current id _)
  exact (alone_now read).bind fun instant timed drifted' => alone_update (current.drifted drifted') id _

theorem alone_watchLoop {α : Type} {absent : α} {decides : Entry → RedisProg (α × Option (List RedisWrite))}
    (moves : ∀ entry read, Mirrored read → read.find entry.id = some entry →
      Alone (decides entry) read fun decision after => Mirrored after ∧
        ∀ writes, decision.2 = some writes → Mirrored (after.applyAll writes)) (attempts : Nat) :
    Alone (watchLoop id absent decides attempts) world fun _ after => Mirrored after := by
  induction attempts generalizing world with
  | zero => exact ensures_ret mirrored
  | succ attempts ih =>
    refine (alone_watch world id).bind fun watched watching drifted => ?_
    refine (alone_getById watching id).bind fun blob read ⟨loaded, drifted'⟩ => ?_
    have current := mirrored.drifted (drifted.trans drifted')
    cases blob with
    | none => exact ensures_ret current
    | some entry =>
      have found : read.find entry.id = some entry := by
        rw [id_of_find loaded.symm, drifted'.find id, ← loaded]
      refine (moves entry read current found).bind fun (answer, writes) decided ⟨still, moved⟩ => ?_
      cases writes with
      | none => exact ensures_ret still
      | some writes =>
        refine (alone_execute decided id watched writes).bind fun written after landed => ?_
        cases written with
        | true => exact ensures_ret ((moved writes rfl).drifted landed)
        | false => exact ih (still.drifted landed)

theorem alone_tryAcquireForReplay (id : String) (maxRetries : Int) (force : Bool) (attempts : Nat) :
    Alone (RedisDlq.tryAcquireForReplay id maxRetries force attempts) world fun _ after => Mirrored after := by
  refine alone_watchLoop mirrored (fun entry read current found => ?_) attempts
  refine (alone_now read).bind fun instant timed drifted => ?_
  have still := current.drifted drifted
  cases verdict : entry.tryAcquireForReplay instant maxRetries force with
  | acquired =>
    obtain ⟨same, domain, created, replaying⟩ := kept_of_acquired verdict
    refine ensures_ret ⟨still, ?_⟩
    rintro _ ⟨⟩
    exact mirrored_acquisitionMoves still ((drifted.find _).trans found) same domain created replaying instant
  | refused | raised => exact ensures_ret ⟨still, by simp⟩

theorem alone_returnReplayAttempt (id : String) (acquiredRetryCount : Int) (attempts : Nat) :
    Alone (RedisDlq.returnReplayAttempt id acquiredRetryCount attempts) world fun _ after => Mirrored after := by
  refine alone_watchLoop mirrored (fun entry read current found => ?_) attempts
  refine ensures_ite (fun _ => ensures_ret ⟨current, ?_⟩) (fun _ => ensures_ret ⟨current, by simp⟩)
  rintro _ ⟨⟩
  exact mirrored_setBlob current found rfl rfl rfl rfl

end

theorem kept_by_release (entry : Entry) (now : Time) :
    (entry.markStaleReleased now).id = entry.id ∧ (entry.markStaleReleased now).domain = entry.domain ∧
      (entry.markStaleReleased now).createdAt = entry.createdAt := by
  unfold markStaleReleased
  split <;> exact ⟨rfl, rfl, rfl⟩

theorem alone_releaseOneStale (mirrored : Mirrored world) (id : String) (cutoff : Time) (attempts : Nat) :
    Alone (RedisDlq.releaseOneStale id cutoff attempts) world fun _ after => Mirrored after := by
  refine alone_watchLoop mirrored (fun entry read current found => ?_) attempts
  refine ensures_ite (fun stale => ?_) (fun _ => ensures_ret ⟨current, by simp⟩)
  refine (alone_now read).bind fun instant timed drifted => ?_
  have still := current.drifted drifted
  have replaying : entry.status = .replaying := by
    simp only [isStaleBlob, Bool.and_eq_true, decide_eq_true_eq] at stale
    exact stale.1
  obtain ⟨same, domain, created⟩ := kept_by_release entry instant
  refine ensures_ret ⟨still, ?_⟩
  rintro _ ⟨⟩
  exact mirrored_releaseMoves still ((drifted.find _).trans found) same domain created replaying instant

theorem alone_loadEntries (ids : List String) : Alone (loadEntries ids) world fun _ after => OnlyClock world after := by
  refine ensures_foldlM (fun entries id during _ drifted => ?_) (onlyClock_refl world)
  refine (alone_getById during id).bind fun blob after ⟨_, drifted'⟩ => ?_
  cases blob <;> exact ensures_ret (drifted.trans drifted')

variable (mirrored : Mirrored world)

include mirrored

theorem alone_releaseStaleReplaying (olderThanMinutes : Int) :
    Alone (releaseStaleReplaying olderThanMinutes) world fun _ after => Mirrored after := by
  refine (alone_zrange world _ 0 999).bind fun ids listed drifted => ?_
  refine (alone_loadEntries ids).bind fun replaying loaded drifted' => ?_
  refine (alone_now loaded).bind fun instant timed drifted'' => ?_
  have current := mirrored.drifted ((drifted.trans drifted').trans drifted'')
  refine ensures_foldlM (fun released entry during _ kept => ?_) current
  refine ensures_ite (fun _ => ?_) (fun _ => ensures_ret kept)
  exact (alone_releaseOneStale kept entry.id _ _).discard

theorem alone_delete (id : String) : Alone (delete id) world fun _ after => Mirrored after := by
  refine (alone_getById world id).bind fun blob read ⟨loaded, drifted⟩ => ?_
  have current := mirrored.drifted drifted
  cases blob with
  | none =>
    refine ensures_perform fun during drifted' => ?_
    have absent : during.find id = none := by
      rw [(drifted.trans drifted').find id, ← loaded]
    change Mirrored (during.applyAll [.delete id])
    refine mirrored_applyAll (current.drifted drifted') id ?_ none ?_ ?_ ?_ ?_ ?_
    · simp [concerns]
    · simp [applyAll, find_apply]
    · intro key indexed
      rw [show during.applyAll [.delete id] = during.apply (.delete id) from rfl, score_apply,
        (current.drifted drifted').placed id key indexed, absent]
    · simp
    · simp
    · exact fun seq later => .inr rfl
  | some entry =>
    have named : entry.id = id := id_of_find loaded.symm
    have found : read.find entry.id = some entry := by
      rw [named, drifted.find id, ← loaded]
    refine (alone_batchWriteOps read _).bind fun _ after same => ensures_ret ?_
    exact (mirrored_deletionMoves current found).drifted same

theorem alone_create {domain : String} (domained : domain ≠ "")
    (failureType errorMessage : String) (metadata : Metadata) (retryCount maxRetries : Int)
    (recommendedAction : String) :
    Alone (create domain failureType errorMessage metadata retryCount maxRetries recommendedAction)
      world fun _ after => Mirrored after := by
  have allocated : Alone (command .allocateId) world fun id after =>
      id = world.namespaceText ++ ":" ++ world.nextSeq.repr ∧
        OnlyClock { world with nextSeq := world.nextSeq + 1 } after := by
    refine ensures_perform fun during drifted => ?_
    rw [drifted]
    exact ⟨rfl, rfl⟩
  refine allocated.bind fun id taken ⟨named, drifted⟩ => ?_
  refine (alone_now taken).bind fun instant timed drifted' => ?_
  refine (alone_batchWriteOps timed _).bind fun _ after same => ensures_ret ?_
  have written := mirrored_creationMoves (newEntry domain failureType errorMessage metadata
    retryCount maxRetries recommendedAction id instant) mirrored domained rfl rfl named
  exact written.drifted (((drifted.trans drifted').applyAll _).trans same)

end

inductive RedisOperation
  | create (domain : { text : String // text ≠ "" }) (failureType errorMessage : String)
      (metadata : Metadata) (retryCount maxRetries : Int) (recommendedAction : String)
  | update (id : String) (fields : UpdateFields)
  | tryAcquireForReplay (id : String) (maxRetries : Int) (force : Bool)
  | completeReplay (id : String) (completion : Completion) (errorDetails : Option Metadata)
  | returnReplayAttempt (id : String) (acquiredRetryCount : Int)
  | releaseStaleReplaying (olderThanMinutes : Int)
  | delete (id : String)

def RedisOperation.program : RedisOperation → RedisProg Unit
  | .create domain failureType errorMessage metadata retryCount maxRetries recommendedAction =>
      discard (RedisDlq.create domain.val failureType errorMessage metadata retryCount maxRetries recommendedAction)
  | .update id fields => discard (RedisDlq.update id fields)
  | .tryAcquireForReplay id maxRetries force =>
      discard (RedisDlq.tryAcquireForReplay id maxRetries force RedisDlq.watchMaxAttempts)
  | .completeReplay id completion errorDetails => discard (RedisDlq.completeReplay id completion errorDetails)
  | .returnReplayAttempt id acquiredRetryCount =>
      discard (RedisDlq.returnReplayAttempt id acquiredRetryCount RedisDlq.watchMaxAttempts)
  | .releaseStaleReplaying olderThanMinutes => discard (RedisDlq.releaseStaleReplaying olderThanMinutes)
  | .delete id => discard (RedisDlq.delete id)

theorem alone_operation (mirrored : Mirrored world) (operation : RedisOperation) :
    Alone operation.program world fun _ after => Mirrored after := by
  cases operation with
  | create domain => exact (alone_create mirrored domain.property _ _ _ _ _ _).discard
  | update id fields => exact (alone_update mirrored id fields).discard
  | tryAcquireForReplay id maxRetries force =>
    exact (alone_tryAcquireForReplay mirrored id maxRetries force _).discard
  | completeReplay id completion errorDetails =>
    exact (alone_completeReplay mirrored id completion errorDetails).discard
  | returnReplayAttempt id acquiredRetryCount =>
    exact (alone_returnReplayAttempt mirrored id acquiredRetryCount _).discard
  | releaseStaleReplaying olderThanMinutes =>
    exact (alone_releaseStaleReplaying mirrored olderThanMinutes).discard
  | delete id => exact (alone_delete mirrored id).discard

def runOperations (operations : List RedisOperation) : RedisProg Unit :=
  operations.foldlM (fun _ operation => operation.program) ()

def emptyRedis (clock : Time) (namespaceText : String) : RedisWorld where
  clock := clock
  namespaceText := namespaceText

theorem mirrored_emptyRedis (clock : Time) (namespaceText : String) : Mirrored (emptyRedis clock namespaceText) := by
  refine ⟨fun id key _ => rfl, ?_, ?_, fun seq _ => rfl⟩ <;> intro id entry found <;> cases found

/-- After every sequential run each entry is in its homes, scored by its creation, and in no other
set; an id without a blob is in none. -/
theorem indexes_mirror_blobs (clock : Time) (namespaceText : String) (operations : List RedisOperation) :
    Alone (runOperations operations) (emptyRedis clock namespaceText) fun _ after =>
      ∀ id key, key ≠ .domains →
        (∀ entry, after.find id = some entry → ∃ score, entry.createdAt = some score ∧
          after.score key id = if key ∈ homes entry then some score else none) ∧
        (after.find id = none → after.score key id = none) := by
  have kept : Alone (runOperations operations) (emptyRedis clock namespaceText) fun _ after =>
      Mirrored after :=
    ensures_foldlM (fun _ operation during _ mirrored => alone_operation mirrored operation)
      (mirrored_emptyRedis clock namespaceText)
  refine kept.mono ?_
  intro _ after mirrored id key indexed
  have placed := mirrored.placed id key indexed
  constructor
  · intro entry found
    obtain ⟨score, dated⟩ := isSome_iff_exists.mp (mirrored.dated id entry found)
    refine ⟨score, dated, ?_⟩
    rw [placed, found]
    simp only [homeScore, dated]
  · intro absent
    rw [placed, absent]
    rfl

end Baldur.Dlq
