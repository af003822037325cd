import Baldur.Dlq.AttemptCount
import Baldur.Dlq.RedisIndexes

/-!
Workers over one Redis, command by command. The acquisition, the give-back and the stale release compare the
watched blob; `_update` reads and then writes blindly.
-/

namespace Baldur.Dlq

open List

open Prog hiding call

open RedisDlq

variable {thread watched : Nat} {id target : String} {before after : RedisWorld}
  {done rest writes : List RedisWrite} {write : RedisWrite} {entry updated : Entry}
  {score : Time}

inductive RedisJob
  | acquire (id : String) (maxRetries : Int) (force : Bool)
  | complete (id : String) (completion : Completion) (errorDetails : Option Metadata)
  | updateStatus (id : String) (update : StatusUpdate)
  | releaseStale (olderThanMinutes : Int)
  | giveBack (id : String) (acquiredRetryCount : Int)

def RedisJob.program : RedisJob → RedisProg Unit
  | .acquire id maxRetries force =>
      discard (RedisDlq.tryAcquireForReplay id maxRetries force RedisDlq.watchMaxAttempts)
  | .complete id completion errorDetails => discard (RedisDlq.completeReplay id completion errorDetails)
  | .updateStatus id update => discard (RedisDlq.updateStatus id update)
  | .releaseStale olderThanMinutes => discard (RedisDlq.releaseStaleReplaying olderThanMinutes)
  | .giveBack id acquiredRetryCount =>
      discard (RedisDlq.returnReplayAttempt id acquiredRetryCount RedisDlq.watchMaxAttempts)

abbrev RedisEvent := Pool.Event RedisCommand RedisCommand.Answer

abbrev RedisConfig := Pool.Config RedisCommand RedisCommand.Answer RedisWorld Unit

abbrev RedisAction := Pool.Action RedisCommand RedisCommand.Answer ClockChange Unit

def RedisWorld.disturb : ClockChange → RedisWorld → RedisWorld
  | .advance elapsed, world => { world with clock := world.clock + elapsed }

def redisMachine : Pool.Machine RedisCommand RedisCommand.Answer RedisWorld ClockChange Unit :=
  ⟨RedisWorld.exec, RedisWorld.disturb, fun _ _ => []⟩

def raceStart (world : RedisWorld) (jobs : List RedisJob) : RedisConfig :=
  ⟨world, jobs.map RedisJob.program, []⟩

def committed (id : String) (event : RedisEvent) : Bool :=
  match event with
  | ⟨_, .execute other _ _, written⟩ => other = id && written
  | _ => false

def RedisJob.counts (before : Int) : RedisJob → Int
  | .acquire _ _ false => before + 1
  | .acquire _ _ true => 1
  | .giveBack .. => before - 1
  | _ => before

def tally (jobs : List RedisJob) (id : String) (initial : Int) : List RedisEvent → Int
  | [] => initial
  | event :: rest =>
      if committed id event then
        match jobs[event.thread]? with
        | some job => job.counts (tally jobs id initial rest)
        | none => tally jobs id initial rest
      else
        tally jobs id initial rest

namespace RedisWrite

def isBlob : RedisWrite → Bool
  | .setBlob _ => true
  | _ => false

def touches (id : String) : RedisWrite → Bool
  | .setBlob entry => entry.id = id
  | .delete other => other = id
  | .zadd _ member _ => member = id
  | .zrem _ member => member = id

def onScores (id : String) (scores : IndexKey → Option Time) : RedisWrite → IndexKey → Option Time
  | .zadd target member score, key => if key = target ∧ member = id then some score else scores key
  | .zrem target member, key => if key = target ∧ member = id then none else scores key
  | _, key => scores key

end RedisWrite

def RedisCommand.touches (id : String) (world : RedisWorld) : RedisCommand → Bool
  | .write change => change.touches id
  | .execute other watched _ => other = id && world.version id = watched
  | .deleteKey other => other = id
  | _ => false

def inWindow (id : String) (thread : Nat) : List RedisEvent → Bool
  | [] => false
  | ⟨mover, call, answer⟩ :: rest =>
      if mover = thread then
        match call, answer with
        | .loadForUpdate other, some _ => if other = id then true else inWindow id thread rest
        | .write (.setBlob entry), _ => if entry.id = id then false else inWindow id thread rest
        | _, _ => inWindow id thread rest
      else
        inWindow id thread rest

/-- Steps and clock changes only; whoever writes the entry finds no other worker in its window. -/
def writesAlone (id : String) (config : RedisConfig) : RedisAction → Prop
  | .step thread => ∀ command ∈ config.pending thread, command.touches id config.state = true →
      ∀ other, other ≠ thread → inWindow id other config.trace = false
  | .disturb _ => True
  | .spawn _ => False

theorem inWindow_of_absent (id : String) (trace : List RedisEvent)
    (absent : ∀ event ∈ trace, event.thread ≠ thread) : inWindow id thread trace = false := by
  induction trace with
  | nil => rfl
  | cons event rest ih =>
    have later := ih fun event member => absent event (by simp [member])
    exact (if_neg (absent event (by simp))).trans later

theorem othersShut_iff {trace : List RedisEvent} :
    (∀ event ∈ trace, event.thread ≠ thread → inWindow id event.thread trace = false) ↔
      ∀ other, other ≠ thread → inWindow id other trace = false := by
  constructor
  · intro shut other apart
    by_cases moved : ∃ event ∈ trace, event.thread = other
    · obtain ⟨event, member, rfl⟩ := moved
      exact shut event member apart
    · exact inWindow_of_absent id trace fun event member same => moved ⟨event, member, same⟩
  · intro shut event _ apart
    exact shut event.thread apart

instance (id : String) (config : RedisConfig) : (action : RedisAction) → Decidable (writesAlone id config action)
  | .step thread =>
      decidable_of_iff (∀ command ∈ config.pending thread, command.touches id config.state = true →
          ∀ event ∈ config.trace, event.thread ≠ thread → inWindow id event.thread config.trace = false)
        (forall₂_congr fun _ _ => imp_congr_right fun _ => othersShut_iff)
  | .disturb _ => isTrue trivial
  | .spawn _ => isFalse fun impossible => impossible

inductive Phase
  | idle
  | watching (version : Nat)
  | held (version : Nat) (entry : Entry)
  | loaded (entry : Entry)
  | writing (entry : Entry) (done : List RedisWrite)

namespace Phase

def inside : Phase → Bool
  | .loaded _ => true
  | .writing _ _ => true
  | _ => false

def midBatch : Phase → Bool
  | .writing _ _ => true
  | _ => false

def Fits (id : String) (world : RedisWorld) : Phase → Prop
  | .idle => True
  | .watching version => version ≤ world.version id
  | .held version entry =>
      version ≤ world.version id ∧ (world.version id = version → world.find id = some entry)
  | .loaded entry => world.find id = some entry
  | .writing entry done => world.find id = some entry ∧ ∀ key, key ≠ .domains →
      world.score key id = done.foldl (RedisWrite.onScores id) (homeScore (some entry)) key

end Phase

structure Rewrites (entry updated : Entry) (score : Time) : Prop where
  named : updated.id = entry.id
  domain : updated.domain = entry.domain
  created : updated.createdAt = entry.createdAt
  counted : updated.retryCount = entry.retryCount
  scored : ∀ instant, entry.createdAt = some instant → score = instant

def RedisJob.Commits (entry : Entry) (writes : List RedisWrite) : RedisJob → Prop
  | .acquire _ maxRetries force => ∃ now updated,
      entry.tryAcquireForReplay now maxRetries force = .acquired updated ∧
        writes = acquisitionMoves entry updated (entry.createdAtScore now)
  | .giveBack _ acquiredRetryCount => entry.holdsAttempt acquiredRetryCount = true ∧
      writes = [.setBlob { entry with retryCount := acquiredRetryCount - 1 }]
  | .releaseStale _ => entry.status = .replaying ∧ ∃ now,
      writes = releaseMoves entry (entry.markStaleReleased now) (entry.createdAtScore now)
  | _ => False

def raceDiscipline (id : String) : Discipline RedisCommand RedisCommand.Answer (RedisJob × Phase) where
  may worker
    | .now => worker.2.midBatch = false
    | .write change => match worker.2 with
        | .loaded entry => ∃ updated score rest, Rewrites entry updated score ∧
            statusMoves entry updated score = change :: rest
        | .writing entry done => ∃ updated score rest, Rewrites entry updated score ∧
            statusMoves entry updated score = done ++ change :: rest
        | _ => change.touches id = false
    | .execute other watched writes => worker.2.inside = false ∧
        (other = id → ∃ entry, worker.2 = .held watched entry ∧ worker.1.Commits entry writes) ∧
        (other ≠ id → ∀ write ∈ writes, write.touches id = false)
    | .allocateId => False
    | .deleteKey _ => False
    | _ => worker.2.inside = false
  valid _
    | .get other, blob => ∀ entry, blob = some entry → entry.id = other
    | .loadForUpdate other, blob => ∀ entry, blob = some entry → entry.id = other
    | _, _ => True
  after worker
    | .loadForUpdate other, blob =>
        if other = id then
          match blob with
          | some entry => (worker.1, .loaded entry)
          | none => (worker.1, .idle)
        else
          worker
    | .watch other, version => if other = id then (worker.1, .watching version) else worker
    | .get other, blob => match worker.2, blob with
        | .watching version, some entry => if other = id then (worker.1, .held version entry) else worker
        | _, _ => worker
    | .write change, _ => match worker.2 with
        | .loaded entry => (worker.1, .writing entry [change])
        | .writing entry done =>
            if change.isBlob then (worker.1, .idle) else (worker.1, .writing entry (done ++ [change]))
        | _ => worker
    | _, _ => worker

section

variable (id : String) (worker : RedisJob × Phase)

@[simp] theorem after_loadForUpdate_some (entry : Entry) :
    (raceDiscipline id).after worker (.loadForUpdate id) (some entry) = (worker.1, .loaded entry) := by
  exact if_pos rfl

@[simp] theorem after_loadForUpdate_none :
    (raceDiscipline id).after worker (.loadForUpdate id) none = (worker.1, .idle) := by
  exact if_pos rfl

theorem after_loadForUpdate_other (apart : target ≠ id) (blob : Option Entry) :
    (raceDiscipline id).after worker (.loadForUpdate target) blob = worker := by
  exact if_neg apart

@[simp] theorem after_watch (version : Nat) :
    (raceDiscipline id).after worker (.watch id) version = (worker.1, .watching version) := by
  exact if_pos rfl

theorem after_watch_other (apart : target ≠ id) (version : Nat) :
    (raceDiscipline id).after worker (.watch target) version = worker := by
  exact if_neg apart

@[simp] theorem after_get_watching (job : RedisJob) (version : Nat) (entry : Entry) :
    (raceDiscipline id).after (job, .watching version) (.get id) (some entry) = (job, .held version entry) := by
  exact if_pos rfl

@[simp] theorem after_write_loaded (job : RedisJob) (entry : Entry) (write : RedisWrite) :
    (raceDiscipline id).after (job, .loaded entry) (.write write) () = (job, .writing entry [write]) := by
  rfl

@[simp] theorem after_write_writing (job : RedisJob) (entry : Entry) (done : List RedisWrite)
    (write : RedisWrite) :
    (raceDiscipline id).after (job, .writing entry done) (.write write) () =
      if write.isBlob then (job, .idle) else (job, .writing entry (done ++ [write])) := by
  rfl

end

structure SameEntry (id : String) (before after : RedisWorld) : Prop where
  found : after.find id = before.find id
  version : after.version id = before.version id
  scores : ∀ key, after.score key id = before.score key id

theorem sameEntry_refl (id : String) (world : RedisWorld) : SameEntry id world world := by
  exact ⟨rfl, rfl, fun _ => rfl⟩

structure Later (id : String) (before after : RedisWorld) : Prop where
  grows : before.version id ≤ after.version id
  still : after.version id = before.version id → after.find id = before.find id

theorem SameEntry.later (same : SameEntry id before after) : Later id before after := by
  exact ⟨same.version.ge, fun _ => same.found⟩

open RedisDlq RedisWorld RedisWrite

theorem Later.trans {first second third : RedisWorld} (left : Later id first second)
    (right : Later id second third) : Later id first third := by
  refine ⟨left.grows.trans right.grows, fun unchanged => ?_⟩
  have middle : second.version id = first.version id :=
    Nat.le_antisymm (unchanged ▸ right.grows) left.grows
  rw [right.still (unchanged.trans middle.symm), left.still middle]

namespace RedisWorld

variable (world : RedisWorld) (write : RedisWrite)

theorem version_apply (id : String) : (world.apply write).version id = match write with
      | .setBlob entry => if id = entry.id then world.version id + 1 else world.version id
      | .delete other => if id = other then world.version id + 1 else world.version id
      | _ => world.version id := by
  cases write <;> rfl

attribute [local simp] score_apply version_apply

theorem apply_untouched {write : RedisWrite} (apart : write.touches id = false) :
    SameEntry id world (world.apply write) := by
  cases write with
  | setBlob | delete =>
    have other := of_decide_eq_false apart
    exact ⟨by simp [find_apply, other], by simp [Ne.symm other], fun key => by simp⟩
  | zadd key member score | zrem key member =>
    have other : member ≠ id := of_decide_eq_false apart
    exact ⟨rfl, rfl, fun key => by simp [other]⟩

theorem applyAll_untouched (writes : List RedisWrite) (world : RedisWorld)
    (apart : ∀ write ∈ writes, write.touches id = false) : SameEntry id world (world.applyAll writes) := by
  induction writes generalizing world with
  | nil => exact sameEntry_refl id world
  | cons write rest ih =>
    have first := world.apply_untouched (apart write (by simp))
    have others := ih (world.apply write) fun write member => apart write (by simp [member])
    exact ⟨others.found.trans first.found, others.version.trans first.version,
      fun key => (others.scores key).trans (first.scores key)⟩

theorem later_apply (id : String) : Later id world (world.apply write) := by
  by_cases apart : write.touches id = false
  · exact (world.apply_untouched apart).later
  · cases write with
    | setBlob entry =>
      have named : entry.id = id := by simpa [touches] using apart
      have bumped : (world.apply (.setBlob entry)).version id = world.version id + 1 := by
        simp [named]
      exact ⟨by omega, fun unchanged => by omega⟩
    | delete removed =>
      have named : removed = id := by simpa [touches] using apart
      have bumped : (world.apply (.delete removed)).version id = world.version id + 1 := by
        simp [named]
      exact ⟨by omega, fun unchanged => by omega⟩
    | zadd key member score | zrem key member => exact ⟨Nat.le_refl _, fun _ => rfl⟩

theorem later_applyAll (writes : List RedisWrite) (world : RedisWorld) (id : String) :
    Later id world (world.applyAll writes) := by
  induction writes generalizing world with
  | nil => exact (sameEntry_refl id world).later
  | cons write rest ih => exact (world.later_apply write id).trans (ih (world.apply write))

theorem score_apply_onScores (id : String) (key : IndexKey) :
    (world.apply write).score key id = write.onScores id (fun key => world.score key id) key := by
  rw [score_apply]
  cases write <;> rfl

end RedisWorld

namespace RedisWrite

variable {key : IndexKey}

theorem onScores_congr (id : String) (write : RedisWrite) {first second : IndexKey → Option Time}
    (same : first key = second key) :
    onScores id first write key = onScores id second write key := by
  cases write <;> simp only [onScores, same]

theorem foldl_onScores_congr (id : String) (writes : List RedisWrite)
    {first second : IndexKey → Option Time} (same : first key = second key) :
    writes.foldl (onScores id) first key = writes.foldl (onScores id) second key := by
  induction writes generalizing first second with
  | nil => exact same
  | cons write rest ih => exact ih (onScores_congr id write same)

end RedisWrite

theorem RedisWorld.score_applyAll (writes : List RedisWrite) (world : RedisWorld) (id : String) (key : IndexKey) :
    (world.applyAll writes).score key id = writes.foldl (onScores id) (fun key => world.score key id) key := by
  induction writes generalizing world with
  | nil => rfl
  | cons write rest ih =>
    refine (ih (world.apply write)).trans ?_
    exact foldl_onScores_congr id rest (world.score_apply_onScores write id key)

section

variable {entry updated : Entry} {score : Time}

theorem touches_statusMoves (named : updated.id = entry.id) (write : RedisWrite)
    (queued : write ∈ statusMoves entry updated score) : write.touches entry.id = true := by
  have all : ∀ write ∈ statusMoves entry updated score, write.touches entry.id = true := by
    unfold statusMoves whenDomain
    split <;> simp [touches, named]
  exact all write queued

theorem statusMoves_blob (batch : statusMoves entry updated score = done ++ write :: rest) :
    write.isBlob = true → rest = [] ∧ write = .setBlob updated := by
  intro blob
  obtain ⟨front, plain, shape⟩ : ∃ front : List RedisWrite, (∀ move ∈ front, move.isBlob = false) ∧
      statusMoves entry updated score = front ++ [.setBlob updated] := by
    refine ⟨_, ?_, rfl⟩
    unfold whenDomain
    split <;> simp [isBlob]
  rw [shape] at batch
  rcases eq_nil_or_concat rest with rfl | ⟨middle, last, rfl⟩
  · have ends := (append_inj' batch rfl).2
    exact ⟨rfl, by simpa using ends.symm⟩
  · have fronts : front = done ++ write :: middle := by
      have regrouped : front ++ [.setBlob updated] = (done ++ write :: middle) ++ [last] := by
        simpa using batch
      exact (append_inj' regrouped rfl).1
    have notBlob := plain write (by simp [fronts])
    rw [blob] at notBlob
    cases notBlob

end

def Outside (job : RedisJob) (worker : RedisJob × Phase) : Prop :=
  worker.1 = job ∧ worker.2.inside = false

variable {phase : Phase}

theorem midBatch_of_outside (outside : phase.inside = false) : phase.midBatch = false := by
  cases phase <;> first | rfl | cases outside

section

variable {worker : RedisJob × Phase} {fields : UpdateFields} {id : String} {job : RedisJob}

theorem keeps_redisNow : Keeps (raceDiscipline id) (Outside job) now := by
  exact keeps_perform (fun _ outside => midBatch_of_outside outside.2) fun _ _ outside _ => outside

theorem outside_get (outside : Outside job worker) (target : String) (blob : Option Entry) :
    Outside job ((raceDiscipline id).after worker (.get target) blob) := by
  obtain ⟨own, phase⟩ := worker
  cases phase <;> cases blob <;> simp only [raceDiscipline] <;> try exact outside
  split
  · exact ⟨outside.1, rfl⟩
  · exact outside

variable (target : String)

theorem keeps_redisGet : Keeps (raceDiscipline id) (Outside job) (getById target) := by
  exact keeps_perform (fun _ outside => outside.2) fun _ blob outside _ => outside_get outside target blob

theorem obeys_batch (rewrites : Rewrites entry updated score) (rest done : List RedisWrite)
    (batch : statusMoves entry updated score = done ++ (rest ++ [.setBlob updated])) :
    Obeys (raceDiscipline id) (fun worker _ => Outside job worker) (job, .writing entry done)
      (batchWriteOps (rest ++ [.setBlob updated])) := by
  induction rest generalizing done with
  | nil => exact ⟨⟨updated, score, [], rewrites, batch⟩, fun _ _ => ⟨rfl, rfl⟩⟩
  | cons write rest ih =>
    refine ⟨⟨updated, score, _, rewrites, batch⟩, fun _ _ => ?_⟩
    have plain : write.isBlob = false := by
      cases blob : write.isBlob with
      | false => rfl
      | true => exact absurd (statusMoves_blob batch blob).1 (by simp)
    rw [after_write_writing, plain]
    exact ih (done ++ [write]) (by simpa using batch)

theorem keeps_otherBatch (writes : List RedisWrite) (apart : ∀ write ∈ writes, write.touches id = false) :
    Keeps (raceDiscipline id) (Outside job) (batchWriteOps writes) := by
  induction writes with
  | nil => exact keeps_ret ()
  | cons write rest ih =>
    have others := ih fun write member => apart write (by simp [member])
    refine keeps_bind (keeps_perform ?_ ?_) fun _ => others
    · rintro ⟨own, phase⟩ outside
      cases phase <;> first | exact apart write (by simp) | cases outside.2
    · rintro ⟨own, phase⟩ _ outside _
      cases phase <;> first | exact outside | cases outside.2

theorem touches_other (apart : entry.id ≠ id) (own : write.touches entry.id = true) : write.touches id = false := by
  cases write <;> simp only [touches, decide_eq_true_eq, decide_eq_false_iff_not] at own ⊢ <;>
    exact fun same => apart (own.symm.trans same)

theorem rewrites_apply (uncounted : fields.retryCount = none) (instant : Time) (entry : Entry) :
    Rewrites entry (fields.apply instant entry) (entry.createdAtScore instant) := by
  refine ⟨rfl, rfl, rfl, by simp [UpdateFields.apply, uncounted], fun created dated => ?_⟩
  simp [FailedOperationData.createdAtScore, dated]

theorem keeps_update (moves : fields.status.isNone = false) (uncounted : fields.retryCount = none) :
    Keeps (raceDiscipline id) (Outside job) (update target fields) := by
  rintro ⟨own, phase⟩ ⟨rfl, away⟩
  simp only [update, now, command, perform_bind, moves, Bool.false_eq_true, if_false]
  refine ⟨away, fun blob valid => ?_⟩
  by_cases same : target = id
  · subst same
    cases blob with
    | none =>
      rw [after_loadForUpdate_none]
      exact ⟨rfl, rfl⟩
    | some existing =>
      rw [after_loadForUpdate_some]
      refine ⟨rfl, fun instant _ => ?_⟩
      rw [obeys_bind]
      have rewrites := rewrites_apply uncounted instant existing
      refine ⟨⟨_, _, _, rewrites, rfl⟩, fun _ _ => ?_⟩
      exact obeys_batch rewrites (_ :: whenDomain existing.domain _) [_] rfl
  · rw [after_loadForUpdate_other id _ same]
    cases blob with
    | none => exact ⟨rfl, away⟩
    | some existing =>
      have named : existing.id = target := valid existing rfl
      refine ⟨midBatch_of_outside away, fun instant _ => ?_⟩
      rw [obeys_bind]
      refine keeps_otherBatch _ ?_ _ ⟨rfl, away⟩
      intro write queued
      have same_id := (rewrites_apply uncounted instant existing).named
      exact touches_other (by rwa [named]) (touches_statusMoves same_id write queued)

theorem may_execute {target : String} (outside : Outside job worker)
    (named : entry.id = target) (read : target = id → worker.2 = .held watched entry)
    (commits : job.Commits entry writes) (own : ∀ write ∈ writes, write.touches entry.id = true) :
    (raceDiscipline id).may worker (.execute target watched writes) := by
  refine ⟨outside.2, fun here => ⟨entry, read here, ?_⟩, fun apart write queued => ?_⟩
  · rw [outside.1]
    exact commits
  · exact touches_other (by rwa [named]) (own write queued)

theorem watched_read (id : String) (outside : Outside job worker) (watched : Nat) :
    let watching := (raceDiscipline id).after worker (.watch target) watched
    Outside job watching ∧
      (target = id → ∀ entry, ((raceDiscipline id).after watching (.get target) (some entry)).2 = .held watched entry) := by
  obtain ⟨own, phase⟩ := worker
  by_cases same : target = id
  · subst same
    rw [after_watch]
    exact ⟨⟨outside.1, rfl⟩, fun _ entry => by rw [after_get_watching]⟩
  · rw [after_watch_other id _ same]
    exact ⟨outside, fun here => absurd here same⟩

theorem keeps_watchLoop {α : Type} {absent : α} {decides : Entry → RedisProg (α × Option (List RedisWrite))}
    (commits : ∀ entry worker, Outside job worker → Obeys (raceDiscipline id) (fun worker' decision => worker' = worker ∧
      ∀ writes, decision.2 = some writes → job.Commits entry writes ∧ ∀ write ∈ writes, write.touches entry.id = true)
      worker (decides entry)) (attempts : Nat) :
    Keeps (raceDiscipline id) (Outside job) (watchLoop target absent decides attempts) := by
  induction attempts with
  | zero => exact keeps_ret _
  | succ attempts ih =>
    intro worker outside
    simp only [watchLoop, getById, command, perform_bind]
    refine ⟨outside.2, fun watched _ => ?_⟩
    obtain ⟨watching, held⟩ := watched_read target id outside watched
    refine ⟨watching.2, fun blob named => ?_⟩
    have read : Outside job ((raceDiscipline id).after _ (.get target) blob) := outside_get watching target blob
    cases blob with
    | none => exact read
    | some entry =>
      refine (obeys_bind ..).mpr ((commits entry _ read).mono ?_)
      rintro _ ⟨answer, writes⟩ ⟨rfl, moves⟩
      cases writes with
      | none => exact read
      | some writes =>
        obtain ⟨committed, touched⟩ := moves writes rfl
        refine ⟨may_execute read (named entry rfl) (held · entry) committed touched, fun written _ => ?_⟩
        cases written with
        | true => exact read
        | false => exact ih _ read

theorem keeps_tryAcquireForReplay (maxRetries : Int) (force : Bool) (attempts : Nat) :
    Keeps (raceDiscipline id) (Outside (.acquire target maxRetries force))
      (tryAcquireForReplay target maxRetries force attempts) := by
  refine keeps_watchLoop target (fun entry worker outside => ?_) attempts
  refine ⟨midBatch_of_outside outside.2, fun instant _ => ?_⟩
  simp only [Prog.bind]
  cases verdict : entry.tryAcquireForReplay instant maxRetries force with
  | acquired updated =>
    refine ⟨rfl, ?_⟩
    rintro _ ⟨⟩
    refine ⟨⟨instant, updated, verdict, rfl⟩, ?_⟩
    unfold acquisitionMoves whenDomain
    split <;> simp [touches, (FailedOperationData.kept_of_acquired verdict).1]
  | refused | raised => exact ⟨rfl, by simp⟩

theorem keeps_returnReplayAttempt (acquiredRetryCount : Int) (attempts : Nat) :
    Keeps (raceDiscipline id) (Outside (.giveBack target acquiredRetryCount))
      (returnReplayAttempt target acquiredRetryCount attempts) := by
  refine keeps_watchLoop target (fun entry worker outside => ?_) attempts
  refine (obeys_ite _ _ _ _ _ _).mpr ⟨fun holds => ⟨rfl, ?_⟩, fun _ => ⟨rfl, by simp⟩⟩
  rintro _ ⟨⟩
  exact ⟨⟨holds, rfl⟩, by simp [touches]⟩

theorem keeps_releaseOneStale (cutoff : Time) (olderThanMinutes : Int) (attempts : Nat) :
    Keeps (raceDiscipline id) (Outside (.releaseStale olderThanMinutes)) (releaseOneStale target cutoff attempts) := by
  refine keeps_watchLoop target (fun entry worker outside => ?_) attempts
  refine (obeys_ite _ _ _ _ _ _).mpr ⟨fun stale => ?_, fun _ => ⟨rfl, by simp⟩⟩
  refine ⟨midBatch_of_outside outside.2, fun instant _ => ⟨rfl, ?_⟩⟩
  have replaying : entry.status = .replaying := by
    simp only [FailedOperationData.isStaleBlob, Bool.and_eq_true, decide_eq_true_eq] at stale
    exact stale.1
  rintro _ ⟨⟩
  refine ⟨⟨replaying, instant, rfl⟩, ?_⟩
  unfold releaseMoves whenDomain
  split <;> simp [touches, (kept_by_release entry instant).1]

theorem keeps_redisJob (job : RedisJob) : Keeps (raceDiscipline id) (Outside job) job.program := by
  cases job with
  | acquire target maxRetries force =>
    exact (keeps_tryAcquireForReplay target maxRetries force _).discard
  | complete target completion errorDetails =>
    refine Keeps.discard (keeps_bind (keeps_redisGet target) fun entry => ?_)
    refine keeps_ite _ ?_ (keeps_update target rfl rfl)
    exact keeps_bind keeps_redisNow fun instant => keeps_update target rfl rfl
  | updateStatus target =>
    refine keeps_bind (keeps_bind keeps_redisNow fun instant => ?_) fun _ => keeps_ret _
    exact keeps_update target rfl rfl
  | releaseStale olderThanMinutes =>
    refine Keeps.discard (keeps_bind (keeps_perform (fun _ outside => outside.2) fun _ _ outside _ => outside) fun ids => ?_)
    refine keeps_bind (keeps_foldlM (fun entries target _ => ?_) []) fun replaying => ?_
    · refine keeps_bind (keeps_redisGet target) fun blob => ?_
      cases blob <;> exact keeps_ret _
    · refine keeps_bind keeps_redisNow fun instant => ?_
      refine keeps_foldlM (fun released entry _ => ?_) 0
      refine keeps_when ?_
      exact (keeps_releaseOneStale entry.id _ olderThanMinutes _).discard
  | giveBack target acquiredRetryCount =>
    exact (keeps_returnReplayAttempt target acquiredRetryCount _).discard

end

theorem fits_of_same (same : SameEntry id before after) (fits : phase.Fits id before) : phase.Fits id after := by
  cases phase with
  | idle => trivial
  | watching version => exact fits.trans same.version.ge
  | held version =>
    refine ⟨fits.1.trans same.version.ge, fun current => ?_⟩
    rw [same.found]
    exact fits.2 (same.version.symm.trans current)
  | loaded => exact same.found.trans fits
  | writing =>
    exact ⟨same.found.trans fits.1, fun key indexed => (same.scores key).trans (fits.2 key indexed)⟩

theorem fits_of_later (later : Later id before after) (outside : phase.inside = false) (fits : phase.Fits id before) :
    phase.Fits id after := by
  cases phase with
  | idle => trivial
  | watching => exact Nat.le_trans fits later.grows
  | held version =>
    refine ⟨fits.1.trans later.grows, fun current => ?_⟩
    have unchanged : before.version id = version :=
      Nat.le_antisymm (current ▸ later.grows) fits.1
    rw [later.still (current.trans unchanged.symm)]
    exact fits.2 unchanged
  | loaded entry | writing entry done => cases outside

structure Counted (jobs : List RedisJob) (id : String) (initial : Int) (world : RedisWorld)
    (trace : List RedisEvent) (blob : Entry) : Prop where
  found : world.find id = some blob
  domained : blob.domain ≠ ""
  dated : blob.createdAt.isSome = true
  count : blob.retryCount = tally jobs id initial trace

def Homed (id : String) (world : RedisWorld) (blob : Entry) : Prop :=
  ∀ key, key ≠ .domains → world.score key id = homeScore (some blob) key

structure Staffed (jobs : List RedisJob) (id : String) (world : RedisWorld) (trace : List RedisEvent)
    (thread : Nat) (worker : RedisJob × Phase) : Prop where
  job : jobs[thread]? = some worker.1
  window : worker.2.inside = true → inWindow id thread trace = true
  fits : worker.2.Fits id world

structure Tracked (jobs : List RedisJob) (id : String) (initial : Int) (world : RedisWorld)
    (trace : List RedisEvent) (locals : List (RedisJob × Phase)) : Prop where
  stored : ∃ blob, Counted jobs id initial world trace blob ∧
    ((∀ (thread : Nat) (worker : RedisJob × Phase), locals[thread]? = some worker →
      worker.2.midBatch = false) → Homed id world blob)
  staff : ∀ (thread : Nat) (worker : RedisJob × Phase), locals[thread]? = some worker → Staffed jobs id world trace thread worker

section

variable {job : RedisJob} {jobs : List RedisJob} {id : String} {initial : Int} {before after : RedisWorld}
  {trace : List RedisEvent} {locals : List (RedisJob × Phase)} {worker moved : RedisJob × Phase}

theorem Staffed.closed (known : Staffed jobs id before trace thread worker)
    (shut : inWindow id thread trace = false) : worker.2.inside = false := by
  cases inside : worker.2.inside with
  | false => rfl
  | true =>
    have opened := known.window inside
    rw [shut] at opened
    cases opened

variable (tracked : Tracked jobs id initial before trace locals)

include tracked in
theorem Tracked.resting (located : locals[thread]? = some worker) (unstarted : worker.2.midBatch = false)
    (alone : ∀ other, other ≠ thread → inWindow id other trace = false) (other : Nat)
    (colleague : RedisJob × Phase) (there : locals[other]? = some colleague) :
    colleague.2.midBatch = false := by
  by_cases own : other = thread
  · subst own
    obtain rfl : colleague = worker := Option.mem_unique there located
    exact unstarted
  · exact midBatch_of_outside ((tracked.staff other colleague there).closed (alone other own))

variable (event : RedisEvent)

include tracked in
theorem tracked_quiet (located : locals[event.thread]? = some worker) (same : SameEntry id before after)
    (quiet : committed id event = false) (batch : moved.2.midBatch = worker.2.midBatch)
    (staffed : Staffed jobs id after (event :: trace) event.thread moved) :
    Tracked jobs id initial after (event :: trace) (locals.set event.thread moved ++ []) := by
  obtain ⟨⟨blob, counted, homed⟩, staff⟩ := tracked
  refine ⟨⟨blob, ⟨same.found.trans counted.found, counted.domained, counted.dated, ?_⟩, ?_⟩, ?_⟩
  · simp only [tally, quiet, Bool.false_eq_true, if_false]
    exact counted.count
  · intro resting key indexed
    rw [same.scores key]
    refine homed (fun thread other found => ?_) key indexed
    by_cases own : thread = event.thread
    · subst own
      obtain rfl : other = worker := Option.mem_unique found located
      rw [← batch]
      have bound := (List.getElem?_eq_some_iff.mp located).1
      exact resting event.thread moved (by simp [bound])
    · exact resting thread other (by simpa [List.getElem?_set_ne (Ne.symm own)] using found)
  · intro thread other found
    rcases Pool.located_after located found with ⟨rfl, rfl⟩ | ⟨apart, there⟩ | ⟨_, none⟩
    · exact staffed
    · have known := staff thread other there
      refine ⟨known.job, fun inside => ?_, fits_of_same same known.fits⟩
      exact (if_neg (Ne.symm apart)).trans (known.window inside)
    · cases none

theorem tracked_write (blob : Entry) (tracked : Tracked jobs id initial before trace locals)
    (located : locals[event.thread]? = some worker) (later : Later id before after)
    (alone : ∀ other, other ≠ event.thread → inWindow id other trace = false)
    (counted : Counted jobs id initial after (event :: trace) blob)
    (homed : moved.2.midBatch = false → Homed id after blob)
    (staffed : Staffed jobs id after (event :: trace) event.thread moved) :
    Tracked jobs id initial after (event :: trace) (locals.set event.thread moved ++ []) := by
  refine ⟨⟨blob, counted, fun resting => homed ?_⟩, ?_⟩
  · have bound := (List.getElem?_eq_some_iff.mp located).1
    exact resting event.thread moved (by simp [bound])
  · intro thread other found
    rcases Pool.located_after located found with ⟨rfl, rfl⟩ | ⟨apart, there⟩ | ⟨_, none⟩
    · exact staffed
    · have known := tracked.staff thread other there
      have outside := known.closed (alone thread apart)
      refine ⟨known.job, fun inside => ?_, fits_of_later later outside known.fits⟩
      rw [outside] at inside
      cases inside
    · cases none

include tracked in
theorem tracked_outside (located : locals[event.thread]? = some worker) (same : SameEntry id before after)
    (quiet : committed id event = false) (away : worker.2.inside = false) :
    Tracked jobs id initial after (event :: trace) (locals.set event.thread worker ++ []) := by
  have known := tracked.staff _ _ located
  refine tracked_quiet tracked event located same quiet rfl ⟨known.job, fun inside => ?_, fits_of_same same known.fits⟩
  rw [away] at inside
  cases inside

variable {thread : Nat}

section

variable (tracked : Tracked jobs id initial before trace locals) (located : locals[thread]? = some worker)

include tracked located

attribute [local simp] inWindow

theorem tracked_now (instant : Time) :
    Tracked jobs id initial before (⟨thread, .now, instant⟩ :: trace) (locals.set thread worker ++ []) := by
  have known := tracked.staff thread worker located
  refine tracked_quiet tracked ⟨thread, .now, instant⟩ located (sameEntry_refl id before) rfl rfl
    ⟨known.job, fun inside => ?_, known.fits⟩
  simpa using known.window inside

section

variable (away : worker.2.inside = false)

include away

theorem tracked_loadForUpdate (target : String) :
    Tracked jobs id initial before (⟨thread, .loadForUpdate target, before.find target⟩ :: trace)
      (locals.set thread ((raceDiscipline id).after worker (.loadForUpdate target) (before.find target)) ++ []) := by
  have known := tracked.staff thread worker located
  by_cases same : target = id
  · subst same
    obtain ⟨blob, counted, _⟩ := tracked.stored
    rw [counted.found, after_loadForUpdate_some]
    refine tracked_quiet tracked ⟨thread, .loadForUpdate target, some blob⟩ located
      (sameEntry_refl target before) rfl (midBatch_of_outside away).symm ⟨known.job, fun _ => ?_, counted.found⟩
    simp
  · rw [after_loadForUpdate_other id worker same]
    exact tracked_outside tracked ⟨thread, .loadForUpdate target, before.find target⟩ located
      (sameEntry_refl id before) rfl away

theorem tracked_watch (target : String) :
    Tracked jobs id initial before (⟨thread, .watch target, before.version target⟩ :: trace)
      (locals.set thread ((raceDiscipline id).after worker (.watch target) (before.version target)) ++ []) := by
  have known := tracked.staff thread worker located
  by_cases same : target = id
  · subst same
    rw [after_watch]
    refine tracked_quiet tracked ⟨thread, .watch target, before.version target⟩ located
      (sameEntry_refl target before) rfl (midBatch_of_outside away).symm
      ⟨known.job, fun inside => ?_, Nat.le_refl _⟩
    cases inside
  · rw [after_watch_other id worker same]
    exact tracked_outside tracked ⟨thread, .watch target, before.version target⟩ located
      (sameEntry_refl id before) rfl away

theorem tracked_get (target : String) :
    Tracked jobs id initial before (⟨thread, .get target, before.find target⟩ :: trace)
      (locals.set thread ((raceDiscipline id).after worker (.get target) (before.find target)) ++ []) := by
  have known := tracked.staff thread worker located
  have plain := tracked_outside tracked ⟨thread, .get target, before.find target⟩ located
    (sameEntry_refl id before) rfl away
  obtain ⟨job, phase⟩ := worker
  cases phase with
  | watching version =>
    cases read : before.find target with
    | none =>
      rw [read] at plain
      exact plain
    | some entry =>
      by_cases same : target = id
      · subst same
        rw [after_get_watching]
        refine tracked_quiet tracked ⟨thread, .get target, some entry⟩ located
          (sameEntry_refl target before) rfl rfl ⟨known.job, fun inside => ?_, known.fits, fun _ => read⟩
        cases inside
      · have unmoved : (raceDiscipline id).after (job, .watching version) (.get target) (some entry) =
            (job, .watching version) := if_neg same
        rw [unmoved]
        rw [read] at plain
        exact plain
  | idle => exact plain
  | held => exact plain
  | loaded => cases away
  | writing => cases away

end

theorem tracked_batch (own : worker.1 = job) (opened : worker.2.inside = true)
    (alone : ∀ other, other ≠ thread → inWindow id other trace = false)
    (rewrites : Rewrites entry updated score)
    (batch : statusMoves entry updated score = done ++ write :: rest)
    (fits : Phase.Fits id before (.writing entry done)) :
    Tracked jobs id initial (before.apply write) (⟨thread, .write write, ()⟩ :: trace) (locals.set thread
        (if write.isBlob then (job, .idle) else (job, .writing entry (done ++ [write]))) ++ []) := by
  have known := tracked.staff thread worker located
  obtain ⟨blob, counted, _⟩ := tracked.stored
  obtain rfl : blob = entry := Option.mem_unique counted.found fits.1
  have named : blob.id = id := id_of_find counted.found
  have scores : ∀ key, key ≠ .domains → (before.apply write).score key id =
      (done ++ [write]).foldl (onScores id) (homeScore (some blob)) key := by
    intro key indexed
    rw [before.score_apply_onScores, foldl_append]
    exact onScores_congr id write (fits.2 key indexed)
  have uncommitted : tally jobs id initial (⟨thread, .write write, ()⟩ :: trace) = tally jobs id initial trace := by
    simp [tally, committed]
  cases kind : write.isBlob with
  | true =>
    obtain ⟨rfl, rfl⟩ := statusMoves_blob batch kind
    refine tracked_write ⟨thread, .write (.setBlob updated), ()⟩ updated tracked located
      (before.later_apply _ id) alone ⟨?_, ?_, ?_, ?_⟩ (fun _ key indexed => ?_)
      ⟨own ▸ known.job, fun inside => (by cases inside), trivial⟩
    · rw [find_apply]
      exact if_pos (rewrites.named.trans named)
    · rw [rewrites.domain]
      exact counted.domained
    · rw [rewrites.created]
      exact counted.dated
    · rw [rewrites.counted, uncommitted]
      exact counted.count
    · rw [scores key indexed, ← batch, ← named]
      obtain ⟨instant, created⟩ := Option.isSome_iff_exists.mp counted.dated
      rw [rewrites.scored instant created, ← homeScore_moved rewrites.domain rewrites.created created key]
      simp [statusMoves, whenDomain, counted.domained, onScores]
  | false =>
    have kept : (before.apply write).find id = before.find id := by
      rw [find_apply]
      have present : write ∈ statusMoves blob updated score := by simp [batch]
      unfold statusMoves whenDomain at present
      cases write with
      | setBlob => cases kind
      | delete => split at present <;> simp at present
      | zadd => rfl
      | zrem => rfl
    refine tracked_write ⟨thread, .write write, ()⟩ blob tracked located
      (before.later_apply _ id) alone
      ⟨kept.trans counted.found, counted.domained, counted.dated, uncommitted ▸ counted.count⟩
      (fun resting => by cases resting) ⟨own ▸ known.job, fun _ => ?_, kept.trans counted.found, scores⟩
    have already := known.window opened
    cases write with
    | setBlob => cases kind
    | _ => simpa using already

end

attribute [local simp] applyAll find_apply onScores whenDomain statusKey_replaying

theorem committed_blob
    (commits : job.Commits entry writes) (found : before.find id = some entry) (domained : entry.domain ≠ "")
    (dated : entry.createdAt.isSome = true) (homed : Homed id before entry) :
    ∃ updated, (before.applyAll writes).find id = some updated ∧ updated.domain = entry.domain ∧
      updated.createdAt = entry.createdAt ∧ updated.retryCount = job.counts entry.retryCount ∧
      Homed id (before.applyAll writes) updated := by
  obtain rfl : entry.id = id := id_of_find found
  obtain ⟨instant, created⟩ := Option.isSome_iff_exists.mp dated
  have scored : ∀ now, entry.createdAtScore now = instant := by
    intro now
    simp [FailedOperationData.createdAtScore, created]
  have replaced : ∀ key, key ≠ .domains → (before.applyAll writes).score key entry.id =
      writes.foldl (onScores entry.id) (homeScore (some entry)) key := by
    intro key indexed
    rw [score_applyAll]
    exact foldl_onScores_congr entry.id writes (homed key indexed)
  cases job with
  | acquire target maxRetries force =>
    obtain ⟨now, updated, verdict, rfl⟩ := commits
    obtain ⟨named, domain, sameCreation, replaying⟩ := FailedOperationData.kept_of_acquired verdict
    refine ⟨updated, ?_, domain, sameCreation, ?_, fun key indexed => ?_⟩
    · simp [acquisitionMoves, domained, named]
    · cases force with
      | false =>
        obtain ⟨_, _, rfl⟩ := FailedOperationData.acquired_unforced verdict
        rfl
      | true =>
        obtain ⟨_, _, _, rfl⟩ := FailedOperationData.acquired_forced verdict
        rfl
    · rw [replaced key indexed, scored now, ← homeScore_moved domain sameCreation created key]
      simp [acquisitionMoves, domained, replaying]
  | giveBack target acquiredRetryCount =>
    obtain ⟨holds, rfl⟩ := commits
    have count := (FailedOperationData.holdsAttempt_iff.mp holds).2
    refine ⟨{ entry with retryCount := acquiredRetryCount - 1 }, ?_, rfl, rfl, ?_, fun key indexed => ?_⟩
    · simp
    · simp [RedisJob.counts, count]
    · rw [replaced key indexed]
      rfl
  | releaseStale =>
    obtain ⟨replaying, now, rfl⟩ := commits
    obtain ⟨named, domain, sameCreation⟩ := kept_by_release entry now
    refine ⟨entry.markStaleReleased now, ?_, domain, sameCreation, ?_, fun key indexed => ?_⟩
    · simp [releaseMoves, domained, named]
    · unfold FailedOperationData.markStaleReleased
      split <;> rfl
    · rw [replaced key indexed, scored now, ← homeScore_moved domain sameCreation created key]
      simp [releaseMoves, domained, replaying]
  | complete
  | updateStatus => cases commits

include tracked in
theorem tracked_execute (located : locals[thread]? = some worker)
    (may : (raceDiscipline id).may worker (.execute target watched writes))
    (alone : RedisCommand.touches id before (.execute target watched writes) = true →
      ∀ other, other ≠ thread → inWindow id other trace = false) :
    Tracked jobs id initial (exec (.execute target watched writes) before).1
      (⟨thread, .execute target watched writes, (exec (.execute target watched writes) before).2⟩ :: trace)
      (locals.set thread worker ++ []) := by
  obtain ⟨away, onEntry, elsewhere⟩ := may
  have known := tracked.staff thread worker located
  by_cases through : before.version target = watched
  · simp only [exec, through, if_true]
    by_cases same : target = id
    · subst same
      obtain ⟨entry, held, commits⟩ := onEntry rfl
      have others := alone (by simp [RedisCommand.touches, through])
      have fits := known.fits
      rw [held] at fits
      obtain ⟨blob, counted, homed⟩ := tracked.stored
      obtain rfl : blob = entry := Option.some.inj (counted.found.symm.trans (fits.2 through))
      have resting := tracked.resting located (midBatch_of_outside away) others
      obtain ⟨updated, found, domain, created, count, homed'⟩ :=
        committed_blob commits counted.found counted.domained counted.dated (homed resting)
      have later := before.later_applyAll writes target
      refine tracked_write ⟨thread, .execute target watched writes, true⟩ updated tracked located later others
        ⟨found, domain ▸ counted.domained, created ▸ counted.dated, ?_⟩ (fun _ => homed')
        ⟨known.job, fun inside => ?_, fits_of_later later away known.fits⟩
      · simp only [tally, committed, decide_true, Bool.and_self, if_true, known.job, count, counted.count]
      · rw [away] at inside
        cases inside
    · refine tracked_outside tracked ⟨thread, .execute target watched writes, true⟩ located
        (before.applyAll_untouched writes (elsewhere same)) ?_ away
      simp [committed, same]
  · simp only [exec, through, if_false]
    refine tracked_outside tracked ⟨thread, .execute target watched writes, false⟩ located
      (sameEntry_refl id before) ?_ away
    simp [committed]

include tracked in
theorem tracked_redisWrite (located : locals[thread]? = some worker)
    (may : (raceDiscipline id).may worker (.write write))
    (alone : write.touches id = true → ∀ other, other ≠ thread → inWindow id other trace = false) :
    Tracked jobs id initial (before.apply write) (⟨thread, .write write, ()⟩ :: trace)
      (locals.set thread ((raceDiscipline id).after worker (.write write) ()) ++ []) := by
  have known := tracked.staff thread worker located
  have elsewhere (apart : write.touches id = false) (away : worker.2.inside = false) :=
    tracked_outside tracked ⟨thread, .write write, ()⟩ located (before.apply_untouched apart) rfl away
  obtain ⟨job, phase⟩ := worker
  have own (entry updated : Entry) (score : Time) (done rest : List RedisWrite)
      (rewrites : Rewrites entry updated score)
      (batch : statusMoves entry updated score = done ++ write :: rest)
      (found : before.find id = some entry) : write.touches id = true := by
    have named : entry.id = id := id_of_find found
    have queued : write ∈ statusMoves entry updated score := by simp [batch]
    rw [← named]
    exact touches_statusMoves rewrites.named write queued
  cases phase with
  | loaded entry =>
    obtain ⟨updated, score, rest, rewrites, batch⟩ := may
    have others := alone (own entry updated score [] rest rewrites batch known.fits)
    obtain ⟨blob, counted, homed⟩ := tracked.stored
    obtain rfl : blob = entry := Option.mem_unique counted.found known.fits
    have fits : Phase.Fits id before (.writing blob []) :=
      ⟨counted.found, homed (tracked.resting located rfl others)⟩
    have whole : statusMoves blob updated score = [] ++ write :: rest := batch
    have next := tracked_batch tracked located rfl rfl others rewrites whole fits
    have first : write.isBlob = false := by
      have head := congrArg head? batch
      simp only [statusMoves, cons_append, head?_cons, Option.some.injEq] at head
      rw [← head]
      rfl
    simpa [first] using next
  | writing entry done =>
    obtain ⟨updated, score, rest, rewrites, batch⟩ := may
    have others := alone (own entry updated score done rest rewrites batch known.fits.1)
    exact tracked_batch tracked located rfl rfl others rewrites batch known.fits
  | _ => exact elsewhere may rfl

end

theorem race_sound (jobs : List RedisJob) (id : String) (initial : Int) :
    Pool.Sound redisMachine (raceDiscipline id) (fun _ (_ : Unit) => True) (Tracked jobs id initial)
      (writesAlone id) where
  step config locals thread worker call alone pending tracked located may := by
    have alone' := alone call pending
    cases call with
    | now => exact ⟨trivial, [], .nil, tracked_now tracked located _⟩
    | allocateId => cases may
    | get target =>
      exact ⟨fun entry found => id_of_find found, [], .nil, tracked_get tracked located may target⟩
    | loadForUpdate target =>
      exact ⟨fun entry found => id_of_find found, [], .nil, tracked_loadForUpdate tracked located may target⟩
    | watch target => exact ⟨trivial, [], .nil, tracked_watch tracked located may target⟩
    | write => exact ⟨trivial, [], .nil, tracked_redisWrite tracked located may alone'⟩
    | deleteKey => cases may
    | zrange key start stop =>
      exact ⟨trivial, [], .nil, tracked_outside tracked ⟨thread, .zrange key start stop, _⟩ located
        (sameEntry_refl id _) rfl may⟩
    | execute =>
      exact ⟨trivial, [], .nil, tracked_execute tracked located may alone'⟩
  disturb config locals change _ tracked := by
    cases change with
    | advance =>
      obtain ⟨⟨blob, counted, homed⟩, staff⟩ := tracked
      refine ⟨⟨blob, { counted with }, homed⟩, ?_⟩
      intro thread worker there
      have known := staff thread worker there
      exact ⟨known.job, known.window, fits_of_same ⟨rfl, rfl, fun _ => rfl⟩ known.fits⟩
  spawn config locals program alone _ := by
    cases alone

/-- As long as every writer of the entry finds no other worker in its window, the stored count is
the one the committed acquisitions and give-backs add up to, and outside the windows the entry is
in the homes of its blob and nowhere else. -/
theorem acquisitions_kept (world : RedisWorld) (jobs : List RedisJob) (id : String)
    (entry : Entry) (found : world.find id = some entry) (domained : entry.domain ≠ "")
    (dated : entry.createdAt.isSome = true)
    (homed : ∀ key, key ≠ .domains → world.score key id = homeScore (some entry) key)
    (schedule : List RedisAction)
    (alone : redisMachine.Always (writesAlone id) (raceStart world jobs) schedule) :
    ∃ blob, (redisMachine.run (raceStart world jobs) schedule).state.find id = some blob ∧
      blob.retryCount = tally jobs id entry.retryCount (redisMachine.run (raceStart world jobs) schedule).trace ∧
      ((∀ thread, inWindow id thread (redisMachine.run (raceStart world jobs) schedule).trace = false) →
        ∀ key, key ≠ .domains →
          (redisMachine.run (raceStart world jobs) schedule).state.score key id = homeScore (some blob) key) := by
  have started : Pool.Coherent (raceDiscipline id) (fun _ (_ : Unit) => True)
      (Tracked jobs id entry.retryCount) (raceStart world jobs) := by
    refine ⟨jobs.map fun job => (job, .idle), ?_, ?_, ?_⟩
    · simp only [raceStart, forall₂_map_left_iff, forall₂_map_right_iff, forall₂_same]
      intro job _
      exact (keeps_redisJob job (job, .idle) ⟨rfl, rfl⟩).mono fun _ _ _ => trivial
    · exact ⟨entry, ⟨found, domained, dated, rfl⟩, fun _ => homed⟩
    · intro thread worker there
      simp only [getElem?_map, Option.map_eq_some_iff] at there
      obtain ⟨job, listed, rfl⟩ := there
      exact ⟨listed, fun inside => (by cases inside), trivial⟩
  obtain ⟨locals, _, tracked⟩ := (race_sound jobs id entry.retryCount).run alone started
  obtain ⟨blob, counted, homed'⟩ := tracked.stored
  refine ⟨blob, counted.found, counted.count, fun closed => homed' fun thread worker there => ?_⟩
  exact midBatch_of_outside ((tracked.staff thread worker there).closed (closed thread))

def racedEntry : Entry :=
  RedisDlq.newEntry "payments" "timeout" "gateway timeout" Metadata.empty 0 3 "" "pod:7:0" 0

def racedRedis : RedisWorld :=
  ({ emptyRedis 0 "pod:7" with nextSeq := 1 } : RedisWorld).applyAll (RedisDlq.creationMoves racedEntry 0)

theorem mirrored_racedRedis : Mirrored racedRedis := by
  exact mirrored_creationMoves racedEntry (mirrored_emptyRedis 0 "pod:7") (by decide) rfl rfl (by decide)

theorem racedRedis_find : racedRedis.find "pod:7:0" = some racedEntry := by
  rfl

def racedJobs : List RedisJob :=
  [.complete "pod:7:0" { success := false } none, .acquire "pod:7:0" 3 false]

def orderlySchedule : List RedisAction :=
  (List.replicate 4 1 ++ List.replicate 8 0).map .step

def overtakenSchedule : List RedisAction :=
  (List.replicate 2 0 ++ List.replicate 4 1 ++ List.replicate 6 0).map .step

theorem orderly_report_keeps_acquisition :
    ∃ blob, (redisMachine.run (raceStart racedRedis racedJobs) orderlySchedule).state.find "pod:7:0" = some blob ∧
      blob.retryCount = tally racedJobs "pod:7:0" racedEntry.retryCount
        (redisMachine.run (raceStart racedRedis racedJobs) orderlySchedule).trace ∧
      ((∀ thread, inWindow "pod:7:0" thread
          (redisMachine.run (raceStart racedRedis racedJobs) orderlySchedule).trace = false) →
        ∀ key, key ≠ .domains →
          (redisMachine.run (raceStart racedRedis racedJobs) orderlySchedule).state.score key "pod:7:0" =
            homeScore (some blob) key) := by
  refine acquisitions_kept racedRedis racedJobs "pod:7:0" racedEntry racedRedis_find (by decide) rfl ?_
    orderlySchedule (by decide +kernel)
  intro key indexed
  rw [mirrored_racedRedis.placed _ key indexed, racedRedis_find]

theorem overtaken_report_loses_acquisition :
    (redisMachine.run (raceStart racedRedis racedJobs) overtakenSchedule).finished 0 = some () ∧
      (redisMachine.run (raceStart racedRedis racedJobs) overtakenSchedule).finished 1 = some () ∧
      tally racedJobs "pod:7:0" racedEntry.retryCount
        (redisMachine.run (raceStart racedRedis racedJobs) overtakenSchedule).trace = 1 ∧
      ((redisMachine.run (raceStart racedRedis racedJobs) overtakenSchedule).state.find "pod:7:0").map
        (fun blob => (blob.retryCount, blob.status)) = some (0, .pending) ∧
      (redisMachine.run (raceStart racedRedis racedJobs) overtakenSchedule).state.score
        (.status .replaying) "pod:7:0" = some 0 := by
  decide +kernel

end Baldur.Dlq
