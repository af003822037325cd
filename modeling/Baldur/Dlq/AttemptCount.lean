import Baldur.Dlq.ReplayRuns
import Mathlib.Tactic.Linarith

/-!
The replay attempts of one entry. An acquisition raises the count and a give-back, fenced on the count alone,
lowers it.
-/

namespace Baldur.Dlq

open Prog List MemoryStore Option Pool

variable {id : String} {now : Time} {store : MemoryStore} {entry : Entry} {call : MemoryCall}

namespace MemoryCall

def acquires (id : String) : (call : MemoryCall) → call.Answer → Bool
  | .tryAcquireForReplay other _ _, .acquired _ => other = id
  | _, _ => false

def givesBack (id : String) : (call : MemoryCall) → call.Answer → Bool
  | .returnReplayAttempt other _, returned => other = id && returned
  | _, _ => false

def forces (id : String) : MemoryCall → Bool
  | .tryAcquireForReplay other _ force => other = id && force
  | _ => false

variable {now : Time} {store : MemoryStore} {id : String} {entry : Entry}

theorem answer_tryAcquireForReplay (found : store.find id = some entry) (maxRetries : Int) (force : Bool) :
    (store.tryAcquireForReplay now id maxRetries force).2 = entry.tryAcquireForReplay now maxRetries force := by
  simp only [MemoryStore.tryAcquireForReplay, found]
  split
  · rename_i updated verdict
    exact verdict.symm
  · rfl

theorem answer_returnReplayAttempt (found : store.find id = some entry) (acquiredRetryCount : Int) :
    (store.returnReplayAttempt id acquiredRetryCount).2 = entry.holdsAttempt acquiredRetryCount := by
  simp only [MemoryStore.returnReplayAttempt, found]
  split
  · rename_i holds
    exact holds.symm
  · rename_i lost
    simp only [Bool.not_eq_true] at lost
    exact lost.symm

end MemoryCall

namespace FailedOperationData

variable {entry updated : Entry} {now : Time}

theorem acquired_unforced {maxRetries : Int}
    (acquired : entry.tryAcquireForReplay now maxRetries false = .acquired updated) :
    entry.status = .pending ∧ entry.retryCount < maxRetries ∧ updated = { entry with
        status := .replaying
        retryCount := entry.retryCount + 1
        lastRetryAt := some now
        updatedAt := some now } := by
  simp only [tryAcquireForReplay, Bool.false_eq_true, if_false] at acquired
  split at acquired
  · cases acquired
  · rename_i waiting
    split at acquired
    · cases acquired
    · rename_i below
      cases acquired
      exact ⟨by simpa using waiting, by omega, rfl⟩

theorem holdsAttempt_iff {acquiredRetryCount : Int} :
    entry.holdsAttempt acquiredRetryCount = true ↔
      entry.status = .replaying ∧ entry.retryCount = acquiredRetryCount := by
  simp [holdsAttempt]

end FailedOperationData

open MemoryCall

theorem acquires_elsewhere {other : String} (apart : other ≠ id) (maxRetries : Int) (force : Bool)
    (answer : Acquisition) :
    acquires id (.tryAcquireForReplay other maxRetries force) answer = false := by
  cases answer <;> simp [acquires, apart]

theorem retryCount_effect
    (found : store.find id = some entry) (call : MemoryCall) (unforced : call.forces id = false) :
    (call.effect now id entry).retryCount = entry.retryCount +
      (if call.acquires id (call.exec now store).2 then 1 else 0) -
      (if call.givesBack id (call.exec now store).2 then 1 else 0) := by
  cases call with
  | getById => simp [effect, acquires, givesBack]
  | tryAcquireForReplay other maxRetries force =>
    by_cases same : other = id
    · subst same
      have ordinary : force = false := by simpa [MemoryCall.forces] using unforced
      subst ordinary
      simp only [exec, MemoryCall.answer_tryAcquireForReplay found, effect, if_true,
        givesBack, Bool.false_eq_true, if_false]
      cases verdict : entry.tryAcquireForReplay now maxRetries false with
      | acquired =>
        obtain ⟨_, _, rfl⟩ := FailedOperationData.acquired_unforced verdict
        simp [acquires]
      | refused | raised => simp [acquires]
    · simp [effect, same, acquires_elsewhere same, givesBack]
  | returnReplayAttempt other acquiredRetryCount =>
    by_cases same : other = id
    · subst same
      simp only [exec, effect, if_true, acquires, givesBack, MemoryCall.answer_returnReplayAttempt found]
      by_cases holds : entry.holdsAttempt acquiredRetryCount = true
      · have count := (FailedOperationData.holdsAttempt_iff.mp holds).2
        simp [holds, count]
      · simp [holds]
    · simp [effect, same, acquires, givesBack]
  | releaseStaleReplaying =>
    simp only [effect, acquires, givesBack]
    split
    · simp only [FailedOperationData.releaseStale]
      split <;> simp
    · simp
  | completeReplay | updateStatus =>
    simp only [effect, acquires, givesBack]
    split <;> simp [FailedOperationData.completeReplay, FailedOperationData.updateStatus]

def acquired (id : String) (event : ReplayEvent) : Bool :=
  event.call.acquires id event.answer

def gaveBack (id : String) (event : ReplayEvent) : Bool :=
  event.call.givesBack id event.answer

def sinceOwn (id : String) (thread : Nat) (trace : List ReplayEvent) : List ReplayEvent :=
  trace.takeWhile fun event => !(event.thread = thread && acquired id event)

/-- A replay remembers the count its own acquisition returned and gives back that count only. -/
def attemptDiscipline (id : String) : Discipline MemoryCall MemoryCall.Answer (Option Int) where
  may held
    | .tryAcquireForReplay other _ force => other = id → force = false
    | .returnReplayAttempt other acquiredRetryCount => other = id → held = some acquiredRetryCount
    | _ => True
  valid _
    | .tryAcquireForReplay other _ _, .acquired entry => entry.id = other
    | _, _ => True
  after held
    | .tryAcquireForReplay other _ _, .acquired entry => if other = id then some entry.retryCount else held
    | _, _ => held

def startsReplaysOf (id : String) (_ : ReplayConfig) : ReplayAction → Prop
  | .spawn program => Obeys (attemptDiscipline id) (fun _ _ => True) none program
  | _ => True

theorem sinceOwn_other (id : String) (thread : Nat) (event : ReplayEvent) (trace : List ReplayEvent)
    (foreign : (event.thread = thread && acquired id event) = false) :
    sinceOwn id thread (event :: trace) = event :: sinceOwn id thread trace := by
  simp only [sinceOwn, takeWhile_cons, foreign, Bool.not_false, if_true]

def CountFollows (id : String) (world : World) (trace : List ReplayEvent) (locals : List (Option Int)) : Prop :=
  ∀ thread (held : Int), locals[thread]? = some (some held) →
    ∀ entry, world.store.find id = some entry →
      entry.retryCount = held + (sinceOwn id thread trace).countP (acquired id) -
        (sinceOwn id thread trace).countP (gaveBack id)

theorem attempts_job (id : String) (job : ReplayJob) :
    Obeys (attemptDiscipline id) (fun _ _ => True) none job.program := by
  cases job with
  | replay surroundings maxReplayAttempts dlqId =>
    refine (obeys_bind ..).mpr ?_
    refine (Replay.obeys_executeReplay (fun _ => True)
      (fun entry held => entry.id = dlqId ∧ (dlqId = id → held = some entry.retryCount))
      ?_ ?_ ?_ ?_ trivial).mono fun _ _ _ => trivial
    · exact keeps_perform (fun _ _ => trivial) (fun _ _ _ _ => trivial)
    · intro held _
      refine ⟨fun _ => rfl, fun answer valid => ?_⟩
      cases answer with
      | acquired =>
        refine ⟨valid, fun same => ?_⟩
        simp [attemptDiscipline, same]
      | refused => trivial
      | raised => trivial
    · intro entry other completion
      exact keeps_perform (fun _ _ => trivial) (fun _ _ holds _ => holds)
    · intro entry other either
      refine keeps_perform (fun held holds same => ?_) (fun _ _ holds _ => holds)
      rcases either with rfl | rfl
      · exact holds.2 same
      · exact holds.2 (holds.1.symm.trans same)
  | releaseStale => exact ⟨trivial, fun _ _ => trivial⟩

theorem after_of_not_acquires {answer : call.Answer} (held : Option Int)
    (missed : call.acquires id answer = false) : (attemptDiscipline id).after held call answer = held := by
  cases call with
  | tryAcquireForReplay other =>
    cases answer with
    | acquired =>
      have elsewhere : other ≠ id := by simpa [acquires] using missed
      simp [attemptDiscipline, elsewhere]
    | refused => rfl
    | raised => rfl
  | _ => rfl

theorem after_of_acquires
    {stored : Entry} (held : Option Int) (found : store.find id = some entry)
    (taken : call.acquires id (call.exec now store).2 = true)
    (after : (call.exec now store).1.find id = some stored) :
    (attemptDiscipline id).after held call (call.exec now store).2 = some stored.retryCount := by
  rw [find_exec, found, map_some, some.injEq] at after
  subst after
  cases call with
  | tryAcquireForReplay other maxRetries force =>
    have same : other = id := by
      cases verdict : (exec now store (.tryAcquireForReplay other maxRetries force)).2 with
      | acquired => simpa [verdict, acquires] using taken
      | refused | raised => simp [verdict, acquires] at taken
    subst same
    simp only [exec, answer_tryAcquireForReplay found, effect, if_true] at taken ⊢
    cases verdict : entry.tryAcquireForReplay now maxRetries force with
    | acquired => simp [attemptDiscipline]
    | refused | raised => simp [verdict, acquires] at taken
  | _ => simp [acquires] at taken

theorem forces_of_may {held : Option Int}
    (permitted : (attemptDiscipline id).may held call) : call.forces id = false := by
  cases call with
  | tryAcquireForReplay other =>
    simp only [forces, Bool.and_eq_false_iff, decide_eq_false_iff_not]
    by_cases same : other = id
    · exact .inr (permitted same)
    · exact .inl same
  | _ => rfl

theorem valid_exec (id : String) (held : Option Int) (now : Time) (store : MemoryStore) (call : MemoryCall) :
    (attemptDiscipline id).valid held call (call.exec now store).2 := by
  cases call with
  | tryAcquireForReplay other maxRetries force =>
    simp only [exec, MemoryStore.tryAcquireForReplay]
    cases found : store.find other with
    | none => trivial
    | some entry =>
      simp only
      cases verdict : entry.tryAcquireForReplay now maxRetries force with
      | acquired =>
        exact (FailedOperationData.kept_of_acquired verdict).1.trans (MemoryStore.id_of_find found)
      | refused => trivial
      | raised => trivial
  | _ => trivial

theorem count_moves {thread mover : Nat} {world : World} {trace : List ReplayEvent} {held : Int}
    (found : world.store.find id = some entry) (unforced : call.forces id = false)
    (foreign : (decide (mover = thread) && call.acquires id (world.exec call).2) = false)
    (follows : entry.retryCount = held + (sinceOwn id thread trace).countP (acquired id) -
      (sinceOwn id thread trace).countP (gaveBack id)) :
    (call.effect world.clock id entry).retryCount =
      held + (sinceOwn id thread (⟨mover, call, (world.exec call).2⟩ :: trace)).countP (acquired id) -
        (sinceOwn id thread (⟨mover, call, (world.exec call).2⟩ :: trace)).countP (gaveBack id) := by
  rw [sinceOwn_other id thread _ trace foreign, retryCount_effect found call unforced, follows]
  simp only [countP_cons, acquired, gaveBack, World.exec]
  by_cases took : call.acquires id (call.exec world.clock world.store).2 = true <;>
    by_cases gave : call.givesBack id (call.exec world.clock world.store).2 = true <;>
    simp only [took, gave, if_true, if_false, Bool.false_eq_true] <;> omega

theorem attempts_sound (id : String) :
    Sound replayMachine (attemptDiscipline id) (fun _ _ => True) (CountFollows id) (startsReplaysOf id) where
  step := by
    intro config locals mover g call _ _ follows located permitted
    refine ⟨valid_exec id g config.state.clock config.state.store call, [], .nil, ?_⟩
    intro thread held after stored present
    have unforced := forces_of_may permitted
    have whole : (config.state.store.find id).map (call.effect config.state.clock id) = some stored := by
      rw [← find_exec]
      exact present
    obtain ⟨entry, found, rfl⟩ := map_eq_some_iff.mp whole
    rcases located_after located after with ⟨rfl, remembered⟩ | ⟨other, before⟩ | ⟨_, none⟩
    · by_cases taken : call.acquires id (config.state.exec call).2 = true
      · have count := after_of_acquires g found taken present
        have restarted : sinceOwn id thread (⟨thread, call, (replayMachine.exec call config.state).2⟩ ::
            config.trace) = [] := by simp [sinceOwn, acquired, replayMachine, taken]
        rw [restarted]
        have same : some held = some (call.effect config.state.clock id entry).retryCount :=
          remembered.trans count
        simp only [some.injEq] at same
        simp [same]
      · have missed : call.acquires id (config.state.exec call).2 = false := by simpa using taken
        have before : g = some held := (after_of_not_acquires g missed).symm.trans remembered.symm
        rw [before] at located
        exact count_moves found unforced (by simp [missed]) (follows thread held located entry found)
    · exact count_moves found unforced (by simp [other.symm]) (follows thread held before entry found)
    · simp at none
  disturb := by
    intro config locals change _ follows
    cases change
    exact follows
  spawn := by
    intro config locals program obeys follows
    refine ⟨none, obeys, ?_⟩
    intro thread held after
    rcases located_append after with before | ⟨_, new⟩
    · exact follows thread held before
    · cases new

/-- A give-back that succeeds has met no other acquisition since its own exactly when no attempt of
the entry was given back since. -/
theorem give_back_unovertaken (world : World) (id : String) (schedule : List ReplayAction)
    (replays : replayMachine.Always (startsReplaysOf id) (Pool.start world) schedule)
    (thread : Nat) (acquiredRetryCount : Int)
    (pending : (replayMachine.run (Pool.start world) schedule).pending thread =
      some (.returnReplayAttempt id acquiredRetryCount))
    (returned : ((replayMachine.run (Pool.start world) schedule).state.exec
      (.returnReplayAttempt id acquiredRetryCount)).2 = true) :
    (∀ event ∈ sinceOwn id thread (replayMachine.run (Pool.start world) schedule).trace,
        acquired id event = false) ↔
      ∀ event ∈ sinceOwn id thread (replayMachine.run (Pool.start world) schedule).trace,
        gaveBack id event = false := by
  obtain ⟨locals, g, follows, located, may⟩ := ((attempts_sound id).run replays
    ⟨[], .nil, by intro thread held after; simp at after⟩).may_of_pending pending
  generalize replayMachine.run (Pool.start world) schedule = config at *
  have held : g = some acquiredRetryCount := may rfl
  rw [held] at located
  cases found : config.state.store.find id with
  | none => simp [World.exec, MemoryCall.exec, MemoryStore.returnReplayAttempt, found] at returned
  | some entry =>
    have holds : entry.holdsAttempt acquiredRetryCount = true := by
      rw [← MemoryCall.answer_returnReplayAttempt found]
      exact returned
    have count := (FailedOperationData.holdsAttempt_iff.mp holds).2
    have balance := follows thread acquiredRetryCount located entry found
    -- The count is where the own acquisition left it, so raises and give-backs since then cancel.
    have cancel : (sinceOwn id thread config.trace).countP (acquired id) =
        (sinceOwn id thread config.trace).countP (gaveBack id) := by omega
    have none_acquired := List.countP_eq_zero (p := acquired id) (l := sinceOwn id thread config.trace)
    have none_given := List.countP_eq_zero (p := gaveBack id) (l := sinceOwn id thread config.trace)
    simp only [Bool.not_eq_true] at none_acquired none_given
    rw [← none_acquired, ← none_given, cancel]

section

def trialOf (decision : IdempotencyDecision) (outcome : HandlerOutcome) : ReplayJob :=
  .replay
    { truncateGate := fun _ => none
      handlerRefusal := fun _ => none
      idempotencyGate := fun _ => decision
      handler := fun _ => outcome
      workMayContinue := fun _ => false }
    3 "1" "recovery_trial" none true

def failingTrial : ReplayJob :=
  trialOf .proceed (.returned (ReplayResult.failed "1" "timed out"))

def abortedTrial : ReplayJob :=
  trialOf .abort (.returned (ReplayResult.failed "1" "not reached"))

def countReturnsRun : List ReplayAction :=
  [.spawn failingTrial.program, .step 0, .step 0, .disturb (.advance 3600000000),
    .spawn (ReplayJob.releaseStale 30).program, .step 1,
    .spawn abortedTrial.program, .step 2, .step 2, .step 2]

theorem overtaken_trial_gives_back :
    replayMachine.Always (startsReplaysOf "1") (start freshWorld) countReturnsRun ∧
      (replayMachine.run (start freshWorld) countReturnsRun).pending 0 = some (.returnReplayAttempt "1" 1) ∧
      ((replayMachine.run (start freshWorld) countReturnsRun).state.exec (.returnReplayAttempt "1" 1)).2 = true ∧
      ¬∀ event ∈ sinceOwn "1" 0 (replayMachine.run (start freshWorld) countReturnsRun).trace,
        acquired "1" event = false := by
  exact ⟨⟨attempts_job "1" _, trivial, trivial, trivial, attempts_job "1" _, trivial, attempts_job "1" _,
    trivial, trivial, trivial, trivial⟩, rfl, rfl, by decide +kernel⟩

theorem lone_trial_gives_back :
    ((replayMachine.run (start freshWorld) (countReturnsRun.take 3)).state.exec
        (.returnReplayAttempt "1" 1)).2 = true ∧
      ∀ event ∈ sinceOwn "1" 0 (replayMachine.run (start freshWorld) (countReturnsRun.take 3)).trace,
        acquired "1" event = false := by
  refine ⟨rfl, ?_⟩
  refine (give_back_unovertaken freshWorld "1" (countReturnsRun.take 3) ?_ 0 1 rfl rfl).mpr (by decide +kernel)
  exact ⟨attempts_job "1" _, trivial, trivial, trivial⟩

end

section

open Option FailedOperationData

structure Ledger where
  store : MemoryStore
  attempts : Int
  scars : Int

def countOf (store : MemoryStore) (id : String) : Int :=
  ((store.find id).map retryCount).getD 0

namespace Ledger

/-- A forced acquisition is the first attempt of a new budget and adds the count it found to the scars. -/
def step (id : String) (ledger : Ledger) (timed : Time × MemoryCall) : Ledger :=
  let out := timed.2.exec timed.1 ledger.store
  let took := timed.2.acquires id out.2
  { store := out.1
    attempts :=
      if took && timed.2.forces id then 1
      else ledger.attempts + (if took then 1 else 0) - (if timed.2.givesBack id out.2 then 1 else 0)
    scars := ledger.scars + if took && timed.2.forces id then countOf ledger.store id else 0 }

def run (id : String) (ledger : Ledger) (calls : List (Time × MemoryCall)) : Ledger :=
  calls.foldl (step id) ledger

end Ledger

/-- The lifecycle calls, at the entry's own cap: a give-back names a count an acquisition can return,
and error details leave the scar alone. -/
def ordinaryCall (id : String) (cap : Int) : MemoryCall → Prop
  | .tryAcquireForReplay other maxRetries _ => other = id → maxRetries = cap
  | .completeReplay other completion => other = id → completion.errorDetails "previous_total_retries" = none
  | .returnReplayAttempt other acquiredRetryCount => other = id → 1 ≤ acquiredRetryCount
  | .updateStatus .. => False
  | _ => True

def MemoryCall.isSettlement : MemoryCall → Bool
  | .completeReplay .. => true
  | .releaseStaleReplaying _ => true
  | _ => false

open MemoryCall

structure Accounted (cap base : Int) (ledger : Ledger) (entry : Entry) : Prop where
  stored : entry.maxRetries = cap
  lower : 0 ≤ entry.retryCount
  upper : entry.retryCount ≤ cap
  tallied : entry.retryCount = ledger.attempts
  scarred : entry.metadata.number "previous_total_retries" = some (base + ledger.scars)
  acquirable : entry.status = .pending → entry.retryCount < cap

namespace FailedOperationData

theorem acquired_forced {entry updated : Entry} {now : Time} {maxRetries : Int}
    (acquired : entry.tryAcquireForReplay now maxRetries true = .acquired updated) :
    ∃ total redrives, entry.metadata.number "previous_total_retries" = some total ∧ updated = { entry with
        status := .replaying
        retryCount := 1
        lastRetryAt := some now
        updatedAt := some now
        metadata :=
          (entry.metadata.set "previous_total_retries" (.number (total + entry.retryCount))).set
            "force_redrive_count" (.number (redrives + 1)) } := by
  simp only [tryAcquireForReplay, if_true] at acquired
  split at acquired
  · split at acquired
    · rename_i total redrives scar _
      cases acquired
      exact ⟨total, redrives, scar, rfl⟩
    · cases acquired
  · cases acquired

end FailedOperationData

section

variable {id : String} {cap base : Int} {ledger : Ledger} {entry : Entry} {now : Time}

section

variable (found : ledger.store.find id = some entry)

include found

section

variable (accounted : Accounted cap base ledger entry)

include accounted

theorem accounted_unforced (call : MemoryCall) (unforced : call.forces id = false)
    (stored : (call.effect now id entry).maxRetries = entry.maxRetries)
    (lower : 0 ≤ (call.effect now id entry).retryCount) (upper : (call.effect now id entry).retryCount ≤ cap)
    (scarred : (call.effect now id entry).metadata.number "previous_total_retries" =
      entry.metadata.number "previous_total_retries")
    (acquirable : (call.effect now id entry).status = .pending → (call.effect now id entry).retryCount < cap) :
    Accounted cap base (ledger.step id (now, call)) (call.effect now id entry) where
  stored := stored.trans accounted.stored
  lower := lower
  upper := upper
  tallied := by
    rw [retryCount_effect found call unforced, accounted.tallied]
    simp [Ledger.step, unforced]
  scarred := by
    rw [scarred, accounted.scarred]
    simp [Ledger.step, unforced]
  acquirable := acquirable

theorem accounted_kept {call : MemoryCall}
    (unforced : call.forces id = false) (kept : call.effect now id entry = entry) :
    Accounted cap base (ledger.step id (now, call)) (call.effect now id entry) := by
  refine accounted_unforced found accounted _ unforced ?_ ?_ ?_ ?_ ?_ <;> rw [kept]
  · exact accounted.lower
  · exact accounted.upper
  · exact accounted.acquirable

theorem accounted_acquire :
    Accounted cap base (ledger.step id (now, .tryAcquireForReplay id cap false))
      (effect now id (.tryAcquireForReplay id cap false) entry) := by
  have before := accounted
  obtain ⟨_, lower, upper, _, _, acquirable⟩ := accounted
  cases verdict : entry.tryAcquireForReplay now cap false with
  | acquired =>
    obtain ⟨_, below, rfl⟩ := acquired_unforced verdict
    refine accounted_unforced found before _ (by simp [forces]) ?_ ?_ ?_ ?_ ?_ <;>
      simp only [effect, if_true, verdict]
    · omega
    · omega
    · simp
  | refused | raised =>
    refine accounted_unforced found before _ (by simp [forces]) ?_ ?_ ?_ ?_ ?_ <;>
      simp only [effect, if_true, verdict]
    · exact lower
    · exact upper
    · exact acquirable

end

theorem accounted_force (positive : 1 ≤ cap) (accounted : Accounted cap base ledger entry) :
    Accounted cap base (ledger.step id (now, .tryAcquireForReplay id cap true))
      (effect now id (.tryAcquireForReplay id cap true) entry) := by
  have answer : (exec now ledger.store (.tryAcquireForReplay id cap true)).2 =
      entry.tryAcquireForReplay now cap true := answer_tryAcquireForReplay found cap true
  have forced : forces id (.tryAcquireForReplay id cap true) = true := by
    simp [forces]
  cases verdict : entry.tryAcquireForReplay now cap true with
  | acquired =>
    obtain ⟨total, redrives, scar, rfl⟩ := acquired_forced verdict
    have sum : total = base + ledger.scars := by
      have both := scar.symm.trans accounted.scarred
      simpa using both
    have took : acquires id (.tryAcquireForReplay id cap true)
        (exec now ledger.store (.tryAcquireForReplay id cap true)).2 = true := by
      rw [answer, verdict]
      simp [acquires]
    simp only [effect, if_true, verdict]
    refine ⟨accounted.stored, by simp, positive, ?_, ?_, by simp⟩
    · simp only [Ledger.step, took, forced, Bool.and_self, if_true]
    · rw [Metadata.number_set_of_ne _ (by decide), Metadata.number_set_self]
      simp only [Ledger.step, took, forced, Bool.and_self, if_true, countOf, found, map_some,
        getD_some, some.injEq]
      omega
  | refused | raised =>
    have missed : acquires id (.tryAcquireForReplay id cap true)
        (exec now ledger.store (.tryAcquireForReplay id cap true)).2 = false := by
      rw [answer, verdict]
      rfl
    simp only [effect, if_true, verdict]
    refine { accounted with tallied := ?_, scarred := ?_ }
    · simpa [Ledger.step, missed, givesBack] using accounted.tallied
    · simpa [Ledger.step, missed] using accounted.scarred

theorem accounted_step (positive : 1 ≤ cap)
    (accounted : Accounted cap base ledger entry) (call : MemoryCall) (ordinary : ordinaryCall id cap call) :
    Accounted cap base (ledger.step id (now, call)) (call.effect now id entry) := by
  have same := accounted
  obtain ⟨stored, lower, upper, _, _, acquirable⟩ := accounted
  cases call with
  | getById => exact accounted_kept found same rfl rfl
  | tryAcquireForReplay other maxRetries force =>
    by_cases here : other = id
    · obtain rfl := ordinary here
      subst here
      cases force with
      | false => exact accounted_acquire found same
      | true => exact accounted_force found positive same
    · exact accounted_kept found same (by simp [forces, here]) (by simp only [effect, if_neg here])
  | completeReplay other =>
    by_cases here : other = id
    · have untouched := ordinary here
      refine accounted_unforced found same _ rfl ?_ ?_ ?_ ?_ ?_ <;>
        simp only [effect, if_pos here, FailedOperationData.completeReplay]
      · exact lower
      · exact upper
      · simp [Metadata.number, Metadata.merge, untouched]
      · intro reverted
        simp only [completedStatus] at reverted
        split at reverted
        · cases reverted
        · split at reverted
          · cases reverted
          · omega
    · exact accounted_kept found same rfl (by simp only [effect, if_neg here])
  | returnReplayAttempt other acquiredRetryCount =>
    by_cases gives : other = id ∧ entry.holdsAttempt acquiredRetryCount = true
    · have counted := holdsAttempt_iff.mp gives.2
      have positive' := ordinary gives.1
      refine accounted_unforced found same _ rfl ?_ ?_ ?_ ?_ ?_ <;>
        simp only [effect, if_pos gives.1, if_pos gives.2]
      · omega
      · omega
      · intro waiting
        simp [waiting] at counted
    · have kept : effect now id (.returnReplayAttempt other acquiredRetryCount) entry = entry := by
        by_cases here : other = id
        · have lost : ¬entry.holdsAttempt acquiredRetryCount = true := fun holds => gives ⟨here, holds⟩
          simp only [effect, if_neg lost, ite_self]
        · simp only [effect, if_neg here]
      exact accounted_kept found same rfl kept
  | releaseStaleReplaying olderThanMinutes =>
    by_cases stale : entry.isStaleReplaying (now - minutes olderThanMinutes) = true
    · by_cases capped : entry.maxRetries ≤ entry.retryCount
      · refine accounted_unforced found same _ rfl ?_ ?_ ?_ ?_ ?_ <;>
          simp only [effect, if_pos stale, releaseStale, if_pos capped]
        · exact lower
        · exact upper
        · simp
      · refine accounted_unforced found same _ rfl ?_ ?_ ?_ ?_ ?_ <;>
          simp only [effect, if_pos stale, releaseStale, if_neg capped]
        · exact lower
        · exact upper
        · omega
    · exact accounted_kept found same rfl (by simp only [effect, if_neg stale])
  | updateStatus =>
    exact ordinary.elim

end

theorem review_only_at_cap (accounted : Accounted cap base ledger entry) (call : MemoryCall)
    (settles : call.isSettlement = true) (before : entry.status ≠ .requiresReview)
    (after : (call.effect now id entry).status = .requiresReview) : entry.retryCount = cap := by
  have stored := accounted.stored
  have upper := accounted.upper
  cases call with
  | completeReplay other =>
    by_cases here : other = id
    · simp only [effect, if_pos here, FailedOperationData.completeReplay,
        completedStatus] at after
      split at after
      · cases after
      · split at after
        · omega
        · cases after
    · simp only [effect, if_neg here] at after
      exact absurd after before
  | releaseStaleReplaying olderThanMinutes =>
    by_cases stale : entry.isStaleReplaying (now - minutes olderThanMinutes) = true
    · simp only [effect, if_pos stale, releaseStale] at after
      split at after
      · omega
      · cases after
    · simp only [effect, if_neg stale] at after
      exact absurd after before
  | _ => simp [isSettlement] at settles

theorem find_ledger_step (call : Time × MemoryCall) (found : ledger.store.find id = some entry) :
    (ledger.step id call).store.find id = some (call.2.effect call.1 id entry) := by
  change (call.2.exec call.1 ledger.store).1.find id = _
  rw [find_exec, found, map_some]

theorem accounted_run (positive : 1 ≤ cap) (calls : List (Time × MemoryCall))
    (ordinary : ∀ call ∈ calls, ordinaryCall id cap call.2) (found : ledger.store.find id = some entry)
    (accounted : Accounted cap base ledger entry) :
    ∃ entry', (ledger.run id calls).store.find id = some entry' ∧ Accounted cap base (ledger.run id calls) entry' := by
  induction calls generalizing ledger entry with
  | nil => exact ⟨entry, found, accounted⟩
  | cons call rest ih =>
    have next : Accounted cap base (ledger.step id call) (call.2.effect call.1 id entry) :=
      accounted_step found positive accounted call.2 (ordinary call (by simp))
    exact ih (fun other member => ordinary other (by simp [member])) (find_ledger_step call found) next

end

/-- Attempts are accounted exactly, and an entry never gets stuck below its cap. -/
theorem attempts_accounted (store : MemoryStore) (id : String) (created : Entry)
    (cap base : Int) (calls : List (Time × MemoryCall)) (found : store.find id = some created)
    (unused : created.retryCount = 0) (capped : created.maxRetries = cap) (positive : 1 ≤ cap)
    (history : created.metadata.number "previous_total_retries" = some base)
    (ordinary : ∀ call ∈ calls, ordinaryCall id cap call.2) :
    ∃ entry, (Ledger.run id ⟨store, 0, 0⟩ calls).store.find id = some entry ∧
      Accounted cap base (Ledger.run id ⟨store, 0, 0⟩ calls) entry ∧
      ∀ now call, call.isSettlement = true → entry.status ≠ .requiresReview →
        (effect now id call entry).status = .requiresReview → entry.retryCount = cap := by
  have start : Accounted cap base ⟨store, 0, 0⟩ created := by
    refine ⟨capped, by omega, by omega, unused, by simpa using history, ?_⟩
    intro _
    omega
  obtain ⟨entry, stored, accounted⟩ := accounted_run positive calls ordinary found start
  refine ⟨entry, stored, accounted, ?_⟩
  intro now call settles before after
  exact review_only_at_cap accounted call settles before after

def redriveCalls : List (Time × MemoryCall) :=
  [(0, .tryAcquireForReplay "1" 3 false), (1, .completeReplay "1" { success := false }),
    (2, .tryAcquireForReplay "1" 3 true), (3, .returnReplayAttempt "1" 1)]

theorem redrive_accounted :
    ∃ entry, (Ledger.run "1" ⟨freshWorld.store, 0, 0⟩ redriveCalls).store.find "1" = some entry ∧
      Accounted 3 0 (Ledger.run "1" ⟨freshWorld.store, 0, 0⟩ redriveCalls) entry ∧
      ∀ now call, call.isSettlement = true → entry.status ≠ .requiresReview →
        (effect now "1" call entry).status = .requiresReview → entry.retryCount = 3 := by
  refine attempts_accounted freshWorld.store "1" freshEntry 3 0 redriveCalls rfl rfl rfl (by decide) rfl ?_
  intro call member
  simp only [redriveCalls, mem_cons, not_mem_nil, or_false] at member
  rcases member with rfl | rfl | rfl | rfl
  · exact fun _ => rfl
  · exact fun _ => rfl
  · exact fun _ => rfl
  · exact fun _ => by decide

theorem give_back_of_zero_undercounts :
    ((Ledger.run "1" ⟨freshWorld.store, 0, 0⟩
      [(0, .tryAcquireForReplay "1" 3 false), (1, .returnReplayAttempt "1" 1),
        (2, .returnReplayAttempt "1" 0)]).store.find "1").map retryCount = some (-1) := by
  rfl

end

end Baldur.Dlq
