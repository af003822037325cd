import Baldur.Dlq.ReplayCore

/-!
What a RESOLVED entry lives through while workers replay and stale entries are released. The completion does
not look at the status, so a replay that fails late reopens the entry.
-/

namespace Baldur.Dlq

open Prog FailedOperationData Option Pool

def MemoryCall.isAutomatic : MemoryCall → Bool
  | .tryAcquireForReplay _ _ force => !force
  | .updateStatus .. => false
  | _ => true

def automaticDiscipline : Discipline MemoryCall MemoryCall.Answer Unit where
  may _ call := call.isAutomatic = true
  valid _ _ _ := True
  after _ _ _ := ()

variable {call : MemoryCall}

theorem automatic_repository (automatic : call.isAutomatic = true) :
    Keeps automaticDiscipline (fun _ => True) (Replay.repository call) := by
  exact keeps_perform (fun _ _ => automatic) (fun _ _ _ _ => trivial)

theorem automatic_job (job : ReplayJob) : Obeys automaticDiscipline (fun _ _ => True) () job.program := by
  cases job with
  | replay =>
    refine (obeys_bind ..).mpr ?_
    refine (Replay.obeys_executeReplay (fun _ => True) (fun _ _ => True) (automatic_repository rfl)
      ?_ ?_ ?_ trivial).mono fun _ _ _ => trivial
    · intro g _
      refine ⟨rfl, fun answer _ => ?_⟩
      cases answer <;> trivial
    · intro entry other completion
      exact automatic_repository rfl
    · intro entry other _
      exact automatic_repository rfl
  | releaseStale => exact ⟨rfl, fun _ _ => trivial⟩

abbrev AllAutomatic : ReplayConfig → Prop :=
  Pool.Coherent automaticDiscipline (fun _ _ => True) fun _ _ _ => True

theorem automatic_sound :
    Sound replayMachine automaticDiscipline (fun _ _ => True) (fun _ _ _ => True) runsReplayJobs where
  step := by
    intro config locals thread g call _ _ _ _ _
    exact ⟨trivial, [], .nil, trivial⟩
  disturb := by
    intro config locals change _ _
    trivial
  spawn := by
    rintro config locals program ⟨job, rfl⟩ _
    exact ⟨(), automatic_job job, trivial⟩

variable {config : ReplayConfig}

def World.statusOf (world : World) (id : String) : Option FailedOperationStatus :=
  (world.store.find id).map FailedOperationData.status

theorem statusOf_exec (call : MemoryCall) (world : World) (id : String) :
    (world.exec call).1.statusOf id =
      (world.store.find id).map fun entry => (call.effect world.clock id entry).status := by
  simp only [World.statusOf, World.exec, MemoryCall.find_exec, map_map]
  rfl

def MemoryCall.failsReplay (id : String) : MemoryCall → Bool
  | .completeReplay other completion => other = id && !completion.success
  | _ => false

variable {id : String}

attribute [local simp] MemoryCall.effect MemoryCall.failsReplay MemoryCall.isAutomatic

theorem resolved_effect {now : Time} {entry : Entry} (automatic : call.isAutomatic = true)
    (settles : call.failsReplay id = false) (resolved : entry.status = .resolved) :
    (call.effect now id entry).status = .resolved := by
  cases call with
  | getById => exact resolved
  | tryAcquireForReplay other maxRetries force =>
    have unforced : force = false := by simpa using automatic
    simp [tryAcquireForReplay, unforced, resolved]
  | completeReplay other completion =>
    by_cases same : other = id
    · have succeeds : completion.success = true := by
        simpa [same] using settles
      simp [same, completeReplay, completedStatus, succeeds]
    · simpa [same] using resolved
  | returnReplayAttempt =>
    simp [holdsAttempt, resolved]
  | releaseStaleReplaying =>
    simp [isStaleReplaying, resolved]
  | updateStatus =>
    simp at automatic

def FailedOperationStatus.reopened : FailedOperationStatus → Bool
  | .pending => true
  | .replaying => true
  | .requiresReview => true
  | _ => false

theorem reopened_of_failsReplay {now : Time} (fails : call.failsReplay id = true) (entry : Entry) :
    (call.effect now id entry).status.reopened = true := by
  cases call with
  | completeReplay other completion =>
    obtain ⟨same, failed⟩ : other = id ∧ completion.success = false := by
      simpa using fails
    simp only [MemoryCall.effect, same, if_true, completeReplay, completedStatus, failed, Bool.false_eq_true, if_false]
    split <;> rfl
  | _ => simp at fails

def failsUnresolved (id : String) (config : ReplayConfig) : ReplayAction → Prop
  | .step thread => ∀ call ∈ config.pending thread, call.failsReplay id = true →
      config.state.statusOf id ≠ some .resolved
  | _ => True

def StaysResolved (id : String) (config : ReplayConfig) (schedule : List ReplayAction) : Prop :=
  ∀ first later rest, schedule = first ++ later ++ rest →
    (replayMachine.run config first).state.statusOf id = some .resolved →
    ∀ status, (replayMachine.run config (first ++ later)).state.statusOf id = some status → status.reopened = false

instance decidableFailsUnresolved (id : String) (config : ReplayConfig) :
    (action : ReplayAction) → Decidable (failsUnresolved id config action)
  | .step thread => inferInstanceAs (Decidable (∀ call ∈ config.pending thread,
      call.failsReplay id = true → config.state.statusOf id ≠ some .resolved))
  | .disturb _ => isTrue trivial
  | .spawn _ => isTrue trivial

theorem resolved_act {action : ReplayAction} (all : AllAutomatic config)
    (settles : failsUnresolved id config action) (resolved : config.state.statusOf id = some .resolved) :
    (replayMachine.act config action).state.statusOf id = some .resolved := by
  cases action with
  | spawn => exact resolved
  | disturb change =>
    cases change
    exact resolved
  | step thread =>
    cases pending : config.pending thread with
    | none =>
      rw [replayMachine.act_idle pending]
      exact resolved
    | some call =>
      obtain ⟨next, found⟩ := Config.pending_eq_some.mp pending
      obtain ⟨_, _, _, _, (automatic : call.isAutomatic = true)⟩ := Coherent.may_of_pending all pending
      have unfailing : call.failsReplay id = false := by
        by_contra fails
        exact settles call pending (by simpa using fails) resolved
      rw [replayMachine.act_step found]
      change (config.state.exec call).1.statusOf id = some .resolved
      rw [statusOf_exec]
      obtain ⟨entry, stored, status⟩ := map_eq_some_iff.mp resolved
      rw [stored, map_some, resolved_effect automatic unfailing status]

theorem resolved_run {schedule : List ReplayAction} (all : AllAutomatic config)
    (jobs : replayMachine.Always runsReplayJobs config schedule)
    (settles : replayMachine.Always (failsUnresolved id) config schedule)
    (resolved : config.state.statusOf id = some .resolved) :
    (replayMachine.run config schedule).state.statusOf id = some .resolved := by
  induction schedule generalizing config with
  | nil => exact resolved
  | cons action rest ih =>
    exact ih (automatic_sound.act jobs.1 all) jobs.2 settles.2 (resolved_act all settles.1 resolved)

theorem reopened_act {thread : Nat} (pending : config.pending thread = some call)
    (fails : call.failsReplay id = true) (resolved : config.state.statusOf id = some .resolved) :
    ∃ status, (replayMachine.act config (.step thread)).state.statusOf id = some status ∧ status.reopened = true := by
  obtain ⟨next, found⟩ := Config.pending_eq_some.mp pending
  obtain ⟨entry, stored, _⟩ := map_eq_some_iff.mp resolved
  refine ⟨(call.effect config.state.clock id entry).status, ?_, reopened_of_failsReplay fails entry⟩
  rw [replayMachine.act_step found]
  change (config.state.exec call).1.statusOf id = _
  rw [statusOf_exec, stored, map_some]

/-- A RESOLVED entry stays RESOLVED exactly along the runs in which no replay completes it as
failed while it is RESOLVED. -/
theorem resolved_entry_stays_resolved (world : World) (id : String) (schedule : List ReplayAction)
    (jobs : replayMachine.Always runsReplayJobs (start world) schedule) :
    StaysResolved id (start world) schedule ↔ replayMachine.Always (failsUnresolved id) (start world) schedule := by
  have idle : AllAutomatic (start world) := ⟨[], .nil, trivial⟩
  constructor
  · intro stays
    rw [replayMachine.always_iff_split]
    intro first action rest split
    cases action with
    | spawn => trivial
    | disturb => trivial
    | step thread =>
      intro call pending fails resolved
      obtain ⟨status, after, reopened⟩ := reopened_act pending fails resolved
      have kept := stays first [.step thread] rest (by simp [split]) resolved status
      rw [replayMachine.run_append] at kept
      simp [kept after] at reopened
  · rintro settles first later rest rfl resolved status after
    rw [List.append_assoc, replayMachine.always_append] at jobs settles
    rw [replayMachine.always_append] at jobs settles
    have all := automatic_sound.run jobs.1 idle
    have stays := resolved_run all jobs.2.1 settles.2.1 resolved
    rw [← replayMachine.run_append, after, some.injEq] at stays
    rw [stays]
    rfl

section

def freshEntry : Entry where
  id := "1"
  domain := "payment"
  failureType := "timeout"
  status := .pending
  maxRetries := 3

def freshWorld : World where
  clock := 0
  store := { storage := Table.empty.put freshEntry }

def replayEnding (outcome : HandlerOutcome) : ReplayJob :=
  .replay
    { truncateGate := fun _ => none
      handlerRefusal := fun _ => none
      idempotencyGate := fun _ => .proceed
      handler := fun _ => outcome
      workMayContinue := fun _ => false }
    3 "1" "manual_replay" none false

def succeeding : ReplayJob :=
  replayEnding (.returned { success := true, dlqId := "1" })

def failing : ReplayJob :=
  replayEnding (.returned (ReplayResult.failed "1" "timed out"))

def overtakenRun : List ReplayAction :=
  [.spawn failing.program, .step 0, .step 0, .disturb (.advance 3600000000),
    .spawn (ReplayJob.releaseStale 30).program, .step 1,
    .spawn succeeding.program, .step 2, .step 2, .step 2, .step 0]

theorem overtaken_failure_reopens_entry :
    replayMachine.Always runsReplayJobs (start freshWorld) overtakenRun ∧
      ¬StaysResolved "1" (start freshWorld) overtakenRun := by
  constructor
  · exact ⟨⟨_, rfl⟩, trivial, trivial, trivial, ⟨_, rfl⟩, trivial, ⟨_, rfl⟩, trivial, trivial, trivial,
      trivial, trivial⟩
  · intro stays
    have settled := stays (overtakenRun.take 10) [.step 0] [] rfl (by decide +kernel) .pending (by decide +kernel)
    exact absurd settled (by decide)

def orderlyRun : List ReplayAction :=
  [.spawn succeeding.program, .step 0, .step 0, .step 0, .disturb (.advance 3600000000),
    .spawn (ReplayJob.releaseStale 30).program, .step 1, .spawn failing.program, .step 2, .step 2, .step 2]

theorem orderly_replay_stays_resolved :
    replayMachine.Always runsReplayJobs (start freshWorld) orderlyRun ∧
      (replayMachine.run (start freshWorld) (orderlyRun.take 4)).state.statusOf "1" = some .resolved ∧
      StaysResolved "1" (start freshWorld) orderlyRun := by
  have jobs : replayMachine.Always runsReplayJobs (start freshWorld) orderlyRun :=
    ⟨⟨_, rfl⟩, trivial, trivial, trivial, trivial, ⟨_, rfl⟩, trivial, ⟨_, rfl⟩, trivial, trivial, trivial, trivial⟩
  refine ⟨jobs, by decide +kernel, ?_⟩
  exact (resolved_entry_stays_resolved freshWorld "1" orderlyRun jobs).mpr (by decide +kernel)

end

end Baldur.Dlq
