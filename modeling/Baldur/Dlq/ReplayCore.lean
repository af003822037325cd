import Baldur.Dlq.MemoryCore
import Baldur.Lib.Pool

/-!
The replay pipeline (`ReplayService._execute_replay`): gates, acquisition, idempotency gate, handler,
settlement. What the gates and the handler answer are functions of the entry.
-/

namespace Baldur.Dlq

structure ReplayData where
  skipReason : Option String := none
  jobStarted : Option Bool := none
  rejectedByBreaker : Bool := false
  deriving DecidableEq

structure ReplayResult where
  success : Bool
  dlqId : String
  message : String := ""
  error : Option String := none
  data : ReplayData := {}
  skipped : Bool := false
  handlerRan : Bool := false
  workMayContinue : Bool := false
  deriving DecidableEq

namespace ReplayResult

def failed (dlqId error : String) : ReplayResult where
  success := false
  dlqId := dlqId
  error := some error

def skippedResult (dlqId reason : String) : ReplayResult where
  success := true
  dlqId := dlqId
  skipped := true
  message := if reason = "" then "Skipped" else "Skipped: " ++ reason
  data := { skipReason := some reason }

/-- The job's body began, its own breaker refused the call. -/
def jobStartFlags (result : ReplayResult) : Bool × Bool :=
  let refused := result.data.rejectedByBreaker
  let began := result.data.jobStarted.getD !refused
  (began, refused && !began)

end ReplayResult

inductive IdempotencyDecision
  | proceed
  | skip
  | abort
  deriving DecidableEq

/-- How the handler ended; a raise carries the rendered instant of its error details. -/
inductive HandlerOutcome
  | returned (result : ReplayResult)
  | raised (errorType message occurredAt : String)

/-- What the surroundings of one replay answer. An idempotency gate that fails answers `proceed`. -/
structure ReplaySurroundings where
  truncateGate : Entry → Option String
  handlerRefusal : Entry → Option String
  idempotencyGate : Entry → IdempotencyDecision
  handler : Entry → HandlerOutcome
  workMayContinue : Entry → Bool

abbrev ReplayProg := Prog MemoryCall MemoryCall.Answer

namespace Replay

def repository (call : MemoryCall) : ReplayProg call.Answer :=
  Prog.perform call

def giveBackAttempt (dlqId : String) (acquiredCount : Int) : ReplayProg Bool :=
  repository (.returnReplayAttempt dlqId acquiredCount)

/-- A replay that owes no attempt holds the entry for all it knows. -/
def stillOurs (givesBack : Bool) (dlqId : String) (acquiredCount : Int) : ReplayProg Bool :=
  if givesBack then giveBackAttempt dlqId acquiredCount else pure true

def firstCharacters (count : Nat) (text : String) : String :=
  String.ofList (text.toList.take count)

def recoveryTrialCount (entry : Entry) : Metadata :=
  let previous := match entry.metadata "recovery_trials" with
    | some (.number value) => value
    | _ => 0
  Metadata.empty.set "recovery_trials" (.number (previous + 1))

def crashDetails (entry : Entry) (trial : Bool) (errorType message occurredAt : String) : Metadata :=
  let details := (((Metadata.empty.set "type" (.text errorType)).set "message"
    (.text (firstCharacters 500 message))).set "occurred_at" (.text occurredAt)).set "escalated_to"
    (.text "requires_review")
  if trial then details.merge (recoveryTrialCount entry) else details

def settleFailed (dlqId : String) (ours workMayContinue : Bool) (note : String)
    (errorDetails : Metadata) : ReplayProg Unit := do
  if ours && !workMayContinue then
    let _ ← repository (.completeReplay dlqId { success := false, note, errorDetails })
    return ()
  else
    return ()

def finishCrashedReplay (entry : Entry) (trial workMayContinue : Bool)
    (errorType message occurredAt : String) : ReplayProg ReplayResult := do
  let ours ← stillOurs trial entry.id entry.retryCount
  settleFailed entry.id ours workMayContinue
    ("Handler crash: " ++ errorType ++ ": " ++ firstCharacters 200 message)
    (crashDetails entry trial errorType message occurredAt)
  return { ReplayResult.failed entry.id ("internal_error: " ++ errorType) with
    handlerRan := true, workMayContinue }

def settleReturned (dlqId trigger : String) (entry : Entry) (trial workMayContinue : Bool)
    (result : ReplayResult) : ReplayProg ReplayResult := do
  let (bodyBegan, refusedByOwnBreaker) := result.jobStartFlags
  if result.success then
    let _ ← repository (.completeReplay dlqId { success := true, resolutionType := trigger, note := result.message })
    return { result with handlerRan := true, workMayContinue := false }
  else
    let ours ← stillOurs (trial || !bodyBegan) dlqId entry.retryCount
    settleFailed dlqId ours workMayContinue (orText (result.error.getD "") "Replay failed")
      (if trial && bodyBegan then recoveryTrialCount entry else Metadata.empty)
    if bodyBegan then
      return { result with handlerRan := true, workMayContinue }
    else
      let reason := if refusedByOwnBreaker then "breaker_refused" else "job_not_started"
      return { ReplayResult.skippedResult dlqId reason with error := result.error, handlerRan := true }

def replayAcquired (surroundings : ReplaySurroundings) (dlqId trigger : String) (trial : Bool)
    (entry : Entry) : ReplayProg ReplayResult := do
  match surroundings.idempotencyGate entry with
  | .skip =>
      let _ ← repository (.completeReplay dlqId { success := true, resolutionType := "duplicate_skip" })
      return ReplayResult.skippedResult dlqId "duplicate"
  | .abort =>
      if trial then
        let _ ← giveBackAttempt dlqId entry.retryCount
        return ReplayResult.skippedResult dlqId "in_progress"
      else
        return ReplayResult.skippedResult dlqId "in_progress"
  | .proceed =>
      let workMayContinue := surroundings.workMayContinue entry
      match surroundings.handler entry with
      | .raised errorType message occurredAt =>
          finishCrashedReplay entry trial workMayContinue errorType message occurredAt
      | .returned result => settleReturned dlqId trigger entry trial workMayContinue result

def explainRefusal (dlqId : String) : ReplayProg ReplayResult := do
  let existing : Option Entry ← repository (.getById dlqId)
  match existing with
  | none => return ReplayResult.failed dlqId "DLQ entry not found"
  | some entry =>
      if entry.status ≠ .pending then
        return ReplayResult.failed dlqId ("Cannot replay: status is '" ++ entry.status.text ++ "'")
      else
        return ReplayResult.failed dlqId "max_replays_exceeded"

def replaySnapshot (surroundings : ReplaySurroundings) (maxReplayAttempts : Int) (dlqId trigger : String)
    (trial : Bool) (snapshot : Entry) : ReplayProg ReplayResult := do
  match surroundings.truncateGate snapshot with
  | some reason => return ReplayResult.skippedResult dlqId reason
  | none =>
      match surroundings.handlerRefusal snapshot with
      | some _ => return ReplayResult.skippedResult dlqId "handler_refused"
      | none =>
          match ← repository (.tryAcquireForReplay dlqId maxReplayAttempts false) with
          | .acquired entry => replayAcquired surroundings dlqId trigger trial entry
          | _ => explainRefusal dlqId

/-- The gates read the entry the caller selected, or the stored one. -/
def executeReplay (surroundings : ReplaySurroundings) (maxReplayAttempts : Int) (dlqId trigger : String)
    (selected : Option Entry) (trial : Bool) : ReplayProg ReplayResult := do
  match selected with
  | some snapshot => replaySnapshot surroundings maxReplayAttempts dlqId trigger trial snapshot
  | none =>
      let stored : Option Entry ← repository (.getById dlqId)
      match stored with
      | none => return ReplayResult.failed dlqId "DLQ entry not found"
      | some snapshot => replaySnapshot surroundings maxReplayAttempts dlqId trigger trial snapshot

/-!
A discipline permits the pipeline when it permits its reads, its acquisition and the settlement in every
private state an acquisition leads to.
-/

section

open Prog

variable {dlqId trigger : String} {trial : Bool}
  {γ : Type} {d : Discipline MemoryCall MemoryCall.Answer γ} {inv : γ → Prop} {g : γ} {workMayContinue : Bool}

theorem keeps_settleFailed {ours : Bool} {note : String} {errorDetails : Metadata}
    (completes : ∀ completion, Keeps d inv (repository (.completeReplay dlqId completion))) :
    Keeps d inv (settleFailed dlqId ours workMayContinue note errorDetails) := by
  refine keeps_when ?_
  exact (completes _).discard

theorem keeps_stillOurs {acquiredCount : Int} (givesBack : Bool)
    (returns : Keeps d inv (repository (.returnReplayAttempt dlqId acquiredCount))) :
    Keeps d inv (stillOurs givesBack dlqId acquiredCount) := by
  exact keeps_ite _ returns (keeps_ret _)

variable {entry : Entry}

theorem keeps_replayAcquired {surroundings : ReplaySurroundings}
    (completes : ∀ other completion, Keeps d inv (repository (.completeReplay other completion)))
    (returns : ∀ other, other = dlqId ∨ other = entry.id →
      Keeps d inv (repository (.returnReplayAttempt other entry.retryCount))) :
    Keeps d inv (replayAcquired surroundings dlqId trigger trial entry) := by
  unfold replayAcquired
  cases surroundings.idempotencyGate entry with
  | skip => exact (completes _ _).discard
  | abort =>
    refine keeps_when ?_
    exact (returns dlqId (Or.inl rfl)).discard
  | proceed =>
    cases surroundings.handler entry with
    | returned =>
      refine keeps_ite _ ?_ ?_
      · exact (completes dlqId _).discard
      · refine keeps_bind (keeps_stillOurs _ (returns dlqId (Or.inl rfl))) fun ours => ?_
        refine keeps_bind (keeps_settleFailed (completes dlqId)) fun _ => ?_
        exact keeps_unless (keeps_ret _)
    | raised =>
      refine keeps_bind (keeps_stillOurs _ (returns entry.id (Or.inr rfl))) fun ours => ?_
      exact (keeps_settleFailed (completes entry.id)).discard

theorem keeps_explainRefusal (reads : Keeps d inv (repository (.getById dlqId))) :
    Keeps d inv (explainRefusal dlqId) := by
  refine keeps_bind reads fun existing => ?_
  cases existing with
  | none => exact keeps_ret _
  | some => exact keeps_unless (keeps_ret _)

variable (before : γ → Prop) (holding : Entry → γ → Prop) {surroundings : ReplaySurroundings}
  {maxReplayAttempts : Int} {dlqId trigger : String} {trial : Bool}

variable
  (reads : Keeps d before (repository (.getById dlqId)))
  (acquires : ∀ g, before g → d.may g (.tryAcquireForReplay dlqId maxReplayAttempts false) ∧
    ∀ answer, d.valid g (.tryAcquireForReplay dlqId maxReplayAttempts false) answer →
      match answer with
      | .acquired entry =>
        holding entry (d.after g (.tryAcquireForReplay dlqId maxReplayAttempts false) (.acquired entry))
      | other => before (d.after g (.tryAcquireForReplay dlqId maxReplayAttempts false) other))
  (completes : ∀ entry other completion, Keeps d (holding entry) (repository (.completeReplay other completion)))
  (returns : ∀ entry other, other = dlqId ∨ other = entry.id →
    Keeps d (holding entry) (repository (.returnReplayAttempt other entry.retryCount)))
  (holds : before g)

include reads acquires completes returns holds

theorem obeys_replaySnapshot {snapshot : Entry} :
    Obeys d (fun _ _ => True) g (replaySnapshot surroundings maxReplayAttempts dlqId trigger trial snapshot) := by
  unfold replaySnapshot
  cases surroundings.truncateGate snapshot with
  | some => trivial
  | none =>
    cases surroundings.handlerRefusal snapshot with
    | some => trivial
    | none =>
      obtain ⟨permitted, answered⟩ := acquires g holds
      refine ⟨permitted, fun answer valid => ?_⟩
      have next := answered answer valid
      cases answer with
      | acquired entry =>
        have kept : Keeps d (holding entry) (replayAcquired surroundings dlqId trigger trial entry) :=
          keeps_replayAcquired (completes entry) (returns entry)
        exact (kept _ next).mono fun _ _ _ => trivial
      | refused | raised => exact (keeps_explainRefusal reads _ next).mono fun _ _ _ => trivial

theorem obeys_executeReplay {selected : Option Entry} :
    Obeys d (fun _ _ => True) g (executeReplay surroundings maxReplayAttempts dlqId trigger selected trial) := by
  unfold executeReplay
  cases selected with
  | some => exact obeys_replaySnapshot before holding reads acquires completes returns holds
  | none =>
    rw [obeys_bind]
    refine (reads g holds).mono fun g' stored kept => ?_
    cases stored with
    | none => trivial
    | some => exact obeys_replaySnapshot before holding reads acquires completes returns kept

end

end Replay

structure World where
  clock : Time
  store : MemoryStore := {}

def World.exec (call : MemoryCall) (world : World) : World × call.Answer :=
  let out := call.exec world.clock world.store
  ({ world with store := out.1 }, out.2)

inductive ClockChange
  | advance (microseconds : Nat)

def World.disturb : ClockChange → World → World
  | .advance elapsed, world => { world with clock := world.clock + elapsed }

abbrev ReplayAction := Pool.Action MemoryCall MemoryCall.Answer ClockChange Unit

abbrev ReplayEvent := Pool.Event MemoryCall MemoryCall.Answer

abbrev ReplayConfig := Pool.Config MemoryCall MemoryCall.Answer World Unit

def replayMachine : Pool.Machine MemoryCall MemoryCall.Answer World ClockChange Unit :=
  ⟨World.exec, World.disturb, fun _ _ => []⟩

inductive ReplayJob
  | replay (surroundings : ReplaySurroundings) (maxReplayAttempts : Int) (dlqId trigger : String)
      (selected : Option Entry) (trial : Bool)
  | releaseStale (olderThanMinutes : Int)

def ReplayJob.program : ReplayJob → ReplayProg Unit
  | .replay surroundings maxReplayAttempts dlqId trigger selected trial =>
      discard (Replay.executeReplay surroundings maxReplayAttempts dlqId trigger selected trial)
  | .releaseStale olderThanMinutes => discard (Replay.repository (.releaseStaleReplaying olderThanMinutes))

def runsReplayJobs (_ : ReplayConfig) : ReplayAction → Prop
  | .spawn program => ∃ job, program = ReplayJob.program job
  | _ => True

end Baldur.Dlq
