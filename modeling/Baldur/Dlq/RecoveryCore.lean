import Baldur.Dlq.PageContract

/-!
The recovery chain: one pass of `conditional_replay_on_circuit_close` (`celery_tasks/dlq_tasks.py`) with the
sweep it runs (`ReplayService.replay_on_circuit_close`), as a program over the calls that leave it.
-/

namespace Baldur.Dlq

def Lane.key (lane : Lane) : String :=
  lane.failureType ++ "|" ++ lane.domain.getD ""

abbrev LaneCursors := Table String (String × Cursor) Prod.fst

namespace LaneCursors

def get (cursors : LaneCursors) (key : String) : Option Cursor :=
  (cursors.find key).map Prod.snd

def set (cursors : LaneCursors) (key : String) (cursor : Cursor) : LaneCursors :=
  cursors.put (key, cursor)

theorem get_set (cursors : LaneCursors) (key other : String) (cursor : Cursor) :
    (cursors.set key cursor).get other = if key = other then some cursor else cursors.get other := by
  simp only [get, set, Table.find_put]
  split <;> rfl

/-- `==` on dictionaries: the order of insertion does not matter. -/
def same (left right : LaneCursors) : Bool :=
  (left.entries ++ right.entries).all fun item => left.get item.1 = right.get item.1

end LaneCursors

def firstOccurrences (texts : List String) : List String :=
  texts.foldl (fun kept text => if text ∈ kept then kept else kept ++ [text]) []

def openCircuitFailureType : String := "CIRCUIT_BREAKER_OPEN"

def policyChainCaptureSource : String := "policy_chain"

def fallbackDomain : String := "OTHER_DOMAIN"

/-- `declared` answers the failure types the domain's replay handler names, and nothing when no
handler is registered. -/
def recoveryLanes (resolveStoredDomain : String → String) (declared : String → Option (List String))
    (domain : String) (failureTypeMap : List (String × List String)) : List Lane :=
  match if domain = fallbackDomain then none else declared domain with
  | none => []
  | some types =>
      let mapped := firstOccurrences
        ((failureTypeMap.filter fun item => resolveStoredDomain item.1 = domain).flatMap Prod.snd)
      let named := (firstOccurrences types).filter fun failureType =>
        failureType ∉ mapped ∧ failureType ≠ openCircuitFailureType
      mapped.map (fun failureType => ⟨failureType, some domain, none⟩) ++
        named.map (fun failureType => ⟨failureType, some domain, none⟩) ++
        if openCircuitFailureType ∈ mapped then [] else
          [⟨openCircuitFailureType, some domain, some policyChainCaptureSource⟩]

structure LaneSet where
  lanes : List Lane
  distinct : (lanes.map Lane.key).Nodup

structure ChainSettings where
  lanes : LaneSet
  maxItems : Nat
  maxContinuations : Nat
  maxReplays : Int
  escalateFailures : Bool := true
  operatorRequested : Bool := false
  operatorRequeueBound : Nat := 0

structure PassMessage where
  continuation : Nat := 0
  cursors : Option LaneCursors := none
  rescanned : Bool := false
  requeueAttempt : Nat := 0

inductive StopReason
  | circuitReopened
  | integrityBlocked
  | passMadeNoProgress
  | continuationBoundReached
  deriving DecidableEq

structure ChainStop where
  reason : StopReason
  laneCursors : LaneCursors
  scanExhaustedLanes : List String := []

inductive Affirmation
  | proceeds
  | operatorHold
  | circuitReopened
  deriving DecidableEq

structure LaneSelection where
  selected : List (String × Entry) := []
  cursors : LaneCursors
  scanExhaustedLanes : List String := []
  capped : Bool := false

structure BatchReplayResult where
  total : Nat := 0
  successCount : Nat := 0
  failedCount : Nat := 0
  skippedCount : Nat := 0
  governanceBlocked : Bool := false
  inflightSkipped : Bool := false
  capped : Bool := false
  laneCursors : LaneCursors := Table.empty
  scanExhaustedLanes : List String := []
  deadlineCutDlqId : Option String := none
  endedByBreakerRefusal : Bool := false

inductive RecoveryCall
  | parkedCountForRecovery
  | affirmCircuitClosed
  | replayIntegrityVerdict
  /-- Whether another recovery of the domain holds the lock; an unavailable lock is not held. -/
  | tryAcquireRecoveryLock
  | checkAllGovernance
  | pastDeadline
  | findReplayablePage (maxReplays : Int) (lane : Lane) (limit : Nat) (cursor : Option Cursor)
  /-- `_execute_replay` under the pass deadline, and whether work inside it noted the deadline. -/
  | executeReplay (entry : Entry)
  | escalate (id : String) (error : Option String)
  | emitCircuitCloseChainStopped (stop : ChainStop)
  | queue (message : PassMessage)

@[reducible] def RecoveryCall.Answer : RecoveryCall → Type
  | .parkedCountForRecovery => Option Nat
  | .affirmCircuitClosed => Affirmation
  | .replayIntegrityVerdict => Bool
  | .tryAcquireRecoveryLock => Bool
  | .checkAllGovernance => Bool
  | .pastDeadline => Bool
  | .findReplayablePage .. => ReplayablePage
  | .executeReplay _ => ReplayResult × Bool
  | .escalate .. => Unit
  | .emitCircuitCloseChainStopped _ => Unit
  | .queue _ => Unit

abbrev RecoveryProg := Prog RecoveryCall RecoveryCall.Answer

def ReplayResult.skipReason (result : ReplayResult) : Option String :=
  if result.skipped then result.data.skipReason else none

def LaneSelection.record (selection : LaneSelection) (lane : Lane) (quota : Nat) (page : ReplayablePage) :
    LaneSelection where
  selected := selection.selected ++ page.entries.map fun entry => (lane.key, entry)
  cursors := match page.nextCursor with
    | none => selection.cursors
    | some cursor => selection.cursors.set lane.key cursor
  scanExhaustedLanes :=
    if page.scanExhausted ∧ lane.key ∉ selection.scanExhaustedLanes then
      selection.scanExhaustedLanes ++ [lane.key]
    else
      selection.scanExhaustedLanes
  capped := selection.capped || page.entries.length = quota

structure FillRound where
  selection : LaneSelection
  filledExactly : List Lane := []
  used : Nat := 0

def rollBackLaneCursors (selection : LaneSelection) (processed : Nat) (carried : LaneCursors) : LaneCursors :=
  let unselected := selection.cursors.entries.filter fun item =>
    item.1 ∉ selection.selected.map Prod.fst
  let kept := unselected.foldl (fun cursors item => cursors.set item.1 item.2) carried
  (selection.selected.take processed).foldl (fun cursors item =>
    match item.2.cursor with
    | none => cursors
    | some cursor => cursors.set item.1 cursor) kept

def BatchReplayResult.stopPassAt (result : BatchReplayResult) (selection : LaneSelection) (processed : Nat)
    (carried : LaneCursors) (cutDlqId : Option String) (breakerRefused : Bool) : BatchReplayResult :=
  { result with
    capped := true
    total := processed
    laneCursors := rollBackLaneCursors selection processed carried
    deadlineCutDlqId := cutDlqId
    endedByBreakerRefusal := breakerRefused }

def BatchReplayResult.count (result : BatchReplayResult) (replayed : ReplayResult) : BatchReplayResult :=
  if replayed.skipped then
    { result with skippedCount := result.skippedCount + 1 }
  else if replayed.success then
    { result with successCount := result.successCount + 1 }
  else
    { result with failedCount := result.failedCount + 1 }

namespace Recovery

def command (call : RecoveryCall) : RecoveryProg call.Answer :=
  Prog.perform call

/-- A failed replay is cut when the deadline ended it. -/
def executeReplayWithin (entry : Entry) : RecoveryProg (ReplayResult × Bool) := do
  let (result, stopped) ← command (.executeReplay entry)
  if result.success then
    return (result, false)
  else if stopped then
    return (result, true)
  else
    let past : Bool ← command .pastDeadline
    return (result, past)

def fillShares (settings : ChainSettings) (quotaBase extra : Nat) :
    (index : Nat) → List Lane → FillRound → RecoveryProg FillRound
  | _, [], round => return round
  | index, lane :: rest, round => do
      let past : Bool ← command .pastDeadline
      if past then
        return { round with selection := { round.selection with capped := true } }
      else
        let quota := quotaBase + if index < extra then 1 else 0
        if quota = 0 then
          return round
        else
          let page : ReplayablePage ← command (.findReplayablePage settings.maxReplays lane quota
            (round.selection.cursors.get lane.key))
          fillShares settings quotaBase extra (index + 1) rest
            { selection := round.selection.record lane quota page
              filledExactly := if page.entries.length = quota then round.filledExactly ++ [lane] else
                round.filledExactly
              used := round.used + page.entries.length }

def fillLeftover (settings : ChainSettings) :
    List Lane → (leftover : Nat) → LaneSelection → RecoveryProg LaneSelection
  | [], _, selection => return selection
  | lane :: rest, leftover, selection =>
      if leftover = 0 then
        return selection
      else do
        let past : Bool ← command .pastDeadline
        if past then
          return { selection with capped := true }
        else
          let page : ReplayablePage ← command (.findReplayablePage settings.maxReplays lane leftover
            (selection.cursors.get lane.key))
          fillLeftover settings rest (leftover - page.entries.length) (selection.record lane leftover page)

def fillCircuitCloseLanes (settings : ChainSettings) (orderedLanes : List Lane) (laneCursors : LaneCursors) :
    RecoveryProg LaneSelection := do
  let round ← fillShares settings (settings.maxItems / orderedLanes.length)
    (settings.maxItems % orderedLanes.length) 0 orderedLanes { selection := { cursors := laneCursors } }
  fillLeftover settings round.filledExactly (settings.maxItems - round.used) round.selection

def escalateFailed (settings : ChainSettings) (entry : Entry) (replayed : ReplayResult) :
    RecoveryProg Unit :=
  if !replayed.skipped && !replayed.success && settings.escalateFailures && replayed.handlerRan then
    command (.escalate entry.id replayed.error)
  else
    return ()

def replaySelected (settings : ChainSettings) (selection : LaneSelection) (carried : LaneCursors) :
    (processed : Nat) → List (String × Entry) → BatchReplayResult → RecoveryProg BatchReplayResult
  | _, [], result => return result
  | processed, (_, entry) :: rest, result => do
      let past : Bool ← command .pastDeadline
      if past then
        return result.stopPassAt selection processed carried none false
      else
        let (replayed, cut) ← executeReplayWithin entry
        if cut then
          return result.stopPassAt selection processed carried (some entry.id) false
        else if replayed.skipReason = some "breaker_refused" then
          return result.stopPassAt selection processed carried (some entry.id) true
        else
          escalateFailed settings entry replayed
          replaySelected settings selection carried (processed + 1) rest (result.count replayed)

def replayOnCircuitCloseLocked (settings : ChainSettings) (laneCursors : LaneCursors) (continuation : Nat) :
    RecoveryProg BatchReplayResult := do
  let lanes := settings.lanes.lanes
  if lanes = [] then
    return {}
  else
    let allowed : Bool ← command .checkAllGovernance
    if !allowed then
      return { governanceBlocked := true }
    else
      let rotation := continuation % lanes.length
      let selection ← fillCircuitCloseLanes settings (lanes.drop rotation ++ lanes.take rotation) laneCursors
      replaySelected settings selection laneCursors 0 selection.selected
        { total := selection.selected.length
          capped := selection.capped
          laneCursors := selection.cursors
          scanExhaustedLanes := selection.scanExhaustedLanes }

def replayOnCircuitClose (settings : ChainSettings) (laneCursors : LaneCursors) (continuation : Nat) :
    RecoveryProg BatchReplayResult := do
  let held : Bool ← command .tryAcquireRecoveryLock
  if held then
    return { inflightSkipped := true }
  else
    replayOnCircuitCloseLocked settings laneCursors continuation

/-- Work is still reachable; this pass moved toward it. -/
def chainProgress (result : BatchReplayResult) (carried : LaneCursors) : Bool × Bool :=
  (result.capped || !result.scanExhaustedLanes.isEmpty,
    0 < result.total || result.deadlineCutDlqId.isSome || !result.laneCursors.same carried)

def dispatchCircuitCloseContinuation (settings : ChainSettings) (message : PassMessage)
    (result : BatchReplayResult) (carried : LaneCursors) : RecoveryProg Bool := do
  if result.inflightSkipped then
    return false
  else
    let (reachable, advanced) := chainProgress result carried
    if reachable && !advanced then
      command (.emitCircuitCloseChainStopped ⟨.passMadeNoProgress, result.laneCursors, result.scanExhaustedLanes⟩)
      return false
    else if reachable && advanced then
      if settings.maxContinuations ≤ message.continuation + 1 then
        command (.emitCircuitCloseChainStopped
          ⟨.continuationBoundReached, result.laneCursors, result.scanExhaustedLanes⟩)
        return false
      else
        command (.queue { continuation := message.continuation + 1, cursors := some result.laneCursors,
                          rescanned := message.rescanned })
        return true
    else if !carried.entries.isEmpty && !message.rescanned &&
        message.continuation + 1 < settings.maxContinuations then
      command (.queue { continuation := message.continuation + 1, cursors := none, rescanned := true })
      return true
    else
      return false

def requeueOperatorChain (settings : ChainSettings) (message : PassMessage) : RecoveryProg Bool := do
  if settings.operatorRequeueBound ≤ message.requeueAttempt + 1 then
    return false
  else
    command (.queue { message with requeueAttempt := message.requeueAttempt + 1 })
    return true

/-- `recovery_is_idle`, asked by a pass that carries no positions: a recovery with a lane never is. -/
def recoveryIsIdle (settings : ChainSettings) (carried : LaneCursors) : RecoveryProg Bool := do
  if !carried.entries.isEmpty || settings.lanes.lanes ≠ [] then
    return false
  else
    let parked : Option Nat ← command .parkedCountForRecovery
    return parked = some 0

def runPass (settings : ChainSettings) (message : PassMessage) (carried : LaneCursors) : RecoveryProg Bool := do
  let result ← replayOnCircuitClose settings carried message.continuation
  if result.governanceBlocked then
    return false
  else if result.inflightSkipped && settings.operatorRequested then
    requeueOperatorChain settings message
  else
    dispatchCircuitCloseContinuation settings message result carried

/-- Whether another pass was queued. -/
def conditionalReplayOnCircuitClose (settings : ChainSettings) (message : PassMessage) : RecoveryProg Bool := do
  let carried := message.cursors.getD Table.empty
  let idle ← recoveryIsIdle settings carried
  if idle then
    return false
  else
    let verdict : Affirmation ← command .affirmCircuitClosed
    match verdict with
    | .operatorHold => return false
    | .circuitReopened =>
        command (.emitCircuitCloseChainStopped ⟨.circuitReopened, carried, []⟩)
        return false
    | .proceeds =>
        let intact : Bool ← command .replayIntegrityVerdict
        if !intact then
          command (.emitCircuitCloseChainStopped ⟨.integrityBlocked, carried, []⟩)
          return false
        else
          runPass settings message carried

end Recovery

structure Moment (σ : Type) where
  store : σ
  parked : Option Nat := none
  affirmation : Affirmation := .proceeds
  intact : Bool := true
  lockHeld : Bool := false
  governed : Bool := true
  pastDeadline : Bool := false
  replay : Entry → ReplayResult × Bool

structure ChainWorld (σ : Type) where
  moment : Moment σ
  handed : List Entry := []
  stops : List ChainStop := []
  queued : List PassMessage := []

def ChainWorld.exec {σ : Type} (selector : Selector σ) :
    (call : RecoveryCall) → ChainWorld σ → ChainWorld σ × call.Answer
  | .parkedCountForRecovery, world => (world, world.moment.parked)
  | .affirmCircuitClosed, world => (world, world.moment.affirmation)
  | .replayIntegrityVerdict, world => (world, world.moment.intact)
  | .tryAcquireRecoveryLock, world => (world, world.moment.lockHeld)
  | .checkAllGovernance, world => (world, world.moment.governed)
  | .pastDeadline, world => (world, world.moment.pastDeadline)
  | .findReplayablePage maxReplays lane limit cursor, world =>
      (world, selector.page world.moment.store maxReplays lane limit cursor)
  | .executeReplay entry, world => ({ world with handed := world.handed ++ [entry] }, world.moment.replay entry)
  | .escalate _ _, world => (world, ())
  | .emitCircuitCloseChainStopped stop, world => ({ world with stops := world.stops ++ [stop] }, ())
  | .queue message, world => ({ world with queued := world.queued ++ [message] }, ())

def ChainWorld.Drifts {σ : Type} (within : Moment σ → Prop) (before after : ChainWorld σ) : Prop :=
  ∃ moment, within moment ∧ after = { before with moment := moment }

def Moment.Allows {σ : Type} (moment : Moment σ) : Prop :=
  moment.affirmation = .proceeds ∧ moment.intact = true ∧ moment.lockHeld = false ∧ moment.governed = true

inductive ChainRuns {σ : Type} (selector : Selector σ) (settings : ChainSettings) (within : Moment σ → Prop) :
    PassMessage → ChainWorld σ → ChainWorld σ → Prop
  | last {message : PassMessage} {before after : ChainWorld σ} {queued : Bool}
      (pass : Prog.Runs (ChainWorld.exec selector) (ChainWorld.Drifts within)
        (Recovery.conditionalReplayOnCircuitClose settings message) before queued after)
      (ended : after.queued = []) : ChainRuns selector settings within message before after
  | more {message next : PassMessage} {before middle after : ChainWorld σ} {queued : Bool}
      (pass : Prog.Runs (ChainWorld.exec selector) (ChainWorld.Drifts within)
        (Recovery.conditionalReplayOnCircuitClose settings message) before queued middle)
      (another : middle.queued = [next])
      (rest : ChainRuns selector settings within next { middle with queued := [] } after) :
      ChainRuns selector settings within message before after

end Baldur.Dlq
