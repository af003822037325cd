import Baldur.Dlq.RecoveryCore

/-!
The recovery trial of one job name (`RecoveryTrialRunner`): the candidate walk over its lanes and the pacing
record that carries the cursors from tick to tick.
-/

namespace Baldur.Dlq

def trialCandidatePage : Nat := 20

/-- What a walk asks of its surroundings; a gate that allows an entry answers nothing. -/
structure RecoveryTrialRunner where
  findReplayablePage : Int → Lane → Nat → Option Cursor → ReplayablePage
  maxReplayAttempts : Int
  truncateGate : Entry → Option String
  handlerRefusal : Entry → Option String
  past : Nat → Bool := fun _ => false

def RecoveryTrialRunner.accepts (runner : RecoveryTrialRunner) (entry : Entry) : Bool :=
  (runner.truncateGate entry).isNone && (runner.handlerRefusal entry).isNone

def givenCursor : Option Cursor → Option Cursor
  | some (.unusable text) => if text = "" then none else some (.unusable text)
  | cursor => cursor

structure LaneWalk where
  lane : Lane
  cursor : Option Cursor
  start : Option Position
  wrapped : Bool
  done : Bool := false
  lastPage : Bool := false
  recorded : Option Cursor := none

namespace LaneWalk

def begin (lane : Lane) (after : LaneCursors) : LaneWalk :=
  let start := after.get lane.key
  { lane, cursor := start, start := decodeReplayCursor start, wrapped := start.isNone }

def moveTo (walk : LaneWalk) (cursor : Cursor) : LaneWalk :=
  { walk with cursor := some cursor, recorded := some cursor }

def endReached (walk : LaneWalk) : LaneWalk :=
  if walk.wrapped then { walk with done := true } else { walk with wrapped := true, cursor := none }

def finishPage (walk : LaneWalk) : LaneWalk :=
  if walk.lastPage && !walk.done then { walk with lastPage := false }.endReached else walk

/-- `_positioned`, and whether the lane is walked all the way round. -/
def positioned (walk : LaneWalk) : List Entry → List (Position × Entry) × Bool
  | [] => ([], walk.done)
  | entry :: rest =>
      match entry.position with
      | none => walk.positioned rest
      | some position =>
          if walk.wrapped && walk.start.any (· < position) then ([], true)
          else ((position, entry) :: (walk.positioned rest).1, (walk.positioned rest).2)

def readPage (runner : RecoveryTrialRunner) (walk : LaneWalk) : LaneWalk × List (Position × Entry) :=
  let page := runner.findReplayablePage runner.maxReplayAttempts walk.lane trialCandidatePage walk.cursor
  if page.entries.isEmpty then
    match page.scanExhausted, givenCursor page.nextCursor with
    | true, some next => (walk.moveTo next, [])
    | _, _ => (walk.endReached, [])
  else
    let (found, done) := walk.positioned page.entries
    if done then ({ walk with done := true }, found)
    else if found.isEmpty then
      match givenCursor page.nextCursor with
      | some next => if some next ≠ walk.cursor then (walk.moveTo next, []) else (walk.endReached, [])
      | none => (walk.endReached, [])
    else
      ({ walk with lastPage := page.entries.length < trialCandidatePage && !page.scanExhausted }, found)

def record (walk : LaneWalk) (cursors : LaneCursors) : LaneCursors :=
  match walk.recorded with
  | some cursor => cursors.set walk.lane.key cursor
  | none => cursors

end LaneWalk

structure WalkState (n : Nat) where
  lanes : Fin n → LaneWalk
  candidate : Option Entry := none
  reachedDeadline : Bool := false
  looks : Nat := 0
  examined : List (Fin n × Position × Entry) := []

namespace WalkState

variable {n : Nat}

def look (state : WalkState n) (item : Fin n × Position × Entry) : WalkState n :=
  { state with
    lanes := match item.2.2.cursor with
      | some cursor => Function.update state.lanes item.1 ((state.lanes item.1).moveTo cursor)
      | none => state.lanes
    examined := state.examined ++ [item] }

def examine (runner : RecoveryTrialRunner) :
    List (Fin n × Position × Entry) → WalkState n → WalkState n × Bool
  | [], state => (state, false)
  | item :: rest, state =>
      let state := state.look item
      if runner.accepts item.2.2 then ({ state with candidate := some item.2.2 }, true)
      else if runner.past state.looks then
        ({ state with looks := state.looks + 1, reachedDeadline := true }, true)
      else examine runner rest { state with looks := state.looks + 1 }

def merged (runner : RecoveryTrialRunner) (state : WalkState n) : List (Fin n × Position × Entry) :=
  let found := (List.finRange n).flatMap fun lane =>
    if (state.lanes lane).done then []
    else ((state.lanes lane).readPage runner).2.map fun item => (lane, item)
  found.insertionSort fun left right => left.2.1 ≤ right.2.1

def readPages (runner : RecoveryTrialRunner) (state : WalkState n) : WalkState n :=
  { state with
    lanes := fun lane =>
      if (state.lanes lane).done then state.lanes lane else ((state.lanes lane).readPage runner).1 }

def finishPages (active : Fin n → Bool) (state : WalkState n) : WalkState n :=
  { state with
    lanes := fun lane => if active lane then (state.lanes lane).finishPage else state.lanes lane }

def rounds (runner : RecoveryTrialRunner) : Nat → WalkState n → Option (WalkState n)
  | 0, _ => none
  | fuel + 1, state =>
      if ∀ lane, (state.lanes lane).done = true then some state
      else if runner.past state.looks then
        some { state with looks := state.looks + 1, reachedDeadline := true }
      else
        let active := fun lane => !(state.lanes lane).done
        let read := { state with looks := state.looks + 1 }.readPages runner
        match read.examine runner (state.merged runner) with
        | (ended, true) => some ended
        | (examined, false) => rounds runner fuel (examined.finishPages active)

def cursors (state : WalkState n) : LaneCursors :=
  (List.finRange n).foldl (fun cursors lane => (state.lanes lane).record cursors) Table.empty

end WalkState

def walkCandidates (runner : RecoveryTrialRunner) (rounds : Nat) (lanes : List Lane) (after : LaneCursors) :
    Option (WalkState lanes.length) :=
  WalkState.rounds runner rounds { lanes := fun lane => LaneWalk.begin (lanes.get lane) after }

def LaneCursors.merge (left right : LaneCursors) : LaneCursors :=
  right.entries.foldl (fun all item => all.set item.1 item.2) left

structure TrialPacing where
  streak : Nat := 0
  nextAt : Time := 0
  after : LaneCursors := Table.empty

def TrialPacing.isDue (pacing : TrialPacing) (now : Time) : Bool :=
  pacing.nextAt ≤ now

def trialBackoff (streak : Nat) : Time :=
  min (minutes 1 * 2 ^ (streak - 1)) (minutes 9)

inductive TrialOutcome
  | succeeded
  | failed
  | stillRunning
  | breakerRefused
  | notRun
  deriving DecidableEq

def runTrial (pacing : TrialPacing) (cursors : LaneCursors) (now : Time) : TrialOutcome → Option TrialPacing
  | .succeeded => none
  | .notRun => some { pacing with after := cursors }
  | _ => some ⟨pacing.streak + 1, now + trialBackoff (pacing.streak + 1), cursors⟩

/-- The clock at the due test and at the trial, whether the last checks let it start, and how it ends. -/
structure TickMoment where
  now : Time
  trialAt : Time
  checksPass : Bool
  outcome : TrialOutcome

inductive TickEnd
  | notDue
  | noCandidate
  | deadline
  | heldBack
  | tried (entry : Entry) (outcome : TrialOutcome)

def trialUnderLock (runner : RecoveryTrialRunner) (rounds : Nat) (lanes : List Lane) (pacing : TrialPacing)
    (moment : TickMoment) : Option (TickEnd × Option TrialPacing) :=
  if !pacing.isDue moment.now then some (.notDue, some pacing)
  else
    (walkCandidates runner rounds lanes pacing.after).map fun walk =>
      let cursors := pacing.after.merge walk.cursors
      match walk.candidate with
      | none =>
          (if walk.reachedDeadline then .deadline else .noCandidate,
            some (if cursors.same pacing.after then pacing else { pacing with after := cursors }))
      | some entry =>
          if !moment.checksPass then (.heldBack, some pacing)
          else (.tried entry moment.outcome, runTrial pacing cursors moment.trialAt moment.outcome)

def ticks (runner : RecoveryTrialRunner) (rounds : Nat) (lanes : List Lane) (first : TrialPacing)
    (moments : Nat → TickMoment) : Nat → Option TrialPacing
  | 0 => some first
  | n + 1 =>
      (ticks runner rounds lanes first moments n).bind fun pacing =>
        (trialUnderLock runner rounds lanes pacing (moments n)).map fun tick => tick.2.getD {}

end Baldur.Dlq
