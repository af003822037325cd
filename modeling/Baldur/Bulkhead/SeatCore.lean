import Baldur.Lib.Slots
import Mathlib.Algebra.Order.Field.Rat

/-!
The semaphore bulkhead. Releases and leaving waiters are queued without the lock; whoever holds the lock
applies the list. A step is one access to the lock or the list, or one locked section.
-/

namespace Baldur.Bulkhead

inductive LoopState
  | running | stopped | closed
  deriving DecidableEq

/-- A waiter of a thread (`home = none`) or of a coroutine on the loop `home`. -/
structure Waiter where
  home : Option Nat
  deadline : ℚ
  woken : Bool
  signalled : Bool
  deriving DecidableEq

def Waiter.wakened (waiter : Waiter) : Waiter :=
  { waiter with woken := true, signalled := true }

def Waiter.rearmed (waiter : Waiter) : Waiter :=
  { waiter with woken := false, signalled := false }

def Waiter.relieved (waiter : Waiter) : Waiter :=
  { waiter with woken := false }

inductive Operation
  | seatReturned
  | leaving (caller : Nat)
  deriving DecidableEq

/-- What the lock protects. A caller has one waiter at most, so the queue holds callers. -/
structure Room where
  taken : Nat
  waiters : List Nat
  waiter : Nat → Waiter

namespace Room

def setWaiter (room : Room) (caller : Nat) (waiter : Waiter) : Room :=
  { room with waiter := fun other => if other = caller then waiter else room.waiter other }

def woken (room : Room) (caller : Nat) : Bool :=
  (room.waiter caller).woken

def queued (room : Room) (caller : Nat) : Bool :=
  room.waiters.contains caller

def unqueue (room : Room) (caller : Nat) : Room :=
  { room with waiters := room.waiters.erase caller }

def enqueue (room : Room) (caller : Nat) : Room :=
  { room with waiters := room.waiters ++ [caller] }

def isDead (loops : Nat → LoopState) (now : ℚ) (waiter : Waiter) : Bool :=
  match waiter.home with
  | none => decide (waiter.deadline ≤ now)
  | some loop => decide (loops loop = .closed) || decide (waiter.deadline ≤ now)

/-- `_ThreadWaiter.wake` and `_LoopWaiter.wake`; the answer says whether the wake was absorbed. -/
def wake (room : Room) (loops : Nat → LoopState) (caller : Nat) : Room × Bool :=
  let waiter := room.waiter caller
  let awake := room.setWaiter caller waiter.wakened
  match waiter.home with
  | none => if waiter.woken then (room, true) else (awake, true)
  | some loop =>
      if waiter.woken then (room, decide (loops loop = .running))
      else if loops loop = .closed then (room, false)
      else (awake, decide (loops loop = .running))

def wakeFirst (loops : Nat → LoopState) : List Nat → Room → Room
  | [], room => room
  | caller :: rest, room =>
      if room.woken caller then wakeFirst loops rest room
      else
        match room.wake loops caller with
        | (awake, true) => awake
        | (awake, false) =>
            if awake.woken caller then wakeFirst loops rest awake
            else wakeFirst loops rest (awake.unqueue caller)

def wakeNext (room : Room) (loops : Nat → LoopState) : Room :=
  wakeFirst loops room.waiters room

def dropWoken (room : Room) (caller : Nat) : Room :=
  room.setWaiter caller (room.waiter caller).relieved

/-- The first loop of `_prune`: dead waiters leave, and their wakes are counted. -/
def bury (loops : Nat → LoopState) (now : ℚ) : List Nat → Room × Nat → Room × Nat
  | [], buried => buried
  | caller :: rest, (room, lostWakes) =>
      if isDead loops now (room.waiter caller) then
        let left := room.unqueue caller
        if left.woken caller then bury loops now rest (left.dropWoken caller, lostWakes + 1)
        else bury loops now rest (left, lostWakes)
      else bury loops now rest (room, lostWakes)

def wakeTimes (loops : Nat → LoopState) : Nat → Room → Room
  | 0, room => room
  | count + 1, room => wakeTimes loops count (room.wakeNext loops)

def prune (room : Room) (loops : Nat → LoopState) (now : ℚ) : Room :=
  let (buried, lostWakes) := bury loops now room.waiters (room, 0)
  wakeTimes loops lostWakes buried

def needsRearm (room : Room) (futureDone : Bool) (caller : Nat) : Bool :=
  match (room.waiter caller).home with
  | none => room.woken caller
  | some _ => room.woken caller || futureDone

def rearm (room : Room) (caller : Nat) : Room :=
  room.setWaiter caller (room.waiter caller).rearmed

def requeue (room : Room) (futureDone : Bool) (caller : Nat) : Room :=
  if room.needsRearm futureDone caller || !room.queued caller then
    ((room.unqueue caller).rearm caller).enqueue caller
  else room

def dropWaiter (room : Room) (loops : Nat → LoopState) (caller : Nat) : Room :=
  let left := room.unqueue caller
  if left.woken caller then (left.dropWoken caller).wakeNext loops else left

def apply (room : Room) (loops : Nat → LoopState) : Operation → Room
  | .seatReturned =>
      if 0 < room.taken then { room with taken := room.taken - 1 }.wakeNext loops else room
  | .leaving caller => room.dropWaiter loops caller

end Room

inductive Purpose
  | first | recheck | inspect
  deriving DecidableEq

inductive Outcome
  | seat | wait | rejected | cancelled | released | inspected
  deriving DecidableEq

inductive Phase
  | idle (purpose : Purpose)
  | entering (purpose : Purpose)
  | settling (purpose : Purpose)
  | acting (purpose : Purpose)
  | closing (next : Outcome)
  | unlocking (next : Outcome)
  | checking (next : Outcome)
  | trying (next : Outcome)
  | waiting
  | holding
  | ended (last : Outcome)
  deriving DecidableEq

def Outcome.phase : Outcome → Phase
  | .seat => .holding
  | .wait => .waiting
  | last => .ended last

structure Caller where
  home : Option Nat
  timeout : Option ℚ
  phase : Phase
  took : Nat
  gave : Nat
  deriving DecidableEq

structure System where
  maxConcurrent : Nat
  room : Room
  pending : List Operation
  locked : Bool
  rejectedCount : Nat
  callers : List Caller
  clock : ℚ
  loops : Nat → LoopState

/-- `futureDone` says whether the future of a coroutine was done when it went on. -/
inductive Action
  | arriveThread (timeout : Option ℚ) (onLoop : Bool)
  | arriveCoroutine (loop : Nat) (timeout : Option ℚ)
  | arriveReader
  | step (caller : Nat) (futureDone : Bool)
  | resume (caller : Nat)
  | cancel (caller : Nat)
  | release (caller : Nat)
  | tick (reading : ℚ)
  | loop (loop : Nat) (state : LoopState)

namespace System

def start (maxConcurrent : Nat) (clock : ℚ) (loops : Nat → LoopState) : System :=
  { maxConcurrent := maxConcurrent
    room := ⟨0, [], fun _ => ⟨none, 0, false, false⟩⟩
    pending := []
    locked := false
    rejectedCount := 0
    callers := []
    clock := clock
    loops := loops }

def move (system : System) (index : Nat) (caller : Caller) (phase : Phase) : System :=
  { system with callers := system.callers.set index { caller with phase := phase } }

/-- One turn of `_settle`: the next pending operation, or the pruning that ends it. -/
def settle (system : System) (index : Nat) (caller : Caller) (settled : Phase) : System :=
  match system.pending with
  | operation :: rest =>
      { system with
        pending := rest
        room := system.room.apply system.loops operation }
  | [] =>
      { system with room := system.room.prune system.loops system.clock }.move index caller settled

def takeSeat (system : System) (index : Nat) (caller : Caller) : System :=
  { system with room := { system.room with taken := system.room.taken + 1 } }.move index
    { caller with took := caller.took + 1 } (.closing .seat)

def reject (system : System) (index : Nat) (caller : Caller) : System :=
  { system with rejectedCount := system.rejectedCount + 1 }.move index caller (.closing .rejected)

def actFirst (system : System) (index : Nat) (caller : Caller) : System :=
  if system.room.taken < system.maxConcurrent then system.takeSeat index caller
  else
    match caller.timeout with
    | none => system.reject index caller
    | some timeout =>
        if timeout ≤ 0 then system.reject index caller
        else
          let waiter : Waiter := ⟨caller.home, system.clock + timeout, false, false⟩
          { system with room := (system.room.setWaiter index waiter).enqueue index }.move index caller (.closing .wait)

def actAgain (system : System) (index : Nat) (caller : Caller) (futureDone : Bool) : System :=
  if system.room.taken < system.maxConcurrent then
    { system with room := system.room.unqueue index }.takeSeat index caller
  else if system.clock < (system.room.waiter index).deadline then
    { system with room := system.room.requeue futureDone index }.move index caller (.closing .wait)
  else
    { system with room := system.room.dropWaiter system.loops index }.reject index caller

def advance (system : System) (index : Nat) (futureDone : Bool) (caller : Caller) : System :=
  match caller.phase with
  | .idle purpose => system.move index caller (.entering purpose)
  | .entering purpose =>
      if system.locked then system
      else { system with locked := true }.move index caller (.settling purpose)
  | .settling purpose => system.settle index caller (.acting purpose)
  | .acting .first => system.actFirst index caller
  | .acting .recheck => system.actAgain index caller futureDone
  | .acting .inspect => system.move index caller (.closing .inspected)
  | .closing next => system.settle index caller (.unlocking next)
  | .unlocking next => { system with locked := false }.move index caller (.checking next)
  | .checking next =>
      if system.pending.isEmpty then system.move index caller next.phase
      else system.move index caller (.trying next)
  | .trying next =>
      if system.locked then system.move index caller next.phase
      else { system with locked := true }.move index caller (.closing next)
  | .waiting | .holding | .ended _ => system

/-- A wait ends by its wake or by its timeout, which a timer may report a little early. -/
def resume (system : System) (index : Nat) (caller : Caller) : System :=
  match caller.phase with
  | .waiting => system.move index caller (.entering .recheck)
  | _ => system

def cancel (system : System) (index : Nat) (caller : Caller) : System :=
  match caller.phase with
  | .waiting =>
      { system with pending := system.pending ++ [Operation.leaving index] }.move index caller (.checking .cancelled)
  | _ => system

def release (system : System) (index : Nat) (caller : Caller) : System :=
  match caller.phase with
  | .holding =>
      { system with pending := system.pending ++ [Operation.seatReturned] }.move index
        { caller with gave := caller.gave + 1 } (.checking .released)
  | _ => system

def arrive (system : System) (home : Option Nat) (timeout : Option ℚ) (purpose : Purpose) : System :=
  { system with callers := system.callers ++ [⟨home, timeout, .idle purpose, 0, 0⟩] }

def step (system : System) : Action → System
  | .arriveThread timeout onLoop =>
      -- a thread that runs an event loop gets the immediate verdict
      system.arrive none (if timeout.isSome && onLoop then none else timeout) .first
  | .arriveCoroutine loop timeout => system.arrive (some loop) timeout .first
  | .arriveReader => system.arrive none none .inspect
  | .step index futureDone =>
      match system.callers[index]? with
      | some caller => system.advance index futureDone caller
      | none => system
  | .resume index =>
      match system.callers[index]? with
      | some caller => system.resume index caller
      | none => system
  | .cancel index =>
      match system.callers[index]? with
      | some caller => system.cancel index caller
      | none => system
  | .release index =>
      match system.callers[index]? with
      | some caller => system.release index caller
      | none => system
  | .tick reading => { system with clock := max system.clock reading }
  | .loop loop state =>
      { system with loops := fun other => if other = loop then state else system.loops other }

def run (system : System) (actions : List Action) : System :=
  actions.foldl step system

end System

end Baldur.Bulkhead
