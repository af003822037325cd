import Baldur.CircuitBreaker.LayeredCore
import Baldur.Lib.Pool
import Mathlib.Data.Finset.Basic

/-!
Worker processes over one Redis, each with its own L1, outcome window, health record and mirror bookkeeping.
Mirror tasks, convergence tasks and drift passes are threads that a call starts.
-/

namespace Baldur.CircuitBreaker

structure Worker where
  l1 : Storage := Table.empty
  window : OutcomeWindow := OutcomeWindow.initial
  l2Healthy : Bool := true
  l2WasUnhealthy : Bool := false
  l2ConsecutiveFailures : Nat := 0
  l2BackendIsDegraded : Bool := false
  mirrorInFlight : Finset String := ∅
  mirrorDirty : Finset String := ∅
  convergenceReservedAt : String → Option Time := fun _ => none
  convergenceSlots : Nat := 2
  clusterStatePropagationEnabled : Bool := false
  executorAccepts : Bool := true

def L1Call.exec (now : Time) (storage : Storage) : (call : L1Call) → Storage × call.Answer
  | .repo call => InMemory.exec now storage call
  | .hydrateSnapshot snapshot skip => InMemory.hydrateSnapshot storage snapshot skip now
  | .convergeToClosedUnlessPinned name =>
      InMemory.onStored storage name false (·.convergeToClosedUnlessPinned now)
  | .resetCounts name => InMemory.onStored storage name false (·.resetCounts now)

def rejectConvergenceCooldownSeconds : Int := 30

namespace Worker

variable (worker : Worker) (name : String)

def isSuppressed (now : Time) : Bool :=
  match worker.convergenceReservedAt name with
  | none => false
  | some reservedAt => decide (now - reservedAt < seconds rejectConvergenceCooldownSeconds)

def handleL2Failure : Worker :=
  let failures := worker.l2ConsecutiveFailures + 1
  if 3 ≤ failures then
    { worker with l2ConsecutiveFailures := failures, l2Healthy := false, l2WasUnhealthy := true }
  else
    { worker with l2ConsecutiveFailures := failures }

def handleL2Success : Worker × Bool :=
  ({ worker with l2ConsecutiveFailures := 0, l2Healthy := true, l2WasUnhealthy := false },
    !worker.l2Healthy || worker.l2WasUnhealthy)

def mirrorEnqueue : Worker × Bool :=
  if name ∈ worker.mirrorInFlight then
    ({ worker with mirrorDirty := insert name worker.mirrorDirty }, false)
  else
    ({ worker with mirrorInFlight := insert name worker.mirrorInFlight }, true)

def mirrorRelease : Worker × Bool :=
  if name ∈ worker.mirrorDirty then
    (worker, false)
  else
    ({ worker with mirrorInFlight := worker.mirrorInFlight.erase name }, true)

end Worker

def LocalCall.exec (now : Time) (worker : Worker) : (call : LocalCall) → Worker × call.Answer
  | .window call =>
      let out := call.exec worker.window
      ({ worker with window := out.1 }, out.2)
  | .l1 call =>
      let out := call.exec now worker.l1
      ({ worker with l1 := out.1 }, out.2)
  | .repairRead _ name => (worker, worker.l1.find name)
  | .clusterStatePropagationEnabled => (worker, worker.clusterStatePropagationEnabled)
  | .l2Healthy => (worker, worker.l2Healthy)
  | .l2BackendIsDegraded => (worker, worker.l2BackendIsDegraded)
  | .handleL2Success => worker.handleL2Success
  | .handleL2Failure => (worker.handleL2Failure, ())
  | .mirrorEnqueue name => worker.mirrorEnqueue name
  | .submitMirrorTask _ => (worker, worker.executorAccepts)
  | .mirrorWithdraw name => ({ worker with mirrorInFlight := worker.mirrorInFlight.erase name }, ())
  | .mirrorClearDirty name => ({ worker with mirrorDirty := worker.mirrorDirty.erase name }, ())
  | .mirrorRelease name => worker.mirrorRelease name
  | .convergenceSuppressed name => (worker, worker.isSuppressed name now)
  | .acquireConvergenceSlot =>
      ({ worker with convergenceSlots := worker.convergenceSlots - 1 }, 0 < worker.convergenceSlots)
  | .releaseConvergenceSlot => ({ worker with convergenceSlots := worker.convergenceSlots + 1 }, ())
  | .reserveConvergence name =>
      if worker.isSuppressed name now then
        (worker, false)
      else
        ({ worker with
            convergenceReservedAt := Function.update worker.convergenceReservedAt name (some now) },
          true)
  | .submitConvergence _ => (worker, worker.executorAccepts)

/-- Tasks the executor took, the next turn of a mirror task, the drift pass of a link that has recovered. -/
def LocalCall.starts : (call : LocalCall) → call.Answer → List (LayeredProg Unit)
  | .submitMirrorTask name, accepted => if accepted then [Layered.mirrorPass name] else []
  | .mirrorRelease name, released => if released then [] else [Layered.mirrorPass name]
  | .submitConvergence name, accepted =>
      if accepted then [Layered.runRejectPathConvergence name] else []
  | .handleL2Success, recovered =>
      if recovered then [(do let _ ← Layered.reconcileAllDrift; return ())] else []
  | _, _ => []

inductive Link
  | answering
  | late
  | broken
  deriving DecidableEq

structure Cluster where
  clock : Time
  frozen : Bool := false
  systemEnabled : Bool := true
  link : Link := .answering
  keys : Keyspace := fun _ => {}
  workers : Nat → Worker := fun _ => {}

def RedisCommand.send (command : RedisCommand) (link : Link) (keys : Keyspace) : Keyspace × Reply command.Answer :=
  match link with
  | .answering => ((command.exec keys).1, .answered (command.exec keys).2)
  | .late => ((command.exec keys).1, .timedOut)
  | .broken => (keys, .raised)

structure WorkerCall where
  worker : Nat
  call : LayeredCall

@[reducible] def WorkerCall.Answer (call : WorkerCall) : Type :=
  call.call.Answer

def LayeredCall.exec (worker : Nat) (cluster : Cluster) :
    (call : LayeredCall) → Cluster × call.Answer
  | .now => (cluster, cluster.clock)
  | .systemEnabled => (cluster, cluster.systemEnabled)
  | .autoTransitionAllowed _ _ => (cluster, !cluster.frozen)
  | .inside call =>
      let out := call.exec cluster.clock (cluster.workers worker)
      ({ cluster with workers := Function.update cluster.workers worker out.1 }, out.2)
  | .l2 _ command =>
      let out := command.send cluster.link cluster.keys
      ({ cluster with keys := out.1 }, out.2)

def Cluster.exec (call : WorkerCall) (cluster : Cluster) : Cluster × call.Answer :=
  call.call.exec call.worker cluster

abbrev ClusterProg := Prog WorkerCall WorkerCall.Answer

def onWorker {α : Type} (worker : Nat) (program : LayeredProg α) : ClusterProg α :=
  program.translate fun call => Prog.perform (⟨worker, call⟩ : WorkerCall)

inductive ClusterChange
  | advance (microseconds : Nat)
  | freeze (active : Bool)
  | killSwitch (enabled : Bool)
  | link (link : Link)
  | degrade (worker : Nat) (degraded : Bool)

def Cluster.disturb : ClusterChange → Cluster → Cluster
  | .advance elapsed, cluster => { cluster with clock := cluster.clock + elapsed }
  | .freeze active, cluster => { cluster with frozen := active }
  | .killSwitch enabled, cluster => { cluster with systemEnabled := enabled }
  | .link link, cluster => { cluster with link := link }
  | .degrade worker degraded, cluster =>
      { cluster with
        workers := Function.update cluster.workers worker
          ({ cluster.workers worker with l2BackendIsDegraded := degraded } : Worker) }

def WorkerCall.starts (call : WorkerCall) (answer : call.Answer) : List (ClusterProg Unit) :=
  match call, answer with
  | ⟨worker, .inside inner⟩, answer => (inner.starts answer).map (onWorker worker)
  | _, _ => []

def clusterMachine : Pool.Machine WorkerCall WorkerCall.Answer Cluster ClusterChange Unit :=
  ⟨Cluster.exec, Cluster.disturb, WorkerCall.starts⟩

abbrev ClusterAction := Pool.Action WorkerCall WorkerCall.Answer ClusterChange Unit

abbrev ClusterEvent := Pool.Event WorkerCall WorkerCall.Answer

abbrev ClusterConfig := Pool.Config WorkerCall WorkerCall.Answer Cluster Unit

inductive Job
  | service {α : Type} (program : ServiceProg α)
  | applyPeerCbState (name : String) (newState : CircuitState) (openedAt : Option Time)
  | forceSyncToL2
  | reconcileAllDrift
  | reconcileSingleService (name : String)

def Job.program : Job → LayeredProg Unit
  | .service program => discard (program.translate Layered.serve)
  | .applyPeerCbState name newState openedAt => discard (Layered.applyPeerCbState name newState openedAt)
  | .forceSyncToL2 => discard (Layered.forceSyncToL2)
  | .reconcileAllDrift => discard (Layered.reconcileAllDrift)
  | .reconcileSingleService name => discard (Layered.reconcileSingleService name)

def runsJobs (_ : ClusterConfig) : ClusterAction → Prop
  | .spawn program => ∃ worker job, program = onWorker worker (Job.program job)
  | _ => True

end Baldur.CircuitBreaker
