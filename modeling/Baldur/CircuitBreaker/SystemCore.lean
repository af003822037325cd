import Baldur.CircuitBreaker.ServiceCore
import Baldur.Lib.Pool

/-!
One process running the service over the in-memory adapter, its threads interleaved at single calls.
-/

namespace Baldur.CircuitBreaker

structure World where
  clock : Time
  frozen : Bool
  systemEnabled : Bool
  storage : Storage
  window : OutcomeWindow

def World.initial (clock : Time) : World :=
  ⟨clock, false, true, Table.empty, OutcomeWindow.initial⟩

def World.exec : (call : ServiceCall) → World → World × call.Answer
  | .now, world => (world, world.clock)
  | .systemEnabled, world => (world, world.systemEnabled)
  | .autoTransitionAllowed _ _, world => (world, !world.frozen)
  | .repo call, world =>
      let out := InMemory.exec world.clock world.storage call
      ({ world with storage := out.1 }, out.2)
  | .window call, world =>
      let out := call.exec world.window
      ({ world with window := out.1 }, out.2)

inductive Surroundings
  | advance (microseconds : Nat)
  | freeze (active : Bool)
  | killSwitch (enabled : Bool)

def World.disturb : Surroundings → World → World
  | .advance elapsed, world => { world with clock := world.clock + elapsed }
  | .freeze active, world => { world with frozen := active }
  | .killSwitch enabled, world => { world with systemEnabled := enabled }

inductive OperationResult
  | decision (decision : CircuitBreakerDecision)
  | recorded
  | swept (result : SweepResult)
  | expired (names : List String)
  | manual (result : CircuitBreakerResult)
  | evidence (evidence : AggregateFailureEvidence)

/-- An admitted call records its outcomes with the hint and the epoch its own admission returned. -/
inductive Operation
  | shouldAllowWithState (service : Service) (name : String)
  | recordSuccess (service : Service) (name : String)
      (hintState : Option Row) (hintEpoch : Option Nat)
  | recordFailure (service : Service) (name : String)
  | admittedCall (service : Service) (name : String) (outcomes : List Outcome)
  | checkRecoveryTransitions (service : Service)
  | checkAndExpireManualOverrides
  | forceOpen (service : Service) (name reason : String) (overrideKillSwitch : Bool)
      (ttlMinutes : Option Int)
  | forceClose (service : Service) (name reason : String) (overrideKillSwitch : Bool)
      (ttlMinutes : Option Int)
  | reset (name reason : String)
  | extendManualOverride (name : String) (additionalMinutes : Int) (controlledById : Option Int)
      (reason : String)
  | getAggregateFailureEvidence (service : Service) (fleet : Bool)

namespace Operation

/-- `_on_success` / `_on_failure` of the policy, with the admission's hint. -/
def recordOutcome (service : Service) (name : String) (decision : CircuitBreakerDecision) :
    Outcome → ServiceProg Unit
  | .success => service.recordSuccess name (some decision.state) (some decision.windowEpoch)
  | .failure => service.recordFailure name

def program : Operation → ServiceProg OperationResult
  | .shouldAllowWithState service name => do
      return .decision (← service.shouldAllowWithState name)
  | .recordSuccess service name hintState hintEpoch => do
      service.recordSuccess name hintState hintEpoch
      return .recorded
  | .recordFailure service name => do
      service.recordFailure name
      return .recorded
  | .admittedCall service name outcomes => do
      let decision ← service.shouldAllowWithState name
      outcomes.foldlM (fun _ outcome => recordOutcome service name decision outcome) ()
      return .recorded
  | .checkRecoveryTransitions service => do
      return .swept (← service.checkRecoveryTransitions)
  | .checkAndExpireManualOverrides => do
      return .expired (← Service.checkAndExpireManualOverrides)
  | .forceOpen service name reason overrideKillSwitch ttlMinutes => do
      return .manual (← service.forceOpen name reason overrideKillSwitch ttlMinutes)
  | .forceClose service name reason overrideKillSwitch ttlMinutes => do
      return .manual (← service.forceClose name reason overrideKillSwitch ttlMinutes)
  | .reset name reason => do
      return .manual (← Service.reset name reason)
  | .extendManualOverride name additionalMinutes controlledById reason => do
      return .manual (← Service.extendManualOverride name additionalMinutes controlledById reason)
  | .getAggregateFailureEvidence service fleet => do
      return .evidence (← service.getAggregateFailureEvidence fleet)

end Operation

abbrev ServiceAction := Pool.Action ServiceCall ServiceCall.Answer Surroundings OperationResult

abbrev ServiceEvent := Pool.Event ServiceCall ServiceCall.Answer

abbrev ServiceConfig := Pool.Config ServiceCall ServiceCall.Answer World OperationResult

def memoryMachine : Pool.Machine ServiceCall ServiceCall.Answer World Surroundings OperationResult :=
  ⟨World.exec, World.disturb, fun _ _ => []⟩

theorem clock_le_act (config : ServiceConfig) (action : ServiceAction) :
    config.state.clock ≤ (memoryMachine.act config action).state.clock := by
  cases action with
  | step thread =>
    cases pending : config.pending thread with
    | none =>
      exact Int.le_of_eq (by rw [memoryMachine.act_idle pending])
    | some call =>
      obtain ⟨next, found⟩ := Pool.Config.pending_eq_some.mp pending
      rw [memoryMachine.act_step found]
      cases call <;> exact Int.le_refl _
  | disturb change =>
    cases change with
    | advance elapsed => exact Int.le_add_of_nonneg_right (Int.natCast_nonneg elapsed)
    | freeze active | killSwitch enabled => exact Int.le_refl _
  | spawn => exact Int.le_refl _

def spawnsOnly (allowed : Operation → Prop) (_ : ServiceConfig) : ServiceAction → Prop
  | .spawn program => ∃ operation, allowed operation ∧ program = operation.program
  | _ => True

theorem always_spawnsOnly {allowed : Operation → Prop} {schedule : List ServiceAction}
    (spawns : ∀ program, Pool.Action.spawn program ∈ schedule →
      ∃ operation, allowed operation ∧ program = operation.program) (config : ServiceConfig) :
    memoryMachine.Always (spawnsOnly allowed) config schedule := by
  induction schedule generalizing config with
  | nil => trivial
  | cons action rest ih =>
    refine ⟨?_, ih (fun program member => spawns program (List.mem_cons_of_mem _ member)) _⟩
    cases action with
    | spawn program => exact spawns program List.mem_cons_self
    | step => trivial
    | disturb => trivial

end Baldur.CircuitBreaker
