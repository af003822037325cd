import Baldur.CircuitBreaker.SystemCore
import Mathlib.Data.Int.Order.Basic

/-!
The operator's block. A thread that has read the blocked row makes no write that ignores the block. One that
read the row before may: three writes do not look at the override again.
-/

namespace Baldur.CircuitBreaker

open Prog hiding call
open Pool List

variable {expiry : Option Time} {now : Time}

def Blocks (expiry : Option Time) (row : Row) : Prop :=
  row.state = .opened ∧ row.manuallyControlled = true ∧ row.manualOverrideExpiresAt = expiry

instance (expiry : Option Time) : DecidablePred (Blocks expiry) := fun row =>
  inferInstanceAs (Decidable (row.state = .opened ∧ row.manuallyControlled = true ∧
    row.manualOverrideExpiresAt = expiry))

def StillHeld (expiry : Option Time) (now : Time) : Prop :=
  ∀ deadline ∈ expiry, now < deadline

instance (expiry : Option Time) (now : Time) : Decidable (StillHeld expiry now) :=
  inferInstanceAs (Decidable (∀ deadline ∈ expiry, now < deadline))

variable {row : Row}

theorem isPinActive_of_blocks (blocks : Blocks expiry row)
    (held : StillHeld expiry now) : row.isPinActive now = true := by
  obtain ⟨_, flagged, expires⟩ := blocks
  simp only [CircuitBreakerStateData.isPinActive, manualPinIsActive, flagged, expires, Bool.true_and]
  cases expiry with
  | none => rfl
  | some deadline => exact decide_eq_true (held deadline rfl)

namespace RepoCall

def ignoresBlock : RepoCall → Bool
  | .tryAcquireHalfOpenSlot _ _ _ => true
  | .clearManualControl _ _ => true
  | .updateState _ update => !update.keepOpen && !update.skipIfPinned
  | _ => false

def isOperatorWrite : RepoCall → Bool
  | .setManualControl .. => true
  | .reset _ => true
  | .atomicForceOpen .. => true
  | .atomicForceClose .. => true
  | .atomicReset _ _ => true
  | _ => false

def readsRow (name : String) : RepoCall → Bool
  | .getOrCreate other => other = name
  | .getByServiceName other => other = name
  | .getAllStates => true
  | _ => false

end RepoCall

open Operation (program)
open RepoCall Service

attribute [local simp] ignoresBlock Pool.Config.forget

theorem blocks_onRow (call : RepoCall) (looks : call.ignoresBlock = false)
    (automatic : call.isOperatorWrite = false) (held : StillHeld expiry now) (blocks : Blocks expiry row) :
    Blocks expiry (call.onRow now row) := by
  have pinned := isPinActive_of_blocks blocks held
  have opened := blocks.1
  cases call with
  | updateState name update =>
    simp only [onRow, CircuitBreakerStateData.updateState, pinned, opened]
    by_cases skips : update.skipIfPinned = true
    · simpa [skips] using blocks
    · have keeps : update.keepOpen = true := by
        simpa [skips] using looks
      simpa [skips, keeps] using blocks
  | recordSuccessWithCloseCheck =>
    simp only [onRow, CircuitBreakerStateData.recordSuccessWithCloseCheck, opened, reduceCtorEq, false_and, if_false]
    exact ⟨rfl, blocks.2⟩
  | recordFailureWithOpenCheck =>
    simp only [onRow, CircuitBreakerStateData.recordFailureWithOpenCheck, opened, reduceCtorEq, if_false]
    exact blocks
  | tripToOpen =>
    simp only [onRow, CircuitBreakerStateData.tripToOpen, pinned, if_true]
    exact blocks
  | tryAcquireHalfOpenSlot
  | clearManualControl => simp at looks
  | setManualControl
  | reset
  | atomicForceOpen
  | atomicForceClose
  | atomicReset => simp [isOperatorWrite] at automatic
  | _ => exact blocks

@[simps]
def blockDiscipline (name : String) (expiry : Option Time) : Discipline ServiceCall ServiceCall.Answer Bool where
  may blocked
    | .repo call => call.target = some name → blocked = true → call.ignoresBlock = false
    | _ => True
  valid _
    | .now, instant => StillHeld expiry instant
    | .repo (.getByServiceName other), stored => ∀ row ∈ stored, row.serviceName = other
    | _, _ => True
  after blocked
    | .repo (.getOrCreate other), row =>
        if other = name then decide (Blocks expiry row) else blocked
    | .repo (.getByServiceName other), stored =>
        if other = name then decide (∀ row ∈ stored, Blocks expiry row) else blocked
    | .repo .getAllStates, rows =>
        decide (∀ row ∈ rows, row.serviceName = name → Blocks expiry row)
    | _, _ => blocked

section

variable {name : String} {expiry : Option Time} (service : Service) (other : String) (blocked : Bool)

attribute [local simp] perform repo window autoTransitionAllowed isManualPinActive obeys_ite

theorem block_readObserved :
    Obeys (blockDiscipline name expiry) (fun blocked' found =>
        blocked' = if other = name then decide (Blocks expiry found.2) else blocked)
      blocked (readObserved other) := by
  simp [readObserved]

variable (row : Row)

theorem block_recordRejection :
    Obeys (blockDiscipline name expiry) (fun blocked' _ => blocked' = blocked) blocked
      (service.recordRejection other row) := by
  simp [recordRejection, now]

theorem block_admissionRefusalReason :
    Obeys (blockDiscipline name expiry)
      (fun blocked' reason => blocked' = blocked ∧ (Blocks expiry row → reason = some .opened))
      blocked (service.admissionRefusalReason other row) := by
  rw [admissionRefusalReason, obeys_bind]
  have refuses : Obeys (blockDiscipline name expiry)
      (fun blocked' refused => blocked' = blocked ∧ (Blocks expiry row → refused = true))
      blocked (openRowRefuses row (service.effectiveConfig other).recoveryTimeout) := by
    by_cases blocks : Blocks expiry row
    · simp only [openRowRefuses, blocks.1, if_true, now, perform, obeys_bind, obeys_call, obeys_ret]
      refine ⟨trivial, fun instant held => ?_⟩
      have inForce : isOperatorBlockInForce row instant = true := by
        simp [isOperatorBlockInForce, blocks.1, blocks.2.1, isPinActive_of_blocks blocks held]
      simp only [inForce, if_true]
      exact ⟨rfl, fun _ => rfl⟩
    · cases opened : row.openedAt <;>
        simp [openRowRefuses, opened, now, blocks]
  refine refuses.mono ?_
  rintro _ refused ⟨rfl, whenBlocked⟩
  rw [obeys_ite]
  refine ⟨fun _ => ⟨rfl, fun _ => rfl⟩, fun open' => ?_⟩
  have notBlocked : ¬Blocks expiry row := fun blocks => open' (whenBlocked blocks)
  simp [notBlocked]

theorem block_acquireTrial (unblocked : other = name → blocked = false) :
    Obeys (blockDiscipline name expiry) (fun blocked' _ => blocked' = blocked) blocked
      (service.acquireTrial other row) := by
  simp only [acquireTrial, repo, window, perform, obeys_bind,
    obeys_call, obeys_ret, pure_eq, obeys_ite, blockDiscipline_after]
  refine ⟨fun targets isBlocked => ?_, fun attempt _ => ⟨trivial, fun _ _ => ⟨fun _ => ?_, fun _ =>
    trivial⟩⟩⟩
  · have same : other = name := by simpa [target] using targets
    simp [unblocked same] at isBlocked
  · exact block_recordRejection service other blocked _

theorem block_shouldAllowWithState (enabled : service.config.enabled = true)
    (elsewhere : other ≠ name → blocked = false) :
    Obeys (blockDiscipline name expiry) (fun blocked' decision => blocked' = true → decision.allowed = false) blocked
      (service.shouldAllowWithState other) := by
  simp only [shouldAllowWithState, enabled, if_true, evaluateAdmission, obeys_ite]
  refine ⟨fun _ => ?_, fun _ => ?_⟩
  · rw [obeys_bind]
    refine (block_readObserved other blocked).mono ?_
    rintro _ ⟨epoch, row⟩ rfl
    have known : (if other = name then decide (Blocks expiry row) else blocked) = true → Blocks expiry row := by
      by_cases same : other = name
      · simp [same]
      · simp [same, elsewhere same]
    generalize (if other = name then decide (Blocks expiry row) else blocked) = blocked' at known ⊢
    by_cases closed : row.state = .closed
    · simp only [closed, if_true, pure_eq, obeys_ret]
      intro isBlocked
      simp [(known isBlocked).1] at closed
    · simp only [closed, if_false, obeys_bind]
      refine (block_admissionRefusalReason service other blocked' row).mono ?_
      rintro _ reason ⟨rfl, whenBlocked⟩
      cases reason with
      | some =>
        simp only [obeys_bind, pure_eq, obeys_ret]
        refine (block_recordRejection service other _ row).mono ?_
        intro _ _ _ _
        trivial
      | none =>
        rename_i held
        have unblocked : held = false := by
          cases held with
          | false => rfl
          | true => simpa using whenBlocked (known rfl)
        refine (block_acquireTrial service other held row fun _ => unblocked).mono ?_
        rintro _ decision rfl isBlocked
        simp [unblocked] at isBlocked
  · simp

abbrev KeepsBlock {α : Type} (name : String) (expiry : Option Time) (blocked : Bool) (program : ServiceProg α) : Prop :=
  Obeys (blockDiscipline name expiry) (fun _ _ => True) blocked program

theorem block_recordFailure : KeepsBlock name expiry blocked (service.recordFailure other) := by
  have trips : ∀ (held : Bool) row, KeepsBlock name expiry held (Service.tripCircuitOpen other row) := by
    intro held row
    simp only [Service.tripCircuitOpen, repo, window, perform, obeys_bind, obeys_call, obeys_ret]
    refine ⟨fun _ _ => rfl, fun attempt _ => ?_⟩
    cases seen : attempt.state <;> simp
  have trial : ∀ held : Bool, KeepsBlock name expiry held (Service.failTrial other) := by
    intro held
    simp only [Service.failTrial, autoTransitionAllowed, repo, window,
      perform, obeys_bind, obeys_call, obeys_ret, obeys_ite]
    refine ⟨trivial, fun _ _ => ⟨fun _ => ⟨fun _ _ => rfl, fun attempt _ => ?_⟩, fun _ => trivial⟩⟩
    cases seen : attempt.state <;> simp
  rw [KeepsBlock, Service.recordFailure, obeys_ite]
  refine ⟨fun _ => ?_, fun _ => trivial⟩
  rw [obeys_bind]
  refine (block_readObserved other blocked).mono ?_
  rintro held ⟨epoch, row⟩ _
  simp only [isManualPinActive, now, perform, obeys_bind, obeys_call, obeys_ret, pure_eq, obeys_ite]
  refine ⟨trivial, fun instant _ => ⟨fun _ => trivial, fun _ => ⟨fun _ => trial held, fun _ => ?_⟩⟩⟩
  simpa [Service.countFailure, KeepsBlock] using fun row _ _ _ _ => trips held row

theorem block_recordSuccess (hintState : Option Row) (hintEpoch : Option Nat) :
    KeepsBlock name expiry blocked (service.recordSuccess other hintState hintEpoch) := by
  have trial : ∀ held : Bool, KeepsBlock name expiry held (service.succeedTrial other) := by
    intro held
    simp only [Service.succeedTrial, autoTransitionAllowed, repo, window,
      perform, obeys_bind, obeys_call, obeys_ret, obeys_ite]
    refine ⟨trivial, fun _ _ => ⟨fun _ => ⟨fun _ _ => rfl, fun attempt _ => ?_⟩, fun _ => trivial⟩⟩
    cases seen : attempt.state <;> simp
  have onRow : ∀ held : Bool, KeepsBlock name expiry held (service.recordSuccessOnRow other) := by
    intro held
    rw [KeepsBlock, Service.recordSuccessOnRow, obeys_bind]
    refine (block_readObserved other held).mono ?_
    rintro held' ⟨epoch, row⟩ _
    simp only [isManualPinActive, now, perform, obeys_bind, obeys_call, obeys_ret, pure_eq, obeys_ite]
    refine ⟨trivial, fun instant _ => ⟨fun _ => trivial, fun _ => ?_⟩⟩
    cases row.state with
    | halfOpen => exact trial held'
    | opened => trivial
    | closed =>
      simp
  rw [KeepsBlock, Service.recordSuccess, obeys_ite]
  refine ⟨fun _ => ?_, fun _ => trivial⟩
  rw [obeys_bind]
  have byHint : KeepsBlock name expiry blocked (service.recordSuccessByHint other hintState hintEpoch) := by
    unfold Service.recordSuccessByHint
    cases hintState <;> cases hintEpoch <;> simp [now]
  refine byHint.mono ?_
  intro held recorded _
  rw [obeys_ite]
  exact ⟨fun _ => trivial, fun _ => onRow held⟩

theorem block_admittedCall (enabled : service.config.enabled = true) (outcomes : List Outcome)
    (elsewhere : other ≠ name → blocked = false) :
    Obeys (blockDiscipline name expiry) (fun _ result => result = .recorded) blocked
      (Operation.admittedCall service other outcomes).program := by
  simp only [program, obeys_bind, pure_eq, obeys_ret]
  refine (block_shouldAllowWithState service other blocked enabled elsewhere).mono ?_
  intro held decision _
  refine obeys_foldlM _ (fun _ _ => True) _ _ ?_ held () trivial
  intro held' _ outcome _ _
  cases outcome with
  | success => exact block_recordSuccess service other held' _ _
  | failure => exact block_recordFailure service other held'

theorem block_dueForRecovery (rows : List Row) :
    Obeys (blockDiscipline name expiry) (fun blocked' due => blocked' = blocked ∧ ∀ row ∈ due, row ∈ rows) blocked
      (service.dueForRecovery rows) := by
  refine obeys_foldlM _ (fun blocked' due => blocked' = blocked ∧ ∀ row ∈ due, row ∈ rows)
    _ rows ?_ blocked [] ⟨rfl, by simp⟩
  rintro _ due row member ⟨rfl, within⟩
  have extended : ∀ later ∈ due ++ [row], later ∈ rows := by
    intro later found
    rcases mem_append.mp found with earlier | last
    · exact within later earlier
    · simpa [mem_singleton.mp last] using member
  cases opened : row.openedAt with
  | none => exact ⟨rfl, within⟩
  | some =>
    simp only [now, perform, obeys_bind, obeys_call, obeys_ret, pure_eq, obeys_ite]
    exact ⟨trivial, fun _ _ => ⟨fun _ => ⟨rfl, extended⟩, fun _ => ⟨rfl, within⟩⟩⟩

theorem block_checkRecoveryTransitions : KeepsBlock name expiry blocked service.checkRecoveryTransitions := by
  rw [KeepsBlock, checkRecoveryTransitions, obeys_ite]
  refine ⟨fun _ => ?_, fun _ => trivial⟩
  simp only [repo, perform, obeys_bind, obeys_call, obeys_ret]
  refine ⟨fun _ _ => rfl, fun rows _ => ?_⟩
  refine (block_dueForRecovery service _ _).mono ?_
  rintro held due ⟨seen, within⟩
  simp only [autoTransitionAllowed, perform, obeys_bind, obeys_call, obeys_ret, obeys_ite]
  refine ⟨trivial, fun _ _ => ⟨fun _ => ?_, fun _ => trivial⟩⟩
  refine obeys_foldlM _ (fun held' _ => held' = held) _ due ?_ held [] rfl |>.mono fun _ _ _ => trivial
  rintro _ done row member rfl
  simp only [obeys_bind, obeys_call, obeys_ret, pure_eq]
  refine ⟨fun targets isBlocked => ?_, fun _ _ => rfl⟩
  have named : row.serviceName = name := by simpa [target] using targets
  have listed := within row member
  simp only [mem_filter, Bool.and_eq_true, Bool.not_eq_true'] at listed
  rw [seen] at isBlocked
  have blocks := of_decide_eq_true isBlocked row listed.1 named
  simp [blocks.2.1] at listed

theorem block_expireOverride : KeepsBlock name expiry blocked (expireOverride other) := by
  simp only [expireOverride, repo, perform, obeys_bind, obeys_call, obeys_ret]
  refine ⟨fun _ _ => rfl, fun stored keyed => ?_⟩
  cases stored with
  | none => trivial
  | some row =>
    simp only [isManualPinActive, now, perform, obeys_bind, obeys_call, obeys_ret, pure_eq, obeys_ite]
    refine ⟨fun _ => ⟨trivial, fun instant held => ⟨fun _ => trivial, fun lapsed => ⟨trivial,
      fun _ _ => ⟨fun _ => trivial, fun _ => ⟨fun targets isBlocked => ?_, fun _ _ => trivial⟩⟩⟩⟩⟩,
      fun _ => trivial⟩
    have named : row.serviceName = name := by simpa [target] using targets
    have same : other = name := (keyed row rfl).symm.trans named
    have blocks : Blocks expiry row := by simpa [same] using isBlocked
    exact absurd (isPinActive_of_blocks blocks held) lapsed

theorem block_checkAndExpireManualOverrides : KeepsBlock name expiry blocked checkAndExpireManualOverrides := by
  simp only [checkAndExpireManualOverrides, repo, now, perform, obeys_bind, obeys_call, obeys_ret]
  refine ⟨fun _ _ => rfl, fun rows _ => ⟨trivial, fun instant _ => ?_⟩⟩
  refine obeys_foldlM _ (fun _ _ => True) _ rows ?_ _ [] trivial
  intro held expired row _ _
  rw [obeys_ite]
  refine ⟨fun _ => ?_, fun _ => trivial⟩
  rw [obeys_bind]
  refine (block_expireOverride row.serviceName held).mono ?_
  intro _ cleared _
  rw [obeys_ite]
  exact ⟨fun _ => trivial, fun _ => trivial⟩

theorem block_forceBy (write : Option Int → ServiceProg ForceResult)
    (writes : ∀ ttl, KeepsBlock name expiry blocked (write ttl))
    (already changed failed : String) (overridden : Bool) (ttl : Option Int) :
    KeepsBlock name expiry blocked (service.forceBy write already changed failed other overridden ttl) := by
  unfold forceBy
  cases rejectOutOfRangeTtl other ttl with
  | some => trivial
  | none =>
    have killSwitch : Obeys (blockDiscipline name expiry) (fun blocked' _ => blocked' = blocked)
        blocked (checkKillSwitch other overridden) := by
      simp [checkKillSwitch]
    rw [KeepsBlock, obeys_bind]
    refine killSwitch.mono ?_
    rintro _ verdict rfl
    cases verdict with
    | some => trivial
    | none =>
      rw [obeys_bind]
      refine (writes _).mono ?_
      intro held result _
      rw [obeys_ite]
      exact ⟨fun _ => by simp [finishForce, readBackOverrideExpiry], fun _ => trivial⟩

theorem block_extendManualOverride (additionalMinutes : Int) (controlledById : Option Int) (reason : String) :
    KeepsBlock name expiry blocked (extendManualOverride other additionalMinutes controlledById reason) := by
  unfold extendManualOverride
  cases rejectOutOfRangeTtl other (some additionalMinutes) with
  | some => trivial
  | none =>
    simp only [repo, perform, obeys_bind, obeys_call, obeys_ret]
    refine ⟨fun _ _ => rfl, fun stored _ => ?_⟩
    cases stored with
    | none => trivial
    | some =>
      simp [now]

end

def enabledOperation : Operation → Prop
  | .shouldAllowWithState service _ => service.config.enabled = true
  | .admittedCall service _ _ => service.config.enabled = true
  | .getAggregateFailureEvidence _ _ => False
  | _ => True

def refusesIf (blocked : Bool) : OperationResult → Prop
  | .decision decision => blocked = true → decision.allowed = false
  | _ => True

theorem block_program {name : String} (operation : Operation) (enabled : enabledOperation operation) :
    Obeys (blockDiscipline name expiry) refusesIf false operation.program := by
  cases operation with
  | shouldAllowWithState service other =>
    simp only [program, obeys_bind]
    exact block_shouldAllowWithState service other false enabled fun _ => rfl
  | recordSuccess service other hintState hintEpoch =>
    simp only [program, obeys_bind]
    exact block_recordSuccess service other false hintState hintEpoch
  | recordFailure service other =>
    simp only [program, obeys_bind]
    exact block_recordFailure service other false
  | admittedCall service other outcomes =>
    refine (block_admittedCall service other false enabled outcomes fun _ => rfl).mono ?_
    rintro _ _ rfl
    trivial
  | checkRecoveryTransitions service =>
    simp only [program, obeys_bind]
    exact block_checkRecoveryTransitions service false
  | checkAndExpireManualOverrides =>
    simp only [program, obeys_bind]
    exact block_checkAndExpireManualOverrides false
  | forceOpen service other reason overridden ttl
  | forceClose service other reason overridden ttl =>
    simp only [program, obeys_bind]
    refine block_forceBy service other false _ (fun _ => ?_) _ _ _ overridden ttl
    exact ⟨fun _ _ => rfl, fun _ _ => trivial⟩
  | reset =>
    simp [program, Service.reset, repo, window, perform, obeys_ite, refusesIf]
  | extendManualOverride other additionalMinutes by' reason =>
    simp only [program, obeys_bind]
    exact block_extendManualOverride other false additionalMinutes by' reason
  | getAggregateFailureEvidence => exact enabled.elim

variable {name : String} {expiry : Option Time} {world : World}

theorem block_valid (held : StillHeld expiry world.clock) (blocked : Bool) (call : ServiceCall) :
    (blockDiscipline name expiry).valid blocked call (World.exec call world).2 := by
  cases call with
  | now => exact held
  | repo call =>
    cases call with
    | getByServiceName =>
      intro row found
      exact Table.key_of_find found
    | _ => trivial
  | _ => trivial

theorem block_sound_before (name : String) (expiry : Option Time) :
    Sound memoryMachine (blockDiscipline name expiry) refusesIf (fun _ _ _ => True)
      (fun config action => spawnsOnly enabledOperation config action ∧ StillHeld expiry config.state.clock) where
  step := by
    intro config locals thread blocked call allowed _ _ _ _
    exact ⟨block_valid allowed.2 blocked call, [], .nil, trivial⟩
  disturb := by
    intros
    trivial
  spawn := by
    rintro config locals program ⟨⟨operation, enabled, rfl⟩, _⟩ _
    exact ⟨false, block_program operation enabled, trivial⟩

namespace ServiceCall

def readsRow (name : String) : ServiceCall → Bool
  | .repo call => call.readsRow name
  | _ => false

def ignoresBlock (name : String) : ServiceCall → Bool
  | .repo call => call.target = some name && call.ignoresBlock
  | _ => false

def isOperatorWrite (name : String) : ServiceCall → Bool
  | .repo call => call.target = some name && call.isOperatorWrite
  | _ => false

end ServiceCall

def HasRead (name : String) (trace : List ServiceEvent) (thread : Nat) : Prop :=
  ∃ event ∈ trace, event.thread = thread ∧ event.call.readsRow name = true

instance (name : String) (trace : List ServiceEvent) (thread : Nat) : Decidable (HasRead name trace thread) :=
  inferInstanceAs (Decidable (∃ event ∈ trace, event.thread = thread ∧ event.call.readsRow name = true))

/-- The stretch a block covers: it has not expired, and no operator writes the row. -/
def BlockStands (name : String) (expiry : Option Time) (config : ServiceConfig) :
    ServiceAction → Prop
  | .step thread => StillHeld expiry config.state.clock ∧
      ∀ call ∈ config.pending thread, call.isOperatorWrite name = false
  | action => spawnsOnly enabledOperation config action

/-- A thread that is about to write past a block has read the row since it was written. -/
def RereadsFirst (name : String) (config : ServiceConfig) : ServiceAction → Prop
  | .step thread => ∀ call ∈ config.pending thread, call.ignoresBlock name = true →
      HasRead name config.trace thread
  | _ => True

structure BlockInvariant (name : String) (expiry : Option Time) (world : World)
    (trace : List ServiceEvent) (locals : List Bool) : Prop where
  stored : ∃ row, world.storage.find name = some row ∧ Blocks expiry row
  known : ∀ thread blocked, locals[thread]? = some blocked → HasRead name trace thread → blocked = true
  recorded : ∀ event ∈ trace, event.thread < locals.length

theorem blocks_exec (call : ServiceCall) (held : StillHeld expiry world.clock)
    (harmless : ∀ repoCall, call = .repo repoCall → repoCall.target = some name →
      repoCall.ignoresBlock = false ∧ repoCall.isOperatorWrite = false)
    (stored : world.storage.find name = some row) (blocks : Blocks expiry row) :
    ∃ row', (World.exec call world).1.storage.find name = some row' ∧ Blocks expiry row' := by
  cases call with
  | repo call =>
    simp only [World.exec, InMemory.find_exec]
    by_cases targets : call.target = some name
    · obtain ⟨looks, automatic⟩ := harmless call rfl targets
      refine ⟨call.onRow world.clock row, ?_, blocks_onRow call looks automatic held blocks⟩
      simp only [targets, if_true, stored, RepoCall.rewrite]
      cases call.creates <;> rfl
    · exact ⟨row, by simp [targets, stored], blocks⟩
  | _ => exact ⟨row, stored, blocks⟩

theorem blocked_after (blocked : Bool) (call : ServiceCall) (stored : world.storage.find name = some row)
    (blocks : Blocks expiry row) :
    (blockDiscipline name expiry).after blocked call (World.exec call world).2 =
      if call.readsRow name then true else blocked := by
  cases call with
  | repo call =>
    cases call with
    | getOrCreate other | getByServiceName other =>
      by_cases same : other = name
      · subst same
        simp [ServiceCall.readsRow, readsRow, World.exec, InMemory.exec, stored, blocks]
      · simp [ServiceCall.readsRow, readsRow, same]
    | getAllStates =>
      simp only [blockDiscipline_after, ServiceCall.readsRow, readsRow, World.exec, InMemory.exec, if_true,
        decide_eq_true_eq]
      intro other member named
      have found := (Table.mem_entries_iff _ _).mp member
      rw [named, stored, Option.some.injEq] at found
      exact found ▸ blocks
    | _ => rfl
  | _ => rfl

theorem hasRead_cons {trace : List ServiceEvent} {thread : Nat} (event : ServiceEvent) :
    HasRead name (event :: trace) thread ↔
      (event.thread = thread ∧ event.call.readsRow name = true) ∨ HasRead name trace thread := by
  simp only [HasRead, mem_cons, exists_eq_or_imp]

theorem block_sound_within (name : String) (expiry : Option Time) :
    Sound memoryMachine (blockDiscipline name expiry) refusesIf (BlockInvariant name expiry)
      (fun config action => BlockStands name expiry config action ∧ RereadsFirst name config action) where
  step := by
    rintro config locals thread blocked call ⟨⟨held, noOperator⟩, rereads⟩ pending
      ⟨⟨row, stored, blocks⟩, known, recorded⟩ located permitted
    have within : thread < locals.length := (List.getElem?_eq_some_iff.mp located).1
    -- A write past the block needs a thread that has read it, and such a thread makes none.
    have harmless : ∀ repoCall, call = .repo repoCall → repoCall.target = some name →
        repoCall.ignoresBlock = false ∧ repoCall.isOperatorWrite = false := by
      rintro repoCall rfl targets
      refine ⟨?_, by simpa [ServiceCall.isOperatorWrite, targets] using noOperator _ pending⟩
      by_contra ignores
      have read := rereads _ pending (by simpa [ServiceCall.ignoresBlock, targets] using ignores)
      exact ignores (permitted targets (known thread blocked located read))
    refine ⟨block_valid held blocked call, [], .nil, blocks_exec call held harmless stored blocks, ?_, ?_⟩
    · intro other blocked' found read
      have after := blocked_after blocked call stored blocks
      rw [append_nil] at found
      by_cases own : thread = other
      · subst own
        rw [getElem?_set_self within, Option.some.injEq] at found
        rw [← found]
        refine after.trans ?_
        by_cases reads : call.readsRow name = true
        · simp [reads]
        · simp only [reads]
          rcases (hasRead_cons _).mp read with now | earlier
          · exact absurd now.2 reads
          · exact known thread blocked located earlier
      · rw [getElem?_set_ne own] at found
        rcases (hasRead_cons _).mp read with now | earlier
        · exact absurd now.1 own
        · exact known other blocked' found earlier
    · intro event member
      rw [append_nil, length_set]
      rcases mem_cons.mp member with rfl | earlier
      · exact within
      · exact recorded event earlier
  disturb := by
    rintro config locals change _ ⟨row, known, recorded⟩
    cases change <;> exact ⟨row, known, recorded⟩
  spawn := by
    rintro config locals program ⟨⟨operation, enabled, rfl⟩, _⟩ ⟨row, known, recorded⟩
    refine ⟨false, block_program operation enabled, row, ?_, ?_⟩
    · intro thread blocked found read
      obtain ⟨event, member, rfl, reads⟩ := read
      rw [getElem?_append_left (recorded event member)] at found
      exact known event.thread blocked found ⟨event, member, rfl, reads⟩
    · intro event member
      have := recorded event member
      simp only [length_append, length_singleton]
      omega

theorem stillHeld_of_committed (ttl : Option Int) (now : Time) :
    StillHeld (resolveManualOverrideExpiry ttl now) now := by
  intro deadline expires
  unfold resolveManualOverrideExpiry at expires
  cases ttl with
  | none => simp at expires
  | some =>
    simp only at expires
    split at expires
    · simp at expires
    · rename_i positive
      simp only [Option.mem_def, Option.some.injEq, minutes, seconds] at expires
      subst expires
      exact Int.lt_add_of_pos_right now (by omega)

def committedBy (world : World) (before : List ServiceAction) (thread : Nat) : ServiceConfig :=
  (memoryMachine.act (memoryMachine.run (Pool.start world) before) (.step thread)).forget

theorem committed_coherent (world : World) (before : List ServiceAction) (committer : Nat)
    (reason : String) (controlledById ttl : Option Int)
    (started : memoryMachine.Always (spawnsOnly enabledOperation) (start world) before)
    (commits : (memoryMachine.run (start world) before).pending committer =
      some (.repo (.atomicForceOpen name reason controlledById ttl))) :
    Coherent (blockDiscipline name (resolveManualOverrideExpiry ttl
        (memoryMachine.run (start world) before).state.clock)) refusesIf
      (BlockInvariant name (resolveManualOverrideExpiry ttl (memoryMachine.run (start world) before).state.clock))
      (committedBy world before committer) := by
  have held := stillHeld_of_committed ttl (memoryMachine.run (start world) before).state.clock
  generalize expires : resolveManualOverrideExpiry ttl
    (memoryMachine.run (start world) before).state.clock = expiry at held ⊢
  have clocks := memoryMachine.always_le_run World.clock clock_le_act (start world) before
  have side := memoryMachine.always_and started
    (memoryMachine.always_mono (fun _ _ bound deadline expires => Int.lt_of_le_of_lt bound (held deadline expires)) clocks)
  have reached := (block_sound_before name expiry).run side ⟨[], .nil, trivial⟩
  have stepped : Coherent (blockDiscipline name expiry) refusesIf (fun _ _ _ => True)
      (memoryMachine.act (memoryMachine.run (start world) before) (.step committer)) :=
    (block_sound_before name expiry).act ⟨trivial, held⟩ reached
  obtain ⟨locals, obeys, _⟩ := stepped
  obtain ⟨next, found⟩ := Config.pending_eq_some.mp commits
  refine ⟨locals, obeys, ?_, ?_, ?_⟩
  · rw [committedBy, memoryMachine.act_step found]
    simp only [Config.forget, memoryMachine, World.exec, InMemory.find_exec, target,
      if_true, RepoCall.rewrite, RepoCall.creates, Option.some.injEq, exists_eq_left']
    exact ⟨rfl, rfl, expires⟩
  · rintro thread blocked _ ⟨event, member, _⟩
    simp [committedBy] at member
  · intro event member
    simp [committedBy] at member

/-- From the commit of a forced open to its expiry or the next operator write the row stays
OPEN and every admission that reads it is refused, in every run in which a thread that writes
past the block has read the row since the commit. -/
theorem operator_block_holds (name : String) (world : World) (before after : List ServiceAction)
    (committer : Nat) (reason : String) (controlledById ttl : Option Int) (expiry : Option Time)
    (started : memoryMachine.Always (spawnsOnly enabledOperation) (start world) before)
    (commits : (memoryMachine.run (start world) before).pending committer =
      some (.repo (.atomicForceOpen name reason controlledById ttl)))
    (expires : ((committedBy world before committer).state.storage.find name).map
      (·.manualOverrideExpiresAt) = some expiry)
    (stands : memoryMachine.Always (BlockStands name expiry) (committedBy world before committer) after)
    (rereads : memoryMachine.Always (RereadsFirst name) (committedBy world before committer) after) :
    (∃ row, (memoryMachine.run (committedBy world before committer) after).state.storage.find name =
        some row ∧ row.state = .opened) ∧
      ∀ thread decision,
        (memoryMachine.run (committedBy world before committer) after).finished thread = some (.decision decision) →
        HasRead name (memoryMachine.run (committedBy world before committer) after).trace thread →
        decision.allowed = false := by
  have coherent := committed_coherent world before committer reason controlledById ttl started commits
  have same : resolveManualOverrideExpiry ttl (memoryMachine.run (start world) before).state.clock = expiry := by
    obtain ⟨_, _, invariant⟩ := coherent
    obtain ⟨row, stored, blocks⟩ := invariant.stored
    simpa [stored, blocks.2.2] using expires
  rw [same] at coherent
  obtain ⟨locals, obeys, invariant⟩ := (block_sound_within name expiry).run
    (memoryMachine.always_and stands rereads) coherent
  obtain ⟨row, stored, blocks⟩ := invariant.stored
  refine ⟨⟨row, stored, blocks.1⟩, fun thread decision finished read => ?_⟩
  have found := Config.finished_eq_some.mp finished
  obtain ⟨blocked, located, refuses⟩ := forall₂_getElem? obeys found
  exact refuses (invariant.known thread blocked located read)

def quickService : Service :=
  ⟨{ failureThreshold := 1, failureRateThreshold := 0 },
    fun _ => { failureThreshold := 1, failureRateThreshold := 0 }, []⟩

def blockBefore : List ServiceAction :=
  [.spawn (Operation.forceOpen quickService "api" "maintenance" false (some 5)).program, .step 0]

def blockAfter : List ServiceAction :=
  .spawn (Operation.shouldAllowWithState quickService "api").program :: List.replicate 5 (.step 1)

theorem operator_block_refuses_request :
    HasRead "api" (memoryMachine.run (committedBy (World.initial 0) blockBefore 0) blockAfter).trace 1 ∧
      (∃ row, (memoryMachine.run (committedBy (World.initial 0) blockBefore 0)
          blockAfter).state.storage.find "api" = some row ∧ row.state = .opened) ∧
      ∀ thread decision,
        (memoryMachine.run (committedBy (World.initial 0) blockBefore 0) blockAfter).finished thread =
          some (.decision decision) →
        HasRead "api" (memoryMachine.run (committedBy (World.initial 0) blockBefore 0) blockAfter).trace thread →
        decision.allowed = false := by
  refine ⟨by decide, operator_block_holds "api" (World.initial 0) blockBefore blockAfter 0
    "maintenance" none (some 5) (some 300000000) ?_ rfl (by decide) ?_ ?_⟩
  · exact ⟨⟨.forceOpen quickService "api" "maintenance" false (some 5), trivial, rfl⟩, trivial, trivial⟩
  · exact ⟨⟨.shouldAllowWithState quickService "api", rfl, rfl⟩, ⟨by decide, by decide⟩,
      ⟨by decide, by decide⟩, ⟨by decide, by decide⟩, ⟨by decide, by decide⟩,
      ⟨by decide, by decide⟩, trivial⟩
  · simp only [blockAfter, replicate, Machine.Always, RereadsFirst]
    decide

def staleTrialBefore : List ServiceAction :=
  .spawn (Operation.recordFailure quickService "api").program :: List.replicate 13 (.step 0) ++
    .disturb (.advance 60000000) ::
    .spawn (Operation.shouldAllowWithState quickService "api").program ::
    List.replicate 7 (.step 1) ++
    [.spawn (Operation.forceOpen quickService "api" "maintenance" false (some 5)).program, .step 2]

def staleTrialAfter : List ServiceAction :=
  .step 1 :: .spawn (Operation.shouldAllowWithState quickService "api").program :: List.replicate 6 (.step 3)

theorem stale_trial_lifts_operator_block :
    (memoryMachine.run (start (World.initial 0)) staleTrialBefore).pending 2 =
        some (.repo (.atomicForceOpen "api" "maintenance" none (some 5))) ∧
      ((committedBy (World.initial 0) staleTrialBefore 2).state.storage.find "api").map
        (·.manualOverrideExpiresAt) = some (some 360000000) ∧
      memoryMachine.Always (BlockStands "api" (some 360000000))
        (committedBy (World.initial 0) staleTrialBefore 2) staleTrialAfter ∧
      ((memoryMachine.run (committedBy (World.initial 0) staleTrialBefore 2)
        staleTrialAfter).state.storage.find "api").map (fun row => (row.state, row.manuallyControlled)) =
          some (.halfOpen, true) ∧
      ∃ decision, (memoryMachine.run (committedBy (World.initial 0) staleTrialBefore 2)
          staleTrialAfter).finished 3 = some (.decision decision) ∧ decision.allowed = true := by
  refine ⟨rfl, by decide, ?_, by decide, _, rfl, rfl⟩
  refine ⟨⟨by decide, by decide⟩, ⟨.shouldAllowWithState quickService "api", rfl, rfl⟩,
    ⟨by decide, by decide⟩, ⟨by decide, by decide⟩, ⟨by decide, by decide⟩, ⟨by decide, by decide⟩,
    ⟨by decide, by decide⟩, ⟨by decide, by decide⟩, trivial⟩

end Baldur.CircuitBreaker
