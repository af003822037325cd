import Baldur.CircuitBreaker.SystemCore

/-!
The read-free success path. A hint is settled when a CLOSED row has no failures to reset, the epoch has moved
past it, or a failure write is in flight. Every call keeps a settled hint settled.
-/

namespace Baldur.CircuitBreaker

open Prog hiding call
open Pool List

def CountReset (row : Row) : Prop :=
  row.state = .closed → row.failureCount = 0

instance : DecidablePred CountReset := fun row =>
  inferInstanceAs (Decidable (row.state = .closed → row.failureCount = 0))

def RepoCall.keepsCountReset : RepoCall → Prop
  | .recordFailure _ => False
  | .setManualControl .. => False
  | .updateState _ update => update.failureCount = some 0
  | _ => True

open RepoCall Service
open World (exec)

attribute [local simp] CircuitBreakerStateData.startHalfOpenWindow

theorem countReset_onRow (call : RepoCall) (now : Time) (row : Row)
    (keeps : call.keepsCountReset) (clean : CountReset row) : CountReset (call.onRow now row) := by
  cases call with
  | updateState name update =>
    have zero : update.failureCount = some 0 := keeps
    simp only [onRow, CircuitBreakerStateData.updateState, zero]
    split
    · exact clean
    · split
      · exact clean
      · intro _
        rfl
  | recordFailure name | setManualControl name state by' reason expiresAt => exact keeps.elim
  | recordSuccessWithCloseCheck =>
    simp only [onRow, CircuitBreakerStateData.recordSuccessWithCloseCheck]
    split
    · intro _
      rfl
    · exact clean
  | recordFailureWithOpenCheck =>
    simp only [onRow, CircuitBreakerStateData.recordFailureWithOpenCheck]
    split
    · intro closed
      simp at closed
    · exact clean
  | tripToOpen =>
    simp only [onRow, CircuitBreakerStateData.tripToOpen]
    split
    · exact clean
    · split
      · exact clean
      · intro closed
        simp at closed
  | tryAcquireHalfOpenSlot =>
    simp only [onRow, CircuitBreakerStateData.tryAcquireHalfOpenSlot]
    split
    · split
      · split
        · intro closed
          simp at closed
        · exact clean
      · exact clean
    · intro closed
      simp at closed
    · exact clean
  | atomicForceOpen =>
    intro closed
    simp [onRow, CircuitBreakerStateData.atomicForceOpen] at closed
  | atomicForceClose name reason by' ttl | atomicReset name reason | reset name => intro _; rfl
  | _ => exact clean

/-- A thread's open write brackets, the epoch it read last, and those it may hand to the read-free append. -/
structure HintLocal where
  marks : Nat
  epoch : Option Nat
  clean : List Nat

def HintLocal.Extends (before after : HintLocal) : Prop :=
  after.marks = before.marks ∧ ∀ epoch ∈ before.clean, epoch ∈ after.clean

theorem HintLocal.Extends.refl (g : HintLocal) : g.Extends g := by
  exact ⟨rfl, fun _ member => member⟩

theorem HintLocal.Extends.trans {first second third : HintLocal} (left : first.Extends second)
    (right : second.Extends third) : first.Extends third := by
  exact ⟨right.1.trans left.1, fun epoch member => right.2 epoch (left.2 epoch member)⟩

@[simps]
def hintDiscipline (name : String) : Discipline ServiceCall ServiceCall.Answer HintLocal where
  may g
    | .repo call => call.target = some name → call.keepsCountReset ∨ 0 < g.marks
    | .window (.endWrite other) => other = name → 0 < g.marks
    | .window (.recordSuccessIfEpoch other _ epoch true) => other = name → epoch ∈ g.clean
    | _ => True
  valid _ _ _ := True
  after g
    | .window (.beginWrite other), _ =>
        if other = name then { g with marks := g.marks + 1 } else g
    | .window (.endWrite other), _ =>
        if other = name then { g with marks := g.marks - 1 } else g
    | .window (.epochOf other), epoch => if other = name then { g with epoch := some epoch } else g
    | .repo (.getOrCreate other), row =>
        if other = name ∧ CountReset row then
          { g with clean := 0 :: (g.epoch.toList ++ g.clean) }
        else
          g
    | _, _ => g

section

variable {name : String} (service : Service) (other : String) (g : HintLocal)

abbrev KeepsHint {α : Type} (name : String) (g : HintLocal) (program : ServiceProg α) : Prop :=
  Obeys (hintDiscipline name) (fun g' _ => g' = g) g program

theorem hint_readObserved :
    Obeys (hintDiscipline name)
      (fun g' found => g.Extends g' ∧ (other = name → CountReset found.2 → found.1 ∈ g'.clean ∧ 0 ∈ g'.clean))
      g (readObserved other) := by
  simp only [readObserved, window, repo, perform, obeys_bind,
    obeys_call, obeys_ret, pure_eq, hintDiscipline_after]
  refine ⟨trivial, fun epoch _ => ⟨fun _ => .inl trivial, fun row _ => ⟨trivial, fun _ _ => ?_⟩⟩⟩
  by_cases same : other = name
  · by_cases clean : CountReset row
    · simp only [same, clean, and_self, if_true, HintLocal.Extends]
      refine ⟨⟨trivial, fun earlier member => ?_⟩, fun _ _ => ?_⟩ <;> simp_all
    · simp [same, clean, HintLocal.Extends]
  · simp [same, HintLocal.Extends]

variable (row : Row)

theorem hint_recordRejection :
    Obeys (hintDiscipline name) (fun g' _ => g.Extends g') g (service.recordRejection other row) := by
  simp only [recordRejection, isManualPinActive, now, window,
    perform, obeys_bind, obeys_call, obeys_ret, pure_eq, obeys_ite]
  exact ⟨trivial, fun instant _ => ⟨fun _ => .refl g, fun _ => ⟨trivial, fun _ _ => .refl g⟩⟩⟩

attribute [local simp] obeys_ite perform keepsCountReset repo window

theorem hint_openRowRefuses (recoveryTimeout : Int) : KeepsHint name g (openRowRefuses row recoveryTimeout) := by
  cases opened : row.openedAt <;> simp [openRowRefuses, opened, now]

theorem hint_admissionRefusalReason : KeepsHint name g (service.admissionRefusalReason other row) := by
  rw [KeepsHint, admissionRefusalReason, obeys_bind]
  refine (hint_openRowRefuses g row _).mono ?_
  rintro _ refused rfl
  simp [autoTransitionAllowed]

def HintUsable (name other : String) (g : HintLocal) (decision : CircuitBreakerDecision) : Prop :=
  other = name → decision.state.failureCount = 0 → decision.state.state = .closed → decision.windowEpoch ∈ g.clean

theorem hint_acquireTrial (ready : other = name → 0 ∈ g.clean) :
    Obeys (hintDiscipline name) (fun g' decision => g.Extends g' ∧ HintUsable name other g' decision) g
      (service.acquireTrial other row) := by
  have usable : ∀ g' (decision : CircuitBreakerDecision), decision.windowEpoch = 0 →
      g.Extends g' → HintUsable name other g' decision := by
    intro g' decision zero extends' same _ _
    rw [zero]
    exact extends'.2 0 (ready same)
  simp only [acquireTrial, repo, window, perform, obeys_bind, obeys_call, obeys_ret, pure_eq, obeys_ite]
  refine ⟨fun _ => .inl trivial, fun attempt _ => ⟨trivial, fun _ _ => ⟨fun _ => ?_, fun _ => ?_⟩⟩⟩
  · refine (hint_recordRejection service other g _).mono ?_
    intro g' _ extends'
    exact ⟨extends', usable g' _ rfl extends'⟩
  · exact ⟨.refl g, usable g _ rfl (.refl g)⟩

theorem hint_shouldAllowWithState :
    Obeys (hintDiscipline name) (fun g' decision => g.Extends g' ∧ HintUsable name other g' decision) g
      (service.shouldAllowWithState other) := by
  have plain : ∀ allowed, Obeys (hintDiscipline name)
      (fun g' decision => g.Extends g' ∧ HintUsable name other g' decision) g
      (do
        let row ← repo (.getOrCreate other)
        return { allowed := allowed, state := row }) := by
    intro allowed
    simp only [repo, perform, obeys_bind, obeys_call, obeys_ret, pure_eq, hintDiscipline_after]
    refine ⟨fun _ => .inl trivial, fun row _ => ?_⟩
    by_cases same : other = name ∧ CountReset row
    · simp_all [HintLocal.Extends, HintUsable]
    · simp only [same, if_false]
      refine ⟨.refl g, fun named zero closed => ?_⟩
      exact absurd ⟨named, fun _ => zero⟩ same
  unfold shouldAllowWithState evaluateAdmission
  simp only [obeys_ite]
  refine ⟨fun _ => ⟨fun _ => ?_, fun _ => plain false⟩, fun _ => plain true⟩
  rw [obeys_bind]
  refine (hint_readObserved other g).mono ?_
  rintro g' ⟨epoch, row⟩ ⟨extends', usable⟩
  dsimp only at usable ⊢
  by_cases closed : row.state = .closed
  · simp only [closed, if_true, pure_eq, obeys_ret]
    exact ⟨extends', fun same zero _ => (usable same fun _ => zero).1⟩
  · simp only [closed, if_false, obeys_bind]
    have ready : other = name → 0 ∈ g'.clean := by
      intro same
      exact (usable same fun isClosed => absurd isClosed closed).2
    refine (hint_admissionRefusalReason service other g' row).mono ?_
    rintro _ reason rfl
    cases reason with
    | none =>
      refine (hint_acquireTrial service other _ row ready).mono ?_
      exact fun _ _ both => ⟨extends'.trans both.1, both.2⟩
    | some =>
      simp only [obeys_bind, pure_eq, obeys_ret]
      refine (hint_recordRejection service other _ row).mono ?_
      intro _ _ more
      exact ⟨extends'.trans more, fun _ _ isClosed => absurd isClosed closed⟩

theorem hint_tripCircuitOpen : KeepsHint name g (tripCircuitOpen other row) := by
  simp only [tripCircuitOpen, repo, window, perform, obeys_bind, obeys_call, obeys_ret]
  refine ⟨fun _ => .inl trivial, fun attempt _ => ?_⟩
  cases seen : attempt.state <;> simp

theorem hint_failTrial : KeepsHint name g (failTrial other) := by
  simp only [failTrial, autoTransitionAllowed, repo, window,
    perform, obeys_bind, obeys_call, obeys_ret, obeys_ite]
  refine ⟨trivial, fun _ _ => ⟨fun _ => ⟨fun _ => .inl trivial, fun attempt _ => ?_⟩, by simp⟩⟩
  cases seen : attempt.state <;> simp

theorem hint_succeedTrial : KeepsHint name g (service.succeedTrial other) := by
  simp only [succeedTrial, autoTransitionAllowed, repo, window,
    perform, obeys_bind, obeys_call, obeys_ret, obeys_ite]
  refine ⟨trivial, fun _ _ => ⟨fun _ => ⟨fun _ => .inl trivial, fun attempt _ => ?_⟩, by simp⟩⟩
  cases seen : attempt.state <;> simp

theorem hint_countFailure : KeepsHint name g (service.countFailure other) := by
  have trips : ∀ row, KeepsHint name g (do
        if ← autoTransitionAllowed other .opened then
          let _ ← tripCircuitOpen other row
          return ()
        else
          return ()) := by
    intro row
    simp only [autoTransitionAllowed, perform, obeys_bind, obeys_call, obeys_ret, obeys_ite]
    refine ⟨trivial, fun _ _ => ⟨fun _ => ?_, fun _ => rfl⟩⟩
    exact hint_tripCircuitOpen other g row
  unfold countFailure
  by_cases same : other = name
  · simpa [same] using fun row _ _ _ _ => trips row
  · simpa [same, RepoCall.target] using fun row _ _ _ _ => trips row

theorem hint_recordFailure :
    Obeys (hintDiscipline name) (fun g' _ => g.Extends g') g (service.recordFailure other) := by
  unfold Service.recordFailure
  rw [obeys_ite]
  refine ⟨fun _ => ?_, fun _ => .refl g⟩
  rw [obeys_bind]
  refine (hint_readObserved other g).mono ?_
  rintro g' ⟨epoch, row⟩ ⟨extends', _⟩
  simp only [isManualPinActive, now, perform, obeys_bind, obeys_call, obeys_ret, pure_eq, obeys_ite]
  refine ⟨trivial, fun instant _ => ⟨fun _ => extends', fun _ => ⟨fun _ => ?_, fun _ => ?_⟩⟩⟩
  · refine (hint_failTrial other g').mono ?_
    rintro _ _ rfl
    exact extends'
  · refine (hint_countFailure service other g').mono ?_
    rintro _ _ rfl
    exact extends'

theorem hint_recordSuccessByHint (decision : CircuitBreakerDecision)
    (usable : HintUsable name other g decision) : KeepsHint name g
      (service.recordSuccessByHint other (some decision.state) (some decision.windowEpoch)) := by
  simp only [recordSuccessByHint, isManualPinActive, now, window,
    perform, obeys_bind, obeys_call, obeys_ret, pure_eq, obeys_ite,
    hintDiscipline_after]
  refine ⟨fun hinted => ⟨trivial, fun _ _ => ⟨fun _ => trivial, fun _ => ⟨fun zero => ?_, fun _ =>
    trivial⟩⟩⟩, fun _ => trivial⟩
  exact ⟨fun same => usable same zero hinted.2, fun _ _ => trivial⟩

theorem hint_recordSuccessOnRow :
    Obeys (hintDiscipline name) (fun g' _ => g.Extends g') g (service.recordSuccessOnRow other) := by
  rw [recordSuccessOnRow, obeys_bind]
  refine (hint_readObserved other g).mono ?_
  rintro g' ⟨epoch, row⟩ ⟨extends', _⟩
  simp only [isManualPinActive, now, perform, obeys_bind, obeys_call, obeys_ret, pure_eq, obeys_ite]
  refine ⟨trivial, fun instant _ => ⟨fun _ => extends', fun _ => ?_⟩⟩
  cases row.state with
  | halfOpen =>
    refine (hint_succeedTrial service other g').mono ?_
    rintro _ _ rfl
    exact extends'
  | opened => exact extends'
  | closed =>
    -- The append here does not ask for an idle writer, and the write that follows resets.
    simp [extends']

theorem hint_recordSuccess (decision : CircuitBreakerDecision) (usable : HintUsable name other g decision) :
    Obeys (hintDiscipline name) (fun g' _ => g.Extends g') g
      (service.recordSuccess other (some decision.state) (some decision.windowEpoch)) := by
  unfold Service.recordSuccess
  rw [obeys_ite]
  refine ⟨fun _ => ?_, fun _ => .refl g⟩
  rw [obeys_bind]
  refine (hint_recordSuccessByHint service other g decision usable).mono ?_
  rintro _ recorded rfl
  rw [obeys_ite]
  exact ⟨fun _ => .refl _, fun _ => hint_recordSuccessOnRow service other _⟩

theorem hint_admittedCall (outcomes : List Outcome) :
    Obeys (hintDiscipline name) (fun g' _ => g.Extends g') g
      (Operation.admittedCall service other outcomes).program := by
  simp only [Operation.program, obeys_bind, pure_eq, obeys_ret]
  refine (hint_shouldAllowWithState service other g).mono ?_
  rintro g₁ decision ⟨extends₁, usable⟩
  -- Recording outcomes only adds clean epochs, so the hint stays usable from round to round.
  refine obeys_foldlM _ (fun g' _ => g.Extends g' ∧ HintUsable name other g' decision) _ _ ?_
    _ _ ⟨extends₁, usable⟩ |>.mono fun _ _ both => both.1
  rintro g₂ _ outcome _ ⟨extends₂, usable₂⟩
  have later : ∀ g₃, g₂.Extends g₃ → g.Extends g₃ ∧ HintUsable name other g₃ decision := by
    intro g₃ extends₃
    refine ⟨extends₂.trans extends₃, fun same zero closed => ?_⟩
    exact extends₃.2 _ (usable₂ same zero closed)
  cases outcome with
  | success => exact (hint_recordSuccess service other g₂ decision usable₂).mono fun g₃ _ => later g₃
  | failure => exact (hint_recordFailure service other g₂).mono fun g₃ _ => later g₃

theorem hint_checkKillSwitch (overridden : Bool) : KeepsHint name g (checkKillSwitch other overridden) := by
  simp [checkKillSwitch]

theorem hint_forceBy (write : Option Int → ServiceProg ForceResult) (writes : ∀ ttl, KeepsHint name g (write ttl))
    (already changed failed : String) (overridden : Bool) (ttl : Option Int) : KeepsHint name g
      (service.forceBy write already changed failed other overridden ttl) := by
  unfold forceBy
  cases rejectOutOfRangeTtl other ttl with
  | some => rfl
  | none =>
    rw [KeepsHint, obeys_bind]
    refine (hint_checkKillSwitch other g overridden).mono ?_
    rintro _ blocked rfl
    cases blocked with
    | some => rfl
    | none =>
      rw [obeys_bind]
      refine (writes _).mono ?_
      rintro _ result rfl
      rw [obeys_ite]
      exact ⟨fun _ => by simp [finishForce, readBackOverrideExpiry], fun _ => rfl⟩

theorem hint_reset (reason : String) : KeepsHint name g (Service.reset other reason) := by
  simp [Service.reset]

end

/-- There is nothing to reset, or the epoch has moved on, or a writer that will move it is at work. -/
def Settled (name : String) (world : World) (epoch : Nat) : Prop :=
  epoch ≤ world.window.epochs name ∧
    ((∀ row, world.storage.find name = some row → CountReset row) ∨
      world.window.epochs name ≠ epoch ∨ 0 < world.window.writesInFlight name)

variable {name : String} {world : World} {epoch : Nat}

theorem settled_repo (call : RepoCall)
    (permitted : call.target = some name → call.keepsCountReset ∨ 0 < world.window.writesInFlight name)
    (settled : Settled name world epoch) :
    Settled name (exec (.repo call) world).1 epoch := by
  refine ⟨settled.1, ?_⟩
  rcases settled.2 with reset | moved
  · by_cases targets : call.target = some name
    · rcases permitted targets with keeps | busy
      · refine .inl fun row found => ?_
        simp only [exec, InMemory.find_exec, targets, if_true] at found
        exact RepoCall.rewrite_invariant (fun _ _ => rfl)
          (fun row => countReset_onRow call world.clock row keeps) reset row found
      · exact .inr (Or.inr busy)
    · refine .inl fun row found => ?_
      simp only [exec, InMemory.find_exec, targets, if_false] at found
      exact reset row found
  · exact .inr moved

theorem settled_window (call : WindowCall) (settled : Settled name world epoch) :
    Settled name (exec (.window call) world).1 epoch := by
  have grows := call.epochs_le_exec world.window name
  refine ⟨settled.1.trans grows, ?_⟩
  rcases settled.2 with reset | moved | busy
  · exact .inl reset
  · have := settled.1
    refine .inr (Or.inl ?_)
    simp only [exec]
    omega
  · by_cases ends : call = .endWrite name
    · subst ends
      have next := WindowCall.epochs_endWrite world.window name
      have := settled.1
      refine .inr (Or.inl ?_)
      simp only [exec]
      omega
    · refine .inr (Or.inr ?_)
      simp only [exec, WindowCall.writesInFlight_exec, ends, if_false]
      split <;> omega

variable (call : ServiceCall)

theorem epochs_le_exec (world : World) : world.window.epochs name ≤ (exec call world).1.window.epochs name := by
  cases call with
  | window call => exact call.epochs_le_exec world.window name
  | _ => exact Nat.le_refl _

structure HintLocal.Fits (name : String) (world : World) (g : HintLocal) : Prop where
  settled : ∀ epoch ∈ g.clean, Settled name world epoch
  past : ∀ epoch, g.epoch = some epoch → epoch ≤ world.window.epochs name

structure HintInvariant (name : String) (world : World) (locals : List HintLocal) : Prop where
  brackets : (locals.map HintLocal.marks).sum = world.window.writesInFlight name
  fits : ∀ g ∈ locals, g.Fits name world

theorem fits_exec {g other : HintLocal} (permitted : (hintDiscipline name).may g call)
    (marked : g.marks ≤ world.window.writesInFlight name) (fits : other.Fits name world) :
    other.Fits name (exec call world).1 := by
  refine ⟨fun epoch member => ?_, fun epoch read => ?_⟩
  · have settled := fits.settled epoch member
    cases call with
    | repo call =>
      refine settled_repo call (fun targets => ?_) settled
      exact (permitted targets).imp_right fun positive => Nat.lt_of_lt_of_le positive marked
    | window call => exact settled_window call settled
    | _ => exact settled
  · exact (fits.past epoch read).trans (epochs_le_exec call world)

theorem find_getOrCreate (now : Time) (storage : Storage) (name : String) :
    (InMemory.exec now storage (.getOrCreate name)).1.find name =
      some (InMemory.exec now storage (.getOrCreate name)).2 := by
  cases found : storage.find name with
  | none => simp [InMemory.exec, found, InMemory.freshRow]
  | some => simp [InMemory.exec, found]

theorem fits_after {g : HintLocal} (fits : g.Fits name (exec call world).1) :
    ((hintDiscipline name).after g call (exec call world).2).Fits name (exec call world).1 := by
  cases call with
  | repo call =>
    cases call with
    | getOrCreate other =>
      simp only [hintDiscipline_after]
      split
      · rename_i clean
        obtain ⟨rfl, clean⟩ := clean
        -- The row just read is the stored one, so nothing is left to reset under any epoch.
        have now : ∀ epoch, epoch ≤ world.window.epochs other →
            Settled other (exec (.repo (.getOrCreate other)) world).1 epoch := by
          intro epoch past
          refine ⟨past, Or.inl fun row found => ?_⟩
          simp only [exec, find_getOrCreate, Option.some.injEq] at found
          exact found ▸ clean
        refine ⟨fun epoch member => ?_, fits.past⟩
        simp only [mem_cons, mem_append, Option.mem_toList] at member
        rcases member with rfl | read | earlier
        · exact now 0 (Nat.zero_le _)
        · exact now epoch (fits.past epoch read)
        · exact fits.settled epoch earlier
      · exact fits
    | _ => exact fits
  | window call =>
    cases call with
    | epochOf =>
      simp only [hintDiscipline_after]
      split
      · rename_i same
        subst same
        refine ⟨fits.settled, fun epoch read => ?_⟩
        simp only [exec, WindowCall.exec, Option.some.injEq] at read ⊢
        omega
      · exact fits
    | beginWrite other | endWrite other =>
      simp only [hintDiscipline_after]
      split
      · exact ⟨fits.settled, fits.past⟩
      · exact fits
    | _ => exact fits
  | _ => exact fits

theorem marks_after {g : HintLocal} (permitted : (hintDiscipline name).may g call)
    (marked : g.marks ≤ world.window.writesInFlight name) :
    ((hintDiscipline name).after g call (exec call world).2).marks + world.window.writesInFlight name =
      g.marks + (exec call world).1.window.writesInFlight name := by
  cases call with
  | repo call =>
    cases call with
    | getOrCreate =>
      simp only [hintDiscipline_after]
      split <;> rfl
    | _ => rfl
  | window call =>
    have counted := call.writesInFlight_exec world.window name
    cases call with
    | beginWrite other =>
      by_cases same : other = name
      · simp only [hintDiscipline_after, exec, same, if_true] at counted ⊢
        omega
      · simp_all [exec]
    | endWrite other =>
      by_cases same : other = name
      · have positive : 0 < g.marks := permitted same
        simp only [hintDiscipline_after, exec, same, if_true, reduceCtorEq, if_false] at counted ⊢
        omega
      · simp_all [exec]
    | epochOf =>
      simp only [hintDiscipline_after]
      split <;> rfl
    | _ => simp_all [exec]
  | _ => rfl

def hintedOperation : Operation → Prop
  | .shouldAllowWithState _ _ => True
  | .admittedCall _ _ _ => True
  | .recordFailure _ _ => True
  | .forceOpen .. => True
  | .forceClose .. => True
  | .reset _ _ => True
  | _ => False

theorem hint_program (operation : Operation) (hinted : hintedOperation operation) (g : HintLocal) :
    Obeys (hintDiscipline name) (fun _ _ => True) g operation.program := by
  cases operation with
  | shouldAllowWithState service other =>
    simp only [Operation.program, obeys_bind]
    exact (hint_shouldAllowWithState service other g).mono fun _ _ _ => trivial
  | admittedCall service other outcomes =>
    exact (hint_admittedCall service other g outcomes).mono fun _ _ _ => trivial
  | recordFailure service other =>
    simp only [Operation.program, obeys_bind]
    exact (hint_recordFailure service other g).mono fun _ _ _ => trivial
  | forceOpen service other reason overridden ttl
  | forceClose service other reason overridden ttl =>
    simp only [Operation.program, obeys_bind]
    refine (hint_forceBy service other g _ (fun ttl => ?_) _ _ _ overridden ttl).mono fun _ _ _ => trivial
    exact ⟨fun _ => .inl trivial, fun _ _ => rfl⟩
  | reset other reason =>
    simp only [Operation.program, obeys_bind]
    exact (hint_reset other g reason).mono fun _ _ _ => trivial
  | _ => exact hinted.elim

theorem hint_sound (name : String) :
    Sound memoryMachine (hintDiscipline name) (fun _ _ => True)
      (fun world _ locals => HintInvariant name world locals) (spawnsOnly hintedOperation) where
  step := by
    intro config locals thread g call _ _ holds located permitted
    refine ⟨trivial, [], .nil, ?_⟩
    simp only [memoryMachine, append_nil]
    have marked : g.marks ≤ config.state.window.writesInFlight name := by
      rw [← holds.brackets]
      exact le_sum_map HintLocal.marks locals located
    refine ⟨?_, fun other member => ?_⟩
    · have moved := marks_after call permitted marked
      have summed := sum_map_set HintLocal.marks locals located
        ((hintDiscipline name).after g call (exec call config.state).2)
      have before := holds.brackets
      omega
    · rcases mem_or_eq_of_mem_set member with earlier | rfl
      · exact fits_exec call permitted marked (holds.fits other earlier)
      · refine fits_after call (fits_exec call permitted marked (holds.fits g ?_))
        exact mem_of_getElem? located
  disturb := by
    intro config locals change _ holds
    cases change <;> exact ⟨holds.brackets, fun g member =>
      ⟨(holds.fits g member).settled, (holds.fits g member).past⟩⟩
  spawn := by
    rintro config locals program ⟨operation, hinted, rfl⟩ holds
    refine ⟨⟨0, none, []⟩, hint_program operation hinted _, ?_, fun g member => ?_⟩
    · simpa using holds.brackets
    · rcases mem_append.mp member with earlier | new
      · exact holds.fits g earlier
      · simp only [mem_singleton] at new
        subst new
        exact ⟨by simp, by simp⟩

theorem read_free_success_loses_no_reset (name : String) (world : World)
    (idle : world.window.writesInFlight name = 0) (schedule : List ServiceAction)
    (spawned : memoryMachine.Always (spawnsOnly hintedOperation) (start world) schedule)
    (thread : Nat) (size : Int) (epoch : Nat)
    (pending : (memoryMachine.run (start world) schedule).pending thread =
      some (.window (.recordSuccessIfEpoch name size epoch true)))
    (accepted : (World.exec (.window (.recordSuccessIfEpoch name size epoch true))
      (memoryMachine.run (start world) schedule).state).2 = true)
    (row : Row)
    (stored : (memoryMachine.run (start world) schedule).state.storage.find name = some row) :
    row.state ≠ .closed ∨ row.failureCount = 0 := by
  have started : Coherent (hintDiscipline name) (fun _ _ => True)
      (fun world _ locals => HintInvariant name world locals)
      (start world : ServiceConfig) := by
    refine ⟨[], .nil, ?_, by simp⟩
    simpa [start] using idle.symm
  obtain ⟨locals, g, holds, located, permitted⟩ :=
    ((hint_sound name).run spawned started).may_of_pending pending
  have settled := (holds.fits g (mem_of_getElem? located)).settled epoch (permitted rfl)
  obtain ⟨quiet, current⟩ := WindowCall.recordSuccessIfEpoch_accepted _ name size epoch accepted
  rcases settled.2 with reset | moved | busy
  · by_cases closed : row.state = .closed
    · exact .inr (reset row stored closed)
    · exact .inl closed
  · exact absurd current moved
  · omega

def plainCall (outcome : Outcome) : Operation :=
  .admittedCall ⟨{}, fun _ => {}, []⟩ "api" [outcome]

def resetSchedule : List ServiceAction :=
  .spawn (plainCall .failure).program :: replicate 13 (.step 0) ++ .spawn (plainCall .success).program ::
    replicate 10 (.step 1) ++ .spawn (plainCall .success).program :: replicate 4 (.step 2)

theorem read_free_success_after_reset :
    ((memoryMachine.run (start (World.initial 0)) (resetSchedule.take 14)).state.storage.find "api").map
        (·.failureCount) = some 1 ∧
      ∃ row, (memoryMachine.run (start (World.initial 0)) resetSchedule).state.storage.find "api" = some row ∧
        row.state = .closed ∧ row.failureCount = 0 := by
  refine ⟨by decide +kernel, ?_⟩
  have closed : ((memoryMachine.run (start (World.initial 0)) resetSchedule).state.storage.find "api").map
      (·.state) = some .closed := by
    decide +kernel
  obtain ⟨row, stored, isClosed⟩ := Option.map_eq_some_iff.mp closed
  refine ⟨row, stored, isClosed, (read_free_success_loses_no_reset "api" (World.initial 0) rfl resetSchedule
    (always_spawnsOnly (fun program member => ?_) _) 2 100 2 ?_ (by decide +kernel) row stored).resolve_left
      (not_not_intro isClosed)⟩
  · simp only [resetSchedule, cons_append, mem_cons, mem_append, mem_replicate,
      Action.spawn.injEq, reduceCtorEq, and_false, false_or, or_false] at member
    rcases member with rfl | rfl | rfl
    all_goals exact ⟨plainCall _, trivial, rfl⟩
  · rfl

end Baldur.CircuitBreaker
