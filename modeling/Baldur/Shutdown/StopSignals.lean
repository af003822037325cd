import Baldur.Lib.Stepwise

/-!
The stop signals of the shutdown coordinator (`core/shutdown_coordinator.py`). The first delivery
takes `_signal_once` and arms the exit; the drain thread reads the armed signal once, at its end.
-/

namespace Baldur.Shutdown

inductive Signal
  | sigterm
  | sigint
  deriving DecidableEq

inductive SignalMode
  | deferExit
  | chain
  deriving DecidableEq

/-- The one delivery that takes `_signal_once`; every later one is handled in a single step. -/
inductive Handler
  | idle
  | taken (signum : Signal)
  | initiating
  | returned
  deriving DecidableEq

/-- How a handler leaves `on_drain_complete` or `on_force_shutdown`; `exited` is no `Exception`. -/
inductive Outcome
  | returned
  | raised
  | exited
  deriving DecidableEq

inductive Drain
  | unborn
  | starting
  | draining
  | arming
  | resent (signum : Signal)
  | finished
  deriving DecidableEq

inductive Ending
  | reraised (signum : Signal)
  | exited (code : Nat)
  deriving DecidableEq

structure Coordinator where
  handler : Handler := .idle
  exitSignum : Option Signal := none
  drain : Drain := .unborn
  ending : Option Ending := none
  delivered : List Signal := []
  deriving DecidableEq

inductive Move
  | deliver (signum : Signal)
  | handle
  | initiateShutdown
  | startThread
  | endDrain (outcomes : List Outcome)
  | armDeferredExit
  | deadman
  deriving DecidableEq

def Signal.number : Signal → Nat
  | sigterm => 15
  | sigint => 2

namespace Coordinator

variable (coordinator : Coordinator)

def initiateShutdown : Coordinator :=
  if coordinator.drain = .unborn then { coordinator with drain := .starting } else coordinator

def deliver (mode : Signal → SignalMode) (signum : Signal) : Coordinator :=
  let coordinator := { coordinator with delivered := signum :: coordinator.delivered }
  if coordinator.handler = .idle then { coordinator with handler := .taken signum }
  else
    match mode signum with
    | .deferExit => { coordinator with ending := some (.reraised signum) }
    | .chain => coordinator

def handle (mode : Signal → SignalMode) : Coordinator :=
  match coordinator.handler with
  | .taken signum =>
      match mode signum with
      | .deferExit => { coordinator with handler := .initiating, exitSignum := some signum }
      | .chain => { coordinator with handler := .initiating }
  | .initiating => { coordinator.initiateShutdown with handler := .returned }
  | _ => coordinator

/-- The clean and the forced end run the handlers alike. One that is not caught ends the thread. -/
def endDrain (outcomes : List Outcome) : Coordinator :=
  { coordinator with drain := if .exited ∈ outcomes then .finished else .arming }

def armDeferredExit : Coordinator :=
  match coordinator.exitSignum with
  | none => { coordinator with drain := .finished }
  | some signum => { coordinator with drain := .resent signum }

def step (mode : Signal → SignalMode) (coordinator : Coordinator) (move : Move) : Coordinator :=
  match coordinator.ending with
  | some _ => coordinator
  | none =>
      match move, coordinator.drain with
      | .deliver signum, _ => coordinator.deliver mode signum
      | .handle, _ => coordinator.handle mode
      | .initiateShutdown, _ => coordinator.initiateShutdown
      | .startThread, .starting => { coordinator with drain := .draining }
      | .endDrain outcomes, .draining => coordinator.endDrain outcomes
      | .armDeferredExit, .arming => coordinator.armDeferredExit
      | .deadman, .resent signum => { coordinator with ending := some (.exited (128 + signum.number)) }
      | _, _ => coordinator

def Swallowed (mode : Signal → SignalMode) : Prop :=
  coordinator.ending = none ∧ coordinator.drain = .finished ∧ ∃ signum ∈ coordinator.delivered, mode signum = .deferExit

/-- A delivery that takes `_signal_once` in defer-exit mode comes before the drain thread has looked
for an armed exit, and the thread neither looks between the taking and the arming nor dies after it. -/
def InTime (mode : Signal → SignalMode) (coordinator : Coordinator) : Move → Prop
  | .deliver signum => coordinator.ending = none → coordinator.handler = .idle →
      mode signum = .deferExit → coordinator.drain ≠ .finished
  | .endDrain outcomes => coordinator.ending = none → coordinator.drain = .draining → .exited ∈ outcomes →
      ∀ signum ∈ coordinator.delivered, mode signum = .chain
  | .armDeferredExit => coordinator.ending = none → coordinator.drain = .arming →
      coordinator.exitSignum = none → ∀ signum, coordinator.handler = .taken signum → mode signum = .chain
  | _ => True

/-- While the process lives, a signal delivered in defer-exit mode is about to be armed or an exit is
armed, and the drain thread has not finished. -/
structure Watched (mode : Signal → SignalMode) (coordinator : Coordinator) : Prop where
  kept : coordinator.ending = none → ∀ signum ∈ coordinator.delivered, mode signum = .deferExit →
    coordinator.drain ≠ .finished ∧ (coordinator.handler = .taken signum ∨ coordinator.exitSignum ≠ none)
  known : ∀ signum, coordinator.handler = .taken signum → signum ∈ coordinator.delivered

variable {mode : Signal → SignalMode} {coordinator : Coordinator} {move : Move}

variable (watched : Watched mode coordinator)

include watched

theorem Watched.drains {drain : Drain} (alive : coordinator.ending = none)
    (going : ∀ signum ∈ coordinator.delivered, mode signum = .deferExit → drain ≠ .finished) :
    Watched mode { coordinator with drain } where
  kept _ signum member deferred := ⟨going signum member deferred, (watched.kept alive signum member deferred).2⟩
  known := watched.known

theorem Watched.initiateShutdown (alive : coordinator.ending = none) : Watched mode coordinator.initiateShutdown := by
  unfold Coordinator.initiateShutdown
  split
  · exact watched.drains alive nofun
  · exact watched

theorem Watched.deliver (alive : coordinator.ending = none) {signum : Signal}
    (inTime : InTime mode coordinator (.deliver signum)) : Watched mode (coordinator.deliver mode signum) := by
  obtain ⟨kept, known⟩ := watched
  unfold Coordinator.deliver
  dsimp only
  split
  · rename_i idle
    refine ⟨fun _ other member deferred => ?_, fun other taken => ?_⟩
    · rcases List.mem_cons.mp member with rfl | old
      · exact ⟨inTime alive idle deferred, .inl rfl⟩
      · obtain ⟨going, armed⟩ := kept alive other old deferred
        exact ⟨going, .inr (armed.resolve_left (by simp [idle]))⟩
    · cases taken
      exact List.mem_cons_self
  · cases owner : mode signum with
    | deferExit => exact ⟨nofun, fun other taken => List.mem_cons_of_mem _ (known other taken)⟩
    | chain =>
      refine ⟨fun _ other member deferred => ?_, fun other taken => List.mem_cons_of_mem _ (known other taken)⟩
      rcases List.mem_cons.mp member with rfl | old
      · cases owner.symm.trans deferred
      · exact kept alive other old deferred

theorem Watched.handle (alive : coordinator.ending = none) : Watched mode (coordinator.handle mode) := by
  unfold Coordinator.handle
  cases stage : coordinator.handler with
  | idle | returned => exact watched
  | taken signum =>
    dsimp only
    cases owner : mode signum with
    | deferExit =>
      exact ⟨fun _ other member deferred => ⟨(watched.kept alive other member deferred).1, .inr nofun⟩, nofun⟩
    | chain =>
      refine ⟨fun _ other member deferred => ?_, nofun⟩
      obtain ⟨going, taken | armed⟩ := watched.kept alive other member deferred
      · obtain rfl := Handler.taken.inj (stage.symm.trans taken)
        cases owner.symm.trans deferred
      · exact ⟨going, .inr armed⟩
  | initiating =>
    obtain ⟨kept, _⟩ := watched.initiateShutdown alive
    have untaken : ∀ signum, coordinator.initiateShutdown.handler ≠ .taken signum := by
      unfold Coordinator.initiateShutdown
      split <;> simp [stage]
    refine ⟨fun alive other member deferred => ?_, nofun⟩
    obtain ⟨going, armed⟩ := kept alive other member deferred
    exact ⟨going, .inr (armed.resolve_left (untaken other))⟩

theorem Watched.step (inTime : InTime mode coordinator move) : Watched mode (coordinator.step mode move) := by
  unfold Coordinator.step
  split
  · exact watched
  · rename_i alive
    split
    · exact watched.deliver alive inTime
    · exact watched.handle alive
    · exact watched.initiateShutdown alive
    · exact watched.drains alive nofun
    · rename_i outcomes draining
      refine watched.drains alive fun signum member deferred => ?_
      split
      · rename_i exits
        cases (inTime alive draining exits signum member).symm.trans deferred
      · exact nofun
    · rename_i arming
      unfold Coordinator.armDeferredExit
      split
      · rename_i unset
        refine watched.drains alive fun signum member deferred => ?_
        -- with nothing armed, the signal was only just taken
        have taken := (watched.kept alive signum member deferred).2.resolve_right (not_not_intro unset)
        cases (inTime alive arming unset signum taken).symm.trans deferred
      · exact watched.drains alive nofun
    · exact ⟨nofun, watched.known⟩
    · exact watched

theorem Watched.unswallowed : ¬ coordinator.Swallowed mode := by
  rintro ⟨alive, finished, signum, member, deferred⟩
  exact (watched.kept alive signum member deferred).1 finished

theorem Watched.inTime (kept : ¬ (coordinator.step mode move).Swallowed mode) : InTime mode coordinator move := by
  cases move with
  | deliver signum =>
    intro alive idle deferred finished
    refine kept ?_
    simp only [Coordinator.step, alive, Coordinator.deliver, idle, if_true]
    exact ⟨rfl, finished, signum, List.mem_cons_self, deferred⟩
  | endDrain outcomes =>
    intro alive draining exits signum member
    cases deferred : mode signum with
    | chain => rfl
    | deferExit =>
      refine absurd ?_ kept
      simp only [Coordinator.step, alive, draining, endDrain, exits, if_true]
      exact ⟨rfl, rfl, signum, member, deferred⟩
  | armDeferredExit =>
    intro alive arming unset signum taken
    cases deferred : mode signum with
    | chain => rfl
    | deferExit =>
      refine absurd ?_ kept
      simp only [Coordinator.step, alive, arming, armDeferredExit, unset]
      exact ⟨rfl, rfl, signum, watched.known signum taken, deferred⟩
  | handle | initiateShutdown | startThread | deadman => trivial

end Coordinator

theorem stop_signals_kept_iff (mode : Signal → SignalMode) (moves : List Move) :
    Stepwise.Always (Coordinator.step mode)
        (fun coordinator move => ¬ (Coordinator.step mode coordinator move).Swallowed mode) {} moves ↔
      Stepwise.Always (Coordinator.step mode) (Coordinator.InTime mode) {} moves := by
  refine Stepwise.always_congr (Coordinator.Watched mode) ?_ ?_ ⟨nofun, nofun⟩
  · intro coordinator move watched
    exact ⟨watched.inTime, fun inTime => (watched.step inTime).unswallowed⟩
  · intro coordinator move watched inTime
    exact watched.step inTime

theorem late_sigterm_swallowed :
    ([.initiateShutdown, .startThread, .endDrain [.raised], .armDeferredExit, .deliver .sigterm, .handle, .handle].foldl
      (Coordinator.step fun _ => .deferExit) {}).Swallowed fun _ => .deferExit := by
  exact ⟨by decide, by decide, .sigterm, by decide, rfl⟩

end Baldur.Shutdown
