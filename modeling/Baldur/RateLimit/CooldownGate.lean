import Baldur.Lib.Stepwise
import Mathlib.Algebra.Order.Field.Rat
import Mathlib.Tactic.Linarith

/-!
The cooldown gate of `core/rate_limiting.py`: a reservation is evicted by the window it was stored
with, and compared with the cooldown of each call.
-/

namespace Baldur.RateLimit

abbrev CooldownGate := String → Option (ℚ × ℚ)

namespace CooldownGate

variable (gate : CooldownGate) (key : String) (cooldown now : ℚ)

def evictExpired : CooldownGate := fun key =>
  (gate key).filter fun (ts, window) => ¬ now - ts ≥ window

def cooling : Bool :=
  (gate key).any fun (ts, _) => now - ts < cooldown

def tryReserve : CooldownGate × Option ℚ :=
  let gate := gate.evictExpired now
  if cooldown > 0 ∧ gate.cooling key cooldown now then (gate, none)
  else (Function.update gate key (some (now, cooldown)), some now)

def release (token : ℚ) : CooldownGate × Bool :=
  if (gate key).any fun (ts, _) => ts = token then (Function.update gate key none, true) else (gate, false)

def isSuppressed : Bool :=
  decide (cooldown > 0) && gate.cooling key cooldown now

attribute [local grind =] evictExpired cooling Function.update_apply

theorem evictExpired_evictExpired {swept : ℚ} (ordered : swept ≤ now) :
    (gate.evictExpired swept).evictExpired now = gate.evictExpired now := by
  funext key
  cases stored : gate key with
  | none => grind
  | some entry => grind

theorem cooling_evictExpired (swept : ℚ) :
    (gate.evictExpired swept).cooling key cooldown now = gate.cooling key cooldown now ↔
      ∀ ts window, gate key = some (ts, window) → now - ts < cooldown → swept - ts < window := by
  cases stored : gate key with
  | none => grind
  | some entry => grind

theorem release_apply (token : ℚ) (other : String) :
    (gate.release key token).1 other =
      if other = key ∧ (gate other).any (fun (ts, _) => ts = token) then none else gate other := by
  unfold release
  split <;> grind

theorem release_evictExpired (token : ℚ) :
    ((gate.evictExpired now).release key token).1 = (gate.release key token).1.evictExpired now := by
  funext other
  cases stored : gate other with
  | none => simp [release_apply, evictExpired, stored]
  | some entry =>
    by_cases gone : now - entry.1 ≥ entry.2
    · simp [release_apply, evictExpired, stored, gone, apply_ite]
    · have young := not_le.mp gone
      by_cases named : other = key ∧ entry.1 = token
      · obtain ⟨rfl, rfl⟩ := named
        simp [release_apply, evictExpired, stored, young]
      · simp [release_apply, evictExpired, stored, young, named]

end CooldownGate

inductive GateOp
  | tryReserve (cooldown : ℚ) (positive : 0 < cooldown)
  | release (token : ℚ)
  | isSuppressed (cooldown : ℚ) (positive : 0 < cooldown)

structure GateCall where
  key : String
  op : GateOp
  pause : ℚ
  forward : 0 ≤ pause

/-- `latest` (each key's latest reservation, unless released) and `swept` (the time of the latest
eviction) are records of the model. -/
structure GateRun where
  now : ℚ
  gate : CooldownGate := fun _ => none
  latest : CooldownGate := fun _ => none
  swept : ℚ := now

namespace GateRun

variable (run : GateRun) (call : GateCall)

def step : GateRun :=
  let now := run.now + call.pause
  match call.op with
  | .tryReserve cooldown _ =>
      let (gate, token) := run.gate.tryReserve call.key cooldown now
      let latest := token.elim run.latest fun token => Function.update run.latest call.key (some (token, cooldown))
      { now, gate, latest, swept := now }
  | .release token =>
      { run with now, gate := (run.gate.release call.key token).1, latest := (run.latest.release call.key token).1 }
  | .isSuppressed .. => { run with now }

/-- A call is refused, or its key suppressed, exactly when the latest reservation of the key, if it
is not released, is younger than the cooldown asked for. -/
def answers : Bool :=
  let now := run.now + call.pause
  match call.op with
  | .tryReserve cooldown _ =>
      (run.gate.tryReserve call.key cooldown now).2.isNone = run.latest.cooling call.key cooldown now
  | .release _ => true
  | .isSuppressed cooldown _ =>
      run.gate.isSuppressed call.key cooldown now = run.latest.cooling call.key cooldown now

/-- A reservation younger than the cooldown asked for was inside its own window at every eviction. -/
def Kept : Prop :=
  let now := run.now + call.pause
  match call.op with
  | .tryReserve cooldown _ =>
      ∀ ts window, run.latest call.key = some (ts, window) → now - ts < cooldown → now - ts < window
  | .release _ => True
  | .isSuppressed cooldown _ =>
      ∀ ts window, run.latest call.key = some (ts, window) → now - ts < cooldown → run.swept - ts < window

structure Sound : Prop where
  ordered : run.swept ≤ run.now
  held : run.gate = run.latest.evictExpired run.swept

variable {run : GateRun}

theorem Sound.answers_iff (sound : run.Sound) (call : GateCall) : run.answers call ↔ run.Kept call := by
  obtain ⟨key, op, pause, forward⟩ := call
  have ordered : run.swept ≤ run.now + pause := by linarith [sound.ordered]
  cases op with
  | release token => simp [answers, Kept]
  | isSuppressed cooldown positive =>
    simp only [answers, Kept, CooldownGate.isSuppressed, positive, decide_true, Bool.true_and, sound.held, decide_eq_true_eq]
    exact CooldownGate.cooling_evictExpired ..
  | tryReserve cooldown positive =>
    have refused : (run.gate.tryReserve key cooldown (run.now + pause)).2.isNone =
        (run.latest.evictExpired (run.now + pause)).cooling key cooldown (run.now + pause) := by
      simp only [CooldownGate.tryReserve, sound.held, CooldownGate.evictExpired_evictExpired _ _ ordered]
      split <;> simp_all
    simp only [answers, Kept, refused, decide_eq_true_eq]
    exact CooldownGate.cooling_evictExpired ..

theorem Sound.step (sound : run.Sound) (call : GateCall) : (run.step call).Sound := by
  obtain ⟨key, op, pause, forward⟩ := call
  have ordered : run.swept ≤ run.now + pause := by linarith [sound.ordered]
  cases op with
  | release token => exact ⟨ordered, by simp only [GateRun.step, sound.held, CooldownGate.release_evictExpired]⟩
  | isSuppressed cooldown positive => exact ⟨ordered, sound.held⟩
  | tryReserve cooldown positive =>
    simp only [GateRun.step, CooldownGate.tryReserve, sound.held, CooldownGate.evictExpired_evictExpired _ _ ordered]
    split
    · exact ⟨le_rfl, rfl⟩
    · refine ⟨le_rfl, ?_⟩
      funext other
      by_cases same : other = key
      · simp [same, CooldownGate.evictExpired, Option.filter, positive]
      · simp [same, CooldownGate.evictExpired]

theorem gate_cools_iff (created : ℚ) (calls : List GateCall) :
    Stepwise.Always step (fun run call => run.answers call = true) { now := created } calls ↔
      Stepwise.Always step Kept { now := created } calls :=
  Stepwise.always_congr Sound (fun _ call sound => sound.answers_iff call)
    (fun _ call sound _ => sound.step call) ⟨le_rfl, rfl⟩

theorem longer_cooldown_is_not_kept :
    ¬ Stepwise.Always step (fun run call => run.answers call = true) { now := 0 }
      [⟨"alert", .tryReserve 10 (by decide), 0, le_rfl⟩, ⟨"alert", .tryReserve 60 (by decide), 11, by decide⟩] := by
  decide +kernel

end GateRun

end Baldur.RateLimit
