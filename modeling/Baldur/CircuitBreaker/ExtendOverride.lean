import Baldur.CircuitBreaker.SystemCore
import Baldur.Lib.Stepwise

/-!
`extend_manual_override` (`manual_control.py`) against every other call on the row of its service: it
reads the row in one repository call and writes the state it read back in another.
-/

namespace Baldur.CircuitBreaker

open Prog

/-- `read`, the row as the call has read it, is a record of the model. -/
structure ExtendRun where
  world : World
  program : ServiceProg CircuitBreakerResult
  read : Option Row := none

inductive ExtendMove
  | extend
  | other (request : ServiceCall)
  | disturb (change : Surroundings)

namespace ExtendRun

def readBy (read : Option Row) : (request : ServiceCall) → request.Answer → Option Row
  | .repo (.getByServiceName _), row => row
  | _, _ => read

variable (name : String) (run : ExtendRun)

def step : ExtendMove → ExtendRun
  | .extend =>
      match run.program with
      | .call request next =>
          let out := World.exec request run.world
          { world := out.1, program := next out.2, read := readBy run.read request out.2 }
      | .ret _ => run
  | .other request => { run with world := (World.exec request run.world).1 }
  | .disturb change => { run with world := World.disturb change run.world }

def row : Row :=
  InMemory.entry run.world.storage name run.world.clock

def SameCircuit (before after : Row) : Prop :=
  after = { before with
    manuallyControlled := after.manuallyControlled
    controlledById := after.controlledById
    controlReason := after.controlReason
    manualOverrideExpiresAt := after.manualOverrideExpiresAt
    updatedAt := after.updatedAt }

def Spares : ExtendMove → Prop
  | .extend => SameCircuit (run.row name) ((run.step .extend).row name)
  | _ => True

/-- At the write the row is in the state that was read, and an open one was opened at this instant. -/
def Unmoved : ExtendMove → Prop
  | .extend =>
      match run.program with
      | .call (.repo (.setManualControl ..)) _ =>
          run.read.map (·.state) = some (run.row name).state ∧
            ((run.row name).state = .opened → (run.row name).openedAt = some run.world.clock)
      | _ => True
  | _ => True

def extendDiscipline : Discipline ServiceCall ServiceCall.Answer (Option Row) where
  may read request :=
    match request with
    | .repo (.setManualControl other state ..) => other = name ∧ read.map (·.state) = some state
    | .repo (.getByServiceName _) | .now | .window _ => True
    | _ => False
  valid _ _ _ := True
  after := readBy

def Sound : Prop :=
  Obeys (extendDiscipline name) (fun _ _ => True) run.read run.program

variable {name : String} {run : ExtendRun}

theorem sound_start (world : World) (additionalMinutes : Int) (controlledById : Option Int) (reason : String) :
    Sound name { world, program := Service.extendManualOverride name additionalMinutes controlledById reason } := by
  unfold Sound Service.extendManualOverride
  cases rejectOutOfRangeTtl name (some additionalMinutes) with
  | some => trivial
  | none =>
    simp only [Service.repo, perform, obeys_bind, obeys_call, obeys_ret]
    refine ⟨trivial, fun stored _ => ?_⟩
    cases stored with
    | none => trivial
    | some row => simp [Service.now, Service.window, perform, extendDiscipline, readBy, obeys_ite]

theorem Sound.step (sound : run.Sound name) (move : ExtendMove) : (run.step move).Sound name := by
  cases move with
  | other request | disturb change => exact sound
  | extend =>
    obtain ⟨world, program, read⟩ := run
    cases program with
    | ret => exact sound
    | call request next => exact sound.2 _ trivial

theorem sameCircuit_setManualControl (row : Row) (state : CircuitState) (controlledById : Option Int)
    (reason : String) (expiresAt : Option Time) (now : Time) :
    SameCircuit row (row.setManualControl state controlledById reason expiresAt now).1 ↔
      state = row.state ∧ (row.state = .opened → row.openedAt = some now) := by
  cases row
  simp only [SameCircuit, CircuitBreakerStateData.setManualControl, CircuitBreakerStateData.mk.injEq]
  grind

theorem Sound.spares_iff (sound : run.Sound name) (move : ExtendMove) : run.Spares name move ↔ run.Unmoved name move := by
  cases move with
  | other request | disturb change => rfl
  | extend =>
    obtain ⟨world, program, read⟩ := run
    cases program with
    | ret => exact iff_of_true rfl trivial
    | call request next =>
      have may := sound.1
      cases request with
      | now | window asked => exact iff_of_true rfl trivial
      | systemEnabled | autoTransitionAllowed => cases may
      | repo asked =>
        cases asked with
        | getByServiceName other => exact iff_of_true rfl trivial
        | setManualControl other state by' reason expiresAt =>
          obtain ⟨rfl, told⟩ := may
          have written (storage : Storage) (now : Time) : InMemory.entry (InMemory.onRow storage other now
              (·.setManualControl state by' reason expiresAt now)).1 other now =
                ((InMemory.entry storage other now).setManualControl state by' reason expiresAt now).1 := by
            conv_lhs => rw [InMemory.entry, InMemory.find_onRow _ _ _ _ _ fun _ => rfl, if_pos rfl, Option.getD_some]
          simp only [Spares, Unmoved, ExtendRun.step, row, World.exec, InMemory.exec, written,
            sameCircuit_setManualControl, told, Option.some.injEq]
        | _ => cases may

theorem extend_spares_iff (world : World) (additionalMinutes : Int) (controlledById : Option Int) (reason : String)
    (moves : List ExtendMove) :
    let start : ExtendRun :=
      { world, program := Service.extendManualOverride name additionalMinutes controlledById reason }
    Stepwise.Always step (Spares name) start moves ↔ Stepwise.Always step (Unmoved name) start moves :=
  Stepwise.always_congr (Sound name) (fun _ move sound => sound.spares_iff move)
    (fun _ move sound _ => sound.step move) (sound_start world additionalMinutes controlledById reason)

theorem trip_is_reverted :
    let row : Row :=
      { serviceName := "api", state := .closed, manuallyControlled := true, manualOverrideExpiresAt := some 0 }
    ¬ Stepwise.Always step (Spares "api")
      { world := { World.initial 1 with storage := Table.empty.put row }
        program := Service.extendManualOverride "api" 90 none "" }
      [.extend, .other (.repo (.tripToOpen "api" 5)), .extend, .extend] := by
  intro row spares
  have state := congrArg CircuitBreakerStateData.state spares.2.2.2.1
  revert state
  decide +kernel

end ExtendRun

end Baldur.CircuitBreaker
