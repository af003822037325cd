import Baldur.Storage.RecoveryWindow
import Mathlib.Algebra.Order.BigOperators.Group.List

/-!
An outage of one process and then its recovery, which leaves in Redis what the same calls, sent to Redis
directly, would have left.
-/

namespace Baldur.Storage

open Baldur.Wal Overwrite List Window

/-- The calls of an outage, one after the other: each reads the mode and then takes effect. -/
def outageSteps (calls : List (Nat × WriteCall)) : List WindowAction :=
  calls.flatMap fun call => [.check call.2, .land 0 call.1]

def sendDirectly (redis : Redis) (calls : List (Nat × WriteCall)) : Option Redis :=
  calls.foldlM (fun before call => call.2.run before) redis

variable {medium : Medium} {cap now : Nat} {alive : Nat → Bool} {initial base : Content} {window : Window}
  {redis reached after : Redis} {op : WriteOp} {call : WriteCall} {past pending : List (WalEntry WriteOp)}

theorem pipe_of_execute (done : redis.execute op = some after) : redis.pipe op = some after := by
  cases op with
  | zrem key members =>
    have listed : members ≠ [] := by
      rintro rfl
      simp [Redis.execute, Redis.zrem] at done
    exact (if_neg listed).trans done
  | _ => exact done

theorem replay_eq_pipe (named : op.FieldNamed) : redis.replay op = redis.pipe op := by
  cases op with
  | hdel => exact if_neg named
  | _ => rfl

theorem replayAll_eq_pipeAll {ops : List WriteOp} (named : ∀ op ∈ ops, op.FieldNamed) :
    ops.foldlM (fun (before : Redis) op => before.replay op) redis = ops.foldlM (fun before op => before.pipe op) redis := by
  induction ops generalizing redis with
  | nil => rfl
  | cons op rest ih =>
    rw [foldlM_cons, foldlM_cons, replay_eq_pipe (named op mem_cons_self)]
    exact congrArg _ (funext fun _ => ih fun other member => named other (mem_cons_of_mem _ member))

theorem replays_of_run (named : ∀ op ∈ call.ops, op.FieldNamed) (done : call.run redis = some after) :
    call.ops.foldlM (fun (before : Redis) op => before.replay op) redis = some after := by
  rw [replayAll_eq_pipeAll named]
  cases call with
  | single => simp [WriteCall.ops, pipe_of_execute done]
  | batchWriteOps => exact done

/-- Between two calls: Redis is as it was, and the replay of what is logged would reach what the calls so far
reach. -/
structure Waiting (before reached : Redis) (pending : List (WalEntry WriteOp)) (window : Window) : Prop where
  outage : ∃ past, Outage before.cells before.cells past pending window
  mode : window.backend.mode = .degraded
  stage : window.stage = .idle
  writers : window.writers = []
  redis : window.redis = before
  replays : pending.foldlM (fun (redis : Redis) entry => redis.replay entry.data) before = some reached
  cells : reached.cells = applyAll before.cells (writesOf pending)

theorem waiting_drained (drained : Drained window) : Waiting window.redis window.redis [] window where
  __ := drained
  outage := outage_drained drained
  redis := rfl
  replays := rfl
  cells := rfl

theorem step_call (mode : window.backend.mode = .degraded) (writers : window.writers = [])
    (supported : call.supported = true) :
    window.run medium cap alive [.check call, .land 0 now] = window.landDegraded medium cap now call := by
  obtain ⟨backend, redis, _, stage, landed⟩ := window
  cases writers
  simp only at mode
  simp [run, step, landCall, supported, mode]

theorem Waiting.land {before : Redis} (waiting : Waiting before reached pending window)
    (supported : call.supported = true)
    (orderly : OrderlyRun medium cap alive window [.check call, .land 0 now])
    (done : call.run reached = some after) :
    ∃ new, Waiting before after (pending ++ new) (window.run medium cap alive [.check call, .land 0 now]) := by
  obtain ⟨past, outage⟩ := waiting.outage
  have ok : DegradedOk medium cap window.backend now call := by
    have needs := orderly.2.1 ⟨call, decide (window.backend.mode = .redis)⟩ (by simp [step, waiting.writers]) supported
    simpa [waiting.mode, step] using needs
  have data := map_data_logged medium call window.backend.wal.sequence
  rw [step_call waiting.mode waiting.writers supported]
  refine ⟨_, ⟨past, outage.landDegraded supported ok⟩, ?_, ?_, ?_, ?_, ?_, ?_⟩
  · simp [landDegraded, Backend.degradedWrite, supported, waiting.mode]
  · exact waiting.stage
  · exact waiting.writers
  · exact waiting.redis
  · rw [foldlM_append, waiting.replays]
    have replays := replays_of_run (fieldNamed_of_plainAll ok.plain) done
    rw [← data, foldlM_map] at replays
    exact replays
  · rw [writesOf_append pending data, applyAll_append, ← waiting.cells]
    exact cells_run done

theorem Waiting.run {before : Redis} (calls : List (Nat × WriteCall)) (waiting : Waiting before reached pending window)
    (supported : ∀ call ∈ calls, call.2.supported = true)
    (orderly : OrderlyRun medium cap alive window (outageSteps calls))
    (done : sendDirectly reached calls = some after) :
    ∃ pending, Waiting before after pending (window.run medium cap alive (outageSteps calls)) := by
  induction calls generalizing reached pending window with
  | nil =>
    cases done
    exact ⟨pending, waiting⟩
  | cons call rest ih =>
    rw [sendDirectly, foldlM_cons] at done
    obtain ⟨middle, first, others⟩ := Option.bind_eq_some_iff.mp done
    obtain ⟨checks, lands, later⟩ := orderly
    obtain ⟨new, landed⟩ := waiting.land (supported call mem_cons_self) ⟨checks, lands, trivial⟩ first
    exact ih landed (fun other member => supported other (mem_cons_of_mem _ member)) later others

/-- Some number of further steps completes the recovery, and no call takes effect meanwhile. -/
def Recovers (medium : Medium) (alive : Nat → Bool) (initial : Content) (window : Window) : Prop :=
  ∃ steps, Recovered initial ((Window.recover medium alive {})^[steps] window) ∧
    ((Window.recover medium alive {})^[steps] window).landed = window.landed

theorem recover_landed {turn : Turn} : (window.recover medium alive turn).landed = window.landed := by
  unfold recover
  split
  · split <;> rfl
  all_goals rfl

theorem recovers_step (recovers : Recovers medium alive initial (window.recover medium alive {})) :
    Recovers medium alive initial window := by
  obtain ⟨steps, recovered, landed⟩ := recovers
  exact ⟨steps + 1, recovered, landed.trans recover_landed⟩

section

variable (outage : Outage initial base past [] window) (quiet : window.writers = [])

include outage quiet

theorem recovers_cleaned (stage : window.stage = .cleaned) : Recovers medium alive initial window := by
  refine ⟨1, ?_, recover_landed⟩
  simp only [Function.iterate_one, recover, stage]
  exact outage.finalize quiet rfl

theorem recovers_synced (stage : window.stage = .synced) : Recovers medium alive initial window := by
  refine recovers_step ?_
  simp only [recover, stage]
  exact recovers_cleaned outage.cleanup quiet rfl

theorem recovers_syncing (items : List (Key × MemoryValue)) (stage : window.stage = .syncing items) :
    Recovers medium alive initial window := by
  induction items generalizing window with
  | nil =>
    refine recovers_step ?_
    simp only [recover, stage]
    exact recovers_synced (outage.enter outage.mode trivial) quiet rfl
  | cons item rest ih =>
    refine recovers_step ?_
    simp only [recover, stage]
    exact ih (outage.syncItem stage) quiet rfl

theorem recovers_replayed (stage : window.stage = .replayed) : Recovers medium alive initial window := by
  have ok := outage.stage
  rw [stage] at ok
  obtain ⟨shows, wired⟩ := ok
  rw [outage.target] at shows
  refine recovers_step ?_
  simp only [recover, stage]
  exact recovers_syncing (outage.enter outage.mode ⟨items_of_mirrors shows wired, apart_of_wired wired⟩) quiet _ rfl

end

theorem recovers_replaying (entries : List (WalEntry WriteOp)) (outage : Outage initial base past entries window)
    (quiet : window.writers = []) (stage : window.stage = .replaying entries)
    (done : entries.foldlM (fun (redis : Redis) entry => redis.replay entry.data) window.redis = some reached) :
    Recovers medium alive initial window := by
  have ok := outage.stage
  rw [stage] at ok
  induction entries generalizing window base past with
  | nil =>
    refine recovers_step ?_
    simp only [recover, stage]
    exact recovers_replayed (outage.enter outage.mode ok.1) quiet rfl
  | cons entry rest ih =>
    rw [foldlM_cons] at done
    obtain ⟨middle, first, others⟩ := Option.bind_eq_some_iff.mp done
    refine recovers_step ?_
    simp only [recover, stage, Backend.replayEntry, first]
    have next := Outage.replayEntry ((append_nil (entry :: rest)).symm ▸ outage) ok.1 first
    rw [append_nil] at next
    exact ih next quiet rfl others next.stage

theorem Waiting.recovers {before : Redis} (waiting : Waiting before reached pending window) :
    Recovers medium alive before.cells window := by
  obtain ⟨past, outage⟩ := waiting.outage
  have ok := outage.stage
  rw [waiting.stage] at ok
  have replays := waiting.replays
  rw [← waiting.redis] at replays
  refine recovers_step (recovers_step ?_)
  simp only [recover, waiting.stage, waiting.mode, if_true, outage.unprocessed]
  refine recovers_replaying pending (outage.enter ?_ ⟨ok, [], ?_⟩) waiting.writers rfl replays
  · simp
  · exact (append_nil pending).symm

/-- Throughout the recovery the files of the log fit the memory left, and its thread is not in test mode. -/
def Window.Untroubled (window : Window) (turns : List Turn) : Prop :=
  ∀ turn ∈ turns, turn.synthetic = false ∧ window.Roomy turn

def recovery (turns : List Turn) : List WindowAction :=
  turns.map fun turn => .recover turn

theorem roomy_unlinkAll {available : Option Nat} {dir : WalDir WriteOp} {names : List FileName} {mode : RecoverMode}
    {pid : Nat} (roomy : WriteAheadLog.memoryGuard available (dir.glob mode pid) = none) :
    WriteAheadLog.memoryGuard available ((dir.unlinkAll names).glob mode pid) = none := by
  refine Option.filter_eq_none_iff.mpr fun bytes known => ?_
  have fits := Option.filter_eq_none_iff.mp roomy bytes known
  rw [decide_eq_true_eq, not_lt] at fits ⊢
  refine (Nat.mul_le_mul_right 3 ?_).trans fits
  have kept : (dir.unlinkAll names).glob mode pid ⊆ dir.glob mode pid := fun file member =>
    mem_glob.mpr ⟨(mem_unlinkAll.mp (mem_glob.mp member).1).1, (mem_glob.mp member).2⟩
  obtain ⟨part, same, within⟩ := (nodup_glob (dir.unlinkAll names) mode pid).subperm kept
  rw [← (same.map WalFile.length).sum_eq]
  exact (within.map WalFile.length).sum_le_sum fun length _ => length.zero_le

theorem roomy_recover {turn : Turn} (roomy : window.Roomy turn) : (window.recover medium alive {}).Roomy turn := by
  unfold recover
  split
  · split <;> exact roomy
  any_goals exact roomy
  exact roomy_unlinkAll roomy

theorem run_recover (turns : List Turn) (untroubled : window.Untroubled turns) :
    window.run medium cap alive (recovery turns) = (recover medium alive {})^[turns.length] window := by
  induction turns generalizing window with
  | nil => rfl
  | cons turn rest ih =>
    obtain ⟨⟨real, roomy⟩, others⟩ := forall_mem_cons.mp untroubled
    have calm : window.Calm turn := by
      unfold Calm
      split <;> first | exact roomy | exact real | trivial
    have first : window.step medium cap alive (.recover turn) = window.recover medium alive {} := recover_calm calm
    rw [recovery, map_cons, run, foldl_cons, first]
    exact ih fun other member => ⟨(others other member).1, roomy_recover (others other member).2⟩

/-- After an outage of calls that Redis would have taken, the recovery ends with the content those calls would
have left. -/
theorem outage_replayed_faithfully (window : Window) (drained : Drained window) (calls : List (Nat × WriteCall))
    (supported : ∀ call ∈ calls, call.2.supported = true)
    (orderly : OrderlyRun medium cap alive window (outageSteps calls)) (result : Redis)
    (direct : sendDirectly window.redis calls = some result) :
    ∃ steps, ∀ turns, (window.run medium cap alive (outageSteps calls)).Untroubled turns → steps ≤ turns.length →
      let final := window.run medium cap alive (outageSteps calls ++ recovery turns)
      final.backend.mode = .redis ∧ final.redis.cells = result.cells := by
  obtain ⟨pending, waiting⟩ := (waiting_drained drained).run calls supported orderly direct
  obtain ⟨past, outage⟩ := waiting.outage
  have recovers : Recovers medium alive window.redis.cells _ := waiting.recovers
  obtain ⟨steps, recovered, landed⟩ := recovers
  refine ⟨steps, fun turns untroubled enough => ?_⟩
  have fixed : run medium cap alive window (outageSteps calls ++ recovery turns) =
      (recover medium alive {})^[steps] (window.run medium cap alive (outageSteps calls)) := by
    rw [run, foldl_append]
    refine (run_recover turns untroubled).trans ?_
    rw [← Nat.sub_add_cancel enough, Function.iterate_add_apply]
    exact Function.iterate_fixed recovered.recover_eq _
  rw [fixed]
  refine ⟨recovered.mode, ?_⟩
  rw [recovered.shown, waiting.cells, ← outage.target, acknowledged, acknowledged, landed]

theorem degraded_set_replayed : ∃ steps, ∀ more,
    let final := freshWindow.run unitMedium 0 (fun _ => true)
      (outageSteps [(1, setCall)] ++ recovery (replicate (steps + more) { available := some 63 }))
    final.backend.mode = .redis ∧
      final.redis.cells = (freshWindow.redis.assign "k" (some (.string (.scalar (.text "v"))))).cells := by
  have orderly : OrderlyRun unitMedium 0 (fun _ => true) freshWindow (outageSteps [(1, setCall)]) := by
    refine ⟨trivial, ?_, trivial⟩
    intro writer chosen _
    cases chosen
    refine ⟨by decide, ⟨trivial, _, rfl, trivial⟩, by decide, ?_⟩
    unfold Tracks.StoreRoomy
    decide
  obtain ⟨steps, recovers⟩ := outage_replayed_faithfully freshWindow drained_freshWindow [(1, setCall)] (by decide)
    orderly _ rfl
  refine ⟨steps, fun more => recovers _ ?_ (by simp)⟩
  intro turn member
  rw [eq_of_mem_replicate member]
  refine ⟨rfl, ?_⟩
  unfold Window.Roomy
  decide +kernel

def emptyFieldCalls : List (Nat × WriteCall) :=
  [(1, .single (.hset "k" (Table.empty.put ("", "v")))), (2, .single (.hdel "k" ""))]

theorem empty_field_survives :
    let final := freshWindow.run unitMedium 0 (fun _ => true) (outageSteps emptyFieldCalls ++ replicate 10 .recover)
    final.backend.mode = .redis ∧ final.redis.cells ("k", .field "") = some (.text "v") ∧
      (sendDirectly freshWindow.redis emptyFieldCalls).map (·.cells ("k", .field "")) = some none := by
  decide +kernel

end Baldur.Storage
