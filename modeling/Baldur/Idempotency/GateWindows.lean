import Baldur.Idempotency.GateRuns

/-!
One holder at a time, and no repeat while a completion is remembered. Both depend on how the
cache rounds the windows it is given.
-/

namespace Baldur.Idempotency

open Prog (Discipline Obeys)
open GateStage List Option Pool

variable {ttl lifetime memory : Int} {kind : CacheKind}

def startAt (clock : Int) : GateConfig :=
  Pool.start { clock }

def gateRun (kind : CacheKind) (clock : Int) (schedule : List GateAction) : GateConfig :=
  (gateMachine kind).run (startAt clock) schedule

def runsGate (ttl : Int) (action : GateAction) : Prop :=
  ∀ program, action = .spawn program → GateProgram ttl program

theorem runsGate_check : runsGate ttl (.spawn (checkAndAcquire ttl 0)) := by
  intro program spawned
  obtain rfl := Action.spawn.inj spawned
  exact .checks 0 le_rfl

theorem runsGate_step (thread : Nat) : runsGate ttl (.step thread) := by
  intro program spawned
  cases spawned

theorem runsGate_disturb (passed : Nat) : runsGate ttl (.disturb passed) := by
  intro program spawned
  cases spawned

def acquiresNext (kind : CacheKind) (config : GateConfig) (thread : Nat) : Option (Nat × Int) :=
  match config.pending thread with
  | none => none
  | some call => acquiredBy (gateEvent kind thread call config.state)

/-- A call acquires only when the windows of all open claims have passed. -/
def Exclusive (kind : CacheKind) (ttl : Int) (config : GateConfig) : GateAction → Prop
  | .step thread => (acquiresNext kind config thread).isSome →
      ∀ claim ∈ openClaims config.trace, claim.2 + ttl < config.state.clock
  | _ => True

/-- A mark changes the record only when its own claim acquired it, and only one call ever did. -/
def MarksOwn (kind : CacheKind) (config : GateConfig) : GateAction → Prop
  | .step thread => ∀ claimId value ttl,
      config.pending thread = some (.casDictField (.claimId claimId) value ttl) →
      (GateWorld.exec kind (.casDictField (.claimId claimId) value ttl) config.state).1.entry ≠ config.state.entry →
        ∃ startedAt retryCount expiresAt,
          config.state.entry = some ⟨.executing startedAt retryCount claimId, expiresAt⟩ ∧
          (claimId, startedAt) ∈ acquisitions config.trace ∧ ((acquisitions config.trace).map Prod.fst).Nodup
  | _ => True

/-- The expiry a compare-and-set is given covers the window, unless the cache refuses the claims. -/
def HoldsMemory (kind : CacheKind) (ttl memory : Int) : Prop :=
  kind.setnxLifetime ttl ≠ none → ∀ lifetime, kind.casLifetime memory = some lifetime → memory ≤ lifetime

def HoldsWindow (kind : CacheKind) (ttl : Int) : Prop :=
  (∀ lifetime, kind.setnxLifetime ttl = some lifetime → ttl ≤ lifetime) ∧ HoldsMemory kind ttl ttl

open CacheKind GateWorld

/-- Nothing is ever stored when the cache refuses the window; otherwise an open claim is the
executing record for its window, or the window has passed. -/
structure Held (kind : CacheKind) (ttl : Int) (world : GateWorld) (trace : List GateEvent) : Prop where
  refused : kind.setnxLifetime ttl = none → world.entry = none
  held : ∀ claim ∈ openClaims trace,
    (∃ retryCount expiresAt, world.entry = some ⟨.executing claim.2 retryCount claim.1, expiresAt⟩ ∧
      ∀ limit ∈ expiresAt, claim.2 + ttl ≤ limit) ∨ claim.2 + ttl < world.clock

/-- Whole seconds are exact, also in milliseconds. -/
theorem holds_wholeSeconds {seconds : Int} (positive : 0 < seconds) (few : seconds * 1000 < 2 ^ 53) :
    HoldsWindow .redis (seconds * 1000000) ∧ HoldsMemory .redis ttl (seconds * 1000000) := by
  have exact : totalSeconds (seconds * 1000000) = seconds := by
    have whole : ((seconds * 1000000 : Int) : ℚ) / 1000000 = seconds := by simp
    rw [totalSeconds, whole, Binary64.round_intCast]
    rw [abs_of_pos positive]
    omega
  have product : Binary64.round (totalSeconds (seconds * 1000000) * 1000) = (seconds * 1000 : Int) := by
    rw [exact, ← Binary64.round_intCast (n := seconds * 1000) (by rw [abs_of_pos] <;> omega)]
    simp
  have covers {ttl : Int} : HoldsMemory .redis ttl (seconds * 1000000) := by
    intro _ lifetime lives
    simp only [casLifetime, product, Int.floor_intCast, if_pos (show 0 < seconds * 1000 by omega), some.injEq] at lives
    omega
  refine ⟨⟨fun lifetime lives => ?_, covers⟩, covers⟩
  simp only [setnxLifetime, exact, Int.floor_intCast, if_pos positive, some.injEq] at lives
  exact le_of_eq lives

section

variable {kind : CacheKind} {ttl clock : Int} {config : GateConfig} {action : GateAction} {schedule : List GateAction}

def Guards (ttl : Int) (config : GateConfig) : Prop :=
  Pool.Coherent (gateDiscipline ttl) Answers Guarded config

theorem gate_sound (kind : CacheKind) (ttl : Int) :
    Sound (gateMachine kind) (gateDiscipline ttl) Answers Guarded (fun _ action => runsGate ttl action) where
  step config locals thread stage call _ pending guarded located may := by
    exact ⟨trivial, [], .nil, guarded_step guarded located may⟩
  disturb config locals passed _ guarded := by
    refine { guarded with started := ?_, read := ?_ }
    · intro stage member startedAt starts
      have before := guarded.started stage member startedAt starts
      exact le_trans before (by simp [gateMachine])
    · intro stage member now reads
      have before := guarded.read stage member now reads
      exact le_trans before (by simp [gateMachine])
  spawn config locals program starts guarded := by
    obtain ⟨stage, begins, obeys⟩ := gateProgram_obeys (starts program rfl)
    have idle : stage.claim = none ∧ stage.startedAt = none ∧ stage.now = none := by
      cases stage <;> first | exact ⟨rfl, rfl, rfl⟩ | cases begins
    have carried {has : GateStage → Prop} (all : ∀ other ∈ locals, has other) (new : has stage) :
        ∀ other ∈ locals ++ [stage], has other :=
      forall_mem_append.mpr ⟨all, forall_mem_singleton.mpr new⟩
    exact ⟨stage, obeys, carried guarded.claims (by simp [idle.1]), keyed_append guarded.apart idle.1,
      guarded.acquired, guarded.once, carried guarded.started (by simp [idle.2.1]),
      carried guarded.read (by simp [idle.2.2]), guarded.entryFrom⟩

theorem guards_start (ttl clock : Int) : Guards ttl (startAt clock) := by
  refine ⟨[], .nil, ⟨?_, keyed_nil _, ?_, ?_, ?_, ?_, ?_⟩⟩ <;> simp [startAt, start, acquisitions]

section

variable {world after : GateWorld} {trace : List GateEvent} {locals : List GateStage} {stage : GateStage}
  {event : GateEvent}

theorem passed_of_effect (guarded : Guarded world trace locals) (member : stage ∈ locals)
    (held : Held kind ttl world trace) (effect : Effect kind ttl stage world after event)
    (acquires : (acquiredBy event).isSome) : ∀ claim ∈ openClaims trace, claim.2 + ttl < world.clock := by
  intro claim isOpen
  rcases held.held claim isOpen with ⟨retryCount, expiresAt, there, keeps⟩ | passed
  · cases effect with
    | acquires _ _ _ _ _ _ free =>
      -- The record is there, so it has expired.
      by_contra early
      have found := current_of_entry there fun limit kept => le_trans (by omega) (keeps limit kept)
      simp [free] at found
    | takes claimId startedAt _ now stale existing _ started read early found takes _ _ =>
      obtain ⟨limit, there', _⟩ := current_eq_some found
      rw [there, some.injEq, CacheEntry.mk.injEq] at there'
      obtain ⟨rfl, _⟩ := there'
      have before : claim.2 < stale := by simpa [takeable] using takes
      have reading := guarded.read stage member now read
      omega
    | nothing _ unclaimed _ | missed _ _ unclaimed _
    | marks _ _ _ _ _ _ _ _ unclaimed => simp [unclaimed] at acquires
  · exact passed

theorem held_of_effect (holds : HoldsWindow kind ttl) (guarded : Guarded world trace locals)
    (member : stage ∈ locals) (held : Held kind ttl world trace)
    (effect : Effect kind ttl stage world after event) (clock : after.clock = world.clock) :
    Held kind ttl after (event :: trace) := by
  have passed := passed_of_effect guarded member held effect
  cases effect with
  | nothing same unclaimed unmarked =>
    refine ⟨fun refused => same.trans (held.refused refused), fun claim isOpen => ?_⟩
    simp only [openClaims, unclaimed, unmarked] at isOpen
    rw [same, clock]
    exact held.held claim isOpen
  | missed claimId same unclaimed marked =>
    refine ⟨fun refused => same.trans (held.refused refused), fun claim isOpen => ?_⟩
    simp only [openClaims, unclaimed, marked] at isOpen
    rw [same, clock]
    exact held.held claim (mem_of_mem_filter isOpen)
  | acquires claimId startedAt lifetime owns started lives free written acquired =>
    refine ⟨fun refused => by simp [lives] at refused, fun claim isOpen => ?_⟩
    simp only [openClaims, acquired] at isOpen
    rcases mem_cons.mp isOpen with rfl | earlier
    · refine .inl ⟨0, some (world.clock + lifetime), written, fun limit kept => ?_⟩
      obtain rfl := some.inj kept
      have long := holds.1 lifetime lives
      have began := guarded.started stage member startedAt started
      simp only
      omega
    · rw [clock]
      exact .inr (passed (by simp [acquired]) claim earlier)
  | takes claimId startedAt retryCount now stale existing owns started read early there takes written acquired =>
    have usable : kind.setnxLifetime ttl ≠ none := by
      intro refused
      obtain ⟨_, stored, _⟩ := current_eq_some there
      simp [held.refused refused] at stored
    refine ⟨fun refused => absurd refused usable, fun claim isOpen => ?_⟩
    simp only [openClaims, acquired] at isOpen
    rcases mem_cons.mp isOpen with rfl | earlier
    · refine .inl ⟨retryCount, _, written, fun limit kept => ?_⟩
      obtain ⟨lifetime, lives, rfl⟩ := map_eq_some_iff.mp kept
      have long := holds.2 usable lifetime lives
      have began := guarded.started stage member startedAt started
      simp only
      omega
    · rw [clock]
      exact .inr (passed (by simp [acquired]) claim earlier)
  | marks claimId startedAt retryCount value lifetime there mark written unclaimed marked =>
    obtain ⟨expiresAt, stored, _⟩ := current_eq_some there
    refine ⟨fun refused => by simp [held.refused refused] at stored, fun claim isOpen => ?_⟩
    simp only [openClaims, unclaimed, marked] at isOpen
    obtain ⟨earlier, other⟩ := mem_filter.mp isOpen
    -- The record marked is not this claim's, so this claim's window has passed.
    rcases held.held claim earlier with ⟨_, _, own, _⟩ | before
    · rw [stored, some.injEq, CacheEntry.mk.injEq, Stored.executing.injEq] at own
      simp [own.1.2.2] at other
    · rw [clock]
      exact .inr before

end

theorem held_act (holds : HoldsWindow kind ttl) (guards : Guards ttl config)
    (held : Held kind ttl config.state config.trace) :
    Held kind ttl ((gateMachine kind).act config action).state ((gateMachine kind).act config action).trace := by
  cases action with
  | step thread =>
    cases pending : config.pending thread with
    | none =>
      rw [(gateMachine kind).act_idle pending]
      exact held
    | some =>
      obtain ⟨locals, stage, guarded, located, may⟩ := Coherent.may_of_pending guards pending
      obtain ⟨next, found⟩ := Config.pending_eq_some.mp pending
      rw [(gateMachine kind).act_step found]
      exact held_of_effect holds guarded (mem_of_getElem? located) held (effect_of_step may) clock_exec
  | disturb passed =>
    refine ⟨held.refused, fun claim isOpen => (held.held claim isOpen).imp_right fun before => ?_⟩
    have later : config.state.clock ≤ ((gateMachine kind).act config (.disturb passed)).state.clock := by
      simp [Machine.act, gateMachine]
    omega
  | spawn => exact ⟨held.refused, held.held⟩

variable (programs : ∀ action ∈ schedule, runsGate ttl action)

include programs

theorem always_runsGate (config : GateConfig) :
    (gateMachine kind).Always (fun _ action => runsGate ttl action) config schedule := by
  rw [Machine.always_iff_split]
  rintro first action rest rfl
  exact programs action (by simp)

theorem guards_run : Guards ttl (gateRun kind clock schedule) :=
  (gate_sound kind ttl).run (always_runsGate programs _) (guards_start ttl clock)

theorem held_run (holds : HoldsWindow kind ttl) :
    Held kind ttl (gateRun kind clock schedule).state (gateRun kind clock schedule).trace := by
  have always : (gateMachine kind).Always (fun _ action => runsGate ttl action) (startAt clock) schedule :=
    always_runsGate programs _
  refine (gate_sound kind ttl).run_along (fun config => Held kind ttl config.state config.trace) ?_ always always
    (guards_start ttl clock) ?_
  · intro config action _ _ guards held
    exact held_act holds guards held
  · exact ⟨fun _ => rfl, by simp [startAt, start, openClaims]⟩

theorem exclusive_of_holdsWindow (holds : HoldsWindow kind ttl) :
    (gateMachine kind).Always (Exclusive kind ttl) (startAt clock) schedule := by
  rw [Machine.always_iff_split]
  rintro first action rest rfl
  have earlier := (forall_mem_append.mp programs).1
  cases action with
  | step thread =>
    intro acquires
    have guards : Guards ttl (gateRun kind clock first) := guards_run earlier
    have held : Held kind ttl (gateRun kind clock first).state (gateRun kind clock first).trace :=
      held_run earlier holds
    unfold acquiresNext at acquires
    cases pending : ((gateMachine kind).run (startAt clock) first).pending thread with
    | none => simp [pending] at acquires
    | some =>
      simp only [pending] at acquires
      obtain ⟨locals, stage, guarded, located, may⟩ := Coherent.may_of_pending guards pending
      exact passed_of_effect guarded (mem_of_getElem? located) held (effect_of_step may) acquires
  | disturb => trivial
  | spawn => trivial

theorem marksOwn_run : (gateMachine kind).Always (MarksOwn kind) (startAt clock) schedule := by
  rw [Machine.always_iff_split]
  rintro first action rest rfl
  have earlier := (forall_mem_append.mp programs).1
  cases action with
  | step =>
    intro claimId value window pending changes
    obtain ⟨locals, stage, guarded, _⟩ := Coherent.may_of_pending (guards_run earlier) pending
    rcases casDictField_cases kind ((gateMachine kind).run (startAt clock) first).state (.claimId claimId) value
      window with did | ⟨existing, found, admits, _⟩
    · exact absurd (by simp [exec, did]) changes
    · obtain ⟨startedAt, retryCount, rfl⟩ := admits_claimId admits
      obtain ⟨expiresAt, stored, _⟩ := current_eq_some found
      exact ⟨startedAt, retryCount, expiresAt, stored, guarded.entryFrom _ _ _ _ stored, guarded.once⟩
  | disturb => trivial
  | spawn => trivial

end

def LandsCompletion (kind : CacheKind) (config : GateConfig) (thread : Nat) (result : String) (retryCount : Nat)
    (memory : Int) : Prop :=
  ∃ claimId completedAt,
    config.pending thread = some (.casDictField (.claimId claimId) (.completed completedAt result retryCount) memory) ∧
      (GateWorld.exec kind (.casDictField (.claimId claimId) (.completed completedAt result retryCount) memory)
        config.state).2 = true

/-- From the landing on, until the memory window has passed: no call acquires, and a check begun
after the landing skips with the result. -/
def SkipsWhileRemembered (kind : CacheKind) (ttl memory : Int) : Prop :=
  ∀ (clock tolerance : Int) (first second third : List GateAction) (thread retryCount : Nat) (result : String),
    (∀ action ∈ first ++ second ++ third, runsGate ttl action) → 0 ≤ tolerance →
    LandsCompletion kind (gateRun kind clock first) thread result retryCount memory →
    let landed := gateRun kind clock first
    let begun := gateRun kind clock (first ++ .step thread :: second)
    let final := gateRun kind clock
      (first ++ .step thread :: (second ++ .spawn (checkAndAcquire ttl tolerance) :: third))
    final.state.clock ≤ landed.state.clock + memory →
      acquisitions final.trace = acquisitions landed.trace ∧
        ∀ answer, final.finished begun.threads.length = some answer → answer = .skip result retryCount

def GateStage.Skips (result : String) (retryCount : Nat) : GateStage → Prop
  | begun => True
  | drew _ => True
  | ready _ _ => True
  | refused _ _ => True
  | done answer => answer = .skip result retryCount
  | _ => False

structure Remembering (completedAt : Int) (result : String) (retryCount : Nat) (limit : Int) (base : List (Nat × Int))
    (check : Option Nat) (world : GateWorld) (trace : List GateEvent) (locals : List GateStage) : Prop where
  bounded : ∀ place, check = some place → place < locals.length
  stored : world.clock ≤ limit → ∃ expiresAt,
    world.entry = some ⟨.completed completedAt result retryCount, expiresAt⟩ ∧ ∀ last ∈ expiresAt, limit ≤ last
  unclaimed : world.clock ≤ limit → acquisitions trace = base
  skips : world.clock ≤ limit → ∀ place stage, check = some place → locals[place]? = some stage →
    stage.Skips result retryCount

section

variable {kind : CacheKind} {ttl memory completedAt limit : Int} {result : String} {retryCount : Nat}
  {base : List (Nat × Int)} {check : Option Nat} {world : GateWorld} {trace : List GateEvent}
  {locals : List GateStage} {thread : Nat} {stage : GateStage} {call : GateCall}

theorem current_of_remembering
    (remembering : Remembering completedAt result retryCount limit base check world trace locals)
    (early : world.clock ≤ limit) : world.current = some (.completed completedAt result retryCount) := by
  obtain ⟨expiresAt, there, keeps⟩ := remembering.stored early
  exact current_of_entry there fun last kept => le_trans early (keeps last kept)

theorem effect_of_completed {after : GateWorld} {event : GateEvent}
    (found : world.current = some (.completed completedAt result retryCount))
    (effect : Effect kind ttl stage world after event) : after.entry = world.entry ∧ acquiredBy event = none := by
  cases effect with
  | nothing same unclaimed _ | missed _ same unclaimed _ => exact ⟨same, unclaimed⟩
  | acquires _ _ _ _ _ _ free => simp [free] at found
  | takes _ _ _ _ _ existing _ _ _ _ there takes =>
    obtain rfl : existing = .completed completedAt result retryCount := mem_unique there found
    cases takes
  | marks _ _ _ _ _ there =>
    rw [found, some.injEq] at there
    cases there

section

variable (usable : kind.setnxLifetime ttl ≠ none)

include usable

theorem skips_stageAfter (found : world.current = some (.completed completedAt result retryCount))
    (skips : stage.Skips result retryCount) (may : (gateDiscipline ttl).may stage call) :
    (stageAfter kind ttl world stage call).Skips result retryCount := by
  cases call with
  | newClaimId => trivial
  | time =>
    rcases may with ⟨_, rfl⟩ | ⟨_, _, _, rfl⟩ | ⟨_, rfl⟩
    · trivial
    · cases skips
    · cases skips
  | setnx value window =>
    obtain ⟨rfl, claimId, startedAt, at', rfl⟩ := may
    rcases setnx_cases kind world (.executing startedAt 0 claimId) window with
      ⟨refused, _⟩ | ⟨_, _, _, did⟩ | ⟨_, _, free, _⟩
    · exact absurd refused usable
    · rcases at' with rfl | rfl
      · simp only [stageAfter, gateDiscipline, exec, did]
        trivial
      · cases skips
    · simp [free] at found
  | get =>
    obtain ⟨claimId, startedAt, rfl⟩ := may
    simp only [stageAfter, gateDiscipline, exec, found]
    rfl
  | casTakeover =>
    obtain ⟨_, _, _, _, _, rfl, _⟩ := may
    cases skips
  | casDictField =>
    obtain ⟨_, rfl, _⟩ := may
    cases skips

theorem remembering_step (remembering : Remembering completedAt result retryCount limit base check world trace locals)
    (located : locals[thread]? = some stage) (may : (gateDiscipline ttl).may stage call) :
    Remembering completedAt result retryCount limit base check (exec kind call world).1
      (gateEvent kind thread call world :: trace)
      (locals.set thread (stageAfter kind ttl world stage call) ++ []) := by
  have clock : (exec kind call world).1.clock = world.clock := clock_exec
  have kept (early : world.clock ≤ limit) :=
    effect_of_completed (current_of_remembering remembering early)
      (effect_of_step may : Effect kind ttl stage world _ (gateEvent kind thread call world))
  refine ⟨?_, ?_, ?_, ?_⟩
  · intro place follows
    simpa using remembering.bounded place follows
  · intro early
    rw [clock] at early
    rw [(kept early).1]
    exact remembering.stored early
  · intro early
    rw [clock] at early
    rw [acquisitions_cons, (kept early).2]
    exact remembering.unclaimed early
  · intro early place other follows there
    rw [clock] at early
    rcases located_after located there with ⟨rfl, rfl⟩ | ⟨_, before⟩ | ⟨_, absent⟩
    · have skips := remembering.skips early place stage follows located
      exact skips_stageAfter usable (current_of_remembering remembering early) skips may
    · exact remembering.skips early place other follows before
    · cases absent

theorem remembering_sound :
    Sound (gateMachine kind) (gateDiscipline ttl) Answers
      (Remembering completedAt result retryCount limit base check) (fun _ action => runsGate ttl action) where
  step config locals thread stage call _ pending remembering located may := by
    exact ⟨trivial, [], .nil, remembering_step usable remembering located may⟩
  disturb config locals passed _ remembering := by
    have earlier (early : ((gateMachine kind).disturb passed config.state).clock ≤ limit) :
        config.state.clock ≤ limit := by
      simp only [gateMachine] at early
      omega
    exact ⟨remembering.bounded, fun early => remembering.stored (earlier early),
      fun early => remembering.unclaimed (earlier early), fun early => remembering.skips (earlier early)⟩
  spawn config locals program starts remembering := by
    obtain ⟨stage, _, obeys⟩ := gateProgram_obeys (starts program rfl)
    refine ⟨stage, obeys, ?_, remembering.stored, remembering.unclaimed, ?_⟩
    · intro place follows
      have bound := remembering.bounded place follows
      simp only [length_append]
      omega
    · intro early place other follows there
      have bound := remembering.bounded place follows
      rw [getElem?_append_left bound] at there
      exact remembering.skips early place other follows there

end

theorem remembering_of_landing {config : GateConfig} (usable : kind.setnxLifetime ttl ≠ none)
    (holds : HoldsMemory kind ttl memory) (guards : Guards ttl config)
    (lands : LandsCompletion kind config thread result retryCount memory) :
    ∃ completedAt, Coherent (gateDiscipline ttl) Answers
      (Remembering completedAt result retryCount (config.state.clock + memory) (acquisitions config.trace) none)
      ((gateMachine kind).act config (.step thread)) := by
  obtain ⟨claimId, completedAt, pending, landed⟩ := lands
  refine ⟨completedAt, ?_⟩
  have after : Guards ttl ((gateMachine kind).act config (.step thread)) :=
    (gate_sound kind ttl).act (runsGate_step thread) guards
  obtain ⟨locals, obeys, _⟩ := after
  refine ⟨locals, obeys, ?_⟩
  obtain ⟨next, found⟩ := Config.pending_eq_some.mp pending
  rw [(gateMachine kind).act_step found]
  rcases casDictField_cases kind config.state (.claimId claimId) (.completed completedAt result retryCount) memory
    with did | ⟨_, _, _, did⟩
  · simp [exec, did] at landed
  · refine ⟨by simp, fun _ => ?_, fun _ => ?_, by simp⟩
    · refine ⟨(kind.casLifetime memory).map fun lifetime => config.state.clock + lifetime, ?_, fun last kept => ?_⟩
      · simp only [gateMachine, exec, did, write]
      · obtain ⟨lifetime, lives, rfl⟩ := map_eq_some_iff.mp kept
        have long := holds usable lifetime lives
        omega
    · exact acquisitions_cons _ _

theorem holdsWindow_of_refused (refused : kind.setnxLifetime ttl = none) : HoldsWindow kind ttl :=
  ⟨fun _ lives => (nomatch refused.symm.trans lives), absurd refused⟩

theorem usable_of_landing {clock : Int} {first : List GateAction} (programs : ∀ action ∈ first, runsGate ttl action)
    (lands : LandsCompletion kind (gateRun kind clock first) thread result retryCount memory) :
    kind.setnxLifetime ttl ≠ none := by
  intro refused
  have held : Held kind ttl (gateRun kind clock first).state (gateRun kind clock first).trace :=
    held_run programs (holdsWindow_of_refused refused)
  obtain ⟨claimId, completedAt, _, landed⟩ := lands
  simp [exec, casDictField, current, held.refused refused] at landed

theorem skips_of_holdsMemory (holds : HoldsMemory kind ttl memory) : SkipsWhileRemembered kind ttl memory := by
  intro clock tolerance first second third thread retryCount result programs allowed lands
  simp only [forall_mem_append] at programs
  obtain ⟨⟨inFirst, inSecond⟩, inThird⟩ := programs
  have usable := usable_of_landing inFirst lands
  obtain ⟨completedAt, landed⟩ := remembering_of_landing usable holds (guards_run inFirst) lands
  obtain ⟨locals, obeys, remembering⟩ := (remembering_sound usable).run (always_runsGate inSecond _) landed
  -- The check is spawned: from here on it is followed.
  have started : Coherent (gateDiscipline ttl) Answers
      (Remembering completedAt result retryCount ((gateRun kind clock first).state.clock + memory)
        (acquisitions (gateRun kind clock first).trace) (some locals.length))
      ((gateMachine kind).act ((gateMachine kind).run ((gateMachine kind).act (gateRun kind clock first) (.step thread))
        second) (.spawn (checkAndAcquire ttl tolerance))) := by
    refine ⟨locals ++ [begun], rel_append obeys (.cons (checkAndAcquire_obeys allowed) .nil), ?_,
      remembering.stored, remembering.unclaimed, ?_⟩
    · intro place follows
      obtain rfl := some.inj follows
      simp
    · intro _ place stage follows there
      obtain rfl := some.inj follows
      simp only [getElem?_concat_length, some.injEq] at there
      rw [← there]
      trivial
  have ended := (remembering_sound usable).run (always_runsGate inThird _) started
  obtain ⟨locals', obeys', remembering'⟩ := ended
  have length : locals.length = (gateRun kind clock (first ++ .step thread :: second)).threads.length := by
    simp only [obeys.length_eq, gateRun, Machine.run_append, Machine.run_cons]
  have same : gateRun kind clock (first ++ .step thread :: (second ++ .spawn (checkAndAcquire ttl tolerance) :: third)) =
      (gateMachine kind).run ((gateMachine kind).act ((gateMachine kind).run
        ((gateMachine kind).act (gateRun kind clock first) (.step thread)) second)
          (.spawn (checkAndAcquire ttl tolerance))) third := by
    simp only [gateRun, Machine.run_append, Machine.run_cons]
  intro fst snd final early
  simp only [final, same] at early ⊢
  refine ⟨remembering'.unclaimed early, fun answer finished => ?_⟩
  have found := Config.finished_eq_some.mp finished
  obtain ⟨stage, located, answers⟩ := forall₂_getElem? obeys' found
  have skips := remembering'.skips early _ stage (by rw [length]) located
  rcases answers with rfl | ⟨_, _, _, _, rfl, _⟩
  · exact skips
  · cases skips

end

def lateCheck (ttl : Int) (passed : Nat) : List GateAction :=
  [.spawn (checkAndAcquire ttl 0), .step 0, .step 0, .step 0, .disturb passed,
    .spawn (checkAndAcquire ttl 0), .step 1, .step 1]

attribute [local simp] Pool.Machine.act Pool.Machine.run Pool.start Prog.perform checkAndAcquire exec
  gateCommand gateMachine setnx startAt write CacheEntry.isExpired

def lateTakeover (ttl : Int) (passed : Nat) : List GateAction :=
  [.spawn (checkAndAcquire ttl 0), .step 0, .step 0, .step 0, .spawn (markFailed "" 0 0 (some 0)), .step 1, .step 1,
    .spawn (checkAndAcquire ttl 0), .step 2, .step 2, .step 2, .step 2, .step 2, .step 2, .disturb passed,
    .spawn (checkAndAcquire ttl 0), .step 3, .step 3]

theorem not_exclusive_of_expired {schedule : List GateAction} {passed retryCount claimId next thread : Nat} {value : Stored}
    (state : (gateRun kind 0 schedule).state = ⟨passed, some ⟨.executing 0 retryCount claimId, some lifetime⟩, next⟩)
    (isOpen : (claimId, 0) ∈ openClaims (gateRun kind 0 schedule).trace)
    (pending : (gateRun kind 0 schedule).pending thread = some (.setnx value ttl)) (usable : kind.setnxLifetime ttl ≠ none)
    (acquiring : ∃ startedAt retryCount claimId, value = .executing startedAt retryCount claimId)
    (expired : lifetime < passed) (early : passed ≤ ttl) :
    ¬(gateMachine kind).Always (Exclusive kind ttl) (startAt 0) (schedule ++ [.step thread]) := by
  intro always
  have exclusive := (Machine.always_iff_split _).mp always _ (.step thread) [] rfl
  change Exclusive kind ttl (gateRun kind 0 schedule) (.step thread) at exclusive
  have free : (gateRun kind 0 schedule).state.current = none := by
    simp [state, current, expired]
  obtain ⟨given, lives⟩ := ne_none_iff_exists'.mp usable
  obtain ⟨startedAt, retryCount, claimId, rfl⟩ := acquiring
  have acquires : (acquiresNext kind (gateRun kind 0 schedule) thread).isSome := by
    simp [acquiresNext, pending, gateEvent, acquiredBy, lives, free]
  have later := exclusive acquires _ isOpen
  rw [state] at later
  simp only at later
  omega

theorem setnx_pos (lives : redis.setnxLifetime ttl = some lifetime) : 0 < lifetime := by
  simp only [setnxLifetime] at lives
  split at lives
  · obtain rfl := some.inj lives
    omega
  · cases lives

theorem cas_pos (lives : redis.casLifetime memory = some lifetime) : 0 < lifetime := by
  simp only [casLifetime] at lives
  split at lives
  · obtain rfl := some.inj lives
    omega
  · cases lives

theorem lateCheck_run (lives : kind.setnxLifetime ttl = some lifetime) (passed : Nat) :
    (gateRun kind 0 (lateCheck ttl passed)).state = ⟨passed, some ⟨.executing 0 0 0, some lifetime⟩, 2⟩ ∧
      (0, 0) ∈ openClaims (gateRun kind 0 (lateCheck ttl passed)).trace ∧
      (gateRun kind 0 (lateCheck ttl passed)).pending 1 = some (.setnx (.executing passed 0 1) ttl) := by
  simp [gateRun, lateCheck, lives, current, Config.pending, openClaims, acquiredBy, markedBy]

theorem lateTakeover_run {kept : Int} (lives : redis.setnxLifetime ttl = some lifetime)
    (keeps : redis.casLifetime ttl = some kept) (passed : Nat) :
    (gateRun .redis 0 (lateTakeover ttl passed)).state = ⟨passed, some ⟨.executing 0 1 1, some kept⟩, 3⟩ ∧
      (1, 0) ∈ openClaims (gateRun .redis 0 (lateTakeover ttl passed)).trace ∧
      (gateRun .redis 0 (lateTakeover ttl passed)).pending 3 = some (.setnx (.executing passed 0 2) ttl) := by
  have fresh : ¬lifetime < 0 := by
    have positive := setnx_pos lives
    omega
  have forever : redis.casLifetime 0 = none := by decide +kernel
  simp [gateRun, lateTakeover, lives, keeps, forever, fresh, current, casDictField, casTakeover, markFailed, markGuard,
    MarkGuard.admits, takeOver, takeable, Config.pending, openClaims, acquiredBy, markedBy]

def markedCheck (ttl memory : Int) : List GateAction :=
  [.spawn (checkAndAcquire ttl 0), .step 0, .step 0, .step 0, .spawn (markCompleted "ok" 0 memory (some 0)), .step 1]

attribute [local simp] markCompleted markedCheck

theorem markedCheck_lands (lives : kind.setnxLifetime ttl = some lifetime) (positive : 0 ≤ lifetime) (memory : Int) :
    LandsCompletion kind (gateRun kind 0 (markedCheck ttl memory)) 1 "ok" 0 memory ∧
      (gateRun kind 0 (markedCheck ttl memory)).state.clock = 0 := by
  have fresh : ¬lifetime < 0 := by omega
  constructor
  · refine ⟨0, 0, ?_, ?_⟩ <;>
      simp [gateRun, markGuard, lives, current, casDictField, MarkGuard.admits, Config.pending, fresh]
  · simp [gateRun, lives, current]

theorem forgottenCheck_run {kept : Int} (lives : kind.setnxLifetime ttl = some lifetime) (positive : 0 ≤ lifetime)
    (rounded : kind.casLifetime memory = some kept) {passed : Nat} (later : kept < passed) :
    (gateRun kind 0 (markedCheck ttl memory ++ .step 1 :: ([.disturb passed] ++ .spawn (checkAndAcquire ttl 0) ::
        [.step 2, .step 2, .step 2]))).finished 2 = some (.continue 0 1) ∧
      (gateRun kind 0 (markedCheck ttl memory ++ .step 1 :: ([.disturb passed] ++ .spawn (checkAndAcquire ttl 0) ::
        [.step 2, .step 2, .step 2]))).state.clock = passed ∧
      (gateRun kind 0 (markedCheck ttl memory ++ .step 1 :: [.disturb passed])).threads.length = 2 := by
  have fresh : ¬lifetime < 0 := by omega
  simp [gateRun, markGuard, lives, current, casDictField, MarkGuard.admits, Config.finished, fresh, rounded, later]

theorem not_skips_of_cut {kept : Int} (lives : redis.setnxLifetime ttl = some lifetime)
    (keeps : redis.casLifetime memory = some kept) (cut : kept < memory) : ¬SkipsWhileRemembered .redis ttl memory := by
  intro skips
  have positive := setnx_pos lives
  have brief := cas_pos keeps
  obtain ⟨lands, clock⟩ := markedCheck_lands lives positive.le memory
  obtain ⟨continues, now, check⟩ := forgottenCheck_run lives positive.le keeps
    (show kept < ((kept + 1).toNat : Int) by omega)
  have programs : ∀ action ∈ markedCheck ttl memory ++ [.disturb (kept + 1).toNat] ++
      [.step 2, .step 2, .step 2], runsGate ttl action := by
    have marks : runsGate ttl (.spawn (markCompleted "ok" 0 memory (some 0))) := by
      intro program spawned
      obtain rfl := Action.spawn.inj spawned
      exact .completes "ok" 0 memory 0
    simp only [markedCheck, cons_append, nil_append, forall_mem_cons, runsGate_check, runsGate_step, runsGate_disturb,
      marks, not_mem_nil, false_implies, implies_true, and_true]
  have answer := (skips 0 0 _ _ _ 1 0 "ok" programs le_rfl lands (by rw [now, clock]; omega)).2 (.continue 0 1)
    (by rw [check]; exact continues)
  cases answer

theorem runsGate_lateCheck (passed : Nat) : ∀ action ∈ lateCheck ttl passed ++ [.step 1], runsGate ttl action := by
  simp only [lateCheck, cons_append, nil_append, forall_mem_cons, runsGate_check, runsGate_step, runsGate_disturb,
    not_mem_nil, false_implies, implies_true, and_true]

theorem runsGate_lateTakeover (passed : Nat) :
    ∀ action ∈ lateTakeover ttl passed ++ [.step 3], runsGate ttl action := by
  have marks : runsGate ttl (.spawn (markFailed "" 0 0 (some 0))) := by
    intro program spawned
    obtain rfl := Action.spawn.inj spawned
    exact .fails "" 0 0 0
  simp only [lateTakeover, cons_append, nil_append, forall_mem_cons, runsGate_check, runsGate_step, runsGate_disturb, marks,
    not_mem_nil, false_implies, implies_true, and_true]

/-- One holder at a time, no repeat while a completion is remembered, and marks that touch their
own claim's record only: the first two exactly when the cache does not cut the window short. -/
theorem idempotency_key_admits_one_holder (kind : CacheKind) (ttl memory : Int) :
    ((∀ clock schedule, (∀ action ∈ schedule, runsGate ttl action) →
        (gateMachine kind).Always (Exclusive kind ttl) (startAt clock) schedule) ↔ HoldsWindow kind ttl) ∧
      (SkipsWhileRemembered kind ttl memory ↔ HoldsMemory kind ttl memory) ∧
      ∀ clock schedule, (∀ action ∈ schedule, runsGate ttl action) →
        (gateMachine kind).Always (MarksOwn kind) (startAt clock) schedule := by
  refine ⟨⟨?_, ?_⟩, ⟨?_, skips_of_holdsMemory⟩, fun clock schedule programs => marksOwn_run programs⟩
  · intro exclusive
    cases kind with
    | memory => simp [HoldsWindow, HoldsMemory, setnxLifetime, casLifetime]
    | redis =>
      refine ⟨fun lifetime lives => ?_, fun usable kept keeps => ?_⟩
      · by_contra cut
        have positive := setnx_pos lives
        obtain ⟨state, isOpen, pending⟩ := lateCheck_run lives (lifetime + 1).toNat
        exact not_exclusive_of_expired state isOpen pending (by simp [lives]) ⟨_, _, _, rfl⟩ (by omega) (by omega)
          (exclusive 0 _ (runsGate_lateCheck _))
      · by_contra cut
        have positive := cas_pos keeps
        obtain ⟨lifetime, lives⟩ := ne_none_iff_exists'.mp usable
        obtain ⟨state, isOpen, pending⟩ := lateTakeover_run lives keeps (kept + 1).toNat
        exact not_exclusive_of_expired state isOpen pending usable ⟨_, _, _, rfl⟩ (by omega) (by omega)
          (exclusive 0 _ (runsGate_lateTakeover _))
  · intro holds clock schedule programs
    exact exclusive_of_holdsWindow programs holds
  · intro skips
    cases kind with
    | memory => simp [HoldsMemory, casLifetime]
    | redis =>
      intro usable kept keeps
      by_contra cut
      obtain ⟨lifetime, lives⟩ := ne_none_iff_exists'.mp usable
      exact not_skips_of_cut lives keeps (by omega) skips

theorem fractional_window_admits_two_holders :
    (∀ action ∈ lateCheck 1500000 1100000 ++ [.step 1], runsGate 1500000 action) ∧
      openClaims (gateRun .redis 0 (lateCheck 1500000 1100000)).trace = [(0, 0)] ∧
      acquiresNext .redis (gateRun .redis 0 (lateCheck 1500000 1100000)) 1 = some (1, 1100000) ∧
      (gateRun .redis 0 (lateCheck 1500000 1100000)).state.clock < 0 + 1500000 := by
  refine ⟨runsGate_lateCheck 1100000, ?_, ?_, ?_⟩
  · decide +kernel
  · decide +kernel
  · decide +kernel

end Baldur.Idempotency
