import Baldur.Idempotency.GateCore

/-!
Runs of the gate: claim ids are drawn once, the executing record is the one its claim acquired, and it keeps
others out for its window.
-/

namespace Baldur.Idempotency

open Prog List CacheEntry

variable {ttl tolerance : Int} {claimId : Nat}

inductive GateStage
  | begun
  | drew (claimId : Nat)
  | ready (claimId : Nat) (startedAt : Int)
  | refused (claimId : Nat) (startedAt : Int)
  | expired (claimId : Nat) (startedAt : Int)
  | reads (claimId : Nat) (startedAt : Int) (retryCount : Nat)
  | armed (claimId : Nat) (startedAt : Int) (retryCount : Nat) (now : Int)
  | marks (claimId : Nat)
  | done (answer : GateAnswer)

namespace GateStage

def claim : GateStage → Option Nat
  | drew claimId => some claimId
  | ready claimId _ => some claimId
  | refused claimId _ => some claimId
  | expired claimId _ => some claimId
  | reads claimId _ _ => some claimId
  | armed claimId _ _ _ => some claimId
  | _ => none

def startedAt : GateStage → Option Int
  | ready _ startedAt => some startedAt
  | refused _ startedAt => some startedAt
  | expired _ startedAt => some startedAt
  | reads _ startedAt _ => some startedAt
  | armed _ startedAt _ _ => some startedAt
  | _ => none

def now : GateStage → Option Int
  | armed _ _ _ now => some now
  | _ => none

def afterSetnx : GateStage → Option Bool → GateStage
  | _, none => done .raised
  | ready claimId _, some true => done (.continue 0 claimId)
  | expired claimId _, some true => done (.continue 0 claimId)
  | ready claimId startedAt, some false => refused claimId startedAt
  | expired _ _, some false => done .abort
  | other, _ => other

def afterGet : GateStage → Option Stored → GateStage
  | refused claimId startedAt, none => expired claimId startedAt
  | refused _ _, some .foreign => done .abort
  | refused _ _, some (.completed _ result retryCount) => done (.skip result retryCount)
  | refused claimId startedAt, some (.failed _ _ retryCount) => reads claimId startedAt (retryCount + 1)
  | refused claimId startedAt, some (.executing _ retryCount _) => reads claimId startedAt (retryCount + 1)
  | other, _ => other

def afterTime : GateStage → Int → GateStage
  | drew claimId, now => ready claimId now
  | reads claimId startedAt retryCount, now => armed claimId startedAt retryCount now
  | other, _ => other

def afterTakeover : GateStage → Bool → GateStage
  | armed claimId _ retryCount _, true => done (.continue retryCount claimId)
  | armed _ _ _ _, false => done .abort
  | other, _ => other

end GateStage

open GateStage

def Stored.isMark : Stored → Prop
  | .completed _ _ _ => True
  | .failed _ _ _ => True
  | _ => False

def gateDiscipline (ttl : Int) : Discipline GateCall GateCall.Answer GateStage where
  may stage
    | .newClaimId => stage = begun
    | .time => (∃ claimId, stage = drew claimId) ∨
        (∃ claimId startedAt retryCount, stage = reads claimId startedAt retryCount) ∨
        ∃ claimId, stage = marks claimId
    | .setnx value window => window = ttl ∧ ∃ claimId startedAt,
        (stage = ready claimId startedAt ∨ stage = expired claimId startedAt) ∧ value = .executing startedAt 0 claimId
    | .get => ∃ claimId startedAt, stage = refused claimId startedAt
    | .casTakeover value stale window => window = ttl ∧ ∃ claimId startedAt retryCount now,
        stage = armed claimId startedAt retryCount now ∧ value = .executing startedAt retryCount claimId ∧
          stale ≤ now - ttl
    | .casDictField guard value _ => ∃ claimId, stage = marks claimId ∧ guard = .claimId claimId ∧ value.isMark
  valid _ _ _ := True
  after stage
    | .newClaimId, claimId => drew claimId
    | .time, now => stage.afterTime now
    | .setnx _ _, acquired => stage.afterSetnx acquired
    | .get, existing => stage.afterGet existing
    | .casTakeover _ _ _, taken => stage.afterTakeover taken
    | .casDictField _ _ _, _ => done .marked

def Answers (stage : GateStage) (answer : GateAnswer) : Prop :=
  stage = done answer ∨ ∃ claimId startedAt retryCount now,
    stage = armed claimId startedAt retryCount now ∧ answer = .abort

theorem takeOver_obeys {startedAt now : Int} {retryCount : Nat} (allowed : 0 ≤ tolerance) :
    Obeys (gateDiscipline ttl) Answers (armed claimId startedAt retryCount now)
      (takeOver ttl (staleBefore ttl tolerance now) startedAt retryCount claimId) := by
  refine ⟨⟨rfl, claimId, startedAt, retryCount, now, rfl, rfl, ?_⟩, fun taken _ => .inl ?_⟩
  · unfold staleBefore
    omega
  · cases taken <;> rfl

theorem checkAndAcquire_obeys (allowed : 0 ≤ tolerance) :
    Obeys (gateDiscipline ttl) Answers begun (checkAndAcquire ttl tolerance) := by
  simp only [checkAndAcquire, gateCommand, Prog.perform_bind, Prog.obeys_call]
  refine ⟨rfl, fun claimId _ => ⟨Or.inl ⟨claimId, rfl⟩, fun startedAt _ => ?_⟩⟩
  refine ⟨⟨rfl, claimId, startedAt, Or.inl rfl, rfl⟩, fun acquired _ => ?_⟩
  rcases acquired with _ | _ | _
  · exact .inl rfl
  · refine ⟨⟨claimId, startedAt, rfl⟩, fun existing _ => ?_⟩
    cases existing with
    | none =>
      refine ⟨⟨rfl, claimId, startedAt, Or.inr rfl, rfl⟩, fun again _ => ?_⟩
      rcases again with _ | _ | _ <;> exact .inl rfl
    | some stored =>
      cases stored with
      | foreign | completed => exact .inl rfl
      | failed =>
        refine ⟨Or.inr (Or.inl ⟨_, _, _, rfl⟩), fun now _ => ?_⟩
        exact takeOver_obeys allowed
      | executing =>
        refine ⟨Or.inr (Or.inl ⟨_, _, _, rfl⟩), fun now _ => ?_⟩
        refine (Prog.obeys_ite _ _ _ _ _ _).mpr ⟨fun _ => takeOver_obeys allowed, fun _ => ?_⟩
        exact .inr ⟨_, _, _, _, rfl, rfl⟩
  · exact .inl rfl

def GateStage.Begins : GateStage → Prop
  | begun => True
  | marks _ => True
  | _ => False

theorem gateProgram_obeys {program : GateProg GateAnswer} (starts : GateProgram ttl program) :
    ∃ stage, stage.Begins ∧ Obeys (gateDiscipline ttl) Answers stage program := by
  cases starts with
  | checks tolerance allowed => exact ⟨begun, trivial, checkAndAcquire_obeys allowed⟩
  | completes result retryCount memory claimId | fails error retryCount memory claimId =>
    refine ⟨marks claimId, trivial, Or.inr (Or.inr ⟨claimId, rfl⟩), fun now _ => ?_⟩
    exact ⟨⟨claimId, rfl, rfl, trivial⟩, fun _ _ => .inl rfl⟩

section

variable {existing : Stored}
  {kind : CacheKind} {world : GateWorld} {value : Stored} {stale ttl : Int} {guard : MarkGuard}

theorem setnx_cases (kind : CacheKind) (world : GateWorld) (value : Stored) (ttl : Int) :
    (kind.setnxLifetime ttl = none ∧ world.setnx kind value ttl = (world, none)) ∨
    (∃ existing, kind.setnxLifetime ttl ≠ none ∧ world.current = some existing ∧
      world.setnx kind value ttl = (world, some false)) ∨
    ∃ lifetime, kind.setnxLifetime ttl = some lifetime ∧ world.current = none ∧
      world.setnx kind value ttl = (world.write value (some lifetime), some true) := by
  unfold GateWorld.setnx
  cases lives : kind.setnxLifetime ttl with
  | none => exact .inl ⟨rfl, rfl⟩
  | some lifetime =>
    cases found : world.current with
    | some existing => exact .inr (Or.inl ⟨existing, by simp, rfl, rfl⟩)
    | none => exact .inr (Or.inr ⟨lifetime, rfl, rfl, rfl⟩)

theorem cas_cases (world next : GateWorld) (test : Stored → Bool) :
    let did := match world.current with
      | none => (world, false)
      | some existing => if test existing then (next, true) else (world, false)
    did = (world, false) ∨ ∃ existing, world.current = some existing ∧ test existing = true ∧ did = (next, true) := by
  cases world.current with
  | none => exact .inl rfl
  | some existing =>
    cases fits : test existing with
    | false => exact .inl (by simp [fits])
    | true => exact .inr ⟨existing, rfl, fits, by simp [fits]⟩

theorem casTakeover_cases (kind : CacheKind) (world : GateWorld) (value : Stored) (stale ttl : Int) :
    world.casTakeover kind value stale ttl = (world, false) ∨
    ∃ existing, world.current = some existing ∧ GateWorld.takeable stale existing = true ∧
      world.casTakeover kind value stale ttl = (world.write value (kind.casLifetime ttl), true) :=
  cas_cases world _ _

theorem casDictField_cases (kind : CacheKind) (world : GateWorld) (guard : MarkGuard) (value : Stored) (ttl : Int) :
    world.casDictField kind guard value ttl = (world, false) ∨
    ∃ existing, world.current = some existing ∧ guard.admits existing = true ∧
      world.casDictField kind guard value ttl = (world.write value (kind.casLifetime ttl), true) :=
  cas_cases world _ _

theorem current_eq_some (found : world.current = some existing) :
    ∃ expiresAt, world.entry = some ⟨existing, expiresAt⟩ ∧ ∀ limit ∈ expiresAt, world.clock ≤ limit := by
  unfold GateWorld.current at found
  split at found
  · cases found
  · rename_i entry there
    split at found
    · cases found
    · rename_i live
      obtain rfl := Option.some.inj found
      refine ⟨entry.expiresAt, there, fun limit kept => ?_⟩
      obtain kept : entry.expiresAt = some limit := kept
      simpa [isExpired, kept] using live

theorem current_of_entry {entry : CacheEntry} (there : world.entry = some entry)
    (live : ∀ limit ∈ entry.expiresAt, world.clock ≤ limit) : world.current = some entry.value := by
  unfold GateWorld.current
  rw [there]
  have fresh : entry.isExpired world.clock = false := by
    cases kept : entry.expiresAt with
    | none => simp [isExpired, kept]
    | some limit =>
      have bound := live limit kept
      simpa [isExpired, kept] using bound
  simp [fresh]

theorem admits_claimId (admits : (MarkGuard.claimId claimId).admits existing = true) :
    ∃ startedAt retryCount, existing = .executing startedAt retryCount claimId := by
  cases existing with
  | executing startedAt retryCount owner =>
    have same : owner = claimId := by simpa [MarkGuard.admits] using admits
    exact ⟨startedAt, retryCount, by rw [same]⟩
  | _ => cases admits

end

def acquiredBy : GateEvent → Option (Nat × Int)
  | ⟨_, .setnx (.executing startedAt _ claimId) _, answer⟩ =>
      if answer = some true then some (claimId, startedAt) else none
  | ⟨_, .casTakeover (.executing startedAt _ claimId) _ _, taken⟩ =>
      if taken = true then some (claimId, startedAt) else none
  | _ => none

def markedBy : GateEvent → Option Nat
  | ⟨_, .casDictField (.claimId claimId) _ _, _⟩ => some claimId
  | _ => none

def acquisitions (trace : List GateEvent) : List (Nat × Int) :=
  trace.filterMap acquiredBy

def openClaims : List GateEvent → List (Nat × Int)
  | [] => []
  | event :: earlier =>
      match acquiredBy event with
      | some claim => claim :: openClaims earlier
      | none =>
          match markedBy event with
          | some claimId => (openClaims earlier).filter fun claim => claim.1 ≠ claimId
          | none => openClaims earlier

inductive Effect (kind : CacheKind) (ttl : Int) (stage : GateStage) (world after : GateWorld) (event : GateEvent) : Prop
  | nothing (same : after.entry = world.entry) (unclaimed : acquiredBy event = none) (unmarked : markedBy event = none)
  | missed (claimId : Nat) (same : after.entry = world.entry) (unclaimed : acquiredBy event = none)
      (marked : markedBy event = some claimId)
  | acquires (claimId : Nat) (startedAt lifetime : Int) (owns : stage.claim = some claimId)
      (started : stage.startedAt = some startedAt) (lives : kind.setnxLifetime ttl = some lifetime)
      (free : world.current = none)
      (written : after.entry = some ⟨.executing startedAt 0 claimId, some (world.clock + lifetime)⟩)
      (acquired : acquiredBy event = some (claimId, startedAt))
  | takes (claimId : Nat) (startedAt : Int) (retryCount : Nat) (now stale : Int) (existing : Stored)
      (owns : stage.claim = some claimId)
      (started : stage.startedAt = some startedAt) (read : stage.now = some now) (early : stale ≤ now - ttl)
      (found : world.current = some existing) (takes : GateWorld.takeable stale existing = true)
      (written : after.entry = some ⟨.executing startedAt retryCount claimId,
        (kind.casLifetime ttl).map fun lifetime => world.clock + lifetime⟩)
      (acquired : acquiredBy event = some (claimId, startedAt))
  | marks (claimId : Nat) (startedAt : Int) (retryCount : Nat) (value : Stored) (lifetime : Option Int)
      (found : world.current = some (.executing startedAt retryCount claimId)) (mark : value.isMark)
      (written : after.entry = some ⟨value, lifetime⟩)
      (unclaimed : acquiredBy event = none) (marked : markedBy event = some claimId)

def gateEvent (kind : CacheKind) (thread : Nat) (call : GateCall) (world : GateWorld) : GateEvent :=
  ⟨thread, call, (GateWorld.exec kind call world).2⟩

open GateWorld

attribute [local simp] exec write

theorem effect_of_step {kind : CacheKind} {stage : GateStage} {world : GateWorld} {thread : Nat}
    {call : GateCall} (may : (gateDiscipline ttl).may stage call) :
    Effect kind ttl stage world (exec kind call world).1 (gateEvent kind thread call world) := by
  cases call with
  | setnx value window =>
    obtain ⟨rfl, claimId, startedAt, at', rfl⟩ := may
    have owns : stage.claim = some claimId ∧ stage.startedAt = some startedAt := by
      rcases at' with rfl | rfl <;> exact ⟨rfl, rfl⟩
    rcases setnx_cases kind world (.executing startedAt 0 claimId) window with
      ⟨_, did⟩ | ⟨existing, _, _, did⟩ | ⟨lifetime, lives, free, did⟩
    · exact .nothing (by simp [did]) (by simp [gateEvent, acquiredBy, did]) rfl
    · exact .nothing (by simp [did]) (by simp [gateEvent, acquiredBy, did]) rfl
    · refine .acquires claimId startedAt lifetime owns.1 owns.2 lives free ?_ ?_
      · simp [did]
      · simp [gateEvent, acquiredBy, did]
  | casTakeover value stale window =>
    obtain ⟨rfl, claimId, startedAt, retryCount, now, rfl, rfl, early⟩ := may
    rcases casTakeover_cases kind world (.executing startedAt retryCount claimId) stale window with
      did | ⟨existing, found, takes, did⟩
    · exact .nothing (by simp [did]) (by simp [gateEvent, acquiredBy, did]) rfl
    · refine .takes claimId startedAt retryCount now stale existing rfl rfl rfl early found takes ?_ ?_
      · simp [did]
      · simp [gateEvent, acquiredBy, did]
  | casDictField guard value memory =>
    obtain ⟨claimId, rfl, rfl, mark⟩ := may
    rcases casDictField_cases kind world (.claimId claimId) value memory with did | ⟨existing, found, fits, did⟩
    · exact .missed claimId (by simp [did]) rfl rfl
    · obtain ⟨startedAt, retryCount, rfl⟩ := admits_claimId fits
      refine .marks claimId startedAt retryCount value
        ((kind.casLifetime memory).map fun lifetime => world.clock + lifetime) found mark ?_ rfl rfl
      simp only [exec, did, write]
  | _ => exact .nothing rfl rfl rfl

structure Guarded (world : GateWorld) (trace : List GateEvent) (locals : List GateStage) : Prop where
  claims : ∀ stage ∈ locals, ∀ claimId, stage.claim = some claimId →
    claimId < world.nextClaim ∧ claimId ∉ (acquisitions trace).map Prod.fst
  apart : Pool.Keyed GateStage.claim locals
  acquired : ∀ claim ∈ acquisitions trace, claim.1 < world.nextClaim
  once : ((acquisitions trace).map Prod.fst).Nodup
  started : ∀ stage ∈ locals, ∀ startedAt, stage.startedAt = some startedAt → startedAt ≤ world.clock
  read : ∀ stage ∈ locals, ∀ now, stage.now = some now → now ≤ world.clock
  entryFrom : ∀ startedAt retryCount claimId expiresAt,
    world.entry = some ⟨.executing startedAt retryCount claimId, expiresAt⟩ → (claimId, startedAt) ∈ acquisitions trace

section

variable {kind : CacheKind} {ttl : Int} {stage : GateStage} {world : GateWorld} {trace : List GateEvent}
  {locals : List GateStage} {thread : Nat} {call : GateCall}

def stageAfter (kind : CacheKind) (ttl : Int) (world : GateWorld) (stage : GateStage) (call : GateCall) : GateStage :=
  (gateDiscipline ttl).after stage call (GateWorld.exec kind call world).2

theorem exec_counters : (exec kind call world).1.clock = world.clock ∧ (exec kind call world).1.nextClaim =
    if call = .newClaimId then world.nextClaim + 1 else world.nextClaim := by
  cases call with
  | setnx value window =>
    rcases setnx_cases kind world value window with ⟨_, did⟩ | ⟨_, _, _, did⟩ | ⟨_, _, _, did⟩ <;> simp [did]
  | casTakeover value stale window =>
    rcases casTakeover_cases kind world value stale window with did | ⟨_, _, _, did⟩ <;> simp [did]
  | casDictField guard value memory =>
    rcases casDictField_cases kind world guard value memory with did | ⟨_, _, _, did⟩ <;> simp [did]
  | _ => exact ⟨rfl, rfl⟩

theorem clock_exec : (exec kind call world).1.clock = world.clock := by
  exact exec_counters.1

section

variable (may : (gateDiscipline ttl).may stage call)

include may

theorem stageAfter_cases (thread : Nat) :
    (∃ answer, stageAfter kind ttl world stage call = done answer) ∨
    (call = .newClaimId ∧ stageAfter kind ttl world stage call = drew world.nextClaim) ∨
    acquiredBy (gateEvent kind thread call world) = none ∧
      (stageAfter kind ttl world stage call).claim = stage.claim ∧
      ((stageAfter kind ttl world stage call).startedAt = stage.startedAt ∨
        (stageAfter kind ttl world stage call).startedAt = some world.clock) ∧
      ((stageAfter kind ttl world stage call).now = none ∨
        (stageAfter kind ttl world stage call).now = some world.clock) := by
  cases call with
  | newClaimId => exact .inr (.inl ⟨rfl, rfl⟩)
  | time =>
    rcases may with ⟨_, rfl⟩ | ⟨_, _, _, rfl⟩ | ⟨_, rfl⟩
    · exact .inr (.inr ⟨rfl, rfl, .inr rfl, .inl rfl⟩)
    · exact .inr (.inr ⟨rfl, rfl, .inl rfl, .inr rfl⟩)
    · exact .inr (.inr ⟨rfl, rfl, .inl rfl, .inl rfl⟩)
  | get =>
    obtain ⟨own, startedAt, rfl⟩ := may
    simp only [stageAfter, gateDiscipline, exec]
    match world.current with
    | none | some (.executing _ _ _) | some (.failed _ _ _) => exact .inr (.inr ⟨rfl, rfl, .inl rfl, .inl rfl⟩)
    | some (.completed _ _ _) | some .foreign => exact .inl ⟨_, rfl⟩
  | setnx value window =>
    obtain ⟨rfl, own, startedAt, at', rfl⟩ := may
    rcases setnx_cases kind world (.executing startedAt 0 own) window with
      ⟨_, did⟩ | ⟨_, _, _, did⟩ | ⟨_, _, _, did⟩ <;>
      rcases at' with rfl | rfl <;> simp only [stageAfter, gateDiscipline, exec, did]
    · exact .inl ⟨_, rfl⟩
    · exact .inl ⟨_, rfl⟩
    · exact .inr (.inr ⟨by simp [gateEvent, acquiredBy, did], rfl, .inl rfl, .inl rfl⟩)
    · exact .inl ⟨_, rfl⟩
    · exact .inl ⟨_, rfl⟩
    · exact .inl ⟨_, rfl⟩
  | casTakeover value stale window =>
    obtain ⟨_, own, startedAt, retryCount, now, rfl, _⟩ := may
    refine .inl ?_
    simp only [stageAfter, gateDiscipline]
    cases (exec kind (.casTakeover value stale window) world).2 <;> exact ⟨_, rfl⟩
  | casDictField => exact .inl ⟨_, rfl⟩

theorem claim_stageAfter (thread : Nat)
    (holds : (stageAfter kind ttl world stage call).claim = some claimId) :
    (call = .newClaimId ∧ claimId = world.nextClaim) ∨
      (stage.claim = some claimId ∧ acquiredBy (gateEvent kind thread call world) = none) := by
  rcases stageAfter_cases may thread with ⟨_, ended⟩ | ⟨drawn, drew⟩ | ⟨unclaimed, same, _⟩
  · rw [ended] at holds
    cases holds
  · rw [drew] at holds
    exact .inl ⟨drawn, (Option.some.inj holds).symm⟩
  · exact .inr ⟨same ▸ holds, unclaimed⟩

theorem startedAt_stageAfter {startedAt : Int}
    (starts : (stageAfter kind ttl world stage call).startedAt = some startedAt) :
    stage.startedAt = some startedAt ∨ startedAt = world.clock := by
  rcases stageAfter_cases may 0 with ⟨_, ended⟩ | ⟨_, drew⟩ | ⟨_, _, same | now, _⟩
  · rw [ended] at starts
    cases starts
  · rw [drew] at starts
    cases starts
  · exact .inl (same ▸ starts)
  · exact .inr (Option.mem_unique starts now)

theorem now_stageAfter {now : Int}
    (reads : (stageAfter kind ttl world stage call).now = some now) : now = world.clock := by
  rcases stageAfter_cases may 0 with ⟨_, ended⟩ | ⟨_, drew⟩ | ⟨_, _, _, blank | here⟩
  · rw [ended] at reads
    cases reads
  · rw [drew] at reads
    cases reads
  · exact absurd (blank.symm.trans reads) nofun
  · exact Option.mem_unique reads here

end

theorem acquisitions_cons (event : GateEvent) (trace : List GateEvent) :
    acquisitions (event :: trace) = (acquiredBy event).toList ++ acquisitions trace := by
  cases found : acquiredBy event <;> simp [acquisitions, found]

theorem claim_of_acquired {after : GateWorld} {event : GateEvent} (effect : Effect kind ttl stage world after event)
    {claim : Nat × Int} (acquired : acquiredBy event = some claim) : stage.claim = some claim.1 := by
  cases effect with
  | acquires claimId startedAt lifetime owns _ _ _ _ own
  | takes claimId startedAt retryCount now stale existing owns _ _ _ _ _ _ own =>
    rw [own, Option.some.injEq] at acquired
    rw [owns, ← acquired]
  | nothing _ unclaimed _ | missed _ _ unclaimed _
  | marks _ _ _ _ _ _ _ _ unclaimed => simp [unclaimed] at acquired

theorem guarded_step (guarded : Guarded world trace locals) (located : locals[thread]? = some stage)
    (may : (gateDiscipline ttl).may stage call) :
    Guarded (exec kind call world).1 (gateEvent kind thread call world :: trace)
      (locals.set thread (stageAfter kind ttl world stage call) ++ []) := by
  have member : stage ∈ locals := mem_of_getElem? located
  have effect : Effect kind ttl stage world (exec kind call world).1 (gateEvent kind thread call world) :=
    effect_of_step may
  have grows : world.nextClaim ≤ (exec kind call world).1.nextClaim := by
    rw [exec_counters.2]
    split <;> omega
  -- A claim of this step is the one its thread held.
  have own (claim : Nat × Int) (acquired : acquiredBy (gateEvent kind thread call world) = some claim) :=
    claim_of_acquired effect acquired
  refine ⟨?_, ?_, ?_, ?_, ?_, ?_, ?_⟩
  · intro other there claimId holds
    obtain ⟨place, found⟩ := mem_iff_getElem?.mp there
    rw [acquisitions_cons, map_append, mem_append]
    rcases Pool.located_after located found with ⟨_, rfl⟩ | ⟨elsewhere, before⟩ | ⟨_, absent⟩
    · rcases claim_stageAfter may thread holds with ⟨rfl, rfl⟩ | ⟨held, unclaimed⟩
      · refine ⟨by rw [exec_counters.2]; simp, ?_⟩
        rintro (now | before)
        · cases now
        · obtain ⟨claim, listed, same⟩ := mem_map.mp before
          have below := guarded.acquired claim listed
          omega
      · obtain ⟨below, fresh⟩ := guarded.claims stage member claimId held
        refine ⟨by omega, ?_⟩
        rw [unclaimed]
        simpa using fresh
    · obtain ⟨below, fresh⟩ := guarded.claims other (mem_of_getElem? before) claimId holds
      refine ⟨by omega, ?_⟩
      rintro (now | earlier)
      · obtain ⟨claim, listed, rfl⟩ := mem_map.mp now
        have held := own claim (Option.mem_toList.mp listed)
        exact elsewhere (guarded.apart place thread other stage claim.1 before located holds held)
      · exact fresh earlier
    · cases absent
  · refine Pool.keyed_after guarded.apart located ?_
    intro claimId holds place other elsewhere before same
    rcases claim_stageAfter may thread holds with ⟨_, rfl⟩ | ⟨held, _⟩
    · have below := (guarded.claims other (mem_of_getElem? before) _ same).1
      omega
    · exact elsewhere (guarded.apart place thread other stage claimId before located same held)
  · intro claim listed
    rw [acquisitions_cons, mem_append] at listed
    rcases listed with now | before
    · have held := own claim (Option.mem_toList.mp now)
      have below := (guarded.claims stage member claim.1 held).1
      omega
    · have below := guarded.acquired claim before
      omega
  · rw [acquisitions_cons]
    cases acquired : acquiredBy (gateEvent kind thread call world) with
    | none => exact guarded.once
    | some claim =>
      have fresh := (guarded.claims stage member claim.1 (own claim acquired)).2
      exact nodup_cons.mpr ⟨fresh, guarded.once⟩
  · rw [clock_exec]
    refine Pool.forall_after guarded.started ?_
    intro startedAt starts
    rcases startedAt_stageAfter may starts with before | rfl
    · exact guarded.started stage member startedAt before
    · exact Int.le_refl _
  · rw [clock_exec]
    refine Pool.forall_after guarded.read ?_
    intro now reads
    exact Int.le_of_eq (now_stageAfter may reads)
  · intro startedAt retryCount claimId expiresAt entry
    rw [acquisitions_cons]
    cases effect with
    | nothing same _ _ | missed _ same _ _ =>
      exact mem_append_right _ (guarded.entryFrom _ _ _ _ (same ▸ entry))
    | acquires claimId' startedAt' lifetime _ _ _ _ written acquired
    | takes claimId' startedAt' retryCount' now stale existing _ _ _ _ _ _ written acquired =>
      rw [written, Option.some.injEq, CacheEntry.mk.injEq, Stored.executing.injEq] at entry
      obtain ⟨⟨rfl, _, rfl⟩, _⟩ := entry
      exact mem_append_left _ (by simp [acquired])
    | marks claimId' startedAt' retryCount' value lifetime _ mark written =>
      rw [written, Option.some.injEq, CacheEntry.mk.injEq] at entry
      rw [entry.1] at mark
      cases mark

end

end Baldur.Idempotency
