import Baldur.Work.Duties
import Mathlib.Algebra.Order.BigOperators.Group.List

/-!
Abandoned work settles exactly once, unless a close takes the callback away.
-/

namespace Baldur.Work

open Prog Hold Hold.Move List Option Pool

/-- Every call of the callback comes after the own close and after the end of every piece. -/
def Late (scope : Nat) (trace : List WorkEvent) : Prop :=
  ∀ later event earlier, trace = later ++ event :: earlier → (settledBy scope event).isSome →
    earlier.filterMap (returnedBy scope) = [none] ∧
      ∀ piece ∈ trace.filterMap (addedBy scope), ∃ ending ∈ earlier, finishedBy ending = some piece.1

def owing (duty : Duty) : Nat :=
  duty.owes.toList.length

open WorkWorld

structure Settles (scope : Nat) (world : WorkWorld) (trace : List WorkEvent) (locals : List Duty) : Prop where
  books : (holdOf scope world trace).Books
  pieces : (holdOf scope world trace).Pieces
  absent : world.scopes.length ≤ scope → trace.filterMap (addedBy scope) = []
  known : ∀ duty ∈ locals, ∀ future, duty.handles = some future → (world.ended future).isSome
  covered : ∀ future, ((world.scopeAt scope).running.find future).isSome → Covers scope world locals future
  owed : (locals.map owing).sum + (trace.filterMap (settledBy scope)).length = (trace.filterMap (handedBy scope)).length
  owedFrom : ∀ duty ∈ locals, ∀ summary, duty.owes = some summary → summary ∈ trace.filterMap (handedBy scope)
  settledFrom : ∀ summary ∈ trace.filterMap (settledBy scope), summary ∈ trace.filterMap (handedBy scope)
  finished : ∀ future, (world.ended future).isSome → ∃ event ∈ trace, finishedBy event = some future
  late : Late scope trace

section

variable {scope : Nat} {world : WorkWorld} {trace : List WorkEvent} {locals : List Duty} {thread : Nat}
  {duty : Duty} {call : WorkCall} {future : Nat}

theorem ended_exec {outcome : Bool} (known : world.ended future = some outcome) :
    (exec call world).1.ended future = some outcome := by
  cases call with
  | add
  | fold
  | close => rw [exec, ended_onScope, known]
  | addDoneCallback =>
    simp only [exec]
    split <;> exact known
  | finish other =>
    simp only [exec]
    split
    · exact known
    · rename_i runs
      have apart : future ≠ other := by
        rintro rfl
        simp [known] at runs
      simp only [Function.update_of_ne apart, known]
  | _ => exact known

theorem isSome_ended_exec (known : (world.ended future).isSome) : ((exec call world).1.ended future).isSome := by
  obtain ⟨outcome, known⟩ := isSome_iff_exists.mp known
  exact isSome_iff_exists.mpr ⟨outcome, ended_exec known⟩

theorem length_exec : world.scopes.length ≤ (exec call world).1.scopes.length := by
  cases call with
  | newScope => simp [exec]
  | add owner other origin | fold owner other | close owner callback => rw [exec, length_onScope]
  | addDoneCallback other holders | finish other failed =>
    simp only [exec]
    split <;> exact le_rfl
  | _ => exact le_rfl

theorem moveOf_adds {origin : Origin} (moved : moveOf scope world call = adds future origin) :
    call = .add scope future origin ∧ scope < world.scopes.length ∧ (world.scopeAt scope).isSealed = false := by
  cases call with
  | add =>
    simp only [moveOf] at moved
    split at moved
    · rename_i here
      simp only [adds.injEq] at moved
      exact ⟨by rw [here.1, moved.1, moved.2], here.2⟩
    · cases moved
  | newScope origin' parent | finish other failed | fold owner other =>
    simp only [moveOf] at moved
    split at moved <;> cases moved
  | close owner callback =>
    simp only [moveOf] at moved
    split at moved
    · cases callback <;> cases moved
    · cases moved
  | _ => cases moved

theorem added_after (hold : Hold) (move : Move) :
    (hold.after move).added = hold.added ∨ ∃ future origin, move = adds future origin := by
  cases move with
  | adds future origin => exact .inr ⟨future, origin, rfl⟩
  | _ => exact .inl rfl

theorem handles_dutyAfter (handles : (dutyAfter scope world duty call).handles = some future) :
    duty.handles = some future ∨ ((exec call world).1.ended future).isSome := by
  cases call with
  | add owner other origin | fold owner other | settle owner summary =>
    simp only [dutyAfter, dutyDiscipline] at handles
    split at handles <;> exact .inl handles
  | addDoneCallback other =>
    by_cases known : (world.ended other).isSome = true
    · simp only [dutyAfter, dutyDiscipline, exec, known, if_true, some.injEq] at handles
      subst handles
      exact .inr (isSome_ended_exec known)
    · simp only [dutyAfter, dutyDiscipline, exec, known, Bool.false_eq_true, if_false] at handles
      exact .inl handles
  | finish other =>
    simp only [dutyAfter, dutyDiscipline, some.injEq] at handles
    subst handles
    refine .inr ?_
    by_cases known : (world.ended other).isSome = true
    · exact isSome_ended_exec known
    · simp [exec, known]
  | _ => exact .inl handles

theorem length_filterMap_cons {τ υ : Type} (reads : τ → Option υ) (item : τ) (rest : List τ) :
    ((item :: rest).filterMap reads).length = (reads item).toList.length + (rest.filterMap reads).length := by
  cases found : reads item <;> simp [found, Nat.add_comm]

theorem mem_filterMap_cons {τ υ : Type} {reads : τ → Option υ} {item : τ} {rest : List τ} {value : υ} :
    value ∈ (item :: rest).filterMap reads ↔ reads item = some value ∨ value ∈ rest.filterMap reads := by
  cases found : reads item <;> simp [found, eq_comm]

attribute [local simp] dutyAfter dutyDiscipline eventOf handedBy owing settledBy

theorem owing_dutyAfter (world : WorkWorld) (thread : Nat) (may : (dutyDiscipline scope).may duty call) :
    owing (dutyAfter scope world duty call) + (settledBy scope (eventOf thread call world)).toList.length =
      owing duty + (handedBy scope (eventOf thread call world)).toList.length := by
  cases call with
  | add owner other origin | addDoneCallback other holders =>
    simp only [dutyAfter, dutyDiscipline, owing]
    split <;> rfl
  | fold owner =>
    by_cases same : owner = scope
    · have clear := (may same).2
      simp [same, clear]
    · simp [same]
  | settle owner =>
    by_cases same : owner = scope
    · have due := may same
      simp [same, due]
    · simp [same]
  | _ => rfl

variable {summary : WorkSummary}

theorem owes_dutyAfter (thread : Nat) (owes : (dutyAfter scope world duty call).owes = some summary) :
    duty.owes = some summary ∨ handedBy scope (eventOf thread call world) = some summary := by
  cases call with
  | add owner other origin | addDoneCallback other holders =>
    simp only [dutyAfter, dutyDiscipline] at owes
    split at owes <;> exact .inl owes
  | fold owner =>
    by_cases same : owner = scope
    · simp only [dutyAfter, dutyDiscipline, same, if_true] at owes
      refine .inr ?_
      simpa [same] using owes
    · simp only [dutyAfter, dutyDiscipline, same, if_false] at owes
      exact .inl owes
  | settle owner =>
    by_cases same : owner = scope
    · simp [same] at owes
    · simp only [dutyAfter, dutyDiscipline, same, if_false] at owes
      exact .inl owes
  | _ => exact .inl owes

theorem settledBy_eventOf (settles : settledBy scope (eventOf thread call world) = some summary) :
    call = .settle scope summary := by
  cases call with
  | settle =>
    simp only [settledBy, eventOf] at settles
    split at settles
    · rename_i same
      rw [same, some.inj settles]
    · cases settles
  | _ => cases settles

theorem finished_exec (thread : Nat) (known : ((exec call world).1.ended future).isSome) :
    (world.ended future).isSome ∨ finishedBy (eventOf thread call world) = some future := by
  cases call with
  | add
  | fold
  | close => exact .inl (by rwa [exec, ended_onScope] at known)
  | addDoneCallback =>
    simp only [exec] at known
    split at known <;> exact .inl known
  | finish other =>
    by_cases same : other = future
    · exact .inr (by rw [← same]; rfl)
    · refine .inl ?_
      simp only [exec] at known
      split at known
      · exact known
      · simpa [Function.update_of_ne (Ne.symm same)] using known
  | _ => exact .inl known

theorem unsealed_of_added {piece : Nat × Origin} (added : addedBy scope (eventOf thread call world) = some piece) :
    (world.scopeAt scope).isSealed = false := by
  cases call with
  | add owner =>
    simp only [addedBy, eventOf] at added
    split at added
    · rename_i here
      obtain ⟨rfl, accepted⟩ := here
      by_cases opened : owner < world.scopes.length
      · rw [exec, answer_onScope_of_lt opened] at accepted
        cases sealedNow : (world.scopeAt owner).isSealed with
        | false => rfl
        | true => simp [WorkScope.add, sealedNow] at accepted
      · rw [exec, onScope_of_le (Nat.le_of_not_lt opened)] at accepted
        cases accepted
    · cases added
  | _ => cases added

variable (settles : Settles scope world trace locals)

include settles

theorem sealed_of_handed (handed : summary ∈ trace.filterMap (handedBy scope)) :
    (world.scopeAt scope).isSealed = true ∧ trace.filterMap (returnedBy scope) = [none] ∧
      ∀ piece ∈ trace.filterMap (addedBy scope), (world.ended piece.1).isSome := by
  rcases settles.books.handed with none | ⟨sealedNow, returned, _⟩
  · simp only [holdOf] at none
    simp [none] at handed
  · refine ⟨sealedNow, returned, fun piece member => ?_⟩
    rcases settles.pieces.accounted piece member with running | ended
    · have idle := (settles.books.idle sealedNow).1
      simp [Table.find, idle] at running
    · exact ended

variable (located : locals[thread]? = some duty)

include located

theorem late_step (may : (dutyDiscipline scope).may duty call) : Late scope (eventOf thread call world :: trace) := by
  intro later event earlier split settled
  cases later with
  | nil =>
    -- The callback runs now: its summary was handed over by a fold that sealed the scope.
    obtain ⟨rfl, rfl⟩ := cons.inj split
    obtain ⟨summary, settled⟩ := isSome_iff_exists.mp settled
    obtain rfl := settledBy_eventOf settled
    have owes : duty.owes = some summary := may rfl
    have handed := settles.owedFrom duty (mem_of_getElem? located) summary owes
    obtain ⟨_, returned, ended⟩ := sealed_of_handed settles handed
    refine ⟨returned, fun piece member => ?_⟩
    rcases mem_filterMap_cons.mp member with now | before
    · cases now
    · exact settles.finished piece.1 (ended piece before)
  | cons newest later =>
    obtain ⟨rfl, rfl⟩ := cons.inj split
    obtain ⟨returned, ended⟩ := settles.late later event earlier rfl settled
    refine ⟨returned, fun piece member => ?_⟩
    rcases mem_filterMap_cons.mp member with now | before
    · -- A sealed scope takes no further piece.
      obtain ⟨summary, settled⟩ := isSome_iff_exists.mp settled
      have listed : summary ∈ (later ++ event :: earlier).filterMap (settledBy scope) :=
        mem_filterMap.mpr ⟨event, by simp, settled⟩
      have sealedNow := (sealed_of_handed settles (settles.settledFrom summary listed)).1
      have unsealed := unsealed_of_added now
      simp [sealedNow] at unsealed
    · exact ended piece before

theorem allowed_step (may : (dutyDiscipline scope).may duty call)
    (own : call = .close scope true → scope < world.scopes.length ∧ trace.filterMap (returnedBy scope) = []) :
    (holdOf scope world trace).Allowed (moveOf scope world call) := by
  refine allowed_moveOf settles.absent ?_ own
  rintro future rfl
  exact settles.known duty (mem_of_getElem? located) future (may rfl).1

theorem settles_step (may : (dutyDiscipline scope).may duty call)
    (own : call = .close scope true → scope < world.scopes.length ∧ trace.filterMap (returnedBy scope) = []) :
    Settles scope (exec call world).1 (eventOf thread call world :: trace)
      (locals.set thread (dutyAfter scope world duty call) ++ []) := by
  have allowed := allowed_step settles located may own
  have moved : holdOf scope (exec call world).1 (eventOf thread call world :: trace) =
      (holdOf scope world trace).after (moveOf scope world call) := holdOf_step own
  have member : duty ∈ locals := mem_of_getElem? located
  refine ⟨?_, ?_, ?_, ?_, ?_, ?_, ?_, ?_, ?_, late_step settles located may⟩
  · rw [moved]
    exact settles.books.step allowed
  · rw [moved]
    exact settles.pieces.step allowed
  · intro short
    have before : world.scopes.length ≤ scope := le_trans length_exec short
    have same := congrArg added moved
    rcases added_after (holdOf scope world trace) (moveOf scope world call) with kept | ⟨_, _, adds⟩
    · exact (same.trans kept).trans (settles.absent before)
    · have opened := (moveOf_adds adds).2.1
      omega
  · refine forall_after ?_ ?_
    · intro other there future handles
      exact isSome_ended_exec (settles.known other there future handles)
    · intro future handles
      rcases handles_dutyAfter handles with before | now
      · exact isSome_ended_exec (settles.known duty member future before)
      · exact now
  · intro future running
    have scopeMoved := congrArg Hold.scope moved
    simp only [holdOf] at scopeMoved
    rw [scopeMoved] at running
    rcases running_after running with ⟨before, unfolded⟩ | ⟨origin, adds⟩
    · refine covers_step located may (settles.covered future before) ?_
      rintro rfl
      exact unfolded (by simp [moveOf])
    · obtain ⟨rfl, opened, unsealed⟩ := moveOf_adds adds
      refine .inl ⟨_, mem_after located _, ?_⟩
      simp [exec, answer_onScope_of_lt opened, WorkScope.add, unsealed]
  · have moves := owing_dutyAfter world thread may
    have total := sum_map_set owing locals located (dutyAfter scope world duty call)
    have owed := settles.owed
    rw [append_nil, length_filterMap_cons, length_filterMap_cons]
    omega
  · refine forall_after ?_ ?_
    · intro other there summary owes
      exact mem_filterMap_cons.mpr (Or.inr (settles.owedFrom other there summary owes))
    · intro summary owes
      refine mem_filterMap_cons.mpr ?_
      rcases owes_dutyAfter thread owes with before | now
      · exact .inr (settles.owedFrom duty member summary before)
      · exact .inl now
  · intro summary settled
    refine mem_filterMap_cons.mpr (Or.inr ?_)
    rcases mem_filterMap_cons.mp settled with now | before
    · obtain rfl := settledBy_eventOf now
      exact settles.owedFrom duty member summary (may rfl)
    · exact settles.settledFrom summary before
  · intro future known
    rcases finished_exec thread known with before | now
    · obtain ⟨event, there, ends⟩ := settles.finished future before
      exact ⟨event, mem_cons_of_mem _ there, ends⟩
    · exact ⟨_, mem_cons_self, now⟩

end

def hasNoOwnClose (scope : Nat) (trace : List WorkEvent) : Bool :=
  (trace.filterMap (returnedBy scope)).isEmpty

def ClosesOnce (scope : Nat) (config : WorkConfig) : WorkAction → Prop
  | .step thread => config.pending thread = some (.close scope true) →
      scope < config.state.scopes.length ∧ hasNoOwnClose scope config.trace
  | _ => True

/-- No enclosing close finds the callback kept, and the own close does not find the scope sealed. -/
def Calm (scope : Nat) (config : WorkConfig) : WorkAction → Prop
  | .step thread =>
      (config.pending thread = some (.close scope false) → (config.state.scopeAt scope).onSettled = false) ∧
        (config.pending thread = some (.close scope true) → (config.state.scopeAt scope).isSealed = false)
  | _ => True

def Intact (scope : Nat) (config : WorkConfig) : WorkAction → Prop
  | .step thread => ∀ future origin, config.pending thread = some (.add scope future origin) →
      ∀ entry, (config.state.scopeAt scope).running.find future = some entry →
        (config.state.scopeAt scope).isOwn entry.2 = true → (config.state.scopeAt scope).isOwn origin = true
  | _ => True

instance (scope : Nat) (config : WorkConfig) : ∀ action, Decidable (ClosesOnce scope config action)
  | .step _ => inferInstanceAs (Decidable (_ → _))
  | .disturb _ => isTrue trivial
  | .spawn _ => isTrue trivial

def Quiet (scope : Nat) (config : WorkConfig) : Prop :=
  (∀ thread < config.threads.length, config.pending thread = none) ∧
    ∀ piece ∈ config.trace.filterMap (addedBy scope), (config.state.ended piece.1).isSome

instance (scope : Nat) (config : WorkConfig) : Decidable (Quiet scope config) :=
  inferInstanceAs (Decidable (_ ∧ _))

/-- Either the own close returned the summary, or the callback ran once; not both, not neither. -/
def SettledOnce (scope : Nat) (trace : List WorkEvent) : Prop :=
  (∃ summary, trace.filterMap (returnedBy scope) = [some summary] ∧ trace.filterMap (settledBy scope) = []) ∨
    (trace.filterMap (returnedBy scope) = [none] ∧ ∃ summary, trace.filterMap (settledBy scope) = [summary])

def deliveries (scope : Nat) (trace : List WorkEvent) : List WorkSummary :=
  trace.filterMap (settledBy scope) ++ (trace.filterMap (returnedBy scope)).filterMap id

def workRun (schedule : List WorkAction) : WorkConfig :=
  workMachine.run (Pool.start {}) schedule

def runsWork (action : WorkAction) : Prop :=
  ∀ program, action = .spawn program → WorkProgram program

def Regular (scope : Nat) (config : WorkConfig) (action : WorkAction) : Prop :=
  ClosesOnce scope config action ∧ runsWork action

section

variable {scope : Nat} {config : WorkConfig} {action : WorkAction} {schedule : List WorkAction}

def Fits (scope : Nat) (config : WorkConfig) : Prop :=
  Pool.Coherent (dutyDiscipline scope) (fun duty _ => Discharged duty) (Settles scope) config

def holdAt (scope : Nat) (config : WorkConfig) : Hold :=
  holdOf scope config.state config.trace

theorem own_of_closesOnce {thread : Nat} {call : WorkCall} (once : ClosesOnce scope config (.step thread))
    (pending : config.pending thread = some call) (own : call = .close scope true) :
    scope < config.state.scopes.length ∧ config.trace.filterMap (returnedBy scope) = [] := by
  obtain ⟨opened, first⟩ := once (by rw [pending, own])
  exact ⟨opened, isEmpty_iff.mp first⟩

theorem settlement_sound (scope : Nat) :
    Sound workMachine (dutyDiscipline scope) (fun duty _ => Discharged duty) (Settles scope) (Regular scope) where
  step config locals thread duty call regular pending settles located may := by
    refine ⟨trivial, [], .nil, ?_⟩
    exact settles_step settles located may (own_of_closesOnce regular.1 pending)
  disturb config locals copy _ settles := by
    exact { settles with }
  spawn config locals program regular settles := by
    refine ⟨{}, workProgram_obeys (regular.2 program rfl), ?_⟩
    have carried {has : Duty → Prop} (all : ∀ duty ∈ locals, has duty) (idle : has {}) :
        ∀ duty ∈ locals ++ [({} : Duty)], has duty :=
      forall_mem_append.mpr ⟨all, forall_mem_singleton.mpr idle⟩
    refine { settles with
      known := carried settles.known (by simp)
      covered := ?_
      owed := ?_
      owedFrom := carried settles.owedFrom (by simp) }
    · intro future running
      refine (settles.covered future running).imp ?_ (Or.imp_right ?_)
      · rintro ⟨duty, member, adds⟩
        exact ⟨duty, mem_append_left _ member, adds⟩
      · rintro ⟨duty, member, handles⟩
        exact ⟨duty, mem_append_left _ member, handles⟩
    · simpa [owing] using settles.owed

attribute [local simp] Pool.start holdOf unopened Calm CalmMove holdAt moveOf

theorem fits_start (scope : Nat) : Fits scope (start {}) := by
  refine ⟨[], .nil, ⟨?_, ?_, ?_, ?_, ?_, ?_, ?_, ?_, ?_, ?_⟩⟩
  · refine ⟨?_, ?_, ?_, ?_, Or.inl rfl, ?_⟩ <;> simp [scopeAt]
  · refine ⟨?_, ?_, ?_, ?_⟩ <;> simp [scopeAt, Table.empty]
  · intro _
    rfl
  · simp
  · intro future running
    simp [scopeAt] at running
  · rfl
  · simp
  · simp
  · simp
  · intro later event earlier split
    simp at split

theorem moves_act (regular : Regular scope config action) (fits : Fits scope config) :
    ∃ move, (holdAt scope config).Allowed move ∧
      holdAt scope (workMachine.act config action) = (holdAt scope config).after move ∧
      (Calm scope config action ↔ (holdAt scope config).CalmMove move) ∧
      (Intact scope config action → (holdAt scope config).IntactMove move) := by
  cases action with
  | disturb copy | spawn program => exact ⟨stays, trivial, rfl, Iff.rfl, fun _ => trivial⟩
  | step thread =>
    cases pending : config.pending thread with
    | none =>
      refine ⟨stays, trivial, by rw [workMachine.act_idle pending]; rfl, ?_, fun _ => trivial⟩
      simp [pending]
    | some call =>
      obtain ⟨next, found⟩ := Config.pending_eq_some.mp pending
      obtain ⟨locals, duty, settles, located, may⟩ := Coherent.may_of_pending fits pending
      have own := own_of_closesOnce regular.1 pending
      refine ⟨moveOf scope config.state call, allowed_step settles located may own, ?_, ?_, ?_⟩
      · rw [workMachine.act_step found]
        exact holdOf_step own
      · cases call with
        | close owner callback =>
          by_cases same : owner = scope
          · subst same
            cases callback with
            | true => simp [pending, (own rfl).1]
            | false =>
              by_cases opened : owner < config.state.scopes.length
              · simp [pending, opened]
              · have absent := scopeAt_of_le (Nat.le_of_not_lt opened)
                simp [pending, opened, absent]
          · simp [pending, same]
        | newScope
        | add
        | finish
        | fold =>
          simp only [Calm, pending, moveOf]
          split <;> simp
        | _ => simp [pending]
      · intro intact
        cases moved : moveOf scope config.state call with
        | adds future origin =>
          obtain ⟨rfl, _⟩ := moveOf_adds moved
          exact intact future origin pending
        | _ => trivial

section

variable (regular : workMachine.Always (Regular scope) (Pool.start {}) schedule)

include regular

theorem fits_run : Fits scope (workRun schedule) :=
  (settlement_sound scope).run regular (fits_start scope)

theorem kept_run (calm : workMachine.Always (Calm scope) (start {}) schedule) :
    (holdAt scope (workRun schedule)).Kept := by
  refine (settlement_sound scope).run_along (fun config => (holdAt scope config).Kept) ?_ regular calm
    (fits_start scope) ?_
  · intro config action regular calm fits kept
    obtain ⟨move, allowed, moved, calmIff, _⟩ := moves_act regular fits
    obtain ⟨locals, _, settles⟩ := fits
    rw [moved]
    exact Kept.step settles.books kept allowed (calmIff.mp calm)
  · intro returned
    simp at returned

theorem noted_run (intact : workMachine.Always (Intact scope) (start {}) schedule) :
    (holdAt scope (workRun schedule)).Noted := by
  refine (settlement_sound scope).run_along (fun config => (holdAt scope config).Noted) ?_ regular intact
    (fits_start scope) ?_
  · intro config action regular intact fits noted
    obtain ⟨move, allowed, moved, _, intactMove⟩ := moves_act regular fits
    rw [moved]
    exact noted.step allowed (intactMove intact)
  · intro piece member
    simp at member

end

theorem lost_run (regular : workMachine.Always (Regular scope) config schedule) (fits : Fits scope config)
    (lost : (holdAt scope config).Lost) : (holdAt scope (workMachine.run config schedule)).Lost := by
  have always : workMachine.Always (fun _ _ => True) config schedule :=
    workMachine.always_mono (fun _ _ _ => trivial) regular
  refine (settlement_sound scope).run_along (fun config => (holdAt scope config).Lost) ?_ regular always fits lost
  intro config action regular _ fits lost
  obtain ⟨move, allowed, moved, _⟩ := moves_act regular fits
  rw [moved]
  exact lost.step allowed

theorem lost_of_uncalm (regular : workMachine.Always (Regular scope) (start {}) schedule)
    (uncalm : ¬workMachine.Always (Calm scope) (start {}) schedule) :
    (holdAt scope (workRun schedule)).Lost := by
  rw [Machine.always_iff_split] at uncalm
  push Not at uncalm
  obtain ⟨first, action, rest, rfl, uncalm⟩ := uncalm
  rw [Machine.always_append] at regular
  obtain ⟨before, now, after⟩ := regular
  have fits : Fits scope (workRun first) := fits_run before
  obtain ⟨move, allowed, moved, calmIff, _⟩ := moves_act now fits
  have lost : (holdAt scope (workMachine.act (workMachine.run (start {}) first) action)).Lost := by
    obtain ⟨locals, _, settles⟩ := fits
    rw [moved]
    exact lost_of_not_calm settles.books allowed fun calm => uncalm (calmIff.mpr calm)
  have ended := lost_run after ((settlement_sound scope).act now fits) lost
  rw [workRun, workMachine.run_append]
  exact ended

theorem quiet_end (fits : Fits scope config) (quiet : Quiet scope config) :
    (config.state.scopeAt scope).running.entries = [] ∧
      (config.trace.filterMap (settledBy scope)).length = (config.trace.filterMap (handedBy scope)).length := by
  obtain ⟨locals, obeys, settles⟩ := fits
  have discharged : ∀ duty ∈ locals, Discharged duty := by
    intro duty member
    obtain ⟨thread, located⟩ := List.mem_iff_getElem?.mp member
    obtain ⟨bound, _⟩ := List.getElem?_eq_some_iff.mp located
    have within : thread < config.threads.length := obeys.length_eq ▸ bound
    have ended := quiet.1 thread within
    have fitting := (List.forall₂_iff_get.mp obeys).2 thread bound within
    cases shape : config.threads.get ⟨thread, within⟩ with
    | ret =>
      rw [shape] at fitting
      have same : locals.get ⟨thread, bound⟩ = duty := (List.getElem?_eq_some_iff.mp located).2
      rw [same] at fitting
      exact fitting
    | call next rest =>
      have found : config.threads[thread]? = some (.call next rest) := by
        rw [List.getElem?_eq_getElem within]
        exact congrArg some shape
      simp [Pool.Config.pending, found] at ended
  constructor
  · refine List.eq_nil_iff_forall_not_mem.mpr fun entry member => ?_
    have found := (Table.mem_entries_iff _ entry).mp member
    have ended := quiet.2 entry (settles.pieces.listed entry member)
    rcases settles.covered entry.1 (by simp [found]) with
      ⟨duty, there, adds⟩ | ⟨runs, _⟩ | ⟨duty, there, _, folds⟩
    · simp [(discharged duty there).1] at adds
    · simp [runs] at ended
    · simp [(discharged duty there).2.1] at folds
  · have none : (locals.map owing).sum = 0 := by
      refine List.sum_eq_zero fun count member => ?_
      obtain ⟨duty, there, rfl⟩ := List.mem_map.mp member
      simp [owing, (discharged duty there).2.2]
    have owed := settles.owed
    omega

section

variable (regular : workMachine.Always (Regular scope) (Pool.start {}) schedule)

include regular

theorem settledOnce_of_calm (returned : (workRun schedule).trace.filterMap (returnedBy scope) ≠ [])
    (quiet : Quiet scope (workRun schedule)) (calm : workMachine.Always (Calm scope) (start {}) schedule) :
    SettledOnce scope (workRun schedule).trace := by
  have fits := fits_run regular
  obtain ⟨idle, counted⟩ := quiet_end fits quiet
  have kept := kept_run regular calm
  obtain ⟨locals, _, settles⟩ := fits
  obtain ⟨answer, only⟩ : ∃ answer, (workRun schedule).trace.filterMap (returnedBy scope) = [answer] := by
    have once := settles.books.once
    simp only [holdOf] at once
    exact length_eq_one_iff.mp (by have := length_pos_iff.mpr returned; omega)
  cases answer with
  | some summary =>
    refine .inl ⟨summary, only, length_eq_zero_iff.mp ?_⟩
    rcases settles.books.handed with none | ⟨_, held, _⟩
    · simp only [holdOf] at none
      simp [counted, none]
    · simp only [holdOf, only] at held
      cases held
  | none =>
    refine .inr ⟨only, length_eq_one_iff.mp ?_⟩
    rcases settles.books.handed with none | ⟨_, _, handed⟩
    · -- Kept by a scope that is closed, not sealed and idle: there is no such scope.
      have waits : ((workRun schedule).state.scopeAt scope).onSettled = true :=
        (kept only).resolve_right fun handed => handed none
      have closed := (settles.books.kept waits).1
      cases sealedNow : ((workRun schedule).state.scopeAt scope).isSealed with
      | true =>
        have unkept : ((workRun schedule).state.scopeAt scope).onSettled = false :=
          (settles.books.idle sealedNow).2
        simp [unkept] at waits
      | false => exact absurd idle (settles.books.holding closed sealedNow)
    · simp only [holdOf] at handed
      simp [counted, handed]

theorem tells_of_intact
    (intact : workMachine.Always (Intact scope) (start {}) schedule) {summary : WorkSummary}
    (delivered : summary ∈ deliveries scope (workRun schedule).trace) :
    (holdAt scope (workRun schedule)).Tells summary := by
  have noted := noted_run regular intact
  obtain ⟨locals, _, settles⟩ := fits_run regular
  have told (sealedNow : ((workRun schedule).state.scopeAt scope).isSealed = true) :
      (holdAt scope (workRun schedule)).Tells ((workRun schedule).state.scopeAt scope).summary :=
    tells_of_idle settles.pieces noted (settles.books.idle sealedNow).1
  rcases mem_append.mp delivered with called | returned
  · have handed := settles.settledFrom summary called
    rcases settles.books.handed with none | ⟨sealedNow, _, only⟩
    · simp only [holdOf] at none
      simp [none] at handed
    · simp only [holdOf] at only
      rw [only, mem_singleton] at handed
      rw [handed]
      exact told sealedNow
  · obtain ⟨answer, given, same⟩ := mem_filterMap.mp returned
    obtain rfl : answer = some summary := same
    have only : (workRun schedule).trace.filterMap (returnedBy scope) = [some summary] := by
      have once := settles.books.once
      simp only [holdOf] at once
      obtain ⟨first, single⟩ := length_eq_one_iff.mp (le_antisymm once (length_pos_iff.mpr (ne_nil_of_mem given)))
      rw [single, mem_singleton] at given
      rw [single, given]
    obtain ⟨sealedNow, rfl⟩ := settles.books.atOnce summary only
    exact told sealedNow

end

end

/-- A scope closed with a callback settles exactly once if and only if no enclosing close finds the
callback kept and its own close does not find the scope sealed. -/
theorem abandoned_work_settles_once (scope : Nat) (schedule : List WorkAction)
    (programs : ∀ action ∈ schedule, runsWork action)
    (once : workMachine.Always (ClosesOnce scope) (start {}) schedule)
    (returned : (workRun schedule).trace.filterMap (returnedBy scope) ≠ [])
    (quiet : Quiet scope (workRun schedule)) :
    (workMachine.Always (Calm scope) (start {}) schedule ↔ SettledOnce scope (workRun schedule).trace) ∧
      Late scope (workRun schedule).trace ∧
      (workMachine.Always (Intact scope) (start {}) schedule →
        ∀ summary ∈ deliveries scope (workRun schedule).trace, (holdAt scope (workRun schedule)).Tells summary) := by
  have regular : workMachine.Always (Regular scope) (start {}) schedule := by
    rw [Machine.always_iff_split] at once ⊢
    rintro first action rest rfl
    exact ⟨once first action rest rfl, programs action (by simp)⟩
  refine ⟨⟨?_, ?_⟩, ?_, ?_⟩
  · intro calm
    exact settledOnce_of_calm regular returned quiet calm
  · intro settled
    by_contra uncalm
    obtain ⟨returned, unhanded, _⟩ := lost_of_uncalm regular uncalm
    have counted := (quiet_end (fits_run regular) quiet).2
    simp only [holdAt, holdOf] at returned unhanded
    rcases settled with ⟨summary, given, _⟩ | ⟨_, summary, given⟩
    · simp [returned] at given
    · simp [unhanded, given] at counted
  · obtain ⟨locals, _, settles⟩ := fits_run regular
    exact settles.late
  · intro intact summary delivered
    exact tells_of_intact regular intact delivered

def whole (thread steps : Nat) (program : WorkProg (Option WorkSummary)) : List WorkAction :=
  .spawn program :: List.replicate steps (.step thread)

def opening (context : Nat) (origin : Origin) : WorkProg (Option WorkSummary) :=
  openWorkScope context origin >>= fun _ => .ret none

def recording (context future : Nat) (origin : Origin) : WorkProg (Option WorkSummary) :=
  recordAbandoned context future origin >>= fun _ => .ret none

def ending (future : Nat) (failed : Bool) : WorkProg (Option WorkSummary) :=
  endFuture future failed >>= fun _ => .ret none

theorem runsWork_whole {thread steps : Nat} {program : WorkProg (Option WorkSummary)}
    (starts : WorkProgram program) : ∀ action ∈ whole thread steps program, runsWork action := by
  intro action member program' spawned
  subst spawned
  simp only [whole, mem_cons, Action.spawn.injEq, mem_replicate, reduceCtorEq, and_false, or_false] at member
  rwa [member]

def timedOutCall : List WorkAction :=
  whole 0 3 (opening 0 (some 7)) ++ (whole 1 3 (recording 0 5 (some 7)) ++
    (whole 2 3 (closeWorkScope 0 0 (some none) true) ++ whole 3 3 (ending 5 true)))

theorem timed_out_call_settles_once :
    SettledOnce 0 (workRun timedOutCall).trace ∧
      (workRun timedOutCall).trace.filterMap (settledBy 0) = [⟨true, true⟩] ∧
      workMachine.Always (Calm 0) (start {}) timedOutCall := by
  have settled : SettledOnce 0 (workRun timedOutCall).trace :=
    Or.inr ⟨by decide +kernel, ⟨true, true⟩, by decide +kernel⟩
  refine ⟨settled, by decide +kernel, ?_⟩
  refine (abandoned_work_settles_once 0 timedOutCall ?_ (by decide +kernel) (by decide +kernel)
    (by decide +kernel)).1.mpr settled
  simp only [timedOutCall, forall_mem_append]
  exact ⟨runsWork_whole (.opens 0 (some 7)), runsWork_whole (.records 0 5 (some 7)),
    runsWork_whole (.closes 0 0 (some none) true), runsWork_whole (.ends 5 true)⟩

def innerResetFails : List WorkAction :=
  whole 0 3 (opening 0 none) ++ (whole 1 3 (opening 0 (some 7)) ++ (whole 2 4 (recording 0 5 (some 7)) ++
    (whole 3 2 (closeWorkScope 0 1 none true) ++ (whole 4 4 (closeWorkScope 0 0 (some none) true) ++
      whole 5 4 (ending 5 true)))))

def outerClosesFirst : List WorkAction :=
  whole 0 3 (opening 0 none) ++ (whole 1 3 (opening 0 (some 7)) ++
    (whole 2 4 (closeWorkScope 0 0 (some none) true) ++ whole 3 3 (closeWorkScope 0 1 (some (some 0)) true)))

def recordedTwice : List WorkAction :=
  whole 0 3 (opening 0 (some 7)) ++ (whole 1 3 (recording 0 5 (some 7)) ++
    (whole 2 3 (recording 0 5 (some 8)) ++ (whole 3 3 (ending 5 true) ++
      whole 4 3 (closeWorkScope 0 0 (some none) true))))

theorem nested_callback_is_lost :
    (∀ schedule ∈ [innerResetFails, outerClosesFirst], (∀ action ∈ schedule, runsWork action) ∧
      (∀ scope < 2, workMachine.Always (ClosesOnce scope) (start {}) schedule) ∧
      Quiet 1 (workRun schedule) ∧ (workRun schedule).trace.filterMap (returnedBy 1) = [none] ∧
      (workRun schedule).trace.filterMap (settledBy 1) = []) ∧
    (∀ action ∈ recordedTwice, runsWork action) ∧
      workMachine.Always (ClosesOnce 0) (start {}) recordedTwice ∧ Quiet 0 (workRun recordedTwice) ∧
      (workRun recordedTwice).trace.filterMap (returnedBy 0) = [some ⟨false, false⟩] ∧
      (5, some 7) ∈ (workRun recordedTwice).trace.filterMap (addedBy 0) := by
  have inner : ∀ action ∈ innerResetFails, runsWork action := by
    simp only [innerResetFails, forall_mem_append]
    exact ⟨runsWork_whole (.opens 0 none), runsWork_whole (.opens 0 (some 7)),
      runsWork_whole (.records 0 5 (some 7)), runsWork_whole (.closes 0 1 none true),
      runsWork_whole (.closes 0 0 (some none) true), runsWork_whole (.ends 5 true)⟩
  have outer : ∀ action ∈ outerClosesFirst, runsWork action := by
    simp only [outerClosesFirst, forall_mem_append]
    exact ⟨runsWork_whole (.opens 0 none), runsWork_whole (.opens 0 (some 7)),
      runsWork_whole (.closes 0 0 (some none) true), runsWork_whole (.closes 0 1 (some (some 0)) true)⟩
  have twice : ∀ action ∈ recordedTwice, runsWork action := by
    simp only [recordedTwice, forall_mem_append]
    exact ⟨runsWork_whole (.opens 0 (some 7)), runsWork_whole (.records 0 5 (some 7)),
      runsWork_whole (.records 0 5 (some 8)), runsWork_whole (.ends 5 true),
      runsWork_whole (.closes 0 0 (some none) true)⟩
  refine ⟨?_, twice, by decide +kernel, by decide +kernel, by decide +kernel, by decide +kernel⟩
  simp only [forall_mem_cons, not_mem_nil, false_implies, implies_true, and_true]
  exact ⟨⟨inner, by decide +kernel, by decide +kernel, by decide +kernel, by decide +kernel⟩,
    ⟨outer, by decide +kernel, by decide +kernel, by decide +kernel, by decide +kernel⟩⟩

end Baldur.Work
