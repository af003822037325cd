import Baldur.Work.Hold

/-!
The trace of a run gives each scope's hold. A thread has duties towards the scope: they carry each running
piece to its fold.
-/

namespace Baldur.Work

open Prog Hold Hold.Move

variable {future : Nat}

def addedBy (scope : Nat) : WorkEvent → Option (Nat × Origin)
  | ⟨_, .add owner future origin, added⟩ => if owner = scope ∧ added = true then some (future, origin) else none
  | _ => none

def returnedBy (scope : Nat) : WorkEvent → Option (Option WorkSummary)
  | ⟨_, .close owner true, answer⟩ => if owner = scope then some answer else none
  | _ => none

def handedBy (scope : Nat) : WorkEvent → Option WorkSummary
  | ⟨_, .fold owner _, answer⟩ => if owner = scope then answer else none
  | _ => none

def settledBy (scope : Nat) : WorkEvent → Option WorkSummary
  | ⟨_, .settle owner summary, _⟩ => if owner = scope then some summary else none
  | _ => none

def finishedBy : WorkEvent → Option Nat
  | ⟨_, .finish future _, _⟩ => some future
  | _ => none

def WorkWorld.scopeAt (world : WorkWorld) (scope : Nat) : WorkScope :=
  (world.scopes[scope]?).getD unopened

def holdOf (scope : Nat) (world : WorkWorld) (trace : List WorkEvent) : Hold where
  scope := world.scopeAt scope
  ended := world.ended
  added := trace.filterMap (addedBy scope)
  returned := trace.filterMap (returnedBy scope)
  handed := trace.filterMap (handedBy scope)

open WorkWorld

def moveOf (scope : Nat) (world : WorkWorld) : WorkCall → Move
  | .newScope origin parent => if world.scopes.length = scope then opens origin parent else stays
  | .add owner future origin =>
      if owner = scope ∧ scope < world.scopes.length ∧ (world.scopeAt scope).isSealed = false then
        adds future origin
      else
        stays
  | .finish future failed => if (world.ended future).isSome then stays else ends future failed
  | .fold owner future => if owner = scope then folds future else stays
  | .close owner callback =>
      if owner = scope ∧ scope < world.scopes.length then (if callback then returns else closes) else stays
  | _ => stays

section

variable {thread : Nat} {call : WorkCall} {scope : Nat} {world : WorkWorld} {trace : List WorkEvent}

theorem scopeAt_of_lt (opened : scope < world.scopes.length) : world.scopes[scope]? = some (world.scopeAt scope) := by
  simp [scopeAt, List.getElem?_eq_getElem opened]

theorem scopeAt_of_le (absent : world.scopes.length ≤ scope) : world.scopeAt scope = unopened := by
  simp [scopeAt, List.getElem?_eq_none absent]

variable {α : Type} {missing : α} {body : WorkScope → WorkScope × α}

theorem answer_onScope_of_lt (opened : scope < world.scopes.length) :
    (world.onScope scope missing body).2 = (body (world.scopeAt scope)).2 := by
  simp only [onScope, scopeAt_of_lt opened]

theorem onScope_of_le (absent : world.scopes.length ≤ scope) : world.onScope scope missing body = (world, missing) := by
  simp only [onScope, List.getElem?_eq_none absent]

variable {owner : Nat}

theorem scopeAt_onScope :
    (world.onScope owner missing body).1.scopeAt scope =
      if owner = scope ∧ scope < world.scopes.length then (body (world.scopeAt scope)).1
      else world.scopeAt scope := by
  by_cases opened : owner < world.scopes.length
  · simp only [onScope, scopeAt_of_lt opened]
    by_cases same : owner = scope
    · subst same
      simp [scopeAt, opened]
    · simp [scopeAt, same]
  · rw [onScope_of_le (Nat.le_of_not_lt opened), if_neg]
    rintro ⟨rfl, there⟩
    exact opened there

theorem ended_onScope : (world.onScope owner missing body).1.ended = world.ended := by
  unfold onScope
  split <;> rfl

theorem callbacks_onScope : (world.onScope owner missing body).1.callbacks = world.callbacks := by
  unfold onScope
  split <;> rfl

theorem length_onScope : (world.onScope owner missing body).1.scopes.length = world.scopes.length := by
  unfold onScope
  split <;> simp

def eventOf (thread : Nat) (call : WorkCall) (world : WorkWorld) : WorkEvent :=
  ⟨thread, call, (WorkWorld.exec call world).2⟩

attribute [local simp] List.filterMap_cons addedBy after answer_onScope_of_lt ended_onScope eventOf exec
  handedBy holdOf moveOf returnedBy scopeAt_onScope

theorem holdOf_step (own : call = .close scope true →
      scope < world.scopes.length ∧ trace.filterMap (returnedBy scope) = []) :
    holdOf scope (exec call world).1 (eventOf thread call world :: trace) =
      (holdOf scope world trace).after (moveOf scope world call) := by
  cases call with
  | add owner future origin =>
    by_cases same : owner = scope
    · subst same
      by_cases opened : owner < world.scopes.length
      · cases sealedNow : (world.scopeAt owner).isSealed <;>
          simp [opened, sealedNow, WorkScope.add]
      · simp [onScope_of_le (Nat.le_of_not_lt opened), opened]
    · simp [same]
  | fold owner future =>
    by_cases same : owner = scope
    · subst same
      by_cases opened : owner < world.scopes.length
      · cases settled : ((world.scopeAt owner).fold future ((world.ended future).getD false)).2 <;>
          simp [opened, settled]
      · have absent := scopeAt_of_le (Nat.le_of_not_lt opened)
        simp [onScope_of_le (Nat.le_of_not_lt opened), absent, WorkScope.fold, unopened]
    · simp [same]
  | close owner callback =>
    by_cases same : owner = scope
    · subst same
      cases callback with
      | true =>
        obtain ⟨opened, first⟩ := own rfl
        simp [opened, first]
      | false =>
        by_cases opened : owner < world.scopes.length
        · simp [opened]
        · simp [onScope_of_le (Nat.le_of_not_lt opened), opened]
    · cases callback <;>
        simp [same]
  | newScope origin parent =>
    by_cases next : world.scopes.length = scope
    · subst next
      simp [scopeAt]
    · have kept : (world.scopes ++ [({ origin, parent } : WorkScope)])[scope]?.getD unopened =
          world.scopes[scope]?.getD unopened := by
        rcases Nat.lt_or_gt_of_ne next with above | below
        · rw [List.getElem?_eq_none (by simp; omega), List.getElem?_eq_none (by omega)]
        · rw [List.getElem?_append_left below]
      simp [scopeAt, next, kept]
  | finish future failed | addDoneCallback future holders =>
    by_cases known : (world.ended future).isSome = true <;> simp [scopeAt, known]
  | _ => rfl

theorem allowed_moveOf (absent : world.scopes.length ≤ scope → trace.filterMap (addedBy scope) = [])
    (known : ∀ future, call = .fold scope future → (world.ended future).isSome)
    (own : call = .close scope true → scope < world.scopes.length ∧ trace.filterMap (returnedBy scope) = []) :
    (holdOf scope world trace).Allowed (moveOf scope world call) := by
  cases call with
  | newScope =>
    simp only [moveOf]
    split
    · rename_i next
      exact ⟨scopeAt_of_le (by omega), absent (by omega)⟩
    · trivial
  | add =>
    simp only [moveOf]
    split
    · rename_i here
      exact here.2.2
    · trivial
  | finish =>
    simp only [moveOf]
    split
    · trivial
    · rename_i runs
      simpa [Allowed] using runs
  | fold owner future =>
    simp only [moveOf]
    split
    · rename_i same
      exact known future (by rw [same])
    · trivial
  | close owner callback =>
    simp only [moveOf]
    split
    · rename_i here
      cases callback with
      | true => exact (own (by rw [here.1])).2
      | false => trivial
    · trivial
  | _ => trivial

end

structure Duty where
  /-- A future it added, whose done-callback it has not registered yet. -/
  adds : Option Nat := none
  /-- A future that has ended, whose callbacks it runs. -/
  handles : Option Nat := none
  folds : Bool := false
  owes : Option WorkSummary := none

def dutyDiscipline (scope : Nat) : Discipline WorkCall WorkCall.Answer Duty where
  may duty
    | .add owner future _ => owner = scope → ∀ other, duty.adds = some other → other = future
    | .addDoneCallback future holders =>
        duty.folds = false ∧ ∀ other, duty.adds = some other → other = future ∧ scope ∈ holders
    | .finish _ _ => duty.folds = false
    | .fold owner future => owner = scope → duty.handles = some future ∧ duty.owes = none
    | .settle owner summary => owner = scope → duty.owes = some summary
    | _ => True
  valid _ _ _ := True
  after duty
    | .add owner future _, added =>
        if owner = scope ∧ added = true then { duty with adds := some future } else duty
    | .addDoneCallback future holders, endedAlready =>
        if endedAlready = true then
          { duty with adds := none, handles := some future, folds := decide (scope ∈ holders) }
        else
          { duty with adds := none }
    | .finish future _, callbacks =>
        { duty with handles := some future, folds := callbacks.any fun holders => decide (scope ∈ holders) }
    | .fold owner _, settled => if owner = scope then { duty with folds := false, owes := settled } else duty
    | .settle owner _, _ => if owner = scope then { duty with owes := none } else duty
    | _, _ => duty

def Discharged (duty : Duty) : Prop :=
  duty.adds = none ∧ duty.folds = false ∧ duty.owes = none

section

variable {duty : Duty} {scope : Nat}

def Handling (future : Nat) (duty : Duty) : Prop :=
  duty.adds = none ∧ duty.handles = some future ∧ duty.owes = none

attribute [local simp] Handling dutyDiscipline

theorem foldHolder_obeys (handling : Handling future duty) (holder : Nat) :
    Obeys (dutyDiscipline scope)
      (fun duty' _ => Handling future duty' ∧ (duty'.folds = true → duty.folds = true ∧ holder ≠ scope))
      duty (foldHolder future holder) := by
  obtain ⟨added, handles, owes⟩ := handling
  simp only [foldHolder, workCommand, perform_bind, obeys_call]
  refine ⟨fun _ => ⟨handles, owes⟩, fun settled _ => ?_⟩
  by_cases same : holder = scope
  · cases settled with
    | none => simp [same, added, handles]
    | some =>
      simp [perform, same, added, handles]
  · cases settled with
    | none => simp [same, added, handles, owes]
    | some =>
      simp [perform, same, added, handles, owes]

theorem onDone_obeys (holders : List Nat) (handling : Handling future duty) :
    Obeys (dutyDiscipline scope)
      (fun duty' _ => Handling future duty' ∧ (duty'.folds = true → duty.folds = true ∧ scope ∉ holders))
      duty (onDone future holders) := by
  unfold onDone
  induction holders generalizing duty with
  | nil => simpa [pure_eq] using handling
  | cons holder rest ih =>
    rw [List.foldlM_cons, obeys_bind]
    refine (foldHolder_obeys handling holder).mono ?_
    rintro duty' ⟨⟩ ⟨handling', less⟩
    refine (ih handling').mono ?_
    rintro duty'' ⟨⟩ ⟨handling'', less'⟩
    refine ⟨handling'', fun still => ?_⟩
    obtain ⟨still', notRest⟩ := less' still
    obtain ⟨still'', apart⟩ := less still'
    exact ⟨still'', by simp [apart.symm, notRest]⟩

theorem endFuture_obeys (future : Nat) (failed : Bool) :
    Obeys (dutyDiscipline scope) (fun duty _ => Discharged duty) {} (endFuture future failed) := by
  simp only [endFuture, workCommand, perform_bind, obeys_call]
  refine ⟨rfl, fun callbacks _ => ?_⟩
  have each (remaining : List (List Nat)) (duty : Duty) (handling : Handling future duty) :
      Obeys (dutyDiscipline scope) (fun duty' _ => Handling future duty' ∧
          (duty'.folds = true → duty.folds = true ∧ ∀ holders ∈ remaining, scope ∉ holders))
        duty (remaining.foldlM (fun _ holders => onDone future holders) ()) := by
    induction remaining generalizing duty with
    | nil => simpa [pure_eq] using handling
    | cons holders rest ih =>
      rw [List.foldlM_cons, obeys_bind]
      refine (onDone_obeys holders handling).mono ?_
      rintro duty' ⟨⟩ ⟨handling', less⟩
      refine (ih duty' handling').mono ?_
      rintro duty'' ⟨⟩ ⟨handling'', less'⟩
      refine ⟨handling'', fun still => ?_⟩
      obtain ⟨still', notRest⟩ := less' still
      obtain ⟨still'', notHere⟩ := less still'
      exact ⟨still'', by simpa using ⟨notHere, notRest⟩⟩
  refine (each callbacks _ ⟨rfl, rfl, rfl⟩).mono ?_
  rintro duty ⟨⟩ ⟨⟨added, _, owes⟩, less⟩
  refine ⟨added, ?_, owes⟩
  by_contra still
  obtain ⟨any, none⟩ := less (by simpa using still)
  obtain ⟨holders, member, there⟩ := List.any_eq_true.mp any
  exact none holders member (of_decide_eq_true there)

def Adding (scope future : Nat) (duty : Duty) (holders : List Nat) : Prop :=
  duty.folds = false ∧ duty.owes = none ∧ ∀ other, duty.adds = some other → other = future ∧ scope ∈ holders

theorem addToChain_obeys (future : Nat) (origin : Origin) (chain : List Nat) :
    Obeys (dutyDiscipline scope) (fun duty holders => Adding scope future duty holders) {}
      (addToChain future origin chain) := by
  refine obeys_foldlM (dutyDiscipline scope) (fun duty holders => Adding scope future duty holders) _
    chain ?_ {} [] ⟨rfl, rfl, by simp⟩
  rintro duty holders owner _ ⟨folds, owes, added⟩
  simp only [workCommand, perform_bind, obeys_call]
  refine ⟨fun _ other adds => (added other adds).1, fun answer _ => ?_⟩
  by_cases here : owner = scope ∧ answer = true
  · obtain ⟨rfl, rfl⟩ := here
    simp [Adding, folds, owes]
  · refine ⟨?_, ?_, ?_⟩
    · simp [here, folds]
    · simp [here, owes]
    · intro other adds
      simp only [dutyDiscipline, here, if_false] at adds
      obtain ⟨same, member⟩ := added other adds
      refine ⟨same, ?_⟩
      split
      · exact List.mem_append_left _ member
      · exact member

theorem recordAbandoned_obeys (context future : Nat) (origin : Origin) :
    Obeys (dutyDiscipline scope) (fun duty _ => Discharged duty) {} (recordAbandoned context future origin) := by
  simp only [recordAbandoned, workCommand, perform_bind, obeys_call, obeys_bind]
  refine ⟨trivial, fun chain _ => ?_⟩
  refine (addToChain_obeys future origin chain).mono ?_
  rintro duty holders ⟨folds, owes, added⟩
  refine (obeys_ite _ _ _ _ _ _).mpr ⟨fun none => ?_, fun _ => ?_⟩
  · refine ⟨?_, folds, owes⟩
    cases adds : duty.adds with
    | none => rfl
    | some other =>
      have member := (added other adds).2
      simp [List.isEmpty_iff.mp none] at member
  · refine ⟨⟨folds, added⟩, fun endedAlready _ => ?_⟩
    refine (obeys_ite _ _ _ _ _ _).mpr ⟨fun now => ?_, fun later => ?_⟩
    · simp only [dutyDiscipline, now, if_true]
      have handling : Handling future
          { duty with adds := none, handles := some future, folds := decide (scope ∈ holders) } := ⟨rfl, rfl, owes⟩
      refine (onDone_obeys holders handling).mono ?_
      rintro duty' ⟨⟩ ⟨⟨added', _, owes'⟩, less⟩
      refine ⟨added', ?_, owes'⟩
      by_contra still
      obtain ⟨held, free⟩ := less (by simpa using still)
      exact free (of_decide_eq_true held)
    · simp only [dutyDiscipline, later]
      exact ⟨rfl, folds, owes⟩

theorem closeWorkScope_obeys (context owner : Nat) (token : Option (Option Nat)) (callback : Bool) :
    Obeys (dutyDiscipline scope) (fun duty _ => Discharged duty) {} (closeWorkScope context owner token callback) := by
  have nested (chain : List Nat) : Keeps (dutyDiscipline scope) (fun duty => duty = {}) (closeNested owner chain) := by
    refine keeps_ite _ (keeps_foldlM (fun _ inner _ => ?_) ()) (keeps_ret ())
    rintro duty rfl
    exact ⟨trivial, fun _ _ => rfl⟩
  simp only [closeWorkScope, workCommand, perform_bind, obeys_call, obeys_bind]
  refine ⟨trivial, fun chain _ => ?_⟩
  refine (nested chain {} rfl).mono ?_
  rintro duty ⟨⟩ rfl
  cases token with
  | none => exact ⟨trivial, fun answer _ => ⟨rfl, rfl, rfl⟩⟩
  | some => exact ⟨trivial, fun _ _ => ⟨trivial, fun answer _ => ⟨rfl, rfl, rfl⟩⟩⟩

theorem workProgram_obeys {program : WorkProg (Option WorkSummary)} (starts : WorkProgram program) :
    Obeys (dutyDiscipline scope) (fun duty _ => Discharged duty) {} program := by
  cases starts with
  | opens =>
    exact ⟨trivial, fun chain _ => ⟨trivial, fun fresh _ => ⟨trivial, fun _ _ => ⟨rfl, rfl, rfl⟩⟩⟩⟩
  | records context future origin =>
    rw [obeys_bind]
    exact (recordAbandoned_obeys context future origin).mono fun _ _ done => done
  | ends future failed =>
    rw [obeys_bind]
    exact (endFuture_obeys future failed).mono fun _ _ done => done
  | closes context owner token callback => exact closeWorkScope_obeys context owner token callback

end

/-- A record is about to register it, its end will run a callback, or a thread is about to fold it. -/
def Covers (scope : Nat) (world : WorkWorld) (locals : List Duty) (future : Nat) : Prop :=
  (∃ duty ∈ locals, duty.adds = some future) ∨
    (world.ended future = none ∧ ∃ holders ∈ world.callbacks future, scope ∈ holders) ∨
    ∃ duty ∈ locals, duty.handles = some future ∧ duty.folds = true

section

variable {scope : Nat} {world : WorkWorld} {locals : List Duty} {thread future : Nat} {duty : Duty} {call : WorkCall}

def dutyAfter (scope : Nat) (world : WorkWorld) (duty : Duty) (call : WorkCall) : Duty :=
  (dutyDiscipline scope).after duty call (WorkWorld.exec call world).2

section

variable (located : locals[thread]? = some duty)

include located

theorem covers_adds (may : (dutyDiscipline scope).may duty call) (adds : duty.adds = some future) :
    Covers scope (exec call world).1 (locals.set thread (dutyAfter scope world duty call) ++ []) future := by
  have still (kept : (dutyAfter scope world duty call).adds = some future) :
      Covers scope (exec call world).1 (locals.set thread (dutyAfter scope world duty call) ++ [])
        future := Or.inl ⟨_, Pool.mem_after located _, kept⟩
  cases call with
  | add =>
    refine still ?_
    simp only [dutyAfter, dutyDiscipline]
    split
    · rename_i here
      simp [may here.1 future adds]
    · exact adds
  | addDoneCallback other holders =>
    -- Registered: the callback is there for its end, or this thread runs it at once.
    obtain ⟨_, own⟩ := may
    obtain ⟨rfl, held⟩ := own future adds
    by_cases known : (world.ended future).isSome = true
    · refine .inr (Or.inr ⟨_, Pool.mem_after located _, ?_⟩)
      simp [dutyAfter, dutyDiscipline, exec, known, held]
    · refine .inr (Or.inl ?_)
      have running : world.ended future = none := by simpa using known
      simp only [exec, known, Bool.false_eq_true, if_false]
      exact ⟨running, holders, by simp, held⟩
  | fold owner other | settle owner summary =>
    refine still ?_
    simp only [dutyAfter, dutyDiscipline]
    split <;> exact adds
  | _ => exact still adds

theorem covers_registered (runs : world.ended future = none)
    {holders : List Nat} (registered : holders ∈ world.callbacks future) (held : scope ∈ holders) :
    Covers scope (exec call world).1 (locals.set thread (dutyAfter scope world duty call) ++ []) future := by
  have still (same : (exec call world).1.ended = world.ended) (kept : holders ∈ (exec call world).1.callbacks future) :
      Covers scope (exec call world).1 (locals.set thread (dutyAfter scope world duty call) ++ [])
        future := Or.inr (Or.inl ⟨by rw [same, runs], holders, kept, held⟩)
  cases call with
  | add
  | fold
  | close => exact still ended_onScope (by simpa [exec, callbacks_onScope] using registered)
  | addDoneCallback other =>
    by_cases known : (world.ended other).isSome = true
    · exact still (by simp [exec, known]) (by simpa [exec, known] using registered)
    · refine still (by simp [exec, known]) ?_
      simp only [exec, known, Bool.false_eq_true, if_false]
      by_cases same : future = other
      · subst same
        simp [registered]
      · simpa [Function.update_of_ne same] using registered
  | finish other =>
    by_cases known : (world.ended other).isSome = true
    · exact still (by simp [exec, known]) (by simpa [exec, known] using registered)
    · by_cases same : future = other
      · -- The end runs the callback on this thread.
        subst same
        refine .inr (Or.inr ⟨_, Pool.mem_after located _, ?_⟩)
        simp only [dutyAfter, dutyDiscipline, exec, known, Bool.false_eq_true, if_false,
          List.any_eq_true, decide_eq_true_eq, true_and]
        exact ⟨holders, registered, held⟩
      · refine .inr (Or.inl ?_)
        simp only [exec, known, Bool.false_eq_true, if_false, Function.update_of_ne same]
        exact ⟨runs, holders, registered, held⟩
  | _ => exact still rfl registered

variable (may : (dutyDiscipline scope).may duty call)

include may

theorem covers_handles (handles : duty.handles = some future) (folds : duty.folds = true)
    (other : call ≠ .fold scope future) :
    Covers scope (exec call world).1 (locals.set thread (dutyAfter scope world duty call) ++ []) future := by
  refine .inr (Or.inr ⟨_, Pool.mem_after located _, ?_⟩)
  cases call with
  | add owner added origin | settle owner summary =>
    simp only [dutyAfter, dutyDiscipline]
    split <;> exact ⟨handles, folds⟩
  | addDoneCallback =>
    obtain ⟨idle, _⟩ := may
    simp [folds] at idle
  | finish =>
    have idle : duty.folds = false := may
    simp [folds] at idle
  | fold =>
    simp only [dutyAfter, dutyDiscipline]
    split
    · rename_i same
      have handled := (may same).1
      rw [handles, Option.some.injEq] at handled
      exact absurd (by rw [same, handled]) other
    · exact ⟨handles, folds⟩
  | _ => exact ⟨handles, folds⟩

theorem covers_step (covers : Covers scope world locals future) (other : call ≠ .fold scope future) :
    Covers scope (exec call world).1 (locals.set thread (dutyAfter scope world duty call) ++ []) future := by
  rcases covers with adding | ⟨runs, holders, registered, held⟩ | handling
  · rcases Pool.exists_after located (dutyAfter scope world duty call) adding with own | elsewhere
    · exact covers_adds located may own
    · exact .inl elsewhere
  · exact covers_registered located runs registered held
  · rcases Pool.exists_after located (dutyAfter scope world duty call) handling with ⟨handles, folds⟩ | elsewhere
    · exact covers_handles located may handles folds other
    · exact .inr (Or.inr elsewhere)

end

theorem running_after {hold : Hold} {move : Move} (running : ((hold.after move).scope.running.find future).isSome) :
    ((hold.scope.running.find future).isSome ∧ move ≠ folds future) ∨ ∃ origin, move = adds future origin := by
  cases move with
  | stays | ends other failed => exact .inl ⟨running, by simp⟩
  | opens => simp [after] at running
  | adds other origin =>
    by_cases same : other = future
    · exact .inr ⟨origin, by rw [same]⟩
    · refine .inl ⟨?_, by simp⟩
      simpa [after, Table.find_put, same] using running
  | folds other =>
    rcases folds_cases hold other with ⟨absent, same⟩ | ⟨entry, _, _, _, erased, _⟩
    · rw [same] at running
      refine .inl ⟨running, ?_⟩
      rintro ⟨⟩
      simp [absent] at running
    · rw [erased, Table.find_erase] at running
      by_cases same : other = future
      · simp [same] at running
      · rw [if_neg same] at running
        exact .inl ⟨running, by simpa using same⟩
  | closes =>
    rw [after, (close_keeps hold.scope false).2.1] at running
    exact .inl ⟨running, by simp⟩
  | returns =>
    rw [after, (close_keeps hold.scope true).2.1] at running
    exact .inl ⟨running, by simp⟩

end

end Baldur.Work
