import Baldur.Lib.Slots
import Baldur.RateLimit.AnnouncerCore

/-!
The all-clear is never announced early. A pass holds the expiry a record was due with; a local 429 that began
since proposes a later one, so its `track` changes the record and the removal does not happen.
-/

namespace Baldur.RateLimit

open Announcer CallStage List Option RateLimit.System

variable {system next : System} {index : Nat} {key name : String} {stage moved : CallStage}
  {since log older : List Event} {event : Event}

def Event.extends (key : String) : Event → Bool
  | .extended _ other => decide (other = key)
  | _ => false

def System.passedOn (system : System) : Bool :=
  match system.pass with
  | some pass => Decidable.decide (pass.current < system.clock)
  | none => true

def System.untouched (system : System) (pending : PendingClear) : Bool :=
  (system.log.take (system.log.length - pending.since)).all fun event => !event.extends pending.key

/-- Every 429 begins before its own candidate has passed, and no local 429 of the key comes
between the two steps of an operator's clear at the clock reading of a running pass. -/
def System.orderly (system : System) : Action → Bool
  | .begin call =>
      match system.calls[call]? with
      | some ⟨_, .computed candidate⟩ => Decidable.decide (system.clock < candidate)
      | _ => true
  | .reverify clear =>
      match system.clears[clear]? with
      | some pending => system.passedOn || system.untouched pending
      | none => true
  | _ => true

def System.orderlyRun : System → List Action → Bool
  | _, [] => true
  | system, action :: rest => system.orderly action && (system.step action).orderlyRun rest

/-! The in-flight marks count the local 429s between `begin` and `track`. -/

def Local429.inFlightOn (key : String) (call : Local429) : Bool :=
  decide (call.key = key) && call.stage.inFlight

structure Counted (system : System) : Prop where
  counted : ∀ key, system.announcer.inFlight key = system.calls.countP (·.inFlightOn key)
  accounted : ∀ index key, .began index key ∈ system.log →
    .tracked index key ∈ system.log ∨ ∃ call, system.calls[index]? = some call ∧ call.inFlightOn key = true

attribute [local simp] Local429.inFlightOn

theorem Counted.move (counted : Counted system) (found : system.calls[index]? = some ⟨key, stage⟩)
    (calls : next.calls = system.calls.set index ⟨key, moved⟩)
    (marks : ∀ other, next.announcer.inFlight other + (Local429.inFlightOn other ⟨key, stage⟩).toNat =
      system.announcer.inFlight other + (Local429.inFlightOn other ⟨key, moved⟩).toNat)
    (kept : ∀ event ∈ system.log, event ∈ next.log)
    (began : ∀ other name, .began other name ∈ next.log →
      .began other name ∈ system.log ∨ other = index ∧ name = key ∧ moved.inFlight = true)
    (closed : moved.inFlight = true ∨ stage.inFlight = false ∨ .tracked index key ∈ next.log) :
    Counted next := by
  refine ⟨?_, ?_⟩
  · intro other
    have moving := Slots.countP_set system.calls index ⟨key, moved⟩ found (·.inFlightOn other)
    have mark := marks other
    rw [calls]
    have before := counted.counted other
    omega
  · intro other name noted
    have inRange : index < system.calls.length := (List.getElem?_eq_some_iff.mp found).1
    rcases began other name noted with old | ⟨rfl, rfl, flying⟩
    · rcases counted.accounted other name old with tracked | ⟨call, there, flying⟩
      · exact .inl (kept _ tracked)
      · by_cases same : other = index
        · subst same
          rw [found, some.injEq] at there
          subst there
          simp only [Local429.inFlightOn, Bool.and_eq_true, decide_eq_true_eq] at flying
          obtain ⟨rfl, flying⟩ := flying
          rcases closed with still | grounded | tracked
          · exact .inr ⟨⟨key, moved⟩, by rw [calls, getElem?_set_self inRange],
              by simp [still]⟩
          · rw [grounded] at flying
            cases flying
          · exact .inl tracked
        · refine .inr ⟨call, ?_, flying⟩
          rw [calls, getElem?_set_ne (Ne.symm same)]
          exact there
    · exact .inr ⟨⟨name, moved⟩, by rw [calls, getElem?_set_self inRange],
        by simp [flying]⟩

theorem Counted.of_same (counted : Counted system) (marks : next.announcer.inFlight = system.announcer.inFlight)
    (calls : next.calls = system.calls)
    (kept : ∀ event ∈ system.log, event ∈ next.log)
    (began : ∀ index key, .began index key ∈ next.log → .began index key ∈ system.log) :
    Counted next := by
  refine ⟨?_, ?_⟩
  · intro key
    rw [marks, calls]
    exact counted.counted key
  · intro index key noted
    rw [calls]
    exact (counted.accounted index key (began index key noted)).imp_left (kept _)

def CallStage.Past (current : ℚ) : CallStage → Prop
  | .begun candidate => current < candidate
  | .extended recorded => current < recorded
  | _ => True

def Pass.Concerns (pass : Pass) (record : Record) : Prop :=
  record ∈ pass.todo ∨ ∃ verifying, pass.verifying = some verifying ∧ verifying.record = record

/-- Every extension of the key was cleared again, unless its call has still to track it. -/
def Recalled (key : String) (calls : List Local429) (since : List Event) : Prop :=
  ∀ index later earlier, since = later ++ .extended index key :: earlier →
    .cleared key ∈ later ∨ ∃ recorded, calls[index]? = some ⟨key, .extended recorded⟩

def NoRead (events : List Event) : Prop :=
  ∀ key expiry reading, .read key expiry reading ∉ events

/-- While the record is the one the pass found due, the store holds nothing its read has not seen. -/
def System.Recalls (system : System) (record : Record) (since : List Event) : Prop :=
  system.announcer.stopped = false → system.announcer.records.find record.key = some record →
    Recalled record.key system.calls since

def Watched (system : System) (current : ℚ) (verifying : Verifying) : Prop :=
  ∃ since clock older,
    system.log = since ++ .read verifying.record.key verifying.storedUntil clock :: older ∧
    NoRead since ∧ current ≤ clock ∧ system.Recalls verifying.record since

structure PassOk (system : System) (pass : Pass) : Prop where
  started : pass.current ≤ system.clock
  due : ∀ record, pass.Concerns record → record.expiry ≤ pass.current
  past : ∀ record, pass.Concerns record → ∀ call ∈ system.calls, call.key = record.key → call.stage.Past pass.current
  watched : ∀ verifying, pass.verifying = some verifying → Watched system pass.current verifying

theorem Recalled.cons {calls : List Local429}
    (recalled : Recalled key calls since) (other : ∀ index, event ≠ .extended index key) :
    Recalled key calls (event :: since) := by
  intro index later earlier split
  rcases cons_eq_append_iff.mp split with ⟨_, same⟩ | ⟨later, rfl, rest⟩
  · exact absurd (cons.inj same).1.symm (other index)
  · exact (recalled index later earlier rest).imp_left (mem_cons_of_mem _)

theorem Recalled.extended {calls : List Local429} {recorded : ℚ} (recalled : Recalled key calls since)
    (here : calls[index]? = some ⟨name, .extended recorded⟩) :
    Recalled key calls (.extended index name :: since) := by
  intro other later earlier split
  rcases cons_eq_append_iff.mp split with ⟨_, same⟩ | ⟨later, rfl, rest⟩
  · cases same
    exact .inr ⟨recorded, here⟩
  · exact (recalled other later earlier rest).imp_left (mem_cons_of_mem _)

theorem Recalled.calls {calls next : List Local429} (recalled : Recalled key calls since)
    (kept : ∀ (index : Nat) recorded, calls[index]? = some ⟨key, .extended recorded⟩ →
      next[index]? = some ⟨key, .extended recorded⟩) : Recalled key next since := by
  intro index later earlier split
  refine (recalled index later earlier split).imp_right ?_
  rintro ⟨recorded, found⟩
  exact ⟨recorded, kept index recorded found⟩

theorem PassOk.keep {pass : Pass} (ok : PassOk system pass) (clock : system.clock ≤ next.clock)
    (past : ∀ record, pass.Concerns record → ∀ call ∈ next.calls, call.key = record.key → call.stage.Past pass.current)
    (added : List Event) (log : next.log = added ++ system.log) (silent : NoRead added)
    (cleared : ∀ verifying since older, pass.verifying = some verifying → system.Recalls verifying.record since →
      system.log = since ++ older → next.Recalls verifying.record (added ++ since)) : PassOk next pass := by
  refine ⟨ok.started.trans clock, ok.due, past, ?_⟩
  intro verifying here
  obtain ⟨since, reading, older, split, quiet, later, recalled⟩ := ok.watched verifying here
  refine ⟨added ++ since, reading, older, ?_, ?_, later, cleared verifying since _ here recalled split⟩
  · rw [log, split, append_assoc]
  · intro key expiry clock member
    rcases mem_append.mp member with fresh | old
    · exact silent key expiry clock fresh
    · exact quiet key expiry clock old

def ClearsOk (system : System) : Prop :=
  ∀ pending ∈ system.clears, ∃ recent tail,
    system.log = recent ++ .cleared pending.key :: tail ∧ tail.length + 1 = pending.since

structure Invariant (system : System) : Prop where
  counted : Counted system
  clears : ClearsOk system
  passing : ∀ pass, system.pass = some pass → PassOk system pass
  early : NeverEarly system.log

theorem NeverEarly.cons (early : NeverEarly log) (other : ∀ key, event ≠ .removed key) : NeverEarly (event :: log) := by
  intro key later before split
  rcases cons_eq_append_iff.mp split with ⟨_, same⟩ | ⟨later, rfl, rest⟩
  · exact absurd (cons.inj same).1.symm (other key)
  · exact early key later before rest

theorem ClearsOk.grow (ok : ClearsOk system)
    (clears : ∀ pending ∈ next.clears, pending ∈ system.clears) (added : List Event)
    (log : next.log = added ++ system.log) : ClearsOk next := by
  intro pending member
  obtain ⟨recent, tail, split, length⟩ := ok pending (clears pending member)
  exact ⟨added ++ recent, tail, by rw [log, split, append_assoc], length⟩

theorem Invariant.start (clock : ℚ) (storage : Storage) : Invariant (.start clock storage) := by
  refine ⟨⟨?_, ?_⟩, ?_, ?_, ?_⟩
  · intro key
    rfl
  · intro index key noted
    cases noted
  · intro pending member
    cases member
  · intro pass running
    cases running
  · intro key later before split
    cases later <;> cases split

section

variable {current expiry : ℚ} {announcer : Announcer} {record : Record} {system : System}

theorem past_set {calls : List Local429} (past : ∀ call ∈ calls, call.key = name → call.stage.Past current)
    (fresh : key = name → moved.Past current) :
    ∀ call ∈ calls.set index ⟨key, moved⟩, call.key = name → call.stage.Past current := by
  intro call member named
  rcases mem_or_eq_of_mem_set member with old | same
  · exact past call old named
  · rw [same] at named ⊢
    exact fresh named

theorem kept_set {calls : List Local429} (found : calls[index]? = some ⟨key, stage⟩)
    (other : key = name → ∀ recorded, stage ≠ .extended recorded) :
    ∀ (place : Nat) recorded, calls[place]? = some ⟨name, .extended recorded⟩ →
      (calls.set index ⟨key, moved⟩)[place]? = some ⟨name, .extended recorded⟩ := by
  intro place recorded there
  by_cases same : place = index
  · subst same
    rw [found, some.injEq, Local429.mk.injEq] at there
    exact absurd there.2 (other there.1 recorded)
  · rw [getElem?_set_ne (Ne.symm same)]
    exact there

attribute [local simp] NoRead Announcer.setInFlight

section

variable (holds : Invariant system)

include holds

theorem Invariant.tick (reading : ℚ) : Invariant (system.step (.tick reading)) := by
  refine ⟨{ holds.counted with }, holds.clears, ?_, holds.early⟩
  intro pass running
  have ok := holds.passing pass running
  exact ok.keep (le_max_left _ _) ok.past [] rfl (by simp) (fun _ _ _ _ recalled _ => recalled)

theorem Invariant.arrive (key : String) (delay : ℚ) : Invariant (system.step (.arrive key delay)) := by
  simp only [System.step]
  split
  · refine ⟨⟨?_, ?_⟩, holds.clears, ?_, holds.early⟩
    · intro other
      simp [holds.counted.counted other, CallStage.inFlight]
    · intro index other noted
      refine (holds.counted.accounted index other noted).imp_right ?_
      rintro ⟨call, found, flying⟩
      exact ⟨call, Slots.found_append found, flying⟩
    · intro pass running
      have ok := holds.passing pass running
      refine ok.keep (le_refl _) ?_ [] rfl (by simp) ?_
      · intro record concerned call member sameKey
        rcases List.mem_append.mp member with old | fresh
        · exact ok.past record concerned call old sameKey
        · rw [List.mem_singleton.mp fresh]
          trivial
      · intro _ _ _ _ recalled _ running same
        refine (recalled running same).calls ?_
        intro index recorded found
        exact Slots.found_append found
  · exact holds

theorem Invariant.goesOn (found : system.calls[index]? = some ⟨key, stage⟩)
    (announcer : Announcer) (storage : Storage) (event : Event)
    (marks : ∀ other, announcer.inFlight other + (Local429.inFlightOn other ⟨key, stage⟩).toNat =
      system.announcer.inFlight other + (Local429.inFlightOn other ⟨key, moved⟩).toNat)
    (own : event = .began index key ∧ moved.inFlight = true ∨ event = .extended index key ∨ event = .tracked index key)
    (closed : moved.inFlight = true ∨ event = .tracked index key)
    (past : ∀ pass, PassOk system pass → ∀ record, pass.Concerns record → key = record.key → moved.Past pass.current)
    (recalls : ∀ pass, PassOk system pass → ∀ verifying since, pass.verifying = some verifying →
      system.Recalls verifying.record since →
      ({ system with announcer }.setCall index ⟨key, moved⟩).Recalls verifying.record (event :: since)) :
    Invariant (({ system with announcer, storage }.setCall index ⟨key, moved⟩).note event) := by
  refine ⟨holds.counted.move found rfl marks (fun _ => mem_cons_of_mem _) ?_ ?_,
    holds.clears.grow (fun _ member => member) [event] rfl, ?_, holds.early.cons ?_⟩
  · intro other name noted
    rcases mem_cons.mp noted with rfl | old
    · exact .inr (by simpa [and_assoc] using own)
    · exact .inl old
  · refine closed.imp_right fun tracked => ?_
    rw [tracked]
    exact .inr mem_cons_self
  · intro pass running
    have ok := holds.passing pass running
    refine ok.keep (le_refl _) (fun record concerned => ?_) [event] rfl ?_ ?_
    · exact past_set (ok.past record concerned) (past pass ok record concerned)
    · rcases own with ⟨rfl, _⟩ | rfl | rfl <;> simp
    · intro verifying since _ here recalled _
      exact recalls pass ok verifying since here recalled
  · rcases own with ⟨rfl, _⟩ | rfl | rfl <;> simp

theorem Invariant.begin (index : Nat)
    (orderly : system.orderly (.begin index) = true) : Invariant (system.step (.begin index)) := by
  simp only [System.step, System.begin]
  split
  · rename_i key candidate found
    simp only [System.orderly, found, decide_eq_true_eq] at orderly
    refine holds.goesOn found _ _ _ ?_ (.inl ⟨rfl, rfl⟩) (.inl rfl) ?_ ?_
    · intro other
      by_cases same : other = key
      · subst same
        simp [Announcer.begin, CallStage.inFlight]
      · simp [Announcer.begin, same, Ne.symm same]
    · intro pass ok _ _ _
      exact ok.started.trans_lt orderly
    · intro _ _ _ _ _ recalled stopped same
      refine ((recalled stopped same).calls ?_).cons (by simp)
      exact kept_set found (by simp)
  · exact holds

end

theorem Invariant.extend (holds : Invariant system) (index : Nat) : Invariant (system.step (.extend index)) := by
  simp only [System.step, System.extend]
  split
  · rename_i key candidate found
    refine holds.goesOn found _ _ _ (fun _ => rfl) (.inr (.inl rfl)) (.inl rfl) ?_ ?_
    · intro pass ok record concerned sameKey
      have ahead : pass.current < candidate :=
        ok.past record concerned _ (List.mem_of_getElem? found) sameKey
      simp [CallStage.Past, Storage.extendCooldown, Storage.put, Storage.getState, ahead]
    · intro _ _ _ _ _ recalled stopped same
      have inRange := (List.getElem?_eq_some_iff.mp found).1
      exact ((recalled stopped same).calls (kept_set found (by simp))).extended (List.getElem?_set_self inRange)
  · exact holds

theorem Invariant.extendRaises (holds : Invariant system) (index : Nat) :
    Invariant (system.step (.extendRaises index)) := by
  simp only [System.step, System.extendRaises]
  split
  · rename_i key candidate found
    refine ⟨holds.counted.move found rfl ?_ ?_ ?_ (.inl rfl), ?_, ?_, holds.early⟩
    · intro other
      rfl
    · intro event member
      exact member
    · intro other name noted
      exact .inl noted
    · exact holds.clears.grow (fun _ member => member) [] rfl
    · intro pass running
      have ok := holds.passing pass running
      refine ok.keep (le_refl _) ?_ [] rfl (by simp) ?_
      · intro record concerned
        exact past_set (ok.past record concerned) (fun _ => trivial)
      · intro _ _ _ _ recalled _ stopped same
        exact (recalled stopped same).calls (kept_set found (by simp))
  · exact holds

theorem Announcer.marks_track (announcer : Announcer) (key : String) (expiry : Option ℚ) (other : String) :
    (announcer.track key expiry).inFlight other =
      if other = key then announcer.inFlight key - 1 else announcer.inFlight other := by
  cases expiry with
  | none => rfl
  | some =>
    simp only [track]
    split <;> rfl

section

variable (holds : Invariant system)

include holds

theorem marks_release (found : system.calls[index]? = some ⟨key, stage⟩) (flying : stage.inFlight = true)
    (expiry : Option ℚ) (other : String) :
    (system.announcer.track key expiry).inFlight other + (Local429.inFlightOn other ⟨key, stage⟩).toNat =
      system.announcer.inFlight other + (Local429.inFlightOn other ⟨key, .tracked⟩).toNat := by
  rw [Announcer.marks_track]
  by_cases same : other = key
  · subst same
    have positive : 0 < system.calls.countP (·.inFlightOn other) :=
      List.countP_pos_iff.mpr ⟨_, List.mem_of_getElem? found, by simp [flying]⟩
    rw [← holds.counted.counted other] at positive
    have up : Local429.inFlightOn other ⟨other, stage⟩ = true := by
      simp [flying]
    have down : Local429.inFlightOn other ⟨other, .tracked⟩ = false := by
      simp [CallStage.inFlight]
    simp only [if_true, up, down, Bool.toNat_true, Bool.toNat_false]
    omega
  · simp [same, Ne.symm same]

theorem Invariant.track (index : Nat) : Invariant (system.step (.track index)) := by
  simp only [System.step, System.track]
  split
  · rename_i key recorded found
    refine holds.goesOn found _ _ _ (marks_release holds found rfl _) (.inr (.inr rfl)) (.inr rfl)
      (fun _ _ _ _ _ => trivial) ?_
    intro pass ok verifying since here recalled running same
    by_cases sameKey : key = verifying.record.key
    · -- the tracked expiry lies after the reading of the pass, the due one does not
      have concerned : pass.Concerns verifying.record := .inr ⟨verifying, here, rfl⟩
      have ahead : pass.current < recorded :=
        ok.past _ concerned _ (List.mem_of_getElem? found) sameKey
      have due := ok.due _ concerned
      simp only [setCall, Announcer.track] at running same
      split at same
      · rename_i halted
        rw [if_pos halted] at running
        exact absurd (running.symm.trans halted) (by simp)
      · subst sameKey
        rw [Table.find_put, if_pos rfl, Option.some.injEq] at same
        rw [← same] at due
        exact absurd (due.trans_lt ahead) (lt_irrefl _)
    · have unchanged : (system.announcer.track key (some recorded)).records.find
          verifying.record.key = system.announcer.records.find verifying.record.key := by
        simp only [Announcer.track]
        split
        · rfl
        · simp [Table.find_put, sameKey]
      have stopped : (system.announcer.track key (some recorded)).stopped = system.announcer.stopped := by
        simp only [Announcer.track]
        split <;> rfl
      refine ((recalled (stopped ▸ running) (unchanged ▸ same)).calls ?_).cons (by simp)
      exact kept_set found (fun hit => absurd hit sameKey)
  · rename_i key found
    refine holds.goesOn found _ _ _ (marks_release holds found rfl none) (.inr (.inr rfl)) (.inr rfl)
      (fun _ _ _ _ _ => trivial) ?_
    intro _ _ _ _ _ recalled running same
    refine ((recalled running same).calls ?_).cons (by simp)
    exact kept_set found (by simp)
  · exact holds

theorem Invariant.cleared (key : String)
    (announcer : next.announcer = system.announcer) (calls : next.calls = system.calls)
    (pass : next.pass = system.pass) (clock : next.clock = system.clock)
    (log : next.log = .cleared key :: system.log)
    (clears : ClearsOk next) : Invariant next := by
  refine ⟨holds.counted.of_same (by rw [announcer]) calls ?_ ?_, clears, ?_, ?_⟩
  · intro event member
    rw [log]
    exact mem_cons_of_mem _ member
  · intro index name noted
    simpa [log] using noted
  · intro running same
    rw [pass] at same
    have ok := holds.passing running same
    refine ok.keep (le_of_eq clock.symm) (by rw [calls]; exact ok.past) [.cleared key] log (by simp) ?_
    intro _ _ _ _ recalled _ stopped found
    rw [calls]
    rw [announcer] at stopped found
    exact (recalled stopped found).cons (by simp)
  · rw [log]
    exact holds.early.cons (by simp)

theorem Invariant.peer (change : Change) : Invariant (system.step (.peer change)) := by
  have stored (storage : Storage) : Invariant { system with storage := storage } := by
    refine ⟨{ holds.counted with }, holds.clears, ?_, holds.early⟩
    intro pass running
    have ok := holds.passing pass running
    exact { ok with }
  cases change with
  | clear key =>
    exact holds.cleared key rfl rfl rfl rfl rfl (holds.clears.grow (fun _ member => member) [_] rfl)
  | _ => exact stored _

theorem Invariant.clear (key : String) : Invariant (system.step (.clear key)) := by
  refine holds.cleared key rfl rfl rfl rfl rfl ?_
  intro pending member
  rcases mem_append.mp member with old | fresh
  · obtain ⟨recent, tail, split, length⟩ := holds.clears pending old
    exact ⟨.cleared key :: recent, tail, by rw [cons_append, ← split]; rfl, length⟩
  · rw [mem_singleton.mp fresh]
    exact ⟨[], system.log, rfl, rfl⟩

end

theorem recalled_of_untouched {pending : PendingClear} {recent tail : List Event} (log : system.log = since ++ older)
    (split : system.log = recent ++ .cleared pending.key :: tail)
    (length : tail.length + 1 = pending.since)
    (untouched : system.untouched pending = true) :
    Recalled pending.key system.calls since := by
  have taken : system.log.take (system.log.length - pending.since) = recent := by
    have short : system.log.length - pending.since = recent.length := by
      rw [split, ← length]
      simp
    rw [short, split, List.take_left]
  simp only [System.untouched, taken, List.all_eq_true, Bool.not_eq_true'] at untouched
  intro index later earlier cut
  refine .inl ?_
  have whole : recent ++ .cleared pending.key :: tail =
      later ++ (.extended index pending.key :: (earlier ++ older)) := by
    rw [← split, log, cut]
    simp
  rcases List.append_eq_append_iff.mp whole with ⟨gap, laterIs, rest⟩ | ⟨gap, recentIs, rest⟩
  · cases gap with
    | nil => simp at rest
    | cons =>
      simp only [List.cons_append, List.cons.injEq] at rest
      rw [laterIs, ← rest.1]
      simp
  · cases gap with
    | nil => simp at rest
    | cons =>
      simp only [List.cons_append, List.cons.injEq] at rest
      have here := untouched (.extended index pending.key) (by rw [recentIs, ← rest.1]; simp)
      simp [Event.extends] at here

theorem Announcer.stopped_reverify (announcer : Announcer) (key : String) (clock : ℚ) :
    (announcer.reverify key clock).stopped = announcer.stopped ∧
      (announcer.reverify key clock).inFlight = announcer.inFlight := by
  simp only [reverify]
  split <;> exact ⟨rfl, rfl⟩

theorem Announcer.find_reverify {clock : ℚ}
    (found : (announcer.reverify key clock).records.find record.key = some record) :
    announcer.records.find record.key = some record ∨ record.key = key ∧ record.expiry = clock := by
  simp only [reverify] at found
  split at found
  · exact .inl found
  · rename_i old there
    rw [Table.find_put] at found
    by_cases same : key = record.key
    · rw [if_pos same, some.injEq] at found
      rcases le_total old.expiry clock with early | late
      · left
        rw [min_eq_left early] at found
        have named : old.key = key := Table.key_of_find there
        have unchanged : old = record := by
          rw [← found, ← named]
        rw [← same, ← unchanged]
        exact there
      · right
        rw [min_eq_right late] at found
        exact ⟨same.symm, by rw [← found]⟩
    · rw [if_neg same] at found
      exact .inl found

theorem Invariant.reverify (holds : Invariant system) (index : Nat)
    (orderly : system.orderly (.reverify index) = true) :
    Invariant (system.step (.reverify index)) := by
  simp only [System.step, System.reverify]
  split
  · exact holds
  · rename_i pending found
    simp only [System.orderly, found, Bool.or_eq_true] at orderly
    obtain ⟨stopped, marks⟩ :=
      Announcer.stopped_reverify system.announcer pending.key system.clock
    refine ⟨holds.counted.of_same marks rfl (fun _ member => member) (fun _ _ noted => noted),
      holds.clears.grow (fun _ member => List.mem_of_mem_eraseIdx member) [] rfl, ?_, holds.early⟩
    intro pass running
    have ok := holds.passing pass running
    refine ok.keep (le_refl _) ok.past [] rfl (by simp) ?_
    intro verifying since older here recalled log running' same
    rcases Announcer.find_reverify same with before | ⟨named, reached⟩
    · exact recalled (stopped ▸ running') before
    · -- the due record equals the clock, so the clock still shows the reading of the pass
      have due := ok.due verifying.record (.inr ⟨verifying, here, rfl⟩)
      rw [reached] at due
      rcases orderly with passedOn | untouched
      · have running : system.pass = some pass := running
        simp only [System.passedOn, running, decide_eq_true_eq] at passedOn
        exact absurd (due.trans_lt passedOn) (lt_irrefl _)
      · obtain ⟨recent, tail, split, length⟩ :=
          holds.clears pending (List.mem_of_getElem? found)
        rw [named]
        exact recalled_of_untouched log split length untouched

theorem Announcer.mem_dueRecords {now : ℚ} (member : record ∈ (announcer.dueRecords now).1) :
    record.expiry ≤ now ∧ announcer.inFlight record.key = 0 := by
  simp only [dueRecords] at member
  split at member
  · cases member
  · split at member
    · cases member
    · split at member
      · cases member
      · have listed := mem_append.mp member
        have sorted := listed.elim mem_of_mem_drop mem_of_mem_take
        rw [mem_insertionSort, mem_filter] at sorted
        simpa using sorted.2

theorem Announcer.dueRecords_same (announcer : Announcer) (now : ℚ) :
    (announcer.dueRecords now).2.inFlight = announcer.inFlight := by
  simp only [dueRecords]
  split
  · rfl
  · split
    · rfl
    · split <;> rfl

section

variable {anyDue : Bool} {todo : List Record} {verifying : Verifying} (holds : Invariant system)

include holds

theorem Invariant.passStart : Invariant (system.step .passStart) := by
  simp only [System.step, System.passStart]
  split
  · exact holds
  · refine ⟨holds.counted.of_same (Announcer.dueRecords_same _ _) rfl (fun _ member => member)
      (fun _ _ noted => noted), holds.clears, ?_, holds.early⟩
    intro pass running
    simp only [Option.some.injEq] at running
    subst running
    have listed (record : Record) : (Pass.mk system.clock
        (!(system.announcer.dueRecords system.clock).1.isEmpty)
        (system.announcer.dueRecords system.clock).1 none).Concerns record →
        record.expiry ≤ system.clock ∧ system.announcer.inFlight record.key = 0 := by
      rintro (member | ⟨_, impossible, _⟩)
      · exact Announcer.mem_dueRecords member
      · cases impossible
    refine ⟨le_refl _, fun record concerned => (listed record concerned).1, ?_, ?_⟩
    · intro record concerned call member named
      have grounded := (listed record concerned).2
      rw [holds.counted.counted, List.countP_eq_zero] at grounded
      have idle := grounded call member
      cases stage : call.stage with
      | begun
      | extended => simp [named, stage, CallStage.inFlight] at idle
      | _ => trivial
    · intro verifying impossible
      cases impossible

theorem Invariant.read : Invariant (system.step .read) := by
  simp only [System.step, System.read]
  split
  · rename_i current anyDue record todo running
    have ok := holds.passing _ running
    refine ⟨holds.counted.of_same rfl rfl ?_ ?_, ?_, ?_, ?_⟩
    · intro event member
      exact List.mem_cons_of_mem _ member
    · intro index name noted
      simpa [System.note] using noted
    · exact holds.clears.grow (fun _ member => member) [_] rfl
    · intro pass same
      simp only [System.note, Option.some.injEq] at same
      subst same
      have concerns (other : Record) (concerned : (Pass.mk current anyDue todo (some ⟨record,
            (system.storage.getState record.key).cooldownUntil⟩)).Concerns other) :
          (Pass.mk current anyDue (record :: todo) none).Concerns other := by
        rcases concerned with member | ⟨verifying, same, rfl⟩
        · exact .inl (List.mem_cons_of_mem _ member)
        · cases same
          exact .inl (List.mem_cons_self ..)
      refine ⟨ok.started, fun other concerned => ok.due other (concerns other concerned),
        fun other concerned => ok.past other (concerns other concerned), ?_⟩
      intro verifying same
      cases same
      refine ⟨[], system.clock, system.log, rfl, by simp, ok.started, ?_⟩
      intro _ _ index later earlier split
      simp at split
    · exact holds.early.cons (by simp)
  · exact holds

theorem Invariant.unpassed (announcer : Announcer) (marks : announcer.inFlight = system.announcer.inFlight) :
    Invariant { system with announcer := announcer, pass := none } := by
  refine ⟨holds.counted.of_same marks rfl (fun _ member => member) (fun _ _ noted => noted),
    holds.clears, ?_, holds.early⟩
  intro pass running
  cases running

theorem Invariant.stop : Invariant (system.step .stop) := by
  refine ⟨{ holds.counted with }, holds.clears, ?_, holds.early⟩
  intro pass running
  have ok := holds.passing pass running
  refine ok.keep (le_refl _) ok.past [] rfl (by simp) ?_
  intro _ _ _ _ _ _ running'
  simp [System.step, Announcer.stop] at running'

theorem Invariant.decided (announcer : Announcer) (running : system.pass = some ⟨current, anyDue, todo, some verifying⟩)
    (marks : announcer.inFlight = system.announcer.inFlight) :
    Invariant { system with announcer := announcer, pass := some ⟨current, anyDue, todo, none⟩ } := by
  have ok := holds.passing _ running
  refine ⟨holds.counted.of_same marks rfl (fun _ member => member) (fun _ _ noted => noted),
    holds.clears, ?_, holds.early⟩
  intro pass same
  simp only [some.injEq] at same
  subst same
  have concerns (record : Record) (concerned : (Pass.mk current anyDue todo none).Concerns record) :
      (Pass.mk current anyDue todo (some verifying)).Concerns record := by
    rcases concerned with member | ⟨_, impossible, _⟩
    · exact .inl member
    · cases impossible
  refine ⟨ok.started, fun record concerned => ok.due record (concerns record concerned),
    fun record concerned => ok.past record (concerns record concerned), ?_⟩
  intro _ impossible
  cases impossible

theorem Invariant.verified (running : system.pass = some ⟨current, anyDue, todo, some verifying⟩)
    (passed : verifying.storedUntil ≤ current) (active : system.announcer.stopped = false)
    (idle : system.announcer.inFlight verifying.record.key = 0)
    (same : system.announcer.records.find verifying.record.key = some verifying.record) :
    Verified verifying.record.key system.log := by
  have ok := holds.passing _ running
  obtain ⟨since, clock, older, split, silent, later, recalled⟩ := ok.watched verifying rfl
  rw [holds.counted.counted, countP_eq_zero] at idle
  refine ⟨since, verifying.storedUntil, clock, older, split, silent, passed.trans later, ?_, ?_⟩
  · intro index began
    rcases holds.counted.accounted index _ began with tracked | ⟨call, found, flying⟩
    · exact tracked
    · exact absurd flying (idle call (mem_of_getElem? found))
  · intro index late early cut
    rcases recalled active same index late early cut with cleared | ⟨recorded, found⟩
    · exact cleared
    · have grounded := idle _ (List.mem_of_getElem? found)
      simp [CallStage.inFlight] at grounded

end

theorem Announcer.remove_true {next : Announcer} (removed : announcer.remove key expiry = (true, next)) :
    announcer.stopped = false ∧ announcer.inFlight key = 0 ∧
      announcer.records.find key = some ⟨key, expiry⟩ ∧ next.inFlight = announcer.inFlight := by
  simp only [remove] at removed
  split at removed
  · cases removed
  · rename_i permitted
    rw [not_or, Bool.not_eq_true, not_not] at permitted
    split at removed
    · cases removed
    · rename_i found
      cases removed
      exact ⟨permitted.1, permitted.2, not_not.mp found, rfl⟩

theorem Announcer.remove_false {next : Announcer}
    (refused : announcer.remove key expiry = (false, next)) : next = announcer := by
  simp only [remove] at refused
  split at refused
  · exact (Prod.mk.inj refused).2.symm
  · split at refused
    · exact (Prod.mk.inj refused).2.symm
    · cases refused

theorem Invariant.decide (holds : Invariant system) : Invariant (system.step .decide) := by
  simp only [System.step, System.decide]
  split
  · rename_i current anyDue todo record storedUntil running
    split
    · refine holds.decided _ running ?_
      simp only [Announcer.learn]
      split <;> rfl
    · rename_i passed
      split
      · rename_i next refused
        rw [Announcer.remove_false refused]
        exact holds.decided _ running rfl
      · rename_i next removed
        obtain ⟨active, idle, found, marks⟩ := Announcer.remove_true removed
        have verified := holds.verified running (not_lt.mp passed) active idle found
        have after := holds.decided next running marks
        refine ⟨after.counted.of_same rfl rfl ?_ ?_, ?_, ?_, ?_⟩
        · intro event member
          exact List.mem_cons_of_mem _ member
        · intro index name noted
          simpa [System.note] using noted
        · exact after.clears.grow (fun _ member => member) [_] rfl
        · intro pass same
          have ok := after.passing pass same
          refine ok.keep (le_refl _) ok.past [.removed record.key] rfl (by simp) ?_
          intro _ _ _ here
          simp only [System.note, Option.some.injEq] at same
          subst same
          cases here
        · intro key later before split
          rcases List.cons_eq_append_iff.mp split with ⟨_, same⟩ | ⟨later, rfl, rest⟩
          · cases same
            exact verified
          · exact holds.early key later before rest
  · exact holds

theorem Invariant.step (holds : Invariant system) (action : Action)
    (orderly : system.orderly action = true) : Invariant (system.step action) := by
  cases action with
  | tick reading => exact holds.tick reading
  | arrive key delay => exact holds.arrive key delay
  | begin call => exact holds.begin call orderly
  | extend call => exact holds.extend call
  | extendRaises call => exact holds.extendRaises call
  | track call => exact holds.track call
  | peer change => exact holds.peer change
  | clear key => exact holds.clear key
  | reverify clear => exact holds.reverify clear orderly
  | passStart => exact holds.passStart
  | read => exact holds.read
  | readRaises =>
    simp only [System.step, System.readRaises]
    split
    · exact holds.unpassed _ rfl
    · exact holds
  | decide => exact holds.decide
  | passEnd =>
    simp only [System.step, System.passEnd]
    split
    · exact holds.unpassed _ (by split <;> rfl)
    · exact holds
  | stop => exact holds.stop

theorem Invariant.run (actions : List Action) (holds : Invariant system)
    (orderly : system.orderlyRun actions = true) : Invariant (system.run actions) := by
  induction actions generalizing system with
  | nil => exact holds
  | cons action rest ih =>
    simp only [orderlyRun, Bool.and_eq_true] at orderly
    exact ih (holds.step action orderly.1) orderly.2

end

theorem all_clear_never_early (clock : ℚ) (storage : Storage) (actions : List Action)
    (orderly : (start clock storage).orderlyRun actions = true) :
    NeverEarly ((start clock storage).run actions).log := by
  exact ((Invariant.start clock storage).run actions orderly).early

def emptyStorage : Storage :=
  ⟨fun _ => .default⟩

def cooledDown : List Action :=
  [.arrive "api" 10, .begin 0, .extend 0, .track 0, .tick 12, .passStart, .read, .decide, .passEnd]

theorem cooled_down_announced :
    ((start 0 emptyStorage).run cooledDown).log =
        [.removed "api", .read "api" 10 12, .tracked 0 "api", .extended 0 "api", .began 0 "api"] ∧
      NeverEarly ((start 0 emptyStorage).run cooledDown).log := by
  exact ⟨by decide +kernel, all_clear_never_early 0 emptyStorage cooledDown (by decide +kernel)⟩

def lateBegin : List Action :=
  [.arrive "api" 10, .arrive "api" 10, .begin 0, .extend 0, .track 0, .peer (.clear "api"),
    .tick 12, .passStart, .read, .begin 1, .extend 1, .track 1, .decide]

def splitClear : List Action :=
  [.arrive "api" 10, .begin 0, .extend 0, .track 0, .clear "api", .reverify 0, .passStart, .read,
    .clear "api", .arrive "api" 10, .begin 1, .extend 1, .track 1, .reverify 0, .decide]

theorem not_neverEarly (after later earlier : List Event) {call : Nat} {before : List Event} {storedUntil reading : ℚ}
    (removed : log = after ++ .removed key :: before)
    (split : before = later ++ .extended call key :: earlier ++ .read key storedUntil reading :: older)
    (silent : NoRead (later ++ .extended call key :: earlier))
    (standing : .cleared key ∉ later) : ¬NeverEarly log := by
  intro early
  obtain ⟨since, expiry, clock, rest, cut, quiet, _, _, recalled⟩ := early key after before removed
  -- both are the stretch of the log after the last read
  have same : since = later ++ .extended call key :: earlier := by
    rw [split] at cut
    rcases append_eq_append_iff.mp cut with ⟨gap, longer, left⟩ | ⟨gap, shorter, left⟩
    · cases gap with
      | nil => simpa using longer
      | cons =>
        simp only [cons_append, cons.injEq] at left
        exact absurd (by rw [longer, ← left.1]; simp) (quiet key storedUntil reading)
    · cases gap with
      | nil => simpa using shorter.symm
      | cons =>
        simp only [cons_append, cons.injEq] at left
        exact absurd (by rw [shorter, ← left.1]; simp) (silent key expiry clock)
  exact standing (recalled call later earlier same)

theorem extension_announced_away :
    ¬NeverEarly ((start 0 emptyStorage).run lateBegin).log ∧
      ¬NeverEarly ((start 0 emptyStorage).run splitClear).log ∧
      ((start 0 emptyStorage).run splitClear).clock <
        (((start 0 emptyStorage).run splitClear).storage.getState "api").cooldownUntil := by
  have late : ((start 0 emptyStorage).run lateBegin).log =
      [.removed "api", .tracked 1 "api", .extended 1 "api", .began 1 "api", .read "api" 0 12,
        .cleared "api", .tracked 0 "api", .extended 0 "api", .began 0 "api"] := by
    decide +kernel
  have split : ((start 0 emptyStorage).run splitClear).log =
      [.removed "api", .tracked 1 "api", .extended 1 "api", .began 1 "api", .cleared "api",
        .read "api" 0 0, .cleared "api", .tracked 0 "api", .extended 0 "api", .began 0 "api"] := by
    decide +kernel
  refine ⟨?_, ?_, by decide +kernel⟩
  · rw [late]
    exact not_neverEarly [] [.tracked 1 "api"] [.began 1 "api"] rfl rfl (by simp [NoRead]) (by simp)
  · rw [split]
    exact not_neverEarly [] [.tracked 1 "api"] [.began 1 "api", .cleared "api"] rfl rfl (by simp [NoRead]) (by simp)

end Baldur.RateLimit
