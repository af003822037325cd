import Baldur.Bulkhead.SeatCount

/-!
No free seat is left unannounced: every queued waiter has been woken or there are as many woken waiters as
free seats, and somebody will look at a pending operation.
-/

namespace Baldur.Bulkhead

open Room

open List Option Phase Slots Bulkhead.System Sublist

variable {system : System}

namespace Room

variable {free : Nat}

def wokenCount (room : Room) : Nat :=
  room.waiters.countP room.woken

def AllWoken (room : Room) : Prop :=
  ∀ caller ∈ room.waiters, room.woken caller = true

def Announced (room : Room) (free : Nat) : Prop :=
  room.AllWoken ∨ free ≤ room.wokenCount

structure Tidy (room : Room) : Prop where
  distinct : room.waiters.Nodup
  signalled : ∀ caller, room.woken caller = true → (room.waiter caller).signalled = true

variable {room : Room} {loops : Nat → LoopState} {caller : Nat}

theorem Announced.mono {fewer : Nat} (announced : room.Announced free) (less : fewer ≤ free) : room.Announced fewer :=
  announced.imp_right less.trans

theorem wake_cases (loops : Nat → LoopState) (unwoken : room.woken caller = false) :
    (∃ absorbed, room.wake loops caller = (room.setWaiter caller (room.waiter caller).wakened, absorbed)) ∨
      room.wake loops caller = (room, false) := by
  simp only [woken] at unwoken
  simp only [wake]
  split
  · exact .inl ⟨true, by simp [unwoken]⟩
  · simp only [unwoken, Bool.false_eq_true, if_false]
    split
    · exact .inr rfl
    · exact .inl ⟨_, rfl⟩

theorem woken_setWaiter (waiter : Waiter) (other : Nat) :
    (room.setWaiter caller waiter).woken other = if other = caller then waiter.woken else room.woken other := by
  simp only [woken, setWaiter]
  split <;> rfl

theorem wokenCount_wakened (tidy : room.Tidy) (listed : caller ∈ room.waiters) (unwoken : room.woken caller = false) :
    (room.setWaiter caller (room.waiter caller).wakened).wokenCount = room.wokenCount + 1 := by
  refine countP_mark tidy.distinct listed unwoken ?_ ?_
  · rw [woken_setWaiter, if_pos rfl]
    rfl
  · intro other different
    rw [woken_setWaiter, if_neg different]

theorem Tidy.mark (tidy : room.Tidy) (caller : Nat) (waiter : Waiter)
    (signalled : waiter.woken = true → waiter.signalled = true) :
    (room.setWaiter caller waiter).Tidy := by
  refine ⟨tidy.distinct, ?_⟩
  intro other awake
  by_cases same : other = caller
  · simp only [woken, setWaiter, same, if_true] at awake ⊢
    exact signalled awake
  · simp only [woken, setWaiter, same, if_false] at awake ⊢
    exact tidy.signalled other awake

theorem Tidy.unqueue (tidy : room.Tidy) (caller : Nat) : (room.unqueue caller).Tidy :=
  ⟨tidy.distinct.erase caller, tidy.signalled⟩

theorem wokenCount_unqueue (room : Room) (caller : Nat) :
    room.wokenCount ≤ (room.unqueue caller).wokenCount + (room.woken caller).toNat ∧
      (room.woken caller = false → room.wokenCount = (room.unqueue caller).wokenCount) := by
  by_cases listed : caller ∈ room.waiters
  · have counted := countP_erase room.woken listed
    refine ⟨le_of_eq counted.symm, ?_⟩
    intro unwoken
    rw [unwoken] at counted
    exact counted.symm
  · have same : (room.unqueue caller).wokenCount = room.wokenCount := by
      show (room.waiters.erase caller).countP room.woken = _
      rw [erase_of_not_mem listed]
      rfl
    exact ⟨by omega, fun _ => same.symm⟩

theorem AllWoken.unqueue (all : room.AllWoken) : (room.unqueue caller).AllWoken :=
  fun other member => all other (mem_of_mem_erase member)

/-- What a run of `_wake_next` does: there is one mark more unless nobody is left to mark. -/
structure Woke (room next : Room) : Prop where
  tidy : next.Tidy
  sublist : next.waiters.Sublist room.waiters
  counted : room.wokenCount ≤ next.wokenCount
  all : room.AllWoken → next.AllWoken
  gained : next.AllWoken ∨ room.wokenCount + 1 ≤ next.wokenCount

theorem wakeFirst_woke (snapshot : List Nat) (tidy : room.Tidy)
    (listed : ∀ other ∈ snapshot, other ∈ room.waiters) (distinct : snapshot.Nodup)
    (covers : ∀ other ∈ room.waiters, room.woken other = false → other ∈ snapshot) :
    Woke room (wakeFirst loops snapshot room) := by
  induction snapshot generalizing room with
  | nil =>
    have all : room.AllWoken := by
      intro other member
      by_contra unwoken
      exact not_mem_nil (covers other member (Bool.eq_false_of_not_eq_true unwoken))
    exact ⟨tidy, refl _, le_refl _, fun _ => all, .inl all⟩
  | cons first rest ih =>
    rw [nodup_cons] at distinct
    have here := listed first (by simp)
    have below (other : Nat) (member : other ∈ rest) : other ∈ room.waiters :=
      listed other (by simp [member])
    cases awake : room.woken first with
    | true =>
      simp only [wakeFirst, awake, if_true]
      refine ih tidy below distinct.2 ?_
      intro other member unwoken
      rcases mem_cons.mp (covers other member unwoken) with same | inRest
      · rw [same, awake] at unwoken
        cases unwoken
      · exact inRest
    | false =>
      simp only [wakeFirst, awake, Bool.false_eq_true, if_false]
      rcases wake_cases loops awake with ⟨absorbed, marked⟩ | refused
      · have next := tidy.mark first (room.waiter first).wakened (fun _ => rfl)
        have counted := wokenCount_wakened tidy here awake
        have all (whole : room.AllWoken) : False := by
          rw [whole first here] at awake
          cases awake
        cases absorbed with
        | true =>
          simp only [marked]
          exact ⟨next, refl _, by omega, fun whole => (all whole).elim, .inr (by omega)⟩
        | false =>
          have lit : (room.setWaiter first (room.waiter first).wakened).woken first = true := by
            rw [woken_setWaiter, if_pos rfl]
            rfl
          simp only [marked, lit, if_true]
          have woke := ih next below distinct.2 ?_
          · exact ⟨woke.tidy, woke.sublist, by have := woke.counted; omega,
              fun whole => (all whole).elim, .inr (by have := woke.counted; omega)⟩
          · intro other member unwoken
            rw [woken_setWaiter] at unwoken
            split at unwoken
            · cases unwoken
            · rename_i different
              exact (mem_cons.mp (covers other member unwoken)).resolve_left different
      · simp only [refused, awake, Bool.false_eq_true, if_false]
        have same := (wokenCount_unqueue room first).2 awake
        have woke := ih (tidy.unqueue first) ?_ distinct.2 ?_
        · exact ⟨woke.tidy, woke.sublist.trans (erase_sublist ..), same ▸ woke.counted,
            fun whole => woke.all whole.unqueue, woke.gained.imp_right (same ▸ ·)⟩
        · intro other member
          have different : other ≠ first := by
            rintro rfl
            exact distinct.1 member
          exact (mem_erase_of_ne different).mpr (below other member)
        · intro other member unwoken
          refine (mem_cons.mp (covers other (mem_of_mem_erase member) unwoken)).resolve_left ?_
          intro same
          rw [same] at member
          exact tidy.distinct.not_mem_erase member

theorem wakeNext_woke (loops : Nat → LoopState) (tidy : room.Tidy) : Woke room (room.wakeNext loops) :=
  wakeFirst_woke room.waiters tidy (fun _ member => member) tidy.distinct (fun _ member _ => member)

theorem Woke.announced {next : Room} (woke : Woke room next)
    (announced : room.Announced free) : next.Announced (free + 1) := by
  rcases announced with all | enough
  · exact .inl (woke.all all)
  · exact woke.gained.imp_right (fun gained => by omega)

theorem relieved_counts (tidy : room.Tidy) (caller : Nat) :
    ((room.unqueue caller).dropWoken caller).Tidy ∧
      (room.AllWoken → ((room.unqueue caller).dropWoken caller).AllWoken) ∧
      ((room.unqueue caller).dropWoken caller).wokenCount = (room.unqueue caller).wokenCount := by
  have others (other : Nat) (member : other ∈ room.waiters.erase caller) :
      ((room.unqueue caller).dropWoken caller).woken other = room.woken other := by
    have different : other ≠ caller := by
      rintro rfl
      exact tidy.distinct.not_mem_erase member
    rw [dropWoken, woken_setWaiter, if_neg different]
    rfl
  refine ⟨(tidy.unqueue caller).mark caller _ (by simp [Waiter.relieved]), ?_, ?_⟩
  · intro all other member
    exact (others other member).trans (all other (mem_of_mem_erase member))
  · refine countP_congr ?_
    intro other member
    rw [others other member]
    rfl

section

variable (loops : Nat → LoopState)

theorem announced_dropWaiter (caller : Nat) (tidy : room.Tidy) (announced : room.Announced free) :
    (room.dropWaiter loops caller).Announced free ∧ (room.dropWaiter loops caller).Tidy ∧
      (room.dropWaiter loops caller).waiters.Sublist (room.waiters.erase caller) := by
  obtain ⟨bounded, unchanged⟩ := wokenCount_unqueue room caller
  have awake : (room.unqueue caller).woken caller = room.woken caller := rfl
  simp only [dropWaiter, awake]
  cases woken : room.woken caller with
  | false =>
    have same := unchanged woken
    refine ⟨announced.imp AllWoken.unqueue ?_, tidy.unqueue caller, refl _⟩
    intro enough
    exact enough.trans (le_of_eq same)
  | true =>
    rw [woken, Bool.toNat_true] at bounded
    obtain ⟨relieved, all, counted⟩ := relieved_counts tidy caller
    have woke := wakeNext_woke loops relieved
    refine ⟨?_, woke.tidy, woke.sublist⟩
    rcases announced with every | enough
    · exact .inl (woke.all (all every))
    · refine woke.gained.imp_right ?_
      intro gained
      exact enough.trans (bounded.trans (counted ▸ gained))

theorem bury_counts (now : ℚ) (snapshot : List Nat) (lost : Nat) (tidy : room.Tidy) :
    (bury loops now snapshot (room, lost)).1.Tidy ∧
      (bury loops now snapshot (room, lost)).1.waiters.Sublist room.waiters ∧
      (room.AllWoken → (bury loops now snapshot (room, lost)).1.AllWoken) ∧
      room.wokenCount + lost ≤ (bury loops now snapshot (room, lost)).1.wokenCount +
        (bury loops now snapshot (room, lost)).2 := by
  induction snapshot generalizing room lost with
  | nil => exact ⟨tidy, refl _, id, le_refl _⟩
  | cons first rest ih =>
    obtain ⟨bounded, unchanged⟩ := wokenCount_unqueue room first
    have awake : (room.unqueue first).woken first = room.woken first := rfl
    simp only [bury, awake]
    split
    · split
      · rename_i woken
        rw [woken, Bool.toNat_true] at bounded
        obtain ⟨relieved, left, counted⟩ := relieved_counts tidy first
        obtain ⟨tidied, sublist, all, enough⟩ := ih (lost + 1) relieved
        refine ⟨tidied, sublist.trans (erase_sublist ..), fun whole => all (left whole), ?_⟩
        omega
      · rename_i unwoken
        obtain ⟨tidied, sublist, all, enough⟩ := ih lost (tidy.unqueue first)
        have same := unchanged (Bool.eq_false_of_not_eq_true unwoken)
        exact ⟨tidied, sublist.trans (erase_sublist ..), fun whole => all whole.unqueue, by omega⟩
    · exact ih lost tidy

theorem wakeTimes_counts (count : Nat) (tidy : room.Tidy) :
    (wakeTimes loops count room).Tidy ∧
      (wakeTimes loops count room).waiters.Sublist room.waiters ∧
      (room.AllWoken → (wakeTimes loops count room).AllWoken) ∧
      ((wakeTimes loops count room).AllWoken ∨ room.wokenCount + count ≤ (wakeTimes loops count room).wokenCount) := by
  induction count generalizing room with
  | zero => exact ⟨tidy, refl _, id, .inr (le_refl _)⟩
  | succ count ih =>
    have woke := wakeNext_woke loops tidy
    obtain ⟨tidied, sublist, all, enough⟩ := ih woke.tidy
    refine ⟨tidied, sublist.trans woke.sublist, fun whole => all (woke.all whole), ?_⟩
    rcases woke.gained with whole | gained
    · exact .inl (all whole)
    · exact enough.imp_right (fun enough => by simp only [wakeTimes]; omega)

theorem announced_prune (now : ℚ) (tidy : room.Tidy) (announced : room.Announced free) :
    (room.prune loops now).Announced free ∧ (room.prune loops now).Tidy ∧
      (room.prune loops now).waiters.Sublist room.waiters := by
  obtain ⟨tidied, sublist, all, enough⟩ := bury_counts loops now room.waiters 0 tidy
  obtain ⟨final, shorter, whole, gained⟩ :=
    wakeTimes_counts loops (bury loops now room.waiters (room, 0)).2 tidied
  refine ⟨?_, final, shorter.trans sublist⟩
  rcases announced with every | many
  · exact .inl (whole (all every))
  · exact gained.imp_right (fun gained => by simp only [prune]; omega)

end

theorem announced_unqueue (caller : Nat) (announced : room.Announced (free + 1)) :
    (room.unqueue caller).Announced free := by
  have bounded := (wokenCount_unqueue room caller).1
  have one : (room.woken caller).toNat ≤ 1 := Bool.toNat_le _
  exact announced.imp AllWoken.unqueue (fun enough => by omega)

end Room

def Phase.inside : Phase → Bool
  | .settling _ | .acting _ | .closing _ | .unlocking _ => true
  | _ => false

def Phase.looking : Phase → Bool
  | .checking _ | .trying _ => true
  | _ => false

def Outcome.awaits (next : Outcome) : Bool :=
  decide (next = .wait)

def Phase.awaits : Phase → Bool
  | .closing next | .unlocking next | .checking next | .trying next => next.awaits
  | .waiting | .entering .recheck | .settling .recheck | .acting .recheck => true
  | _ => false

def Outcome.leaves (next : Outcome) : Bool :=
  decide (next = .cancelled)

def Phase.leaves : Phase → Bool
  | .closing next | .unlocking next | .checking next | .trying next | .ended next => next.leaves
  | _ => false

theorem Outcome.awaits_phase (next : Outcome) : next.phase.awaits = next.awaits := by
  cases next <;> rfl

theorem Outcome.leaves_phase (next : Outcome) : next.phase.leaves = next.leaves := by
  cases next <;> rfl

theorem Outcome.outside_phase (next : Outcome) : next.phase.inside = false ∧ next.phase.looking = false := by
  cases next <;> exact ⟨rfl, rfl⟩

def System.free (system : System) : Nat :=
  system.maxConcurrent - system.room.taken

structure Guarded (system : System) : Prop where
  tidy : system.room.Tidy
  announced : system.room.Announced system.free
  queue : ∀ index ∈ system.room.waiters, ∃ caller, system.callers[index]? = some caller ∧
    (caller.phase.awaits = true ∨ .leaving index ∈ system.pending)
  left : ∀ index, .leaving index ∈ system.pending →
    ∃ caller, system.callers[index]? = some caller ∧ caller.phase.leaves = true
  watched : system.pending ≠ [] → system.locked = true ∨ ∃ caller ∈ system.callers, caller.phase.looking = true
  exclusive : system.callers.countP (·.phase.inside) = system.locked.toNat

section

variable {next : System} {room : Room} {system : System} {index : Nat} {caller : Caller}

theorem Guarded.move (guarded : Guarded system) (found : system.callers[index]? = some caller)
    (moved : Caller) (callers : next.callers = system.callers.set index moved)
    (tidy : next.room.Tidy) (announced : next.room.Announced next.free)
    (queue : ∀ other ∈ next.room.waiters, other ≠ index → other ∈ system.room.waiters)
    (own : index ∈ next.room.waiters → moved.phase.awaits = true ∨ .leaving index ∈ next.pending)
    (kept : ∀ operation ∈ system.pending, operation ∈ next.pending)
    (added : ∀ other, .leaving other ∈ next.pending → .leaving other ∈ system.pending ∨ other = index)
    (leaves : .leaving index ∈ next.pending → moved.phase.leaves = true)
    (look : next.pending ≠ [] → next.locked = true ∨ moved.phase.looking = true ∨
      system.pending ≠ [] ∧ next.locked = system.locked ∧ caller.phase.looking = false)
    (lock : moved.phase.inside.toNat + system.locked.toNat =
      caller.phase.inside.toNat + next.locked.toNat) : Guarded next := by
  have inRange : index < system.callers.length := (List.getElem?_eq_some_iff.mp found).1
  have here : next.callers[index]? = some moved := by
    rw [callers, getElem?_set_self inRange]
  have elsewhere (other : Nat) (different : other ≠ index) : next.callers[other]? = system.callers[other]? := by
    rw [callers, getElem?_set_ne (Ne.symm different)]
  refine ⟨tidy, announced, ?_, ?_, ?_, ?_⟩
  · intro other member
    by_cases same : other = index
    · subst same
      exact ⟨moved, here, own member⟩
    · obtain ⟨waiting, there, reason⟩ := guarded.queue other (queue other member same)
      exact ⟨waiting, (elsewhere other same).trans there, reason.imp_right (kept _)⟩
  · intro other listed
    by_cases same : other = index
    · subst same
      exact ⟨moved, here, leaves listed⟩
    · obtain ⟨leaving, there, reason⟩ :=
        guarded.left other ((added other listed).resolve_right same)
      exact ⟨leaving, (elsewhere other same).trans there, reason⟩
  · intro some
    rcases look some with locked | looking | ⟨before, same, blind⟩
    · exact .inl locked
    · exact .inr ⟨moved, mem_of_getElem? here, looking⟩
    · rcases guarded.watched before with locked | ⟨watcher, member, looking⟩
      · exact .inl (same.trans locked)
      · obtain ⟨place, there⟩ := getElem?_of_mem member
        have different : place ≠ index := by
          rintro rfl
          rw [found, Option.some.injEq] at there
          rw [there, looking] at blind
          cases blind
        exact .inr ⟨watcher, mem_of_getElem? ((elsewhere place different).trans there), looking⟩
  · have counted := countP_set system.callers index moved found (·.phase.inside)
    have before := guarded.exclusive
    rw [callers]
    omega

section

variable (guarded : Guarded system) (found : system.callers[index]? = some caller)

include guarded found

theorem Guarded.queued (member : index ∈ system.room.waiters) :
    caller.phase.awaits = true ∨ .leaving index ∈ system.pending := by
  obtain ⟨waiting, there, reason⟩ := guarded.queue index member
  rwa [mem_unique there found] at reason

theorem Guarded.leaves (listed : .leaving index ∈ system.pending) : caller.phase.leaves = true := by
  obtain ⟨leaving, there, reason⟩ := guarded.left index listed
  rwa [mem_unique there found] at reason

theorem Guarded.pass (locked : Bool) {phase : Phase} (awaits : caller.phase.awaits = true → phase.awaits = true)
    (leaves : caller.phase.leaves = true → phase.leaves = true)
    (look : system.pending ≠ [] → locked = true ∨ phase.looking = true ∨
      locked = system.locked ∧ caller.phase.looking = false)
    (lock : phase.inside.toNat + system.locked.toNat = caller.phase.inside.toNat + locked.toNat) :
    Guarded ({ system with locked := locked }.move index caller phase) := by
  refine guarded.move found { caller with phase := phase } rfl guarded.tidy guarded.announced
    (fun _ member _ => member) ?_ (fun _ member => member) (fun _ listed => .inl listed) ?_ ?_ lock
  · intro member
    exact (guarded.queued found member).imp_left awaits
  · intro listed
    exact leaves (guarded.leaves found listed)
  · intro some
    rcases look some with taken | looking | ⟨unchanged, blind⟩
    · exact .inl taken
    · exact .inr (.inl looking)
    · exact .inr (.inr ⟨some, unchanged, blind⟩)

end

theorem announced_apply {limit : Nat} (loops : Nat → LoopState)
    (operation : Operation) (tidy : room.Tidy) (announced : room.Announced (limit - room.taken)) :
    (room.apply loops operation).Announced (limit - (room.apply loops operation).taken) ∧
      (room.apply loops operation).Tidy ∧
      (room.apply loops operation).waiters.Sublist room.waiters := by
  cases operation with
  | seatReturned =>
    simp only [apply]
    split
    · have fewer : ({ room with taken := room.taken - 1 } : Room).Tidy :=
        ⟨tidy.distinct, tidy.signalled⟩
      have woke := wakeNext_woke loops fewer
      have before : ({ room with taken := room.taken - 1 } : Room).Announced (limit - room.taken) :=
        announced
      refine ⟨(woke.announced before).mono ?_, woke.tidy, woke.sublist⟩
      rw [taken_wakeNext]
      show limit - (room.taken - 1) ≤ _
      omega
    · exact ⟨announced, tidy, refl _⟩
  | leaving other =>
    obtain ⟨still, tidied, shorter⟩ := announced_dropWaiter loops other tidy announced
    simp only [apply, taken_dropWaiter]
    exact ⟨still, tidied, shorter.trans (erase_sublist ..)⟩

section

variable (guarded : Guarded system)

include guarded

theorem Guarded.pop {operation : Operation} {rest : List Operation} (listed : system.pending = operation :: rest) :
    Guarded { system with
      pending := rest
      room := system.room.apply system.loops operation } := by
  obtain ⟨announced, tidy, shorter⟩ :=
    announced_apply system.loops operation guarded.tidy guarded.announced
  refine ⟨tidy, announced, ?_, ?_, ?_, guarded.exclusive⟩
  · intro other member
    obtain ⟨waiting, there, reason⟩ := guarded.queue other (shorter.subset member)
    refine ⟨waiting, there, reason.imp_right ?_⟩
    rw [listed]
    intro leaving
    rcases mem_cons.mp leaving with same | later
    · -- the waiter that was just dropped is not in the queue any more
      subst same
      obtain ⟨_, _, without⟩ :=
        announced_dropWaiter system.loops other guarded.tidy guarded.announced
      exact absurd (without.subset member) guarded.tidy.distinct.not_mem_erase
    · exact later
  · intro other leaving
    exact guarded.left other (by rw [listed]; exact mem_cons_of_mem _ leaving)
  · intro _
    exact guarded.watched (by simp [listed])

section

variable (found : system.callers[index]? = some caller)

include found

theorem Guarded.settle {settled : Phase} (awaits : caller.phase.awaits = true → settled.awaits = true)
    (lock : settled.inside = caller.phase.inside) :
    Guarded (system.settle index caller settled) := by
  simp only [System.settle]
  split
  · rename_i operation rest listed
    exact guarded.pop listed
  · rename_i empty
    obtain ⟨announced, tidy, shorter⟩ :=
      announced_prune system.loops system.clock guarded.tidy guarded.announced
    refine guarded.move found { caller with phase := settled } rfl tidy ?_
      (fun _ member _ => shorter.subset member) ?_ (fun _ member => member)
      (fun _ leaving => .inl leaving) ?_ ?_ ?_
    · simpa [System.free, System.move] using announced
    · intro member
      exact (guarded.queued found (shorter.subset member)).imp_left awaits
    · intro leaving
      simp [System.move, empty] at leaving
    · intro some
      simp [System.move, empty] at some
    · simp [System.move, lock]

theorem Guarded.not_queued (awaits : caller.phase.awaits = false) (leaves : caller.phase.leaves = false) :
    index ∉ system.room.waiters ∧ .leaving index ∉ system.pending := by
  have staying : .leaving index ∉ system.pending := by
    intro listed
    rw [guarded.leaves found listed] at leaves
    cases leaves
  refine ⟨?_, staying⟩
  intro member
  have reason := guarded.queued found member
  rw [awaits] at reason
  exact reason.elim (by simp) staying

theorem Guarded.close {purpose : Purpose} (phase : caller.phase = .acting purpose) (moved : Caller)
    {outcome : Outcome} (closing : moved.phase = .closing outcome)
    (callers : next.callers = system.callers.set index moved)
    (pending : next.pending = system.pending) (locked : next.locked = system.locked)
    (tidy : next.room.Tidy) (announced : next.room.Announced next.free)
    (queue : ∀ other ∈ next.room.waiters, other ≠ index → other ∈ system.room.waiters)
    (own : index ∈ next.room.waiters → outcome.awaits = true) : Guarded next := by
  refine guarded.move found moved callers tidy announced queue ?_ ?_ ?_ ?_ ?_ ?_
  · intro member
    rw [closing]
    exact .inl (own member)
  · intro operation member
    rw [pending]
    exact member
  · intro other leaving
    rw [pending] at leaving
    exact .inl leaving
  · intro leaving
    rw [pending] at leaving
    have reason := guarded.leaves found leaving
    rw [phase] at reason
    cases reason
  · intro some
    rw [pending] at some
    exact .inr (.inr ⟨some, locked, by rw [phase]; rfl⟩)
  · rw [closing, phase, locked]
    rfl

theorem Guarded.actFirst (phase : caller.phase = .acting .first) : Guarded (system.actFirst index caller) := by
  obtain ⟨absent, _⟩ := guarded.not_queued found (by rw [phase]; rfl) (by rw [phase]; rfl)
  have reject : Guarded (system.reject index caller) :=
    guarded.close found phase _ rfl rfl rfl rfl guarded.tidy guarded.announced
      (fun _ member _ => member) (fun member => absurd member absent)
  simp only [System.actFirst]
  split
  · refine guarded.close found phase _ rfl rfl rfl rfl
      ⟨guarded.tidy.distinct, guarded.tidy.signalled⟩ ?_
      (fun _ member _ => member) (fun member => absurd member absent)
    refine guarded.announced.mono ?_
    simp only [System.free, System.takeSeat, System.move]
    omega
  · rename_i full
    split
    · exact reject
    · split
      · exact reject
      · refine guarded.close found phase _ rfl rfl rfl rfl ⟨?_, ?_⟩ (.inr ?_) ?_ (fun _ => rfl)
        · simp only [System.move, enqueue, setWaiter]
          exact nodup_append.mpr ⟨guarded.tidy.distinct, by simp, fun a member b same => by
              rw [mem_singleton.mp same]
              rintro rfl
              exact absent member⟩
        · exact (guarded.tidy.mark index _ (by simp)).signalled
        · simp only [System.free, System.move, enqueue, setWaiter]
          omega
        · intro other member different
          simp only [System.move, enqueue, setWaiter, mem_append, mem_singleton] at member
          exact member.resolve_right different

end

end

theorem tidy_requeue (tidy : room.Tidy) (futureDone : Bool) (index : Nat) :
    (room.requeue futureDone index).Tidy ∧
      ∀ other ∈ (room.requeue futureDone index).waiters, other ≠ index → other ∈ room.waiters := by
  simp only [requeue]
  split
  · have rearmed := (tidy.unqueue index).mark index (room.waiter index).rearmed (by simp [Waiter.rearmed])
    refine ⟨⟨?_, rearmed.signalled⟩, ?_⟩
    · show (room.waiters.erase index ++ [index]).Nodup
      exact nodup_append.mpr ⟨tidy.distinct.erase index, by simp, fun a member b same => by
          rw [mem_singleton.mp same]
          rintro rfl
          exact tidy.distinct.not_mem_erase member⟩
    · intro other member different
      have listed : other ∈ room.waiters.erase index ++ [index] := member
      rw [mem_append, mem_singleton] at listed
      exact mem_of_mem_erase (listed.resolve_right different)
  · exact ⟨tidy, fun _ member _ => member⟩

section

variable (guarded : Guarded system)

include guarded

section

variable (found : system.callers[index]? = some caller)

include found

theorem Guarded.actAgain (phase : caller.phase = .acting .recheck) (futureDone : Bool) :
    Guarded (system.actAgain index caller futureDone) := by
  simp only [System.actAgain]
  split
  · rename_i free
    have tidy := guarded.tidy.unqueue index
    refine guarded.close found phase _ rfl rfl rfl rfl ⟨tidy.distinct, tidy.signalled⟩ ?_
      (fun _ member _ => mem_of_mem_erase member)
      (fun member => absurd member guarded.tidy.distinct.not_mem_erase)
    -- the seat it takes was one of the free ones
    refine announced_unqueue index (guarded.announced.mono ?_)
    simp only [System.free, System.takeSeat, System.move, unqueue]
    omega
  · rename_i full
    split
    · obtain ⟨tidy, others⟩ := tidy_requeue guarded.tidy futureDone index
      refine guarded.close found phase _ rfl rfl rfl rfl tidy (.inr ?_) others (fun _ => rfl)
      simp only [System.free, System.move, taken_requeue]
      omega
    · obtain ⟨_, tidy, shorter⟩ :=
        announced_dropWaiter system.loops index guarded.tidy guarded.announced
      refine guarded.close found phase _ rfl rfl rfl rfl tidy (.inr ?_)
        (fun _ member _ => mem_of_mem_erase (shorter.subset member))
        (fun member => absurd (shorter.subset member) guarded.tidy.distinct.not_mem_erase)
      simp only [System.free, System.reject, System.move, taken_dropWaiter]
      omega

theorem Guarded.advance (futureDone : Bool) : Guarded (system.advance index futureDone caller) := by
  obtain ⟨home, timeout, phase, took, gave⟩ := caller
  cases phase with
  | idle => exact guarded.pass found system.locked nofun nofun (fun _ => .inr (.inr ⟨rfl, rfl⟩)) rfl
  | acting purpose =>
    cases purpose with
    | first => exact guarded.actFirst found rfl
    | recheck => exact guarded.actAgain found rfl futureDone
    | inspect => exact guarded.pass found system.locked nofun nofun (fun _ => .inr (.inr ⟨rfl, rfl⟩)) rfl
  | entering purpose =>
    simp only [advance]
    split
    · exact guarded
    · rename_i unlocked
      refine guarded.pass found true ?_ (absurd · Bool.false_ne_true) (fun _ => .inl rfl) ?_
      · cases purpose <;> exact id
      · rw [Bool.eq_false_of_not_eq_true unlocked]
        rfl
  | settling purpose =>
    refine guarded.settle found ?_ rfl
    cases purpose <;> exact id
  | closing => exact guarded.settle found id rfl
  | unlocking =>
    refine guarded.pass found false id id (fun _ => .inr (.inl rfl)) ?_
    have one : 0 < system.callers.countP (·.phase.inside) := countP_pos_iff.mpr ⟨_, mem_of_getElem? found, rfl⟩
    rw [guarded.exclusive] at one
    cases locked : system.locked with
    | true => rfl
    | false => simp [locked] at one
  | checking next =>
    simp only [advance]
    split
    · rename_i empty
      refine guarded.pass found system.locked next.awaits_phase.trans next.leaves_phase.trans ?_ ?_
      · intro some
        exact absurd (isEmpty_iff.mp empty) some
      · rw [next.outside_phase.1]
        rfl
    · exact guarded.pass found system.locked id id (fun _ => .inr (.inl rfl)) rfl
  | trying next =>
    simp only [advance]
    split
    · rename_i locked
      refine guarded.pass found system.locked next.awaits_phase.trans next.leaves_phase.trans (fun _ => .inl locked) ?_
      rw [next.outside_phase.1]
      rfl
    · rename_i unlocked
      refine guarded.pass found true id id (fun _ => .inl rfl) ?_
      rw [Bool.eq_false_of_not_eq_true unlocked]
      rfl
  | waiting | holding | ended next => exact guarded

theorem Guarded.resume : Guarded (system.resume index caller) := by
  simp only [System.resume]
  split
  · rename_i phase
    refine guarded.pass found system.locked (fun _ => rfl) ?_
      (fun _ => .inr (.inr ⟨rfl, by rw [phase]; rfl⟩)) (by rw [phase]; rfl)
    rw [phase]
    intro impossible
    cases impossible
  · exact guarded

theorem Guarded.cancel : Guarded (system.cancel index caller) := by
  simp only [System.cancel]
  split
  · rename_i phase
    refine guarded.move found _ rfl guarded.tidy guarded.announced (fun _ member _ => member)
      (fun _ => .inr (mem_append_right _ (by simp)))
      (fun _ member => mem_append_left _ member) ?_ (fun _ => rfl) (fun _ => .inr (.inl rfl))
      (by rw [phase]; rfl)
    intro other leaving
    simp only [System.move, mem_append, mem_singleton, Operation.leaving.injEq] at leaving
    exact leaving
  · exact guarded

theorem Guarded.release : Guarded (system.release index caller) := by
  simp only [System.release]
  split
  · rename_i phase
    obtain ⟨absent, staying⟩ := guarded.not_queued found (by rw [phase]; rfl) (by rw [phase]; rfl)
    refine guarded.move found _ rfl guarded.tidy guarded.announced (fun _ member _ => member)
      (fun member => absurd member absent) (fun _ member => mem_append_left _ member) ?_ ?_
      (fun _ => .inr (.inl rfl)) (by rw [phase]; rfl)
    · intro other leaving
      simp only [System.move, mem_append, mem_singleton, reduceCtorEq, or_false] at leaving
      exact .inl leaving
    · intro leaving
      simp only [System.move, mem_append, mem_singleton, reduceCtorEq, or_false] at leaving
      exact absurd leaving staying
  · exact guarded

end

theorem Guarded.arrive (home : Option Nat) (timeout : Option ℚ)
    (purpose : Purpose) : Guarded (system.arrive home timeout purpose) := by
  refine ⟨guarded.tidy, guarded.announced, ?_, ?_, ?_, ?_⟩
  · intro other member
    obtain ⟨waiting, there, reason⟩ := guarded.queue other member
    exact ⟨waiting, found_append there, reason⟩
  · intro other leaving
    obtain ⟨caller, there, reason⟩ := guarded.left other leaving
    exact ⟨caller, found_append there, reason⟩
  · intro some
    refine (guarded.watched some).imp_right ?_
    rintro ⟨watcher, member, looking⟩
    exact ⟨watcher, mem_append_left _ member, looking⟩
  · simpa [System.arrive, Phase.inside] using guarded.exclusive

theorem Guarded.step (action : Action) : Guarded (system.step action) := by
  cases action with
  | step index futureDone =>
    simp only [System.step]
    split
    · rename_i caller found
      exact guarded.advance found futureDone
    · exact guarded
  | resume =>
    simp only [System.step]
    split
    · rename_i caller found
      exact guarded.resume found
    · exact guarded
  | cancel =>
    simp only [System.step]
    split
    · rename_i caller found
      exact guarded.cancel found
    · exact guarded
  | release =>
    simp only [System.step]
    split
    · rename_i caller found
      exact guarded.release found
    · exact guarded
  | tick
  | loop => exact { guarded with }
  | _ => exact guarded.arrive _ _ _

end

end

theorem Guarded.run (actions : List Action) (guarded : Guarded system) : Guarded (system.run actions) :=
  Stepwise.keeps (fun _ action guarded => guarded.step action) guarded actions

theorem Guarded.start (maxConcurrent : Nat) (clock : ℚ) (loops : Nat → LoopState) :
    Guarded (.start maxConcurrent clock loops) := by
  refine ⟨⟨nodup_nil, ?_⟩, .inl ?_, ?_, ?_, ?_, rfl⟩
  · intro caller impossible
    cases impossible
  · intro caller member
    cases member
  · intro caller member
    cases member
  · intro caller member
    cases member
  · intro some
    exact absurd rfl some

def System.quiet (system : System) : Bool :=
  !system.locked && system.callers.all fun caller => !caller.phase.inside && !caller.phase.looking

def System.onItsWay (system : System) (index : Nat) : Bool :=
  system.room.woken index && (system.room.waiter index).signalled &&
    match system.callers[index]? with
    | some caller => decide (caller.phase = .waiting ∨ caller.phase = .entering .recheck)
    | none => false

theorem Guarded.onItsWay (guarded : Guarded system) (quiet : system.quiet = true)
    (settled : system.pending = []) {index : Nat} (queued : index ∈ system.room.waiters) :
    system.onItsWay index = system.room.woken index := by
  obtain ⟨caller, found, reason⟩ := guarded.queue index queued
  simp only [System.quiet, Bool.and_eq_true, List.all_eq_true, Bool.not_eq_true'] at quiet
  obtain ⟨outside, blind⟩ := quiet.2 caller (List.mem_of_getElem? found)
  have awaits : caller.phase.awaits = true :=
    reason.resolve_right (by rw [settled]; exact List.not_mem_nil)
  have arriving : caller.phase = .waiting ∨ caller.phase = .entering .recheck := by
    cases phase : caller.phase with
    | waiting => exact .inl rfl
    | entering purpose =>
      cases purpose with
      | recheck => exact .inr rfl
      | first | inspect => simp [phase, Phase.awaits] at awaits
    | settling | acting | closing | unlocking => simp [phase, Phase.inside] at outside
    | checking | trying => simp [phase, Phase.looking] at blind
    | idle | holding | ended => simp [phase, Phase.awaits] at awaits
  cases awake : system.room.woken index with
  | false => simp [System.onItsWay, awake]
  | true => simp [System.onItsWay, awake, guarded.tidy.signalled index awake, found, arriving]

/-- In a quiet state nothing is pending, and a live waiter that was not woken stands behind as
many woken waiters as there are free seats. -/
theorem free_seat_announced (maxConcurrent : Nat) (clock : ℚ) (loops : Nat → LoopState) (actions : List Action)
    (quiet : ((System.start maxConcurrent clock loops).run actions).quiet = true) :
    let system := (System.start maxConcurrent clock loops).run actions
    system.pending = [] ∧
      (0 < system.free →
        (∃ index ∈ system.room.waiters, system.room.woken index = false ∧
          isDead system.loops system.clock (system.room.waiter index) = false) →
        system.free ≤ system.room.waiters.countP system.onItsWay) := by
  intro system
  have guarded : Guarded system := (Guarded.start maxConcurrent clock loops).run actions
  have settled : system.pending = [] := by
    by_contra some
    have calm := quiet
    simp only [System.quiet, Bool.and_eq_true, List.all_eq_true, Bool.not_eq_true'] at calm
    rcases guarded.watched some with locked | ⟨watcher, member, looking⟩
    · rw [calm.1] at locked
      cases locked
    · rw [(calm.2 watcher member).2] at looking
      cases looking
  refine ⟨settled, ?_⟩
  rintro _ ⟨index, queued, unwoken, _⟩
  rcases guarded.announced with all | enough
  · rw [all index queued] at unwoken
    cases unwoken
  · refine enough.trans (le_of_eq ?_)
    refine List.countP_congr ?_
    intro other member
    rw [guarded.onItsWay quiet settled member]

def seatGivenBack : List Action :=
  [.arriveThread none false] ++ List.replicate 7 (.step 0 false) ++
    [.arriveThread (some 5) false] ++ List.replicate 7 (.step 1 false) ++
    [.arriveCoroutine 0 (some 5)] ++ List.replicate 7 (.step 2 false) ++
    [.release 0] ++ List.replicate 6 (.step 0 false)

theorem seat_given_back_announced :
    ((start 1 0 fun _ => .running).run seatGivenBack).room.waiters = [1, 2] ∧
      ((start 1 0 fun _ => .running).run seatGivenBack).free = 1 ∧
      ((start 1 0 fun _ => .running).run seatGivenBack).free ≤
        ((start 1 0 fun _ => .running).run seatGivenBack).room.waiters.countP
          ((start 1 0 fun _ => .running).run seatGivenBack).onItsWay := by
  have announced := free_seat_announced 1 0 (fun _ => .running) seatGivenBack (by decide +kernel)
  exact ⟨by decide +kernel, by decide +kernel,
    announced.2 (by decide +kernel) ⟨2, by decide +kernel, by decide +kernel, by decide +kernel⟩⟩

theorem queue_holds_waiting_callers (maxConcurrent : Nat) (clock : ℚ) (loops : Nat → LoopState) (actions : List Action) :
    let system := (start maxConcurrent clock loops).run actions
    system.callers.countP (·.phase.inside) ≤ 1 ∧ system.room.waiters.Nodup ∧ ∀ index ∈ system.room.waiters,
      ∃ caller, system.callers[index]? = some caller ∧ (caller.phase.awaits = true ∨ .leaving index ∈ system.pending) := by
  intro system
  have guarded : Guarded system := (Guarded.start maxConcurrent clock loops).run actions
  exact ⟨guarded.exclusive.trans_le (Bool.toNat_le _), guarded.tidy.distinct, guarded.queue⟩

end Baldur.Bulkhead
