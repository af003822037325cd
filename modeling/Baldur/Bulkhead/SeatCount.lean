import Baldur.Lib.Stepwise
import Baldur.Bulkhead.SeatCore

/-!
The recorded count is that of the holders and of the seats given back but not yet applied.
-/

namespace Baldur.Bulkhead

open Caller List Phase Slots Bulkhead.System

def Outcome.seats : Outcome → Nat × Nat
  | .seat => (1, 0)
  | .released => (1, 1)
  | _ => (0, 0)

def Phase.seats : Phase → Nat × Nat
  | .closing next | .unlocking next | .checking next | .trying next | .ended next => next.seats
  | .holding => (1, 0)
  | _ => (0, 0)

def Caller.hasSeat (caller : Caller) : Bool :=
  decide (caller.phase.seats = (1, 0))

def System.holders (system : System) : Nat :=
  system.callers.countP Caller.hasSeat

def System.returned (system : System) : Nat :=
  system.pending.count .seatReturned

attribute [local simp] Outcome.seats

theorem Outcome.seats_cases (next : Outcome) : next.seats = (1, 0) ∨ next.seats = (1, 1) ∨ next.seats = (0, 0) := by
  cases next <;> simp

theorem Phase.seats_cases (phase : Phase) : phase.seats = (1, 0) ∨ phase.seats = (1, 1) ∨ phase.seats = (0, 0) := by
  cases phase with
  | closing next | unlocking next | checking next | trying next | ended next => exact next.seats_cases
  | holding => exact .inl rfl
  | idle | entering | settling | acting | waiting => exact .inr (.inr rfl)

namespace Room

variable (room : Room) (loops : Nat → LoopState) (caller : Nat)

@[simp] theorem taken_unqueue : (room.unqueue caller).taken = room.taken := by
  rfl

@[simp] theorem taken_dropWoken : (room.dropWoken caller).taken = room.taken := by
  rfl

theorem taken_wake : (room.wake loops caller).1.taken = room.taken := by
  simp only [wake]
  split
  · split <;> rfl
  · split
    · rfl
    · split <;> rfl

theorem taken_wakeFirst (snapshot : List Nat) : (wakeFirst loops snapshot room).taken = room.taken := by
  induction snapshot generalizing room with
  | nil => rfl
  | cons first rest ih =>
    have awake := taken_wake room loops first
    simp only [wakeFirst]
    split
    · exact ih room
    · split
      · rename_i next woken
        rwa [woken] at awake
      · rename_i next woken
        rw [woken] at awake
        split
        · exact (ih next).trans awake
        · exact (ih (next.unqueue first)).trans awake

@[simp] theorem taken_wakeNext : (room.wakeNext loops).taken = room.taken :=
  taken_wakeFirst room loops room.waiters

theorem taken_bury (now : ℚ) (snapshot : List Nat) (lostWakes : Nat) :
    (bury loops now snapshot (room, lostWakes)).1.taken = room.taken := by
  induction snapshot generalizing room lostWakes with
  | nil => rfl
  | cons first rest ih =>
    simp only [bury]
    split
    · split
      · exact ih ((room.unqueue first).dropWoken first) (lostWakes + 1)
      · exact ih (room.unqueue first) lostWakes
    · exact ih room lostWakes

theorem taken_wakeTimes (count : Nat) : (wakeTimes loops count room).taken = room.taken := by
  induction count generalizing room with
  | zero => rfl
  | succ count ih => exact (ih (room.wakeNext loops)).trans (taken_wakeNext room loops)

@[simp] theorem taken_prune (now : ℚ) : (room.prune loops now).taken = room.taken :=
  (taken_wakeTimes _ _ _).trans (taken_bury room loops now room.waiters 0)

@[simp] theorem taken_requeue (futureDone : Bool) : (room.requeue futureDone caller).taken = room.taken := by
  simp only [requeue]
  split <;> rfl

@[simp] theorem taken_dropWaiter : (room.dropWaiter loops caller).taken = room.taken := by
  simp only [dropWaiter]
  split
  · simp
  · rfl

end Room

structure Seats (limit : Nat) (system : System) : Prop where
  limited : system.maxConcurrent = limit
  conserved : system.room.taken = system.holders + system.returned
  bounded : system.room.taken ≤ limit
  callers : ∀ caller ∈ system.callers, (caller.took, caller.gave) = caller.phase.seats

section

variable {limit : Nat} {system : System} {index : Nat} {caller : Caller}

section

variable (seats : Seats limit system)

include seats

attribute [local simp] Caller.hasSeat

theorem Seats.move (found : system.callers[index]? = some caller)
    {next : System} {phase : Phase} (callers : next.callers = system.callers)
    (taken : next.room.taken = system.room.taken) (pending : next.returned = system.returned)
    (bound : next.maxConcurrent = system.maxConcurrent) (same : phase.seats = caller.phase.seats) :
    Seats limit (next.move index caller phase) := by
  have counted := Slots.countP_set system.callers index { caller with phase := phase } found hasSeat
  have equal : hasSeat { caller with phase := phase } = caller.hasSeat := by
    simp [same]
  refine ⟨bound.trans seats.limited, ?_, ?_, ?_⟩
  · have before := seats.conserved
    simp only [System.holders, System.returned, System.move, callers, taken] at before pending ⊢
    rw [equal] at counted
    omega
  · simpa [System.move, taken] using seats.bounded
  · have own := seats.callers caller (List.mem_of_getElem? found)
    simp only [System.move, callers]
    exact Slots.forall_set seats.callers (own.trans same.symm)

theorem Seats.of_room {room : Room} {pending : List Operation}
    (balanced : room.taken + system.returned = system.room.taken + pending.count .seatReturned)
    (fewer : room.taken ≤ system.room.taken) :
    Seats limit { system with room := room, pending := pending } := by
  refine ⟨seats.limited, ?_, fewer.trans seats.bounded, seats.callers⟩
  have before := seats.conserved
  simp only [holders, returned] at before balanced ⊢
  omega

section

variable (found : system.callers[index]? = some caller)

include found

attribute [local simp] System.returned

theorem Seats.settle {settled : Phase} (same : settled.seats = caller.phase.seats) :
    Seats limit (system.settle index caller settled) := by
  simp only [System.settle]
  split
  · rename_i operation rest listed
    cases operation with
    | seatReturned =>
      have positive : 0 < system.room.taken := by
        have counted := seats.conserved
        simp only [returned, listed, List.count_cons_self] at counted
        omega
      refine seats.of_room ?_ ?_
      · simp only [Room.apply, if_pos positive, Room.taken_wakeNext, returned, listed,
          List.count_cons_self]
        omega
      · simp only [Room.apply, if_pos positive, Room.taken_wakeNext]
        omega
    | leaving =>
      refine seats.of_room ?_ ?_
      · simp [Room.apply, listed]
      · simp [Room.apply]
  · rename_i empty
    exact seats.move found rfl (Room.taken_prune _ _ _) rfl rfl same

section

variable {next : System} (callers : next.callers = system.callers) (taken : next.room.taken = system.room.taken)
  (pending : next.pending = system.pending) (bound : next.maxConcurrent = system.maxConcurrent)

include callers taken pending bound

theorem Seats.takeSeat (free : system.room.taken < system.maxConcurrent) (unseated : caller.phase.seats = (0, 0)) :
    Seats limit (next.takeSeat index caller) := by
  have counted := Slots.countP_set system.callers index
    { caller with took := caller.took + 1, phase := .closing .seat } found hasSeat
  have without : caller.hasSeat = false := by
    simp [unseated]
  have within : hasSeat { caller with took := caller.took + 1, phase := .closing .seat } = true := by
    simp [Phase.seats]
  rw [without, within] at counted
  have before := seats.conserved
  refine ⟨bound.trans seats.limited, ?_, ?_, ?_⟩
  · simp only [System.holders, System.returned, System.takeSeat, System.move, callers, taken,
      pending, Bool.toNat_true, Bool.toNat_false] at before counted ⊢
    omega
  · rw [seats.limited] at free
    simp only [System.takeSeat, System.move, taken]
    omega
  · have own := seats.callers caller (List.mem_of_getElem? found)
    rw [unseated, Prod.mk.injEq] at own
    simp only [System.takeSeat, System.move, callers]
    refine Slots.forall_set seats.callers ?_
    simp [own.1, own.2, Phase.seats]

theorem Seats.reject (unseated : caller.phase.seats = (0, 0)) : Seats limit (next.reject index caller) := by
  refine seats.move found callers taken ?_ bound unseated.symm
  simp [pending]

end

theorem Seats.actFirst (unseated : caller.phase.seats = (0, 0)) : Seats limit (system.actFirst index caller) := by
  simp only [System.actFirst]
  split
  · rename_i free
    exact seats.takeSeat found rfl rfl rfl rfl free unseated
  · split
    · exact seats.reject found rfl rfl rfl rfl unseated
    · split
      · exact seats.reject found rfl rfl rfl rfl unseated
      · exact seats.move found rfl rfl rfl rfl unseated.symm

theorem Seats.actAgain (unseated : caller.phase.seats = (0, 0)) (futureDone : Bool) :
    Seats limit (system.actAgain index caller futureDone) := by
  simp only [System.actAgain]
  split
  · rename_i free
    exact seats.takeSeat found rfl rfl rfl rfl free unseated
  · split
    · exact seats.move found rfl (Room.taken_requeue _ _ _) rfl rfl unseated.symm
    · exact seats.reject found rfl (Room.taken_dropWaiter _ _ _) rfl rfl unseated

theorem Seats.advance (futureDone : Bool) : Seats limit (system.advance index futureDone caller) := by
  obtain ⟨home, timeout, phase, took, gave⟩ := caller
  cases phase with
  | idle purpose | unlocking next => exact seats.move found rfl rfl rfl rfl rfl
  | entering =>
    simp only [advance]
    split
    · exact seats
    · exact seats.move found rfl rfl rfl rfl rfl
  | settling purpose | closing next => exact seats.settle found rfl
  | acting purpose =>
    cases purpose with
    | first => exact seats.actFirst found rfl
    | recheck => exact seats.actAgain found rfl futureDone
    | inspect => exact seats.move found rfl rfl rfl rfl rfl
  | checking next | trying next =>
    simp only [advance]
    split
    · exact seats.move found rfl rfl rfl rfl (by cases next <;> rfl)
    · exact seats.move found rfl rfl rfl rfl rfl
  | waiting | holding | ended next => exact seats

theorem Seats.cancel : Seats limit (system.cancel index caller) := by
  simp only [System.cancel]
  split
  · rename_i waiting
    refine seats.move found rfl rfl ?_ rfl (by rw [waiting]; rfl)
    simp
  · exact seats

theorem Seats.release : Seats limit (system.release index caller) := by
  simp only [System.release]
  split
  · rename_i holding
    have counted := Slots.countP_set system.callers index
      { caller with gave := caller.gave + 1, phase := .checking .released } found hasSeat
    have within : caller.hasSeat = true := by
      simp [holding, Phase.seats]
    have without : hasSeat { caller with gave := caller.gave + 1, phase := .checking .released } = false := by
      simp [Phase.seats]
    rw [within, without] at counted
    have before := seats.conserved
    refine ⟨seats.limited, ?_, seats.bounded, ?_⟩
    · simp only [System.holders, System.returned, System.move, List.count_append,
        List.count_singleton_self, Bool.toNat_true, Bool.toNat_false] at before counted ⊢
      omega
    · have own := seats.callers caller (List.mem_of_getElem? found)
      rw [holding, Phase.seats, Prod.mk.injEq] at own
      refine Slots.forall_set seats.callers ?_
      simp [own.1, own.2, Phase.seats]
  · exact seats

end

theorem Seats.arrive (home : Option Nat) (timeout : Option ℚ)
    (purpose : Purpose) : Seats limit (system.arrive home timeout purpose) := by
  refine ⟨seats.limited, ?_, seats.bounded,
    forall_mem_append.mpr ⟨seats.callers, forall_mem_singleton.mpr rfl⟩⟩
  have before := seats.conserved
  simpa [System.holders, System.returned, System.arrive, Phase.seats] using before

theorem Seats.step (action : Action) : Seats limit (system.step action) := by
  cases action with
  | step index futureDone =>
    simp only [System.step]
    split
    · rename_i caller found
      exact seats.advance found futureDone
    · exact seats
  | resume =>
    simp only [System.step]
    split
    · rename_i caller found
      simp only [System.resume]
      split
      · rename_i waiting
        exact seats.move found rfl rfl rfl rfl (by rw [waiting]; rfl)
      · exact seats
    · exact seats
  | cancel =>
    simp only [System.step]
    split
    · rename_i caller found
      exact seats.cancel found
    · exact seats
  | release =>
    simp only [System.step]
    split
    · rename_i caller found
      exact seats.release found
    · exact seats
  | tick
  | loop => exact { seats with }
  | _ => exact seats.arrive _ _ _

end

end

theorem Seats.run {limit : Nat} {system : System} (actions : List Action) (seats : Seats limit system) :
    Seats limit (system.run actions) :=
  Stepwise.keeps (fun _ action seats => seats.step action) seats actions

theorem Seats.start (maxConcurrent : Nat) (clock : ℚ) (loops : Nat → LoopState) :
    Seats maxConcurrent (.start maxConcurrent clock loops) := by
  refine ⟨rfl, rfl, Nat.zero_le _, ?_⟩
  intro caller member
  cases member

/-- The bulkhead never admits more than its bound and loses no seat; a caller turned away took none. -/
theorem seats_conserved (maxConcurrent : Nat) (clock : ℚ) (loops : Nat → LoopState) (actions : List Action) :
    let system := (start maxConcurrent clock loops).run actions
    system.holders ≤ maxConcurrent ∧
      system.room.taken = system.holders + system.returned ∧
      ∀ caller ∈ system.callers,
        (caller.hasSeat = true → caller.took = 1 ∧ caller.gave = 0) ∧
        (caller.hasSeat = false → caller.took = caller.gave ∧ caller.gave ≤ 1) ∧
        (caller.phase = .ended .cancelled ∨ caller.phase = .ended .rejected → caller.took = 0 ∧ caller.gave = 0) ∧
        (caller.phase = .ended .released → caller.took = 1 ∧ caller.gave = 1) := by
  intro system
  have seats : Seats maxConcurrent system := (Seats.start maxConcurrent clock loops).run actions
  have conserved := seats.conserved
  have bounded := seats.bounded
  refine ⟨by omega, conserved, ?_⟩
  intro caller member
  have own := seats.callers caller member
  refine ⟨?_, ?_, ?_, ?_⟩
  · intro seated
    simp only [hasSeat, decide_eq_true_eq] at seated
    exact Prod.mk.inj (own.trans seated)
  · intro standing
    simp only [hasSeat, decide_eq_false_iff_not] at standing
    rcases caller.phase.seats_cases with taken | given | without
    · exact absurd taken standing
    · obtain ⟨took, gave⟩ := Prod.mk.inj (own.trans given)
      exact ⟨by omega, by omega⟩
    · obtain ⟨took, gave⟩ := Prod.mk.inj (own.trans without)
      exact ⟨by omega, by omega⟩
  · rintro (phase | phase) <;> rw [phase] at own <;> exact Prod.mk.inj own
  · intro phase
    rw [phase] at own
    exact Prod.mk.inj own

end Baldur.Bulkhead
