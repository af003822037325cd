import Baldur.DlqOutbox.Accounting
import Baldur.Lib.Stepwise

/-!
`flush_and_wait` against the writer thread (`services/dlq_outbox/outbox.py`, `worker.py`), read by
read. The writer pops a batch before it adds it to `in_flight`; the waiter polls the size, then `in_flight`.
-/

namespace Baldur.DlqOutbox

/-- The call before its first step, before its read of the size, of `in_flight`, of
`entries_written`, and after it. -/
inductive FlushStage
  | ahead
  | polling
  | sized
  | settled
  | returned (written : Nat)
  deriving DecidableEq

/-- `unregistered` counts the popped entries that the writer has still to add to `in_flight`. `early` (the
entries enqueued before the call), `noted` (those written before it) and `missed` (the batch that was
unregistered when it left its loop) are records of the model. -/
structure FlushRun (κ : Type) where
  outbox : Outbox κ
  unregistered : Nat := 0
  flush : FlushStage := .ahead
  drainedBefore : Nat := 0
  early : List Nat := []
  noted : Nat := 0
  missed : List Nat := []

inductive FlushMove (κ : Type)
  | put (kwargs : κ)
  | write (result : Option WriteResult)
  | respawn
  | flush

namespace FlushRun

variable {κ : Type} (run : FlushRun κ)

def start (capacity batchSize : Nat) (strategy : BackpressureStrategy) (positive : 0 < capacity) : FlushRun κ :=
  { outbox := .start capacity batchSize strategy positive }

def write (result : Option WriteResult) : FlushRun κ :=
  if 0 < run.unregistered then { run with unregistered := 0 }
  else
    let outbox := run.outbox.writerStep result
    { run with outbox, unregistered := outbox.inFlight - run.outbox.inFlight }

def flushAndWait : FlushRun κ :=
  match run.flush with
  | .ahead =>
      { run with
        drainedBefore := run.outbox.entriesWritten
        early := run.outbox.early
        noted := run.outbox.fateCount .written
        flush := .polling }
  | .polling => if 0 < run.outbox.buffer.items.length then run else { run with flush := .sized }
  | .sized =>
      if 0 < run.outbox.inFlight - run.unregistered then { run with flush := .polling }
      else
        { run with
          flush := .settled
          missed := if run.unregistered = 0 then [] else run.outbox.unresolved.map (·.ticket) }
  | .settled => { run with flush := .returned (run.outbox.entriesWritten - run.drainedBefore) }
  | .returned _ => run

def step : FlushMove κ → FlushRun κ
  | .put kwargs => { run with outbox := run.outbox.put kwargs }
  | .write result => run.write result
  | .respawn =>
      let outbox := run.outbox.spawnThread
      -- A writer that was replaced adds nothing any more.
      { run with outbox, unregistered := min run.unregistered outbox.inFlight }
  | .flush => run.flushAndWait

/-- When the call returns, every entry enqueued before it is resolved, and it returns the number of the
entries written during it. -/
def Settles : FlushMove κ → Prop
  | .flush => run.flush = .settled →
      run.flushAndWait.flush = .returned (run.outbox.fateCount .written - run.noted) ∧
        ∀ ticket ∈ run.early, run.outbox.HasFate ticket
  | _ => True

/-- The writer does not die in a write, and the last read comes when the batch that the call missed is
resolved. -/
def Caught : FlushMove κ → Prop
  | .write result => run.outbox.orderly (.write result) = true
  | .flush => run.flush = .settled → ∀ ticket ∈ run.missed, run.outbox.HasFate ticket
  | _ => True

structure Sound : Prop where
  placed : run.outbox.Placed
  counted : run.outbox.Counted
  ahead : run.outbox.teardown = .ahead
  flying : run.outbox.inFlight = run.outbox.unresolved.length
  gap : run.unregistered = 0 ∨ run.unregistered = run.outbox.inFlight
  early : run.early ⊆ run.outbox.early
  drained : run.drainedBefore = run.noted
  sized : run.flush = .sized → ∀ ticket ∈ run.early,
    run.outbox.HasFate ticket ∨ ticket ∈ run.outbox.unresolved.map (·.ticket)
  missed : run.flush = .settled → ∀ ticket ∈ run.early, run.outbox.HasFate ticket ∨ ticket ∈ run.missed

variable {run : FlushRun κ} {after : Outbox κ}

section

variable (sound : run.Sound)

include sound

theorem Sound.pass (placed : after.Placed) (counted : after.Counted) {unregistered : Nat}
    (teardown : after.teardown = run.outbox.teardown) (early : run.outbox.early ⊆ after.early)
    (flying : after.inFlight = after.unresolved.length) (gap : unregistered = 0 ∨ unregistered = after.inFlight)
    (fates : run.outbox.fates ⊆ after.fates)
    (moved : ∀ item ∈ run.outbox.unresolved, item ∈ after.unresolved ∨ after.HasFate item.ticket) :
    Sound { run with outbox := after, unregistered } := by
  refine ⟨placed, counted, teardown.trans sound.ahead, flying, gap, List.Subset.trans sound.early early, sound.drained,
    ?_, ?_⟩
  · intro reached ticket member
    rcases sound.sized reached ticket member with known | listed
    · exact .inl (known.mono fates)
    · obtain ⟨item, popped, rfl⟩ := List.mem_map.mp listed
      exact (moved item popped).symm.imp_right List.mem_map_of_mem
  · intro reached ticket member
    exact (sound.missed reached ticket member).imp_left (·.mono fates)

theorem Sound.put (kwargs : κ) : Sound { run with outbox := run.outbox.put kwargs } := by
  refine sound.pass (sound.placed.put kwargs) (sound.counted.put kwargs) rfl ?_ sound.flying sound.gap
    (List.subset_append_right _ _) fun _ member => .inl member
  simp only [Outbox.put]
  split
  · exact List.subset_append_left _ _
  · exact List.Subset.refl _

theorem Sound.work (works : Outbox.Works run.outbox after) (placed : after.Placed) (counted : after.Counted) :
    ∀ unregistered, (after.inFlight ≤ run.outbox.inFlight → unregistered = 0 ∨ unregistered = after.inFlight) →
      Sound { run with outbox := after, unregistered } := by
  have open_ : run.outbox.teardown.rescued = false := by rw [sound.ahead]; rfl
  have course := sound.placed.course open_
  obtain ⟨flying, fewer⟩ := works.flying course sound.flying
  intro unregistered gap
  exact sound.pass placed counted works.teardown (works.early ▸ List.Subset.refl _) flying (gap fewer) works.grown
    (works.course open_ course).2

theorem Sound.write {result : Option WriteResult} (orderly : run.outbox.orderly (.write result) = true) :
    (run.write result).Sound := by
  unfold FlushRun.write
  split
  · exact { sound with gap := .inl rfl }
  have placed := sound.placed.writerStep result orderly
  have counted := sound.counted.step (.write result)
  by_cases idle : run.outbox.writer = .looping
  · -- The ring's items move into the batch, and nothing else was in flight.
    have course := sound.placed.course (by rw [sound.ahead]; rfl)
    rw [Outbox.OnCourse, idle] at course
    have landed : run.outbox.inFlight = 0 := by rw [sound.flying, course]; rfl
    obtain ⟨last, maxSize, popped⟩ : ∃ last maxSize,
        run.outbox.writerStep result = run.outbox.popAndPublish last maxSize := by
      simp only [Outbox.writerStep, idle]
      split
      · exact ⟨_, _, rfl⟩
      · exact ⟨_, _, rfl⟩
    simp only [Outbox.step, popped, Outbox.popAndPublish, Outbox.batchLocked, sound.ahead, landed] at placed counted ⊢
    refine sound.pass placed counted sound.ahead.symm (List.Subset.refl _) ?_ (.inr (Nat.sub_zero _))
      (List.Subset.refl _) fun item member => ?_
    · simp [Outbox.unresolved]
    · rw [course] at member
      cases member
  · refine sound.work (Outbox.works_writerStep idle orderly) placed counted _ fun fewer => ?_
    omega

theorem Sound.flushAndWait : run.flushAndWait.Sound := by
  unfold FlushRun.flushAndWait
  split
  · exact { sound with
      early := List.Subset.refl _
      drained := sound.counted.written
      sized := by rintro ⟨⟩
      missed := by rintro ⟨⟩ }
  · split
    · exact sound
    · rename_i empty
      refine { sound with sized := fun _ ticket member => ?_, missed := by rintro ⟨⟩ }
      refine (sound.placed.placed ticket (sound.early member)).imp_right ?_
      rintro ⟨item, there, rfl⟩
      rw [List.length_pos_iff, not_not] at empty
      simp only [Outbox.underway, sound.ahead, empty, List.nil_append] at there
      exact List.mem_map_of_mem there
  · rename_i stage
    split
    · exact { sound with sized := by rintro ⟨⟩, missed := by rintro ⟨⟩ }
    · rename_i landed
      refine { sound with sized := by rintro ⟨⟩, missed := fun _ ticket member => ?_ }
      refine (sound.sized stage ticket member).imp_right fun popped => ?_
      have some := List.length_pos_of_mem popped
      rw [List.length_map, ← sound.flying] at some
      rw [if_neg (by omega)]
      exact popped
  · exact { sound with sized := by rintro ⟨⟩, missed := by rintro ⟨⟩ }
  · exact sound

theorem Sound.step {move : FlushMove κ} (caught : run.Caught move) : (run.step move).Sound := by
  cases move with
  | put kwargs => exact sound.put kwargs
  | write => exact sound.write caught
  | respawn =>
    refine sound.work Outbox.works_spawnThread (sound.placed.work Outbox.works_spawnThread)
      (sound.counted.step .respawn) _ fun fewer => ?_
    have gap := sound.gap
    omega
  | flush => exact sound.flushAndWait

theorem Sound.settles {move : FlushMove κ} (caught : run.Caught move) : run.Settles move := by
  cases move with
  | put | write | respawn => trivial
  | flush =>
    intro settled
    constructor
    · simp only [FlushRun.flushAndWait, settled, sound.drained, sound.counted.written]
    · intro ticket member
      exact (sound.missed settled ticket member).elim id (caught settled ticket)

end

theorem flush_settles (capacity batchSize : Nat) (strategy : BackpressureStrategy) (positive : 0 < capacity)
    (moves : List (FlushMove κ))
    (caught : Stepwise.Always step Caught (start capacity batchSize strategy positive) moves) :
    Stepwise.Always step Settles (start capacity batchSize strategy positive) moves := by
  have sound : (start capacity batchSize strategy positive : FlushRun κ).Sound :=
    ⟨.start .., .start .., rfl, rfl, .inl rfl, nofun, rfl, nofun, nofun⟩
  exact Stepwise.always_under Sound (fun _ _ sound caught => sound.step caught)
    (fun _ _ sound caught => sound.settles caught) sound caught

theorem missed_batch_is_settled :
    Stepwise.Always step Settles (start 2 2 .dropOldest Nat.two_pos)
      [.put "a", .put "b", .write none, .flush, .flush, .flush, .write none, .write none, .write (some .stored),
        .write none, .write none, .write (some .fallback), .write none, .flush] := by
  refine flush_settles 2 2 .dropOldest Nat.two_pos _ ?_
  refine ⟨trivial, trivial, rfl, nofun, nofun, nofun, rfl, rfl, rfl, rfl, rfl, rfl, rfl, fun _ ticket member => ?_,
    trivial⟩
  rcases List.mem_pair.mp member with rfl | rfl
  · exact ⟨.written, by decide⟩
  · exact ⟨.softFailed, by decide⟩

theorem flush_returns_early :
    ¬ Stepwise.Always step Settles (start 1 1 .dropOldest Nat.one_pos)
      [.put "a", .write none, .flush, .flush, .flush, .flush] := by
  rintro ⟨_, _, _, _, _, settles, _⟩
  obtain ⟨_, resolved⟩ := settles rfl
  obtain ⟨fate, noted⟩ := resolved 0 (by decide)
  cases noted

end FlushRun

end Baldur.DlqOutbox
