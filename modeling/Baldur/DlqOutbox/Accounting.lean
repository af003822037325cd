import Baldur.DlqOutbox.OutboxCore

/-!
No entry leaves the outbox unaccounted: it has a fate, lies on the ring or in the unresolved rest of the
published batch, or is still to be dumped. Only the death of the writer thread inside a write breaks this.
-/

namespace Baldur.DlqOutbox

open List Outbox

namespace RingBuffer

variable {α : Type} {ring : RingBuffer α}

theorem items_of_full (full : ¬ring.items.length < ring.capacity) : ∃ first rest, ring.items = first :: rest := by
  refine exists_cons_of_length_pos ?_
  have positive := ring.positive
  omega

theorem mem_put {item held : α} (member : held ∈ ring.items) :
    held ∈ (ring.put item).items ∨ ring.displaced item = some held := by
  unfold put displaced
  split
  · exact .inl (mem_append_left _ member)
  · rename_i full
    cases ring.strategy with
    | dropNewest => exact .inl member
    | dropOldest =>
      show held ∈ ring.items.tail ++ [item] ∨ ring.items.head? = some held
      obtain ⟨first, rest, items⟩ := items_of_full full
      rw [items] at member ⊢
      rcases mem_cons.mp member with same | later
      · exact .inr (by simp [same])
      · exact .inl (by simp [later])

theorem mem_put_self (item : α) (accepted : ring.accepts = true) : item ∈ (ring.put item).items := by
  unfold put
  split
  · simp
  · rename_i full
    cases strategy : ring.strategy with
    | dropOldest => simp
    | dropNewest => simp [accepts, full, strategy] at accepted

theorem mem_getBatch {held : α} (maxSize : Nat) (member : held ∈ ring.items) :
    held ∈ (ring.getBatch maxSize).1 ∨ held ∈ (ring.getBatch maxSize).2.items := by
  have whole : held ∈ ring.items.take maxSize ++ ring.items.drop maxSize := by
    rwa [take_append_drop]
  exact mem_append.mp whole

theorem dropped_put (ring : RingBuffer α) (item : α) :
    (ring.put item).totalDropped = ring.totalDropped + (ring.displaced item).toList.length := by
  unfold put displaced
  split
  · simp
  · rename_i full
    cases ring.strategy with
    | dropNewest => rfl
    | dropOldest =>
      obtain ⟨first, rest, items⟩ := items_of_full full
      show ring.totalDropped + 1 = ring.totalDropped + ring.items.head?.toList.length
      rw [items]
      rfl

end RingBuffer

namespace Outbox

variable {κ : Type}

def HasFate (outbox : Outbox κ) (ticket : Nat) : Prop :=
  ∃ fate, (ticket, fate) ∈ outbox.fates

def unresolved (outbox : Outbox κ) : List (Item κ) :=
  outbox.pendingBatch.drop outbox.pendingIndex

def fateCount (outbox : Outbox κ) (fate : Fate) : Nat :=
  outbox.fates.countP fun noted => decide (noted.2 = fate)

structure Counted (outbox : Outbox κ) : Prop where
  written : outbox.entriesWritten = outbox.fateCount .written
  softFailed : outbox.entriesSoftFailed = outbox.fateCount .softFailed
  failed : outbox.entriesFailed = outbox.fateCount .failed
  dumped : outbox.entriesEmergencyDumped = outbox.fateCount .dumped
  residual : outbox.entriesShutdownResidual = outbox.fateCount .residual
  dropped : outbox.buffer.totalDropped = outbox.fateCount .dropped

variable {outbox : Outbox κ}

theorem Counted.count (counted : Counted outbox) (ticket : Nat) {fate : Fate}
    (other : fate ≠ .dropped) : Counted (outbox.count ticket fate) := by
  obtain ⟨written, softFailed, failed, dumped, residual, dropped⟩ := counted
  cases fate <;>
    first
    | exact absurd rfl other
    | constructor <;> simp [Outbox.count, fateCount] at * <;> assumption

theorem Counted.put (counted : Counted outbox) (kwargs : κ) : Counted (outbox.put kwargs) := by
  have drops := outbox.buffer.dropped_put ⟨outbox.buffer.totalEnqueued, kwargs⟩
  have others {fate : Fate} (other : fate ≠ .dropped) : (outbox.put kwargs).fateCount fate = outbox.fateCount fate := by
    simp [fateCount, Outbox.put, countP_append, countP_map, Function.comp_def, Ne.symm other]
  refine ⟨?_, ?_, ?_, ?_, ?_, ?_⟩
  · exact counted.written.trans (others (by decide)).symm
  · exact counted.softFailed.trans (others (by decide)).symm
  · exact counted.failed.trans (others (by decide)).symm
  · exact counted.dumped.trans (others (by decide)).symm
  · exact counted.residual.trans (others (by decide)).symm
  · have before := counted.dropped
    simp only [fateCount, Outbox.put, countP_append, countP_map, Function.comp_def,
      decide_true, countP_true] at before ⊢
    omega

theorem Counted.popAndPublish (counted : Counted outbox) (last : Bool) (maxSize : Nat) :
    Counted (outbox.popAndPublish last maxSize) := by
  unfold Outbox.popAndPublish
  split
  · exact counted
  · exact { counted with }

theorem Counted.step (counted : Counted outbox) (action : Action κ) : Counted (outbox.step action) := by
  cases action with
  | put kwargs => exact counted.put kwargs
  | write result =>
    simp only [Outbox.step, Outbox.writerStep]
    split
    · split <;> exact counted.popAndPublish _ _
    case h_4 =>
      split
      · rename_i item _ _ result
        exact { counted.count _ (by cases result <;> decide) with }
      · exact { counted with }
    all_goals exact { counted with }
  | latePop =>
    simp only [Outbox.step, Outbox.latePop]
    split
    · exact counted.popAndPublish _ _
    · exact counted
  | respawn =>
    simp only [Outbox.step, Outbox.spawnThread]
    split
    all_goals exact { counted with }
  | teardown =>
    simp only [Outbox.step, Outbox.teardownStep]
    split
    case h_6 => exact { counted.count _ (by split <;> decide) with }
    all_goals exact { counted with }

end Outbox

def Teardown.rescued {κ : Type} : Teardown κ → Bool
  | .dumping _ _ | .returned _ => true
  | _ => false

namespace Outbox

variable {κ : Type}

def underway (outbox : Outbox κ) : List (Item κ) :=
  match outbox.teardown with
  | .drained _ remaining => remaining ++ outbox.unresolved
  | .dumping _ todo => todo
  | .returned _ => []
  | _ => outbox.buffer.items ++ outbox.unresolved

def OnCourse (outbox : Outbox κ) : Prop :=
  match outbox.writer with
  | .looping | .exited => outbox.unresolved = []
  | .flushing _ rest => outbox.unresolved = rest
  | .writing _ item rest => outbox.unresolved = item :: rest
  | .resolved _ rest => ∃ item, outbox.unresolved = item :: rest ∧ outbox.HasFate item.ticket
  | .dying | .dead => False

structure Placed (outbox : Outbox κ) : Prop where
  course : outbox.teardown.rescued = false → outbox.OnCourse
  placed : ∀ ticket ∈ outbox.early, outbox.HasFate ticket ∨ ∃ item ∈ outbox.underway, item.ticket = ticket

/-- A step of the writer thread that pops nothing. -/
structure Works (outbox next : Outbox κ) : Prop where
  early : next.early = outbox.early
  teardown : next.teardown = outbox.teardown
  buffer : next.buffer = outbox.buffer
  grown : outbox.fates ⊆ next.fates
  course : outbox.teardown.rescued = false → outbox.OnCourse →
    next.OnCourse ∧ ∀ item ∈ outbox.unresolved, item ∈ next.unresolved ∨ next.HasFate item.ticket
  flying : outbox.OnCourse → outbox.inFlight = outbox.unresolved.length →
    next.inFlight = next.unresolved.length ∧ next.inFlight ≤ outbox.inFlight

variable {outbox : Outbox κ} {next : Outbox κ}

theorem HasFate.mono {ticket : Nat} (grown : outbox.fates ⊆ next.fates) (known : outbox.HasFate ticket) :
    next.HasFate ticket := by
  obtain ⟨fate, noted⟩ := known
  exact ⟨fate, grown noted⟩

section

variable (placed : Placed outbox)

include placed

theorem Placed.carry (early : next.early = outbox.early)
    (grown : outbox.fates ⊆ next.fates) (course : next.teardown.rescued = false → next.OnCourse)
    (moved : ∀ item ∈ outbox.underway, item ∈ next.underway ∨ next.HasFate item.ticket) :
    Placed next := by
  refine ⟨course, ?_⟩
  intro ticket member
  rw [early] at member
  rcases placed.placed ticket member with known | ⟨item, there, rfl⟩
  · exact .inl (known.mono grown)
  · rcases moved item there with still | known
    · exact .inr ⟨item, still, rfl⟩
    · exact .inl known

theorem Placed.put (kwargs : κ) : Placed (outbox.put kwargs) := by
  have grown : outbox.fates ⊆ (outbox.put kwargs).fates := subset_append_right _ _
  have course (open_ : (outbox.put kwargs).teardown.rescued = false) : (outbox.put kwargs).OnCourse := by
    have before := placed.course open_
    unfold OnCourse at before ⊢
    simp only [Outbox.put] at before ⊢
    cases writer : outbox.writer <;> simp only [writer] at before ⊢ <;> try exact before
    obtain ⟨item, rest, known⟩ := before
    exact ⟨item, rest, known.mono grown⟩
  have moved (item : Item κ) (member : item ∈ outbox.underway) :
      item ∈ (outbox.put kwargs).underway ∨ (outbox.put kwargs).HasFate item.ticket := by
    have ring (held : item ∈ outbox.buffer.items) :
        item ∈ (outbox.put kwargs).buffer.items ∨ (outbox.put kwargs).HasFate item.ticket := by
      refine (RingBuffer.mem_put held).imp id ?_
      intro displaced
      exact ⟨.dropped, mem_append_left _ (by simp [displaced])⟩
    unfold underway at member ⊢
    simp only [Outbox.put] at member ring ⊢
    cases teardown : outbox.teardown with
    | ahead | coerced | flushing | stopping =>
      simp only [teardown, mem_append] at member ⊢
      rcases member with held | published
      · exact (ring held).imp_left .inl
      · exact .inl (.inr published)
    | drained | dumping | returned =>
      simp only [teardown] at member ⊢
      exact .inl member
  refine ⟨course, ?_⟩
  intro ticket member
  have old (known : ticket ∈ outbox.early) :
      (outbox.put kwargs).HasFate ticket ∨ ∃ item ∈ (outbox.put kwargs).underway, item.ticket = ticket := by
    rcases placed.placed ticket known with fate | ⟨item, there, rfl⟩
    · exact .inl (fate.mono grown)
    · exact (moved item there).symm.imp_right (fun still => ⟨item, still, rfl⟩)
  by_cases counted : (!outbox.teardown.begun && outbox.buffer.accepts) = true
  · simp only [Outbox.put, counted, if_true, mem_append, mem_singleton] at member
    rcases member with known | rfl
    · exact old known
    · rw [Bool.and_eq_true] at counted
      refine .inr ⟨⟨outbox.buffer.totalEnqueued, kwargs⟩, ?_, rfl⟩
      have fresh := RingBuffer.mem_put_self ⟨outbox.buffer.totalEnqueued, kwargs⟩ counted.2
      unfold underway
      cases teardown : outbox.teardown with
      | ahead => simpa [Outbox.put, teardown] using .inl fresh
      | coerced | flushing | stopping | drained | dumping | returned =>
        simp [teardown, Teardown.begun] at counted
  · simp only [Outbox.put, counted] at member
    exact old member

theorem Placed.popAndPublish (idle : outbox.writer = .looping)
    (last : Bool) (maxSize : Nat) : Placed (outbox.popAndPublish last maxSize) := by
  unfold Outbox.popAndPublish
  split
  · exact placed
  · rename_i unlocked
    refine placed.carry rfl (Subset.refl _) (fun _ => rfl) ?_
    intro item member
    refine .inl ?_
    have resolved (open_ : outbox.teardown.rescued = false) : outbox.unresolved = [] := by
      have course := placed.course open_
      rwa [OnCourse, idle] at course
    unfold underway at member ⊢
    cases teardown : outbox.teardown with
    | drained => simp [batchLocked, teardown] at unlocked
    | dumping | returned =>
      simp only [teardown] at member ⊢
      exact member
    | ahead | coerced | flushing | stopping =>
      simp only [teardown, resolved (by rw [teardown]; rfl), append_nil] at member ⊢
      exact mem_append.mpr (RingBuffer.mem_getBatch maxSize member).symm

theorem Placed.work (works : Works outbox next) : Placed next := by
  refine placed.carry works.early works.grown ?_ ?_
  · intro open_
    rw [works.teardown] at open_
    exact (works.course open_ (placed.course open_)).1
  · intro item member
    unfold underway at member ⊢
    rw [works.teardown, works.buffer]
    cases stage : outbox.teardown with
    | dumping | returned =>
      simp only [stage] at member ⊢
      exact .inl member
    | ahead | coerced | flushing | stopping | drained =>
      have open_ : outbox.teardown.rescued = false := by rw [stage]; rfl
      simp only [stage, mem_append] at member ⊢
      rcases member with held | published
      · exact .inl (.inl held)
      · exact ((works.course open_ (placed.course open_)).2 item published).imp_left .inr

end

theorem fates_count (ticket : Nat) (fate : Fate) :
    (outbox.count ticket fate).fates = (ticket, fate) :: outbox.fates := by
  cases fate <;> rfl

theorem count_same (outbox : Outbox κ) (ticket : Nat) (fate : Fate) :
    (outbox.count ticket fate).early = outbox.early ∧
      (outbox.count ticket fate).teardown = outbox.teardown ∧
      (outbox.count ticket fate).buffer = outbox.buffer ∧
      (outbox.count ticket fate).unresolved = outbox.unresolved ∧
      (outbox.count ticket fate).inFlight = outbox.inFlight := by
  cases fate <;> exact ⟨rfl, rfl, rfl, rfl, rfl⟩

theorem unresolved_resolve (writer : Writer κ) : (outbox.resolve writer).unresolved = outbox.unresolved.tail := by
  simp only [unresolved, resolve]
  rw [← drop_drop, drop_one]

def orderly (outbox : Outbox κ) : Action κ → Bool
  | .write none =>
      match outbox.writer with
      | .writing _ _ _ => outbox.teardown.rescued
      | _ => true
  | _ => true

theorem works_writer {writer : Writer κ}
    (course : outbox.teardown.rescued = false → outbox.OnCourse → OnCourse { outbox with writer }) :
    Works outbox { outbox with writer } :=
  ⟨rfl, rfl, rfl, Subset.refl _, fun open_ before => ⟨course open_ before, fun _ => .inl⟩, fun _ flying => ⟨flying, Nat.le_refl _⟩⟩

theorem works_resolve {last : Bool} {rest : List (Item κ)} (stage : outbox.writer = .resolved last rest) :
    Works outbox (outbox.resolve (.flushing last rest)) := by
  have tail : (outbox.resolve (.flushing last rest)).unresolved = outbox.unresolved.tail := unresolved_resolve _
  refine ⟨rfl, rfl, rfl, Subset.refl _, fun _ course => ?_, fun _ flying => ⟨?_, Nat.sub_le _ _⟩⟩
  · rw [OnCourse, stage] at course
    obtain ⟨item, listed, known⟩ := course
    rw [listed, tail_cons] at tail
    refine ⟨tail, fun other member => ?_⟩
    rw [listed] at member
    rcases mem_cons.mp member with rfl | later
    · exact .inr known
    · exact .inl (tail ▸ later)
  · rw [tail, length_tail, ← flying]
    rfl

theorem works_writerStep {result : Option WriteResult} (busy : outbox.writer ≠ .looping)
    (orderly : outbox.orderly (.write result) = true) : Works outbox (outbox.writerStep result) := by
  obtain ⟨buffer, batchSize, pending, index, written, softFailed, failed, inFlight, dumped, residual, stopEvent,
    writer, teardown, early, fates⟩ := outbox
  cases writer with
  | looping => exact absurd rfl busy
  | flushing last rest =>
    cases rest with
    | cons => exact works_writer fun _ course => course
    | nil =>
      refine works_writer fun _ course => ?_
      cases last <;> exact course
  | writing last item =>
    cases result with
    | some result =>
      generalize opened : mk .. = outbox
      obtain ⟨early, teardown, buffer, same, inFlight⟩ := count_same outbox item.ticket result.bucket
      have noted : (outbox.count item.ticket result.bucket).fates = _ := fates_count _ _
      subst opened
      refine ⟨early, teardown, buffer, noted ▸ subset_cons_self _ _, fun _ course => ⟨⟨item, same.trans course, ?_⟩, ?_⟩, ?_⟩
      · exact ⟨result.bucket, noted ▸ mem_cons_self⟩
      · intro other member
        exact .inl (same ▸ member)
      · intro _ flying
        exact ⟨inFlight.trans (flying.trans (congrArg length same.symm)), Nat.le_of_eq inFlight⟩
    | none =>
      refine works_writer fun open_ => ?_
      cases (orderly : teardown.rescued = true).symm.trans open_
  | resolved => exact works_resolve rfl
  | dying => exact ⟨rfl, rfl, rfl, Subset.refl _, fun _ course => course.elim, fun course => course.elim⟩
  | dead | exited => exact works_writer fun _ course => course

theorem works_spawnThread : Works outbox outbox.spawnThread := by
  obtain ⟨buffer, batchSize, pending, index, written, softFailed, failed, inFlight, dumped, residual, stopEvent,
    writer, teardown, early, fates⟩ := outbox
  cases writer with
  | dead => exact ⟨rfl, rfl, rfl, Subset.refl _, fun _ course => course.elim, fun course => course.elim⟩
  | exited =>
    refine ⟨rfl, rfl, rfl, Subset.refl _, fun _ course => ⟨course, fun _ => .inl⟩, fun course _ => ⟨?_, Nat.zero_le _⟩⟩
    exact (congrArg length course).symm
  | looping | flushing | writing | resolved | dying => exact works_writer fun _ course => course

section

variable (placed : Placed outbox)

include placed

theorem Placed.writerStep (result : Option WriteResult)
    (orderly : outbox.orderly (.write result) = true) : Placed (outbox.writerStep result) := by
  by_cases idle : outbox.writer = .looping
  · simp only [Outbox.writerStep, idle]
    split <;> exact placed.popAndPublish idle _ _
  · exact placed.work (works_writerStep idle orderly)

theorem Placed.teardownStep (stored : Option Bool) : Placed (outbox.teardownStep stored) := by
  unfold Outbox.teardownStep
  cases teardown : outbox.teardown with
  | ahead | coerced | flushing | stopping =>
    have open_ : outbox.teardown.rescued = false := by rw [teardown]; rfl
    refine placed.carry rfl (Subset.refl _) (fun _ => placed.course open_) ?_
    intro item member
    rw [underway, teardown] at member
    exact .inl member
  | drained =>
    refine placed.carry rfl (Subset.refl _) (fun closed => by cases closed) ?_
    intro item member
    rw [underway, teardown] at member
    exact .inl (mem_append.mpr (mem_append.mp member).symm)
  | dumping before todo =>
    cases todo with
    | cons first =>
      dsimp only
      generalize (if stored = some true then Fate.dumped else .residual) = fate
      obtain ⟨early, _, _, _⟩ := count_same outbox first.ticket fate
      refine placed.carry early ?_ (fun closed => by cases closed) ?_
      · show outbox.fates ⊆ (outbox.count first.ticket fate).fates
        rw [fates_count]
        exact subset_cons_self _ _
      · intro item member
        rw [underway, teardown] at member
        rcases mem_cons.mp member with same | later
        · refine .inr ⟨fate, ?_⟩
          show _ ∈ (outbox.count first.ticket fate).fates
          rw [fates_count, same]
          exact mem_cons_self
        · exact .inl later
    | nil =>
      refine placed.carry rfl (Subset.refl _) (fun closed => by cases closed) ?_
      intro item member
      rw [underway, teardown] at member
      exact .inl member
  | returned => exact placed

theorem Placed.step (action : Action κ) (orderly : outbox.orderly action = true) : Placed (outbox.step action) := by
  cases action with
  | put kwargs => exact placed.put kwargs
  | write result => exact placed.writerStep result orderly
  | latePop =>
    simp only [Outbox.step, Outbox.latePop]
    split
    · rename_i idle
      exact placed.popAndPublish idle _ _
    · exact placed
  | respawn => exact placed.work works_spawnThread
  | teardown stored => exact placed.teardownStep stored

end

def orderlyRun : Outbox κ → List (Action κ) → Bool
  | _, [] => true
  | outbox, action :: rest => outbox.orderly action && (outbox.step action).orderlyRun rest

theorem Placed.run (actions : List (Action κ)) (placed : Placed outbox)
    (orderly : outbox.orderlyRun actions = true) : Placed (outbox.run actions) := by
  induction actions generalizing outbox with
  | nil => exact placed
  | cons action rest ih =>
    simp only [orderlyRun, Bool.and_eq_true] at orderly
    exact ih (placed.step action orderly.1) orderly.2

theorem Counted.run (actions : List (Action κ)) (counted : Counted outbox) : Counted (outbox.run actions) := by
  induction actions generalizing outbox with
  | nil => exact counted
  | cons action rest ih => exact ih (counted.step action)

theorem Placed.start (capacity batchSize : Nat) (strategy : BackpressureStrategy) (positive : 0 < capacity) :
    Placed (start capacity batchSize strategy positive : Outbox κ) := by
  refine ⟨fun _ => rfl, ?_⟩
  intro ticket member
  cases member

theorem Counted.start (capacity batchSize : Nat) (strategy : BackpressureStrategy) (positive : 0 < capacity) :
    Counted (start capacity batchSize strategy positive : Outbox κ) :=
  ⟨rfl, rfl, rfl, rfl, rfl, rfl⟩

end Outbox

/-- Once the teardown has returned, every entry accepted before the coercion of the producers
was noted for a counter, and every counter counts exactly the entries noted for it. -/
theorem early_entries_accounted {κ : Type} (capacity batchSize : Nat)
    (strategy : BackpressureStrategy) (positive : 0 < capacity)
    (actions : List (Outbox.Action κ))
    (orderly : (Outbox.start capacity batchSize strategy positive).orderlyRun actions = true) :
    let outbox := (Outbox.start capacity batchSize strategy positive).run actions
    Outbox.Counted outbox ∧
      ∀ report, outbox.teardown = .returned report →
        ∀ ticket ∈ outbox.early, ∃ fate, (ticket, fate) ∈ outbox.fates := by
  intro outbox
  have placed : Outbox.Placed outbox :=
    (Outbox.Placed.start capacity batchSize strategy positive).run actions orderly
  refine ⟨(Outbox.Counted.start capacity batchSize strategy positive).run actions, ?_⟩
  intro report returned ticket early
  rcases placed.placed ticket early with known | ⟨item, there, _⟩
  · exact known
  · rw [underway, returned] at there
    cases there

def calmShutdown : List (Outbox.Action String) :=
  [.put "a", .put "b", .put "c"] ++ List.replicate 2 (.write none) ++
    [.write (some .stored), .write none, .write none, .write (some .fallback), .write none,
      .write none] ++ List.replicate 5 (.teardown none) ++ [.teardown (some true), .teardown none]

theorem calm_shutdown_accounted :
    ((Outbox.start 4 2 .dropOldest (by decide)).run calmShutdown).fates =
        [(2, .dumped), (1, .softFailed), (0, .written)] ∧
      Outbox.Counted ((Outbox.start 4 2 .dropOldest (by decide)).run calmShutdown) ∧
      ∀ ticket ∈ [0, 1, 2], ∃ fate,
        (ticket, fate) ∈ ((Outbox.start 4 2 .dropOldest (by decide)).run calmShutdown).fates := by
  have accounted := early_entries_accounted 4 2 .dropOldest (by decide) calmShutdown (by decide +kernel)
  have early : ((start 4 2 .dropOldest (by decide)).run calmShutdown).early = [0, 1, 2] := by
    decide +kernel
  refine ⟨by decide +kernel, accounted.1, ?_⟩
  rw [← early]
  exact accounted.2 ⟨1, 0, 0, 0, 1, 0, 0⟩ (by decide +kernel)

def deadWriter : List (Outbox.Action String) :=
  [.put "a", .put "b", .write none, .write none, .write none, .write none, .respawn, .put "c",
    .write none, .write none, .write (some .stored), .write none, .write none] ++
    List.replicate 6 (.teardown (some true))

theorem dead_writer_loses_batch :
    let outbox := (Outbox.start 4 2 .dropOldest (by decide)).run deadWriter
    outbox.teardown = .returned ⟨0, 0, 0, 0, 0, 0, 0⟩ ∧
      ¬∀ ticket ∈ outbox.early, ∃ fate, (ticket, fate) ∈ outbox.fates := by
  intro outbox
  have early : outbox.early = [0, 1, 2] := by decide +kernel
  have fates : outbox.fates = [(2, .written)] := by decide +kernel
  refine ⟨by decide +kernel, ?_⟩
  rw [early, fates]
  intro accounted
  obtain ⟨fate, noted⟩ := accounted 0 (by simp)
  simp at noted

end Baldur.DlqOutbox
