import Baldur.Wal.AuditDrain

/-!
Runs of the drain: what one step keeps, and how far a run gets when every delivery succeeds.
-/

namespace Baldur.Wal

open Drain List WriteAheadLog

variable {cursor later now : Nat} {α : Type} {entry : WalEntry α}

def remaining (targets : List (WalEntry α)) (cursor : Nat) : Nat :=
  (targets.filter fun entry => cursor < entry.sequence).length

theorem remaining_le (targets : List (WalEntry α)) (advanced : cursor ≤ later) :
    remaining targets later ≤ remaining targets cursor := by
  refine (monotone_filter_right targets fun entry isLate => ?_).length_le
  simp only [decide_eq_true_eq] at isLate ⊢
  omega

theorem remaining_lt {targets : List (WalEntry α)} (member : entry ∈ targets)
    (ahead : cursor < entry.sequence) (passed : entry.sequence ≤ later) :
    remaining targets later < remaining targets cursor := by
  have inside : (targets.filter fun entry => later < entry.sequence).Sublist
      (targets.filter fun entry => cursor < entry.sequence) := by
    refine monotone_filter_right targets fun other isLate => ?_
    simp only [decide_eq_true_eq] at isLate ⊢
    omega
  refine lt_of_le_of_ne inside.length_le fun same => ?_
  have listed : entry ∈ targets.filter fun entry => cursor < entry.sequence :=
    mem_filter.mpr ⟨member, decide_eq_true ahead⟩
  rw [← inside.eq_of_length same] at listed
  have late := of_decide_eq_true (mem_filter.mp listed).2
  omega

/-- A cycle that started after the targets were written will pass one of them. -/
def FreshStage (targets : List (WalEntry α)) (wal : WriteAheadLog α) (disk : List (WalEntry α)) (cursor : Nat) :
    DrainStage α → Prop
  | .idle => True
  | .flushed => targets ⊆ disk
  | .listed files => ∀ entry ∈ targets, cursor < entry.sequence → ∃ name ∈ files, entry ∈ wal.dir.records name
  | .syncing batch advanceOk _ =>
      advanceOk = true ∧ ∃ entry rest, batch = entry :: rest ∧ entry ∈ targets ∧ cursor < entry.sequence

def Progress (targets : List (WalEntry α)) (bound : Nat) (drain : Drain α) (disk : List (WalEntry α)) : Prop :=
  remaining targets drain.lastProcessedSeq = 0 ∨
    drain.cycles + remaining targets drain.lastProcessedSeq + 1 ≤ bound ∨
    drain.cycles + remaining targets drain.lastProcessedSeq ≤ bound ∧
      FreshStage targets drain.wal disk drain.lastProcessedSeq drain.stage

def DrainAction.Succeeds : DrainAction α → Prop
  | .read wired => wired = true
  | .deliver outcome => ∃ marked, outcome = .done marked
  | _ => True

section

variable {drain after : Drain α} {disk stored targets : List (WalEntry α)} {bound : Nat}

theorem Progress.same_cycle (progress : Progress targets bound drain disk) (cycles : after.cycles = drain.cycles)
    (cursor : drain.lastProcessedSeq ≤ after.lastProcessedSeq)
    (fresh : FreshStage targets drain.wal disk drain.lastProcessedSeq drain.stage →
      remaining targets after.lastProcessedSeq < remaining targets drain.lastProcessedSeq ∨
        FreshStage targets after.wal (disk ++ stored) after.lastProcessedSeq after.stage) :
    Progress targets bound after (disk ++ stored) := by
  have fewer := remaining_le targets cursor
  unfold Progress
  rw [cycles]
  rcases progress with done | stale | ⟨counted, isFresh⟩
  · exact .inl (by omega)
  · exact .inr (.inl (by omega))
  · rcases fresh isFresh with passed | stays
    · exact .inr (.inl (by omega))
    · exact .inr (.inr ⟨by omega, stays⟩)

theorem Progress.end_cycle (progress : Progress targets bound drain disk) (cycles : after.cycles = drain.cycles + 1)
    (cursor : after.lastProcessedSeq = drain.lastProcessedSeq) (idle : after.stage = .idle)
    (stale : FreshStage targets drain.wal disk drain.lastProcessedSeq drain.stage →
      remaining targets drain.lastProcessedSeq = 0) : Progress targets bound after disk := by
  unfold Progress
  rw [cycles, cursor, idle]
  rcases progress with done | before | ⟨_, isFresh⟩
  · exact .inl done
  · exact .inr (.inr ⟨by omega, trivial⟩)
  · exact .inl (stale isFresh)

theorem Stores.records_mono {wal next : WriteAheadLog α} (stores : Stores wal next now stored)
    {name : FileName} (inside : entry ∈ wal.dir.records name) :
    entry ∈ next.dir.records name := by
  cases stores with
  | nothing dir => rwa [dir]
  | appended _ nonempty dir =>
    rw [dir, records_append]
    split
    · rename_i same
      exact mem_append_left _ (same ▸ inside)
    · exact inside

theorem FreshStage.extend {wal next : WriteAheadLog α} {stage : DrainStage α}
    (fresh : FreshStage targets wal disk cursor stage) (stores : Stores wal next now stored) :
    FreshStage targets next (disk ++ stored) cursor stage := by
  cases stage with
  | idle => trivial
  | flushed => exact fun entry member => mem_append_left _ (fresh member)
  | listed =>
    intro entry member late
    obtain ⟨name, listed, inside⟩ := fresh entry member late
    exact ⟨name, listed, stores.records_mono inside⟩
  | syncing => exact fresh

end

section

variable {target : WalEntry α} {resync : Resync α} {alive : Nat → Bool} {batchSize : Nat}
  {drain : Drain α}
  {disk targets : List (WalEntry α)} {bound : Nat}

theorem Draining.head {files : List FileName} (draining : Draining drain disk) (stage : drain.stage = .listed files)
    (positive : 1 ≤ batchSize) (late : drain.lastProcessedSeq < target.sequence)
    (listed : ∃ name ∈ files, target ∈ drain.wal.dir.records name) :
    ∃ entry rest, drain.wal.recoverBounded resync files drain.lastProcessedSeq batchSize = entry :: rest ∧
      entry ∈ drain.written ∧ drain.lastProcessedSeq < entry.sequence ∧ entry.sequence ≤ target.sequence := by
  have listing := draining.stage
  rw [stage] at listing
  obtain ⟨held, inLog, holds, read⟩ := draining.tracks.recoverBounded resync listing.distinct listing.own
    drain.lastProcessedSeq batchSize
  have member : target ∈ held := (holds target).mpr ⟨late, listed⟩
  cases held with
  | nil => cases member
  | cons entry rest =>
    have ordered := pairwise_cons.mp (draining.tracks.ascending.sublist inLog)
    obtain ⟨size, rfl⟩ : ∃ size, batchSize = size + 1 := ⟨batchSize - 1, by omega⟩
    refine ⟨entry, rest.take size, by rw [read, take_succ_cons], ?_, ?_, ?_⟩
    · rw [draining.written]
      exact mem_append_left _ (inLog.subset mem_cons_self)
    · exact ((holds entry).mp mem_cons_self).1
    · rcases mem_cons.mp member with rfl | behind
      · exact le_rfl
      · exact (ordered.1 target behind).le

structure OnCourse (targets : List (WalEntry α)) (bound : Nat) (drain : Drain α) (disk : List (WalEntry α)) :
    Prop where
  draining : Draining drain disk
  oldest : ∃ newer, drain.written = targets ++ newer
  progress : Progress targets bound drain disk

theorem OnCourse.isTarget (course : OnCourse targets bound drain disk)
    (member : target ∈ targets) (known : entry ∈ drain.written) (older : entry.sequence ≤ target.sequence) :
    entry ∈ targets := by
  obtain ⟨newer, split⟩ := course.oldest
  rw [split] at known
  refine (mem_append.mp known).resolve_right fun isNew => ?_
  have ascending := course.draining.ascending
  rw [split] at ascending
  have later := (pairwise_append.mp ascending).2.2 target member entry isNew
  omega

theorem remaining_target (left : remaining targets cursor ≠ 0) : ∃ target ∈ targets, cursor < target.sequence := by
  obtain ⟨target, member⟩ := exists_mem_of_length_pos (Nat.pos_of_ne_zero left)
  obtain ⟨inside, late⟩ := mem_filter.mp member
  exact ⟨target, inside, of_decide_eq_true late⟩

theorem read_written (drain : Drain α) (wired : Bool) : (drain.read resync batchSize wired).written = drain.written := by
  unfold Drain.read
  split
  · simp only
    split <;> rfl
  · rfl

theorem OnCourse.read (course : OnCourse targets bound drain disk) (positive : 1 ≤ batchSize) :
    OnCourse targets bound (drain.read resync batchSize true) disk := by
  refine ⟨course.draining.read resync batchSize true, by rw [read_written]; exact course.oldest, ?_⟩
  unfold Drain.read
  split
  · rename_i files stage
    -- A target that is left is in the listed files, so the batch starts with a target.
    have starts (left : remaining targets drain.lastProcessedSeq ≠ 0)
        (fresh : FreshStage targets drain.wal disk drain.lastProcessedSeq drain.stage) :
        ∃ entry rest, drain.wal.recoverBounded resync files drain.lastProcessedSeq batchSize = entry :: rest ∧
          entry ∈ targets ∧ drain.lastProcessedSeq < entry.sequence := by
      obtain ⟨target, member, late⟩ := remaining_target left
      rw [stage] at fresh
      obtain ⟨entry, rest, read, known, ahead, older⟩ :=
        course.draining.head stage positive late (fresh target member late)
      exact ⟨entry, rest, read, course.isTarget member known older, ahead⟩
    simp only
    split
    · rename_i ends
      have empty := ends.resolve_right (by simp)
      refine course.progress.end_cycle rfl rfl rfl fun fresh => ?_
      by_contra left
      obtain ⟨entry, rest, read, _⟩ := starts left fresh
      rw [empty] at read
      cases read
    · by_cases done : remaining targets drain.lastProcessedSeq = 0
      · exact .inl done
      · rw [← append_nil disk]
        refine course.progress.same_cycle rfl le_rfl fun fresh => .inr ⟨rfl, ?_⟩
        obtain ⟨entry, rest, read, isTarget, ahead⟩ := starts done fresh
        obtain ⟨size, rfl⟩ : ∃ size, batchSize = size + 1 := ⟨batchSize - 1, by omega⟩
        exact ⟨entry, rest.take size, by rw [read, take_succ_cons], isTarget, ahead⟩
  · exact course.progress

theorem OnCourse.finish (course : OnCourse targets bound drain disk) :
    OnCourse targets bound (drain.finish alive) disk := by
  have next := course.draining.finish alive
  unfold Drain.finish at next ⊢
  split
  · rename_i advanceOk syncedCount stage
    simp only [stage] at next
    refine ⟨next, course.oldest, course.progress.end_cycle rfl rfl rfl fun fresh => ?_⟩
    rw [stage] at fresh
    obtain ⟨_, entry, rest, same, _⟩ := fresh
    cases same
  · exact course

theorem OnCourse.extend {after : WriteAheadLog α} {payloads : List (Payload α)}
    {stored : List (WalEntry α)} (course : OnCourse targets bound drain disk)
    (extends_ : Extends drain.wal after now payloads stored)
    (next : Draining { drain with
      wal := after
      written := drain.written ++ numbered drain.wal.sequence payloads } (disk ++ stored)) :
    OnCourse targets bound { drain with
      wal := after
      written := drain.written ++ numbered drain.wal.sequence payloads } (disk ++ stored) := by
  refine ⟨next, ?_, course.progress.same_cycle rfl le_rfl fun fresh => .inr (fresh.extend extends_.stores)⟩
  obtain ⟨newer, split⟩ := course.oldest
  exact ⟨newer ++ numbered drain.wal.sequence payloads, by simp only [split, append_assoc]⟩

/-- A process whose log is on disk and whose cursor has passed delivered entries only. -/
structure Drain.Opened (drain : Drain α) : Prop where
  idle : drain.stage = .idle
  buffer : drain.wal.groupBuffer = []
  tracks : Tracks drain.wal drain.written drain.lastProcessedSeq
  cursor : drain.lastProcessedSeq ≤ drain.wal.sequence
  delivered : ∀ entry ∈ drain.written, entry.sequence ≤ drain.lastProcessedSeq → entry ∈ drain.delivered
  marks : ∀ entry ∈ drain.marked, entry ∈ drain.delivered

theorem Drain.Opened.draining (opened : drain.Opened) : Draining drain drain.written where
  written := by rw [opened.buffer, append_nil]
  ascending := opened.tracks.ascending
  bounded := opened.tracks.bounded
  short := opened.tracks.short
  tracks := opened.tracks
  ungrouped _ := opened.buffer
  cursor := opened.cursor
  safe := opened.delivered
  marks := opened.marks
  stage := by
    rw [opened.idle]
    trivial

end

section

variable {action : DrainAction α} [DecidableEq α] {resync : Resync α} {alive : Nat → Bool}
  {batchSize : Nat}
  {drain : Drain α} {disk targets : List (WalEntry α)} {bound : Nat}

def Drain.OrderlyRun (resync : Resync α) (alive : Nat → Bool) (batchSize : Nat) :
    Drain α → List (DrainAction α) → Prop
  | _, [] => True
  | drain, action :: rest =>
      drain.Orderly action ∧ OrderlyRun resync alive batchSize (drain.step resync alive batchSize action) rest

theorem Draining.expire (draining : Draining drain disk) (entries : List (WalEntry α)) :
    Draining (drain.step resync alive batchSize (.expire entries)) disk :=
  { draining with marks := fun entry member => draining.marks entry (mem_filter.mp member).1 }

theorem Draining.step (draining : Draining drain disk) (orderly : drain.Orderly action) :
    ∃ stored, Draining (drain.step resync alive batchSize action) (disk ++ stored) := by
  have keeps {after : Drain α} (kept : Draining after disk) : ∃ stored, Draining after (disk ++ stored) :=
    ⟨[], by rwa [append_nil]⟩
  cases action with
  | write =>
    obtain ⟨stored, _, next⟩ := draining.write orderly
    exact ⟨stored, next⟩
  | batchWrite =>
    obtain ⟨stored, _, next⟩ := draining.batchWrite orderly
    exact ⟨stored, next⟩
  | start =>
    cases stage : drain.stage with
    | idle =>
      simp only [step, stage]
      refine ⟨drain.wal.groupBuffer, ?_⟩
      rw [← draining.written]
      exact draining.start stage orderly
    | _ =>
      simp only [step, stage]
      exact keeps draining
  | list =>
    cases stage : drain.stage with
    | flushed =>
      simp only [step, stage]
      exact keeps draining.list
    | _ =>
      simp only [step, stage]
      exact keeps draining
  | read wired => exact keeps (draining.read resync batchSize wired)
  | deliver outcome => exact keeps (draining.deliver outcome)
  | finish => exact keeps (draining.finish alive)
  | expire entries => exact keeps (draining.expire entries)

theorem Draining.run (actions : List (DrainAction α)) (draining : Draining drain disk)
    (orderly : OrderlyRun resync alive batchSize drain actions) :
    ∃ onDisk, Draining (drain.run resync alive batchSize actions) onDisk := by
  induction actions generalizing drain disk with
  | nil => exact ⟨disk, draining⟩
  | cons action rest ih =>
    obtain ⟨stored, next⟩ : ∃ stored, Draining (drain.step resync alive batchSize action) (disk ++ stored) :=
      draining.step orderly.1
    exact ih next orderly.2

theorem OnCourse.deliver (course : OnCourse targets bound drain disk) (marked : Bool) :
    OnCourse targets bound (drain.deliver (.done marked)) disk := by
  have next := course.draining.deliver (.done marked)
  unfold Drain.deliver at next ⊢
  split
  · rename_i entry rest advanceOk syncedCount stage
    obtain ⟨_, _, wal, written, cursor, _, cycles⟩ := course.draining.syncEntry entry (.done marked)
    have success : (drain.syncEntry entry (.done marked)).2 = true := by
      unfold syncEntry
      split <;> rfl
    simp only [stage, success, if_true] at next ⊢
    refine ⟨next, by simpa only [written] using course.oldest, ?_⟩
    rw [← append_nil disk]
    refine course.progress.same_cycle cycles ?_ fun fresh => .inl ?_
    · simp only
      split <;> omega
    · rw [stage] at fresh
      obtain ⟨advances, head, others, same, isTarget, ahead⟩ := fresh
      cases same
      simp only [advances, if_true]
      exact remaining_lt isTarget ahead (le_max_right _ _)
  · exact course

theorem OnCourse.step (course : OnCourse targets bound drain disk) (positive : 1 ≤ batchSize)
    (orderly : drain.Orderly action) (succeeds : action.Succeeds) :
    ∃ stored, OnCourse targets bound (drain.step resync alive batchSize action) (disk ++ stored) := by
  have keeps {after : Drain α} (kept : OnCourse targets bound after disk) :
      ∃ stored, OnCourse targets bound after (disk ++ stored) := ⟨[], by rwa [append_nil]⟩
  cases action with
  | write =>
    obtain ⟨stored, extends_, next⟩ := course.draining.write orderly
    exact ⟨stored, course.extend extends_ next⟩
  | batchWrite =>
    obtain ⟨stored, extends_, next⟩ := course.draining.batchWrite orderly
    exact ⟨stored, course.extend extends_ next⟩
  | start =>
    cases stage : drain.stage with
    | idle =>
      simp only [step, stage]
      have onDisk := course.draining.written
      have next := course.draining.start stage orderly
      refine ⟨drain.wal.groupBuffer, by rwa [← onDisk], course.oldest,
        course.progress.same_cycle rfl le_rfl fun _ => .inr ?_⟩
      obtain ⟨newer, split⟩ := course.oldest
      rw [← onDisk, split]
      exact subset_append_left _ _
    | _ =>
      simp only [step, stage]
      exact keeps course
  | list =>
    cases stage : drain.stage with
    | flushed =>
      simp only [step, stage]
      refine ⟨[], by rw [append_nil]; exact course.draining.list, course.oldest,
        course.progress.same_cycle rfl le_rfl fun fresh => .inr fun entry member late => ?_⟩
      rw [stage] at fresh
      obtain ⟨file, present, own, inside⟩ := course.draining.tracks.complete entry (fresh member) late
      exact ⟨file.name, mem_map_of_mem (mem_glob.mpr ⟨present, .inr own⟩), by rwa [records_of_mem present]⟩
    | _ =>
      simp only [step, stage]
      exact keeps course
  | read wired =>
    cases (succeeds : wired = true)
    exact keeps (course.read positive)
  | deliver =>
    obtain ⟨marked, rfl⟩ := succeeds
    exact keeps (course.deliver marked)
  | finish => exact keeps course.finish
  | expire entries => exact keeps ⟨course.draining.expire entries, course.oldest, course.progress⟩

theorem OnCourse.run (positive : 1 ≤ batchSize) (actions : List (DrainAction α))
    (course : OnCourse targets bound drain disk)
    (orderly : OrderlyRun resync alive batchSize drain actions)
    (succeed : ∀ action ∈ actions, action.Succeeds) :
    ∃ onDisk, OnCourse targets bound (drain.run resync alive batchSize actions) onDisk := by
  induction actions generalizing drain disk with
  | nil => exact ⟨disk, course⟩
  | cons action rest ih =>
    obtain ⟨stored, next⟩ :
        ∃ stored, OnCourse targets bound (drain.step resync alive batchSize action) (disk ++ stored) :=
      course.step positive orderly.1 (succeed action mem_cons_self)
    exact ih next orderly.2 fun other member => succeed other (mem_cons_of_mem _ member)

theorem Draining.delivers (positive : 1 ≤ batchSize) (draining : Draining drain disk) (more : List (DrainAction α))
    (orderly : OrderlyRun resync alive batchSize drain more) (succeed : ∀ action ∈ more, action.Succeeds)
    (enough : drain.cycles + drain.written.length + 1 ≤ (drain.run resync alive batchSize more).cycles) :
    ∀ entry ∈ drain.written, entry ∈ (drain.run resync alive batchSize more).delivered := by
  have course : OnCourse drain.written (drain.cycles + drain.written.length + 1) drain disk := by
    refine ⟨draining, ⟨[], (append_nil _).symm⟩, .inr (.inl ?_)⟩
    have most : remaining drain.written drain.lastProcessedSeq ≤ drain.written.length := length_filter_le _ _
    omega
  obtain ⟨onDisk, last⟩ := course.run positive more orderly succeed
  have done : remaining drain.written (drain.run resync alive batchSize more).lastProcessedSeq = 0 := by
    rcases last.progress with done | stale | ⟨counted, _⟩ <;> omega
  intro entry member
  refine last.draining.safe entry ?_ ?_
  · obtain ⟨newer, split⟩ := last.oldest
    rw [split]
    exact mem_append_left _ member
  · by_contra ahead
    have listed := eq_nil_iff_length_eq_zero.mpr done
    rw [filter_eq_nil_iff] at listed
    exact listed entry member (by simpa using ahead)

theorem drain_loses_nothing (resync : List (WalEntry α) → List (WalEntry α)) (alive : Nat → Bool) (batchSize : Nat)
    (positive : 1 ≤ batchSize) (start : Drain α) (opened : start.Opened) (actions : List (DrainAction α))
    (orderly : OrderlyRun resync alive batchSize start actions) :
    let drain := start.run resync alive batchSize actions
    (∀ entry ∈ drain.written, entry.sequence ≤ drain.lastProcessedSeq → entry ∈ drain.delivered) ∧
      (∀ file ∈ drain.wal.dir.entries, file ∉ (drain.step resync alive batchSize .finish).wal.dir.entries →
        ∀ entry ∈ file.records, entry ∈ drain.delivered) ∧
      ∀ more, OrderlyRun resync alive batchSize drain more → (∀ action ∈ more, action.Succeeds) →
        drain.cycles + drain.written.length + 1 ≤ (drain.run resync alive batchSize more).cycles →
          ∀ entry ∈ drain.written, entry ∈ (drain.run resync alive batchSize more).delivered := by
  obtain ⟨disk, draining⟩ := opened.draining.run actions orderly
  exact ⟨draining.safe, fun file present gone => draining.unlinked present gone,
    fun more moreOrderly succeed enough => draining.delivers positive more moreOrderly succeed enough⟩

end

def freshDrain (groupCommit : Bool) : Drain Nat where
  wal := .initOrRecover { groupCommitEnabled := groupCommit } 1 Table.empty

theorem opened_freshDrain (groupCommit : Bool) : (freshDrain groupCommit).Opened where
  idle := rfl
  buffer := rfl
  tracks := by
    refine ⟨.nil, ?_, ?_, ?_, ?_, ?_, ?_⟩ <;> simp [freshDrain, initOrRecover, Table.empty]
  cursor := Nat.le_refl 0
  delivered := by simp [freshDrain]
  marks := by simp [freshDrain]

def cycleActions : List (DrainAction Nat) :=
  [.start 2, .list, .read true, .deliver (.done true), .finish]

def failingCycle : List (DrainAction Nat) :=
  [.write 1 false ⟨7, 1⟩, .write 1 false ⟨8, 1⟩, .start 2, .list, .read true, .deliver .failed,
    .deliver (.done true), .finish]

def laterCycles : List (DrainAction Nat) :=
  [.start 3, .list, .read true, .deliver (.done true), .deliver (.done true), .finish,
    .start 4, .list, .read true, .start 5, .list, .read true]

theorem failed_entry_delivered_later :
    let drain := (freshDrain true).run id (fun _ => true) 2 failingCycle
    ⟨1, 7, 1⟩ ∈ drain.written ∧ ⟨1, 7, 1⟩ ∉ drain.delivered ∧
      ∀ entry ∈ drain.written, entry ∈ (drain.run id (fun _ => true) 2 laterCycles).delivered := by
  have orderly : OrderlyRun id (fun _ => true) 2 (freshDrain true) failingCycle := by
    refine ⟨⟨by decide, (absurd rfl ·)⟩, ⟨by decide, (absurd rfl ·)⟩, fun _ => ?_, trivial, trivial, trivial, trivial,
      trivial, trivial⟩
    unfold Tracks.StoreRoomy
    decide +kernel
  refine ⟨by decide +kernel, by decide +kernel, (drain_loses_nothing id (fun _ => true) 2 (by decide) (freshDrain true)
    (opened_freshDrain true) failingCycle orderly).2.2 laterCycles ?_ ?_ (by decide +kernel)⟩
  · -- Nothing is buffered when a later cycle starts.
    exact ⟨(absurd (by decide +kernel) ·), trivial, trivial, trivial, trivial, trivial,
      (absurd (by decide +kernel) ·), trivial, trivial, (absurd (by decide +kernel) ·), trivial, trivial, trivial⟩
  · simp [laterCycles, DrainAction.Succeeds]

theorem buffered_entry_passed_over :
    let drain := (freshDrain true).run id (fun _ => true) 1
      (.write 1 false ⟨7, 1⟩ :: .batchWrite 1 [⟨8, 1⟩] :: cycleActions)
    ⟨1, 7, 1⟩ ∈ drain.written ∧ 1 ≤ drain.lastProcessedSeq ∧ ⟨1, 7, 1⟩ ∉ drain.delivered := by
  decide +kernel

end Baldur.Wal
