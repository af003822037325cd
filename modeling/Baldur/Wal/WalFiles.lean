import Baldur.Lib.Ordered
import Baldur.Wal.WalCore
import Mathlib.Data.List.TakeWhile

/-!
What a process reads back from its own files: while the retention cap deletes nothing and no record is
overlong, every entry stored and not processed, each in one file and in order.
-/

namespace Baldur.Wal

open List Table WalDir WriteAheadLog

variable {names : List FileName} {name : FileName} {limit : Nat} {α : Type} {entry : WalEntry α}
  {dir : WalDir α} {file : WalFile α}

theorem mem_glob {mode : RecoverMode} {pid : Nat} :
    file ∈ dir.glob mode pid ↔ file ∈ dir.entries ∧ (mode = .startup ∨ file.name.pid = pid) := by
  simp [glob, mem_insertionSort]

theorem nodup_glob (dir : WalDir α) (mode : RecoverMode) (pid : Nat) : (dir.glob mode pid).Nodup := by
  have distinct : dir.entries.Nodup := Nodup.of_map _ dir.distinct
  exact (perm_insertionSort _ _).nodup_iff.mpr (distinct.filter _)

theorem mem_unlinkAll : file ∈ (dir.unlinkAll names).entries ↔ file ∈ dir.entries ∧ file.name ∉ names := by
  induction names generalizing dir with
  | nil => simp [unlinkAll]
  | cons name rest ih =>
    have folded : dir.unlinkAll (name :: rest) = unlinkAll (dir.erase name) rest := rfl
    rw [folded, ih, mem_erase_iff, mem_cons, not_or, and_assoc]

theorem records_of_mem (member : file ∈ dir.entries) : dir.records file.name = file.records := by
  simp [records, (mem_entries_iff dir file).mp member]

variable {entries : List (WalEntry α)}

theorem mem_append_dir :
    file ∈ (dir.append name entries).entries ↔
      file = ⟨name, dir.records name ++ entries⟩ ∨ file ∈ dir.entries ∧ file.name ≠ name := by
  exact mem_put_iff _ _ _

theorem records_cases (dir : WalDir α) (name : FileName) :
    dir.records name = [] ∨ (⟨name, dir.records name⟩ : WalFile α) ∈ dir.entries := by
  unfold records
  cases found : dir.find name with
  | none => exact .inl rfl
  | some file =>
    obtain rfl : file.name = name := key_of_find found
    exact .inr ((mem_entries_iff dir file).mpr found)

variable {records : List (WalEntry α)}

theorem readWalFile_short (short : ∀ entry ∈ records, entry.size ≤ maxRecordSizeBytes) :
    readWalFile records = records := by
  exact takeWhile_eq_self_iff.mpr fun entry member => decide_eq_true (short entry member)

variable (resync : Resync α)

section

variable (short : ∀ entry ∈ records, entry.size ≤ maxRecordSizeBytes)

include short

theorem readBestEffort_short : readWalFileBestEffort resync records = records := by
  induction records with
  | nil => rfl
  | cons entry rest ih =>
    rw [readWalFileBestEffort, if_pos (short entry mem_cons_self),
      ih fun other member => short other (mem_cons_of_mem _ member)]

theorem le_fileMaxSequence (member : entry ∈ records) : entry.sequence ≤ fileMaxSequence records := by
  rw [fileMaxSequence, readWalFile_short short]
  exact (foldl_max_spec _ 0).2.1 _ (mem_map_of_mem member)

end

abbrev Ascending (entries : List (WalEntry α)) : Prop :=
  entries.Pairwise fun first second => first.sequence < second.sequence

theorem Ascending.nodup (ascending : Ascending entries) : entries.Nodup := by
  refine ascending.imp fun below same => ?_
  rw [same] at below
  exact lt_irrefl _ below

theorem Ascending.eq_of_sequence (ascending : Ascending entries) {first second : WalEntry α}
    (firstIn : first ∈ entries) (secondIn : second ∈ entries) (same : first.sequence = second.sequence) :
    first = second := by
  have distinct : (entries.map WalEntry.sequence).Nodup :=
    pairwise_map.mpr (ascending.imp fun below => below.ne)
  exact inj_on_of_nodup_map distinct firstIn secondIn same

theorem sortBySequence_eq {sorted : List (WalEntry α)} (ascending : Ascending sorted)
    (same : entries.Perm sorted) : sortBySequence entries = sorted := by
  have perm : (sortBySequence entries).Perm sorted := (perm_insertionSort _ _).trans same
  have inOrder : (sortBySequence entries).Pairwise fun first second => first.sequence ≤ second.sequence :=
    pairwise_insertionSort _ _
  refine perm.eq_of_pairwise ?_ inOrder (ascending.imp fun below => below.le)
  intro first second firstIn secondIn forth back
  exact ascending.eq_of_sequence (perm.subset firstIn) secondIn (le_antisymm forth back)

theorem take_sortBySequence {whole found : List (WalEntry α)} (ascending : Ascending whole)
    (distinct : found.Nodup) (inside : found ⊆ whole) (covers : whole.take limit ⊆ found) :
    (sortBySequence found).take limit = whole.take limit := by
  classical
  have split : found.Perm (whole.take limit ++ (whole.drop limit).filter (· ∈ found)) := by
    have whole_nodup : (whole.take limit ++ whole.drop limit).Nodup := by
      rw [take_append_drop]
      exact ascending.nodup
    refine (perm_ext_iff_of_nodup distinct ?_).mpr fun entry => ?_
    · exact whole_nodup.sublist ((Sublist.refl _).append filter_sublist)
    · simp only [mem_append, mem_filter, decide_eq_true_eq]
      constructor
      · intro member
        have placed := inside member
        rw [← take_append_drop limit whole, mem_append] at placed
        exact placed.imp id fun late => ⟨late, member⟩
      · rintro (early | late)
        · exact covers early
        · exact late.2
  have sorted : Ascending (whole.take limit ++ (whole.drop limit).filter (· ∈ found)) := by
    refine Pairwise.sublist ((Sublist.refl _).append filter_sublist) ?_
    rwa [take_append_drop]
  rw [sortBySequence_eq sorted split]
  -- Either the first part is full, or the whole list is in it.
  by_cases full : limit ≤ whole.length
  · rw [take_append_of_le_length (by simp [full]), take_take, min_self]
  · rw [drop_of_length_le (by omega), filter_nil, append_nil, take_take, min_self]

theorem Ascending.mem_take_of_sublist {whole part : List (WalEntry α)} (ascending : Ascending whole)
    (inside : part.Sublist whole) (member : entry ∈ part)
    (early : entry ∈ whole.take limit) : entry ∈ part.take limit := by
  by_contra late
  have split : entry ∈ part.take limit ++ part.drop limit := by rwa [take_append_drop]
  have behind : entry ∈ part.drop limit := (mem_append.mp split).resolve_left late
  have inOrder : Ascending (part.take limit ++ part.drop limit) := by
    rw [take_append_drop]
    exact ascending.sublist inside
  have wholeOrder : Ascending (whole.take limit ++ whole.drop limit) := by rwa [take_append_drop]
  have before : ∀ other ∈ part.take limit, other.sequence < entry.sequence := fun other isEarly =>
    (pairwise_append.mp inOrder).2.2 other isEarly entry behind
  -- The entry and the full beginning of the part would all be among the first of the whole list.
  have crowded : part.take limit ++ [entry] ⊆ whole.take limit := by
    intro other listed
    rcases mem_append.mp listed with isEarly | same
    · have placed : other ∈ whole.take limit ++ whole.drop limit := by
        rw [take_append_drop]
        exact inside.subset (mem_of_mem_take isEarly)
      refine (mem_append.mp placed).resolve_right fun isLate => ?_
      have after := (pairwise_append.mp wholeOrder).2.2 entry early other isLate
      have less := before other isEarly
      omega
    · rwa [mem_singleton.mp same]
  have distinct : (part.take limit ++ [entry]).Nodup := by
    refine nodup_append.mpr ⟨((ascending.sublist inside).sublist (take_sublist _ _)).nodup, by simp, ?_⟩
    intro other isEarly single same rfl
    exact late (mem_singleton.mp same ▸ isEarly)
  have counted := (subperm_of_subset distinct crowded).length_le
  have full : limit < part.length := by
    have nonempty := length_pos_of_mem behind
    rw [length_drop] at nonempty
    omega
  rw [length_append, length_take, length_take, length_singleton] at counted
  omega

/-- The files of this process between them hold the log from `processed` on. -/
structure Tracks (wal : WriteAheadLog α) (log : List (WalEntry α)) (processed : Nat) : Prop where
  ascending : Ascending log
  bounded : ∀ entry ∈ log, entry.sequence ≤ wal.sequence
  short : ∀ entry ∈ log, entry.size ≤ maxRecordSizeBytes
  own : ∀ name, wal.currentFile = some name → name.pid = wal.pid
  within : ∀ file ∈ wal.dir.entries, file.name.pid = wal.pid → file.records.Sublist log
  apart : ∀ first ∈ wal.dir.entries, ∀ second ∈ wal.dir.entries, first.name.pid = wal.pid →
    second.name.pid = wal.pid → ∀ entry ∈ first.records, entry ∈ second.records → first = second
  complete : ∀ entry ∈ log, processed < entry.sequence →
    ∃ file ∈ wal.dir.entries, file.name.pid = wal.pid ∧ entry ∈ file.records

structure Appends (sequence : Nat) (log entries : List (WalEntry α)) : Prop where
  ascending : Ascending entries
  newer : ∀ old ∈ log, ∀ entry ∈ entries, old.sequence < entry.sequence
  bounded : ∀ entry ∈ entries, entry.sequence ≤ sequence
  short : ∀ entry ∈ entries, entry.size ≤ maxRecordSizeBytes

def Roomy (wal : WriteAheadLog α) : Prop :=
  (wal.dir.glob .runtime wal.pid).length ≤ wal.config.maxFiles

namespace WriteAheadLog

variable (wal : WriteAheadLog α)

@[simp] theorem store_config (now : Nat) (entries : List (WalEntry α)) :
    (wal.store now entries).config = wal.config := by
  simp only [store]
  split <;> rfl

@[simp] theorem store_sequence (now : Nat) (entries : List (WalEntry α)) :
    (wal.store now entries).sequence = wal.sequence := by
  simp only [store]
  split <;> rfl

variable (sequence : Nat) (payloads : List (Payload α))

theorem numbered_bounds :
    ∀ entry ∈ numbered sequence payloads, sequence < entry.sequence ∧ entry.sequence ≤ sequence + payloads.length := by
  induction payloads generalizing sequence with
  | nil => simp [numbered]
  | cons payload rest ih =>
    intro entry member
    rw [numbered, mem_cons] at member
    rcases member with rfl | later
    · simp
    · have bounds := ih (sequence + 1) entry later
      simp only [length_cons]
      omega

theorem numbered_ascending : Ascending (numbered sequence payloads) := by
  induction payloads generalizing sequence with
  | nil => exact .nil
  | cons payload rest ih =>
    refine pairwise_cons.mpr ⟨fun entry later => ?_, ih (sequence + 1)⟩
    exact (numbered_bounds (sequence + 1) rest entry later).1

theorem map_data_numbered : (numbered sequence payloads).map WalEntry.data = payloads.map Payload.data := by
  induction payloads generalizing sequence with
  | nil => rfl
  | cons payload rest ih => simp [numbered, ih]

theorem size_of_numbered {sequence : Nat} {payloads : List (Payload α)}
    (member : entry ∈ numbered sequence payloads) : ∃ payload ∈ payloads, entry.size = payload.size := by
  induction payloads generalizing sequence with
  | nil => simp [numbered] at member
  | cons payload rest ih =>
    rw [numbered, mem_cons] at member
    rcases member with rfl | later
    · exact ⟨payload, mem_cons_self, rfl⟩
    · obtain ⟨other, inside, same⟩ := ih later
      exact ⟨other, mem_cons_of_mem _ inside, same⟩

theorem directWrite_eq (now : Nat) (payload : Payload α) :
    wal.directWrite now payload = wal.batchWriteEntries now [payload] := by
  rfl

end WriteAheadLog

namespace Tracks

variable {wal : WriteAheadLog α} {log : List (WalEntry α)} {processed : Nat} (now : Nat)

section

variable (tracks : Tracks wal log processed)

include tracks

theorem file_short {file : WalFile α} (member : file ∈ wal.dir.entries)
    (own : file.name.pid = wal.pid) : ∀ entry ∈ file.records, entry.size ≤ maxRecordSizeBytes := by
  intro entry inside
  exact tracks.short entry ((tracks.within file member own).subset inside)

theorem openName_pid : (wal.openName now).pid = wal.pid := by
  unfold openName
  cases current : wal.currentFile with
  | none => rfl
  | some name => exact tracks.own name current

theorem records_within : (wal.dir.records (wal.openName now)).Sublist log := by
  rcases records_cases wal.dir (wal.openName now) with none | here
  · rw [none]
    exact nil_sublist log
  · exact tracks.within _ here (tracks.openName_pid now)

theorem counters {after : WriteAheadLog α} (dir : after.dir = wal.dir)
    (pid : after.pid = wal.pid) (current : ∀ name, after.currentFile = some name → name.pid = wal.pid)
    (sequence : wal.sequence ≤ after.sequence) : Tracks after log processed where
  __ := tracks
  bounded entry member := (tracks.bounded entry member).trans sequence
  own := by rwa [pid]
  within := by rw [dir, pid]; exact tracks.within
  apart := by rw [dir, pid]; exact tracks.apart
  complete := by rw [dir, pid]; exact tracks.complete

end

variable {last : Nat}

theorem advance (tracks : Tracks wal log processed) (advanced : processed ≤ last) : Tracks wal log last where
  __ := tracks
  complete entry member late := tracks.complete entry member (advanced.trans_lt late)

theorem store_written (tracks : Tracks wal log processed) (now : Nat) {entries : List (WalEntry α)}
    (appends : Appends wal.sequence log entries) :
    Tracks { wal with
        dir := wal.dir.append (wal.openName now) entries
        currentFile := some (wal.openName now)
        totalEntries := wal.totalEntries + entries.length } (log ++ entries) processed := by
  have fresh : ∀ entry ∈ entries, entry ∉ log := fun entry new old => lt_irrefl _ (appends.newer entry old entry new)
  refine ⟨?_, ?_, ?_, ?_, ?_, ?_, ?_⟩
  · exact pairwise_append.mpr ⟨tracks.ascending, appends.ascending, appends.newer⟩
  · intro entry member
    exact (mem_append.mp member).elim (tracks.bounded entry) (appends.bounded entry)
  · intro entry member
    exact (mem_append.mp member).elim (tracks.short entry) (appends.short entry)
  · intro name open_
    rw [← Option.some.inj open_]
    exact tracks.openName_pid now
  · intro file member own
    rcases mem_append_dir.mp member with rfl | ⟨old, _⟩
    · exact (tracks.records_within now).append (Sublist.refl _)
    · exact (tracks.within file old own).trans (sublist_append_left _ _)
  · intro first firstIn second secondIn firstOwn secondOwn entry inFirst inSecond
    -- An entry of the written file is either new, and nowhere else, or was in that file before.
    have settled {file : WalFile α} (old : file ∈ wal.dir.entries) (elsewhere : file.name ≠ wal.openName now)
        (own : file.name.pid = wal.pid) (inside : entry ∈ file.records)
        (inWritten : entry ∈ wal.dir.records (wal.openName now) ++ entries) : False := by
      rcases mem_append.mp inWritten with before | new
      · rcases records_cases wal.dir (wal.openName now) with none | here
        · rw [none] at before
          exact not_mem_nil before
        · exact elsewhere (congrArg WalFile.name
            (tracks.apart file old _ here own (tracks.openName_pid now) entry inside before))
      · exact fresh entry new ((tracks.within file old own).subset inside)
    rcases mem_append_dir.mp firstIn with rfl | ⟨firstOld, firstElse⟩
    · rcases mem_append_dir.mp secondIn with rfl | ⟨secondOld, secondElse⟩
      · rfl
      · exact (settled secondOld secondElse secondOwn inSecond inFirst).elim
    · rcases mem_append_dir.mp secondIn with rfl | ⟨secondOld, secondElse⟩
      · exact (settled firstOld firstElse firstOwn inFirst inSecond).elim
      · exact tracks.apart first firstOld second secondOld firstOwn secondOwn entry inFirst inSecond
  · intro entry member unprocessed
    rcases mem_append.mp member with old | new
    · obtain ⟨file, stored, own, inside⟩ := tracks.complete entry old unprocessed
      by_cases written : file.name = wal.openName now
      · refine ⟨_, mem_append_dir.mpr (.inl rfl), tracks.openName_pid now, mem_append_left _ ?_⟩
        rwa [← written, records_of_mem stored]
      · exact ⟨file, mem_append_dir.mpr (.inr ⟨stored, written⟩), own, inside⟩
    · exact ⟨_, mem_append_dir.mpr (.inl rfl), tracks.openName_pid now, mem_append_right _ new⟩

theorem rotateFile_eq (roomy : Roomy wal) : wal.rotateFile = { wal with currentFile := none } := by
  have none : (wal.dir.glob .runtime wal.pid).length - wal.config.maxFiles = 0 := Nat.sub_eq_zero_of_le roomy
  simp [rotateFile, cleanupOldFiles, none, WalDir.unlinkAll]

def StoreRoomy (wal : WriteAheadLog α) (now : Nat) (entries : List (WalEntry α)) : Prop :=
  ((wal.dir.append (wal.openName now) entries).glob .runtime wal.pid).length ≤ wal.config.maxFiles

section

variable (tracks : Tracks wal log processed)

include tracks

theorem store {entries : List (WalEntry α)} (appends : Appends wal.sequence log entries)
    (roomy : StoreRoomy wal now entries) : Tracks (wal.store now entries) (log ++ entries) processed := by
  have written := tracks.store_written now appends
  simp only [WriteAheadLog.store]
  split
  · rw [rotateFile_eq]
    · exact written.counters rfl rfl (by simp) le_rfl
    · exact roomy
  · exact written

theorem batchWriteEntries
    (payloads : List (Payload α)) (short : ∀ payload ∈ payloads, payload.size ≤ maxRecordSizeBytes)
    (roomy : StoreRoomy wal now (numbered wal.sequence payloads)) :
    Tracks (wal.batchWriteEntries now payloads) (log ++ numbered wal.sequence payloads) processed := by
  unfold WriteAheadLog.batchWriteEntries
  split
  · rename_i none
    simpa [none, numbered] using tracks
  · have numbers := WriteAheadLog.numbered_bounds wal.sequence payloads
    have counted : Tracks { wal with sequence := wal.sequence + payloads.length } log processed :=
      tracks.counters rfl rfl tracks.own (Nat.le_add_right _ _)
    refine counted.store now ⟨WriteAheadLog.numbered_ascending _ _, ?_, fun entry new => (numbers entry new).2, ?_⟩ roomy
    · intro old before entry new
      exact (tracks.bounded old before).trans_lt (numbers entry new).1
    · intro entry new
      obtain ⟨payload, inside, same⟩ := WriteAheadLog.size_of_numbered new
      exact same ▸ short payload inside

theorem cleanupProcessed (alive : Nat → Bool) (advanced : processed ≤ last) (mode : RecoverMode) :
    Tracks (wal.cleanupProcessed alive last mode) log last where
  __ := tracks
  within file member own := tracks.within file (mem_unlinkAll.mp member).1 own
  apart first firstIn second secondIn :=
    tracks.apart first (mem_unlinkAll.mp firstIn).1 second (mem_unlinkAll.mp secondIn).1
  complete entry member unprocessed := by
    obtain ⟨file, stored, own, inside⟩ := tracks.complete entry member (advanced.trans_lt unprocessed)
    refine ⟨file, mem_unlinkAll.mpr ⟨stored, ?_⟩, own, inside⟩
    intro unlinked
    obtain ⟨other, chosen, named⟩ := mem_map.mp unlinked
    obtain ⟨found, conditions⟩ := mem_filter.mp chosen
    have same : other = file :=
      inj_on_of_nodup_map wal.dir.distinct (mem_glob.mp found).1 stored named
    subst same
    simp only [Bool.and_eq_true, decide_eq_true_eq] at conditions
    have covered := le_fileMaxSequence (tracks.file_short stored own) inside
    omega

theorem nodup_flatMap (part : WalFile α → List (WalEntry α))
    (parts : ∀ file ∈ wal.dir.entries, file.name.pid = wal.pid → (part file).Sublist file.records) :
    ((wal.dir.glob .runtime wal.pid).flatMap part).Nodup := by
  refine List.nodup_flatMap.mpr ⟨fun file member => ?_, ?_⟩
  · obtain ⟨stored, own⟩ := mem_glob.mp member
    have own := own.resolve_left (by simp)
    exact (tracks.ascending.nodup.sublist (tracks.within file stored own)).sublist (parts file stored own)
  · refine (nodup_glob wal.dir .runtime wal.pid).pairwise_of_forall_ne ?_
    intro first firstIn second secondIn different entry inFirst inSecond
    obtain ⟨firstStored, firstOwn⟩ := mem_glob.mp firstIn
    obtain ⟨secondStored, secondOwn⟩ := mem_glob.mp secondIn
    have firstOwn := firstOwn.resolve_left (by simp)
    have secondOwn := secondOwn.resolve_left (by simp)
    exact different (tracks.apart first firstStored second secondStored firstOwn secondOwn entry
      ((parts first firstStored firstOwn).subset inFirst) ((parts second secondStored secondOwn).subset inSecond))

theorem recoverUnprocessed (advanced : processed ≤ last) :
    wal.recoverUnprocessed resync none last .runtime = log.filter fun entry => last < entry.sequence := by
  have read : ((wal.dir.glob .runtime wal.pid).flatMap fun file =>
      ((if min wal.config.recoveryMaxWorkers (wal.dir.glob .runtime wal.pid).length ≤ 1 then readWalFile
        else readWalFileBestEffort resync) file.records).filter fun entry => last < entry.sequence) =
      (wal.dir.glob .runtime wal.pid).flatMap fun file =>
        file.records.filter fun entry => last < entry.sequence := by
    refine flatMap_congr fun file member => ?_
    obtain ⟨stored, own⟩ := mem_glob.mp member
    have short := tracks.file_short stored (own.resolve_left (by simp))
    split
    · rw [readWalFile_short short]
    · rw [readBestEffort_short resync short]
  unfold WriteAheadLog.recoverUnprocessed
  simp only [memoryGuard, Option.filter_none, read]
  refine sortBySequence_eq (tracks.ascending.sublist filter_sublist) ?_
  refine (perm_ext_iff_of_nodup (tracks.nodup_flatMap _ fun _ _ _ => filter_sublist)
    (tracks.ascending.nodup.filter _)).mpr fun entry => ?_
  simp only [mem_flatMap, mem_filter, decide_eq_true_eq, mem_glob]
  constructor
  · rintro ⟨file, ⟨stored, own⟩, inside, late⟩
    exact ⟨(tracks.within file stored (own.resolve_left (by simp))).subset inside, late⟩
  · rintro ⟨member, late⟩
    obtain ⟨file, stored, own, inside⟩ := tracks.complete entry member (advanced.trans_lt late)
    exact ⟨file, ⟨stored, .inr own⟩, inside, late⟩

theorem records_sublist (own : name.pid = wal.pid) : (wal.dir.records name).Sublist log := by
  rcases records_cases wal.dir name with none | here
  · rw [none]
    exact nil_sublist log
  · exact tracks.within _ here own

theorem recoverBounded
    (distinct : names.Nodup) (own : ∀ name ∈ names, name.pid = wal.pid) (last limit : Nat) :
    ∃ held : List (WalEntry α), held.Sublist log ∧
      (∀ entry, entry ∈ held ↔ last < entry.sequence ∧ ∃ name ∈ names, entry ∈ wal.dir.records name) ∧
      wal.recoverBounded resync names last limit = held.take limit := by
  classical
  have inLog {name : FileName} (listed : name ∈ names) : (wal.dir.records name).Sublist log :=
    tracks.records_sublist (own name listed)
  have read : (names.flatMap fun name => ((readWalFileBestEffort resync (wal.dir.records name)).filter
      fun entry => last < entry.sequence).take limit) =
      names.flatMap fun name => ((wal.dir.records name).filter fun entry => last < entry.sequence).take limit := by
    refine List.flatMap_congr fun name listed => ?_
    rw [readBestEffort_short resync fun entry inside => tracks.short entry ((inLog listed).subset inside)]
  have held_iff (entry : WalEntry α) :
      entry ∈ log.filter (fun entry => last < entry.sequence ∧ ∃ name ∈ names, entry ∈ wal.dir.records name) ↔
        last < entry.sequence ∧ ∃ name ∈ names, entry ∈ wal.dir.records name := by
    simp only [List.mem_filter, decide_eq_true_eq]
    constructor
    · exact And.right
    · rintro ⟨late, name, listed, inside⟩
      exact ⟨(inLog listed).subset inside, late, name, listed, inside⟩
  refine ⟨log.filter fun entry => last < entry.sequence ∧ ∃ name ∈ names, entry ∈ wal.dir.records name,
    List.filter_sublist, held_iff, ?_⟩
  have ascending := tracks.ascending.sublist (List.filter_sublist (p := fun entry =>
    decide (last < entry.sequence ∧ ∃ name ∈ names, entry ∈ wal.dir.records name)))
  rw [WriteAheadLog.recoverBounded, read]
  refine take_sortBySequence ascending ?_ ?_ ?_
  · refine List.nodup_flatMap.mpr ⟨fun name listed => ?_, distinct.pairwise_of_forall_ne ?_⟩
    · exact (tracks.ascending.nodup.sublist (inLog listed)).sublist
        ((List.take_sublist _ _).trans List.filter_sublist)
    · intro first firstIn second secondIn different entry inFirst inSecond
      have one := (List.mem_filter.mp (List.mem_of_mem_take inFirst)).1
      have two := (List.mem_filter.mp (List.mem_of_mem_take inSecond)).1
      rcases records_cases wal.dir first with none | firstHere
      · simp [none] at one
      · rcases records_cases wal.dir second with none | secondHere
        · simp [none] at two
        · exact different (congrArg WalFile.name (tracks.apart _ firstHere _ secondHere (own first firstIn)
            (own second secondIn) entry one two))
  · intro entry found
    obtain ⟨name, listed, inside⟩ := List.mem_flatMap.mp found
    obtain ⟨stored, late⟩ := List.mem_filter.mp (List.mem_of_mem_take inside)
    exact (held_iff entry).mpr ⟨of_decide_eq_true late, name, listed, stored⟩
  · intro entry early
    obtain ⟨late, name, listed, inside⟩ := (held_iff entry).mp (List.mem_of_mem_take early)
    refine List.mem_flatMap.mpr ⟨name, listed, ?_⟩
    refine Ascending.mem_take_of_sublist ascending ?_ (List.mem_filter.mpr ⟨inside, decide_eq_true late⟩) early
    have part : ((wal.dir.records name).filter fun entry => last < entry.sequence) =
        (wal.dir.records name).filter fun entry =>
          decide (last < entry.sequence ∧ ∃ name ∈ names, entry ∈ wal.dir.records name) := by
      refine List.filter_congr fun other stored => ?_
      rw [decide_eq_decide]
      exact ⟨fun isLate => ⟨isLate, name, listed, stored⟩, And.left⟩
    rw [part]
    exact (inLog listed).filter _

end

end Tracks

end Baldur.Wal
