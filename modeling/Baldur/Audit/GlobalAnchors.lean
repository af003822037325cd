import Baldur.Lib.Stepwise

/-!
Daily anchors of several clusters submitted to one global store (`audit/integrity/cross_cluster_linker.py`).
A submission reads the document, appends its anchor and writes it back.
-/

namespace Baldur.Audit

open Stepwise

structure ClusterDailyAnchor where
  clusterId : String
  anchorDate : String
  finalSequence : Int
  finalHash : String
  entryCount : Nat
  createdAt : String
  deriving DecidableEq

def ClusterDailyAnchor.computeAnchorHash (sha256 : String → String) (anchor : ClusterDailyAnchor) : String :=
  sha256 s!"{anchor.clusterId}:{anchor.anchorDate}:{anchor.finalSequence}:{anchor.finalHash}"

def computeGlobalHash (sha256 : String → String) (anchors : List ClusterDailyAnchor) : String :=
  if anchors = [] then sha256 "empty"
  else
    let sorted := anchors.mergeSort fun left right => left.clusterId ≤ right.clusterId
    sha256 (":".intercalate (sorted.map (·.computeAnchorHash sha256)))

structure GlobalDailyAnchor where
  clusterAnchors : List ClusterDailyAnchor
  globalHash : String
  deriving DecidableEq

/-- `__post_init__` computes a missing hash. -/
def GlobalDailyAnchor.make (sha256 : String → String) (anchors : List ClusterDailyAnchor)
    (globalHash : String) : GlobalDailyAnchor :=
  ⟨anchors, if globalHash = "" then computeGlobalHash sha256 anchors else globalHash⟩

/-- Where the submission of a cluster stands: before its GET, its SET, its ZADD, or returned. -/
inductive Stage
  | idle
  | writing (seen : List ClusterDailyAnchor)
  | listing
  | done
  deriving DecidableEq

structure GlobalStore where
  stored : Option GlobalDailyAnchor := none
  listed : Bool := false
  stage : String → Stage := fun _ => .idle

namespace GlobalStore

def held (store : GlobalStore) : List ClusterDailyAnchor :=
  (store.stored.map (·.clusterAnchors)).getD []

variable (sha256 : String → String) (anchor : String → ClusterDailyAnchor) (store : GlobalStore) (cluster : String)

def anchorOf : ClusterDailyAnchor :=
  { anchor cluster with clusterId := cluster }

def enter (stage : Stage) : GlobalStore :=
  { store with stage := fun other => if other = cluster then stage else store.stage other }

def step : GlobalStore :=
  match store.stage cluster with
  | .idle =>
      if store.held.any (·.clusterId = cluster) then store.enter cluster .done
      else store.enter cluster (.writing store.held)
  | .writing seen =>
      { store.enter cluster .listing with stored := some (.make sha256 (seen ++ [anchorOf anchor cluster]) "") }
  | .listing => { store.enter cluster .done with listed := true }
  | .done => store

def verifyGlobalIntegrity : Bool :=
  match store.stored with
  | none => false
  | some document =>
      let loaded := GlobalDailyAnchor.make sha256 document.clusterAnchors document.globalHash
      loaded.globalHash = (GlobalDailyAnchor.make sha256 loaded.clusterAnchors "").globalHash

def Kept : Prop :=
  ∀ cluster, store.stage cluster = .done →
    anchorOf anchor cluster ∈ store.held ∧ store.verifyGlobalIntegrity sha256 = true

def Settled : Prop :=
  ∀ cluster, store.stage cluster = .idle ∨ store.stage cluster = .done

def Unchanged : Prop :=
  ∀ seen, store.stage cluster = .writing seen → seen = store.held

def Written : Prop :=
  store.stage cluster = .listing ∨ store.stage cluster = .done

def Complete : Prop :=
  ∀ cluster, store.Written cluster → anchorOf anchor cluster ∈ store.held

/-- A document that was replaced since it was read misses the anchor of the one who replaced it. -/
structure Sound : Prop where
  known : ∀ held ∈ store.held, store.Written held.clusterId
  seen : ∀ cluster seen, store.stage cluster = .writing seen →
    (∀ held ∈ seen, store.Written held.clusterId) ∧
      (seen = store.held ∨ ∃ writer, store.Written writer ∧ anchorOf anchor writer ∉ seen)
  hashed : ∀ document, store.stored = some document → document = .make sha256 document.clusterAnchors ""

variable {sha256 : String → String} {anchor : String → ClusterDailyAnchor} {store : GlobalStore}

variable {cluster : String} {stage : Stage}

theorem written_enter (same : stage = .listing ∨ stage = .done ↔ store.Written cluster) (other : String) :
    (store.enter cluster stage).Written other ↔ store.Written other := by
  by_cases own : other = cluster
  · subst own
    simpa [Written, enter] using same
  · simp [Written, enter, own]

theorem complete_enter (same : stage = .listing ∨ stage = .done ↔ store.Written cluster) :
    Complete anchor (store.enter cluster stage) ↔ Complete anchor store :=
  forall_congr' fun other => imp_congr (written_enter same other) .rfl

theorem Written.enter {other : String} (written : store.Written other) :
    (store.enter cluster .listing).Written other := by
  by_cases own : other = cluster
  · simp [Written, GlobalStore.enter, own]
  · simpa [Written, GlobalStore.enter, own] using written

section

variable (sound : Sound sha256 anchor store)

include sound

theorem Sound.enter (same : stage = .listing ∨ stage = .done ↔ store.Written cluster)
    (fresh : ∀ seen, stage = .writing seen → seen = store.held) : Sound sha256 anchor (store.enter cluster stage) where
  known held member := (written_enter same _).mpr (sound.known held member)
  seen other seen writing := by
    simp only [written_enter same]
    by_cases own : other = cluster
    · obtain rfl := fresh seen (by simpa [GlobalStore.enter, own] using writing)
      exact ⟨sound.known, .inl rfl⟩
    · exact sound.seen other seen (by simpa [GlobalStore.enter, own] using writing)
  hashed := sound.hashed

theorem Sound.unlisted (unwritten : ¬store.Written cluster) : store.held.any (·.clusterId = cluster) = false := by
  simp only [List.any_eq_false, decide_eq_true_eq]
  rintro held member rfl
  exact unwritten (sound.known held member)

theorem Sound.write {seen : List ClusterDailyAnchor} (writing : store.stage cluster = .writing seen) :
    Sound sha256 anchor
      { store.enter cluster .listing with stored := some (.make sha256 (seen ++ [anchorOf anchor cluster]) "") } := by
  have unwritten : ¬store.Written cluster := by
    simp [Written, writing]
  have listing : (store.enter cluster .listing).Written cluster := .inl (by simp [GlobalStore.enter])
  refine ⟨fun held member => ?_, fun other read reads => ?_, fun document stored => ?_⟩
  · rcases List.mem_append.mp member with old | new
    · exact ((sound.seen cluster seen writing).1 held old).enter
    · obtain rfl := List.mem_singleton.mp new
      exact listing
  · have foreign : other ≠ cluster := by
      rintro rfl
      simp [GlobalStore.enter] at reads
    have known := (sound.seen other read (by simpa [GlobalStore.enter, foreign] using reads)).1
    exact ⟨fun held member => (known held member).enter, .inr ⟨cluster, listing, fun own => unwritten (known _ own)⟩⟩
  · obtain rfl := Option.some.inj stored
    rfl

theorem Sound.complete_write {seen : List ClusterDailyAnchor} (writing : store.stage cluster = .writing seen) :
    Complete anchor
        { store.enter cluster .listing with stored := some (.make sha256 (seen ++ [anchorOf anchor cluster]) "") } ↔
      Complete anchor store ∧ seen = store.held := by
  have unwritten : ¬store.Written cluster := by
    simp [Written, writing]
  constructor
  · intro complete
    -- what another cluster has written can only be in the part that was read
    have read : ∀ other, store.Written other → anchorOf anchor other ∈ seen := by
      intro other written
      rcases List.mem_append.mp (complete other written.enter) with old | new
      · exact old
      · have own := congrArg ClusterDailyAnchor.clusterId (List.mem_singleton.mp new)
        exact absurd ((show other = cluster from own) ▸ written) unwritten
    rcases (sound.seen cluster seen writing).2 with same | ⟨writer, written, missed⟩
    · exact ⟨fun other written => same ▸ read other written, same⟩
    · exact absurd (read writer written) missed
  · rintro ⟨complete, rfl⟩ other written
    by_cases own : other = cluster
    · subst own
      exact List.mem_append_right _ (List.mem_singleton_self _)
    · refine List.mem_append_left _ (complete other ?_)
      simpa [Written, GlobalStore.enter, own] using written

theorem Sound.step (cluster : String) : Sound sha256 anchor (step sha256 anchor store cluster) := by
  unfold GlobalStore.step
  split
  · rename_i idle
    rw [sound.unlisted (by simp [Written, idle])]
    exact sound.enter (by simp [Written, idle]) fun _ => Stage.writing.inj ∘ Eq.symm
  · rename_i writing
    exact sound.write writing
  · rename_i listing
    have same : Stage.done = .listing ∨ Stage.done = .done ↔ store.Written cluster := by
      simp [Written, listing]
    obtain ⟨known, seen, hashed⟩ := sound.enter same nofun
    exact ⟨known, seen, hashed⟩
  · exact sound

theorem Sound.complete_step (cluster : String) :
    Complete anchor (GlobalStore.step sha256 anchor store cluster) ↔
      Complete anchor store ∧ store.Unchanged cluster := by
  unfold GlobalStore.step Unchanged
  split
  · rename_i idle
    rw [sound.unlisted (by simp [Written, idle])]
    exact (complete_enter (by simp [Written, idle])).trans (and_iff_left (by simp [idle])).symm
  · rename_i writing
    rw [sound.complete_write writing]
    simp [writing]
  · rename_i listing
    have same : Stage.done = .listing ∨ Stage.done = .done ↔ store.Written cluster := by
      simp [Written, listing]
    exact (complete_enter same).trans (and_iff_left (by simp [listing])).symm
  · rename_i done
    exact (and_iff_left (by simp [done])).symm

theorem Sound.kept_iff (settled : store.Settled) : Kept sha256 anchor store ↔ Complete anchor store := by
  constructor
  · intro kept cluster written
    rcases settled cluster with idle | done
    · rcases written with listing | done
      · cases idle.symm.trans listing
      · cases idle.symm.trans done
    · exact (kept cluster done).1
  · intro complete cluster done
    have member := complete cluster (.inr done)
    refine ⟨member, ?_⟩
    cases stored : store.stored with
    | none => simp [held, stored] at member
    | some document =>
      have hashed := congrArg GlobalDailyAnchor.globalHash (sound.hashed document stored)
      simp only [GlobalDailyAnchor.make] at hashed
      simp [verifyGlobalIntegrity, stored, GlobalDailyAnchor.make, hashed]

end

theorem daily_anchors_kept_iff (sha256 : String → String) (anchor : String → ClusterDailyAnchor)
    (calls : List String) (settled : (calls.foldl (step sha256 anchor) {}).Settled) :
    (calls.foldl (step sha256 anchor) {}).Kept sha256 anchor ↔
      Stepwise.Always (step sha256 anchor) Unchanged {} calls := by
  have sound : Sound sha256 anchor {} := ⟨nofun, nofun, nofun⟩
  have complete : Complete anchor {} := fun _ written => nomatch written
  rw [(keeps (fun _ cluster held => held.step cluster) sound calls).kept_iff settled,
    goal_iff (fun _ cluster held => held.step cluster) (fun _ cluster held => held.complete_step cluster) sound]
  exact and_iff_right complete

def daily (cluster : String) : ClusterDailyAnchor :=
  ⟨cluster, "2026-01-15", if cluster = "eu" then 120 else 87, "9f2c", 20, "2026-01-16T00:05:00"⟩

theorem overlapping_submissions_kept :
    (["eu", "eu", "us", "us", "eu", "us"].foldl (step id daily) {}).Kept id daily := by
  refine (daily_anchors_kept_iff id _ _ fun cluster => ?_).mpr ?_
  · by_cases eu : cluster = "eu" <;> by_cases us : cluster = "us" <;>
      simp [step, enter, held, anchorOf, GlobalDailyAnchor.make, eu, us]
  · simp [Stepwise.Always, Unchanged, step, enter, held, anchorOf, GlobalDailyAnchor.make]

theorem first_anchor_overwritten :
    ¬ (["eu", "us", "eu", "us", "eu", "us"].foldl (step id fun _ => ⟨"", "", 0, "", 0, ""⟩) {}).Kept id
      (fun _ => ⟨"", "", 0, "", 0, ""⟩) := by
  intro kept
  exact absurd (kept "eu" (by decide +kernel)).1 (by decide +kernel)

end GlobalStore

end Baldur.Audit
