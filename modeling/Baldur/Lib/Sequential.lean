import Baldur.Lib.Prog

/-!
Sequential execution. Nothing else runs, but the surroundings may drift (a clock may advance) before every
call. `Ensures` says what holds after every such run.
-/

namespace Prog

variable {C : Type} {R : C → Type} {α β σ : Type} {c : C} {post : α → σ → Prop} {body : β → α → Prog C R β}

inductive Runs (exec : (c : C) → σ → σ × R c) (drift : σ → σ → Prop) :
    Prog C R α → σ → α → σ → Prop
  | ret (value : α) (state : σ) : Runs exec drift (.ret value) state value state
  | call {c : C} {next : R c → Prog C R α} {before during after : σ} {value : α}
      (drifted : drift before during)
      (rest : Runs exec drift (next (exec c during).2) (exec c during).1 value after) :
      Runs exec drift (.call c next) before value after

variable {exec : (c : C) → σ → σ × R c} {drift : σ → σ → Prop}

@[simp] theorem runs_ret_iff (value result : α) (before after : σ) :
    Runs exec drift (.ret value) before result after ↔ result = value ∧ after = before := by
  constructor
  · intro run
    cases run
    exact ⟨rfl, rfl⟩
  · rintro ⟨rfl, rfl⟩
    exact .ret _ _

theorem runs_call_iff (c : C) (next : R c → Prog C R α) (before after : σ) (value : α) :
    Runs exec drift (.call c next) before value after ↔
      ∃ during, drift before during ∧ Runs exec drift (next (exec c during).2) (exec c during).1 value after := by
  constructor
  · intro run
    cases run with
    | call drifted rest => exact ⟨_, drifted, rest⟩
  · rintro ⟨during, drifted, rest⟩
    exact .call drifted rest

theorem runs_bind_iff (program : Prog C R α) (rest : α → Prog C R β) (before after : σ) (result : β) :
    Runs exec drift (program >>= rest) before result after ↔
      ∃ value middle, Runs exec drift program before value middle ∧
        Runs exec drift (rest value) middle result after := by
  induction program generalizing before with
  | ret => simp
  | call c next ih =>
    simp only [call_bind, runs_call_iff, ih]
    constructor
    · rintro ⟨during, drifted, value, middle, first, second⟩
      exact ⟨value, middle, ⟨during, drifted, first⟩, second⟩
    · rintro ⟨value, middle, ⟨during, drifted, first⟩, second⟩
      exact ⟨during, drifted, value, middle, first, second⟩

def run (exec : (c : C) → σ → σ × R c) : Prog C R α → σ → σ × α
  | .ret value, state => (state, value)
  | .call c next, state => run exec (next (exec c state).2) (exec c state).1

@[simp] theorem run_bind (exec : (c : C) → σ → σ × R c) (program : Prog C R α) (rest : α → Prog C R β) (state : σ) :
    (program >>= rest).run exec state = (rest (program.run exec state).2).run exec (program.run exec state).1 := by
  induction program generalizing state with
  | ret => rfl
  | call c next ih => simp only [call_bind, run, ih]

theorem runs_run_within (inv : σ → Prop) (still : ∀ state, inv state → drift state state)
    (kept : ∀ c state, inv state → inv (exec c state).1) (program : Prog C R α) (state : σ) (holds : inv state) :
    Runs exec drift program state (program.run exec state).2 (program.run exec state).1 := by
  induction program generalizing state with
  | ret value => exact .ret value state
  | call c next ih => exact .call (still state holds) (ih _ _ (kept c state holds))

theorem run_keeps (inv : σ → Prop) (kept : ∀ c state, inv state → inv (exec c state).1) (program : Prog C R α)
    (state : σ) (holds : inv state) : inv (program.run exec state).1 := by
  induction program generalizing state with
  | ret => exact holds
  | call c next ih => exact ih _ _ (kept c state holds)

theorem run_foldlM_keeps (inv : σ → Prop)
    (round : ∀ total item state, inv state → inv ((body total item).run exec state).1) (items : List α) (total : β)
    {state : σ} (holds : inv state) : inv ((items.foldlM body total).run exec state).1 := by
  induction items generalizing total state with
  | nil => exact holds
  | cons item rest ih =>
    rw [List.foldlM_cons, run_bind]
    exact ih _ (round total item state holds)

theorem runs_run (still : ∀ state, drift state state) (program : Prog C R α) (state : σ) :
    Runs exec drift program state (program.run exec state).2 (program.run exec state).1 :=
  runs_run_within (fun _ => True) (fun state _ => still state) (fun _ _ _ => trivial) program state trivial

variable {program : Prog C R α} {before after : σ} {value : α}

theorem Runs.mono {wider : σ → σ → Prop} (within : ∀ before after, drift before after → wider before after)
    (run : Runs exec drift program before value after) : Runs exec wider program before value after := by
  induction run with
  | ret value state => exact .ret value state
  | call drifted _ ih => exact .call (within _ _ drifted) ih

theorem Runs.earlier
    (compose : ∀ first second third, drift first second → drift second third → drift first third)
    {next : R c → Prog C R α} {during : σ} (drifted : drift before during)
    (run : Runs exec drift (.call c next) during value after) :
    Runs exec drift (.call c next) before value after := by
  obtain ⟨later, drifted', rest⟩ := (runs_call_iff _ _ _ _ _).mp run
  exact .call (compose _ _ _ drifted drifted') rest

/-- Whatever a run from this state returns and leaves behind meets the postcondition. -/
def Ensures (exec : (c : C) → σ → σ × R c) (drift : σ → σ → Prop) (program : Prog C R α)
    (before : σ) (post : α → σ → Prop) : Prop :=
  ∀ value after, Runs exec drift program before value after → post value after

theorem Ensures.someRun (still : ∀ state, drift state state) (ensures : Ensures exec drift program before post) :
    ∃ value after, Runs exec drift program before value after ∧ post value after := by
  have ran : Runs exec drift program before _ _ := runs_run still program before
  exact ⟨_, _, ran, ensures _ _ ran⟩

theorem ensures_ret (holds : post value before) : Ensures exec drift (.ret value) before post := by
  rintro _ _ run
  obtain ⟨rfl, rfl⟩ := (runs_ret_iff _ _ _ _).mp run
  exact holds

theorem ensures_perform {post : R c → σ → Prop}
    (holds : ∀ during, drift before during → post (exec c during).2 (exec c during).1) :
    Ensures exec drift (perform c) before post := by
  intro value after run
  obtain ⟨during, drifted, ended⟩ := (runs_call_iff _ _ _ _ _).mp run
  obtain ⟨rfl, rfl⟩ := (runs_ret_iff _ _ _ _).mp ended
  exact holds during drifted

theorem Ensures.mono {weaker : α → σ → Prop} (ensures : Ensures exec drift program before post)
    (implied : ∀ value after, post value after → weaker value after) :
    Ensures exec drift program before weaker := by
  intro value after run
  exact implied value after (ensures value after run)

theorem Ensures.and {first second : α → σ → Prop} (left : Ensures exec drift program before first)
    (right : Ensures exec drift program before second) :
    Ensures exec drift program before fun value after => first value after ∧ second value after := by
  intro value after run
  exact ⟨left value after run, right value after run⟩

theorem Ensures.within {narrower : σ → σ → Prop} (ensures : Ensures exec drift program before post)
    (within : ∀ before after, narrower before after → drift before after) :
    Ensures exec narrower program before post := by
  intro value after run
  exact ensures value after (run.mono within)

theorem ensures_invariant {inv : σ → Prop} (drifts : ∀ before after, inv before → drift before after → inv after)
    (calls : ∀ c state, inv state → inv (exec c state).1) (program : Prog C R α) (holds : inv before) :
    Ensures exec drift program before fun _ after => inv after := by
  intro value after run
  induction run with
  | ret => exact holds
  | call drifted _ ih => exact ih (calls _ _ (drifts _ _ holds drifted))

theorem Ensures.bind {rest : α → Prog C R β} {middle : α → σ → Prop} {post : β → σ → Prop}
    (first : Ensures exec drift program before middle)
    (second : ∀ value during, middle value during → Ensures exec drift (rest value) during post) :
    Ensures exec drift (program >>= rest) before post := by
  intro result after run
  obtain ⟨value, during, ran, continued⟩ := (runs_bind_iff _ _ _ _ _).mp run
  exact second value during (first value during ran) result after continued

theorem Ensures.discard {post : σ → Prop} {wrap : α → β} (ensures : Ensures exec drift program before fun _ => post) :
    Ensures exec drift (do return wrap (← program)) before fun _ => post := by
  exact ensures.bind fun _ _ holds => ensures_ret holds

theorem Ensures.wrapped {wrap : α → β} {result : β} (ensures : Ensures exec drift program before post)
    (run : Runs exec drift (program >>= fun value => ret (wrap value)) before result after) :
    ∃ value, result = wrap value ∧ post value after := by
  obtain ⟨value, during, ran, ended⟩ := (runs_bind_iff _ _ _ _ _).mp run
  obtain ⟨rfl, rfl⟩ := (runs_ret_iff _ _ _ _).mp ended
  exact ⟨value, rfl, ensures value _ ran⟩

theorem ensures_ite {condition : Prop} [Decidable condition] {first second : Prog C R α}
    (yes : condition → Ensures exec drift first before post)
    (no : ¬condition → Ensures exec drift second before post) :
    Ensures exec drift (if condition then first else second) before post := by
  by_cases holds : condition
  · rw [if_pos holds]
    exact yes holds
  · rw [if_neg holds]
    exact no holds

theorem ensures_branch {condition : Prop} [Decidable condition] {first second : Prog C R α}
    (yes : Ensures exec drift first before post) (no : Ensures exec drift second before post) :
    Ensures exec drift (if condition then first else second) before post := by
  exact ensures_ite (fun _ => yes) fun _ => no

theorem ensures_foldlM {items : List α} {inv : β → σ → Prop}
    (round : ∀ total item during, item ∈ items → inv total during → Ensures exec drift (body total item) during inv)
    {total : β} (holds : inv total before) :
    Ensures exec drift (items.foldlM body total) before inv := by
  induction items generalizing total before with
  | nil => exact ensures_ret holds
  | cons item rest ih =>
    rw [List.foldlM_cons]
    refine (round total item before (by simp) holds).bind fun total' during holds' => ?_
    exact ih (fun total item during member => round total item during (by simp [member])) holds'

theorem ensures_foldlM_once {firsts lasts : List α} {item : α} (pre post : σ → Prop)
    (early : ∀ total other during, other ∈ firsts → pre during →
      Ensures exec drift (body total other) during fun _ after => pre after)
    (once : ∀ total during, pre during → Ensures exec drift (body total item) during fun _ after => post after)
    (late : ∀ total other during, other ∈ lasts → post during →
      Ensures exec drift (body total other) during fun _ after => post after)
    (total : β) (holds : pre before) :
    Ensures exec drift ((firsts ++ item :: lasts).foldlM body total) before fun _ after => post after := by
  rw [List.foldlM_append]
  have leading : Ensures exec drift (firsts.foldlM body total) before fun _ after => pre after :=
    ensures_foldlM early holds
  refine leading.bind fun total' during holds' => ?_
  rw [List.foldlM_cons]
  refine (once total' during holds').bind fun total'' during' done => ?_
  exact ensures_foldlM late done

end Prog
