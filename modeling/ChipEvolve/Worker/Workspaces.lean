import ChipEvolve.JsonText
import ChipEvolve.Worker.Budget

/-!
# A workspace for each attempt

`execute_once_reporting` computes the path of a workspace from the attempts it has read, and
`start_attempt` numbers the attempt later, in its own transaction (`runtime.py`, `store.py`).
A worker that is slow between the two takes the path of an attempt that another has started.
-/

namespace ChipEvolve

open Machine Sql

/-! ## Names of workspaces -/

/-- The path ends in the number that is recorded with the attempt. -/
def AttemptRow.NamedByNumber (a : AttemptRow) : Prop :=
  ∃ parent, a.workspace = parent ++ "/attempt-" ++ toString a.attemptNumber

/-- An attempt of the run. -/
def Tables.AttemptOf (t : Tables) (runId : RunId) (a : AttemptRow) : Prop :=
  a ∈ t.attempts ∧ ∃ s, t.stage? a.stageRunId = some s ∧ s.runId = runId

structure Tables.OwnWorkspaces (t : Tables) (runId : RunId) : Prop where
  named : ∀ a, t.AttemptOf runId a → a.NamedByNumber
  distinct : ∀ a b, t.AttemptOf runId a → t.AttemptOf runId b → a.workspace = b.workspace → a = b

/-- The digits at the end of a text. -/
theorem takeWhile_reverse_digits (n : Nat) (rest : List Char) :
    ((Nat.toDigits 10 n).reverse ++ '-' :: rest).takeWhile Char.isDigit =
      (Nat.toDigits 10 n).reverse := by
  rw [List.takeWhile_append_of_pos fun c hc ↦ JsonText.isDigit_of_mem (List.mem_reverse.mp hc)]
  simp

/-- The number can be read off a path. -/
theorem attempt_suffix {x y : String} {m n : Nat}
    (h : x ++ "/attempt-" ++ toString m = y ++ "/attempt-" ++ toString n) : m = n := by
  have hchars : ∀ (z : String) (k : Nat), (z ++ "/attempt-" ++ toString k).toList.reverse =
      (Nat.toDigits 10 k).reverse ++ '-' :: ("/attempt".toList.reverse ++ z.toList.reverse) := by
    intro z k
    rw [String.toList_append, String.toList_append, JsonText.toList_toString,
      List.reverse_append, List.reverse_append]
    rfl
  have hread := congrArg (fun z : String ↦ z.toList.reverse.takeWhile Char.isDigit) h
  simp only [hchars, takeWhile_reverse_digits, List.reverse_inj] at hread
  exact JsonText.toDigits_injective hread

/-- In tables as they can be, names by number are all different. -/
theorem ownWorkspaces_of_named {t : Tables} (hwf : WellFormed t) {runId : RunId}
    (h : ∀ a, t.AttemptOf runId a → a.NamedByNumber) : t.OwnWorkspaces runId := by
  refine ⟨h, fun a b ha hb hsame ↦ ?_⟩
  obtain ⟨x, hx⟩ := h a ha
  obtain ⟨y, hy⟩ := h b hb
  have hnumber : a.attemptNumber = b.attemptNumber :=
    attempt_suffix (hx.symm.trans (hsame.trans hy))
  obtain ⟨ha, s, hs, hrun⟩ := ha
  obtain ⟨hb, s', hs', hrun'⟩ := hb
  obtain rfl := hwf.stage_eq_of_run (Table.mem_of_get? hs) (Table.mem_of_get? hs')
    (hrun.trans hrun'.symm)
  have hstage : a.stageRunId = b.stageRunId :=
    (Table.key_of_get? hs).symm.trans (Table.key_of_get? hs')
  have hnodup : ((t.attemptsOf b.stageRunId).map AttemptRow.attemptNumber).Nodup := by
    rw [hwf.numbered]
    exact List.nodup_range'
  exact List.inj_on_of_nodup_map hnodup (List.mem_filter.mpr ⟨ha, by simp [hstage]⟩)
    (List.mem_filter.mpr ⟨hb, by simp⟩) hnumber

/-! ## What stays -/

/-- The attempts of `t` are still there in `t'`, with their paths and numbers. -/
structure Tables.GrowsTo (t t' : Tables) : Prop where
  attempts : ∀ a ∈ t.attempts, ∃ a' ∈ t'.attempts, a'.stageRunId = a.stageRunId ∧
    a'.workspace = a.workspace ∧ a'.attemptNumber = a.attemptNumber
  stages : ∀ stageRunId s, t.stage? stageRunId = some s →
    ∃ s', t'.stage? stageRunId = some s' ∧ s'.runId = s.runId
  used : ∀ stageRunId, t.used stageRunId ≤ t'.used stageRunId

namespace Tables.GrowsTo

variable {t t' t'' : Tables}

theorem refl (t : Tables) : t.GrowsTo t :=
  ⟨fun a ha ↦ ⟨a, ha, rfl, rfl, rfl⟩, fun _ s hs ↦ ⟨s, hs, rfl⟩, fun _ ↦ le_refl _⟩

theorem trans (h : t.GrowsTo t') (h' : t'.GrowsTo t'') : t.GrowsTo t'' := by
  refine ⟨fun a ha ↦ ?_, fun stageRunId s hs ↦ ?_, fun stageRunId ↦
    (h.used stageRunId).trans (h'.used stageRunId)⟩
  · obtain ⟨a', ha', hstage, hworkspace, hnumber⟩ := h.attempts a ha
    obtain ⟨a'', ha'', hstage', hworkspace', hnumber'⟩ := h'.attempts a' ha'
    exact ⟨a'', ha'', hstage'.trans hstage, hworkspace'.trans hworkspace, hnumber'.trans hnumber⟩
  · obtain ⟨s', hs', hrun⟩ := h.stages stageRunId s hs
    obtain ⟨s'', hs'', hrun'⟩ := h'.stages stageRunId s' hs'
    exact ⟨s'', hs'', hrun'.trans hrun⟩

theorem onAttempt_workspace (e : Effect) (a : AttemptRow) :
    (e.onAttempt a).workspace = a.workspace := by
  cases e <;> simp only [Effect.onAttempt] <;> split <;> rfl

theorem apply (t : Tables) (e : Effect) : t.GrowsTo (e.apply t) := by
  refine ⟨fun a ha ↦ ⟨e.onAttempt a, ?_, by simp, onAttempt_workspace e a, by simp⟩,
    fun stageRunId s hs ↦ ⟨_, stage?_apply e hs, by simp⟩, fun stageRunId ↦ ?_⟩
  · rw [e.attempts_apply]
    exact List.mem_append_left _ (List.mem_map_of_mem ha)
  · unfold Tables.used
    rw [attemptsOf_apply, List.length_append, List.length_map]
    exact Nat.le_add_right _ _

/-- Attempts stay through every run. -/
theorem of_run {d : Deployment} {w w' : World} {history : List (ThreadId × Event)}
    (hrun : run (World.step d) w history = some w') : w.tables.GrowsTo w'.tables := by
  induction history generalizing w with
  | nil =>
      obtain rfl := Option.some.inj hrun
      exact refl _
  | cons l history ih =>
      obtain ⟨u, hstep, hrest⟩ := Option.bind_eq_some_iff.mp hrun
      rcases World.step_turn hstep with ⟨hsame, _⟩ | ⟨e, _, _, happly⟩
      · exact hsame ▸ ih hrest
      · exact (apply w.tables e).trans (happly ▸ ih hrest)
end Tables.GrowsTo

/-! ## Between reading and starting -/

namespace Thread

variable {d : Deployment} {tid : ThreadId} {t t' : Tables} {th th' : Thread} {ev : Event}
  {run : RunRow} {stage : StageRow} {workspace : String} {cfg : RuntimeConfig}

theorem escape_ne_claiming (runId : RunId) (e : StoreError) :
    escape runId e ≠ .claiming run stage workspace := by
  unfold escape
  split <;> exact fun h ↦ by cases h

theorem ofPass_ne_claiming (pass : Pass) : ofPass pass ≠ .claiming run stage workspace := by
  cases pass <;> exact fun h ↦ by cases h

theorem request_ne_claiming {custody : Custody} :
    th.request custody t ev ≠ some (.claiming run stage workspace, t') := by
  intro h
  unfold request at h
  split at h
  · cases h
  · split at h <;> cases h
  · cases h
  · cases h
  · exact ofPass_ne_claiming _ (Prod.mk.inj (Option.some.inj h)).1
  · exact ofPass_ne_claiming _ (Prod.mk.inj (Option.some.inj h)).1
  · cases h

theorem work_ne_claiming {str : Json → String} :
    th.work cfg str t ev ≠ some (.claiming run stage workspace, t') := by
  intro h
  unfold work at h
  split at h <;> first | cases h | (split at h <;> cases h)

theorem recover_ne_claiming : th.recover t ev ≠ some (.claiming run stage workspace, t') := by
  intro h
  unfold recover at h
  split at h <;> first | cases h | (split at h <;> first | cases h | (split at h <;> cases h))

theorem sweep_ne_claiming : th.sweep t ev ≠ some (.claiming run stage workspace, t') := by
  intro h
  unfold sweep at h
  split at h <;> first | cases h | (split at h <;> first | cases h | (split at h <;> cases h))

/-- A path is computed where the attempts are read. -/
theorem select_claiming (h : th.select cfg t ev = some (.claiming run stage workspace, t')) :
    th = .resolving run stage ∧ ∃ resumable, ev = .resolved resumable ∧
      workspace = workspaceFor cfg run stage resumable (t.listAttempts stage.stageRunId) := by
  unfold select at h
  split at h
  · cases h
  · split at h
    · cases h
    · cases h
    · exact absurd (Prod.mk.inj (Option.some.inj h)).1 (escape_ne_claiming _ _)
  · split at h
    · cases h
    · exact absurd (Prod.mk.inj (Option.some.inj h)).1 (escape_ne_claiming _ _)
  · split at h
    · split at h <;> cases h
    · exact absurd (Prod.mk.inj (Option.some.inj h)).1 (escape_ne_claiming _ _)
  · split at h <;> cases h
  · cases h
    exact ⟨rfl, _, rfl, rfl⟩
  · cases h
  · split at h
    · cases h
    · cases h
    · exact absurd (Prod.mk.inj (Option.some.inj h)).1 (escape_ne_claiming _ _)
  · cases h

theorem step_claiming (h : th.step d tid t ev = some (.claiming run stage workspace, t')) :
    th = .resolving run stage ∧ ∃ resumable, ev = .resolved resumable ∧
      workspace = workspaceFor (d.config tid) run stage resumable
        (t.listAttempts stage.stageRunId) := by
  unfold step at h
  rcases (Option.orElse_eq_some _ _ _).mp h with hrequest | ⟨_, h⟩
  · exact absurd hrequest request_ne_claiming
  rcases (Option.orElse_eq_some _ _ _).mp h with hselect | ⟨_, h⟩
  · exact select_claiming hselect
  rcases (Option.orElse_eq_some _ _ _).mp h with hwork | ⟨_, h⟩
  · exact absurd hwork work_ne_claiming
  rcases (Option.orElse_eq_some _ _ _).mp h with hrecover | ⟨_, h⟩
  · exact absurd hrecover recover_ne_claiming
  · exact absurd h sweep_ne_claiming

/-- Who starts an attempt has computed its path. -/
theorem Acts.claim_cases {stage' : StageRow} {c : Claim} {attemptId : AttemptId} {now : Timestamp}
    (h : th.Acts d tid t ev (.claim stage' c attemptId now) th') :
    ∃ run stage workspace r, th = .claiming run stage workspace ∧ ev = .next r ∧
      stage'.stageRunId = stage.stageRunId ∧
      c = (d.config tid).claim run.taskSpec workspace := by
  cases h with
  | claim hstage => exact ⟨_, _, _, _, rfl, rfl, hstage, rfl⟩
  | pass hemits => cases hemits

end Thread
/-- In the history, the thread reads the attempts of a stage in `w₁`, and does nothing until
`w₂`. -/
structure Waits (d : Deployment) (before between : List (ThreadId × Event)) (tid : ThreadId)
    (resumable : Bool) (run : RunRow) (stage : StageRow) (w₁ w₂ : World) : Prop where
  start : Machine.run (World.step d) {} before = some w₁
  resolving : w₁.threads tid = .resolving run stage
  idles : ∀ l ∈ between, l.1 ≠ tid
  meanwhile : Machine.run (World.step d) {} (before ++ (tid, .resolved resumable) :: between) =
    some w₂

section Waiting

variable {d : Deployment} {history : List (ThreadId × Event)} {w w' w₁ w₂ : World}
  {before between : List (ThreadId × Event)} {tid : ThreadId} {resumable : Bool} {run : RunRow}
  {stage : StageRow} {workspace : String} {runId : RunId}

theorem threads_of_run (hrun : Machine.run (World.step d) w between = some w')
    (hidles : ∀ l ∈ between, l.1 ≠ tid) : w'.threads tid = w.threads tid := by
  induction between generalizing w with
  | nil =>
      obtain rfl := Option.some.inj hrun
      rfl
  | cons l between ih =>
      obtain ⟨u, hstep, hrest⟩ := Option.bind_eq_some_iff.mp hrun
      rw [ih hrest fun l' hl' ↦ hidles l' (List.mem_cons_of_mem l hl')]
      exact World.step_other hstep (Ne.symm (hidles l List.mem_cons_self))

theorem Waits.claiming (h : Waits d before between tid resumable run stage w₁ w₂) :
    w₂.threads tid = .claiming run stage (workspaceFor (d.config tid) run stage resumable
      (w₁.tables.listAttempts stage.stageRunId)) := by
  have hrest := h.meanwhile
  rw [run_append, h.start, Option.bind_some] at hrest
  obtain ⟨u, hstep, hrest⟩ := Option.bind_eq_some_iff.mp hrest
  have hthread := World.step_thread hstep
  rw [h.resolving] at hthread
  rw [threads_of_run hrest h.idles]
  exact (Prod.mk.inj (Option.some.inj hthread)).1.symm

theorem Waits.growsTo (h : Waits d before between tid resumable run stage w₁ w₂) :
    w₁.tables.GrowsTo w₂.tables := by
  have hrest := h.meanwhile
  rw [run_append, h.start, Option.bind_some] at hrest
  exact Tables.GrowsTo.of_run hrest

/-- A thread that is about to start an attempt has read the attempts of the stage before. -/
theorem waits_of_claiming (hrun : Machine.run (World.step d) {} history = some w)
    (hclaiming : w.threads tid = .claiming run stage workspace) :
    ∃ before between resumable w₁, history = before ++ (tid, .resolved resumable) :: between ∧
      Waits d before between tid resumable run stage w₁ w := by
  induction history using List.reverseRecOn generalizing w with
  | nil =>
      obtain rfl := Option.some.inj hrun
      cases hclaiming
  | append_singleton history l ih =>
      obtain ⟨u, hu, hstep⟩ := run_concat_eq_some_iff.mp hrun
      by_cases hl : l.1 = tid
      · have hthread := World.step_thread hstep
        rw [hl, hclaiming] at hthread
        obtain ⟨hresolving, resumable, hev, _⟩ := Thread.step_claiming hthread
        obtain rfl : l = (tid, .resolved resumable) := Prod.ext hl hev
        exact ⟨history, [], resumable, u, rfl, hu, hresolving, by simp, hrun⟩
      · rw [World.step_other hstep (Ne.symm hl)] at hclaiming
        obtain ⟨before, between, resumable, w₁, rfl, hwaits⟩ := ih hu hclaiming
        refine ⟨before, between ++ [l], resumable, w₁, by simp, hwaits.start, hwaits.resolving,
          fun l' hl' ↦ ?_, by simpa using hrun⟩
        rcases List.mem_append.mp hl' with hl' | hl'
        · exact hwaits.idles l' hl'
        · obtain rfl := List.mem_singleton.mp hl'
          exact hl

/-- A thread starts an attempt of the run although another has been started since it read the
attempts of the stage. -/
def Overtaken (d : Deployment) (history : List (ThreadId × Event)) (runId : RunId) : Prop :=
  ∃ before tid between reading later run stage w₁ w₂ w₃,
    history = before ++ (tid, .resolved false) :: between ++ (tid, .next reading) :: later ∧
      Waits d before between tid false run stage w₁ w₂ ∧ run.runId = runId ∧
      w₂.step d (tid, .next reading) = some w₃ ∧
      w₁.tables.used stage.stageRunId < w₂.tables.used stage.stageRunId ∧
      w₂.tables.used stage.stageRunId < w₃.tables.used stage.stageRunId

/-- No manifest that was resolved for the run is resumable. -/
def NotResumable (d : Deployment) (history : List (ThreadId × Event)) (runId : RunId) : Prop :=
  ∀ w tid resumable w' run stage,
    Takes (World.step d) {} history w (tid, .resolved resumable) w' →
      w.threads tid = .resolving run stage → run.runId = runId → resumable = false

theorem Overtaken.concat (h : Overtaken d history runId) (l : ThreadId × Event) :
    Overtaken d (history ++ [l]) runId := by
  obtain ⟨before, tid, between, reading, later, run, stage, w₁, w₂, w₃, rfl, hrest⟩ := h
  exact ⟨before, tid, between, reading, later ++ [l], run, stage, w₁, w₂, w₃, by simp, hrest⟩

theorem NotResumable.of_concat {l : ThreadId × Event} (h : NotResumable d (history ++ [l]) runId) :
    NotResumable d history runId := by
  rintro w tid resumable w' run stage ⟨pre, hpre, hsteps⟩
  exact h w tid resumable w' run stage
    ⟨pre, hpre.trans (List.prefix_append history [l]), hsteps⟩

theorem reachable_of_run (hrun : Machine.run (World.step d) {} history = some w) :
    ReachableBy (World.step d) (fun _ _ ↦ True) {} w :=
  ReachableBy.run .init hrun

/-- An attempt of the run after an effect was one before, or the effect has started it. -/
theorem Tables.AttemptOf.of_apply {t : Tables} {e : Effect} (hwf : WellFormed t) {a : AttemptRow}
    (h : (e.apply t).AttemptOf runId a) :
    (∃ b, t.AttemptOf runId b ∧ a.workspace = b.workspace ∧
      a.attemptNumber = b.attemptNumber) ∨
      ∃ stage c attemptId now, e = .claim stage c attemptId now ∧
        a = t.nextAttempt stage c attemptId now := by
  obtain ⟨ha, s', hs', hrun⟩ := h
  rw [e.attempts_apply] at ha
  rcases List.mem_append.mp ha with hold | hnew
  · obtain ⟨b, hb, rfl⟩ := List.mem_map.mp hold
    obtain ⟨s, hs, hkey⟩ := List.mem_map.mp (hwf.attemptStages b hb)
    have hs := hkey ▸ hwf.stage?_of_mem hs
    rw [Effect.onAttempt_stageRunId, stage?_apply e hs] at hs'
    obtain rfl := Option.some.inj hs'
    refine .inl ⟨b, ⟨hb, s, hs, by simpa using hrun⟩, ?_, by simp⟩
    exact Tables.GrowsTo.onAttempt_workspace e b
  · cases e with
    | claim stage c attemptId now =>
        exact .inr ⟨stage, c, attemptId, now, rfl, List.mem_singleton.mp hnew⟩
    | _ => cases hnew

theorem length_listAttempts (t : Tables) (stageRunId : StageRunId) :
    (t.listAttempts stageRunId).length = t.used stageRunId :=
  List.length_insertionSort _ _

/-- The path of a manifest that is not resumable ends in the number of attempts that were read,
and one. -/
theorem workspaceFor_eq (cfg : RuntimeConfig) (run : RunRow) (stage : StageRow) (t : Tables) :
    ∃ parent, workspaceFor cfg run stage false (t.listAttempts stage.stageRunId) =
      parent ++ "/attempt-" ++ toString (t.used stage.stageRunId + 1) := by
  refine ⟨cfg.workspaceRoot ++ "/" ++ run.runId ++ "/" ++ stage.stageRunId, ?_⟩
  rw [← length_listAttempts]
  simp only [workspaceFor, String.append_assoc]

/-- Whose claim is not overtaken has computed the path of the number it gets. -/
theorem named_of_claim {u : World} {l : ThreadId × Event}
    (hu : Machine.run (World.step d) {} history = some u) (hstep : u.step d l = some w)
    (hplain : NotResumable d history runId) (hnone : ¬Overtaken d (history ++ [l]) runId)
    {stage' : StageRow} {c : Claim} {attemptId : AttemptId} {now : Timestamp}
    (hacts : (u.threads l.1).Acts d l.1 u.tables l.2 (.claim stage' c attemptId now)
      (w.threads l.1))
    (he : (Effect.claim stage' c attemptId now).Enabled u.tables)
    (happly : w.tables = (Effect.claim stage' c attemptId now).apply u.tables)
    (ha : w.tables.AttemptOf runId (u.tables.nextAttempt stage' c attemptId now)) :
    (u.tables.nextAttempt stage' c attemptId now).NamedByNumber := by
  have hsound : u.Sound := .of_reachable (reachable_of_run hu)
  obtain ⟨tid, ev⟩ := l
  obtain ⟨run, stage, workspace, r, hclaiming, rfl, hid, rfl⟩ := hacts.claim_cases
  have hstage := he.1
  -- the run that the thread has read is the run of the attempt
  have hrunId : run.runId = runId := by
    have hknown := hsound.known tid
    rw [hclaiming] at hknown
    obtain ⟨_, s, hs, hrun⟩ := hknown
    obtain ⟨_, s', hs', hrun'⟩ := ha
    have hs' : ((Effect.claim stage' _ attemptId now).apply u.tables).stage? stage'.stageRunId =
        some s' := happly ▸ hs'
    rw [stage?_apply _ hstage] at hs'
    obtain rfl := Option.some.inj hs'
    obtain rfl := Option.some.inj (hs.symm.trans (hid ▸ hstage))
    rw [← hrun, ← hrun', Effect.onStage_runId]
  obtain ⟨before, between, resumable, w₁, rfl, hwaits⟩ := waits_of_claiming hu hclaiming
  obtain rfl : resumable = false := by
    obtain ⟨v, hv, hresolved⟩ := Option.bind_eq_some_iff.mp
      ((run_append _ _ _ _).symm.trans hwaits.meanwhile)
    obtain rfl := Option.some.inj (hwaits.start.symm.trans hv)
    obtain ⟨v', hv', _⟩ := Option.bind_eq_some_iff.mp hresolved
    exact hplain w₁ tid resumable v' run stage ⟨before, by simp, hwaits.start, hv'⟩
      hwaits.resolving hrunId
  have hworkspace := hwaits.claiming
  rw [hclaiming] at hworkspace
  obtain ⟨parent, hparent⟩ := workspaceFor_eq (d.config tid) run stage w₁.tables
  have hsame : w₁.tables.used stage.stageRunId = u.tables.used stage.stageRunId := by
    refine le_antisymm (hwaits.growsTo.used _) (not_lt.mp fun hlt ↦ hnone ?_)
    refine ⟨before, tid, between, r, [], run, stage, w₁, u, w, rfl, hwaits, hrunId, hstep, hlt, ?_⟩
    rw [happly, ← hid, used_claim]
    exact Nat.lt_succ_self _
  have hnumber : (u.tables.nextAttempt stage' ((d.config tid).claim run.taskSpec workspace)
      attemptId now).attemptNumber = w₁.tables.used stage.stageRunId + 1 := by
    have hnext : u.tables.maxAttemptNumber stage'.stageRunId = u.tables.used stage'.stageRunId :=
      hsound.wellFormed.maxAttemptNumber_eq _
    rw [hsame, ← hid, ← hnext]
    rfl
  refine ⟨parent, ?_⟩
  rw [hnumber, ← hparent]
  injection hworkspace

/-- As long as no thread is overtaken, an attempt is started with the path of its number. -/
theorem named_of_not_overtaken (hrun : Machine.run (World.step d) {} history = some w)
    (hplain : NotResumable d history runId) (hnone : ¬Overtaken d history runId) :
    ∀ a, w.tables.AttemptOf runId a → a.NamedByNumber := by
  induction history using List.reverseRecOn generalizing w with
  | nil =>
      obtain rfl := Option.some.inj hrun
      rintro a ⟨ha, _⟩
      cases ha
  | append_singleton history l ih =>
      obtain ⟨u, hu, hstep⟩ := run_concat_eq_some_iff.mp hrun
      have hsound : u.Sound := .of_reachable (reachable_of_run hu)
      have hnamed := ih hu hplain.of_concat fun h ↦ hnone (h.concat l)
      rcases World.step_turn hstep with ⟨hsame, _⟩ | ⟨e, hacts, he, happly⟩
      · have hsame : w.tables = u.tables := hsame
        rw [hsame]
        exact hnamed
      · have happly : w.tables = e.apply u.tables := happly
        rw [happly]
        intro a ha
        rcases ha.of_apply hsound.wellFormed with ⟨b, hb, hworkspace, hnumber⟩ |
          ⟨stage', c, attemptId, now, rfl, rfl⟩
        · unfold AttemptRow.NamedByNumber
          rw [hworkspace, hnumber]
          exact hnamed b hb
        · exact named_of_claim hu hstep hplain.of_concat hnone hacts he happly (happly ▸ ha)

/-- Who is overtaken and starts an attempt gives it the path of another number. -/
theorem not_own_of_overtaken (hrun : Machine.run (World.step d) {} history = some w)
    (h : Overtaken d history runId) : ¬w.tables.OwnWorkspaces runId := by
  obtain ⟨before, tid, between, reading, later, run, stage, w₁, w₂, w₃, rfl, hwaits, hrunId, hstep,
    hread, hstarted⟩ := h
  have hreached : Machine.run (World.step d) {}
      (before ++ (tid, .resolved false) :: between) = some w₂ := hwaits.meanwhile
  have hsound : w₂.Sound := .of_reachable (reachable_of_run hreached)
  have hlater : Machine.run (World.step d) w₃ later = some w := by
    rw [run_append, hreached, Option.bind_some, run_cons, hstep] at hrun
    exact hrun
  have hgrows := Tables.GrowsTo.of_run hlater
  rcases World.step_turn hstep with ⟨hsame, _⟩ | ⟨e, hacts, he, happly⟩
  · have hsame : w₃.tables = w₂.tables := hsame
    rw [hsame] at hstarted
    exact absurd hstarted (lt_irrefl _)
  · have happly : w₃.tables = e.apply w₂.tables := happly
    obtain ⟨stage', c, attemptId, now, rfl, hid⟩ : ∃ stage' c attemptId now,
        e = .claim stage' c attemptId now ∧ stage'.stageRunId = stage.stageRunId := by
      by_contra hother
      push Not at hother
      rw [happly, used_apply hother] at hstarted
      exact lt_irrefl _ hstarted
    obtain ⟨run', stage'', workspace, r, hclaiming, _, _, rfl⟩ := hacts.claim_cases
    obtain ⟨rfl, rfl, hworkspace⟩ := Thread.claiming.inj (hclaiming.symm.trans hwaits.claiming)
    -- the attempt that is started, and the row it has in the end
    have hmem : w₂.tables.nextAttempt stage' ((d.config tid).claim run'.taskSpec workspace)
        attemptId now ∈ w₃.tables.attempts := by
      rw [happly, Effect.attempts_apply]
      exact List.mem_append_right _ (List.mem_singleton_self _)
    obtain ⟨a, ha, hstage, hpath, hnumber⟩ := hgrows.attempts _ hmem
    have hrow : ∃ s, w.tables.stage? a.stageRunId = some s ∧ s.runId = runId := by
      have hknown := hsound.known tid
      rw [hclaiming] at hknown
      obtain ⟨_, s, hs, hrun'⟩ := hknown
      obtain ⟨s₃, hs₃, hrun₃⟩ := (happly ▸ Tables.GrowsTo.apply w₂.tables _).stages _ s hs
      obtain ⟨s₄, hs₄, hrun₄⟩ := hgrows.stages _ s₃ hs₃
      exact ⟨s₄, by rw [hstage, ← hs₄, ← hid]; rfl, by rw [hrun₄, hrun₃, hrun', hrunId]⟩
    intro hown
    obtain ⟨parent, hnamed⟩ := hown.named a ⟨ha, hrow⟩
    obtain ⟨parent', hparent⟩ := workspaceFor_eq (d.config tid) run' stage'' w₁.tables
    have hnext : a.attemptNumber = w₂.tables.used stage''.stageRunId + 1 := by
      have hmax := hsound.wellFormed.maxAttemptNumber_eq stage'.stageRunId
      rw [hnumber, ← hid]
      exact congrArg (· + 1) hmax
    have hsame : a.workspace = workspace := hpath
    rw [hsame, hworkspace, hparent, hnext] at hnamed
    have := attempt_suffix hnamed
    omega

/-- The attempts of a run that is not resumable have workspaces of their own, named by their
numbers, exactly when no thread starts one after another has been started since it read them. -/
theorem own_workspaces_iff (d : Deployment) (history : List (ThreadId × Event)) {w : World}
    (hrun : Machine.run (World.step d) {} history = some w) {runId : RunId}
    (hplain : NotResumable d history runId) :
    w.tables.OwnWorkspaces runId ↔ ¬Overtaken d history runId := by
  refine ⟨fun hown hovertaken ↦ not_own_of_overtaken hrun hovertaken hown, fun hnone ↦ ?_⟩
  have hsound : w.Sound := .of_reachable (reachable_of_run hrun)
  exact ownWorkspaces_of_named hsound.wellFormed (named_of_not_overtaken hrun hplain hnone)

end Waiting

/-! ## A slow worker -/

namespace Sample

def plainSubmission : Submission := { submission 3 with resumable := false }

theorem failed_reported : RuntimeStatus.failed = .succeeded ∨ RuntimeStatus.failed = .failed ∨
    RuntimeStatus.failed = .cancelled ∨ RuntimeStatus.failed = .timedOut :=
  .inr (.inl rfl)

/-- The plugin fails, and may be tried again. -/
def again : PluginResult where
  status := .failed
  exitCode := 1
  failure := some [("category", .str "tool_error"), ("retryable", .bool true)]
  statusValid := failed_reported
  exitCodeValid h := absurd h (by decide)

/-- A thread reads the attempts of the run. -/
def readsAttempts (tid : ThreadId) : List (ThreadId × Event) :=
  [(tid, .execute "run" false), (tid, .next { now := 0 }), (tid, .next { now := 0 }),
    (tid, .resolved false)]

/-- A thread starts an attempt, whose plugin fails, and puts the run back. -/
def fails (tid : ThreadId) (attemptId : AttemptId) : List (ThreadId × Event) :=
  [(tid, .next { now := 0, fresh := attemptId }), (tid, .next { now := 0 }), (tid, .done again),
    (tid, .next { now := 0 }), (tid, .next { now := 0 }), (tid, .next { now := 0 })]

/-- Worker 0 has read that there is no attempt, worker 2 makes one that fails, and worker 0 makes
the second. -/
def slow : List (ThreadId × Event) :=
  (9, .submit plainSubmission) :: readsAttempts 0 ++ readsAttempts 2 ++ fails 2 "a1" ++
    [(0, .next { now := 0, fresh := "a2" })]

/-- One worker makes an attempt that fails, and another. -/
def soleWorker : List (ThreadId × Event) :=
  (9, .submit plainSubmission) :: readsAttempts 0 ++ fails 0 "a1" ++ readsAttempts 0 ++
    [(0, .next { now := 0, fresh := "a2" })]

/-- An event that resolves no resumable manifest. -/
def plain : Event → Bool
  | .resolved resumable => !resumable
  | _ => true

theorem notResumable_of_plain {history : List (ThreadId × Event)}
    (h : (history.all fun l ↦ plain l.2) = true) (d : Deployment) (runId : RunId) :
    NotResumable d history runId := by
  intro w tid resumable w' run stage htakes _ _
  simpa [plain] using List.all_eq_true.mp h _ htakes.mem

/-- Two attempts of a run share a path. -/
theorem slow_worker_shares_workspace : ¬∀ (d : Deployment) (history : List (ThreadId × Event))
    (w : World) (runId : RunId), run (World.step d) {} history = some w →
      NotResumable d history runId → w.tables.OwnWorkspaces runId := by
  intro hclaim
  have hends : (run (World.step deployment) {} slow).any (fun w ↦
      decide (w.tables.attempts.map (fun a ↦ (a.attemptId, a.stageRunId, a.workspace)) =
        [("a1", "stage", "/work/run/stage/attempt-1"),
          ("a2", "stage", "/work/run/stage/attempt-1")]) &&
      (w.tables.stage? "stage").any (·.runId = "run")) = true := by decide +kernel
  obtain ⟨w, hw, htwo⟩ := (Option.any_eq_true _ _).mp hends
  obtain ⟨hrows, hstage⟩ := Bool.and_eq_true_iff.mp htwo
  have hrows := of_decide_eq_true hrows
  obtain ⟨s, hs, hrun⟩ := (Option.any_eq_true _ _).mp hstage
  have hown := hclaim deployment slow w "run" hw (notResumable_of_plain (by decide) _ _)
  have hmem : ∀ attemptId, (attemptId, "stage", "/work/run/stage/attempt-1") ∈
      w.tables.attempts.map (fun a ↦ (a.attemptId, a.stageRunId, a.workspace)) →
      ∃ a, w.tables.AttemptOf "run" a ∧ a.attemptId = attemptId ∧
        a.workspace = "/work/run/stage/attempt-1" := by
    intro attemptId hrow
    obtain ⟨a, ha, heq⟩ := List.mem_map.mp hrow
    obtain ⟨hid, hpair⟩ := Prod.mk.inj heq
    obtain ⟨hstageId, hpath⟩ := Prod.mk.inj hpair
    exact ⟨a, ⟨ha, s, hstageId ▸ hs, of_decide_eq_true hrun⟩, hid, hpath⟩
  obtain ⟨a, ha, hfirst, hpath⟩ := hmem "a1" (by rw [hrows]; simp)
  obtain ⟨b, hb, hsecond, hpath'⟩ := hmem "a2" (by rw [hrows]; simp)
  have hsame := hown.distinct a b ha hb (hpath.trans hpath'.symm)
  rw [hsame, hsecond] at hfirst
  exact absurd hfirst (by decide)

/-- A worker that is alone is not overtaken. -/
theorem not_overtaken_of_sole {d : Deployment} {l : ThreadId × Event}
    {history : List (ThreadId × Event)} {worker : ThreadId} (h : ∀ l' ∈ history, l'.1 = worker)
    (runId : RunId) : ¬Overtaken d (l :: history) runId := by
  rintro ⟨before, tid, between, reading, later, run, stage, w₁, w₂, w₃, hhistory, hwaits, _, _,
    hread, _⟩
  cases before with
  | nil =>
      have hidle := hwaits.resolving
      obtain rfl := Option.some.inj hwaits.start
      cases hidle
  | cons first before =>
      obtain ⟨_, rfl⟩ := List.cons.inj hhistory
      have htid : tid = worker := h (tid, .resolved false) (by simp)
      have hnone : between = [] := by
        refine List.eq_nil_iff_forall_not_mem.mpr fun l' hl' ↦ hwaits.idles l' hl' ?_
        rw [htid]
        exact h l' (by simp [hl'])
      have hstep := hwaits.meanwhile
      rw [hnone] at hstep
      obtain ⟨v, hv, hstep⟩ := run_concat_eq_some_iff.mp hstep
      obtain rfl := Option.some.inj (hwaits.start.symm.trans hv)
      have hthread := World.step_thread hstep
      rw [hwaits.resolving] at hthread
      have hsame : w₁.tables = w₂.tables := (Prod.mk.inj (Option.some.inj hthread)).2
      rw [hsame] at hread
      exact lt_irrefl _ hread

theorem own_workspaces_sole : ∃ w, run (World.step deployment) {} soleWorker = some w ∧
    w.tables.attempts.length = 2 ∧ w.tables.OwnWorkspaces "run" := by
  have hends : (run (World.step deployment) {} soleWorker).any (fun w ↦
      w.tables.attempts.length = 2) = true := by decide +kernel
  obtain ⟨w, hw, htwo⟩ := (Option.any_eq_true _ _).mp hends
  have hsole : ∀ l ∈ soleWorker.tail, l.1 = 0 := by decide
  exact ⟨w, hw, of_decide_eq_true htwo, (own_workspaces_iff deployment soleWorker hw
    (notResumable_of_plain (by decide) _ _)).mpr (not_overtaken_of_sole hsole _)⟩

end Sample

end ChipEvolve
