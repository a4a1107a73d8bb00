import ChipEvolve.Guardian.Fence
import ChipEvolve.Store.Clients
import ChipEvolve.Store.WellFormed

/-!
# A reclaim pass signal by signal

`reclaim_expired_attempts` (`runtime/store.py`) reads the expired attempts once,
fences their processes one after the other, and tests the lease again only in
the `UPDATE` that follows the fence.  Between its statements and its signals
other processes renew leases and end attempts on connections of their own.
-/

namespace ChipEvolve

open Machine Sql

/-! ## The pass with its signals -/

/-- Where `reclaim_expired_attempts` stands, and while it fences a row whether it has signalled
the process of the row. -/
inductive Reclaimer
  | idle
  | fencing (reference : Timestamp) (row : ExpiredAttempt) (fence : Fence) (signalled : Bool)
      (rows : List ExpiredAttempt) (ids : List AttemptId) (runIds : List RunId)
  | going (pass : Pass)
  | failed

namespace Reclaimer

/-- A pass that comes to a row begins to fence it. -/
def ofPass : Pass → Reclaimer
  | .fencing reference (row :: rows) ids runIds =>
      fencing reference row (.start row) false rows ids runIds
  | .returned _ => idle
  | .raised _ => idle
  | pass => going pass

/-- The pass without its signals. -/
def toPass? : Reclaimer → Option Pass
  | fencing reference row _ _ rows ids runIds => some (.fencing reference (row :: rows) ids runIds)
  | going pass => some pass
  | _ => none

/-- The attempts this pass has marked so far. -/
def marked : Reclaimer → List AttemptId
  | fencing _ _ _ _ _ ids _ => ids
  | going (.releasing _ _ _ ids _) => ids
  | _ => []

end Reclaimer

/-- The store, the pass, and the attempts that others have renewed or ended since its `SELECT`. -/
structure Contended where
  tables : Tables
  reclaimer : Reclaimer := .idle
  disturbed : List AttemptId := []

inductive ReclaimStep
  | select (reference : Timestamp)
  | go (now : Timestamp) (stat : Option ProcessStat) (killpg late : Bool)
  | heartbeat (attemptId : AttemptId) (workerId : WorkerId) (leaseSeconds : Int) (now : Timestamp)
  | finish (attemptId : AttemptId) (status : AttemptStatus) (e : Ending) (now : Timestamp)

namespace Contended

/-- A statement of another process, with what it did to the attempt. -/
def other (s : Contended) (attemptId : AttemptId) (m : StoreM Unit) : Contended :=
  match exec m s.tables with
  | (.ok _, t') => { s with tables := t', disturbed := attemptId :: s.disturbed }
  | (.error _, t') => { s with tables := t' }

/-- The next statement of the pass. -/
def advance (s : Contended) (pass : Pass) (now : Timestamp) (gone : Bool) : Contended :=
  { s with tables := (pass.step now gone s.tables).2
           reclaimer := .ofPass (pass.step now gone s.tables).1 }

/-- The pass makes its next observation, sends its next signal or runs its next statement, or
another process runs one of its own. -/
def step (s : Contended) : ReclaimStep → Option Contended
  | .select reference =>
      match s.reclaimer with
      | .idle =>
          some { s with reclaimer := .ofPass (Pass.start reference s.tables), disturbed := [] }
      | _ => none
  | .go now stat killpg late =>
      match s.reclaimer with
      | .fencing reference row (.returned gone) _ rows ids runIds =>
          some (s.advance (.fencing reference (row :: rows) ids runIds) now gone)
      | .fencing _ _ .raised _ _ _ _ => some { s with reclaimer := .failed }
      | .fencing reference row fence signalled rows ids runIds =>
          some { s with reclaimer := .fencing reference row (fence.step row stat killpg late)
                          (signalled || fence.signals && killpg) rows ids runIds }
      | .going pass => some (s.advance pass now false)
      | _ => none
  | .heartbeat attemptId workerId leaseSeconds now =>
      some (s.other attemptId (heartbeatUpdate attemptId workerId leaseSeconds now))
  | .finish attemptId status e now =>
      some (s.other attemptId (finishAttempt attemptId status e now))

/-- The row whose process group the step signals, with the instant the pass compares leases to. -/
def sends? (s : Contended) : ReclaimStep → Option (ExpiredAttempt × Timestamp)
  | .go _ _ killpg _ =>
      match s.reclaimer with
      | .fencing reference row fence _ _ _ _ =>
          if fence.signals && killpg then some (row, reference) else none
      | _ => none
  | _ => none

/-- The row whose process group was signalled and found gone, when the step is its `UPDATE`. -/
def marks? (s : Contended) : ReclaimStep → Option ExpiredAttempt
  | .go _ _ _ _ =>
      match s.reclaimer with
      | .fencing _ row (.returned true) true _ _ _ => some row
      | _ => none
  | _ => none

end Contended

/-! ## The rows a pass holds -/

/-- An effect keeps the rows of attempts that it does not rewrite. -/
theorem Effect.mem_attempts {e : Effect} {t : Tables} {a : AttemptRow} (ha : a ∈ t.attempts)
    (hsame : e.onAttempt a = a) : a ∈ (e.apply t).attempts := by
  rw [e.attempts_apply]
  exact List.mem_append_left _ (List.mem_map.mpr ⟨a, ha, hsame⟩)

theorem Effect.unique_attempts {e : Effect} {t : Tables} (hnew : e.newAttempts t = [])
    (h : Table.Unique AttemptRow.attemptId t.attempts) :
    Table.Unique AttemptRow.attemptId (e.apply t).attempts := by
  rw [e.attempts_apply, hnew, List.append_nil]
  exact h.map e.onAttempt_attemptId

namespace Pass

/-- The attempts the pass has read and not yet dealt with, and the instant it compares with. -/
def held : Pass → List (AttemptId × Timestamp)
  | fencing reference rows _ _ => rows.map fun row ↦ (row.attemptId, reference)
  | releasing reference _ rows _ _ => rows.map fun row ↦ (row.attemptId, reference)
  | _ => []

variable {now : Timestamp} {gone : Bool} {t : Tables} {pass : Pass}

theorem held_fencing {reference : Timestamp} {row : ExpiredAttempt} {rows : List ExpiredAttempt}
    {ids : List AttemptId} {runIds : List RunId} :
    List.Sublist ((fencing reference (row :: rows) ids runIds).step now gone t).1.held
      (rows.map fun row ↦ (row.attemptId, reference)) := by
  simp only [step]
  split
  · split
    · exact List.Sublist.refl _
    · exact List.Sublist.refl _
    · exact List.nil_sublist _
  · exact List.Sublist.refl _

theorem held_step : List.Sublist (pass.step now gone t).1.held pass.held := by
  cases pass with
  | fencing reference rows ids runIds =>
      cases rows with
      | nil => exact List.nil_sublist _
      | cons row rows => exact held_fencing.trans (List.sublist_cons_self _ _)
  | releasing reference attemptId rows ids runIds =>
      simp only [step]
      split
      · exact List.Sublist.refl _
      · exact List.nil_sublist _
  | settling ids runIds =>
      cases runIds with
      | nil => exact List.nil_sublist _
      | cons runId runIds =>
          simp only [step]
          split <;> exact List.nil_sublist _
  | rescheduling ids runId stageRunId runIds | losing ids runId runIds =>
      simp only [step]
      split
      · exact List.nil_sublist _
      · split <;> exact List.nil_sublist _
  | returned ids | raised e => exact List.nil_sublist _

/-- No statement of a pass writes into an attempt that the pass still holds. -/
theorem step_keeps_held {a : AttemptRow} {reference : Timestamp}
    (hnodup : (pass.held.map Prod.fst).Nodup) (ha : a ∈ t.attempts)
    (hheld : (a.attemptId, reference) ∈ (pass.step now gone t).1.held) :
    a ∈ (pass.step now gone t).2.attempts := by
  rcases pass.step_effect now gone t with hsame | ⟨e, hemits, _, happly⟩
  · rw [hsame]
    exact ha
  · rw [happly]
    cases hemits with
    | @lose reference' row rows ids runIds hfenced =>
        have hrest := held_fencing.subset hheld
        have hne : a.attemptId ≠ row.attemptId := by
          rintro heq
          obtain ⟨row', hrow', hpair⟩ := List.mem_map.mp hrest
          have hrowId : row'.attemptId = a.attemptId := congrArg Prod.fst hpair
          simp only [held, List.map_cons, List.map_map, List.nodup_cons] at hnodup
          exact hnodup.1 (List.mem_map.mpr ⟨row', hrow', hrowId.trans heq⟩)
        refine Effect.mem_attempts ha ?_
        simp [Effect.onAttempt, hne]
    | release | reschedule | settle => exact ha

theorem step_unique (h : Table.Unique AttemptRow.attemptId t.attempts) :
    Table.Unique AttemptRow.attemptId (pass.step now gone t).2.attempts := by
  rcases pass.step_effect now gone t with hsame | ⟨e, hemits, _, happly⟩
  · rw [hsame]
    exact h
  · rw [happly]
    cases hemits <;> exact Effect.unique_attempts rfl h

end Pass

/-! ## What holds between the statements -/

namespace Reclaimer

def held (r : Reclaimer) : List (AttemptId × Timestamp) := (r.toPass?.map Pass.held).getD []

theorem held_ofPass (pass : Pass) : (ofPass pass).held = pass.held := by
  cases pass with
  | fencing reference rows ids runIds => cases rows <;> rfl
  | _ => rfl

end Reclaimer

namespace Fence

variable {row : ExpiredAttempt} {fence : Fence} {stat : Option ProcessStat} {killpg late : Bool}

/-- The fence stands where only a row with a group can bring it. -/
def PastProbe (fence : Fence) : Prop :=
  fence = .terminating ∨ fence = .waiting ∨ fence = .killing

theorem ask_ne_raised (row : ExpiredAttempt) (check : FenceCheck) : ask row check ≠ .raised := by
  unfold ask
  split
  · cases check <;> simp [answered]
  · split <;> simp

theorem ask_not_pastProbe (row : ExpiredAttempt) (check : FenceCheck) :
    ¬(ask row check).PastProbe := by
  unfold ask
  split
  · cases check <;> simp [answered, PastProbe]
  · split <;> simp [PastProbe]

/-- The fence passes the probe only when the row has a group. -/
theorem step_pastProbe (h : fence.PastProbe → row.processGroupId.isSome)
    (hstep : (fence.step row stat killpg late).PastProbe) : row.processGroupId.isSome := by
  cases fence with
  | reading check =>
      simp only [step] at hstep
      split at hstep
      · simp [PastProbe] at hstep
      · cases check <;> simp [answered, PastProbe] at hstep
  | probing check =>
      simp only [step] at hstep
      split at hstep
      · simp [PastProbe] at hstep
      · rename_i hgroup
        simpa [Option.isSome_iff_ne_none] using hgroup
  | terminating => exact h (.inl rfl)
  | waiting => exact h (.inr (.inl rfl))
  | killing => exact h (.inr (.inr rfl))
  | returned gone => simp [step, PastProbe] at hstep
  | raised => simp [step, PastProbe] at hstep

theorem pastProbe_of_signals (h : fence.signals = true) : fence.PastProbe := by
  cases fence with
  | terminating => exact .inl rfl
  | killing => exact .inr (.inr rfl)
  | _ => cases h

/-- Only a row without a group makes the fence give up. -/
theorem step_raised (h : fence ≠ .raised) (hstep : fence.step row stat killpg late = .raised) :
    row.processGroupId = none := by
  cases fence with
  | reading check =>
      simp only [step] at hstep
      split at hstep
      · cases hstep
      · cases check <;> simp [answered] at hstep
  | probing check =>
      simp only [step] at hstep
      split at hstep
      · rename_i hgroup
        simpa using hgroup
      · cases check <;> cases killpg <;> simp [answered] at hstep
  | terminating =>
      simp only [step] at hstep
      split at hstep
      · cases hstep
      · exact absurd hstep (ask_ne_raised row _)
  | waiting =>
      simp only [step] at hstep
      split at hstep
      · cases hstep
      · exact absurd hstep (ask_ne_raised row _)
  | killing => exact absurd hstep (ask_ne_raised row _)
  | returned gone => cases hstep
  | raised => exact absurd rfl h

end Fence

namespace Contended

/-- A row that the pass still holds is expired, unless another process got to it first. -/
structure Tracked (s : Contended) : Prop where
  attemptIds : Table.Unique AttemptRow.attemptId s.tables.attempts
  nodup : (s.reclaimer.held.map Prod.fst).Nodup
  lasting : ∀ p ∈ s.reclaimer.held, p.1 ∈ s.disturbed ∨
    ∃ a ∈ s.tables.attempts, a.attemptId = p.1 ∧ a.expired p.2 = true
  probed : ∀ reference row fence signalled rows ids runIds,
    s.reclaimer = .fencing reference row fence signalled rows ids runIds →
      (signalled = true ∨ fence.PastProbe → row.processGroupId.isSome) ∧
        (fence = .raised → row.processGroupId = none)

variable {s s' : Contended} {pass : Pass} {now : Timestamp} {gone : Bool} {attemptId : AttemptId}

/-- A row whose fence begins was not signalled, and was not probed. -/
theorem probed_ofPass {reference : Timestamp} {row : ExpiredAttempt} {fence : Fence}
    {signalled : Bool} {rows : List ExpiredAttempt} {ids : List AttemptId} {runIds : List RunId}
    (h : Reclaimer.ofPass pass = .fencing reference row fence signalled rows ids runIds) :
    (signalled = true ∨ fence.PastProbe → row.processGroupId.isSome) ∧
      (fence = .raised → row.processGroupId = none) := by
  cases pass with
  | fencing reference' rows' ids' runIds' =>
      cases rows' with
      | nil => cases h
      | cons row' rows' =>
          obtain ⟨rfl, rfl, rfl, rfl, rfl, rfl, rfl⟩ := by simpa [Reclaimer.ofPass] using h
          refine ⟨?_, fun hraised ↦ absurd hraised (Fence.ask_ne_raised _ _)⟩
          rintro (hsignalled | hpast)
          · cases hsignalled
          · exact absurd hpast (Fence.ask_not_pastProbe _ _)
  | _ => cases h

theorem advance_tracked (h : s.Tracked) (hpass : s.reclaimer.toPass? = some pass) :
    (s.advance pass now gone).Tracked := by
  have hheld : s.reclaimer.held = pass.held := by simp [Reclaimer.held, hpass]
  have hnext : (s.advance pass now gone).reclaimer.held = (pass.step now gone s.tables).1.held :=
    Reclaimer.held_ofPass _
  have hnodup : (pass.held.map Prod.fst).Nodup := hheld ▸ h.nodup
  refine ⟨Pass.step_unique h.attemptIds, ?_, ?_, ?_⟩
  · rw [hnext]
    exact hnodup.sublist (Pass.held_step.map _)
  · intro p hp
    rw [hnext] at hp
    rcases h.lasting p (hheld ▸ Pass.held_step.subset hp) with hdisturbed | ⟨a, ha, hid, hexpired⟩
    · exact .inl hdisturbed
    · have hkept : (a.attemptId, p.2) ∈ (pass.step now gone s.tables).1.held := hid ▸ hp
      exact .inr ⟨a, Pass.step_keeps_held hnodup ha hkept, hid, hexpired⟩
  · intro reference row fence signalled rows ids runIds hr
    exact probed_ofPass hr

/-- Another process leaves the tables alone, or writes into the one attempt it names. -/
theorem other_tracked (h : s.Tracked) {m : StoreM Unit}
    (hm : (∃ x, exec m s.tables = (.error x, s.tables)) ∨
      ∃ e : Effect, exec m s.tables = (.ok (), e.apply s.tables) ∧ e.newAttempts s.tables = [] ∧
        ∀ a : AttemptRow, a.attemptId ≠ attemptId → e.onAttempt a = a) :
    (s.other attemptId m).Tracked := by
  rcases hm with ⟨x, hexec⟩ | ⟨e, hexec, hnew, hframe⟩
  · simp only [other, hexec]
    exact ⟨h.attemptIds, h.nodup, h.lasting, h.probed⟩
  · simp only [other, hexec]
    refine ⟨Effect.unique_attempts hnew h.attemptIds, h.nodup, fun p hp ↦ ?_, h.probed⟩
    rcases h.lasting p hp with hdisturbed | ⟨a, ha, hid, hexpired⟩
    · exact .inl (List.mem_cons_of_mem _ hdisturbed)
    · by_cases hself : a.attemptId = attemptId
      · exact .inl (List.mem_cons.mpr (.inl (hid.symm.trans hself)))
      · exact .inr ⟨a, Effect.mem_attempts ha (hframe a hself), hid, hexpired⟩

theorem finish_writes (t : Tables) (attemptId : AttemptId) (status : AttemptStatus) (e : Ending)
    (now : Timestamp) :
    (∃ x, exec (finishAttempt attemptId status e now) t = (.error x, t)) ∨
      ∃ f : Effect, exec (finishAttempt attemptId status e now) t = (.ok (), f.apply t) ∧
        f.newAttempts t = [] ∧
        ∀ a : AttemptRow, a.attemptId ≠ attemptId → f.onAttempt a = a := by
  rcases finishAttempt_cases t attemptId status e now with ⟨_, x, hkeeps⟩ | hcommits
  · exact .inl ⟨x, hkeeps.exec⟩
  · exact .inr ⟨_, hcommits.exec, rfl, fun a ha ↦ if_neg ha⟩

theorem heartbeat_writes {t : Tables} (h : Table.Unique AttemptRow.attemptId t.attempts)
    (attemptId : AttemptId) (workerId : WorkerId) (leaseSeconds : Int) (now : Timestamp) :
    (∃ x, exec (heartbeatUpdate attemptId workerId leaseSeconds now) t = (.error x, t)) ∨
      ∃ f : Effect, exec (heartbeatUpdate attemptId workerId leaseSeconds now) t =
          (.ok (), f.apply t) ∧ f.newAttempts t = [] ∧
        ∀ a : AttemptRow, a.attemptId ≠ attemptId → f.onAttempt a = a := by
  have hone : t.attempts.countP (·.leasedBy attemptId workerId) ≤ 1 := by
    refine h.countP_le_one fun a _ b _ ha hb ↦ ?_
    have hids : a.attemptId = attemptId ∧ b.attemptId = attemptId := by
      simp only [AttemptRow.leasedBy, Bool.and_eq_true, decide_eq_true_eq] at ha hb
      exact ⟨ha.1.1, hb.1.1⟩
    rw [hids.1, hids.2]
  by_cases hcount : t.attempts.countP (·.leasedBy attemptId workerId) = 1
  · refine .inr ⟨.beat attemptId workerId leaseSeconds now, ?_, rfl, fun a ha ↦ ?_⟩
    · have hcommits : Commits (heartbeatUpdate attemptId workerId leaseSeconds now) t
          (.beat attemptId workerId leaseSeconds now) (.ok ()) := by
        simp only [Commits, heartbeatUpdate, updateAttempts, executeReturning_bind, Sql.ite_apply,
          hcount]
        exact ⟨trivial, rfl⟩
      exact hcommits.exec
    · simp [Effect.onAttempt, AttemptRow.leasedBy, ha]
  · have hnone : ∀ a ∈ t.attempts, ¬a.leasedBy attemptId workerId = true :=
      List.countP_eq_zero.mp (by omega)
    have hsame : Table.update (·.leasedBy attemptId workerId)
        (AttemptRow.beaten leaseSeconds now) t.attempts = t.attempts :=
      (List.map_congr_left fun a ha ↦ if_neg (hnone a ha)).trans (List.map_id _)
    refine .inl ⟨.invalidTransition
      ("attempt " ++ quoted attemptId ++ " was fenced while heartbeating"), Keeps.exec ?_⟩
    simp only [Keeps, heartbeatUpdate, updateAttempts, executeReturning_bind, Sql.ite_apply, hsame]
    exact if_pos hcount

theorem expiredAttempts_ids (t : Tables) (reference : Timestamp) :
    List.Sublist ((t.expiredAttempts reference).map ExpiredAttempt.attemptId)
      (t.attempts.map AttemptRow.attemptId) := by
  unfold Tables.expiredAttempts
  induction t.attempts with
  | nil => exact List.Sublist.refl _
  | cons a attempts ih =>
      cases hexpired : a.expired reference with
      | false => simpa [List.filter_cons, hexpired] using ih.cons _
      | true =>
          cases hstage : t.stage? a.stageRunId with
          | none => simpa [List.filter_cons, hexpired, hstage] using ih.cons _
          | some stage => simpa [List.filter_cons, hexpired, hstage] using ih

theorem started_tracked {t : Tables} {reference : Timestamp} {disturbed : List AttemptId}
    (h : Table.Unique AttemptRow.attemptId t.attempts) :
    Tracked { tables := t, reclaimer := .ofPass (Pass.start reference t),
              disturbed := disturbed } where
  attemptIds := h
  nodup := by
    rw [Reclaimer.held_ofPass, Pass.start, Pass.held, List.map_map]
    exact h.sublist (expiredAttempts_ids t reference)
  lasting := by
    intro p hp
    rw [Reclaimer.held_ofPass] at hp
    obtain ⟨row, hrow, rfl⟩ := List.mem_map.mp hp
    obtain ⟨a, ha, hstage⟩ := List.mem_filterMap.mp hrow
    obtain ⟨stage, _, rfl⟩ := Option.map_eq_some_iff.mp hstage
    obtain ⟨hmem, hexpired⟩ := List.mem_filter.mp ha
    exact .inr ⟨a, hmem, rfl, hexpired⟩
  probed := fun _ _ _ _ _ _ _ hr ↦ probed_ofPass hr

theorem step_tracked (h : s.Tracked) {l : ReclaimStep} (hstep : s.step l = some s') :
    s'.Tracked := by
  cases l with
  | select reference =>
      simp only [step] at hstep
      split at hstep
      · obtain rfl := Option.some.inj hstep
        exact started_tracked h.attemptIds
      · cases hstep
  | heartbeat attemptId workerId leaseSeconds now =>
      obtain rfl := Option.some.inj hstep
      exact other_tracked h (heartbeat_writes h.attemptIds attemptId workerId leaseSeconds now)
  | finish attemptId status e now =>
      obtain rfl := Option.some.inj hstep
      exact other_tracked h (finish_writes s.tables attemptId status e now)
  | go now stat killpg late =>
      simp only [step] at hstep
      split at hstep
      · rename_i hr
        obtain rfl := Option.some.inj hstep
        exact advance_tracked h (by rw [hr]; rfl)
      · obtain rfl := Option.some.inj hstep
        refine ⟨h.attemptIds, List.nodup_nil, fun p hp ↦ ?_, fun _ _ _ _ _ _ _ hr ↦ ?_⟩
        · cases hp
        · cases hr
      · rename_i reference row fence signalled rows ids runIds _ hraised hr
        obtain rfl := Option.some.inj hstep
        obtain ⟨hgroup, _⟩ := h.probed _ _ _ _ _ _ _ hr
        have hheld : s.reclaimer.held =
            (Reclaimer.fencing reference row fence signalled rows ids runIds).held := by rw [hr]
        refine ⟨h.attemptIds, hheld ▸ h.nodup, hheld ▸ h.lasting, ?_⟩
        rintro _ _ _ _ _ _ _ ⟨⟩
        refine ⟨?_, fun hnow ↦ Fence.step_raised hraised hnow⟩
        rintro (hsignalled | hpast)
        · rcases Bool.or_eq_true_iff.mp hsignalled with hbefore | hsignals
          · exact hgroup (.inl hbefore)
          · exact hgroup (.inr (Fence.pastProbe_of_signals (Bool.and_eq_true_iff.mp hsignals).1))
        · exact Fence.step_pastProbe (fun hbefore ↦ hgroup (.inr hbefore)) hpast
      · rename_i pass hr
        obtain rfl := Option.some.inj hstep
        exact advance_tracked h (by rw [hr]; rfl)
      · cases hstep

/-- No other process got to the attempt before the step signals its process, or between such a
signal and the `UPDATE`. -/
def Undisturbed (s : Contended) (l : ReclaimStep) : Prop :=
  (∀ p ∈ s.sends? l, p.1.attemptId ∉ s.disturbed) ∧
    ∀ row ∈ s.marks? l, row.attemptId ∉ s.disturbed

/-- A signal goes to an attempt whose lease is past, and an attempt whose process was signalled is
marked unless its process lives on. -/
structure Rightful (s : Contended) (l : ReclaimStep) (s' : Contended) : Prop where
  signals : ∀ p ∈ s.sends? l,
    ∃ a ∈ s.tables.attempts, a.attemptId = p.1.attemptId ∧ a.expired p.2 = true
  marks : ∀ row ∈ s.marks? l, row.attemptId ∈ s'.reclaimer.marked ∧
    ∃ a ∈ s'.tables.attempts, a.attemptId = row.attemptId ∧ a.status = .lost
  completes : ∀ reference row rows ids runIds,
    s.reclaimer ≠ .fencing reference row .raised true rows ids runIds

theorem sends?_eq {l : ReclaimStep} {p : ExpiredAttempt × Timestamp} (h : p ∈ s.sends? l) :
    ∃ fence signalled rows ids runIds,
      s.reclaimer = .fencing p.2 p.1 fence signalled rows ids runIds := by
  cases l with
  | go now stat killpg late =>
      simp only [sends?, Option.mem_def] at h
      split at h
      · rename_i reference row fence signalled rows ids runIds hr
        split at h
        · obtain rfl := Option.some.inj h
          exact ⟨fence, signalled, rows, ids, runIds, hr⟩
        · cases h
      · cases h
  | _ => cases h

theorem marks?_eq {l : ReclaimStep} {row : ExpiredAttempt} (h : row ∈ s.marks? l) :
    ∃ now stat killpg late reference rows ids runIds, l = .go now stat killpg late ∧
      s.reclaimer = .fencing reference row (.returned true) true rows ids runIds := by
  cases l with
  | go now stat killpg late =>
      simp only [marks?, Option.mem_def] at h
      split at h
      · rename_i reference row' rows ids runIds hr
        obtain rfl := Option.some.inj h
        exact ⟨now, stat, killpg, late, reference, rows, ids, runIds, rfl, hr⟩
      · cases h
  | _ => cases h

theorem held_fencing {reference : Timestamp} {row : ExpiredAttempt} {fence : Fence}
    {signalled : Bool} {rows : List ExpiredAttempt} {ids : List AttemptId} {runIds : List RunId}
    (hr : s.reclaimer = .fencing reference row fence signalled rows ids runIds) :
    (row.attemptId, reference) ∈ s.reclaimer.held := by
  rw [hr]
  exact List.mem_cons_self

/-- The guarded `UPDATE` of a row that is still expired marks it. -/
theorem advance_marks {reference : Timestamp} {row : ExpiredAttempt} {rows : List ExpiredAttempt}
    {ids : List AttemptId} {runIds : List RunId} {a : AttemptRow} (h : s.Tracked)
    (ha : a ∈ s.tables.attempts) (hid : a.attemptId = row.attemptId)
    (hexpired : a.expired reference = true) :
    let s' := s.advance (.fencing reference (row :: rows) ids runIds) now true
    row.attemptId ∈ s'.reclaimer.marked ∧
      ∃ b ∈ s'.tables.attempts, b.attemptId = row.attemptId ∧ b.status = .lost := by
  have hlapsed : s.tables.lapsed row.attemptId reference = 1 := by
    have hpos : 0 < s.tables.lapsed row.attemptId reference :=
      List.countP_pos_iff.mpr ⟨a, ha, by simp [hid, hexpired]⟩
    have hone : s.tables.lapsed row.attemptId reference ≤ 1 := by
      refine h.attemptIds.countP_le_one fun b _ c _ hb hc ↦ ?_
      simp only [Bool.and_eq_true, decide_eq_true_eq] at hb hc
      rw [hb.1, hc.1]
    omega
  have hfenced : fenceExpiredProcess row true = true := Bool.or_true _
  have hstep : (Pass.fencing reference (row :: rows) ids runIds).step now true s.tables =
      (.releasing reference row.attemptId rows (ids ++ [row.attemptId]) (row.runId :: runIds),
        (Effect.lose row.attemptId reference).apply s.tables) := by
    simp [Pass.step, hfenced, (markLost_commits s.tables row.attemptId reference).exec, hlapsed]
  simp only [advance, hstep]
  refine ⟨List.mem_append_right _ List.mem_cons_self,
    (Effect.lose row.attemptId reference).onAttempt a, ?_, ?_, ?_⟩
  · rw [Effect.attempts_apply]
    exact List.mem_append_left _ (List.mem_map_of_mem ha)
  · rw [Effect.onAttempt_attemptId, hid]
  · simp [Effect.onAttempt, hid, hexpired, AttemptRow.markedLost]

theorem step_rightful (h : s.Tracked) {l : ReclaimStep} (hundisturbed : s.Undisturbed l)
    (hstep : s.step l = some s') : s.Rightful l s' where
  signals := by
    intro p hp
    obtain ⟨fence, signalled, rows, ids, runIds, hr⟩ := sends?_eq hp
    exact (h.lasting _ (held_fencing hr)).resolve_left (hundisturbed.1 p hp)
  marks := by
    intro row hrow
    obtain ⟨now, stat, killpg, late, reference, rows, ids, runIds, rfl, hr⟩ := marks?_eq hrow
    obtain ⟨a, ha, hid, hexpired⟩ :=
      (h.lasting _ (held_fencing hr)).resolve_left (hundisturbed.2 row hrow)
    simp only [step, hr, Option.some.injEq] at hstep
    subst hstep
    exact advance_marks h ha hid hexpired
  completes := by
    intro reference row rows ids runIds hr
    obtain ⟨hgroup, hraised⟩ := h.probed _ _ _ _ _ _ _ hr
    have hsome := hgroup (.inl rfl)
    simp [hraised rfl] at hsome

end Contended

/-- If no other process renews or ends an attempt between the `SELECT` of a pass and a signal to
its process, or between such a signal and the `UPDATE`, the pass signals only attempts whose lease
is past, and each attempt it signalled is marked `lost` unless its process lives on. -/
theorem reclaim_kills_only_what_it_marks (t : Tables)
    (hids : Table.Unique AttemptRow.attemptId t.attempts) (history : List ReclaimStep)
    (hundisturbed : ∀ s l s', Takes Contended.step { tables := t } history s l s' →
      s.Undisturbed l) :
    ∀ s l s', Takes Contended.step { tables := t } history s l s' → s.Rightful l s' := by
  intro s l s' htakes
  have hstart : Contended.Tracked { tables := t } := by
    refine ⟨hids, List.nodup_nil, fun p hp ↦ ?_, fun _ _ _ _ _ _ _ hr ↦ ?_⟩
    · cases hp
    · cases hr
  have htracked : s.Tracked :=
    htakes.visits_left.reachable.invariant hstart fun _ _ _ hs _ hstep ↦
      Contended.step_tracked hs hstep
  exact Contended.step_rightful htracked (hundisturbed s l s' htakes) htakes.step_eq

/-! ## A heartbeat during a pass -/

namespace Sample

/-- The attempt `a1` is running with a recorded process, and its lease ends after a second. -/
def leased : Tables :=
  let submitted := (exec (submitRun custody (submission 2)) {}).2
  let started := (exec (startAttempt "stage" claim "a1" 0) submitted).2
  (exec (attachProcess "a1" "worker" ⟨10, 10, some 500⟩) started).2

/-- The pass finds the process of `a1` alive. -/
def foundAlive : List ReclaimStep :=
  [.select 2000000, .go 2000000 (some ⟨false, 500⟩) true false,
    .go 2000000 (some ⟨false, 500⟩) true false]

/-- The next step of the pass sends `SIGTERM`. -/
def terminate : ReclaimStep := .go 2000000 (some ⟨false, 500⟩) true false

/-- The process is gone at the next look. -/
def foundGone : List ReclaimStep := [.go 2000000 none false false, .go 2000000 none false false]

/-- The next step of the pass is the `UPDATE`. -/
def mark : ReclaimStep := .go 2000000 none false false

end Sample

/-- The owner renews its lease before the pass signals its process: the signal goes to an attempt
whose lease is not past, and the pass does not mark it. -/
theorem renewed_attempt_killed :
    (∃ s s', Takes Contended.step { tables := Sample.leased }
        (Sample.foundAlive ++ [.heartbeat "a1" "worker" 60 2000000] ++ [Sample.terminate])
        s Sample.terminate s' ∧ ¬s.Rightful Sample.terminate s') ∧
      ∃ s, Visits Contended.step { tables := Sample.leased }
        (Sample.foundAlive ++ [.heartbeat "a1" "worker" 60 2000000] ++ [Sample.terminate] ++
          Sample.foundGone ++ [Sample.mark]) s ∧
        (s.tables.attempt? "a1").any (fun a ↦ a.status = .running) = true ∧
        s.reclaimer.toPass?.any (fun pass ↦ pass.held.isEmpty) = true := by
  have hsignal : (run Contended.step { tables := Sample.leased }
      (Sample.foundAlive ++ [.heartbeat "a1" "worker" 60 2000000])).any (fun s ↦
        (s.sends? Sample.terminate).any (fun p ↦ s.tables.attempts.all fun a ↦
          !(decide (a.attemptId = p.1.attemptId) && a.expired p.2)) &&
        (s.step Sample.terminate).isSome) = true := by decide +kernel
  have hend : (run Contended.step { tables := Sample.leased }
      (Sample.foundAlive ++ [.heartbeat "a1" "worker" 60 2000000] ++ [Sample.terminate] ++
        Sample.foundGone ++ [Sample.mark])).any (fun s ↦
        (s.tables.attempt? "a1").any (fun a ↦ a.status = .running) &&
          s.reclaimer.toPass?.any (fun pass ↦ pass.held.isEmpty)) = true := by decide +kernel
  refine ⟨?_, ?_⟩
  · obtain ⟨s, s', htakes, hp⟩ := Takes.of_any hsignal
    refine ⟨s, s', htakes, fun h ↦ ?_⟩
    obtain ⟨p, hsends, hnone⟩ := (Option.any_eq_true _ _).mp hp
    obtain ⟨a, ha, hid, hexpired⟩ := h.signals p hsends
    have hfresh := List.all_eq_true.mp hnone a ha
    simp [hid, hexpired] at hfresh
  · obtain ⟨s, hvisits, hp⟩ := Visits.of_any hend
    exact ⟨s, hvisits, Bool.and_eq_true_iff.mp hp⟩

/-- Without the heartbeat the attempt is marked. -/
theorem reclaim_kills_only_what_it_marks_sample :
    ∃ s s', Takes Contended.step { tables := Sample.leased }
        (Sample.foundAlive ++ [Sample.terminate] ++ Sample.foundGone ++ [Sample.mark])
        s Sample.mark s' ∧
      (s.marks? Sample.mark).isSome = true ∧ s.Rightful Sample.mark s' := by
  have hmark : (run Contended.step { tables := Sample.leased }
      (Sample.foundAlive ++ [Sample.terminate] ++ Sample.foundGone)).any (fun s ↦
        (s.marks? Sample.mark).isSome && (s.step Sample.mark).isSome) = true := by decide +kernel
  have hnone : allSteps Contended.step (fun s _ ↦ s.disturbed.isEmpty) { tables := Sample.leased }
      (Sample.foundAlive ++ [Sample.terminate] ++ Sample.foundGone ++ [Sample.mark]) = true := by
    decide +kernel
  have hids : (Sample.leased.attempts.map AttemptRow.attemptId).Nodup := by decide +kernel
  obtain ⟨s, s', htakes, hp⟩ := Takes.of_any hmark
  refine ⟨s, s', htakes, hp, ?_⟩
  refine reclaim_kills_only_what_it_marks Sample.leased hids _ ?_ s _ s' htakes
  intro s₁ l s₂ hstep
  have hempty : s₁.disturbed = [] := by simpa using Takes.of_allSteps hnone hstep
  refine ⟨fun p _ ↦ ?_, fun row _ ↦ ?_⟩
  · simp [hempty]
  · simp [hempty]

end ChipEvolve
