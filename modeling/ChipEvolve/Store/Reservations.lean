import ChipEvolve.Store.StatusMachine
import ChipEvolve.Store.Capacity

/-!
# Reservations and running attempts

A claim inserts its attempt with its reservation, and `finish_attempt` ends the
one and deletes the other, each in one transaction.  A reclaim pass marks an
attempt `lost` in one statement and deletes its reservation in the next, so
between the two the reservation belongs to no running attempt, and it stays if
the process stops there.  The last theorem says that this is the only way the
two tables come apart.
-/

namespace ChipEvolve

open Machine Sql

/-- A reservation exists for an attempt exactly when the attempt is running. -/
def ReservationsFollow (t : Tables) : Prop :=
  ∀ a ∈ t.attempts, (∃ r ∈ t.reservations, r.attemptId = a.attemptId) ↔ a.status = .running

/-- The operations a history may use: claims that reserve, and no release of a
reservation on its own. -/
def reserves (l : ThreadId × Operation) : Bool :=
  match l.2 with
  | .startAttempt _ c _ _ => c.wanted.isSome
  | .releaseResources _ => false
  | _ => true

/-- The next statement of the thread is the guarded `UPDATE` of a reclaim pass,
and it meets its row. -/
def marksLost (s : System) (l : ThreadId × Operation) : Bool :=
  match s.clients l.1, l.2 with
  | .reclaiming (.fencing reference (row :: _) _ _), .resume _ gone =>
      fenceExpiredProcess row gone && 0 < s.tables.lapsed row.attemptId reference
  | _, _ => false

/-! ## Effects that keep the two tables together -/

/-- Not a separate release, a claim that reserves nothing, or a lost mark. -/
def Coupled (t : Tables) : Effect → Prop
  | .claim _ c _ _ => c.wanted.isSome = true
  | .release _ => False
  | .lose attemptId reference => t.lapsed attemptId reference = 0
  | _ => True

theorem expired_eq_false_of_lapsed {t : Tables} {attemptId : AttemptId} {reference : Timestamp}
    (h : t.lapsed attemptId reference = 0) {a : AttemptRow} (ha : a ∈ t.attempts)
    (hid : a.attemptId = attemptId) : a.expired reference = false := by
  unfold Tables.lapsed at h
  rw [List.countP_eq_zero] at h
  simpa [hid] using h a ha

namespace ReservationsFollow

variable {t : Tables} {e : Effect}

theorem mem_reservations_apply {r : ReservationRow} :
    r ∈ (e.apply t).reservations ↔
      (r ∈ t.reservations ∧ e.drops r = false) ∨ r ∈ e.newReservations := by
  rw [reservations_apply, List.mem_append, Table.mem_delete]

theorem attemptId_of_newReservations {r : ReservationRow} (h : r ∈ e.newReservations) :
    ∃ stage c attemptId now, e = .claim stage c attemptId now ∧ r.attemptId = attemptId := by
  cases e with
  | claim stage c attemptId now =>
      refine ⟨stage, c, attemptId, now, rfl, ?_⟩
      simp only [Effect.newReservations, Claim.reservations, Option.mem_toList,
        Option.map_eq_some_iff] at h
      obtain ⟨w, _, rfl⟩ := h
      rfl
  | _ => cases h

/-- The reservation of an attempt that was there before a coupled effect: only
the end of the attempt deletes it. -/
theorem reservation_iff (hcoupled : Coupled t e) (he : e.Enabled t) {a : AttemptRow}
    (ha : a ∈ t.attempts) :
    (∃ r ∈ (e.apply t).reservations, r.attemptId = a.attemptId) ↔
      (∃ r ∈ t.reservations, r.attemptId = a.attemptId) ∧
        ∀ status ending now, e ≠ .finish a.attemptId status ending now := by
  constructor
  · rintro ⟨r, hr, hid⟩
    rcases mem_reservations_apply.mp hr with ⟨hold, hkept⟩ | hnew
    · refine ⟨⟨r, hold, hid⟩, ?_⟩
      rintro status ending now rfl
      simp [Effect.drops, hid] at hkept
    · obtain ⟨stage, c, attemptId, now, rfl, hnewId⟩ := attemptId_of_newReservations hnew
      obtain ⟨_, _, hrow, _⟩ := he
      exact absurd (hid.symm.trans hnewId) (Tables.fresh_of_refusesAttempt hrow a ha)
  · rintro ⟨⟨r, hr, hid⟩, hfinish⟩
    refine ⟨r, mem_reservations_apply.mpr (.inl ⟨hr, ?_⟩), hid⟩
    cases e with
    | finish attemptId status ending now =>
        have hne : attemptId ≠ a.attemptId := by
          rintro rfl
          exact hfinish status ending now rfl
        simpa [Effect.drops, hid] using Ne.symm hne
    | release attemptId => exact hcoupled.elim
    | _ => rfl

theorem apply (hwf : WellFormed t) (hpending : NoPending t) (h : ReservationsFollow t)
    (he : e.Enabled t) (hcoupled : Coupled t e) : ReservationsFollow (e.apply t) := by
  intro a' ha'
  rcases attempt_cases ha' with ⟨a, ha, rfl⟩ | ⟨stage, c, attemptId, now, rfl, rfl⟩
  · rw [Effect.onAttempt_attemptId, reservation_iff hcoupled he ha, h a ha]
    by_cases hfinish : ∃ status ending now, e = .finish a.attemptId status ending now
    · obtain ⟨status, ending, now, rfl⟩ := hfinish
      obtain ⟨row, hrow, hallowed⟩ := he
      obtain rfl := hwf.attempt_eq hrow ha rfl
      obtain ⟨_, hstatus, _⟩ := attempt_transition_from_running (hpending row ha) hallowed
      simp [Effect.onAttempt, AttemptRow.finished, hstatus]
    · have hother : ∀ status ending now, e ≠ .finish a.attemptId status ending now :=
        fun status ending now heq ↦ hfinish ⟨status, ending, now, heq⟩
      have hmoves := hwf.attemptMoves hpending he ha
      generalize (e.onAttempt a).status = status at hmoves
      cases hmoves with
      | keep => exact and_iff_left hother
      | finish => exact absurd rfl (hother _ _ _)
      | lose hexpired =>
          rw [expired_eq_false_of_lapsed hcoupled ha rfl] at hexpired
          cases hexpired
  · obtain ⟨w, hw⟩ := Option.isSome_iff_exists.mp hcoupled
    refine iff_of_true ⟨w.row attemptId, mem_reservations_apply.mpr (.inr ?_), rfl⟩ rfl
    simp [Effect.newReservations, Claim.reservations, hw]

end ReservationsFollow

/-! ## No thread between the mark and the release -/

/-- The thread has marked an attempt lost and not yet released its reservation. -/
def Client.isReleasing : Client → Bool
  | .reclaiming (.releasing _ _ _ _ _) => true
  | _ => false

/-- A thread gets there only by a mark that met its row. -/
theorem Client.isReleasing_step {custody : Custody} {t t' : Tables} {c c' : Client}
    {op : Operation} (h : c.step custody t op = some (c', t')) (hreleasing : c'.isReleasing = true) :
    ∃ reference row rows ids runIds now gone,
      c = .reclaiming (.fencing reference (row :: rows) ids runIds) ∧ op = .resume now gone ∧
        fenceExpiredProcess row gone = true ∧ t.lapsed row.attemptId reference = 1 := by
  cases c with
  | reclaiming pass =>
      cases op with
      | resume now gone =>
          obtain ⟨rfl, rfl⟩ := by simpa [step] using h
          cases pass with
          | fencing reference rows ids runIds =>
              cases rows with
              | nil => cases hreleasing
              | cons row rows =>
                  by_cases hfenced : fenceExpiredProcess row gone = true
                  · simp only [Pass.step, hfenced, if_true,
                      (markLost_commits t row.attemptId reference).exec] at hreleasing
                    by_cases hlapsed : t.lapsed row.attemptId reference = 1
                    · exact ⟨_, _, _, _, _, _, _, rfl, rfl, hfenced, hlapsed⟩
                    · simp [hlapsed, ofPass, isReleasing] at hreleasing
                  · simp [Pass.step, hfenced, ofPass, isReleasing] at hreleasing
          | settling ids runIds =>
              cases runIds with
              | nil => cases hreleasing
              | cons runId runIds =>
                  simp only [Pass.step] at hreleasing
                  split at hreleasing <;> cases hreleasing
          | rescheduling | losing =>
              simp only [Pass.step] at hreleasing
              split at hreleasing
              · cases hreleasing
              · split at hreleasing <;> cases hreleasing
          | releasing | returned | raised => cases hreleasing
      | _ => simp [step] at h
  | idle =>
      cases op with
      | requestCancel | heartbeat =>
          simp only [step] at h
          split at h <;> cases h <;> cases hreleasing
      | resume => simp [step] at h
      | _ => cases h; cases hreleasing
  | cancelling | beating =>
      cases op with
      | resume => cases h; cases hreleasing
      | _ => simp [step] at h

/-! ## Every history -/

/-- What holds as long as no pass marks an attempt lost. -/
structure InStep (s : System) : Prop where
  wellFormed : WellFormed s.tables
  noPending : NoPending s.tables
  follow : ReservationsFollow s.tables
  notReleasing : ∀ tid, (s.clients tid).isReleasing = false

theorem coupled_of_emits {s : System} (h : InStep s) {tid : ThreadId} {op : Operation} {e : Effect}
    (hemits : (s.clients tid).Emits op e) (hreserves : reserves (tid, op) = true)
    (hmarks : marksLost s (tid, op) = false) : Coupled s.tables e := by
  have hreleasing := h.notReleasing tid
  simp only [marksLost] at hmarks
  generalize s.clients tid = c at hemits hmarks hreleasing
  cases hemits with
  | claim => exact hreserves
  | release => cases hreserves
  | pass hpass =>
      cases hpass with
      | lose hfenced => simpa [hfenced, Coupled] using hmarks
      | release => cases hreleasing
      | reschedule | settle => trivial
  | _ => trivial

theorem InStep.step {custody : Custody} {s s' : System} {l : ThreadId × Operation} (h : InStep s)
    (hreserves : reserves l = true) (hmarks : marksLost s l = false)
    (hstep : s.step custody l = some s') : InStep s' := by
  obtain ⟨next, hnext, rfl⟩ := Option.map_eq_some_iff.mp hstep
  have hreleasing : ∀ tid, (Function.update s.clients l.1 next.1 tid).isReleasing = false := by
    intro tid
    by_cases htid : tid = l.1
    · subst htid
      rw [Function.update_self]
      by_contra hreleasing
      obtain ⟨reference, row, rows, ids, runIds, now, gone, hc, hop, hfenced, hlapsed⟩ :=
        Client.isReleasing_step hnext (by simpa using hreleasing)
      simp [marksLost, hc, hop, hfenced, hlapsed] at hmarks
    · rw [Function.update_of_ne htid]
      exact h.notReleasing tid
  rcases Client.step_effect hnext with hsame | ⟨e, hemits, he, happly⟩
  · exact ⟨hsame ▸ h.wellFormed, hsame ▸ h.noPending, hsame ▸ h.follow, hreleasing⟩
  · have hcoupled := coupled_of_emits h hemits hreserves hmarks
    refine ⟨?_, ?_, ?_, hreleasing⟩ <;> simp only [happly]
    · exact h.wellFormed.apply he
    · exact h.noPending.apply h.wellFormed he
    · exact h.follow.apply h.wellFormed h.noPending he hcoupled

/-- A mark that meets its row leaves a reservation without a running attempt. -/
theorem not_follow_of_marksLost {custody : Custody} {s s' : System} {l : ThreadId × Operation}
    (hfollow : ReservationsFollow s.tables) (hmarks : marksLost s l = true)
    (hstep : s.step custody l = some s') : ¬ReservationsFollow s'.tables := by
  obtain ⟨tid, op⟩ := l
  obtain ⟨next, hnext, rfl⟩ := Option.map_eq_some_iff.mp hstep
  simp only [marksLost] at hmarks
  split at hmarks
  swap
  · cases hmarks
  rename_i reference row rows ids runIds now gone hc
  obtain ⟨hfenced, hlapsed⟩ : fenceExpiredProcess row gone = true ∧
      0 < s.tables.lapsed row.attemptId reference := by simpa using hmarks
  obtain ⟨a, ha, hmeets⟩ := List.countP_pos_iff.mp hlapsed
  obtain ⟨hid, hexpired⟩ : a.attemptId = row.attemptId ∧ a.expired reference = true := by
    simpa using hmeets
  have htables : next.2 = (Effect.lose row.attemptId reference).apply s.tables := by
    rw [hc] at hnext
    obtain rfl := Option.some.inj hnext
    simp only [Pass.step, hfenced, if_true,
      (markLost_commits s.tables row.attemptId reference).exec]
    split <;> simp_all
  intro hfollow'
  simp only [htables] at hfollow'
  have hmem : (Effect.lose row.attemptId reference).onAttempt a ∈
      ((Effect.lose row.attemptId reference).apply s.tables).attempts := by
    rw [Effect.attempts_apply]
    exact List.mem_append_left _ (List.mem_map_of_mem ha)
  have hlost : ((Effect.lose row.attemptId reference).onAttempt a).status = .lost := by
    simp [Effect.onAttempt, hid, hexpired, AttemptRow.markedLost]
  have hreserved := (hfollow a ha).mpr (running_of_expired hexpired)
  have hrunning := (hfollow' _ hmem).mp
    (by rw [Effect.onAttempt_attemptId]; exact hreserved)
  rw [hlost] at hrunning
  cases hrunning

/-- Reservations follow running attempts through a whole history exactly when no
reclaim pass of the history marks an attempt `lost`. -/
theorem reservations_follow_iff (custody : Custody) (history : List (ThreadId × Operation))
    (hreserves : ∀ l ∈ history, reserves l = true) :
    (∀ s, Visits (System.step custody) {} history s → ReservationsFollow s.tables) ↔
      ∀ s l s', Takes (System.step custody) {} history s l s' → marksLost s l = false := by
  constructor
  · intro hfollow s l s' htakes
    by_contra hmarks
    exact not_follow_of_marksLost (hfollow s htakes.visits_left) (by simpa using hmarks)
      htakes.step_eq (hfollow s' htakes.visits_right)
  · intro hmarks s hs
    have hreach : ReachableBy (System.step custody)
        (fun s l ↦ reserves l = true ∧ marksLost s l = false) {} s :=
      hs.reachableBy fun s l s' h ↦ ⟨hreserves l h.mem, hmarks s l s' h⟩
    have hempty : InStep {} :=
      ⟨WellFormed.empty, by simp [NoPending], by simp [ReservationsFollow], fun _ ↦ rfl⟩
    exact (hreach.invariant hempty fun _ _ _ h hguard hstep ↦
      h.step hguard.1 hguard.2 hstep).follow

/-- A claim whose lease of one second is looked at after half a second. -/
def Sample.unexpired : List (ThreadId × Operation) :=
  [(0, .submitRun (Sample.submission 2)), (0, .startAttempt "stage" Sample.claim "a1" 0),
    (1, .reclaimExpiredAttempts 500000), (1, .resume 500000 true)]

theorem reservations_follow_unexpired :
    (∀ l ∈ Sample.unexpired, reserves l = true) ∧
      ∀ s, Visits (System.step Sample.custody) {} Sample.unexpired s →
        ReservationsFollow s.tables := by
  have hreserves : ∀ l ∈ Sample.unexpired, reserves l = true := by decide +kernel
  have hnone : allSteps (System.step Sample.custody) (fun s l ↦ !marksLost s l) {}
      Sample.unexpired = true := by decide +kernel
  refine ⟨hreserves, (reservations_follow_iff Sample.custody _ hreserves).mpr ?_⟩
  intro s l s' htakes
  simpa using htakes.of_allSteps hnone

/-- The same claim after two seconds: the pass marks it and stops there. -/
def Sample.leaked : List (ThreadId × Operation) :=
  [(0, .submitRun (Sample.submission 2)), (0, .startAttempt "stage" Sample.claim "a1" 0),
    (1, .reclaimExpiredAttempts 2000000), (1, .resume 2000000 true)]

theorem reservation_outlives_attempt :
    ¬∀ (custody : Custody) (history : List (ThreadId × Operation)),
      (∀ l ∈ history, reserves l = true) →
        ∀ s, Visits (System.step custody) {} history s → ReservationsFollow s.tables := by
  intro hclaim
  have hends : (run (System.step Sample.custody) {} Sample.leaked).any (fun s ↦
      s.tables.attempts.any fun a ↦ a.status = .lost && s.tables.reservations.any fun r ↦
        r.attemptId = a.attemptId) = true := by decide +kernel
  obtain ⟨s, hs, hlost⟩ := Visits.of_any hends
  obtain ⟨a, ha, hmatch⟩ := List.any_eq_true.mp hlost
  obtain ⟨hstatus, r, hr, hid⟩ : a.status = .lost ∧
      ∃ r ∈ s.tables.reservations, r.attemptId = a.attemptId := by simpa using hmatch
  have hrunning := (hclaim Sample.custody Sample.leaked (by decide +kernel) s hs a ha).mp
    ⟨r, hr, hid⟩
  rw [hstatus] at hrunning
  cases hrunning

end ChipEvolve
