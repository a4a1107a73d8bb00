import ChipEvolve.Paging
import ChipEvolve.Worker.Exclusion

/-!
# The walk of a worker cycle through the queue

`RuntimeWorker.cycle` and `_runnable_candidates` (`worker.py`) over the thread that
executes.  The queue is read in pages with `LIMIT` and `OFFSET`, and the runs of a
page may have left it by the time the next page is read; then the offset counts
runs that are no longer there.
-/

namespace ChipEvolve

open Machine Sql

/-! ## The cycle -/

def pageSize : Nat := 1000

/-- A cycle that has reclaimed and swept, `handed` being the runs it has passed to
`execute_once_reporting` so far. -/
structure Cycle where
  world : World
  pending : List RunId := []
  offset : Nat := 0
  advanced : Nat := 0
  handed : List RunId := []
  ended : Bool := false

inductive CycleEvent where
  | scan
  | call (ev : Event)

/-- `execute_once_reporting` returns `True`. -/
def Thread.executed : Thread → Event → Bool
  | closing _, .next _ => true
  | _, _ => false

namespace Cycle

/-- The generator goes on to the next run, or the loop ends. -/
def scan (d : Deployment) (tid : ThreadId) (batch : Nat) (c : Cycle) : Option Cycle :=
  match c.pending with
  | [] =>
      match (exec (runnableRuns pageSize c.offset) c.world.tables).1 with
      | .ok [] => some { c with ended := true }
      | .ok page => some { c with pending := page, offset := c.offset + page.length }
      | .error _ => none
  | runId :: rest =>
      if batch ≤ c.advanced then some { c with ended := true }
      else
        (c.world.step d (tid, .execute runId false)).map fun world ↦
          { c with world := world, pending := rest, handed := c.handed ++ [runId] }

/-- The thread is between two calls. -/
def free (tid : ThreadId) (c : Cycle) : Bool :=
  match c.world.threads tid with
  | .idle => true
  | _ => false

def step (d : Deployment) (tid : ThreadId) (batch : Nat) (c : Cycle) : CycleEvent → Option Cycle
  | .scan => if c.free tid && !c.ended then c.scan d tid batch else none
  | .call ev =>
      if c.free tid then none
      else
        (c.world.step d (tid, ev)).map fun world ↦
          { c with
            world := world
            advanced := c.advanced + if (c.world.threads tid).executed ev then 1 else 0 }

end Cycle

namespace Tables

/-- The queue, as the pages would show it together. -/
def queue (t : Tables) : List RunId := t.runnable.map RunRow.runId

/-- All runs in the order of the queue. -/
def queueOrder (t : Tables) : List RunId :=
  (t.runs.insertionSort fun a b ↦ a.createdAt ≤ b.createdAt).map RunRow.runId

def lists (t : Tables) (runId : RunId) : Bool := (t.runStatus? runId).any RuntimeStatus.claimable

end Tables

/-! ## The order of the queue -/

section Queue

variable {t : Tables}

theorem queue_eq (hwf : WellFormed t) (hagree : Paired (fun r s ↦ s = r) t) :
    t.queue = t.queueOrder.filter t.lists := by
  unfold Tables.queue Tables.queueOrder Tables.runnable
  rw [List.filter_map, ← Paging.filter_insertionSort]
  refine congrArg _ (List.filter_congr fun r hr ↦ ?_)
  have hmem : r ∈ t.runs := (List.mem_insertionSort _).mp hr
  rw [Function.comp, Bool.eq_iff_iff, isRunnable_iff_of_agree hwf hagree hmem, Tables.lists,
    Tables.runStatus?, hwf.run?_of_mem hmem]
  rfl

theorem nodup_queueOrder (hwf : WellFormed t) : t.queueOrder.Nodup :=
  ((List.perm_insertionSort _ t.runs).map RunRow.runId).nodup_iff.mpr hwf.runIds

theorem mem_queue_iff (hwf : WellFormed t) (hagree : Paired (fun r s ↦ s = r) t) {runId : RunId} :
    runId ∈ t.queue ↔ t.lists runId = true := by
  rw [queue_eq hwf hagree, List.mem_filter, and_iff_right_iff_imp]
  intro hlists
  obtain ⟨status, hstatus, _⟩ := (Option.any_eq_true _ _).mp hlists
  obtain ⟨r, hr, _⟩ := Option.map_eq_some_iff.mp hstatus
  rw [← Table.key_of_get? hr]
  exact List.mem_map_of_mem ((List.mem_insertionSort _).mpr (Table.mem_of_get? hr))

end Queue

/-! ## One call -/

/-- The run whose row an effect writes. -/
def Effect.run? : Effect → Option RunId
  | move runId _ _ _ | failEarly runId _ _ _ _ | reschedule runId _ _
  | retry runId _ _ _ _ _ _ => some runId
  | claim stage _ _ _ => some stage.runId
  | _ => none

/-- The run a thread is executing. -/
def Thread.run? : Thread → Option RunId
  | precancelling runId | selecting runId | escaped runId _ => some runId
  | staging run | resolving run _ | claiming run _ _ => some run.runId
  | th => th.phase?.map fun held ↦ held.1.runId

/-- The other runs keep their place in the queue and whether they are in it. -/
structure Tables.SameBut (runId : RunId) (t t' : Tables) : Prop where
  order : t'.queueOrder = t.queueOrder
  lists : ∀ other, other ≠ runId → t'.lists other = t.lists other

section Call

variable {t t' : Tables} {e : Effect} {runId : RunId}

theorem Effect.onRun_of_ne {r : RunRow} (h : e.run? ≠ some r.runId) : e.onRun r = r := by
  cases e with
  | move | failEarly | reschedule | retry | claim =>
      simp only [Effect.onRun]
      split
      · simp_all [Effect.run?]
      · rfl
  | _ => rfl

@[simp] theorem Effect.onRun_createdAt (e : Effect) (r : RunRow) :
    (e.onRun r).createdAt = r.createdAt := by
  cases e <;> simp only [Effect.onRun] <;> (try split) <;> rfl

theorem Tables.SameBut.refl (runId : RunId) (t : Tables) : t.SameBut runId t := ⟨rfl, fun _ _ ↦ rfl⟩

theorem Tables.SameBut.apply (hnew : e.newRuns = [])
    (hrun : e.run? = none ∨ e.run? = some runId) : t.SameBut runId (e.apply t) := by
  constructor
  · unfold queueOrder
    rw [e.runs_apply, hnew, List.append_nil]
    have hsort := List.map_insertionSort (fun a b : RunRow ↦ a.createdAt ≤ b.createdAt)
      (fun a b ↦ a.createdAt ≤ b.createdAt) e.onRun t.runs (by simp)
    rw [← hsort, List.map_map]
    exact List.map_congr_left fun r _ ↦ e.onRun_runId r
  · intro other hne
    unfold Tables.lists Tables.runStatus? Tables.run?
    rw [e.runs_apply, hnew, List.append_nil, Table.get?_map e.onRun_runId]
    cases hrow : Table.get? RunRow.runId other t.runs with
    | none => rfl
    | some r =>
        have hkey : r.runId = other := Table.key_of_get? hrow
        have hother : e.run? ≠ some r.runId := by
          rcases hrun with h | h <;> rw [h]
          · exact Option.some_ne_none _ |>.symm
          · rw [hkey]
            exact fun heq ↦ hne (Option.some.inj heq).symm
        rw [Option.map_some, Effect.onRun_of_ne hother]

theorem Thread.run?_of_phase? {th : Thread} {job : Job} {p : Phase}
    (h : th.phase? = some (job, p)) : th.run? = some job.runId := by
  cases th <;> simp_all [run?, phase?]

theorem Thread.run?_escape (runId : RunId) (x : StoreError) :
    escape runId x = idle ∨ (escape runId x).run? = some runId := by
  unfold escape
  split
  · exact .inl rfl
  · exact .inr rfl

variable {d : Deployment} {tid : ThreadId} {th th' : Thread} {ev : Event}

/-- A call stays with its run until it returns. -/
theorem Thread.run?_step (hrun : th.run? = some runId)
    (hstep : th.step d tid t ev = some (th', t')) : th' = .idle ∨ th'.run? = some runId := by
  cases hphase : th.phase? with
  | some held =>
      obtain ⟨job, p⟩ := held
      obtain rfl : job.runId = runId := Option.some.inj ((run?_of_phase? hphase).symm.trans hrun)
      rcases turn hstep with ⟨_, hrests⟩ | ⟨e, hacts, _, _⟩
      · cases hrests with
        | outside hnone => simp [hnone] at hphase
        | start | pass => cases hphase
        | phase h h' =>
            obtain ⟨rfl, rfl⟩ := Prod.mk.inj (Option.some.inj (h.symm.trans hphase))
            exact .inr (run?_of_phase? h')
        | leave => exact .inl rfl
      · simp only at hacts
        cases hacts with
        | attach h | beat h => rcases h with rfl | ⟨_, rfl⟩ <;> exact .inr hrun
        | abort => exact .inl rfl
        | relay | finish | reschedule | settle | fail | terminate => exact .inr hrun
        | _ => cases hphase
  | none =>
      cases th with
      | precancelling runId' =>
          obtain rfl := Option.some.inj hrun
          cases ev with
          | next r =>
              simp only [step, request, select, Option.orElse_none] at hstep
              split at hstep
              · cases hstep
                exact .inr rfl
              · cases hstep
                exact run?_escape _ _
          | _ => cases hstep
      | selecting runId' =>
          obtain rfl := Option.some.inj hrun
          cases ev with
          | next r =>
              simp only [step, request, select, Option.orElse_none,
                (getRun_keeps t runId').exec] at hstep
              cases hrow : t.run? runId' with
              | none =>
                  rw [hrow] at hstep
                  cases hstep
                  exact run?_escape _ _
              | some run =>
                  rw [hrow] at hstep
                  cases hstep
                  split
                  · exact .inl rfl
                  · exact .inr (congrArg some (Table.key_of_get? hrow))
          | _ => cases hstep
      | staging run =>
          cases ev with
          | next r =>
              simp only [step, request, select, Option.orElse_none] at hstep
              split at hstep <;> cases hstep
              · exact .inr hrun
              · exact .inl rfl
          | _ => cases hstep
      | resolving run stage =>
          cases ev with
          | resolved resumable | raise message =>
              cases hstep
              exact .inr hrun
          | _ => cases hstep
      | claiming run stage workspace =>
          cases ev with
          | next r =>
              simp only [step, request, select, Option.orElse_none] at hstep
              split at hstep <;> cases hstep
              · exact .inr hrun
              · exact .inl rfl
              · exact Option.some.inj hrun ▸ run?_escape _ _
          | _ => cases hstep
      | escaped runId' message =>
          cases ev with
          | next r =>
              cases hstep
              exact .inl rfl
          | _ => cases hstep
      | idle | cancelling | reclaiming | probing | dropping => cases hrun
      | _ => cases hphase

/-- A call writes the rows of its run only. -/
theorem Thread.sameBut_step (hknown : th.Known t)
    (hjobs : ∀ job p, th.phase? = some (job, p) → job.Known t) (hrun : th.run? = some runId)
    (hstep : th.step d tid t ev = some (th', t')) : t.SameBut runId t' := by
  rcases turn hstep with ⟨hsame, _⟩ | ⟨e, hacts, he, happly⟩
  · rw [show t' = t from hsame]
    exact .refl runId t
  · rw [show t' = e.apply t from happly]
    simp only at hacts
    cases hacts with
    | precancel | relay | settle | terminate | abort | escape | reschedule =>
        exact .apply rfl (.inr hrun)
    | attach | beat | finish | fail => exact .apply rfl (.inl rfl)
    | @claim run stage workspace r stage' hstage =>
        obtain ⟨_, s, hs, hsrun⟩ := hknown
        obtain ⟨hstage', _⟩ := he
        rw [hstage] at hstage'
        obtain rfl := Option.some.inj (hs.symm.trans hstage')
        exact .apply rfl (.inr ((congrArg some hsrun).trans hrun))
    | _ => cases hrun

end Call

/-! ## One turn of the cycle -/

/-- What a turn of the cycle does. -/
inductive Cycle.Turn (d : Deployment) (tid : ThreadId) (batch : Nat) (c : Cycle) :
    CycleEvent → Cycle → Prop
  | full (hfree : c.world.threads tid = .idle) (hbatch : batch ≤ c.advanced) :
      Turn d tid batch c .scan { c with ended := true }
  | done (hfree : c.world.threads tid = .idle) (hpending : c.pending = [])
      (hnone : c.world.tables.queue.drop c.offset = []) :
      Turn d tid batch c .scan { c with ended := true }
  | read {page} (hfree : c.world.threads tid = .idle) (hlive : c.ended = false)
      (hpending : c.pending = []) (hpage : page = (c.world.tables.queue.drop c.offset).take pageSize) :
      Turn d tid batch c .scan { c with pending := page, offset := c.offset + page.length }
  | hand {runId rest world} (hfree : c.world.threads tid = .idle) (hlive : c.ended = false)
      (hpending : c.pending = runId :: rest)
      (hstep : c.world.step d (tid, .execute runId false) = some world)
      (htables : world.tables = c.world.tables) (hthread : world.threads tid = .selecting runId) :
      Turn d tid batch c .scan
        { c with world := world, pending := rest, handed := c.handed ++ [runId] }
  | call {ev world} (hbusy : c.world.threads tid ≠ .idle)
      (hstep : c.world.step d (tid, ev) = some world) :
      Turn d tid batch c (.call ev)
        { c with
          world := world
          advanced := c.advanced + if (c.world.threads tid).executed ev then 1 else 0 }

namespace Cycle

variable {d : Deployment} {tid : ThreadId} {batch : Nat} {c c' : Cycle} {ev : CycleEvent}

theorem free_iff : c.free tid = true ↔ c.world.threads tid = .idle := by
  unfold free
  cases c.world.threads tid <;> simp

theorem runnableRuns_page (t : Tables) (offset : Nat) :
    (exec (runnableRuns pageSize offset) t).1 =
      .ok ((t.queue.drop offset).take pageSize) := by
  have hbounds : (!(decide ((1 : Int) ≤ (pageSize : Nat)) &&
      decide (((pageSize : Nat) : Int) ≤ 1000)) || decide ((offset : Int) < 0)) = false := by
    simp [pageSize]
  unfold runnableRuns
  rw [hbounds]
  simp only [Bool.false_eq_true, if_false, exec, query_apply, Tables.queue, Int.toNat_natCast,
    List.map_take, List.map_drop]

theorem step_turn (hstep : c.step d tid batch ev = some c') : Turn d tid batch c ev c' := by
  cases ev with
  | call ev =>
      simp only [step] at hstep
      split at hstep
      · cases hstep
      · rename_i hfree
        obtain ⟨world, hworld, rfl⟩ := Option.map_eq_some_iff.mp hstep
        exact .call (fun hidle ↦ hfree (free_iff.mpr hidle)) hworld
  | scan =>
      simp only [step] at hstep
      split at hstep
      swap
      · cases hstep
      rename_i hgo
      obtain ⟨hfree, hlive⟩ : c.world.threads tid = .idle ∧ c.ended = false := by
        simpa [free_iff] using hgo
      unfold scan at hstep
      cases hpending : c.pending with
      | nil =>
          simp only [hpending, runnableRuns_page] at hstep
          split at hstep
          · rename_i hpage
            obtain rfl := Option.some.inj hstep
            rw [← hpending]
            refine .done hfree hpending ?_
            exact (List.take_eq_nil_iff.mp (Except.ok.inj hpage)).resolve_left (by decide)
          · rename_i page hpage
            obtain rfl := Option.some.inj hstep
            exact .read hfree hlive hpending (Except.ok.inj hpage).symm
          · rename_i hpage
            cases hpage
      | cons runId rest =>
          simp only [hpending] at hstep
          split at hstep
          · rename_i hbatch
            obtain rfl := Option.some.inj hstep
            rw [← hpending]
            exact .full hfree hbatch
          · obtain ⟨world, hworld, rfl⟩ := Option.map_eq_some_iff.mp hstep
            have hthread := World.step_thread hworld
            simp only [hfree] at hthread
            obtain ⟨hselecting, htables⟩ := Prod.mk.inj (Option.some.inj hthread)
            exact .hand hfree hlive hpending hworld htables.symm hselecting.symm

end Cycle

/-! ## What holds between the turns -/

/-- Only runs that were handed out have left the queue the cycle started with, and none has come
into it. -/
structure Cycle.Follows (d : Deployment) (tid : ThreadId) (w : World) (c : Cycle) : Prop where
  reachable : ReachableBy (World.step d) (fun _ _ ↦ True) {} c.world
  order : c.world.tables.queueOrder = w.tables.queueOrder
  listed : ∀ runId, c.world.tables.lists runId = true → runId ∈ w.tables.queue
  waiting : ∀ runId ∈ w.tables.queue, runId ∉ c.handed → c.world.tables.lists runId = true
  given : ∀ runId ∈ c.handed ++ c.pending, runId ∈ w.tables.queue
  current : c.world.threads tid = .idle ∨
    ∃ runId, (c.world.threads tid).run? = some runId ∧ runId ∈ c.handed
  rests : c.ended = true → c.world.threads tid = .idle

namespace Cycle.Follows

variable {d : Deployment} {tid : ThreadId} {batch : Nat} {w : World} {c c' : Cycle}
  {ev : CycleEvent}

theorem queue (h : c.Follows d tid w)
    (hw : ReachableBy (World.step d) (fun _ _ ↦ True) {} w) :
    c.world.tables.queue = w.tables.queue.filter c.world.tables.lists := by
  have hsound : c.world.Sound := .of_reachable h.reachable
  have hsound₀ : w.Sound := .of_reachable hw
  rw [queue_eq hsound.wellFormed (World.agree_of_reachable h.reachable), h.order,
    queue_eq hsound₀.wellFormed (World.agree_of_reachable hw), List.filter_filter]
  refine List.filter_congr fun runId _ ↦ ?_
  rw [Bool.eq_iff_iff, Bool.and_eq_true, iff_self_and]
  intro hlists
  exact (mem_queue_iff hsound₀.wellFormed (World.agree_of_reachable hw)).mp
    (h.listed runId hlists)

theorem start (hw : ReachableBy (World.step d) (fun _ _ ↦ True) {} w)
    (hidle : w.threads tid = .idle) : Cycle.Follows d tid w { world := w } := by
  have hsound : w.Sound := .of_reachable hw
  have hmem : ∀ runId, runId ∈ w.tables.queue ↔ w.tables.lists runId = true :=
    fun _ ↦ mem_queue_iff hsound.wellFormed (World.agree_of_reachable hw)
  exact ⟨hw, rfl, fun runId hlists ↦ (hmem runId).mpr hlists,
    fun runId hqueue _ ↦ (hmem runId).mp hqueue, by simp, .inl hidle, by simp⟩

/-- A call concerns the last run handed out, and no other. -/
theorem call (h : c.Follows d tid w) (hbusy : c.world.threads tid ≠ .idle) {world : World}
    {l : Event} (hstep : c.world.step d (tid, l) = some world) :
    ∃ runId ∈ c.handed, (c.world.threads tid).run? = some runId ∧
      (world.threads tid = .idle ∨ (world.threads tid).run? = some runId) ∧
      c.world.tables.SameBut runId world.tables := by
  have hsound : c.world.Sound := .of_reachable h.reachable
  obtain ⟨runId, hrun, hhanded⟩ := h.current.resolve_left hbusy
  have hthread := World.step_thread hstep
  exact ⟨runId, hhanded, hrun, Thread.run?_step hrun hthread,
    Thread.sameBut_step (hsound.known tid) (hsound.jobs tid) hrun hthread⟩

theorem step (h : c.Follows d tid w) (hstep : c.step d tid batch ev = some c') :
    c'.Follows d tid w := by
  cases step_turn hstep with
  | full hfree =>
      exact ⟨h.reachable, h.order, h.listed, h.waiting, h.given, h.current, fun _ ↦ hfree⟩
  | done hfree =>
      exact ⟨h.reachable, h.order, h.listed, h.waiting, h.given, h.current, fun _ ↦ hfree⟩
  | read hfree hlive hpending hpage =>
      refine ⟨h.reachable, h.order, h.listed, h.waiting, fun runId hmem ↦ ?_, h.current, h.rests⟩
      rcases List.mem_append.mp hmem with hold | hnew
      · exact h.given runId (List.mem_append_left _ hold)
      · have hsound : c.world.Sound := .of_reachable h.reachable
        have hqueue : runId ∈ c.world.tables.queue :=
          List.mem_of_mem_drop (List.mem_of_mem_take (hpage ▸ hnew))
        exact h.listed runId ((mem_queue_iff hsound.wellFormed
          (World.agree_of_reachable h.reachable)).mp hqueue)
  | @hand runId rest world hfree hlive hpending hworld htables hthread =>
      refine ⟨h.reachable.next trivial hworld, by rw [htables]; exact h.order,
        by rw [htables]; exact h.listed, fun other hother hnot ↦ ?_, fun other hmem ↦ ?_, ?_, ?_⟩
      · rw [htables]
        exact h.waiting other hother fun hmem ↦ hnot (List.mem_append_left _ hmem)
      · refine h.given other ?_
        rw [hpending]
        simpa using hmem
      · exact .inr ⟨runId, by rw [hthread]; rfl, by simp⟩
      · simp [hlive]
  | call hbusy hworld =>
      obtain ⟨runId, hhanded, hrun, hnext, hsame⟩ := h.call hbusy hworld
      refine ⟨h.reachable.next trivial hworld, hsame.order.trans h.order, fun other hlists ↦ ?_,
        fun other hother hnot ↦ ?_, h.given, ?_, fun hended ↦ absurd (h.rests hended) hbusy⟩
      · by_cases hne : other = runId
        · exact hne ▸ h.given runId (List.mem_append_left _ hhanded)
        · exact h.listed other (hsame.lists other hne ▸ hlists)
      · rw [hsame.lists other fun hne ↦ hnot (hne ▸ hhanded)]
        exact h.waiting other hother hnot
      · rcases hnext with hidle | hbusy'
        · exact .inl hidle
        · exact .inr ⟨runId, hbusy', hhanded⟩

theorem of_reachable {guard : Cycle → CycleEvent → Prop}
    (hw : ReachableBy (World.step d) (fun _ _ ↦ True) {} w) (hidle : w.threads tid = .idle)
    (h : ReachableBy (Cycle.step d tid batch) guard { world := w } c) : c.Follows d tid w :=
  h.invariant (start hw hidle) fun _ _ _ hc _ hstep ↦ hc.step hstep

end Cycle.Follows

/-! ## Whether anybody is skipped -/

/-- When the next page is read, the runs of the pages before it are all still in the queue, unless
there are no others. -/
def Cycle.KeepsPlace (w : World) (c : Cycle) : Prop :=
  (∀ runId ∈ w.tables.queue.take c.offset, runId ∈ c.world.tables.queue) ∨
    w.tables.queue.length ≤ c.offset

/-- The runs were handed out in the order of the queue. -/
structure Cycle.InOrder (batch : Nat) (w : World) (c : Cycle) : Prop where
  given : c.handed ++ c.pending = w.tables.queue.take c.offset
  finished : c.ended = true → batch ≤ c.advanced ∨ c.handed = w.tables.queue

/-- The run at place `n` is behind the offset, and a run before it has left the queue. -/
structure Cycle.Skips (tid : ThreadId) (w : World) (n : Nat) (c : Cycle) : Prop where
  inside : n < w.tables.queue.length
  passed : n ≤ c.offset
  gone : ∃ a ∈ w.tables.queue.take n, c.world.tables.lists a = false
  pending : ∀ runId ∈ w.tables.queue.take (n + 1), runId ∉ c.pending
  handed : w.tables.queue[n] ∉ c.handed
  current : ∀ runId, (c.world.threads tid).run? = some runId →
    runId ∉ w.tables.queue.take (n + 1)

namespace Cycle

variable {d : Deployment} {tid : ThreadId} {batch : Nat} {w : World} {c c' : Cycle}
  {ev : CycleEvent} {n : Nat}

theorem nodup_queue {world : World} (h : ReachableBy (World.step d) (fun _ _ ↦ True) {} world) :
    world.tables.queue.Nodup := by
  have hsound : world.Sound := .of_reachable h
  rw [queue_eq hsound.wellFormed (World.agree_of_reachable h)]
  exact (nodup_queueOrder hsound.wellFormed).filter _

/-- As long as the pages kept their place, every run is handed out in its turn. -/
theorem InOrder.step (h : c.InOrder batch w) (hfollows : c.Follows d tid w)
    (hw : ReachableBy (World.step d) (fun _ _ ↦ True) {} w)
    (hkeeps : ev = .scan → c.pending = [] → c.KeepsPlace w)
    (hstep : c.step d tid batch ev = some c') : c'.InOrder batch w := by
  have hsound : c.world.Sound := .of_reachable hfollows.reachable
  have hqueue : c.pending = [] → c.KeepsPlace w →
      c.world.tables.queue = w.tables.queue ∨
        w.tables.queue.length ≤ c.offset ∧ c.world.tables.queue.drop c.offset = [] := by
    intro hpending hkept
    have hfilter := hfollows.queue hw
    rcases hkept with hstay | hall
    · left
      rw [hfilter, List.filter_eq_self]
      intro runId hmem
      by_cases hhanded : runId ∈ c.handed
      · have hgiven := h.given
        rw [hpending, List.append_nil] at hgiven
        exact (mem_queue_iff hsound.wellFormed (World.agree_of_reachable hfollows.reachable)).mp
          (hstay runId (hgiven ▸ hhanded))
      · exact hfollows.waiting runId hmem hhanded
    · refine .inr ⟨hall, List.drop_eq_nil_of_le ?_⟩
      rw [hfilter]
      exact (List.length_filter_le _ _).trans hall
  cases step_turn hstep with
  | full _ hbatch => exact ⟨h.given, fun _ ↦ .inl hbatch⟩
  | done _ hpending hnone =>
      refine ⟨h.given, fun _ ↦ .inr ?_⟩
      have hgiven : c.handed = w.tables.queue.take c.offset := by
        rw [← h.given, hpending, List.append_nil]
      rw [show ({ c with ended := true } : Cycle).handed = c.handed from rfl, hgiven]
      refine List.take_of_length_le ?_
      rcases hqueue hpending (hkeeps rfl hpending) with hsame | ⟨hall, _⟩
      · rw [hsame] at hnone
        exact List.drop_eq_nil_iff.mp hnone
      · exact hall
  | @read page _ hlive hpending hpage =>
      refine ⟨?_, fun hended ↦ by simp [hlive] at hended⟩
      have hgiven : c.handed = w.tables.queue.take c.offset := by
        rw [← h.given, hpending, List.append_nil]
      change c.handed ++ page = w.tables.queue.take (c.offset + page.length)
      rcases hqueue hpending (hkeeps rfl hpending) with hsame | ⟨hall, hnone⟩
      · rw [List.take_add, hgiven]
        refine congrArg _ ?_
        rw [hsame] at hpage
        rw [hpage, List.length_take, ← List.take_eq_take_min]
      · rw [hnone, List.take_nil] at hpage
        rw [hpage, List.append_nil, List.length_nil, Nat.add_zero, hgiven]
  | hand _ hlive hpending =>
      refine ⟨?_, fun hended ↦ by simp [hlive] at hended⟩
      rw [← h.given, hpending]
      simp
  | call hbusy => exact ⟨h.given, fun hended ↦ absurd (hfollows.rests hended) hbusy⟩

/-- What a page shows once a run at place `n` is skipped lies behind it. -/
theorem page_behind (hfollows : c.Follows d tid w)
    (hw : ReachableBy (World.step d) (fun _ _ ↦ True) {} w) (hpassed : n ≤ c.offset)
    (hgone : ∃ a ∈ w.tables.queue.take n, c.world.tables.lists a = false) {runId : RunId}
    (hpage : runId ∈ (c.world.tables.queue.drop c.offset).take pageSize) :
    runId ∉ w.tables.queue.take (n + 1) := by
  intro hfirst
  have hmem := List.mem_of_mem_take hpage
  rw [hfollows.queue hw] at hmem
  have hrest := List.mem_of_mem_filter ((Paging.drop_filter_sublist hgone hpassed).subset hmem)
  have hsplit : (w.tables.queue.take (n + 1) ++ w.tables.queue.drop (n + 1)).Nodup := by
    rw [List.take_append_drop]
    exact nodup_queue hw
  exact (List.disjoint_of_nodup_append hsplit) hfirst hrest

/-- A run that is skipped stays skipped. -/
theorem Skips.step (h : c.Skips tid w n) (hfollows : c.Follows d tid w)
    (hw : ReachableBy (World.step d) (fun _ _ ↦ True) {} w)
    (hstep : c.step d tid batch ev = some c') : c'.Skips tid w n := by
  cases step_turn hstep with
  | full | done => exact ⟨h.inside, h.passed, h.gone, h.pending, h.handed, h.current⟩
  | read _ _ _ hpage =>
      refine ⟨h.inside, Nat.le_add_right_of_le h.passed, h.gone, fun runId hfirst hmem ↦ ?_,
        h.handed, h.current⟩
      exact page_behind hfollows hw h.passed h.gone (hpage ▸ hmem) hfirst
  | @hand runId rest world _ _ hpending _ htables hthread =>
      have hnot : runId ∉ w.tables.queue.take (n + 1) := fun hfirst ↦
        h.pending runId hfirst (hpending ▸ List.mem_cons_self)
      refine ⟨h.inside, h.passed, by rw [htables]; exact h.gone, fun other hfirst hmem ↦ ?_, ?_, ?_⟩
      · exact h.pending other hfirst (hpending ▸ List.mem_cons_of_mem _ hmem)
      · intro hmem
        rcases List.mem_append.mp hmem with hold | hnew
        · exact h.handed hold
        · refine hnot (List.mem_singleton.mp hnew ▸ ?_)
          exact List.mem_take_iff_getElem.mpr ⟨n, by have := h.inside; omega, rfl⟩
      · intro other hother
        rw [hthread] at hother
        exact Option.some.inj hother ▸ hnot
  | call hbusy hworld =>
      obtain ⟨runId, _, hrun, hnext, hsame⟩ := hfollows.call hbusy hworld
      have hnot := h.current runId hrun
      refine ⟨h.inside, h.passed, ?_, h.pending, h.handed, fun other hother ↦ ?_⟩
      · obtain ⟨a, ha, hlists⟩ := h.gone
        refine ⟨a, ha, (hsame.lists a fun heq ↦ hnot ?_).trans hlists⟩
        exact heq ▸ List.take_subset_take_left _ (Nat.le_succ n) ha
      · rcases hnext with hidle | hbusy'
        · rw [hidle] at hother
          cases hother
        · rw [hbusy'] at hother
          exact Option.some.inj hother ▸ hnot

/-- A page that is read out of place skips the run behind the pages before it. -/
theorem InOrder.skips (h : c.InOrder batch w) (hfollows : c.Follows d tid w)
    (hw : ReachableBy (World.step d) (fun _ _ ↦ True) {} w) (hpending : c.pending = [])
    (hmoved : ¬c.KeepsPlace w) (hstep : c.step d tid batch .scan = some c') :
    c'.Skips tid w c.offset := by
  obtain ⟨hgone, hinside⟩ := not_or.mp hmoved
  have hinside : c.offset < w.tables.queue.length := Nat.lt_of_not_le hinside
  have hsound : c.world.Sound := .of_reachable hfollows.reachable
  have hgone : ∃ a ∈ w.tables.queue.take c.offset, c.world.tables.lists a = false := by
    push Not at hgone
    obtain ⟨a, ha, hout⟩ := hgone
    refine ⟨a, ha, Bool.eq_false_iff.mpr fun hlists ↦ hout ?_⟩
    exact (mem_queue_iff hsound.wellFormed (World.agree_of_reachable hfollows.reachable)).mpr hlists
  have hhanded : w.tables.queue[c.offset] ∉ c.handed := by
    have hgiven : c.handed = w.tables.queue.take c.offset := by
      rw [← h.given, hpending, List.append_nil]
    rw [hgiven, List.mem_take_iff_getElem]
    rintro ⟨i, hi, heq⟩
    have hi' := (nodup_queue hw).getElem_inj_iff.mp heq
    omega
  have hidle : ∀ runId, c.world.threads tid = .idle → (c.world.threads tid).run? = some runId →
      runId ∉ w.tables.queue.take (c.offset + 1) := by
    intro runId hfree hrun
    rw [hfree] at hrun
    cases hrun
  cases step_turn hstep with
  | full hfree | done hfree =>
      exact ⟨hinside, le_rfl, hgone, by simp [hpending], hhanded, fun runId ↦ hidle runId hfree⟩
  | read hfree _ _ hpage =>
      exact ⟨hinside, Nat.le_add_right _ _, hgone,
        fun runId hfirst hmem ↦ page_behind hfollows hw le_rfl hgone (hpage ▸ hmem) hfirst,
        hhanded, fun runId ↦ hidle runId hfree⟩
  | hand _ _ hnonempty => simp [hpending] at hnonempty

theorem handed_step (hstep : c.step d tid batch ev = some c') : c.handed ⊆ c'.handed := by
  cases step_turn hstep with
  | hand => exact List.subset_append_left _ _
  | _ => exact fun _ h ↦ h

/-- In every state of a cycle everybody is in order, or somebody is skipped for good. -/
theorem inOrder_or_skips (hw : ReachableBy (World.step d) (fun _ _ ↦ True) {} w)
    (hidle : w.threads tid = .idle)
    (h : ReachableBy (Cycle.step d tid batch) (fun _ _ ↦ True) { world := w } c) :
    c.InOrder batch w ∨ ∃ n, c.Skips tid w n := by
  induction h with
  | init => exact .inl ⟨by simp, by simp⟩
  | @next c c' ev hc _ hstep ih =>
      have hfollows : c.Follows d tid w := .of_reachable hw hidle hc
      rcases ih with horder | ⟨n, hskips⟩
      · by_cases hkeeps : ev = .scan → c.pending = [] → c.KeepsPlace w
        · exact .inl (horder.step hfollows hw hkeeps hstep)
        · push Not at hkeeps
          obtain ⟨rfl, hpending, hmoved⟩ := hkeeps
          exact .inr ⟨_, horder.skips hfollows hw hpending hmoved hstep⟩
      · exact .inr ⟨n, hskips.step hfollows hw hstep⟩

/-- A run that is never handed out stays in the queue for the whole cycle. -/
theorem stays_of_not_handed (hw : ReachableBy (World.step d) (fun _ _ ↦ True) {} w)
    (hidle : w.threads tid = .idle) {history : List CycleEvent}
    (hrun : run (Cycle.step d tid batch) { world := w } history = some c) {runId : RunId}
    (hqueue : runId ∈ w.tables.queue) (hnot : runId ∉ c.handed)
    (hvisits : Visits (Cycle.step d tid batch) { world := w } history c') :
    runId ∈ c'.world.tables.queue := by
  have hfollows : c'.Follows d tid w := .of_reachable hw hidle hvisits.reachable
  have hsound : c'.world.Sound := .of_reachable hfollows.reachable
  obtain ⟨rest, hrest⟩ := hvisits.run_rest hrun
  have hsubset : c'.handed ⊆ c.handed :=
    ReachableBy.init.run_rel (R := fun a b : Cycle ↦ a.handed ⊆ b.handed) (fun _ _ h ↦ h)
      (fun _ _ _ h h' ↦ List.Subset.trans h h') (fun _ _ _ _ hstep ↦ handed_step hstep) hrest
  exact (mem_queue_iff hsound.wellFormed (World.agree_of_reachable hfollows.reachable)).mpr
    (hfollows.waiting runId hqueue fun hmem ↦ hnot (hsubset hmem))

end Cycle

/-- A cycle that ends before it has executed `batch` attempts has passed everybody who stayed in
the queue to `execute_once_reporting` exactly when, each time it read a page, the runs of the
pages before were all still in the queue, or the queue held no others. -/
theorem cycle_skips_nobody_iff (d : Deployment) (tid : ThreadId) (batch : Nat) {w : World}
    (hw : ReachableBy (World.step d) (fun _ _ ↦ True) {} w) (hidle : w.threads tid = .idle)
    {history : List CycleEvent} {c : Cycle}
    (hrun : run (Cycle.step d tid batch) { world := w } history = some c)
    (hended : c.ended = true) (hbatch : c.advanced < batch) :
    (∀ runId ∈ w.tables.queue,
        (∀ c', Visits (Cycle.step d tid batch) { world := w } history c' →
          runId ∈ c'.world.tables.queue) → runId ∈ c.handed) ↔
      ∀ c₁ c₂, Takes (Cycle.step d tid batch) { world := w } history c₁ .scan c₂ →
        c₁.pending = [] → c₁.KeepsPlace w := by
  have hvisits : Visits (Cycle.step d tid batch) { world := w } history c :=
    ⟨history, List.prefix_refl _, hrun⟩
  constructor
  · intro hall c₁ c₂ htakes hpending
    by_contra hmoved
    have hfollows : c₁.Follows d tid w := .of_reachable hw hidle htakes.visits_left.reachable
    obtain ⟨n, hskips⟩ : ∃ n, c₂.Skips tid w n := by
      rcases Cycle.inOrder_or_skips hw hidle htakes.visits_left.reachable with
        horder | ⟨n, hskips⟩
      · exact ⟨_, horder.skips hfollows hw hpending hmoved htakes.step_eq⟩
      · exact ⟨n, hskips.step hfollows hw htakes.step_eq⟩
    have hfollows' : c₂.Follows d tid w := hfollows.step htakes.step_eq
    obtain ⟨rest, hrest⟩ := htakes.visits_right.run_rest hrun
    have hboth : c.Follows d tid w ∧ c.Skips tid w n := by
      refine (ReachableBy.init.run hrest).invariant
        (P := fun c ↦ Cycle.Follows d tid w c ∧ Cycle.Skips tid w n c) ⟨hfollows', hskips⟩ ?_
      exact fun _ _ _ h _ hstep ↦ ⟨h.1.step hstep, h.2.step h.1 hw hstep⟩
    have hinside := hskips.inside
    refine hboth.2.handed (hall _ (List.getElem_mem hinside) fun c' hc' ↦ ?_)
    exact Cycle.stays_of_not_handed hw hidle hrun (List.getElem_mem hinside) hboth.2.handed hc'
  · intro hkeeps runId hqueue _
    have hreach : ReachableBy (Cycle.step d tid batch)
        (fun c ev ↦ ev = .scan → c.pending = [] → c.KeepsPlace w) { world := w } c := by
      refine hvisits.reachableBy fun c₁ ev c₂ htakes hscan ↦ ?_
      subst hscan
      exact hkeeps c₁ c₂ htakes
    have horder : c.Follows d tid w ∧ c.InOrder batch w := by
      refine hreach.invariant (P := fun c ↦ Cycle.Follows d tid w c ∧ Cycle.InOrder batch w c)
        ⟨.start hw hidle, by simp, by simp⟩ ?_
      exact fun _ _ _ h hguard hstep ↦ ⟨h.1.step hstep, h.2.step h.1 hw hguard hstep⟩
    rcases horder.2.finished hended with hfull | hhanded
    · omega
    · rw [hhanded]
      exact hqueue

/-! ## A full page -/

namespace Sample

def name (i : Nat) : String := String.ofList (List.replicate i 'r')

def queued (i : Nat) : Submission := { submission 1 with runId := name i, stageRunId := name i }

/-- `n` queued runs, of which the first `k` have been failed by the cycle. -/
def backlog (n k : Nat) : Tables where
  runs := (List.range n).map fun i ↦
    if i < k then ((queued i).runRow).failedEarly "preflight_error" 0 else (queued i).runRow
  stages := (List.range n).map fun i ↦
    if i < k then ((queued i).stageRow "plugin").moved .failed else (queued i).stageRow "plugin"
  events := (List.range k).map fun i ↦
    preflightEvent (name i) "preflight_error" "ResolutionError" (name i) 0

def rest (n k : Nat) : World := { tables := backlog n k }

theorem name_injective : Function.Injective name := by
  intro i j h
  have hlength := congrArg String.length h
  simpa [name] using hlength

theorem name_ne {i n : Nat} (h : i < n) : name i ≠ name n :=
  fun heq ↦ (Nat.ne_of_lt h) (name_injective heq)

theorem submit_backlog (n : Nat) :
    (rest n 0).step deployment (9, .submit (queued n)) = some (rest (n + 1) 0) := by
  have hvalid : (queued n).task.validate = .ok () := by
    change (task 1).validate = .ok ()
    rfl
  have hruns : (backlog n 0).refusesRun (queued n).runRow = false := by
    refine List.any_eq_false.mpr fun r hr ↦ ?_
    obtain ⟨i, hi, rfl⟩ := List.mem_map.mp hr
    simp [queued, submission, Submission.runRow, name_ne (List.mem_range.mp hi)]
  have hstages : ((backlog n 0).insertRun (queued n).runRow).refusesStage
      ((queued n).stageRow "plugin") = false := by
    refine Bool.or_eq_false_iff.mpr ⟨List.any_eq_false.mpr fun s hs ↦ ?_, ?_⟩
    · obtain ⟨i, hi, rfl⟩ := List.mem_map.mp hs
      simp [queued, Submission.stageRow, name_ne (List.mem_range.mp hi)]
    · rw [Option.isNone_eq_false_iff]
      exact Table.get?_isSome_iff.mpr
        (List.mem_map_of_mem (List.mem_append_right _ (List.mem_singleton_self _)))
  have hcreates : Commits (submitRun deployment.custody (queued n)) (backlog n 0)
      (.create (queued n) "plugin") (.ok (queued n).runRow) := by
    refine ⟨⟨(by decide : (0 : Int) < 1), hruns, hstages⟩, ?_⟩
    unfold submitRun
    rw [bind_apply, hvalid]
    simp only [checked, pure_apply, show (queued n).task.pluginId = some "plugin" from rfl,
      show (queued n).idempotencyKey = none from rfl, reduceCtorEq, if_false, immediate_apply,
      query_bind, show (queued n).existing? (backlog n 0) = none from rfl]
    rcases createRun_cases (backlog n 0) (queued n) "plugin" with ⟨e, he⟩ | ⟨_, _, hok⟩
    · simp only [createRun, executeChecked_bind, hruns, hstages] at he
      cases he
    · exact hok
  have happly : (Effect.create (queued n) "plugin").apply (backlog n 0) = backlog (n + 1) 0 := by
    simp [Effect.apply, Tables.insertRun, Tables.insertStage, backlog, List.range_succ]
  have hstep : Thread.step deployment 9 (backlog n 0) .idle (.submit (queued n)) =
      some (.idle, backlog (n + 1) 0) := by
    simp only [Thread.step, Thread.request, hcreates.exec, happly, Option.orElse_some]
  simp only [World.step, rest, hstep, Option.map_some, Function.update_eq_self]
theorem reachable_backlog (n : Nat) :
    ReachableBy (World.step deployment) (fun _ _ ↦ True) {} (rest n 0) := by
  induction n with
  | zero => exact .init
  | succ n ih => exact ih.next trivial (submit_backlog n)

theorem run?_backlog {n i : Nat} (k : Nat) (hi : i < n) : (backlog n k).run? (name i) =
    some (if i < k then ((queued i).runRow).failedEarly "preflight_error" 0
      else (queued i).runRow) := by
  have hids : (backlog n k).runs.map RunRow.runId = (List.range n).map name := by
    rw [backlog, List.map_map]
    refine List.map_congr_left fun i _ ↦ ?_
    simp only [Function.comp]
    split <;> rfl
  have hunique : Table.Unique RunRow.runId (backlog n k).runs := by
    rw [Table.Unique, hids]
    exact List.nodup_range.map name_injective
  refine hunique.get?_iff.mpr ⟨List.mem_map.mpr ⟨i, List.mem_range.mpr hi, rfl⟩, ?_⟩
  split <;> rfl

theorem lists_backlog {n i : Nat} (k : Nat) (hi : i < n) :
    (backlog n k).lists (name i) = decide (k ≤ i) := by
  rw [Tables.lists, Tables.runStatus?, run?_backlog k hi]
  by_cases h : i < k
  · rw [if_pos h, decide_eq_false (Nat.not_le.mpr h)]
    rfl
  · rw [if_neg h, decide_eq_true (Nat.not_lt.mp h)]
    rfl

theorem queueOrder_backlog (n k : Nat) : (backlog n k).queueOrder = (List.range n).map name := by
  have htimes : ∀ r ∈ (backlog n k).runs, r.createdAt = 0 := by
    intro r hr
    obtain ⟨i, _, rfl⟩ := List.mem_map.mp hr
    split <;> rfl
  rw [Tables.queueOrder, List.Pairwise.insertionSort_eq, backlog, List.map_map]
  · refine List.map_congr_left fun i _ ↦ ?_
    simp only [Function.comp]
    split <;> rfl
  · exact List.pairwise_of_forall_mem_list fun a ha b hb ↦ by rw [htimes a ha, htimes b hb]

theorem queue_backlog {n k : Nat}
    (h : ReachableBy (World.step deployment) (fun _ _ ↦ True) {} (rest n k)) :
    (backlog n k).queue = ((List.range n).filter (k ≤ ·)).map name := by
  have hsound : (rest n k).Sound := .of_reachable h
  have hqueue := queue_eq hsound.wellFormed (World.agree_of_reachable h)
  rw [show (rest n k).tables = backlog n k from rfl, queueOrder_backlog, List.filter_map] at hqueue
  rw [hqueue]
  exact congrArg _ (List.filter_congr fun i hi ↦ lists_backlog k (List.mem_range.mp hi))

section Failing

variable {n k : Nat} (h : k < n)
include h

theorem fail_backlog :
    (Effect.failEarly (name k) "preflight_error" "ResolutionError" (name k) 0).apply
      (backlog n k) = backlog n (k + 1) := by
  have hother : ∀ i, i ≠ k → name i ≠ name k := fun i hi heq ↦ hi (name_injective heq)
  simp only [Effect.apply, Tables.insertEvent, Tables.updateOpenStages, Tables.updateRun,
    Table.update, backlog, List.map_map, List.range_succ, List.map_append, List.map_cons,
    List.map_nil, Tables.mk.injEq, and_true]
  refine ⟨List.map_congr_left fun i hi ↦ ?_, List.map_congr_left fun i hi ↦ ?_⟩
  · rcases Nat.lt_trichotomy i k with hlt | rfl | hgt
    · simp [hlt, Nat.lt_succ_of_lt hlt, queued, Submission.runRow, RunRow.failedEarly,
        hother i (by omega)]
    · simp [queued, Submission.runRow]
    · simp [Nat.not_lt.mpr hgt.le, show ¬i < k + 1 by omega, queued, Submission.runRow,
        hother i (by omega)]
  · rcases Nat.lt_trichotomy i k with hlt | rfl | hgt
    · simp [hlt, Nat.lt_succ_of_lt hlt, queued, Submission.stageRow, StageRow.moved,
        hother i (by omega)]
    · simp [queued, Submission.stageRow, StageRow.settled, StageRow.moved,
        RuntimeStatus.isTerminal, RuntimeStatus.terminalStatuses]
    · simp [Nat.not_lt.mpr hgt.le, show ¬i < k + 1 by omega, queued, Submission.stageRow,
        hother i (by omega)]

theorem fail_enabled :
    (Effect.failEarly (name k) "preflight_error" "ResolutionError" (name k) 0).Enabled
      (backlog n k) := by
  refine ⟨⟨by decide, by decide⟩, List.any_eq_false.mpr fun e he ↦ ?_, _,
    (run?_backlog k h).trans (congrArg some (if_neg (lt_irrefl k))), rfl⟩
  obtain ⟨i, hi, rfl⟩ := List.mem_map.mp he
  simp [preflightEvent, name_ne (List.mem_range.mp hi)]

theorem nextReadyStage_backlog : ((backlog n k).nextReadyStage (name k)).isSome := by
  refine List.find?_isSome.mpr ⟨(queued k).stageRow "plugin", ?_, rfl⟩
  unfold Tables.listStages
  rw [(List.perm_insertionSort _ _).mem_iff, List.mem_filter]
  refine ⟨List.mem_map.mpr ⟨k, List.mem_range.mpr h, if_neg (lt_irrefl k)⟩, ?_⟩
  simp [queued, Submission.stageRow]

/-- The resolver refuses the plugin of the next run. -/
def preflightFails (k : Nat) : List CycleEvent :=
  [.scan, .call (.next { now := 0 }), .call (.next { now := 0 }), .call (.raise "ResolutionError"),
    .call (.next { now := 0, fresh := name k })]

theorem run_preflightFails (pending handed : List RunId) (offset : Nat) :
    run (Cycle.step deployment 0 1)
        { world := rest n k, pending := name k :: pending, offset := offset, handed := handed }
        (preflightFails k) =
      some { world := rest n (k + 1), pending := pending, offset := offset,
             handed := handed ++ [name k] } := by
  obtain ⟨stage, hstage⟩ := Option.isSome_iff_exists.mp (nextReadyStage_backlog h)
  have hfails : exec (failQueuedRun (name k) "preflight_error" "ResolutionError" (name k) 0)
      (backlog n k) = (.ok true, backlog n (k + 1)) := by
    rcases failQueuedRun_cases (backlog n k) (name k) "preflight_error" "ResolutionError" (name k)
      0 with ⟨hnot, _⟩ | hcommits
    · exact absurd (fail_enabled h) hnot
    · rw [hcommits.exec, fail_backlog h]
  have hrow : (backlog n k).run? (name k) = some (queued k).runRow :=
    (run?_backlog k h).trans (congrArg some (if_neg (lt_irrefl k)))
  have hselecting : Thread.step deployment 0 (backlog n k) (.selecting (name k))
      (.next { now := 0 }) = some (.staging (queued k).runRow, backlog n k) := by
    simp only [Thread.step, Thread.request, Thread.select, (getRun_keeps _ (name k)).exec, hrow,
      Option.orElse_none]
    rfl
  have hstaging : Thread.step deployment 0 (backlog n k) (.staging (queued k).runRow)
      (.next { now := 0 }) = some (.resolving (queued k).runRow stage, backlog n k) := by
    have hstage : (backlog n k).nextReadyStage (queued k).runRow.runId = some stage := hstage
    simp only [Thread.step, Thread.request, Thread.select, hstage, Option.orElse_none]
    rfl
  have hescaped : Thread.step deployment 0 (backlog n k) (.escaped (name k) "ResolutionError")
      (.next { now := 0, fresh := name k }) = some (.idle, backlog n (k + 1)) := by
    simp only [Thread.step, Thread.request, Thread.select, Thread.work, Thread.recover, hfails,
      Option.orElse_none]
    rfl
  have hresolving : Thread.step deployment 0 (backlog n k) (.resolving (queued k).runRow stage)
      (.raise "ResolutionError") = some (.escaped (name k) "ResolutionError", backlog n k) := rfl
  have hidle : Thread.step deployment 0 (backlog n k) .idle (.execute (name k) false) =
      some (.selecting (name k), backlog n k) := rfl
  simp [preflightFails, Cycle.step, Cycle.scan, Cycle.free, World.step, rest, hidle, hselecting,
    hstaging, hresolving, hescaped, Thread.executed]

end Failing

theorem run_backlog {n : Nat} (offset j : Nat) : ∀ k, k + j ≤ n →
    run (Cycle.step deployment 0 1)
        { world := rest n k, pending := (List.range' k j).map name, offset := offset,
          handed := (List.range k).map name }
        ((List.range' k j).flatMap preflightFails) =
      some { world := rest n (k + j), offset := offset,
             handed := (List.range (k + j)).map name } := by
  induction j with
  | zero => exact fun k _ ↦ rfl
  | succ j ih =>
      intro k hk
      rw [List.range'_succ, List.flatMap_cons, List.map_cons, run_append,
        run_preflightFails (by omega), Option.bind_some]
      have hnext := ih (k + 1) (by omega)
      rw [List.range_succ, List.map_append, List.map_cons, List.map_nil] at hnext
      rw [hnext, Nat.add_right_comm, Nat.add_assoc]

theorem step_read {n k offset : Nat} {handed : List RunId} {page : List RunId}
    (hpage : ((backlog n k).queue.drop offset).take pageSize = page) (hne : page ≠ []) :
    Cycle.step deployment 0 1 { world := rest n k, offset := offset, handed := handed } .scan =
      some { world := rest n k, pending := page, offset := offset + page.length,
             handed := handed } := by
  obtain ⟨runId, page, rfl⟩ := List.exists_cons_of_ne_nil hne
  simp only [Cycle.step, Cycle.free, Cycle.scan, rest, Cycle.runnableRuns_page, hpage]
  rfl

theorem step_done {n k offset : Nat} {handed : List RunId}
    (hnone : (backlog n k).queue.drop offset = []) :
    Cycle.step deployment 0 1 { world := rest n k, offset := offset, handed := handed } .scan =
      some { world := rest n k, offset := offset, handed := handed, ended := true } := by
  simp only [Cycle.step, Cycle.free, Cycle.scan, rest, Cycle.runnableRuns_page, hnone,
    List.take_nil]
  rfl

/-- A full page of runs whose plugin is refused, and one run behind it. -/
def overfull : List CycleEvent :=
  .scan :: (List.range' 0 pageSize).flatMap preflightFails ++ [.scan]

/-- The cycle after it: the last run is still in the queue. -/
def overlooked : Cycle :=
  { world := rest (pageSize + 1) pageSize, offset := pageSize,
    handed := (List.range pageSize).map name, ended := true }

theorem not_mem_handed_overlooked : name pageSize ∉ overlooked.handed := by
  rw [overlooked, List.mem_map]
  rintro ⟨i, hi, heq⟩
  exact name_ne (List.mem_range.mp hi) heq

theorem run_overfull : run (Cycle.step deployment 0 1) { world := rest (pageSize + 1) 0 } overfull =
    some overlooked := by
  have hfirst : Cycle.step deployment 0 1 { world := rest (pageSize + 1) 0 } .scan =
      some { world := rest (pageSize + 1) 0, pending := (List.range' 0 pageSize).map name,
             offset := pageSize } := by
    have hqueue : (backlog (pageSize + 1) 0).queue = (List.range (pageSize + 1)).map name := by
      rw [queue_backlog (reachable_backlog _)]
      exact congrArg _ (List.filter_eq_self.mpr fun i _ ↦ decide_eq_true (Nat.zero_le i))
    have hpage : ((backlog (pageSize + 1) 0).queue.drop 0).take pageSize =
        (List.range' 0 pageSize).map name := by
      rw [hqueue, List.drop_zero, ← List.map_take, List.take_range, ← List.range_eq_range',
        Nat.min_eq_left (Nat.le_succ _)]
    rw [step_read hpage (by simp [pageSize]), List.length_map, List.length_range', Nat.zero_add]
  have hrest : run (Cycle.step deployment 0 1) { world := rest (pageSize + 1) 0 }
      (.scan :: (List.range' 0 pageSize).flatMap preflightFails) = 
      some { world := rest (pageSize + 1) pageSize, offset := pageSize,
             handed := (List.range pageSize).map name } := by
    rw [run_cons, hfirst, Option.bind_some]
    simpa using run_backlog (n := pageSize + 1) pageSize pageSize 0 (by omega)
  refine run_concat_eq_some_iff.mpr ⟨_, hrest, step_done ?_⟩
  have hreach : ReachableBy (World.step deployment) (fun _ _ ↦ True) {}
      (rest (pageSize + 1) pageSize) :=
    (Cycle.Follows.of_reachable (reachable_backlog _) rfl (ReachableBy.init.run hrest)).reachable
  have hlast : (List.range (pageSize + 1)).filter (pageSize ≤ ·) = [pageSize] := by
    rw [List.range_succ, List.filter_append, List.filter_eq_nil_iff.mpr]
    · simp
    · intro i hi
      simpa using List.mem_range.mp hi
  rw [queue_backlog hreach, hlast]
  exact List.drop_eq_nil_of_le (by decide)

theorem mem_queue_rest : name pageSize ∈ (rest (pageSize + 1) 0).tables.queue := by
  rw [show (rest (pageSize + 1) 0).tables = backlog (pageSize + 1) 0 from rfl,
    queue_backlog (reachable_backlog _)]
  exact List.mem_map_of_mem (List.mem_filter.mpr ⟨List.mem_range.mpr (Nat.lt_succ_self _), rfl⟩)

end Sample

theorem cycle_skips_nobody_iff_overfull :
    ∃ c₁ c₂, Takes (Cycle.step Sample.deployment 0 1)
      { world := Sample.rest (pageSize + 1) 0 } Sample.overfull c₁ .scan c₂ ∧
        c₁.pending = [] ∧ ¬c₁.KeepsPlace (Sample.rest (pageSize + 1) 0) := by
  have hw := Sample.reachable_backlog (pageSize + 1)
  by_contra hnone
  push Not at hnone
  have hnot := Sample.not_mem_handed_overlooked
  refine hnot ((cycle_skips_nobody_iff Sample.deployment 0 1 hw rfl Sample.run_overfull rfl
    Nat.zero_lt_one).mpr hnone _ Sample.mem_queue_rest fun c' hvisits ↦ ?_)
  exact Cycle.stays_of_not_handed hw rfl Sample.run_overfull Sample.mem_queue_rest hnot hvisits

/-- The first page fails as a whole, and the second is read beyond the run behind it. -/
theorem full_page_hides_run :
    ¬∀ (d : Deployment) (tid : ThreadId) (batch : Nat) (w : World),
      ReachableBy (World.step d) (fun _ _ ↦ True) {} w → w.threads tid = .idle →
      ∀ (history : List CycleEvent) c,
        run (Cycle.step d tid batch) { world := w } history = some c → c.ended = true →
        c.advanced < batch →
        ∀ runId ∈ w.tables.queue,
          (∀ c', Visits (Cycle.step d tid batch) { world := w } history c' →
            runId ∈ c'.world.tables.queue) → runId ∈ c.handed := by
  intro hclaim
  have hw := Sample.reachable_backlog (pageSize + 1)
  have hnot := Sample.not_mem_handed_overlooked
  refine hnot (hclaim Sample.deployment 0 1 _ hw rfl Sample.overfull _ Sample.run_overfull rfl
    Nat.zero_lt_one _ Sample.mem_queue_rest fun c' hvisits ↦ ?_)
  exact Cycle.stays_of_not_handed hw rfl Sample.run_overfull Sample.mem_queue_rest hnot hvisits

end ChipEvolve
