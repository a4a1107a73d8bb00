import ChipEvolve.Machine
import ChipEvolve.Store.Methods
import Mathlib.Logic.Function.Basic

/-!
# The consoles and the token they borrow

The request handlers of `run_console`, `evidence_console` and `dse_lab`, and the
one `KernelClient` each process has (`client.py`).  A handler puts the token of
its request into the client and then makes its kernel calls; every call reads
the token again.  Handler threads interleave between these steps.  What the
kernel answers, and what the lab's own database holds, are in the requests and
the labels.
-/

namespace ChipEvolve.Apps

open Machine

/-! ## Requests and kernel calls -/

/-- The methods of `KernelClient` the consoles call. -/
inductive KernelCall where
  | health
  | plugins
  | runs (limit : Int)
  | run (runId : String)
  | timeline (runId : String)
  | artifacts (runId : String)
  | metrics (runId : String)
  | submit (task : JsonObject) (idempotent : Bool)
  | cancel (runId : String)

/-- A request by the branch of its handler it reaches.  `none` stands for a
parameter or a body that is refused there. -/
inductive Route where
  | health
  | runs (limit : Option Int)
  | plugins
  | run (runId : String)
  | submission (task : Option JsonObject) (idempotent : Bool)
  | cancel (runId : String)
  | otherPost
  | comparison (runIds : Option (List String))
  | newSweep (tasks : Option (List JsonObject))
  | refused

structure Request where
  authorization : Option String
  route : Route

/-- `text.strip()` -/
def strip (text : List Char) : List Char :=
  ((text.dropWhile isSpace).reverse.dropWhile isSpace).reverse

/-- The token a handler takes from the `Authorization` header. -/
def bearerToken (authorization : Option String) : Option String :=
  let header := (authorization.getD "").toList
  if "bearer ".toList.isPrefixOf (header.map Char.toLower) then
    some (String.ofList (strip (header.drop 7)))
  else none

/-- The request's bearer token, if it has one. -/
def Request.bearer (r : Request) : Option String := (bearerToken r.authorization).filter (· ≠ "")

/-! ## Handlers -/

/-- A handler by what it does with the client. -/
inductive Program where
  | finished
  | borrow (rest : Program)
  | call (c : KernelCall) (answered refused : Program)

namespace Program

/-- One call after the other, up to the first that raises. -/
def calls : List KernelCall → Program
  | [] => finished
  | c :: cs => call c (calls cs) finished

/-- The loop of `submit_sweep`: a refusal is recorded and the next point follows. -/
def submitPoints : List JsonObject → Program
  | [] => finished
  | task :: tasks => call (.submit task true) (submitPoints tasks) (submitPoints tasks)

/-- `MAX_COMPARISON_RUNS` -/
def maxComparisonRuns : Nat := 64

/-- The loop of `compare_sweep` over the run ids of the points. -/
def comparePoints (seenRuns : Nat) : List String → Program
  | [] => finished
  | runId :: runIds =>
      if "refused:".toList.isPrefixOf runId.toList || runId = "" || maxComparisonRuns ≤ seenRuns then
        comparePoints seenRuns runIds
      else
        call (.run runId)
          (call (.metrics runId) (comparePoints (seenRuns + 1) runIds)
            (comparePoints (seenRuns + 1) runIds))
          (comparePoints (seenRuns + 1) runIds)

end Program

inductive App where
  | runConsole
  | evidenceConsole
  | dseLab

open Program in
/-- The handler of each application.  The health check does not borrow. -/
def App.handle : App → Route → Program
  | runConsole, .health => calls [.health]
  | runConsole, .runs limit => borrow (calls ((limit.map KernelCall.runs).toList))
  | runConsole, .plugins => borrow (calls [.plugins])
  | runConsole, .run runId =>
      if runId = "" then finished
      else borrow (calls [.run runId, .timeline runId, .artifacts runId, .metrics runId])
  | runConsole, .submission task idempotent =>
      borrow (calls (task.map fun t ↦ KernelCall.submit t idempotent).toList)
  | runConsole, .cancel runId => borrow (if runId = "" then finished else calls [.cancel runId])
  | runConsole, .otherPost => borrow finished
  | evidenceConsole, .health => calls [.health]
  | evidenceConsole, .runs limit => borrow (calls ((limit.map KernelCall.runs).toList))
  | evidenceConsole, .run runId =>
      if runId = "" then finished
      else borrow (calls [.run runId, .metrics runId, .timeline runId])
  | dseLab, .health => calls [.health]
  | dseLab, .comparison runIds => borrow (comparePoints 0 (runIds.getD []))
  | dseLab, .newSweep tasks => borrow (submitPoints (tasks.getD []))
  | _, _ => finished

/-- Only the health check calls the kernel without having borrowed the client. -/
theorem App.handle_cases (app : App) (route : Route) :
    app.handle route = .finished ∨ (∃ rest, app.handle route = .borrow rest) ∨
      route = .health := by
  cases app <;> cases route <;> simp only [App.handle] <;> try split
  all_goals simp

/-! ## A console process -/

/-- A kernel call as it goes out, with the token of its `Authorization` header. -/
structure SentCall where
  request : Request
  call : KernelCall
  authorization : Option String

/-- The shared client's token and the handler threads.  `sent` and `borrowers`, the
requests that put their token into the client, record the history. -/
structure Console where
  token : Option String := none
  threads : Nat → Option (Request × Program) := fun _ ↦ none
  sent : List SentCall := []
  borrowers : List Request := []

inductive Move where
  | accept (r : Request)
  | next (answered : Bool)

namespace Console

/-- `if self.token: headers["Authorization"] = …` -/
def header (s : Console) : Option String := s.token.filter (· ≠ "")

def step (app : App) (s : Console) (l : Nat × Move) : Option Console :=
  match l.2, s.threads l.1 with
  | .accept r, none =>
      some { s with threads := Function.update s.threads l.1 (some (r, app.handle r.route)) }
  | .next _, some (_, .finished) =>
      some { s with threads := Function.update s.threads l.1 none }
  | .next _, some (r, .borrow rest) =>
      some { s with
        token := bearerToken r.authorization
        borrowers := r :: s.borrowers
        threads := Function.update s.threads l.1 (some (r, rest)) }
  | .next answered, some (r, .call c rest refused) =>
      some { s with
        sent := s.sent ++ [{ request := r, call := c, authorization := s.header }]
        threads := Function.update s.threads l.1 (some (r, if answered then rest else refused)) }
  | _, _ => none

/-- Handler `tid` is about to call the kernel for `r`. -/
def Calling (s : Console) (tid : Nat) (r : Request) : Prop :=
  ∃ c rest refused, s.threads tid = some (r, .call c rest refused)

/-- What the next step of handler `l.1` must not do.  A borrow comes between the borrow
and a call of no other handler with another token.  The health check, which never
borrows, calls for a request without a token only, while no request with one has
borrowed. -/
def Undisturbed (s : Console) (l : Nat × Move) : Prop :=
  match s.threads l.1 with
  | some (r, .borrow _) =>
      ∀ tid other, tid ≠ l.1 → s.Calling tid other → other.route ≠ .health →
        other.bearer = r.bearer
  | some (r, .call ..) =>
      r.route = .health → r.bearer = none ∧ ∀ b ∈ s.borrowers, b.bearer = none
  | _ => True

/-- Every call so far carried the token of the request it was made for. -/
def OwnTokens (s : Console) : Prop := ∀ c ∈ s.sent, c.authorization = c.request.bearer

/-! ## The token in the client -/

variable {app : App} {s s' : Console} {l : Nat × Move}

/-- What a step can do: a request comes in or is done, a handler borrows, or it calls. -/
theorem step_cases (h : s.step app l = some s') :
    (∃ r, s.threads l.1 = none ∧
      s' = { s with threads := Function.update s.threads l.1 (some (r, app.handle r.route)) }) ∨
    (∃ r, s.threads l.1 = some (r, .finished) ∧
      s' = { s with threads := Function.update s.threads l.1 none }) ∨
    (∃ r rest, s.threads l.1 = some (r, .borrow rest) ∧
      s' = { s with
        token := bearerToken r.authorization
        borrowers := r :: s.borrowers
        threads := Function.update s.threads l.1 (some (r, rest)) }) ∨
    ∃ r c rest refused next, s.threads l.1 = some (r, .call c rest refused) ∧
      s' = { s with
        sent := s.sent ++ [{ request := r, call := c, authorization := s.header }]
        threads := Function.update s.threads l.1 (some (r, next)) } := by
  obtain ⟨tid, move⟩ := l
  cases move with
  | accept r =>
      cases hthread : s.threads tid with
      | none =>
          simp only [step, hthread] at h
          exact .inl ⟨r, rfl, (Option.some.inj h).symm⟩
      | some job => simp [step, hthread] at h
  | next answered =>
      cases hthread : s.threads tid with
      | none => simp [step, hthread] at h
      | some job =>
          obtain ⟨r, program⟩ := job
          simp only [step, hthread] at h
          cases program with
          | finished => exact .inr (.inl ⟨r, rfl, (Option.some.inj h).symm⟩)
          | borrow rest =>
              exact .inr (.inr (.inl ⟨r, rest, rfl, (Option.some.inj h).symm⟩))
          | call c rest refused =>
              exact .inr (.inr (.inr ⟨r, c, rest, refused, _, rfl, (Option.some.inj h).symm⟩))

/-- Every handler but the health check's that is about to call finds its own token in
the client. -/
def Ready (s : Console) : Prop :=
  ∀ tid r, s.Calling tid r → r.route ≠ .health → s.header = r.bearer

/-- The token in the client is that of a request that borrowed it. -/
def Lent (s : Console) : Prop := s.header = none ∨ ∃ b ∈ s.borrowers, s.header = b.bearer

theorem Calling.of_update {tid tid' : Nat} {r : Request} {job : Option (Request × Program)}
    {threads : Nat → Option (Request × Program)} {token : Option String}
    {sent : List SentCall} {borrowers : List Request}
    (h : Calling ⟨token, Function.update threads tid job, sent, borrowers⟩ tid' r) :
    (tid' = tid ∧ ∃ c rest refused, job = some (r, .call c rest refused)) ∨
      (tid' ≠ tid ∧ ∃ c rest refused, threads tid' = some (r, .call c rest refused)) := by
  obtain ⟨c, rest, refused, h⟩ := h
  by_cases htid : tid' = tid
  · subst htid
    exact .inl ⟨rfl, c, rest, refused, by simpa using h⟩
  · exact .inr ⟨htid, c, rest, refused, by simpa [Function.update_of_ne htid] using h⟩

theorem Ready.step (h : s.Ready) (hguard : s.Undisturbed l) (hstep : s.step app l = some s') :
    s'.Ready := by
  intro tid r hcalling hroute
  rcases step_cases hstep with ⟨r', _, rfl⟩ | ⟨r', _, rfl⟩ | ⟨r', rest, hthread, rfl⟩ |
    ⟨r', c, rest, refused, next, hthread, rfl⟩
  · rcases hcalling.of_update with ⟨_, c, rest, refused, hjob⟩ | ⟨_, hold⟩
    · -- a handler starts with a call at the health check only
      obtain ⟨rfl, hprogram⟩ := Prod.mk.inj (Option.some.inj hjob)
      rcases app.handle_cases r'.route with hnone | ⟨rest', hborrow⟩ | hhealth
      · simp [hprogram] at hnone
      · simp [hprogram] at hborrow
      · exact absurd hhealth hroute
    · exact h tid r hold hroute
  · rcases hcalling.of_update with ⟨_, c, rest, refused, hjob⟩ | ⟨_, hold⟩
    · cases hjob
    · exact h tid r hold hroute
  · rcases hcalling.of_update with ⟨_, c, _, refused, hjob⟩ | ⟨htid, hold⟩
    · obtain ⟨rfl, _⟩ := Prod.mk.inj (Option.some.inj hjob)
      rfl
    · simp only [Undisturbed, hthread] at hguard
      exact (hguard tid r htid hold hroute).symm
  · rcases hcalling.of_update with ⟨_, c', rest', refused', hjob⟩ | ⟨_, hold⟩
    · obtain ⟨rfl, _⟩ := Prod.mk.inj (Option.some.inj hjob)
      exact h l.1 r' ⟨c, rest, refused, hthread⟩ hroute
    · exact h tid r hold hroute

theorem Lent.step (h : s.Lent) (hstep : s.step app l = some s') : s'.Lent := by
  rcases step_cases hstep with ⟨_, _, rfl⟩ | ⟨_, _, rfl⟩ | ⟨r, _, _, rfl⟩ | ⟨_, _, _, _, _, _, rfl⟩
  · exact h
  · exact h
  · exact .inr ⟨r, by simp, rfl⟩
  · exact h

theorem OwnTokens.step (h : s.OwnTokens) (hready : s.Ready) (hlent : s.Lent)
    (hguard : s.Undisturbed l) (hstep : s.step app l = some s') : s'.OwnTokens := by
  rcases step_cases hstep with ⟨_, _, rfl⟩ | ⟨_, _, rfl⟩ | ⟨_, _, _, rfl⟩ |
    ⟨r, c, rest, refused, next, hthread, rfl⟩
  · exact h
  · exact h
  · exact h
  · have hown : s.header = r.bearer := by
      by_cases hhealth : r.route = .health
      · simp only [Undisturbed, hthread] at hguard
        obtain ⟨hbearer, hborrowers⟩ := hguard hhealth
        rw [hbearer]
        rcases hlent with hnone | ⟨b, hb, hheader⟩
        · exact hnone
        · rw [hheader, hborrowers b hb]
      · exact hready l.1 r ⟨c, rest, refused, hthread⟩ hhealth
    intro sent hmem
    rcases List.mem_append.mp hmem with hold | hnew
    · exact h sent hold
    · obtain rfl := List.mem_singleton.mp hnew
      exact hown

/-- In every interleaving in which no handler with another token borrows the client
between a handler's own borrow and its calls, and in which the health check calls only
while there is no token at all, every kernel call carries the token of its own request. -/
theorem calls_carry_own_token (app : App) (history : List (Nat × Move))
    (hguard : ∀ s l s', Takes (step app) {} history s l s' → s.Undisturbed l) :
    ∀ s, Visits (step app) {} history s → s.OwnTokens := by
  intro s hs
  have hready : Ready {} := by
    rintro tid r ⟨c, rest, refused, hthread⟩
    cases hthread
  refine ((hs.reachableBy hguard).invariant
    (P := fun s ↦ s.Ready ∧ s.Lent ∧ s.OwnTokens)
    ⟨hready, .inl rfl, by simp [OwnTokens]⟩ ?_).2.2
  rintro s l s' ⟨hready, hlent, hown⟩ hguard hstep
  exact ⟨hready.step hguard hstep, hlent.step hstep, hown.step hready hlent hguard hstep⟩

/-- A borrow that does come between sends the other handler's next call out with the
borrower's token. -/
theorem disturbed_call {tid : Nat} {r other : Request} {rest : Program} {answered : Bool}
    (hthread : s.threads l.1 = some (r, .borrow rest)) (htid : tid ≠ l.1)
    (hcalling : s.Calling tid other) (hstep : s.step app l = some s') :
    ∃ s'', s'.step app (tid, .next answered) = some s'' ∧
      ∃ call ∈ s''.sent, call.request = other ∧ call.authorization = r.bearer := by
  obtain ⟨c, restOther, refused, hother⟩ := hcalling
  rcases step_cases hstep with ⟨_, hnone, _⟩ | ⟨_, hfinished, _⟩ | ⟨r', _, hthread', rfl⟩ |
    ⟨_, _, _, _, _, hcall, _⟩
  · simp [hthread] at hnone
  · simp [hthread] at hfinished
  · obtain ⟨rfl, _⟩ := Prod.mk.inj (Option.some.inj (hthread.symm.trans hthread'))
    simp only [step, Function.update_of_ne htid, hother]
    exact ⟨_, rfl, ⟨other, c, r.bearer⟩, by simp [header, Request.bearer], rfl, rfl⟩
  · simp [hthread] at hcall

namespace Sample

def alice : Request := { authorization := some "Bearer alice", route := .run "r1" }

def bob : Request := { authorization := some "Bearer bob", route := .run "r2" }

/-- Alice and Bob read runs at the same time: both borrow, then Alice's handler
calls. -/
def interleaved : List (Nat × Move) :=
  [(0, .accept alice), (1, .accept bob), (0, .next true), (1, .next true), (0, .next true)]

/-- Two requests of Alice's run side by side; Bob's handler waits until both are done. -/
def served : List (Nat × Move) :=
  [(2, .accept { authorization := none, route := .health }), (2, .next true), (2, .next true),
    (0, .accept alice), (0, .next true), (0, .next true),
    (1, .accept { alice with route := .plugins }), (2, .accept bob), (1, .next true),
    (0, .next false), (1, .next true), (2, .next true), (2, .next false)]

/-- `Undisturbed` among the handlers below `n`. -/
def undisturbedBelow (n : Nat) (s : Console) (l : Nat × Move) : Bool :=
  match s.threads l.1 with
  | some (r, .borrow _) =>
      (List.range n).all fun tid ↦
        match s.threads tid with
        | some (other, .call ..) => tid = l.1 || other.bearer = r.bearer
        | _ => true
  | some (r, .call ..) => r.bearer = none && s.borrowers.all (·.bearer = none) ||
      match r.route with
      | .health => false
      | _ => true
  | _ => true

end Sample

/-- Only the handlers a history names have anything to do. -/
theorem threads_eq_none {n : Nat} {history : List (Nat × Move)}
    (hbelow : ∀ l ∈ history, l.1 < n) (hs : Visits (step app) {} history s) {tid : Nat}
    (htid : n ≤ tid) : s.threads tid = none := by
  refine (hs.reachableBy fun _ _ _ h ↦ hbelow _ h.mem).invariant
    (P := fun s ↦ s.threads tid = none) rfl fun s l s' hnone hl hstep ↦ ?_
  have hne : tid ≠ l.1 := by omega
  rcases step_cases hstep with ⟨_, _, rfl⟩ | ⟨_, _, rfl⟩ | ⟨_, _, _, rfl⟩ |
    ⟨_, _, _, _, _, _, rfl⟩ <;>
    simpa [Function.update_of_ne hne] using hnone

theorem undisturbed_of_below {n : Nat} {history : List (Nat × Move)}
    (hbelow : ∀ l ∈ history, l.1 < n) (hs : Visits (step app) {} history s)
    (h : Sample.undisturbedBelow n s l = true) : s.Undisturbed l := by
  unfold Undisturbed
  split
  next r rest hthread =>
    intro tid other htid ⟨c, rest', refused, hother⟩ _
    have hlt : tid < n := by
      by_contra hge
      simp [threads_eq_none hbelow hs (not_lt.mp hge)] at hother
    simp only [Sample.undisturbedBelow, hthread, List.all_eq_true, List.mem_range] at h
    simpa [hother, htid] using h tid hlt
  next r c rest refused hthread =>
    intro hhealth
    simpa [Sample.undisturbedBelow, hthread, hhealth] using h
  next => trivial

/-- All calls of such a history carry the token of their own request. -/
theorem calls_carry_own_token_served :
    ∃ s, Visits (step .runConsole) {} Sample.served s ∧ s.sent.length = 5 ∧ s.OwnTokens := by
  have hends : (run (step .runConsole) {} Sample.served).any (·.sent.length = 5) = true := by
    decide +kernel
  have hall : allSteps (step .runConsole) (Sample.undisturbedBelow 3) {} Sample.served = true := by
    decide +kernel
  have hbelow : ∀ l ∈ Sample.served, l.1 < 3 := by simp [Sample.served]
  obtain ⟨s, hs, hlength⟩ := Visits.of_any hends
  exact ⟨s, hs, by simpa using hlength, calls_carry_own_token .runConsole Sample.served
    (fun _ _ _ h ↦ undisturbed_of_below hbelow h.visits_left (h.of_allSteps hall)) s hs⟩

theorem call_carries_another_callers_token :
    ∃ s call, Visits (step .runConsole) {} Sample.interleaved s ∧ call ∈ s.sent ∧
      call.request.bearer = some "alice" ∧ call.authorization = some "bob" := by
  have hends : (run (step .runConsole) {} Sample.interleaved).any (fun s ↦
      s.sent.any fun call ↦
        call.request.bearer = some "alice" && call.authorization = some "bob") = true := by
    decide +kernel
  obtain ⟨s, hs, hany⟩ := Visits.of_any hends
  obtain ⟨call, hcall, htokens⟩ := List.any_eq_true.mp hany
  obtain ⟨halice, hbob⟩ : call.request.bearer = some "alice" ∧ call.authorization = some "bob" := by
    simpa using htokens
  exact ⟨s, call, hs, hcall, halice, hbob⟩

end Console

end ChipEvolve.Apps
