import ChipEvolve.Gateway.Identity
import ChipEvolve.Machine
import ChipEvolve.Runtime.Submission

/-!
# Runs over HTTP

`KernelApi.submit_run` (`kernel_api.py`) with the authentication in front of it,
and a server's histories: the calls of `IdentityStore`, the requests for runs,
and whatever else happens to the stores of the runtime in between.
-/

namespace ChipEvolve.Gateway

open Apps (bearerToken)
open Identity Machine

/-! ## Requests -/

structure HttpError where
  status : Nat
  message : String

/-- The body of a request as far as `TaskSpec.from_dict` reads it. -/
inductive RunBody where
  | notObject
  | withoutTask
  | malformed (message : String)
  | names (task : TaskSpec)

/-- A `POST /kernel/runs`, with the host it meets, the ids it generates and the time. -/
structure RunRequest where
  authorization : Option String
  body : RunBody
  idempotent : Option String := none
  idempotencyKey : Option String := none
  host : Host
  newId : Nat → String
  runId : RunId
  stageRunId : StageRunId
  now : Timestamp

def RunBody.decode : RunBody → Except HttpError TaskSpec
  | .notObject => .error ⟨400, "request body must be a JSON object"⟩
  | .withoutTask => .error ⟨400, "body must contain a task object"⟩
  | .malformed message => .error ⟨400, message⟩
  | .names task =>
      match task.validate with
      | .ok () => .ok task
      | .error message => .error ⟨400, message⟩

/-- Whether a query parameter is given and not empty. -/
def given (parameter : Option String) : Bool := parameter.getD "" ≠ ""

/-- The answer to an exception of `submit`; one that nobody handles is a 500. -/
def refusal (idempotencyKey : Option String) : RuntimeError → HttpError
  | .value message => ⟨400, message⟩
  | .limitsUnsupported message => ⟨400, message⟩
  | .inputStaging message => ⟨400, message⟩
  | .contract message => ⟨400, message⟩
  | .resolver message => ⟨400, message⟩
  | .os message => ⟨500, "OSError: " ++ message⟩
  | .store (.contract message) => ⟨400, message⟩
  | .store (.runtimeStore message) => ⟨if given idempotencyKey then 409 else 500, message⟩
  | .store (.invalidTransition message) => ⟨if given idempotencyKey then 409 else 500, message⟩
  | .store e => ⟨500, e.describe⟩

/-! ## The handler -/

/-- The run that owns an artifact. -/
def artifactRunId? (k : Kernel) (artifactId : String) : Option RunId := do
  let artifact ← k.depot.artifact? artifactId
  let attempt ← k.tables.attempt? artifact.attemptId
  let stage ← k.tables.stage? attempt.stageRunId
  return stage.runId

/-- The handlers of a server, on a machine with no more cores and bytes than a `float` counts. -/
structure KernelApi where
  platform : Platform
  allowAnonymous : Bool := false
  localUserId : Option String := none
  budgeted : ∃ budgets, platform.cfg.explainedBudgets = .ok budgets

/-- The databases of the server. -/
structure Server where
  accounts : Accounts := {}
  kernel : Kernel := {}

/-- What happens to the databases; `runtime` stands for any other change of the runtime's. -/
inductive ServerEvent where
  | register (c : Credentials) (d : Draws)
  | login (c : Credentials) (d : Draws)
  | resolve (token : String) (now : Timestamp)
  | logout (token : String)
  | ensureLocalUser (d : Draws)
  | bindResource (resourceType resourceId userId : String) (now : Timestamp)
  | post (r : RunRequest)
  | runtime (k : Kernel)

namespace KernelApi

variable (api : KernelApi) (H : Bytes → String)

/-- `session.user_id if session else self.local_user_id` -/
def owner (session : Option AuthSession) : Option String :=
  match session with
  | some session => some session.userId
  | none => api.localUserId

def authenticate (authorization : Option String) (now : Timestamp) (a : Accounts) :
    Option AuthSession × Accounts :=
  let resolved := a.resolve H ((bearerToken authorization).getD "") now
  match resolved.1 with
  | some session => (some session, resolved.2)
  | none =>
      if api.allowAnonymous && given api.localUserId then
        (some { userId := api.localUserId.getD "", username := localUser, developer := true,
                sessionId := "session-local" }, resolved.2)
      else (none, resolved.2)

/-- `_require_ownership` -/
def requireOwnership (a : Accounts) (session : Option AuthSession)
    (resourceType resourceId : String) : Except HttpError Unit :=
  match api.owner session with
  | none => .ok ()
  | some owner =>
      if (a.ownerOf resourceType resourceId).isNone && !session.any AuthSession.developer then
        .error ⟨404, resourceType ++ " not found"⟩
      else if a.ownsResource resourceType resourceId owner true then .ok ()
      else .error ⟨404, resourceType ++ " not found"⟩

/-- `source is not None`, with a session, a file as the source is written, another name than that
of the shared identity, and no roots. -/
def refusesSource (host : Host) (session : Option AuthSession) (source : Option String) : Bool :=
  source.any host.isFile && session.any (·.username ≠ localUser) &&
    api.platform.allowedInputRoots.isEmpty

def checkDeclaration (host : Host) (session : Option AuthSession) (s : Server) (i : InputFile) :
    Except HttpError Unit := do
  if api.refusesSource host session i.source then
    throw ⟨400, "shared sessions must upload inputs or configure --input-root"⟩
  match i.inputId with
  | some inputId => api.requireOwnership s.accounts session "input" inputId
  | none => pure ()
  match i.artifactId with
  | some artifactId =>
      match artifactRunId? s.kernel artifactId with
      | some runId => api.requireOwnership s.accounts session "run" runId
      | none => throw ⟨400, "no such artifact: " ++ quoted artifactId⟩
  | none => pure ()

/-- The call of the runtime. -/
def submission (r : RunRequest) (task : TaskSpec) : SubmitCall where
  task := task
  idempotencyKey := if given r.idempotent || given r.idempotencyKey then r.idempotencyKey else none
  newId := r.newId
  runId := r.runId
  stageRunId := r.stageRunId
  now := r.now

def submit (r : RunRequest) (task : TaskSpec) (k : Kernel) : Except RuntimeError RunRow × Kernel :=
  if given r.idempotent || given r.idempotencyKey then
    api.platform.submitIdempotent H r.host (submission r task) k
  else api.platform.submit H r.host (submission r task) k

def bindResources (owner : String) (now : Timestamp) :
    List (String × String) → Accounts → Except IdentityError Unit × Accounts
  | [], a => (.ok (), a)
  | (resourceType, resourceId) :: rest, a =>
      match a.bindResource resourceType resourceId owner now with
      | (.ok (), a) => bindResources owner now rest a
      | (.error e, a) => (.error e, a)

/-- The run and the inputs of its task, the frozen ones among them. -/
def boundResources (run : RunRow) : List (String × String) :=
  ("run", run.runId) ::
    (run.taskSpec.stagedInputs.filterMap InputFile.inputId).map fun inputId ↦ ("input", inputId)

def bindRun (session : Option AuthSession) (now : Timestamp) (run : RunRow) (s : Server) :
    Except HttpError RunRow × Server :=
  match (api.owner session).filter (· ≠ "") with
  | none => (.ok run, s)
  | some owner =>
      match bindResources owner now (boundResources run) s.accounts with
      | (.ok (), a) => (.ok run, { s with accounts := a })
      | (.error e, a) => (.error ⟨500, e.describe⟩, { s with accounts := a })

def submitRun (session : Option AuthSession) (r : RunRequest) (s : Server) :
    Except HttpError RunRow × Server :=
  match r.body.decode with
  | .error e => (.error e, s)
  | .ok task =>
      match task.stagedInputs.forM (api.checkDeclaration r.host session s) with
      | .error e => (.error e, s)
      | .ok () =>
          match api.submit H r task s.kernel with
          | (.error e, k) => (.error (refusal r.idempotencyKey e), { s with kernel := k })
          | (.ok run, k) => api.bindRun session r.now run { s with kernel := k }

/-- `_guarded`: the route is not public. -/
def post (r : RunRequest) (s : Server) : Except HttpError RunRow × Server :=
  match api.authenticate H r.authorization r.now s.accounts with
  | (none, a) => (.error ⟨401, "authentication required"⟩, { s with accounts := a })
  | (some session, a) => api.submitRun H (some session) r { s with accounts := a }

/-! ## Histories of a server -/

variable (derive : String → Bytes → Nat → Bytes)

/-- The server after an event. -/
def after (s : Server) : ServerEvent → Server
  | .register c d => { s with accounts := (s.accounts.register H derive c d).2 }
  | .login c d => { s with accounts := (s.accounts.login H derive c d).2 }
  | .resolve token now => { s with accounts := (s.accounts.resolve H token now).2 }
  | .logout token => { s with accounts := s.accounts.logout H token }
  | .ensureLocalUser d => { s with accounts := (s.accounts.ensureLocalUser d).2 }
  | .bindResource resourceType resourceId userId now =>
      { s with accounts := (s.accounts.bindResource resourceType resourceId userId now).2 }
  | .post r => (api.post H r s).2
  | .runtime k => { s with kernel := k }

/-- Every event is possible at any time. -/
def step (s : Server) (e : ServerEvent) : Option Server := some (api.after H derive s e)

/-- No event opens an account under the name of the shared identity. -/
def Reserves (s : Server) : ServerEvent → Prop
  | .register c _ => ¬s.accounts.opensLocalUser c
  | _ => True

/-! ## The accounts of a server -/

variable {api H derive}

theorem bindResources_guarded {owner : String} {now : Timestamp}
    {resources : List (String × String)} {a : Accounts} (h : a.Guarded) :
    (bindResources owner now resources a).2.Guarded := by
  induction resources generalizing a with
  | nil => exact h
  | cons resource rest ih =>
      have hbind := h.bindResource resource.1 resource.2 owner now
      unfold bindResources
      split
      · next heq =>
          rw [heq] at hbind
          exact ih hbind
      · next heq =>
          rw [heq] at hbind
          exact hbind

theorem bindRun_guarded {session : Option AuthSession} {now : Timestamp} {run : RunRow}
    {s : Server} (h : s.accounts.Guarded) :
    (api.bindRun session now run s).2.accounts.Guarded := by
  unfold bindRun
  cases (api.owner session).filter (· ≠ "") with
  | none => exact h
  | some owner =>
      have hbound : (bindResources owner now (boundResources run) s.accounts).2.Guarded :=
        bindResources_guarded h
      simp only
      split
      · next heq => rwa [heq] at hbound
      · next heq => rwa [heq] at hbound

theorem submitRun_guarded {session : Option AuthSession} {r : RunRequest} {s : Server}
    (h : s.accounts.Guarded) : (api.submitRun H session r s).2.accounts.Guarded := by
  unfold submitRun
  split
  · exact h
  split
  · exact h
  split
  · exact h
  · exact bindRun_guarded h

theorem authenticate_guarded {authorization : Option String} {now : Timestamp} {a : Accounts}
    (h : a.Guarded) : (api.authenticate H authorization now a).2.Guarded := by
  have hresolve := h.resolve (H := H) ((bearerToken authorization).getD "") now
  unfold authenticate
  simp only
  split
  · exact hresolve
  · split <;> exact hresolve

theorem post_guarded {r : RunRequest} {s : Server} (h : s.accounts.Guarded) :
    (api.post H r s).2.accounts.Guarded := by
  have hauthenticate : (api.authenticate H r.authorization r.now s.accounts).2.Guarded :=
    authenticate_guarded h
  unfold post
  split
  · next heq => rwa [heq] at hauthenticate
  · next heq =>
      rw [heq] at hauthenticate
      exact submitRun_guarded hauthenticate

theorem after_guarded (hderive : ∀ password salt n, derive password salt n ≠ []) {s : Server}
    {e : ServerEvent} (h : s.accounts.Guarded) (hreserves : Reserves s e) :
    (api.after H derive s e).accounts.Guarded := by
  cases e with
  | register c d => exact h.register d hreserves
  | login c d => exact h.login hderive c d
  | resolve token now => exact h.resolve token now
  | logout token => exact h.logout token
  | ensureLocalUser d => exact h.ensureLocalUser d
  | bindResource resourceType resourceId userId now =>
      exact h.bindResource resourceType resourceId userId now
  | post r => exact post_guarded h
  | runtime k => exact h

/-! ## Requests that name a host file -/

end KernelApi

/-- The path names a regular file, as it is written or after it is resolved. -/
def NamesFile (host : Host) (path : String) : Prop :=
  host.isFile path = true ∨ ∃ resolved, host.resolve path = .ok resolved ∧ (host.file resolved).isSome

namespace RunRequest

def NamesHostFile (r : RunRequest) : Prop :=
  ∃ task path, r.body = .names task ∧ some path ∈ task.stagedInputs.map InputFile.source ∧
    NamesFile r.host path

/-- A source is a file as it is written. -/
def NamesWrittenFile (r : RunRequest) : Prop :=
  ∃ task path, r.body = .names task ∧ some path ∈ task.stagedInputs.map InputFile.source ∧
    r.host.isFile path = true

end RunRequest

namespace KernelApi

variable {api : KernelApi} {H : Bytes → String} {derive : String → Bytes → Nat → Bytes}

theorem checkDeclaration_refuses {host : Host} {session : AuthSession} {s : Server}
    {i : InputFile} {path : String} (hroots : api.platform.allowedInputRoots = [])
    (hname : session.username ≠ localUser) (hsource : i.source = some path)
    (hfile : host.isFile path = true) :
    api.checkDeclaration host (some session) s i ≠ .ok () := by
  have hrefuses : api.refusesSource host (some session) i.source = true := by
    simp [refusesSource, hsource, hfile, hname, hroots]
  unfold checkDeclaration
  rw [if_pos hrefuses]
  intro h
  cases h

/-- A session of another name is refused a source that is a file as it is written. -/
theorem submitRun_refuses {session : AuthSession} {r : RunRequest} {s : Server}
    (hroots : api.platform.allowedInputRoots = []) (hname : session.username ≠ localUser)
    (hwritten : r.NamesWrittenFile) : ∃ e, api.submitRun H (some session) r s = (.error e, s) := by
  obtain ⟨task, path, hbody, hsource, hfile⟩ := hwritten
  unfold submitRun
  cases hdecode : r.body.decode with
  | error e => exact ⟨e, rfl⟩
  | ok decoded =>
      have hsame : decoded = task := by
        rw [hbody, RunBody.decode] at hdecode
        split at hdecode
        · exact (Except.ok.inj hdecode).symm
        · cases hdecode
      subst hsame
      simp only
      cases hloop : decoded.stagedInputs.forM (api.checkDeclaration r.host (some session) s) with
      | error e => exact ⟨e, rfl⟩
      | ok u =>
          obtain ⟨i, hi, hsource⟩ := List.mem_map.mp hsource
          exact absurd (Except.forM_eq_ok.mp hloop i hi)
            (checkDeclaration_refuses hroots hname hsource hfile)

/-- The session that a request is handled for has not the name of the shared identity. -/
def OfAnotherName (api : KernelApi) (H : Bytes → String) (r : RunRequest) (s : Server) : Prop :=
  ∀ session, (api.authenticate H r.authorization r.now s.accounts).1 = some session →
    session.username ≠ localUser

/-- With authentication, a session is one that the identity store resolves. -/
theorem resolve_of_authenticate {authorization : Option String} {now : Timestamp} {a : Accounts}
    {session : AuthSession} (hauth : api.allowAnonymous = false)
    (hsession : (api.authenticate H authorization now a).1 = some session) :
    (a.resolve H ((bearerToken authorization).getD "") now).1 = some session := by
  unfold authenticate at hsession
  simp only [hauth, Bool.false_and, Bool.false_eq_true, if_false] at hsession
  split at hsession
  · next heq => exact heq.trans hsession
  · cases hsession

theorem post_refuses {r : RunRequest} {s : Server} (hroots : api.platform.allowedInputRoots = [])
    (hwritten : r.NamesWrittenFile) (hname : api.OfAnotherName H r s) :
    ∃ e a, api.post H r s = (.error e, { s with accounts := a }) := by
  unfold post
  cases hsession : (api.authenticate H r.authorization r.now s.accounts).1 with
  | none => exact ⟨_, _, by rw [← Prod.eta (api.authenticate _ _ _ _), hsession]⟩
  | some session =>
      obtain ⟨e, hrefused⟩ := submitRun_refuses (H := H) hroots (hname session hsession) hwritten
        (s := { s with accounts := (api.authenticate H r.authorization r.now s.accounts).2 })
      exact ⟨e, _, by rw [← Prod.eta (api.authenticate _ _ _ _), hsession]; exact hrefused⟩

/-- On a server with authentication and without input roots, a request for a run of which a source
is a file as it is written fails and leaves the runtime as it was, in every history, unless its
session has the name of the shared identity; and no session has this name before somebody opens an
account under it. -/
theorem shared_session_refused (hauth : api.allowAnonymous = false)
    (hroots : api.platform.allowedInputRoots = [])
    (hderive : ∀ password salt n, derive password salt n ≠ []) {history : List ServerEvent}
    {s s' : Server} {r : RunRequest} (htakes : Takes (api.step H derive) {} history s (.post r) s')
    (hwritten : r.NamesWrittenFile) :
    (api.OfAnotherName H r s → (∃ e, (api.post H r s).1 = .error e) ∧ s'.kernel = s.kernel) ∧
      ((∀ s e s', Takes (api.step H derive) {} history s e s' → Reserves s e) →
        api.OfAnotherName H r s) := by
  constructor
  · intro hname
    obtain rfl := Option.some.inj htakes.step_eq
    obtain ⟨e, a, hpost⟩ := post_refuses hroots hwritten hname
    exact ⟨⟨e, by rw [hpost]⟩, by rw [after, hpost]⟩
  · intro hreserves session hsession
    have hguarded : s.accounts.Guarded :=
      (htakes.visits_left.reachableBy hreserves).invariant (P := fun s ↦ s.accounts.Guarded)
        Accounts.Guarded.empty fun _ _ _ h hguard hstep ↦
          Option.some.inj hstep ▸ after_guarded hderive h hguard
    exact hguarded.username_of_resolve (resolve_of_authenticate hauth hsession)

end KernelApi

/-! ## Two sources that are frozen -/

namespace Sample

def api : KernelApi := { platform := ChipEvolve.Sample.platform, budgeted := ⟨_, rfl⟩ }

/-- A host with one file, which a path through a missing directory resolves to. -/
def host : Host where
  isFile path := path = "/etc/secret"
  resolve path := .ok (if path = "/missing/../etc/secret" then "/etc/secret" else path)
  file path := if path = "/etc/secret" then some (.ok [97]) else none

def request (source : String) : RunRequest where
  authorization := some "Bearer token"
  body := .names (ChipEvolve.Sample.call [{ destination := "a", source := some source }]).task
  host := host
  newId := fun _ ↦ "input-1"
  runId := "run"
  stageRunId := "stage"
  now := 0

def hash : Bytes → String :=
  ChipEvolve.Sample.hash [JsonText.utf8 (JsonText.array ManifestEntry.text
    [{ destination := "a", present := true, sha256 := some "ha", sizeBytes := 1 }])]

def derive (password : String) (salt : Bytes) (_ : Nat) : Bytes :=
  1 :: JsonText.utf8 password.toList ++ salt

def registration (username : String) : ServerEvent :=
  .register { username := username, password := "password" }
    { userId := "user-1", token := "token", sessionId := "session-1" }

/-- The one user of a server freezes the file that a source names. -/
def Freezes (username source : String) : Prop :=
  ∃ s s', Takes (api.step hash derive) {} [registration username, .post (request source)] s
      (.post (request source)) s' ∧
    (request source).NamesHostFile ∧ (api.post hash (request source) s).1.toOption.isSome ∧
    s.kernel.depot.objects (hash [97]) = none ∧ s'.kernel.depot.objects (hash [97]) = some [97]

theorem freezes {username source : String} (hnamed : (request source).NamesHostFile)
    (h : (run (api.step hash derive) {} [registration username]).any (fun s ↦
      ((api.post hash (request source) s).1.toOption.isSome &&
        (s.kernel.depot.objects (hash [97]) = none : Bool) &&
        ((api.post hash (request source) s).2.kernel.depot.objects (hash [97]) = some [97] : Bool)) &&
        (api.step hash derive s (.post (request source))).isSome) = true) :
    Freezes username source := by
  obtain ⟨s, s', htakes, hp⟩ := Takes.of_any h
  simp only [Bool.and_eq_true, decide_eq_true_eq] at hp
  obtain ⟨⟨haccepted, hbefore⟩, hafter⟩ := hp
  refine ⟨s, s', htakes, hnamed, haccepted, hbefore, ?_⟩
  rw [← Option.some.inj htakes.step_eq]
  exact hafter

end Sample

/-- The account name `local-user` is free to register, and a path through a missing directory is
no file as it is written: both sources are frozen. -/
theorem named_host_files_frozen :
    Function.Injective Sample.hash ∧ Sample.Freezes "local-user" "/etc/secret" ∧
      Sample.Freezes "alice" "/missing/../etc/secret" := by
  refine ⟨ChipEvolve.Sample.hash_injective _, ?_, ?_⟩
  · exact Sample.freezes ⟨_, "/etc/secret", rfl, by simp [ChipEvolve.Sample.call], .inl rfl⟩
      (by decide +kernel)
  · exact Sample.freezes ⟨_, "/missing/../etc/secret", rfl, by simp [ChipEvolve.Sample.call],
      .inr ⟨_, rfl, rfl⟩⟩ (by decide +kernel)

theorem shared_session_refused_sample :
    ∃ s s', Takes (Sample.api.step Sample.hash Sample.derive) {}
        [Sample.registration "alice", .post (Sample.request "/etc/secret")] s
        (.post (Sample.request "/etc/secret")) s' ∧
      (∃ e, (Sample.api.post Sample.hash (Sample.request "/etc/secret") s).1 = .error e) ∧
      s'.kernel = s.kernel := by
  obtain ⟨s, s', htakes, _⟩ : ∃ s s', Takes (Sample.api.step Sample.hash Sample.derive) {}
      ([Sample.registration "alice"] ++ [.post (Sample.request "/etc/secret")]) s
      (.post (Sample.request "/etc/secret")) s' ∧ (fun _ ↦ true) s = true := Takes.of_any rfl
  obtain ⟨hrefused, hname⟩ := KernelApi.shared_session_refused rfl rfl (by simp [Sample.derive])
    htakes ⟨_, "/etc/secret", rfl, by simp [ChipEvolve.Sample.call], rfl⟩
  refine ⟨s, s', htakes, hrefused (hname fun s e s' htakes ↦ ?_)⟩
  have hmem := htakes.mem
  simp only [List.cons_append, List.nil_append, List.mem_cons, List.not_mem_nil, or_false] at hmem
  rcases hmem with rfl | rfl
  · rintro ⟨hname, _⟩
    exact absurd hname (by decide +kernel)
  · trivial

end ChipEvolve.Gateway
