import ChipEvolve.Gateway.Reads
import ChipEvolve.Runtime.Sharing

/-!
# One request, two servers

`POST /kernel/runs` (`kernel_api.py`) on two servers on which its caller has the same runs,
inputs and artifacts.  What others have enters the answer in three places: the figures of the
machine, the runs that a key or a task id is looked up among, and the artifact ids that are
somebody's.
-/

namespace ChipEvolve.Identity.Accounts

variable {a a' : Accounts} {resourceType resourceId userId : String}

/-! ## Owners -/

theorem ownerOf_eq (h : a.owners = a'.owners) : a.ownerOf = a'.ownerOf := by
  funext resourceType resourceId
  unfold ownerOf
  rw [h]

theorem mem_resourcesOwned (h : a.ownerOf resourceType resourceId = some userId) :
    resourceId ∈ a.resourcesOwned resourceType userId := by
  unfold ownerOf at h
  obtain ⟨row, hrow, rfl⟩ := Option.map_eq_some_iff.mp h
  have hfound := List.find?_some hrow
  obtain ⟨htype, hid⟩ := Bool.and_eq_true_iff.mp hfound
  refine List.mem_map.mpr ⟨row, List.mem_filter.mpr ⟨List.mem_of_find?_eq_some hrow, ?_⟩, ?_⟩
  · simpa using of_decide_eq_true htype
  · exact of_decide_eq_true hid

theorem ownerOf_append {rows : List OwnerRow} :
    ownerOf { a with owners := a.owners ++ rows } resourceType resourceId =
      (a.ownerOf resourceType resourceId).or
        (ownerOf { a with owners := rows } resourceType resourceId) := by
  unfold ownerOf
  rw [List.find?_append, Option.map_or]

/-- Where the owner is the same, and the user is known to both or to neither, binding answers
alike, and keeps the owners alike that are. -/
theorem bindResource_alike (now : Timestamp)
    (howner : a.ownerOf resourceType resourceId = a'.ownerOf resourceType resourceId)
    (huser : (a.user? userId).isNone = (a'.user? userId).isNone) :
    (a.bindResource resourceType resourceId userId now).1 =
        (a'.bindResource resourceType resourceId userId now).1 ∧
      (∀ type id, a.ownerOf type id = a'.ownerOf type id →
        (a.bindResource resourceType resourceId userId now).2.ownerOf type id =
          (a'.bindResource resourceType resourceId userId now).2.ownerOf type id) ∧
      (a.bindResource resourceType resourceId userId now).2.users = a.users ∧
        (a'.bindResource resourceType resourceId userId now).2.users = a'.users := by
  unfold bindResource
  rw [← howner, ← huser]
  split
  · exact ⟨rfl, fun _ _ h ↦ h, rfl, rfl⟩
  split
  · exact ⟨rfl, fun _ _ h ↦ h, rfl, rfl⟩
  cases a.ownerOf resourceType resourceId with
  | some owner =>
      dsimp only
      split <;> exact ⟨rfl, fun _ _ h ↦ h, rfl, rfl⟩
  | none =>
      dsimp only
      split
      · exact ⟨rfl, fun _ _ h ↦ h, rfl, rfl⟩
      · refine ⟨rfl, fun type id h ↦ ?_, rfl, rfl⟩
        rw [ownerOf_append, ownerOf_append, h]
        rfl

end ChipEvolve.Identity.Accounts

namespace ChipEvolve.Gateway

open Identity Provenance

/-! ## The answer to a submission -/

namespace Backend

def server (b : Backend) : Server :=
  { accounts := b.accounts, kernel := { depot := b.records.depot, tables := b.records.tables } }

/-- The backend with the accounts, the tables and the depot that a request left. -/
def withServer (b : Backend) (s : Server) : Backend :=
  { accounts := s.accounts
    records := { b.records with
      system := { b.records.system with tables := s.kernel.tables }
      depot := s.kernel.depot } }

end Backend

namespace KernelApi

variable (api : KernelApi) (H : Bytes → String)

/-- What a `POST /kernel/runs` is answered: a refusal, or the run with status 201. -/
def submitted (r : RunRequest) (b : Backend) : Except HttpError RunNode :=
  match api.post H r b.server with
  | (.error e, _) => .error e
  | (.ok run, s) =>
      (api.runDetail (b.withServer s).records.totals (b.withServer s) run.runId).mapError
        (refused none none)

/-- The call of `submit` or of `submit_idempotent`. -/
def call (r : RunRequest) (task : TaskSpec) : SubmitCall :=
  { submission r task with idempotent := given r.idempotent || given r.idempotencyKey }

theorem submit_eq (r : RunRequest) (task : TaskSpec) (k : Kernel) :
    api.submit H r task k = api.platform.submit H r.host (call r task) k := by
  unfold submit call
  split
  · next hidempotent => rw [hidempotent]; rfl
  · next hplain => rw [Bool.eq_false_iff.mpr hplain]; rfl

end KernelApi

/-! ## What two servers share -/

/-- The ids that the depots of two servers, and the owners of their inputs, agree on. -/
def Backend.agreed (b b' : Backend) : Known where
  inputs id := b.records.depot.uploadedInput? id = b'.records.depot.uploadedInput? id ∧
    b.accounts.ownerOf "input" id = b'.accounts.ownerOf "input" id
  artifacts id := b.records.depot.artifact? id = b'.records.depot.artifact? id ∧
    ∀ row, b.records.depot.artifact? id = some row →
      b.records.depot.artifactFile row = b'.records.depot.artifactFile row

/-- The user has the same runs, inputs and artifacts on both servers. -/
structure Backend.Shares (userId : String) (b b' : Backend) : Prop
    extends Backend.Agrees userId b b' where
  inputs : ∀ id, b.accounts.ownerOf "input" id = some userId →
    b.records.depot.uploadedInput? id = b'.records.depot.uploadedInput? id
  artifacts : ∀ id runId, b.accounts.ownerOf "run" runId = some userId →
    (artifactRunId? b.server.kernel id = some runId ↔
      artifactRunId? b'.server.kernel id = some runId) ∧
    (artifactRunId? b.server.kernel id = some runId → (b.agreed b').artifacts id)
  tasks : ∀ run ∈ b.records.tables.runs, b.accounts.ownerOf "run" run.runId = some userId →
    ∀ i ∈ run.taskSpec.stagedInputs, (b.agreed b').Names i

/-- The ids that a request generates are new to the server. -/
structure RunRequest.Draws (r : RunRequest) (b : Backend) : Prop where
  lacks : b.records.tables.Lacks r.runId r.stageRunId
  run : b.accounts.ownerOf "run" r.runId = none
  upload : ∀ index, b.records.depot.uploadedInput? (r.newId index) = none
  input : ∀ index, b.accounts.ownerOf "input" (r.newId index) = none

/-- The run that the key or the task id of a request is found under, if any, is the user's. -/
def RunRequest.FindsOwn (r : RunRequest) (userId : String) (b : Backend) : Prop :=
  ∀ task run, r.body = .names task →
    (KernelApi.call r task).existing? b.records.tables = some run →
      b.accounts.ownerOf "run" run.runId = some userId

/-- The artifact ids that a request names are known to both servers or to neither. -/
def RunRequest.NamesAlike (r : RunRequest) (b b' : Backend) : Prop :=
  ∀ task, r.body = .names task → ∀ i ∈ task.stagedInputs, ∀ id, i.artifactId = some id →
    (artifactRunId? b.server.kernel id = none ↔ artifactRunId? b'.server.kernel id = none)

theorem RunBody.eq_names_of_decode {body : RunBody} {task : TaskSpec}
    (h : body.decode = .ok task) : body = .names task := by
  unfold decode at h
  cases body with
  | names named =>
      dsimp only at h
      split at h
      · rw [Except.ok.inj h]
      · cases h
  | _ => cases h

/-! ## The handler on both -/

namespace KernelApi

variable {api : KernelApi} {H : Bytes → String} {b b' : Backend} {session : AuthSession}

theorem bindResources_alike {owner : String} (now : Timestamp)
    {resources : List (String × String)} {a a' : Accounts}
    (howners : ∀ p ∈ resources, a.ownerOf p.1 p.2 = a'.ownerOf p.1 p.2)
    (huser : (a.user? owner).isNone = (a'.user? owner).isNone) :
    (bindResources owner now resources a).1 = (bindResources owner now resources a').1 := by
  induction resources generalizing a a' with
  | nil => rfl
  | cons p rest ih =>
      rw [List.forall_mem_cons] at howners
      obtain ⟨hresult, hkept, husers, husers'⟩ :=
        Accounts.bindResource_alike now howners.1 huser
      unfold bindResources
      rcases hbound : a.bindResource p.1 p.2 owner now with ⟨result, bound⟩
      rcases hbound' : a'.bindResource p.1 p.2 owner now with ⟨result', bound'⟩
      rw [hbound, hbound'] at hresult hkept
      rw [hbound] at husers
      rw [hbound'] at husers'
      obtain rfl : result = result' := hresult
      cases result with
      | error e => rfl
      | ok =>
          refine ih (fun q hq ↦ hkept _ _ (howners.2 q hq)) ?_
          unfold Accounts.user? at huser ⊢
          rw [show bound.users = a.users from husers, show bound'.users = a'.users from husers']
          exact huser

/-! ### The declarations -/

/-- The check of an input id. -/
def inputAllowed (api : KernelApi) (session : AuthSession) (s : Server) (i : InputFile) :
    Except HttpError Unit :=
  match i.inputId with
  | some id => api.requireOwnership s.accounts (some session) "input" id
  | none => .ok ()

/-- The check of an artifact id. -/
def artifactAllowed (api : KernelApi) (session : AuthSession) (s : Server) (i : InputFile) :
    Except HttpError Unit :=
  match i.artifactId with
  | some id =>
      match artifactRunId? s.kernel id with
      | some runId => api.requireOwnership s.accounts (some session) "run" runId
      | none => .error ⟨400, "no such artifact: " ++ quoted id⟩
  | none => .ok ()

theorem checkDeclaration_eq {host : Host} {s : Server} {i : InputFile} :
    api.checkDeclaration host (some session) s i =
      if api.refusesSource host (some session) i.source = true then
        .error ⟨400, "shared sessions must upload inputs or configure --input-root"⟩
      else api.inputAllowed session s i >>= fun _ ↦ api.artifactAllowed session s i := by
  unfold checkDeclaration inputAllowed artifactAllowed
  cases api.refusesSource host (some session) i.source <;> cases i.inputId <;>
    cases i.artifactId <;> rfl

section Declarations

variable (hmember : Member session b.accounts) (hmember' : Member session b'.accounts)
  (hshares : b.Shares session.userId b')

include hmember hmember' hshares

theorem inputAllowed_alike (i : InputFile) :
    api.inputAllowed session b.server i = api.inputAllowed session b'.server i := by
  unfold inputAllowed
  cases i.inputId with
  | none => rfl
  | some id => exact requireOwnership_agrees hmember hmember' hshares.toAgrees "input" id

/-- An artifact is the user's on both servers, or somebody's on both, or nobody's. -/
theorem artifactAllowed_alike {i : InputFile}
    (hknown : ∀ id, i.artifactId = some id → (artifactRunId? b.server.kernel id = none ↔
      artifactRunId? b'.server.kernel id = none)) :
    api.artifactAllowed session b.server i = api.artifactAllowed session b'.server i := by
  unfold artifactAllowed
  cases hid : i.artifactId with
  | none => rfl
  | some id =>
      have hown : ∀ runId, b.accounts.ownerOf "run" runId = some session.userId →
          (artifactRunId? b.server.kernel id = some runId ↔
            artifactRunId? b'.server.kernel id = some runId) :=
        fun runId h ↦ (hshares.artifacts id runId h).1
      dsimp only
      cases hrun : artifactRunId? b.server.kernel id with
      | none => rw [(hknown id hid).mp hrun]
      | some runId =>
          cases hrun' : artifactRunId? b'.server.kernel id with
          | none => rw [(hknown id hid).mpr hrun'] at hrun; cases hrun
          | some runId' =>
              dsimp only [Backend.server]
              rw [requireOwnership_member hmember, requireOwnership_member hmember']
              by_cases howned : b.accounts.ownerOf "run" runId = some session.userId
              · obtain rfl := Option.some.inj (hrun'.symm.trans ((hown runId howned).mp hrun))
                rw [if_pos howned, if_pos ((hshares.owns "run" runId').mp howned)]
              · rw [if_neg howned, if_neg fun howned' ↦ ?_]
                have howned' := (hshares.owns "run" runId').mpr howned'
                obtain rfl := Option.some.inj (hrun.symm.trans ((hown runId' howned').mpr hrun'))
                exact howned howned'

omit hmember' in
/-- What passes the checks is the same on both servers. -/
theorem names_of_allowed {i : InputFile} (hinput : api.inputAllowed session b.server i = .ok ())
    (hartifact : api.artifactAllowed session b.server i = .ok ()) : (b.agreed b').Names i := by
  refine ⟨fun id hid ↦ ?_, fun id hid ↦ ?_⟩
  · simp only [inputAllowed, hid, Backend.server] at hinput
    rw [requireOwnership_member hmember] at hinput
    split at hinput
    · next howned =>
        exact ⟨hshares.inputs id howned, howned.trans ((hshares.owns "input" id).mp howned).symm⟩
    · cases hinput
  · simp only [artifactAllowed, hid] at hartifact
    cases hrun : artifactRunId? b.server.kernel id with
    | none => rw [hrun] at hartifact; cases hartifact
    | some runId =>
        rw [hrun] at hartifact
        dsimp only [Backend.server] at hartifact
        rw [requireOwnership_member hmember] at hartifact
        split at hartifact
        · next howned => exact (hshares.artifacts id runId howned).2 hrun
        · cases hartifact

variable (api) in
theorem checkDeclarations_alike (host : Host) {inputs : List InputFile}
    (hknown : ∀ i ∈ inputs, ∀ id, i.artifactId = some id →
      (artifactRunId? b.server.kernel id = none ↔ artifactRunId? b'.server.kernel id = none)) :
    inputs.forM (api.checkDeclaration host (some session) b.server) =
        inputs.forM (api.checkDeclaration host (some session) b'.server) ∧
      (inputs.forM (api.checkDeclaration host (some session) b.server) = .ok () →
        ∀ i ∈ inputs, (b.agreed b').Names i) := by
  refine ⟨Except.forM_congr fun i hi ↦ ?_, fun h i hi ↦ ?_⟩
  · rw [checkDeclaration_eq, checkDeclaration_eq, inputAllowed_alike hmember hmember' hshares,
      artifactAllowed_alike hmember hmember' hshares (hknown i hi)]
  · have hpassed := Except.forM_eq_ok.mp h i hi
    rw [checkDeclaration_eq] at hpassed
    split at hpassed
    · cases hpassed
    · obtain ⟨_, hinput, hartifact⟩ := Except.bind_eq_ok.mp hpassed
      exact names_of_allowed hmember hshares hinput hartifact

end Declarations

/-! ### The lookup -/

/-- Runs of the user's are found on both servers. -/
theorem existing_alike {userId : String} (hagrees : b.Agrees userId b') {r : RunRequest}
    {task : TaskSpec} (hbody : r.body = .names task) (hown : r.FindsOwn userId b)
    (hown' : r.FindsOwn userId b') :
    (call r task).existing? b.records.tables = (call r task).existing? b'.records.tables := by
  have hkeeps : ∀ (c : Backend), r.FindsOwn userId c → ∀ run,
      (call r task).existing? c.records.tables = some run →
        decide (run.runId ∈ c.accounts.resourcesOwned "run" userId) = true :=
    fun c hc run hrun ↦ decide_eq_true (Accounts.mem_resourcesOwned (hc task run hbody hrun))
  rw [← SubmitCall.existing?_filter (hkeeps b hown),
    ← SubmitCall.existing?_filter (hkeeps b' hown')]
  unfold SubmitCall.existing? Tables.runByKey? Tables.findRunByTaskId
  rw [hagrees.listed]

/-! ### The view of the run -/

/-- A run that was there is described as before. -/
theorem runDetail_withServer {s : Server} (htables : s.kernel.tables = b.records.tables)
    (hartifacts : s.kernel.depot.artifacts = b.records.depot.artifacts) (runId : RunId) :
    (b.withServer s).records.runDetail runId = b.records.runDetail runId := by
  unfold Records.runDetail Bundle.World.describeRun Bundle.World.describeStage
  unfold Bundle.World.describeAttempt Bundle.World.listInputs Bundle.World.listArtifacts
  simp only [Backend.withServer, Bundle.World.tables, htables, hartifacts]
  rfl

/-- A run that was just created has one stage and no attempts. -/
theorem runDetail_created {s : Server} {run : RunRow} {stage : StageRow}
    (hlacks : b.records.tables.Lacks run.runId stage.stageRunId) (hstage : stage.runId = run.runId)
    (htables : s.kernel.tables = (b.records.tables.insertRun run).insertStage stage) :
    (b.withServer s).records.runDetail run.runId =
      .ok { run := run, stages := [{ stage := stage, attempts := [] }] } := by
  have hafter : (b.withServer s).records.tables =
      (b.records.tables.insertRun run).insertStage stage := htables
  have hrun : (b.withServer s).records.tables.run? run.runId = some run := by
    have hnone : b.records.tables.run? run.runId = none := Table.get?_eq_none_iff.mpr hlacks.run
    rw [hafter]
    change Table.get? RunRow.runId run.runId (b.records.tables.runs ++ [run]) = some run
    rw [Table.get?_append, show Table.get? RunRow.runId run.runId b.records.tables.runs = none from
      hnone]
    simp [Table.get?]
  have hstages : (b.withServer s).records.tables.listStages run.runId = [stage] := by
    have hothers : b.records.tables.stages.filter (fun s ↦ s.runId = run.runId) = [] :=
      List.filter_eq_nil_iff.mpr fun s hs ↦ by simpa using (hlacks.stage s hs).2
    rw [hafter]
    change ((b.records.tables.stages ++ [stage]).filter _).insertionSort _ = [stage]
    rw [List.filter_append, hothers, List.nil_append]
    simp [hstage]
  have hattempts : (b.withServer s).records.tables.listAttempts stage.stageRunId = [] := by
    have hothers : b.records.tables.attemptsOf stage.stageRunId = [] :=
      List.filter_eq_nil_iff.mpr fun a ha ↦ by simpa using hlacks.attempt a ha
    rw [hafter]
    change List.insertionSort _ (b.records.tables.attemptsOf stage.stageRunId) = []
    rw [hothers]
    rfl
  rw [Records.runDetail_eq_ok]
  refine ⟨run, hrun, ?_⟩
  rw [hstages, List.map_singleton]
  unfold Bundle.World.describeStage
  rw [show (b.withServer s).records.toWorld.tables.listAttempts stage.stageRunId = [] from
    hattempts]
  rfl

theorem totals_withServer {s : Server}
    (h : s.kernel.tables.reservations = b.records.tables.reservations) :
    (b.withServer s).records.totals = b.records.totals := by
  unfold Records.totals Tables.reservedCpu Tables.reservedMemory
  rw [show (b.withServer s).records.tables.reservations = b.records.tables.reservations from h]

/-! ### The handler -/

/-- The depots of servers that share what a user has. -/
theorem alike_of_agreed (hundamaged : b.records.depot.Undamaged H)
    (hundamaged' : b'.records.depot.Undamaged H) :
    b.records.depot.Alike H (b.agreed b') b.records.depot.artifacts b'.records.depot.artifacts
      b'.records.depot :=
  ⟨rfl, rfl, fun _ h ↦ h.1, fun _ h ↦ h.1, fun _ row h hrow ↦ h.2 row hrow, hundamaged, hundamaged'⟩

/-- Both servers bind the run and its inputs to the caller, or neither does. -/
theorem bindRun_alike {now : Timestamp} {run : RunRow} {k k' : Kernel}
    (howners : ∀ p ∈ boundResources run,
      b.accounts.ownerOf p.1 p.2 = b'.accounts.ownerOf p.1 p.2)
    (huser : (b.accounts.user? session.userId).isNone = (b'.accounts.user? session.userId).isNone) :
    ∃ outcome a a', api.bindRun (some session) now run { b.server with kernel := k } =
        (outcome, { accounts := a, kernel := k }) ∧
      api.bindRun (some session) now run { b'.server with kernel := k' } =
        (outcome, { accounts := a', kernel := k' }) ∧
      ∀ run', outcome = .ok run' → run' = run := by
  unfold bindRun owner
  dsimp only
  by_cases hid : session.userId = ""
  · rw [hid]
    exact ⟨.ok run, _, _, rfl, rfl, fun run' h ↦ (Except.ok.inj h).symm⟩
  have hsome : (some session.userId).filter (fun id ↦ decide (id ≠ "")) = some session.userId := by
    simp [Option.filter, hid]
  rw [hsome]
  have hresult := bindResources_alike now howners huser
  dsimp only [Backend.server]
  rcases hbound : bindResources session.userId now (boundResources run) b.accounts with ⟨x, a⟩
  rcases hbound' : bindResources session.userId now (boundResources run) b'.accounts with ⟨x', a'⟩
  rw [hbound, hbound'] at hresult
  obtain rfl : x = x' := hresult
  cases x with
  | ok => exact ⟨.ok run, a, a', rfl, rfl, fun run' h ↦ (Except.ok.inj h).symm⟩
  | error e => exact ⟨.error _, a, a', rfl, rfl, fun _ h ↦ nomatch h⟩

variable (api) in
/-- The run that a request is answered with is described alike on both servers. -/
theorem submitRun_alike (hinjective : Function.Injective H) (hmember : Member session b.accounts)
    (hmember' : Member session b'.accounts)
    (huser : (b.accounts.user? session.userId).isNone = (b'.accounts.user? session.userId).isNone)
    (hshares : b.Shares session.userId b') (hundamaged : b.records.depot.Undamaged H)
    (hundamaged' : b'.records.depot.Undamaged H) {r : RunRequest} (hdraws : r.Draws b)
    (hdraws' : r.Draws b') (hown : r.FindsOwn session.userId b)
    (hown' : r.FindsOwn session.userId b') (hnames : r.NamesAlike b b') :
    ∃ outcome s s', api.submitRun H (some session) r b.server = (outcome, s) ∧
      api.submitRun H (some session) r b'.server = (outcome, s') ∧
      ∀ run, outcome = .ok run →
        (b.withServer s).records.runDetail run.runId =
            (b'.withServer s').records.runDetail run.runId ∧
          (b.withServer s).records.totals = b.records.totals ∧
            (b'.withServer s').records.totals = b'.records.totals := by
  unfold submitRun
  cases hdecode : r.body.decode with
  | error e => exact ⟨.error e, _, _, rfl, rfl, fun _ h ↦ nomatch h⟩
  | ok task =>
      have hbody : r.body = .names task := RunBody.eq_names_of_decode hdecode
      obtain ⟨hsame, hnamed⟩ := checkDeclarations_alike api hmember hmember' hshares r.host
        (hnames task hbody)
      dsimp only
      rw [← hsame]
      cases hchecked : task.stagedInputs.forM
          (api.checkDeclaration r.host (some session) b.server) with
      | error e => exact ⟨.error e, _, _, rfl, rfl, fun _ h ↦ nomatch h⟩
      | ok =>
          dsimp only
          rw [submit_eq, submit_eq]
          have hids : ∀ index, (b.agreed b').inputs ((call r task).newId index) := fun index ↦
            ⟨(hdraws.upload index).trans (hdraws'.upload index).symm,
              (hdraws.input index).trans (hdraws'.input index).symm⟩
          have hexisting := existing_alike hshares.toAgrees hbody hown hown'
          have hreuse : ∀ run, (call r task).existing? b.records.tables = some run →
              (∀ i ∈ run.taskSpec.stagedInputs, (b.agreed b').Names i) ∧
                b.records.tables.listStages run.runId = b'.records.tables.listStages run.runId :=
            fun run hrun ↦ ⟨hshares.tasks run (SubmitCall.mem_of_existing? hrun)
              (hown task run hbody hrun), (hshares.rows run.runId
                (.inl (hown task run hbody hrun))).listStages⟩
          obtain ⟨outcome, l, l', hsubmit, hsubmit', hartifacts, hartifacts', hcreated⟩ :=
            Platform.submit_alike api.platform r.host (call r task) b.server.kernel
              b'.server.kernel hinjective hids (alike_of_agreed hundamaged hundamaged')
              (hnamed hchecked) hdraws.lacks hdraws'.lacks hexisting hreuse
          rw [hsubmit, hsubmit']
          cases outcome with
          | error e => exact ⟨.error _, _, _, rfl, rfl, fun _ h ↦ nomatch h⟩
          | ok run =>
              obtain ⟨hstaged, hcase⟩ := hcreated run rfl
              have howner : b.accounts.ownerOf "run" run.runId =
                  b'.accounts.ownerOf "run" run.runId := by
                rcases hcase with ⟨hfound, _⟩ | ⟨_, hid, _⟩
                · have howned := hown task run hbody hfound
                  exact howned.trans ((hshares.owns "run" run.runId).mp howned).symm
                · rw [hid]
                  exact hdraws.run.trans hdraws'.run.symm
              have howners : ∀ p ∈ boundResources run,
                  b.accounts.ownerOf p.1 p.2 = b'.accounts.ownerOf p.1 p.2 := by
                refine List.forall_mem_cons.mpr ⟨howner, fun p hp ↦ ?_⟩
                obtain ⟨id, hid, rfl⟩ := List.mem_map.mp hp
                obtain ⟨i, hi, hid⟩ := List.mem_filterMap.mp hid
                exact ((hstaged i hi).1 id hid).2
              obtain ⟨outcome, a, a', hbind, hbind', hbound⟩ := bindRun_alike howners huser
              refine ⟨outcome, _, _, hbind, hbind', fun run' hrun' ↦ ?_⟩
              obtain rfl := hbound run' hrun'
              rcases hcase with ⟨hfound, htables, htables'⟩ |
                ⟨stage, hid, hstageRun, hstageId, htables, htables'⟩
              · have hsame := hshares.rows run'.runId (.inl (hown task run' hbody hfound))
                rw [runDetail_withServer htables hartifacts,
                  runDetail_withServer htables' hartifacts']
                refine ⟨hsame.runDetail, totals_withServer ?_, totals_withServer ?_⟩
                · exact congrArg Tables.reservations htables
                · exact congrArg Tables.reservations htables'
              · have hlacks : b.records.tables.Lacks run'.runId stage.stageRunId := by
                  rw [hid, hstageId]
                  exact hdraws.lacks
                have hlacks' : b'.records.tables.Lacks run'.runId stage.stageRunId := by
                  rw [hid, hstageId]
                  exact hdraws'.lacks
                have hsame : stage.runId = run'.runId := hstageRun.trans hid.symm
                rw [runDetail_created hlacks hsame htables,
                  runDetail_created hlacks' hsame htables']
                refine ⟨rfl, totals_withServer ?_, totals_withServer ?_⟩
                · exact (congrArg Tables.reservations htables).trans rfl
                · exact (congrArg Tables.reservations htables').trans rfl

/-! ## Submissions -/

/-- The user of a session that is no developer's is in the accounts. -/
theorem user_of_authenticate {authorization : Option String} {now : Timestamp} {a : Accounts}
    (h : (api.authenticate H authorization now a).1 = some session)
    (hdeveloper : session.developer = false) :
    ((api.authenticate H authorization now a).2.user? session.userId).isNone = false := by
  unfold Accounts.user?
  rw [authenticate_keeps.1]
  unfold authenticate at h
  dsimp only at h
  split at h
  · next found hresolve =>
      obtain rfl := Option.some.inj h
      obtain ⟨row, user, _, huser, rfl⟩ := Accounts.resolve_eq_some hresolve
      have huser : Table.get? UserRow.userId row.userId a.users = some user := huser
      rw [huser]
      rfl
  · split at h
    · obtain rfl := Option.some.inj h
      cases hdeveloper
    · cases h

end KernelApi

/-- Only the owners of the accounts matter. -/
theorem Backend.Shares.withAccounts {userId : String} {b b' : Backend} (h : b.Shares userId b')
    {a a' : Accounts} (howners : a.owners = b.accounts.owners)
    (howners' : a'.owners = b'.accounts.owners) :
    Backend.Shares userId { b with accounts := a } { b' with accounts := a' } := by
  have howner := Accounts.ownerOf_eq howners
  have howner' := Accounts.ownerOf_eq howners'
  have hagreed : Backend.agreed { b with accounts := a } { b' with accounts := a' } =
      b.agreed b' := by
    unfold Backend.agreed
    simp only [howner, howner']
  refine ⟨h.toAgrees.withAccounts howners howners', ?_, ?_, ?_⟩
  · simp only [howner]
    exact h.inputs
  · simp only [howner, hagreed]
    exact h.artifacts
  · simp only [howner, hagreed]
    exact h.tasks

theorem RunRequest.Draws.withAccounts {r : RunRequest} {b : Backend} (h : r.Draws b) {a : Accounts}
    (howners : a.owners = b.accounts.owners) : r.Draws { b with accounts := a } := by
  have howner := Accounts.ownerOf_eq howners
  refine ⟨h.lacks, ?_, h.upload, ?_⟩
  · simp only [howner]
    exact h.run
  · simp only [howner]
    exact h.input

theorem RunRequest.FindsOwn.withAccounts {r : RunRequest} {userId : String} {b : Backend}
    (h : r.FindsOwn userId b) {a : Accounts} (howners : a.owners = b.accounts.owners) :
    r.FindsOwn userId { b with accounts := a } := by
  have howner := Accounts.ownerOf_eq howners
  intro task run hbody hrun
  rw [howner]
  exact h task run hbody hrun

namespace KernelApi

variable {api : KernelApi} {H : Bytes → String} {b b' : Backend} {session : AuthSession}

/-- What is answered once the caller is known. -/
def answered (api : KernelApi) (H : Bytes → String) (session : AuthSession) (r : RunRequest)
    (b : Backend) : Except HttpError RunNode :=
  match api.submitRun H (some session) r b.server with
  | (.error e, _) => .error e
  | (.ok run, s) =>
      (api.runDetail (b.withServer s).records.totals (b.withServer s) run.runId).mapError
        (refused none none)

theorem submitted_eq_answered {r : RunRequest}
    (h : (api.authenticate H r.authorization r.now b.accounts).1 = some session) :
    api.submitted H r b = api.answered H session r
      { b with accounts := (api.authenticate H r.authorization r.now b.accounts).2 } := by
  unfold submitted post
  dsimp only [Backend.server]
  rw [← Prod.eta (api.authenticate H r.authorization r.now b.accounts), h]
  rfl

theorem answered_alike (hinjective : Function.Injective H) (hmember : Member session b.accounts)
    (hmember' : Member session b'.accounts)
    (huser : (b.accounts.user? session.userId).isNone = (b'.accounts.user? session.userId).isNone)
    (hshares : b.Shares session.userId b') (hundamaged : b.records.depot.Undamaged H)
    (hundamaged' : b'.records.depot.Undamaged H) {r : RunRequest} (hdraws : r.Draws b)
    (hdraws' : r.Draws b') (hown : r.FindsOwn session.userId b)
    (hown' : r.FindsOwn session.userId b') (hnames : r.NamesAlike b b') :
    (api.answered H session r b).map RunNode.withoutFigures =
        (api.answered H session r b').map RunNode.withoutFigures ∧
      (b.records.totals = b'.records.totals →
        api.answered H session r b = api.answered H session r b') := by
  obtain ⟨outcome, s, s', hs, hs', hview⟩ := submitRun_alike api hinjective hmember hmember'
    huser hshares hundamaged hundamaged' hdraws hdraws' hown hown' hnames
  unfold answered
  rw [hs, hs']
  cases outcome with
  | error e => exact ⟨rfl, fun _ ↦ rfl⟩
  | ok run =>
      obtain ⟨hdetail, htotals, htotals'⟩ := hview run rfl
      dsimp only
      rw [htotals, htotals']
      have hnode : ∀ figures, api.runDetail figures (b.withServer s) run.runId =
          api.runDetail figures (b'.withServer s') run.runId := fun figures ↦ by
        unfold runDetail
        rw [hdetail]
      have hmap : ∀ x : Except RuntimeError RunNode,
          (x.mapError (refused none none)).map RunNode.withoutFigures =
            (x.map RunNode.withoutFigures).mapError (refused none none) := fun x ↦ by
        cases x <;> rfl
      refine ⟨?_, fun h ↦ by rw [hnode, h]⟩
      rw [hmap, hmap, hnode, runDetail_withoutFigures]

/-- Whatever two servers hold besides, a member who has the same on both is answered the same on
both, but for the figures of the machine; with these alike the answers are equal. -/
theorem submission_reveals_own (hinjective : Function.Injective H) {r : RunRequest}
    (hauth : (api.authenticate H r.authorization r.now b.accounts).1 = some session)
    (hauth' : (api.authenticate H r.authorization r.now b'.accounts).1 = some session)
    (hdeveloper : session.developer = false) (hshares : b.Shares session.userId b')
    (hundamaged : b.records.depot.Undamaged H) (hundamaged' : b'.records.depot.Undamaged H)
    (hdraws : r.Draws b) (hdraws' : r.Draws b') (hown : r.FindsOwn session.userId b)
    (hown' : r.FindsOwn session.userId b') (hnames : r.NamesAlike b b') :
    (api.submitted H r b).map RunNode.withoutFigures =
        (api.submitted H r b').map RunNode.withoutFigures ∧
      (b.records.totals = b'.records.totals → api.submitted H r b = api.submitted H r b') := by
  have huser := (user_of_authenticate hauth hdeveloper).trans
    (user_of_authenticate hauth' hdeveloper).symm
  rw [submitted_eq_answered hauth, submitted_eq_answered hauth']
  exact answered_alike hinjective (member_of_authenticate hauth hdeveloper)
    (member_of_authenticate hauth' hdeveloper) huser
    (hshares.withAccounts authenticate_keeps.2 authenticate_keeps.2) hundamaged hundamaged'
    (hdraws.withAccounts authenticate_keeps.2) (hdraws'.withAccounts authenticate_keeps.2)
    (hown.withAccounts authenticate_keeps.2) (hown'.withAccounts authenticate_keeps.2) hnames

end KernelApi

/-! ## A server with another user's work -/

namespace Sample

/-- The artifact of the member's that a run of the member's is of. -/
def ownInput : InputFile := { destination := "a", artifactId := some "own" }

/-- The manifest of a run of it. -/
def ownManifest : Bytes :=
  JsonText.utf8 (JsonText.array ManifestEntry.text
    [{ destination := "a", present := true, sha256 := some "h", sizeBytes := 0 }])

/-- A hash under which the digests of two input bases and of the token are like those of
SHA-256. -/
def stagingDigest : Bytes → String :=
  ChipEvolve.Sample.hash
    [JsonText.utf8 (JsonText.array ManifestEntry.text []), JsonText.utf8 "token".toList, ownManifest]

def ownTask : TaskSpec :=
  { (ChipEvolve.Sample.call [ownInput]).task with
    inputManifestSha256 := some (stagingDigest ownManifest) }

def ownerRow (runId userId : String) : OwnerRow :=
  { resourceType := "run", resourceId := runId, userId := userId, createdAt := 0 }

def emptyLog (artifactId : String) (attemptId : AttemptId) : ArtifactRow :=
  { artifactId := artifactId, attemptId := attemptId, kind := "log", storeKey := "log"
    sizeBytes := 0, sha256 := stagingDigest [], metadata := [], storage := .object }

/-- A server with one session, of a member who has a run that left an artifact, and under a key a
run of this artifact. -/
def alone : Backend where
  accounts :=
    { users := [member]
      sessions := [{ tokenHash := Accounts.tokenHash stagingDigest "token", sessionId := "session"
                     userId := "u1", createdAt := 0, expiresAt := 1, lastSeenAt := 0 }]
      owners := [ownerRow "r1" "u1", ownerRow "r2" "u1"] }
  records :=
    { system :=
        { tables :=
            { runs := [{ ownRun with status := .succeeded },
                { ownRun with runId := "r2", idempotencyKey := some "own", taskSpec := ownTask
                              status := .failed }]
              stages := [{ ownStage with status := .succeeded },
                { ownStage with runId := "r2", stageRunId := "s2", status := .failed }]
              attempts := [{ ownAttempt with status := .succeeded }] } }
      depot :=
        { objects := fun sha256 ↦ if sha256 = stagingDigest [] then some [] else none
          artifacts := [emptyLog "own" "a1"] } }

/-- The same with the run of another user: it has a key and an artifact, and holds every core. -/
def beside : Backend where
  accounts :=
    { alone.accounts with
      users := [member, { member with userId := "u2", username := "bob" }]
      owners := alone.accounts.owners ++ [ownerRow "r3" "u2"] }
  records :=
    { system :=
        { tables :=
            { runs := alone.records.tables.runs ++
                [{ ownRun with runId := "r3", idempotencyKey := some "key", status := .running }]
              stages := alone.records.tables.stages ++
                [{ ownStage with runId := "r3", stageRunId := "s3", status := .running }]
              attempts := alone.records.tables.attempts ++
                [{ ownAttempt with attemptId := "a3", stageRunId := "s3" }]
              reservations := [{ attemptId := "a3", cpuCores := 4, memoryBytes := 4 }] } }
      depot := { alone.records.depot with
        artifacts := alone.records.depot.artifacts ++ [emptyLog "other" "a3"] } }

def submits (stagedInputs : List InputFile) (idempotencyKey : Option String) : RunRequest where
  authorization := some "Bearer token"
  body := .names (ChipEvolve.Sample.call stagedInputs).task
  idempotencyKey := idempotencyKey
  host := ChipEvolve.Sample.host
  newId := fun index ↦ "input-" ++ toString index
  runId := "run"
  stageRunId := "stage"
  now := 0

/-- A request that names the other user's artifact. -/
def naming : RunRequest := submits [{ destination := "a", artifactId := some "other" }] none

/-- A request with the other user's key. -/
def keyed : RunRequest := submits [] (some "key")

/-- The request of the member's second run once more. -/
def again : RunRequest := submits [ownInput] (some "own")

/-- The status code of an answer. -/
def statusOf : Except HttpError RunNode → Nat
  | .ok _ => 201
  | .error e => e.status

/-- What an answer says the run waits for. -/
def waitingOf : Except HttpError RunNode → Option Waiting
  | .ok node => node.waitingFor
  | .error _ => none

theorem ownerOf_alone {resourceType resourceId : String} :
    alone.accounts.ownerOf resourceType resourceId = some "u1" ↔
      resourceType = "run" ∧ (resourceId = "r1" ∨ resourceId = "r2") := by
  simp only [alone, ownerRow, Accounts.ownerOf, List.find?_cons, List.find?_nil]
  by_cases htype : "run" = resourceType <;> by_cases hfirst : "r1" = resourceId <;>
    by_cases hsecond : "r2" = resourceId <;> simp_all [eq_comm]

theorem ownerOf_beside {resourceType resourceId : String} :
    beside.accounts.ownerOf resourceType resourceId = some "u1" ↔
      alone.accounts.ownerOf resourceType resourceId = some "u1" := by
  have hother : ∀ owner, Accounts.ownerOf { alone.accounts with owners := [ownerRow "r3" "u2"] }
      resourceType resourceId = some owner → owner = "u2" := by
    intro owner h
    obtain ⟨row, hrow, rfl⟩ := Option.map_eq_some_iff.mp h
    rw [List.mem_singleton.mp (List.mem_of_find?_eq_some hrow)]
    rfl
  have hbeside : beside.accounts.ownerOf resourceType resourceId =
      (alone.accounts.ownerOf resourceType resourceId).or
        (Accounts.ownerOf { alone.accounts with owners := [ownerRow "r3" "u2"] }
          resourceType resourceId) := Accounts.ownerOf_append
  rw [hbeside]
  cases alone.accounts.ownerOf resourceType resourceId with
  | some owner => rfl
  | none =>
      refine iff_of_false (fun h ↦ ?_) nofun
      have := hother "u1" h
      simp at this

/-- The artifact of the member's is the same file on both servers. -/
theorem agreed_own : (alone.agreed beside).artifacts "own" :=
  ⟨rfl, fun _ _ ↦ rfl⟩

theorem artifactRunId?_alone {id : String} {runId : RunId} :
    artifactRunId? alone.server.kernel id = some runId ↔ id = "own" ∧ runId = "r1" := by
  by_cases hid : id = "own"
  · subst hid
    exact ⟨fun h ↦ ⟨rfl, (Option.some.inj h).symm⟩, fun h ↦ by rw [h.2]; rfl⟩
  · have hnone : artifactRunId? alone.server.kernel id = none := by
      simp [artifactRunId?, alone, Backend.server, Depot.artifact?, Table.get?, emptyLog,
        Ne.symm hid]
    simp [hnone, hid]

theorem artifactRunId?_beside {id : String} {runId : RunId} (hown : runId ≠ "r3") :
    artifactRunId? beside.server.kernel id = some runId ↔ id = "own" ∧ runId = "r1" := by
  by_cases hid : id = "own"
  · subst hid
    exact ⟨fun h ↦ ⟨rfl, (Option.some.inj h).symm⟩, fun h ↦ by rw [h.2]; rfl⟩
  by_cases hother : id = "other"
  · subst hother
    exact iff_of_false (fun h ↦ hown (Option.some.inj h).symm) fun h ↦ hid h.1
  · have hnone : artifactRunId? beside.server.kernel id = none := by
      simp [artifactRunId?, beside, alone, Backend.server, Depot.artifact?, Table.get?, emptyLog,
        Ne.symm hid, Ne.symm hother]
    simp [hnone, hid]

theorem sameAttempt_own : SameAttempt alone.records beside.records "a1" := by
  refine ⟨rfl, rfl, rfl, fun row hrow ↦ ?_⟩
  obtain rfl : row = emptyLog "own" "a1" := List.mem_singleton.mp hrow
  rfl

theorem sameRun_own {runId : RunId} (hown : runId = "r1" ∨ runId = "r2") :
    SameRun alone.records beside.records runId := by
  have hattempts : ∀ s ∈ alone.records.tables.stages,
      alone.records.tables.attemptsOf s.stageRunId = beside.records.tables.attemptsOf s.stageRunId ∧
        ∀ a ∈ alone.records.tables.attemptsOf s.stageRunId, a.attemptId = "a1" := by
    intro s hs
    simp only [alone, Records.tables, Bundle.World.tables, List.mem_cons, List.not_mem_nil,
      or_false] at hs
    rcases hs with rfl | rfl
    · exact ⟨rfl, fun a ha ↦ by rw [List.mem_singleton.mp ha]; rfl⟩
    · exact ⟨rfl, fun a ha ↦ by cases ha⟩
  have hrows : alone.records.tables.run? runId = beside.records.tables.run? runId ∧
      (alone.records.tables.stages.filter fun s ↦ s.runId = runId) =
        beside.records.tables.stages.filter fun s ↦ s.runId = runId := by
    rcases hown with rfl | rfl <;> exact ⟨rfl, rfl⟩
  refine ⟨hrows.1, hrows.2, fun s hs _ ↦ (hattempts s hs).1, fun s hs _ a ha ↦ ?_, rfl⟩
  rw [(hattempts s hs).2 a ha]
  exact sameAttempt_own

theorem shares : alone.Shares "u1" beside := by
  have howned : alone.accounts.resourcesOwned "run" "u1" = ["r1", "r2"] ∧
      beside.accounts.resourcesOwned "run" "u1" = ["r1", "r2"] := by decide +kernel
  refine ⟨⟨fun _ _ ↦ ownerOf_beside.symm, ?_, fun runId hrun ↦ ?_⟩, fun id h ↦ ?_,
    fun id runId h ↦ ?_, fun run hrun _ ↦ ?_⟩
  · rw [howned.1, howned.2]
    rfl
  · have hown : runId = "r1" ∨ runId = "r2" := by
      rcases hrun with hrun | hrun
      · exact (ownerOf_alone.mp hrun).2
      · simpa [howned.1] using hrun
    exact sameRun_own hown
  · simpa using (ownerOf_alone.mp h).1
  · obtain ⟨_, hown⟩ := ownerOf_alone.mp h
    have hother : runId ≠ "r3" := by
      rcases hown with rfl | rfl <;> decide
    rw [artifactRunId?_alone, artifactRunId?_beside hother]
    exact ⟨Iff.rfl, fun h ↦ by rw [h.1]; exact agreed_own⟩
  · simp only [alone, Records.tables, Bundle.World.tables, List.mem_cons, List.not_mem_nil,
      or_false] at hrun
    rcases hrun with rfl | rfl
    · exact fun _ hi ↦ by cases hi
    · intro i hi
      obtain rfl : i = ownInput := List.mem_singleton.mp hi
      refine ⟨nofun, fun id hid ↦ ?_⟩
      obtain rfl : "own" = id := Option.some.inj hid
      exact agreed_own

theorem draws (stagedInputs : List InputFile) (key : Option String) :
    (submits stagedInputs key).Draws alone ∧ (submits stagedInputs key).Draws beside := by
  constructor
  all_goals
    refine ⟨⟨?_, ?_, ?_⟩, ?_, fun _ ↦ ?_, fun _ ↦ ?_⟩
  all_goals simp [alone, beside, submits, Records.tables, Bundle.World.tables, ownRun, ownStage,
    ownAttempt, ownerRow, Accounts.ownerOf, Depot.uploadedInput?, Table.get?]

theorem undamaged : alone.records.depot.Undamaged stagingDigest ∧
    beside.records.depot.Undamaged stagingDigest := by
  constructor <;>
  · intro bytes bytes' h
    simp only [alone, beside] at h
    split at h
    · next heq =>
        rw [← Option.some.inj h, ChipEvolve.Sample.hash_injective _ heq]
    · cases h

theorem authenticated :
    (api.authenticate stagingDigest (some "Bearer token") 0 alone.accounts).1 = some alice ∧
      (api.authenticate stagingDigest (some "Bearer token") 0 beside.accounts).1 =
        some alice := by
  decide +kernel

/-- Another user's artifact is told from an unknown one, a key that another user has given is
taken, and what another user's run holds is not free. -/
theorem submission_reveals_others :
    Function.Injective stagingDigest ∧ alone.Shares alice.userId beside ∧
      alone.records.depot.Undamaged stagingDigest ∧
      beside.records.depot.Undamaged stagingDigest ∧
      (∀ stagedInputs key, (submits stagedInputs key).Draws alone ∧
        (submits stagedInputs key).Draws beside) ∧
      ((api.authenticate stagingDigest (some "Bearer token") 0 alone.accounts).1 = some alice ∧
        (api.authenticate stagingDigest (some "Bearer token") 0 beside.accounts).1 =
          some alice) ∧
      (statusOf (api.submitted stagingDigest naming alone) = 400 ∧
        statusOf (api.submitted stagingDigest naming beside) = 404) ∧
      (statusOf (api.submitted stagingDigest keyed alone) = 201 ∧
        statusOf (api.submitted stagingDigest keyed beside) = 409) ∧
      waitingOf (api.submitted stagingDigest (submits [] none) alone) = some .claimable ∧
        waitingOf (api.submitted stagingDigest (submits [] none) beside) =
          some (.resource 1 1 0 0) := by
  refine ⟨ChipEvolve.Sample.hash_injective _, shares, undamaged.1, undamaged.2, draws,
    authenticated, ⟨?_, ?_⟩, ⟨?_, ?_⟩, ?_, ?_⟩
  all_goals decide +kernel

/-- A run that is submitted once more, of an artifact of the caller's, is answered alike. -/
theorem submission_reveals_own_sample :
    statusOf (api.submitted stagingDigest again alone) = 201 ∧
      (api.submitted stagingDigest again alone).map RunNode.withoutFigures =
        (api.submitted stagingDigest again beside).map RunNode.withoutFigures := by
  have hown : ∀ b, ((KernelApi.call again (ChipEvolve.Sample.call [ownInput]).task).existing?
      b.records.tables).map RunRow.runId = some "r2" →
        b.accounts.ownerOf "run" "r2" = some "u1" → again.FindsOwn alice.userId b := by
    rintro b hfound howner _ run ⟨⟩ hrun
    rw [hrun] at hfound
    rw [Option.some.inj hfound]
    exact howner
  have hnames : again.NamesAlike alone beside := by
    rintro _ ⟨⟩ i hi id hid
    obtain rfl : i = ownInput := List.mem_singleton.mp hi
    obtain rfl := Option.some.inj hid
    exact iff_of_false nofun nofun
  exact ⟨by decide +kernel, (KernelApi.submission_reveals_own
    (ChipEvolve.Sample.hash_injective _) authenticated.1 authenticated.2 rfl shares undamaged.1
    undamaged.2 (draws _ _).1 (draws _ _).2 (hown alone (by decide +kernel) (by decide +kernel))
    (hown beside (by decide +kernel) (by decide +kernel)) hnames).1⟩

end Sample

end ChipEvolve.Gateway
