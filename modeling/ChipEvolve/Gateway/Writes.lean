import ChipEvolve.Gateway.Reads
import ChipEvolve.Runtime.Confined

/-!
# Writing over HTTP

The handlers of `KernelApi` (`kernel_api.py`) that change what the kernel stores: `submit_run`,
`cancel_run`, `retry_run`, `bundle` and `ingest_input`.  Each request has a thread of its own,
and a handler commits several times, so that requests meet each other, the workers and the
calls of `IdentityStore` between any two of their steps.
-/

namespace ChipEvolve.Gateway

open ChipEvolve.Bundle (Archive)
open Identity Sql

/-! ## Requests -/

abbrev RequestId := Nat

/-- What a request other than a submission asks for; `none` is a body of another kind. -/
inductive Action where
  | cancel (runId : RunId)
  | retry (runId : RunId) (reason : Option String)
  | bundle (runId : RunId)
  | ingest (content : Option Bytes)

/-- The run that an action is about. -/
def Action.runId? : Action → Option RunId
  | cancel runId => some runId
  | retry runId _ => some runId
  | bundle runId => some runId
  | ingest _ => none

inductive Order where
  | submit (r : RunRequest)
  | act (authorization : Option String) (action : Action)

def Order.authorization : Order → Option String
  | submit r => r.authorization
  | act authorization _ => authorization

/-- How far the handling of a request has come. -/
inductive Progress where
  | arrived (order : Order)
  | checking (session : AuthSession) (order : Order)
  | declaring (session : AuthSession) (r : RunRequest) (task : TaskSpec) (rest : List InputFile)
  | submitting (session : AuthSession) (r : RunRequest) (task : TaskSpec)
  | acting (session : AuthSession) (action : Action)
  | cancelling (session : AuthSession) (runId : RunId)
  | registering (session : AuthSession) (runId : RunId) (attemptId : AttemptId) (content : Bytes)
  | binding (session : AuthSession) (resources : List (String × String))
  | answered (status : Nat)

namespace Progress

def session? : Progress → Option AuthSession
  | arrived _ => none
  | checking session _ => some session
  | declaring session _ _ _ => some session
  | submitting session _ _ => some session
  | acting session _ => some session
  | cancelling session _ => some session
  | registering session _ _ _ => some session
  | binding session _ => some session
  | answered _ => none

/-- The run that the request has been let through to. -/
def runId? : Progress → Option RunId
  | acting _ action => action.runId?
  | cancelling _ runId => some runId
  | registering _ runId _ _ => some runId
  | _ => none

end Progress

/-- The clock and the next generated id. -/
structure Drawn where
  now : Timestamp
  newId : String

/-- The status of the answer to an exception, where a `RuntimeStoreError` and a `ValueError`
have one of their own. -/
def refusedStatus (onStore onValue : Nat) : RuntimeError → Nat
  | .store (.runtimeStore _) => onStore
  | .store (.invalidTransition _) => onStore
  | .store (.contract _) => onValue
  | .contract _ => onValue
  | .value _ => onValue
  | _ => 500

/-! ## The handlers -/

namespace KernelApi

variable (api : KernelApi) (H : Bytes → String) (zip : Archive → Bytes)

/-- The first check of a handler. -/
def clear (a : Accounts) (session : AuthSession) : Order → Progress
  | .submit r =>
      match r.body.decode with
      | .ok task => .declaring session r task task.stagedInputs
      | .error e => .answered e.status
  | .act _ action =>
      match action.runId? with
      | none => .acting session action
      | some runId =>
          match api.requireOwnership a (some session) "run" runId with
          | .ok () => .acting session action
          | .error e => .answered e.status

/-- What an action does to the stores first. -/
def act (session : AuthSession) (d : Drawn) (w : Bundle.World) :
    Action → Progress × Bundle.World
  | .cancel runId =>
      match exec (wantsCancel runId) w.tables with
      | (.ok true, t) => (.cancelling session runId, w.withTables t)
      | (.ok false, t) => (.answered 200, w.withTables t)
      | (.error e, t) => (.answered (refusedStatus 404 500 (.store e)), w.withTables t)
  | .retry _ none => (.answered 400, w)
  | .retry runId (some reason) =>
      let requester := if session.userId = "" then "anonymous" else session.userId
      match exec (requestRetry runId requester reason d.newId d.now) w.tables with
      | (.ok (), t) => (.answered 202, w.withTables t)
      | (.error e, t) => (.answered (refusedStatus 400 400 (.store e)), w.withTables t)
  | .bundle runId =>
      match w.describeRun runId with
      | .error e => (.answered (refusedStatus 409 500 e), w)
      | .ok view =>
          match view.attempts.getLast? with
          | none => (.answered 409, w)
          | some (_, latest) =>
              if latest.artifacts.any fun r ↦ r.kind = Bundle.bundleKind then (.answered 201, w)
              else
                match w.archive H view with
                | .error e => (.answered (refusedStatus 409 500 e), w)
                | .ok archive =>
                    (.registering session runId latest.attempt.attemptId (zip archive), w)
  | .ingest none => (.answered 400, w)
  | .ingest (some content) =>
      match Bundle.ingestInput H d.newId content w.depot with
      | .ok _ depot =>
          (.binding session (if session.userId = "" then [] else [("input", d.newId)]),
            { w with depot := depot })
      | .error e depot => (.answered (refusedStatus 500 500 e), { w with depot := depot })

/-- The next step of a handler. -/
def turn (d : Drawn) (a : Accounts) (w : Bundle.World) :
    Progress → Progress × Accounts × Bundle.World
  | .arrived order =>
      match api.authenticate H order.authorization d.now a with
      | (none, a) => (.answered 401, a, w)
      | (some session, a) => (.checking session order, a, w)
  | .checking session order => (api.clear a session order, a, w)
  | .declaring session r task [] => (.submitting session r task, a, w)
  | .declaring session r task (i :: rest) =>
      match api.checkDeclaration r.host (some session) ⟨a, ⟨w.depot, w.tables⟩⟩ i with
      | .ok () => (.declaring session r task rest, a, w)
      | .error e => (.answered e.status, a, w)
  | .submitting session r task =>
      match api.submit H r task ⟨w.depot, w.tables⟩ with
      | (.ok run, k) =>
          (.binding session (if session.userId = "" then [] else boundResources run), a,
            w.withKernel k)
      | (.error e, k) => (.answered (refusal r.idempotencyKey e).status, a, w.withKernel k)
  | .acting session action =>
      let (progress, w) := act H zip session d w action
      (progress, a, w)
  | .cancelling _ runId =>
      match exec (transitionRun runId .cancelRequested (some cancelReason) d.now) w.tables with
      | (.ok (), t) => (.answered 200, a, w.withTables t)
      | (.error e, t) => (.answered (refusedStatus 404 500 (.store e)), a, w.withTables t)
  | .registering _ _ attemptId content =>
      match Bundle.World.registerFile H d.newId attemptId content w.depot with
      | .ok _ depot => (.answered 201, a, { w with depot := depot })
      | .error e depot => (.answered (refusedStatus 409 500 e), a, { w with depot := depot })
  | .binding _ [] => (.answered 201, a, w)
  | .binding session ((resourceType, resourceId) :: rest) =>
      match a.bindResource resourceType resourceId session.userId d.now with
      | (.ok (), a) => (.binding session rest, a, w)
      | (.error _, a) => (.answered 500, a, w)
  | .answered status => (.answered status, a, w)

end KernelApi

/-! ## Histories -/

/-- The other calls of `IdentityStore`. -/
inductive AccountEvent where
  | register (c : Credentials) (d : Draws)
  | login (c : Credentials) (d : Draws)
  | resolve (token : String) (now : Timestamp)
  | logout (token : String)
  | ensureLocalUser (d : Draws)

/-- `other` is whatever else happens to the stores. -/
inductive GateEvent where
  | arrives (id : RequestId) (order : Order)
  | advances (id : RequestId) (d : Drawn)
  | account (e : AccountEvent)
  | other (e : Bundle.Event)

structure Gate where
  accounts : Accounts := {}
  stores : Bundle.World := {}
  requests : RequestId → Option Progress := fun _ ↦ none

section Step

variable (H : Bytes → String) (derive : String → Bytes → Nat → Bytes)

def AccountEvent.after (a : Accounts) : AccountEvent → Accounts
  | register c d => (a.register H derive c d).2
  | login c d => (a.login H derive c d).2
  | resolve token now => (a.resolve H token now).2
  | logout token => a.logout H token
  | ensureLocalUser d => (a.ensureLocalUser d).2

namespace Gate

variable (api : KernelApi) (zip : Archive → Bytes)

/-- A request whose handler has made its next step. -/
def advance (s : Gate) (id : RequestId) (d : Drawn) (p : Progress) : Gate :=
  let (progress, accounts, stores) := api.turn H zip d s.accounts s.stores p
  { accounts := accounts
    stores := stores
    requests := Function.update s.requests id (some progress) }

def step (s : Gate) : GateEvent → Option Gate
  | .arrives id order =>
      if (s.requests id).isNone then
        some { s with requests := Function.update s.requests id (some (.arrived order)) }
      else none
  | .advances id d => (s.requests id).map (s.advance H api zip id d)
  | .account e => some { s with accounts := e.after H derive s.accounts }
  | .other e => (s.stores.step H zip e).map fun stores ↦ { s with stores := stores }

end Gate

end Step

end ChipEvolve.Gateway
