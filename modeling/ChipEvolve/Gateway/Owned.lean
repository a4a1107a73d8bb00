import ChipEvolve.Gateway.Disclosure
import ChipEvolve.Gateway.Writes

/-!
# Whose requests write a run

A user is never removed and a resource never changes hands, so what a request was let through to
is still its user's when it writes; and a step of a request writes nothing of any other run.
-/

/-! ## Accounts -/

namespace ChipEvolve.Identity.Accounts

/-- The users of the first are users of the second, and its owners are owners there. -/
structure Later (a a' : Accounts) : Prop where
  users : ∀ {userId : String} {user : UserRow}, a.user? userId = some user →
    a'.user? userId = some user
  owners : ∀ {resourceType resourceId owner : String},
    a.ownerOf resourceType resourceId = some owner →
      a'.ownerOf resourceType resourceId = some owner

namespace Later

variable {a a' a'' : Accounts} {H : Bytes → String} {derive : String → Bytes → Nat → Bytes}

theorem refl (a : Accounts) : a.Later a := ⟨id, id⟩

theorem trans (h : a.Later a') (h' : a'.Later a'') : a.Later a'' :=
  ⟨fun huser ↦ h'.users (h.users huser), fun howner ↦ h'.owners (h.owners howner)⟩

theorem of_same (husers : a'.users = a.users) (howners : a'.owners = a.owners) : a.Later a' := by
  refine ⟨fun huser ↦ ?_, fun howner ↦ ?_⟩
  · unfold user? at huser ⊢
    rwa [husers]
  · rwa [ownerOf_eq howners]

theorem addUser (a : Accounts) (u : UserRow) : a.Later { a with users := a.users ++ [u] } :=
  ⟨fun huser ↦ Table.get?_append_of_some huser, id⟩

theorem addOwner (a : Accounts) (o : OwnerRow) : a.Later { a with owners := a.owners ++ [o] } := by
  refine ⟨id, fun howner ↦ ?_⟩
  rw [ownerOf_append, howner]
  rfl

theorem newSession (userId username : String) (developer : Bool) (d : Draws) (a : Accounts) :
    a.Later (a.newSession H userId username developer d).2 := by
  unfold Accounts.newSession
  dsimp only
  split <;> exact of_same rfl rfl

theorem register (c : Credentials) (d : Draws) (a : Accounts) :
    a.Later (a.register H derive c d).2 := by
  unfold Accounts.register
  split
  · exact refl a
  · exact refl a
  · dsimp only
    split
    · exact refl a
    · exact (addUser a _).trans (newSession _ _ _ d _)

theorem login (c : Credentials) (d : Draws) (a : Accounts) :
    a.Later (a.login H derive c d).2 := by
  unfold Accounts.login
  split
  · exact refl a
  split
  · exact refl a
  split
  · exact newSession _ _ _ d a
  · exact refl a

theorem logout (token : String) (a : Accounts) : a.Later (a.logout H token) := by
  unfold Accounts.logout
  split <;> exact of_same rfl rfl

theorem ensureLocalUser (d : Draws) (a : Accounts) : a.Later (a.ensureLocalUser d).2 := by
  unfold Accounts.ensureLocalUser
  split
  · exact refl a
  split
  · exact refl a
  · exact addUser a _

/-- A resource that has an owner keeps it. -/
theorem bindResource (resourceType resourceId userId : String) (now : Timestamp) (a : Accounts) :
    a.Later (a.bindResource resourceType resourceId userId now).2 := by
  unfold Accounts.bindResource
  split
  · exact refl a
  split
  · exact refl a
  split
  · split <;> exact refl a
  · split
    · exact refl a
    · exact addOwner a _

end Later

end ChipEvolve.Identity.Accounts

namespace ChipEvolve.Gateway

open ChipEvolve.Bundle (Confined)
open Identity Machine Sql

/-! ## The steps of a request -/

section Turns

variable {api : KernelApi} {H : Bytes → String} {zip : Bundle.Archive → Bytes} {w : Bundle.World}
variable {written : RunId → Prop}

theorem run?_of_refusesRun {t : Tables} {a : Submission} (h : t.refusesRun a.runRow = false) :
    t.run? a.runId = none := by
  refine Table.get?_eq_none_iff.mpr fun r hr heq ↦ ?_
  simp only [Tables.refusesRun, List.any_eq_false] at h
  exact h r hr (by simp [heq, Submission.runRow])

/-- A submission writes no run that there is. -/
theorem submit_confined (platform : Platform) (host : Host) (a : SubmitCall) :
    Confined w (w.withKernel (platform.submit H host a ⟨w.depot, w.tables⟩).2) written := by
  have hadds := Bundle.adds_prepare (p := fun _ ↦ False) (H := H) host
    platform.allowedInputRoots a.newId a.task w.depot
  unfold Bundle.after at hadds
  unfold Platform.submit
  cases hprepare : prepare H host platform.allowedInputRoots a.newId a.task w.depot with
  | error e depot =>
      rw [hprepare] at hadds
      obtain ⟨new, hnew, hnone⟩ := hadds
      exact Confined.depot ⟨new, hnew, fun row hrow ↦ (hnone row hrow).elim⟩
  | ok task depot =>
      rw [hprepare] at hadds
      obtain ⟨new, hnew, hnone⟩ := hadds
      have hartifacts : ∃ new, depot.artifacts = w.depot.artifacts ++ new ∧ ∀ row ∈ new, ∀ runId,
          w.tables.hasAttempt runId row.attemptId = true → written runId :=
        ⟨new, hnew, fun row hrow ↦ (hnone row hrow).elim⟩
      dsimp only
      cases platform.resolveManifest a task with
      | error e => exact Confined.depot hartifacts
      | ok manifest =>
          rcases submitRun_cases w.tables depot.custody (a.submission task manifest) with
            ⟨r, hkeeps⟩ | ⟨pluginId, hcommits⟩
          · dsimp only
            rw [hkeeps.exec]
            exact ⟨.inl rfl, hartifacts, rfl, rfl⟩
          · dsimp only
            rw [hcommits.exec]
            refine ⟨.inr ⟨_, hcommits.1, rfl, fun runId hconcerns ↦ .inr ?_⟩, hartifacts, rfl, rfl⟩
            have hnew := run?_of_refusesRun hcommits.1.2.1
            rwa [show (a.submission task manifest).runId = runId from hconcerns] at hnew

theorem act_confined (session : AuthSession) (d : Drawn) (action : Action) :
    Confined w (KernelApi.act H zip session d w action).2 fun runId ↦
      action.runId? = some runId := by
  cases action with
  | cancel runId =>
      have hkeeps := (wantsCancel_keeps w.tables runId).exec
      unfold KernelApi.act
      dsimp only
      rw [hkeeps]
      split
      · next heq =>
          obtain ⟨_, rfl⟩ := Prod.mk.inj heq
          exact .refl w
      · next heq =>
          obtain ⟨_, rfl⟩ := Prod.mk.inj heq
          exact .refl w
      · next heq =>
          obtain ⟨_, rfl⟩ := Prod.mk.inj heq
          exact .refl w
  | retry runId reason =>
      cases reason with
      | none => exact .refl w
      | some reason =>
          unfold KernelApi.act
          dsimp only
          rcases requestRetry_cases w.tables runId
              (if session.userId = "" then "anonymous" else session.userId) reason d.newId
              d.now with
            ⟨x, hkeeps⟩ | ⟨stage, attempt, hcommits⟩
          · rw [hkeeps.exec]
            exact .refl w
          · rw [hcommits.exec]
            exact .effect hcommits.1 fun runId' hconcerns ↦ .inl (congrArg some hconcerns)
  | bundle runId =>
      unfold KernelApi.act
      dsimp only
      split
      · exact .refl w
      split
      · exact .refl w
      split
      · exact .refl w
      split
      · exact .refl w
      · exact .refl w
  | ingest content =>
      cases content with
      | none => exact .refl w
      | some content =>
          have hadds := Bundle.adds_ingestInput (p := fun _ ↦ False) (H := H) d.newId content
            w.depot
          unfold Bundle.after at hadds
          unfold KernelApi.act
          dsimp only
          split
          · next heq =>
              rw [heq] at hadds
              obtain ⟨new, hnew, hnone⟩ := hadds
              exact .depot ⟨new, hnew, fun row hrow ↦ (hnone row hrow).elim⟩
          · next heq =>
              rw [heq] at hadds
              obtain ⟨new, hnew, hnone⟩ := hadds
              exact .depot ⟨new, hnew, fun row hrow ↦ (hnone row hrow).elim⟩

theorem Progress.session?_of_runId? {p : Progress} {runId : RunId} (h : p.runId? = some runId) :
    ∃ session, p.session? = some session := by
  cases p with
  | acting session | cancelling session | registering session => exact ⟨session, rfl⟩
  | _ => cases h

/-- A bundle is registered for an attempt of its run. -/
def Progress.Fits (t : Tables) : Progress → Prop
  | registering _ runId attemptId _ => t.hasAttempt runId attemptId = true
  | _ => True

/-- A step of a request writes no run but the one that the request was let through to. -/
theorem turn_confined (hwell : WellFormed w.tables) (d : Drawn) (a : Accounts) {p : Progress}
    (hfits : p.Fits w.tables) :
    Confined w (api.turn H zip d a w p).2.2 fun runId ↦ p.runId? = some runId := by
  cases p with
  | arrived order =>
      unfold KernelApi.turn
      dsimp only
      split <;> exact .refl w
  | checking | answered => exact .refl w
  | declaring session r task rest =>
      cases rest with
      | nil => exact .refl w
      | cons i rest =>
          unfold KernelApi.turn
          dsimp only
          split <;> exact .refl w
  | submitting session r task =>
      have hsubmit : Confined w (w.withKernel (api.submit H r task ⟨w.depot, w.tables⟩).2)
          fun runId ↦ (Progress.submitting session r task).runId? = some runId := by
        unfold KernelApi.submit
        split
        · exact submit_confined _ _ _
        · exact submit_confined _ _ _
      unfold KernelApi.turn
      dsimp only
      split
      · next heq => rwa [heq] at hsubmit
      · next heq => rwa [heq] at hsubmit
  | acting session action => exact act_confined session d action
  | cancelling session runId =>
      unfold KernelApi.turn
      dsimp only
      rcases transitionRun_cases w.tables runId .cancelRequested (some cancelReason) d.now with
        ⟨_, r, hkeeps⟩ | hcommits
      · rw [hkeeps.exec]
        cases r <;> exact .refl w
      · rw [hcommits.exec]
        exact .effect hcommits.1 fun runId' hconcerns ↦ .inl (congrArg some hconcerns)
  | registering session runId attemptId content =>
      have hadds := Bundle.adds_registerFile (H := H) d.newId attemptId content w.depot
      have hmine : ∀ {row : ArtifactRow}, row.attemptId = attemptId → ∀ runId',
          w.tables.hasAttempt runId' row.attemptId = true → some runId = some runId' := by
        rintro row rfl runId' hhas
        exact congrArg some (Tables.run_eq_of_hasAttempt hwell hfits hhas)
      unfold Bundle.after at hadds
      unfold KernelApi.turn
      dsimp only
      split
      · next heq =>
          rw [heq] at hadds
          obtain ⟨new, hnew, hof⟩ := hadds
          exact .depot ⟨new, hnew, fun row hrow ↦ hmine (hof row hrow)⟩
      · next heq =>
          rw [heq] at hadds
          obtain ⟨new, hnew, hof⟩ := hadds
          exact .depot ⟨new, hnew, fun row hrow ↦ hmine (hof row hrow)⟩
  | binding session resources =>
      cases resources with
      | nil => exact .refl w
      | cons resource rest =>
          unfold KernelApi.turn
          dsimp only
          split <;> exact .refl w

/-- Users and owners last through every step. -/
theorem turn_later (d : Drawn) (a : Accounts) (p : Progress) :
    a.Later (api.turn H zip d a w p).2.1 := by
  cases p with
  | arrived order =>
      have hlater : a.Later (api.authenticate H order.authorization d.now a).2 :=
        .of_same KernelApi.authenticate_keeps.1 KernelApi.authenticate_keeps.2
      unfold KernelApi.turn
      dsimp only
      split
      · next heq => rwa [heq] at hlater
      · next heq => rwa [heq] at hlater
  | declaring session r task rest =>
      cases rest with
      | nil => exact .refl a
      | cons i rest =>
          unfold KernelApi.turn
          dsimp only
          split <;> exact .refl a
  | submitting | cancelling | registering =>
      unfold KernelApi.turn
      dsimp only
      split <;> exact .refl a
  | binding session resources =>
      cases resources with
      | nil => exact .refl a
      | cons resource rest =>
          have hlater := Accounts.Later.bindResource resource.1 resource.2 session.userId d.now a
          unfold KernelApi.turn
          dsimp only
          split
          · next heq => rwa [heq] at hlater
          · next heq => rwa [heq] at hlater
  | checking | acting | answered => exact .refl a

end Turns

/-! ## Whom a request acts for -/

namespace KernelApi

/-- A session of a registered user, or that of the local user where nobody authenticates. -/
def Genuine (api : KernelApi) (a : Accounts) (session : AuthSession) : Prop :=
  (∃ user, a.user? session.userId = some user ∧
    session.developer = decide (user.role = .developer)) ∨
    api.allowAnonymous = true ∧ api.localUserId = some session.userId

/-- The session's user owns the run or is a developer, or nobody authenticates. -/
def MayWrite (api : KernelApi) (a : Accounts) (session : AuthSession) (runId : RunId) : Prop :=
  a.ownerOf "run" runId = some session.userId ∨
    (∃ user, a.user? session.userId = some user ∧ user.role = .developer) ∨
      api.allowAnonymous = true ∧ api.localUserId = some session.userId

variable {api : KernelApi} {H : Bytes → String} {a a' : Accounts} {session : AuthSession}
variable {runId : RunId}

theorem Genuine.later (h : api.Genuine a session) (hlater : a.Later a') :
    api.Genuine a' session := by
  rcases h with ⟨user, huser, hrole⟩ | hlocal
  · exact .inl ⟨user, hlater.users huser, hrole⟩
  · exact .inr hlocal

theorem MayWrite.later (h : api.MayWrite a session runId) (hlater : a.Later a') :
    api.MayWrite a' session runId := by
  rcases h with howner | ⟨user, huser, hrole⟩ | hlocal
  · exact .inl (hlater.owners howner)
  · exact .inr (.inl ⟨user, hlater.users huser, hrole⟩)
  · exact .inr (.inr hlocal)

theorem genuine_of_authenticate {authorization : Option String} {now : Timestamp}
    (h : api.authenticate H authorization now a = (some session, a')) :
    api.Genuine a' session := by
  have hlater : a.Later a' := by
    have hof : a.Later (api.authenticate H authorization now a).2 :=
      .of_same authenticate_keeps.1 authenticate_keeps.2
    rwa [h] at hof
  have hsession := congrArg Prod.fst h
  unfold authenticate at hsession
  dsimp only at hsession
  split at hsession
  · next found hresolve =>
      obtain rfl := Option.some.inj hsession
      obtain ⟨row, user, _, huser, rfl⟩ := Accounts.resolve_eq_some hresolve
      exact .inl ⟨user, hlater.users huser, rfl⟩
  · split at hsession
    · next hlocal =>
        obtain rfl := Option.some.inj hsession
        obtain ⟨hanonymous, hgiven⟩ := Bool.and_eq_true_iff.mp hlocal
        refine .inr ⟨hanonymous, ?_⟩
        cases hid : api.localUserId with
        | none => simp [given, hid] at hgiven
        | some userId => rfl
    · cases hsession

/-- Who is let through to a run may write it. -/
theorem mayWrite_of_requireOwnership (hgenuine : api.Genuine a session)
    (h : api.requireOwnership a (some session) "run" runId = .ok ()) :
    api.MayWrite a session runId := by
  have hdeveloper : session.developer = true → api.MayWrite a session runId := by
    intro hdeveloper
    rcases hgenuine with ⟨user, huser, hrole⟩ | hlocal
    · rw [hdeveloper] at hrole
      exact .inr (.inl ⟨user, huser, of_decide_eq_true hrole.symm⟩)
    · exact .inr (.inr hlocal)
  unfold requireOwnership owner at h
  dsimp only at h
  cases howner : a.ownerOf "run" runId with
  | none =>
      cases hrole : session.developer with
      | true => exact hdeveloper hrole
      | false => simp [howner, hrole] at h
  | some owner =>
      by_cases hsame : owner = session.userId
      · exact .inl (howner.trans (congrArg some hsame))
      · cases hany : (a.user? session.userId).any (·.role = .developer) with
        | true =>
            obtain ⟨user, huser, hrole⟩ := (Option.any_eq_true _ _).mp hany
            exact .inr (.inl ⟨user, huser, of_decide_eq_true hrole⟩)
        | false => simp [howner, Accounts.ownsResource, hsame, hany] at h

end KernelApi

/-! ## What stands behind a request -/

/-- The session of a request is genuine, and it may write the run it was let through to. -/
structure Progress.Backed (api : KernelApi) (a : Accounts) (t : Tables) (p : Progress) : Prop where
  genuine : ∀ session, p.session? = some session → api.Genuine a session
  cleared : ∀ session runId, p.session? = some session → p.runId? = some runId →
    api.MayWrite a session runId
  fits : p.Fits t

namespace Progress.Backed

variable {api : KernelApi} {H : Bytes → String} {zip : Bundle.Archive → Bytes}
variable {a a' : Accounts} {t t' : Tables} {w : Bundle.World} {p : Progress}
variable {session : AuthSession}

theorem later (h : p.Backed api a t) (hlater : a.Later a')
    (hkeeps : ∀ {runId attemptId}, t.hasAttempt runId attemptId = true →
      t'.hasAttempt runId attemptId = true) : p.Backed api a' t' := by
  refine ⟨fun session hp ↦ (h.genuine session hp).later hlater,
    fun session runId hp hrun ↦ (h.cleared session runId hp hrun).later hlater, ?_⟩
  have hfits := h.fits
  cases p with
  | registering => exact hkeeps hfits
  | _ => exact trivial

theorem answered (status : Nat) : (Progress.answered status).Backed api a t :=
  ⟨nofun, nofun, trivial⟩

theorem arrived (order : Order) : (Progress.arrived order).Backed api a t :=
  ⟨nofun, nofun, trivial⟩

/-- A request that has not been let through to a run. -/
theorem ofSession (hgenuine : api.Genuine a session) (hsession : p.session? = some session)
    (hrun : p.runId? = none) (hfits : p.Fits t) : p.Backed api a t := by
  refine ⟨fun other hother ↦ ?_, fun _ runId _ hsome ↦ ?_, hfits⟩
  · obtain rfl := Option.some.inj (hsession.symm.trans hother)
    exact hgenuine
  · rw [hrun] at hsome
    cases hsome

theorem clear (h : api.Genuine a session) (order : Order) :
    (api.clear a session order).Backed api a t := by
  cases order with
  | submit r =>
      unfold KernelApi.clear
      dsimp only
      split
      · exact .ofSession h rfl rfl trivial
      · exact .answered _
  | act authorization action =>
      unfold KernelApi.clear
      dsimp only
      split
      · next hnone => exact .ofSession h rfl hnone trivial
      · next runId hsome =>
          split
          · next hpassed =>
              refine ⟨fun other hother ↦ ?_, fun other runId' hother hrun ↦ ?_, trivial⟩
              · obtain rfl := Option.some.inj hother
                exact h
              · obtain rfl := Option.some.inj hother
                obtain rfl := Option.some.inj (hsome.symm.trans hrun)
                exact KernelApi.mayWrite_of_requireOwnership h hpassed
          · exact .answered _

/-- What comes of an action keeps to its run. -/
theorem act (d : Drawn) {action : Action}
    (h : (Progress.acting session action).Backed api a w.tables) :
    (KernelApi.act H zip session d w action).1.Backed api a w.tables := by
  have hgenuine := h.genuine session rfl
  cases action with
  | cancel runId =>
      unfold KernelApi.act
      dsimp only
      split
      · exact ⟨h.genuine, h.cleared, trivial⟩
      · exact .answered _
      · exact .answered _
  | retry runId reason =>
      cases reason with
      | none => exact .answered _
      | some reason =>
          unfold KernelApi.act
          dsimp only
          split <;> exact .answered _
  | bundle runId =>
      unfold KernelApi.act
      dsimp only
      split
      · exact .answered _
      next view hview =>
        split
        · exact .answered _
        next stage latest hlast =>
          split
          · exact .answered _
          · split
            · exact .answered _
            · exact ⟨h.genuine, h.cleared,
                Bundle.hasAttempt_of_describeRun hview (List.mem_of_getLast? hlast)⟩
  | ingest content =>
      cases content with
      | none => exact .answered _
      | some content =>
          unfold KernelApi.act
          dsimp only
          split
          · exact .ofSession hgenuine rfl rfl trivial
          · exact .answered _

/-- A step of a request, before anything is said of the tables it leaves. -/
theorem turn (d : Drawn) (h : p.Backed api a w.tables) :
    (api.turn H zip d a w p).1.Backed api (api.turn H zip d a w p).2.1 w.tables := by
  cases p with
  | arrived order =>
      unfold KernelApi.turn
      dsimp only
      split
      · exact .answered _
      · next heq => exact .ofSession (KernelApi.genuine_of_authenticate heq) rfl rfl trivial
  | checking session order => exact .clear (h.genuine session rfl) order
  | declaring session r task rest =>
      have hgenuine := h.genuine session rfl
      cases rest with
      | nil => exact .ofSession hgenuine rfl rfl trivial
      | cons i rest =>
          unfold KernelApi.turn
          dsimp only
          split
          · exact .ofSession hgenuine rfl rfl trivial
          · exact .answered _
  | submitting session r task =>
      unfold KernelApi.turn
      dsimp only
      split
      · exact .ofSession (h.genuine session rfl) rfl rfl trivial
      · exact .answered _
  | acting session action => exact h.act d
  | cancelling | registering =>
      unfold KernelApi.turn
      dsimp only
      split <;> exact .answered _
  | binding session resources =>
      have hgenuine := h.genuine session rfl
      cases resources with
      | nil => exact .answered _
      | cons resource rest =>
          have hlater := Accounts.Later.bindResource resource.1 resource.2 session.userId d.now a
          unfold KernelApi.turn
          dsimp only
          split
          · next heq =>
              rw [heq] at hlater
              exact .ofSession (hgenuine.later hlater) rfl rfl trivial
          · exact .answered _
  | answered status => exact .answered status

end Progress.Backed

/-! ## Histories -/

section Histories

variable {api : KernelApi} {H : Bytes → String} {derive : String → Bytes → Nat → Bytes}
variable {zip : Bundle.Archive → Bytes} {s₀ s s' : Gate}

theorem AccountEvent.later (e : AccountEvent) (a : Accounts) : a.Later (e.after H derive a) := by
  cases e with
  | register c d => exact .register c d a
  | login c d => exact .login c d a
  | resolve token now =>
      exact .of_same Accounts.resolve_keeps.1 Accounts.resolve_keeps.2
  | logout token => exact .logout token a
  | ensureLocalUser d => exact .ensureLocalUser d a

namespace Gate

structure Sound (api : KernelApi) (s : Gate) : Prop where
  wellFormed : WellFormed s.stores.tables
  backed : ∀ id p, s.requests id = some p → p.Backed api s.accounts s.stores.tables

/-- Users and owners last through every step of a history. -/
theorem later_of_step {event : GateEvent} (hstep : s.step H derive api zip event = some s') :
    s.accounts.Later s'.accounts := by
  cases event with
  | arrives id order =>
      unfold step at hstep
      dsimp only at hstep
      split at hstep
      · obtain rfl := Option.some.inj hstep
        exact .refl _
      · cases hstep
  | advances id d =>
      obtain ⟨p, _, rfl⟩ := Option.map_eq_some_iff.mp hstep
      exact turn_later d s.accounts p
  | account e =>
      obtain rfl := Option.some.inj hstep
      exact e.later s.accounts
  | other e =>
      obtain ⟨stores, _, rfl⟩ := Option.map_eq_some_iff.mp hstep
      exact .refl _

theorem Sound.step {event : GateEvent} (h : s.Sound api)
    (hstep : s.step H derive api zip event = some s') : s'.Sound api := by
  have hlater := later_of_step hstep
  cases event with
  | arrives id order =>
      unfold Gate.step at hstep
      dsimp only at hstep
      split at hstep
      · obtain rfl := Option.some.inj hstep
        refine ⟨h.wellFormed, fun other p hp ↦ ?_⟩
        dsimp only at hp ⊢
        by_cases heq : other = id
        · subst heq
          rw [Function.update_self] at hp
          obtain rfl := Option.some.inj hp
          exact .arrived order
        · rw [Function.update_of_ne heq] at hp
          exact h.backed other p hp
      · cases hstep
  | advances id d =>
      obtain ⟨p, hp, rfl⟩ := Option.map_eq_some_iff.mp hstep
      have hbacked := h.backed id p hp
      have hconfined : Confined s.stores (api.turn H zip d s.accounts s.stores p).2.2
          fun runId ↦ p.runId? = some runId :=
        turn_confined h.wellFormed d s.accounts hbacked.fits
      refine ⟨hconfined.wellFormed h.wellFormed, fun other q hq ↦ ?_⟩
      change Function.update s.requests id (some (api.turn H zip d s.accounts s.stores p).1) other =
        some q at hq
      by_cases heq : other = id
      · subst heq
        rw [Function.update_self] at hq
        obtain rfl := Option.some.inj hq
        exact (hbacked.turn d).later (.refl _) hconfined.hasAttempt
      · rw [Function.update_of_ne heq] at hq
        exact (h.backed other q hq).later hlater hconfined.hasAttempt
  | account e =>
      obtain rfl := Option.some.inj hstep
      exact ⟨h.wellFormed, fun id p hp ↦ (h.backed id p hp).later hlater fun hhas ↦ hhas⟩
  | other e =>
      obtain ⟨stores, hstores, rfl⟩ := Option.map_eq_some_iff.mp hstep
      rcases Bundle.tables_of_step hstores with hsame | ⟨effect, henabled, happly⟩
      · refine ⟨?_, fun id p hp ↦ (h.backed id p hp).later hlater fun hhas ↦ ?_⟩
        · dsimp only
          rw [hsame]
          exact h.wellFormed
        · dsimp only
          rwa [hsame]
      · refine ⟨?_, fun id p hp ↦ (h.backed id p hp).later hlater fun hhas ↦ ?_⟩
        · dsimp only
          rw [happly]
          exact h.wellFormed.apply henabled
        · dsimp only
          rw [happly]
          exact Effect.hasAttempt_apply_of hhas

end Gate

/-- However requests, workers and logins interleave, no step takes a run from its owner, and a
request that changes what is kept of a run acts for the run's owner or for a developer. -/
theorem writes_own_runs (hwell : WellFormed s₀.stores.tables)
    (hquiet : ∀ id, s₀.requests id = none) {events : List GateEvent} {event : GateEvent}
    (htakes : Takes (Gate.step H derive api zip) s₀ events s event s') :
    (∀ runId owner, s.accounts.ownerOf "run" runId = some owner →
      s'.accounts.ownerOf "run" runId = some owner) ∧
    ∀ id d runId, event = .advances id d → (s.stores.tables.run? runId).isSome = true →
      s'.stores.recordOf runId ≠ s.stores.recordOf runId →
        ∃ p session, s.requests id = some p ∧ p.session? = some session ∧
          api.MayWrite s.accounts session runId := by
  have hstep := htakes.step_eq
  refine ⟨fun runId owner ↦ (Gate.later_of_step hstep).owners, ?_⟩
  rintro id d runId rfl hrun hchanged
  have hsound : s.Sound api := htakes.visits_left.reachable.invariant
    ⟨hwell, fun id p hp ↦ by rw [hquiet id] at hp; cases hp⟩ fun _ _ _ h _ hnext ↦ h.step hnext
  obtain ⟨p, hp, rfl⟩ := Option.map_eq_some_iff.mp hstep
  have hbacked := hsound.backed id p hp
  have hconfined : Confined s.stores (api.turn H zip d s.accounts s.stores p).2.2
      fun runId ↦ p.runId? = some runId :=
    turn_confined hsound.wellFormed d s.accounts hbacked.fits
  have hmine : p.runId? = some runId := by
    by_contra hnot
    exact hchanged (hconfined.recordOf hsound.wellFormed hrun hnot)
  obtain ⟨session, hsession⟩ := p.session?_of_runId? hmine
  exact ⟨p, session, hp, hsession, hbacked.cleared session runId hsession hmine⟩

end Histories

/-! ## A run that its owner cancels -/

namespace Sample

def gate : Gate where
  accounts := accountsBeside []
  stores := { system := { tables := { runs := [ownRun], stages := [ownStage] } } }

def drawn : Drawn := { now := 0, newId := "new" }

/-- The step that writes comes after these. -/
def cancels : List GateEvent :=
  [.arrives 0 (.act (some "Bearer token") (.cancel "r1")), .advances 0 drawn, .advances 0 drawn,
    .advances 0 drawn]

def gateStep : Gate → GateEvent → Option Gate :=
  Gate.step digest derive api fun _ ↦ []

/-- The run is queued, and the next step of the request has it cancelled. -/
def requests (s : Gate) : Bool :=
  s.stores.tables.runStatus? "r1" = some .queued &&
    (gateStep s (.advances 0 drawn)).any fun s' ↦
      s'.stores.tables.runStatus? "r1" = some .cancelRequested

theorem gate_wellFormed : WellFormed gate.stores.tables where
  runIds := List.nodup_singleton _
  stageIds := List.nodup_singleton _
  stageRuns := rfl
  attemptIds := List.nodup_nil
  attemptStages := List.forall_mem_nil _
  numbered := fun _ ↦ rfl
  maxAttempts := by
    intro r hr
    obtain rfl := List.mem_singleton.mp hr
    decide

/-- The request acts for the user whose run it cancels. -/
theorem writes_own_runs_cancelled :
    ∃ s s', Takes gateStep gate (cancels ++ [.advances 0 drawn]) s (.advances 0 drawn) s' ∧
      s'.stores.recordOf "r1" ≠ s.stores.recordOf "r1" ∧
      ∃ p session, s.requests 0 = some p ∧ p.session? = some session ∧
        api.MayWrite s.accounts session "r1" := by
  obtain ⟨s, s', htakes, hrequests⟩ : ∃ s s', Takes gateStep gate
      (cancels ++ [.advances 0 drawn]) s (.advances 0 drawn) s' ∧ requests s = true :=
    Takes.of_any (by decide +kernel)
  obtain ⟨hqueued, hcancelled⟩ := Bool.and_eq_true_iff.mp hrequests
  have hqueued := of_decide_eq_true hqueued
  rw [htakes.step_eq] at hcancelled
  have hcancelled := of_decide_eq_true hcancelled
  have hchanged : s'.stores.recordOf "r1" ≠ s.stores.recordOf "r1" := by
    intro heq
    have hstatus := congrArg (fun record ↦ record.rows.run.map RunRow.status) heq
    change s'.stores.tables.runStatus? "r1" = s.stores.tables.runStatus? "r1" at hstatus
    rw [hqueued, hcancelled] at hstatus
    cases hstatus
  have hrun : (s.stores.tables.run? "r1").isSome = true := by
    cases hnone : s.stores.tables.run? "r1" with
    | some run => rfl
    | none => simp [Tables.runStatus?, hnone] at hqueued
  exact ⟨s, s', htakes, hchanged,
    (writes_own_runs gate_wellFormed (fun _ ↦ rfl) htakes).2 0 drawn "r1" rfl hrun hchanged⟩

end Sample

end ChipEvolve.Gateway
