import ChipEvolve.Gateway.Bootstrap
import ChipEvolve.Grants

/-!
# The life of a session

Threads over one `IdentityStore` (`auth.py`), a statement of the database at a time.
`register` and `login` end with the insertion of a session, `resolve` reads one and
then writes to it or deletes it, and `logout` is a single statement.  Kept beside
the accounts: the registrations, and the sessions as they were granted to callers.
-/

namespace ChipEvolve.Identity

open Grants Machine

/-! ## The statements -/

/-- What the query of `resolve` finds. -/
inductive Looked where
  | absent
  | expired
  | live (session : AuthSession)

namespace Looked

/-- What `resolve` returns. -/
def answer : Looked → Option AuthSession
  | live session => some session
  | _ => none

end Looked

namespace Accounts

section Statements

variable (H : Bytes → String) (derive : String → Bytes → Nat → Bytes)

/-- `login` up to the session: the row of the name, if the password is its. -/
def verify (c : Credentials) (a : Accounts) : Except IdentityError UserRow :=
  match normalizedUsername c.username with
  | .error e => .error e
  | .ok normalized =>
      match a.userNamed? normalized with
      | none => .error invalidLogin
      | some user =>
          if derive c.password user.passwordSalt user.passwordIterations = user.passwordHash then
            .ok user
          else .error invalidLogin

/-- The query of `resolve`. -/
def look (token : String) (now : Timestamp) (a : Accounts) : Looked :=
  if token = "" then .absent
  else
    match a.session? H token with
    | none => .absent
    | some row =>
        match a.user? row.userId with
        | none => .absent
        | some user =>
            if row.expiresAt ≤ now then .expired
            else .live { userId := row.userId, username := user.username,
                         developer := user.role = .developer, sessionId := row.sessionId }

/-- The write of `resolve`: a live session was seen, an expired one goes. -/
def settle (token : String) (now : Timestamp) (found : Looked) (a : Accounts) : Accounts :=
  match found with
  | .absent => a
  | .expired =>
      { a with sessions := Table.delete (·.tokenHash = tokenHash H token) a.sessions }
  | .live _ =>
      { a with
        sessions := Table.update (·.tokenHash = tokenHash H token)
          (fun s ↦ { s with lastSeenAt := now }) a.sessions }

theorem login_eq (c : Credentials) (d : Draws) (a : Accounts) :
    a.login H derive c d =
      match a.verify derive c with
      | .error e => (.error e, a)
      | .ok user => newSession H user.userId user.username (user.role = .developer) d a := by
  unfold login verify
  cases normalizedUsername c.username with
  | error e => rfl
  | ok normalized =>
      dsimp only
      cases a.userNamed? normalized with
      | none => rfl
      | some user =>
          dsimp only
          split_ifs <;> rfl

/-- Only owners change. -/
theorem bindResource_owners (resourceType resourceId userId : String) (now : Timestamp)
    (a : Accounts) :
    ∃ owners, (a.bindResource resourceType resourceId userId now).2 =
      { a with owners := owners } := by
  unfold bindResource
  split
  · exact ⟨a.owners, rfl⟩
  split
  · exact ⟨a.owners, rfl⟩
  split
  · split <;> exact ⟨a.owners, rfl⟩
  · split
    · exact ⟨a.owners, rfl⟩
    · exact ⟨_, rfl⟩

theorem resolve_eq (token : String) (now : Timestamp) (a : Accounts) :
    a.resolve H token now =
      ((a.look H token now).answer, a.settle H token now (a.look H token now)) := by
  unfold resolve look
  split
  · rfl
  cases a.session? H token with
  | none => rfl
  | some row =>
      dsimp only
      cases a.user? row.userId with
      | none => rfl
      | some user =>
          dsimp only
          split_ifs <;> rfl

end Statements

end Accounts

/-! ## Threads -/

namespace Desk

abbrev ThreadId := Nat

/-- Where a thread is between two statements. -/
inductive Stage where
  | idle
  /-- `register` or `login` has accepted the credentials, before `_new_session` -/
  | admitted (presented : Credentials) (user : UserRow)
  /-- `resolve`, before its write -/
  | looked (token : String) (now : Timestamp) (found : Looked)
  /-- `ensure_local_user`, whose query has found no row -/
  | unlisted

/-- An account, and what it was registered with. -/
structure Registration where
  credentials : Credentials
  user : UserRow

/-- A session as a caller got it. -/
structure Grant where
  presented : Credentials
  session : AuthSession
  issuedAt : Timestamp

end Desk

structure Desk where
  accounts : Accounts := {}
  stage : Desk.ThreadId → Desk.Stage := fun _ ↦ .idle
  registrations : List Desk.Registration := []
  /-- By the digest of the token, newest first. -/
  grants : List (Entry String Desk.Grant) := []

namespace Desk

inductive Event where
  | register (thread : ThreadId) (c : Credentials) (d : Draws)
  | login (thread : ThreadId) (c : Credentials)
  /-- `_new_session` -/
  | issue (thread : ThreadId) (d : Draws)
  | look (thread : ThreadId) (token : String) (now : Timestamp)
  /-- The write of `resolve`. -/
  | settle (thread : ThreadId)
  | logout (token : String)
  /-- `ensure_local_user` -/
  | seek (thread : ThreadId)
  | share (thread : ThreadId) (d : Draws)
  | bind (resourceType resourceId userId : String) (now : Timestamp)

variable (H : Bytes → String) (derive : String → Bytes → Nat → Bytes)

def goto (s : Desk) (thread : ThreadId) (stage : Stage) : Desk :=
  { s with stage := Function.update s.stage thread stage }

/-- The insertion of `_new_session` for the row of a user. -/
def issue (s : Desk) (thread : ThreadId) (presented : Credentials) (user : UserRow) (d : Draws) :
    Desk :=
  match s.accounts.newSession H user.userId user.username (user.role = .developer) d with
  | (.error _, _) => s.goto thread .idle
  | (.ok (session, token), accounts) =>
      { s.goto thread .idle with
        accounts := accounts
        grants := .granted (Accounts.tokenHash H token)
          { presented := presented, session := session, issuedAt := d.now } :: s.grants }

def settle (s : Desk) (thread : ThreadId) (token : String) (now : Timestamp) (found : Looked) :
    Desk :=
  { s.goto thread .idle with
    accounts := s.accounts.settle H token now found
    grants :=
      match found with
      | .expired => .ended (Accounts.tokenHash H token) :: s.grants
      | _ => s.grants }

def step (s : Desk) : Event → Option Desk
  | .register thread c d =>
      match s.stage thread with
      | .idle =>
          match s.accounts.enroll derive c d with
          | (.error _, _) => some s
          | (.ok user, accounts) =>
              some { s.goto thread (.admitted c user) with
                     accounts := accounts
                     registrations := { credentials := c, user := user } :: s.registrations }
      | _ => none
  | .login thread c =>
      match s.stage thread with
      | .idle =>
          match s.accounts.verify derive c with
          | .error _ => some s
          | .ok user => some (s.goto thread (.admitted c user))
      | _ => none
  | .issue thread d =>
      match s.stage thread with
      | .admitted presented user => some (s.issue H thread presented user d)
      | _ => none
  | .look thread token now =>
      match s.stage thread with
      | .idle => some (s.goto thread (.looked token now (s.accounts.look H token now)))
      | _ => none
  | .settle thread =>
      match s.stage thread with
      | .looked token now found => some (s.settle H thread token now found)
      | _ => none
  | .logout token =>
      if token = "" then some s
      else some { s with
        accounts := s.accounts.logout H token
        grants := .ended (Accounts.tokenHash H token) :: s.grants }
  | .seek thread =>
      match s.stage thread with
      | .idle =>
          if (s.accounts.userNamed? localUser).isSome then some s
          else some (s.goto thread .unlisted)
      | _ => none
  | .share thread d =>
      match s.stage thread with
      | .unlisted =>
          if s.accounts.refusesUser (Accounts.sharedUser d) then some (s.goto thread .idle)
          else some { s.goto thread .idle with
              accounts := { s.accounts with
                          users := s.accounts.users ++ [Accounts.sharedUser d] } }
      | _ => none
  | .bind resourceType resourceId userId now =>
      some { s with
        accounts := (s.accounts.bindResource resourceType resourceId userId now).2 }

/-! ## What a step can do -/

inductive Moves (s : Desk) : Desk → Prop
  | stay : Moves s s
  | goto (thread : ThreadId) (stage : Stage) (hstage : ∀ c user, stage ≠ .admitted c user) :
      Moves s (s.goto thread stage)
  | enroll (thread : ThreadId) {c : Credentials} {d : Draws} {user : UserRow} {a : Accounts}
      (henroll : s.accounts.enroll derive c d = (.ok user, a)) :
      Moves s { s.goto thread (.admitted c user) with
                accounts := a
                registrations := { credentials := c, user := user } :: s.registrations }
  | verify (thread : ThreadId) {c : Credentials} {user : UserRow}
      (hverify : s.accounts.verify derive c = .ok user) :
      Moves s (s.goto thread (.admitted c user))
  | issue {thread : ThreadId} {c : Credentials} {user : UserRow} (d : Draws)
      (hstage : s.stage thread = .admitted c user) : Moves s (s.issue H thread c user d)
  | settle (thread : ThreadId) (token : String) (now : Timestamp) (found : Looked) :
      Moves s (s.settle H thread token now found)
  | logout {token : String} (htoken : token ≠ "") :
      Moves s { s with
        accounts := s.accounts.logout H token
        grants := .ended (Accounts.tokenHash H token) :: s.grants }
  | share (thread : ThreadId) {d : Draws}
      (hfree : s.accounts.refusesUser (Accounts.sharedUser d) = false) :
      Moves s { s.goto thread .idle with
        accounts := { s.accounts with users := s.accounts.users ++ [Accounts.sharedUser d] } }
  | bind (resourceType resourceId userId : String) (now : Timestamp) :
      Moves s { s with
        accounts := (s.accounts.bindResource resourceType resourceId userId now).2 }

theorem moves_of_step {s s' : Desk} {l : Event} (hstep : step H derive s l = some s') :
    Moves H derive s s' := by
  unfold step at hstep
  cases l with
  | register thread c d =>
      dsimp only at hstep
      split at hstep
      · split at hstep
        · obtain rfl := Option.some.inj hstep
          exact .stay
        · next henroll =>
            obtain rfl := Option.some.inj hstep
            exact .enroll thread henroll
      · cases hstep
  | login thread c =>
      dsimp only at hstep
      split at hstep
      · split at hstep
        · obtain rfl := Option.some.inj hstep
          exact .stay
        · next hverify =>
            obtain rfl := Option.some.inj hstep
            exact .verify thread hverify
      · cases hstep
  | issue thread d =>
      dsimp only at hstep
      split at hstep
      · next hstage =>
          obtain rfl := Option.some.inj hstep
          exact .issue d hstage
      · cases hstep
  | look thread token now =>
      dsimp only at hstep
      split at hstep
      · obtain rfl := Option.some.inj hstep
        exact .goto thread _ fun _ _ heq ↦ by cases heq
      · cases hstep
  | settle thread =>
      dsimp only at hstep
      split at hstep
      · obtain rfl := Option.some.inj hstep
        exact .settle _ _ _ _
      · cases hstep
  | logout token =>
      dsimp only at hstep
      split at hstep
      · obtain rfl := Option.some.inj hstep
        exact .stay
      · next htoken =>
          obtain rfl := Option.some.inj hstep
          exact .logout htoken
  | seek thread =>
      dsimp only at hstep
      split at hstep
      · split at hstep
        · obtain rfl := Option.some.inj hstep
          exact .stay
        · obtain rfl := Option.some.inj hstep
          exact .goto thread _ fun _ _ heq ↦ by cases heq
      · cases hstep
  | share thread d =>
      dsimp only at hstep
      split at hstep
      · split at hstep
        · obtain rfl := Option.some.inj hstep
          exact .goto thread _ fun _ _ heq ↦ by cases heq
        · next hfree =>
            obtain rfl := Option.some.inj hstep
            exact .share thread (Bool.eq_false_of_not_eq_true hfree)
      · cases hstep
  | bind resourceType resourceId userId now =>
      obtain rfl := Option.some.inj hstep
      exact .bind _ _ _ _

/-! ## What the session table shows -/

/-- The columns of a session that never change. -/
def shows (row : SessionRow) : String × String × Timestamp :=
  (row.sessionId, row.userId, row.expiresAt)

def means (g : Grant) : String × String × Timestamp :=
  (g.session.sessionId, g.session.userId, g.issuedAt + sessionSeconds)

/-- A session is that of the account. -/
def Belongs (session : AuthSession) (user : UserRow) : Prop :=
  session.userId = user.userId ∧ session.username = user.username ∧
    session.developer = decide (user.role = .developer)

def Shown (a : Accounts) (session : AuthSession) : Prop :=
  ∃ user, a.user? user.userId = some user ∧ Belongs session user

/-- The rows are those of the standing grants, and the users of the grants are there. -/
structure Sound (s : Desk) : Prop where
  ids : Table.Unique UserRow.userId s.accounts.users
  follows : Follows SessionRow.tokenHash shows means s.accounts.sessions s.grants
  shown : ∀ digest g, .granted digest g ∈ s.grants → Shown s.accounts g.session
  admitted : ∀ thread c user, s.stage thread = .admitted c user →
    s.accounts.user? user.userId = some user

section Statements

variable {H derive} {a a' : Accounts} {token : String} {now : Timestamp} {session : AuthSession}

theorem Shown.later (h : Shown a session)
    (hlater : ∀ {userId user}, a.user? userId = some user → a'.user? userId = some user) :
    Shown a' session := by
  obtain ⟨user, huser, hbelongs⟩ := h
  exact ⟨user, hlater huser, hbelongs⟩

theorem newSession_cases (H : Bytes → String) (userId username : String) (developer : Bool)
    (d : Draws) (a : Accounts) :
    (∃ e, a.newSession H userId username developer d = (.error e, a)) ∨
      ∃ row : SessionRow,
        a.newSession H userId username developer d =
          (.ok ({ userId := userId, username := username, developer := developer,
                  sessionId := d.sessionId }, d.token),
            { a with sessions := a.sessions ++ [row] }) ∧
        row.tokenHash = Accounts.tokenHash H d.token ∧
        shows row = (d.sessionId, userId, d.now + sessionSeconds) ∧
        ∀ other ∈ a.sessions, other.tokenHash ≠ row.tokenHash := by
  unfold Accounts.newSession
  dsimp only
  split
  · exact .inl ⟨_, rfl⟩
  · next haccepted =>
      refine .inr ⟨_, rfl, rfl, rfl, fun other hother heq ↦ ?_⟩
      have htaken : a.sessions.any (·.tokenHash = Accounts.tokenHash H d.token) = true :=
        List.any_eq_true.mpr ⟨other, hother, by simpa using heq⟩
      simp [Accounts.refusesSession?, htaken] at haccepted

theorem verify_cases {c : Credentials} {user : UserRow} (h : a.verify derive c = .ok user) :
    ∃ normalized, normalizedUsername c.username = .ok normalized ∧
      a.userNamed? normalized = some user ∧
      derive c.password user.passwordSalt user.passwordIterations = user.passwordHash := by
  unfold Accounts.verify at h
  cases hname : normalizedUsername c.username with
  | error e =>
      rw [hname] at h
      cases h
  | ok normalized =>
      rw [hname] at h
      dsimp only at h
      cases huser : a.userNamed? normalized with
      | none =>
          rw [huser] at h
          cases h
      | some found =>
          rw [huser] at h
          dsimp only at h
          split at h
          · next hmatches =>
              obtain rfl : found = user := by simpa using h
              exact ⟨normalized, rfl, huser, hmatches⟩
          · cases h

theorem look_eq_live_iff_row :
    a.look H token now = .live session ↔
      token ≠ "" ∧ ∃ row user, a.session? H token = some row ∧ a.user? row.userId = some user ∧
        now < row.expiresAt ∧
        session = { userId := row.userId, username := user.username,
                    developer := user.role = .developer, sessionId := row.sessionId } := by
  unfold Accounts.look
  by_cases htoken : token = ""
  · simp [htoken]
  rw [if_neg htoken]
  cases hrow : a.session? H token with
  | none => simp
  | some row =>
      dsimp only
      cases huser : a.user? row.userId with
      | none => simp [huser]
      | some user =>
          dsimp only
          split
          · next hexpired => simp [hexpired.not_gt]
          · next halive =>
              simp [htoken, huser, not_le.mp halive, eq_comm]

theorem enroll_ok {c : Credentials} {d : Draws} {user : UserRow}
    (h : a.enroll derive c d = (.ok user, a')) :
    a' = { a with users := a.users ++ [user] } ∧ a.user? user.userId = none ∧
      normalizedUsername c.username = .ok user.username ∧
      user.passwordHash = derive c.password user.passwordSalt user.passwordIterations := by
  unfold Accounts.enroll at h
  cases hname : normalizedUsername c.username with
  | error e =>
      rw [hname] at h
      cases h
  | ok normalized =>
      rw [hname] at h
      cases hpassword : checkPassword c.password with
      | error e =>
          rw [hpassword] at h
          cases h
      | ok u =>
          rw [hpassword] at h
          dsimp only at h
          split at h
          · cases h
          · next hfree =>
              obtain ⟨huser, ha⟩ := Prod.mk.inj h
              obtain rfl := Except.ok.inj huser
              have hnew := (Bool.or_eq_false_iff.mp (Bool.eq_false_of_not_eq_true hfree)).1
              exact ⟨ha.symm, by simpa using hnew, rfl, rfl⟩

end Statements

/-! ## Each statement keeps it -/

section Steps

variable {H derive} {s : Desk} {thread : ThreadId}

/-- A user who has just been added is found, and so is everyone else. -/
theorem user?_addUser {a : Accounts} {user : UserRow} (hnew : a.user? user.userId = none) :
    Accounts.user? { a with users := a.users ++ [user] } user.userId = some user := by
  unfold Accounts.user? at hnew ⊢
  rw [Table.get?_append, hnew]
  simp [Table.get?]

theorem user?_later {a : Accounts} {user found : UserRow} {userId : String}
    (h : a.user? userId = some found) :
    Accounts.user? { a with users := a.users ++ [user] } userId = some found :=
  Table.get?_append_of_some h

theorem Sound.initial : Sound {} where
  ids := List.nodup_nil
  follows := .empty
  shown := fun _ _ h ↦ absurd h List.not_mem_nil
  admitted := fun _ _ _ h ↦ by cases h

/-- A thread goes where nobody has been admitted, or where its user is known. -/
theorem Sound.goto (h : s.Sound) {stage : Stage}
    (hstage : ∀ c user, stage = .admitted c user → s.accounts.user? user.userId = some user) :
    (s.goto thread stage).Sound where
  ids := h.ids
  follows := h.follows
  shown := h.shown
  admitted := by
    intro thread' c user heq
    by_cases hthread : thread' = thread
    · subst hthread
      exact hstage c user (by simpa [Desk.goto] using heq)
    · exact h.admitted thread' c user (by simpa [Desk.goto, hthread] using heq)

theorem Sound.addUser (h : s.Sound) {user : UserRow}
    (hnew : s.accounts.user? user.userId = none) {registrations : List Registration} :
    Sound { s with
      accounts := { s.accounts with users := s.accounts.users ++ [user] }
      registrations := registrations } where
  ids := h.ids.append (Table.get?_eq_none_iff.mp hnew)
  follows := h.follows
  shown := fun digest g hg ↦ (h.shown digest g hg).later user?_later
  admitted := fun thread c user' heq ↦ user?_later (h.admitted thread c user' heq)

/-- Other sessions and grants, for the same users. -/
theorem Sound.withSessions (h : s.Sound) {sessions : List SessionRow}
    {grants : List (Entry String Grant)}
    (hfollows : Follows SessionRow.tokenHash shows means sessions grants)
    (hshown : ∀ digest g, .granted digest g ∈ grants →
      .granted digest g ∈ s.grants ∨ Shown s.accounts g.session) :
    Sound { s with accounts := { s.accounts with sessions := sessions }, grants := grants } where
  ids := h.ids
  follows := hfollows
  shown := by
    intro digest g hg
    rcases hshown digest g hg with hold | hnew
    · exact h.shown digest g hold
    · exact hnew
  admitted := h.admitted

theorem Sound.issue (h : s.Sound) {c : Credentials} {user : UserRow}
    (huser : s.accounts.user? user.userId = some user) (d : Draws) :
    (s.issue H thread c user d).Sound := by
  have hidle : (s.goto thread .idle).Sound := h.goto fun _ _ heq ↦ by cases heq
  unfold Desk.issue
  rcases newSession_cases H user.userId user.username (user.role = .developer) d s.accounts with
    ⟨e, heq⟩ | ⟨row, heq, hdigest, hshows, hfree⟩
  · rw [heq]
    exact hidle
  · rw [heq]
    dsimp only
    rw [← hdigest]
    refine hidle.withSessions (h.follows.append hfree hshows.symm) fun digest g hg ↦ ?_
    rcases List.mem_cons.mp hg with hnew | hold
    · obtain ⟨_, rfl⟩ := Entry.granted.inj hnew
      exact .inr ⟨user, huser, rfl, rfl, rfl⟩
    · exact .inl hold

/-- Ending what stands for a token, with the deletion of its row. -/
theorem Sound.ended (h : s.Sound) (digest : String) :
    Sound { s with
      accounts := { s.accounts with
        sessions := Table.delete (·.tokenHash = digest) s.accounts.sessions }
      grants := .ended digest :: s.grants } := by
  refine h.withSessions h.follows.delete fun digest' g hg ↦ ?_
  rcases List.mem_cons.mp hg with hnew | hold
  · cases hnew
  · exact .inl hold

theorem Sound.settle (h : s.Sound) (token : String) (now : Timestamp) (found : Looked) :
    (s.settle H thread token now found).Sound := by
  have hidle : (s.goto thread .idle).Sound := h.goto fun _ _ heq ↦ by cases heq
  cases found with
  | absent => exact hidle
  | expired => exact hidle.ended _
  | live session =>
      exact hidle.withSessions (h.follows.update (fun _ ↦ rfl) fun _ ↦ rfl) fun _ _ hg ↦ .inl hg

theorem Sound.keep (h : s.Sound) {l : Event} {s' : Desk} (hstep : step H derive s l = some s') :
    s'.Sound := by
  cases moves_of_step H derive hstep with
  | stay => exact h
  | goto thread stage hstage =>
      exact h.goto fun c user heq ↦ absurd heq (hstage c user)
  | enroll thread henroll =>
      obtain ⟨rfl, hnew, _, _⟩ := enroll_ok henroll
      refine (h.addUser hnew).goto fun c user heq ↦ ?_
      obtain ⟨rfl, rfl⟩ := Stage.admitted.inj heq
      exact user?_addUser hnew
  | verify thread hverify =>
      refine h.goto fun c user heq ↦ ?_
      obtain ⟨rfl, rfl⟩ := Stage.admitted.inj heq
      obtain ⟨_, _, hnamed, _⟩ := verify_cases hverify
      exact h.ids.get? (List.mem_of_find?_eq_some hnamed)
  | issue d hstage => exact h.issue (h.admitted _ _ _ hstage) d
  | settle thread token now found => exact h.settle token now found
  | logout htoken =>
      unfold Accounts.logout
      rw [if_neg htoken]
      exact h.ended _
  | share thread hfree =>
      have hnew := (Bool.or_eq_false_iff.mp hfree).1
      exact (h.addUser (by simpa using hnew)).goto fun _ _ heq ↦ by cases heq
  | bind resourceType resourceId userId now =>
      obtain ⟨owners, heq⟩ :=
        Accounts.bindResource_owners resourceType resourceId userId now s.accounts
      rw [heq]
      exact ⟨h.ids, h.follows, h.shown, h.admitted⟩

theorem Sound.live_iff (h : s.Sound) {token : String} {now : Timestamp}
    {session : AuthSession} :
    s.accounts.look H token now = .live session ↔
      token ≠ "" ∧ ∃ g, Stands (Accounts.tokenHash H token) g s.grants ∧ g.session = session ∧
        now < g.issuedAt + sessionSeconds := by
  rw [look_eq_live_iff_row]
  refine and_congr_right fun _ ↦ ⟨?_, ?_⟩
  · rintro ⟨row, user, hrow, huser, halive, rfl⟩
    obtain ⟨g, hstands, hmeans⟩ := h.follows.stands_of_get? hrow
    obtain ⟨hsession, huserId, hexpires⟩ : g.session.sessionId = row.sessionId ∧
        g.session.userId = row.userId ∧ g.issuedAt + sessionSeconds = row.expiresAt := by
      simpa [means, shows] using hmeans
    obtain ⟨known, hknown, hid, hname, hrole⟩ := h.shown _ _ hstands.mem
    obtain rfl : known = user := by
      rw [← hid, huserId, huser] at hknown
      exact (Option.some.inj hknown).symm
    refine ⟨g, hstands, ?_, hexpires ▸ halive⟩
    rw [← hsession, ← huserId, ← hname, ← hrole]
  · rintro ⟨g, hstands, rfl, halive⟩
    obtain ⟨row, hrow, hshows⟩ := h.follows.get?_of_stands hstands
    obtain ⟨hsession, huserId, hexpires⟩ : row.sessionId = g.session.sessionId ∧
        row.userId = g.session.userId ∧ row.expiresAt = g.issuedAt + sessionSeconds := by
      simpa [means, shows] using hshows
    obtain ⟨user, huser, hid, hname, hrole⟩ := h.shown _ _ hstands.mem
    rw [← hid, ← huserId] at huser
    refine ⟨row, user, hrow, huser, hexpires ▸ halive, ?_⟩
    rw [hsession, huserId, ← hname, ← hrole]

end Steps

/-! ## Whose session it is -/

section Traces

variable {H derive} {s : Desk}

/-- The caller gave the name of the account and, as far as `derive` tells, its password. -/
def Vouches (derive : String → Bytes → Nat → Bytes) (c : Credentials) (r : Registration) : Prop :=
  (∃ normalized, normalizedUsername c.username = .ok normalized ∧
    sameName r.user.username normalized = true) ∧
  derive c.password r.user.passwordSalt r.user.passwordIterations =
    derive r.credentials.password r.user.passwordSalt r.user.passwordIterations

/-- Accounts with a password were registered with it, and who is admitted knows it. -/
structure Traced (derive : String → Bytes → Nat → Bytes) (s : Desk) : Prop where
  origin : ∀ u ∈ s.accounts.users, u.passwordHash = [] ∨ ∃ r ∈ s.registrations, r.user = u
  registered : ∀ r ∈ s.registrations,
    normalizedUsername r.credentials.username = .ok r.user.username ∧
    r.user.passwordHash =
      derive r.credentials.password r.user.passwordSalt r.user.passwordIterations
  admitted : ∀ thread c user, s.stage thread = .admitted c user →
    ∃ r ∈ s.registrations, r.user = user ∧ Vouches derive c r
  granted : ∀ digest g, .granted digest g ∈ s.grants →
    ∃ r ∈ s.registrations, Belongs g.session r.user ∧ Vouches derive g.presented r

namespace Traced

variable {thread : ThreadId}

theorem initial : Traced derive {} where
  origin := List.forall_mem_nil _
  registered := List.forall_mem_nil _
  admitted := fun _ _ _ h ↦ by cases h
  granted := fun _ _ h ↦ absurd h List.not_mem_nil

theorem goto (h : s.Traced derive) {stage : Stage}
    (hstage : ∀ c user, stage = .admitted c user →
      ∃ r ∈ s.registrations, r.user = user ∧ Vouches derive c r) :
    (s.goto thread stage).Traced derive where
  origin := h.origin
  registered := h.registered
  admitted := by
    intro thread' c user heq
    by_cases hthread : thread' = thread
    · subst hthread
      exact hstage c user (by simpa [Desk.goto] using heq)
    · exact h.admitted thread' c user (by simpa [Desk.goto, hthread] using heq)
  granted := h.granted

theorem withSessions (h : s.Traced derive) {sessions : List SessionRow}
    {grants : List (Entry String Grant)}
    (hgranted : ∀ digest g, .granted digest g ∈ grants → .granted digest g ∈ s.grants ∨
      ∃ r ∈ s.registrations, Belongs g.session r.user ∧ Vouches derive g.presented r) :
    Traced derive
      { s with accounts := { s.accounts with sessions := sessions }, grants := grants } where
  origin := h.origin
  registered := h.registered
  admitted := h.admitted
  granted := by
    intro digest g hg
    rcases hgranted digest g hg with hold | hnew
    · exact h.granted digest g hold
    · exact hnew

/-- An end is no grant. -/
theorem ended (h : s.Traced derive) {sessions : List SessionRow} (digest : String) :
    Traced derive { s with
      accounts := { s.accounts with sessions := sessions }
      grants := .ended digest :: s.grants } := by
  refine h.withSessions fun digest' g hg ↦ ?_
  rcases List.mem_cons.mp hg with hnew | hold
  · cases hnew
  · exact .inl hold

theorem enroll (h : s.Traced derive) {c : Credentials} {user : UserRow}
    (hname : normalizedUsername c.username = .ok user.username)
    (hhash : user.passwordHash = derive c.password user.passwordSalt user.passwordIterations) :
    Traced derive { s with
      accounts := { s.accounts with users := s.accounts.users ++ [user] }
      registrations := { credentials := c, user := user } :: s.registrations } where
  origin := by
    intro u hu
    rcases List.mem_append.mp hu with hold | hnew
    · rcases h.origin u hold with hempty | ⟨r, hr, heq⟩
      · exact .inl hempty
      · exact .inr ⟨r, List.mem_cons_of_mem _ hr, heq⟩
    · obtain rfl := List.mem_singleton.mp hnew
      exact .inr ⟨_, List.mem_cons_self, rfl⟩
  registered := List.forall_mem_cons.mpr ⟨⟨hname, hhash⟩, h.registered⟩
  admitted := by
    intro thread c' user' heq
    obtain ⟨r, hr, hrest⟩ := h.admitted thread c' user' heq
    exact ⟨r, List.mem_cons_of_mem _ hr, hrest⟩
  granted := by
    intro digest g hg
    obtain ⟨r, hr, hrest⟩ := h.granted digest g hg
    exact ⟨r, List.mem_cons_of_mem _ hr, hrest⟩

/-- The shared identity has no password. -/
theorem share (h : s.Traced derive) (d : Draws) :
    Traced derive { s with
      accounts := { s.accounts with users := s.accounts.users ++ [Accounts.sharedUser d] } } where
  origin := by
    intro u hu
    rcases List.mem_append.mp hu with hold | hnew
    · exact h.origin u hold
    · obtain rfl := List.mem_singleton.mp hnew
      exact .inl rfl
  registered := h.registered
  admitted := h.admitted
  granted := h.granted

theorem issue (h : s.Traced derive) {c : Credentials} {user : UserRow}
    (hvouched : ∃ r ∈ s.registrations, r.user = user ∧ Vouches derive c r) (d : Draws) :
    (s.issue H thread c user d).Traced derive := by
  have hidle : (s.goto thread .idle).Traced derive := h.goto fun _ _ heq ↦ by cases heq
  unfold Desk.issue
  rcases newSession_cases H user.userId user.username (user.role = .developer) d s.accounts with
    ⟨e, heq⟩ | ⟨row, heq, _⟩
  · rw [heq]
    exact hidle
  · rw [heq]
    refine hidle.withSessions fun digest g hg ↦ ?_
    rcases List.mem_cons.mp hg with hnew | hold
    · obtain ⟨_, rfl⟩ := Entry.granted.inj hnew
      obtain ⟨r, hr, rfl, hv⟩ := hvouched
      exact .inr ⟨r, hr, ⟨rfl, rfl, rfl⟩, hv⟩
    · exact .inl hold

theorem settle (h : s.Traced derive) (token : String) (now : Timestamp) (found : Looked) :
    (s.settle H thread token now found).Traced derive := by
  have hidle : (s.goto thread .idle).Traced derive := h.goto fun _ _ heq ↦ by cases heq
  cases found with
  | absent => exact hidle
  | expired => exact hidle.ended _
  | live session => exact hidle.withSessions fun _ _ hg ↦ .inl hg

/-- Whoever passes the check of `login` knows the password the account was registered with. -/
theorem vouches_of_verify (h : s.Traced derive)
    (hderive : ∀ password salt iterations, derive password salt iterations ≠ [])
    {c : Credentials} {user : UserRow} (hverify : s.accounts.verify derive c = .ok user) :
    ∃ r ∈ s.registrations, r.user = user ∧ Vouches derive c r := by
  obtain ⟨normalized, hname, hnamed, hmatches⟩ := verify_cases hverify
  rcases h.origin user (List.mem_of_find?_eq_some hnamed) with hempty | ⟨r, hr, rfl⟩
  · exact absurd (hmatches.trans hempty) (hderive _ _ _)
  · refine ⟨r, hr, rfl, ⟨normalized, hname, by simpa using List.find?_some hnamed⟩, ?_⟩
    exact hmatches.trans (h.registered r hr).2

theorem keep (h : s.Traced derive)
    (hderive : ∀ password salt iterations, derive password salt iterations ≠ [])
    {l : Event} {s' : Desk} (hstep : step H derive s l = some s') : s'.Traced derive := by
  cases moves_of_step H derive hstep with
  | stay => exact h
  | goto thread stage hstage => exact h.goto fun c user heq ↦ absurd heq (hstage c user)
  | enroll thread henroll =>
      obtain ⟨rfl, _, hname, hhash⟩ := enroll_ok henroll
      refine (h.enroll hname hhash).goto fun c user heq ↦ ?_
      obtain ⟨rfl, rfl⟩ := Stage.admitted.inj heq
      exact ⟨_, List.mem_cons_self, rfl, ⟨_, hname, by simp [sameName]⟩, rfl⟩
  | verify thread hverify =>
      refine h.goto fun c user heq ↦ ?_
      obtain ⟨rfl, rfl⟩ := Stage.admitted.inj heq
      exact h.vouches_of_verify hderive hverify
  | issue d hstage => exact h.issue (h.admitted _ _ _ hstage) d
  | settle thread token now found => exact h.settle token now found
  | logout htoken =>
      unfold Accounts.logout
      rw [if_neg htoken]
      exact h.ended _
  | share thread hfree =>
      exact (h.share _).goto fun _ _ heq ↦ by cases heq
  | bind resourceType resourceId userId now =>
      obtain ⟨owners, heq⟩ :=
        Accounts.bindResource_owners resourceType resourceId userId now s.accounts
      rw [heq]
      exact ⟨h.origin, h.registered, h.admitted, h.granted⟩

end Traced

end Traces

/-! ## Runs -/

section Runs

variable {H derive} {s : Desk} {token : String} {now : Timestamp} {session : AuthSession}

/-- A token is good from the insertion of its session to the end of the week, or to the first
logout with it or deletion of the session as expired. -/
theorem look_eq_live_iff (hs : ReachableBy (step H derive) (fun _ _ ↦ True) {} s) :
    s.accounts.look H token now = .live session ↔
      token ≠ "" ∧ ∃ g, Stands (Accounts.tokenHash H token) g s.grants ∧ g.session = session ∧
        now < g.issuedAt + sessionSeconds :=
  (hs.invariant Sound.initial fun _ _ _ h _ hstep ↦ h.keep hstep).live_iff

/-- Whoever a token stands for, it was granted to a caller who gave the name of an account
and the password the account was registered with. -/
theorem registered_of_look
    (hderive : ∀ password salt iterations, derive password salt iterations ≠ [])
    (hs : ReachableBy (step H derive) (fun _ _ ↦ True) {} s)
    (hlook : s.accounts.look H token now = .live session) :
    ∃ g r, Stands (Accounts.tokenHash H token) g s.grants ∧ g.session = session ∧
      r ∈ s.registrations ∧ Belongs session r.user ∧
      normalizedUsername r.credentials.username = .ok r.user.username ∧
      Vouches derive g.presented r := by
  have htraced : s.Traced derive :=
    hs.invariant Traced.initial fun _ _ _ h _ hstep ↦ h.keep hderive hstep
  obtain ⟨_, g, hstands, rfl, _⟩ := (look_eq_live_iff hs).mp hlook
  obtain ⟨r, hr, hbelongs, hvouches⟩ := htraced.granted _ g hstands.mem
  exact ⟨g, r, hstands, rfl, hr, hbelongs, (htraced.registered r hr).1, hvouches⟩

end Runs

end Desk

namespace Desk.Sample

def digest (bytes : Bytes) : String := String.ofList (bytes.map fun b ↦ Char.ofNat b.toNat)

def pbkdf2 (password : String) (salt : Bytes) (_ : Nat) : Bytes :=
  1 :: salt ++ JsonText.utf8 password.toList

/-- A registration, a login in another case of the name, and a logout of the first session. -/
def visits : List Event :=
  [.register 0 Deployment.alice { userId := "user-1", salt := [7], now := 1 },
    .login 1 { username := "ALICE", password := "correct horse" },
    .issue 0 { token := "first", sessionId := "session-1", now := 2 },
    .issue 1 { token := "second", sessionId := "session-2", now := 3 },
    .look 0 "first" 4, .logout "first", .settle 0]

theorem exists_live : ∃ s session,
    ReachableBy (step digest pbkdf2) (fun _ _ ↦ True) {} s ∧
      s.accounts.look digest "second" 5 = .live session ∧ session.username = "Alice" ∧
      (s.accounts.look digest "first" 5).answer = none := by
  obtain ⟨s, hs, hp⟩ : ∃ s, Visits (step digest pbkdf2) {} visits s ∧
      ((s.accounts.look digest "second" 5).answer.any fun session ↦ session.username = "Alice") &&
        (s.accounts.look digest "first" 5).answer.isNone := by
    refine Visits.of_any ?_
    decide +kernel
  obtain ⟨hsecond, hfirst⟩ := Bool.and_eq_true_iff.mp hp
  obtain ⟨session, hanswer, hname⟩ := (Option.any_eq_true _ _).mp hsecond
  refine ⟨s, session, hs.reachable, ?_, of_decide_eq_true hname,
    Option.isNone_iff_eq_none.mp hfirst⟩
  cases hlook : s.accounts.look digest "second" 5 with
  | live found =>
      rw [hlook] at hanswer
      rw [Option.some.inj hanswer]
  | absent =>
      rw [hlook] at hanswer
      cases hanswer
  | expired =>
      rw [hlook] at hanswer
      cases hanswer

theorem look_eq_live_iff_second : ∃ (s : Desk) (session : AuthSession),
    s.accounts.look digest "second" 5 = .live session ∧ session.username = "Alice" ∧
      ∃ g, Stands (Accounts.tokenHash digest "second") g s.grants ∧ g.session = session ∧
        5 < g.issuedAt + sessionSeconds := by
  obtain ⟨s, session, hs, hlook, hname, _⟩ := exists_live
  exact ⟨s, session, hlook, hname, ((look_eq_live_iff hs).mp hlook).2⟩

theorem registered_of_look_second : ∃ (s : Desk) (session : AuthSession),
    s.accounts.look digest "second" 5 = .live session ∧ session.username = "Alice" ∧
      ∃ g r, Stands (Accounts.tokenHash digest "second") g s.grants ∧ g.session = session ∧
        r ∈ s.registrations ∧ Belongs session r.user ∧
        normalizedUsername r.credentials.username = .ok r.user.username ∧
        Vouches pbkdf2 g.presented r := by
  obtain ⟨s, session, hs, hlook, hname, _⟩ := exists_live
  have hderive : ∀ password salt iterations, pbkdf2 password salt iterations ≠ [] :=
    fun _ _ _ ↦ List.cons_ne_nil _ _
  exact ⟨s, session, hlook, hname, registered_of_look hderive hs hlook⟩

end Desk.Sample

end ChipEvolve.Identity
