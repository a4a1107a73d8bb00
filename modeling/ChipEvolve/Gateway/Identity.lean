import ChipEvolve.Apps.Console
import ChipEvolve.Contracts.Task
import ChipEvolve.JsonText
import ChipEvolve.Table

/-!
# Accounts and their sessions

`IdentityStore` (`auth.py`): users, hashed sessions and the owners of resources.
A call brings the random values it draws and its clock.  The digest of a token
is `H`, the derivation of a password `derive`.
-/

namespace ChipEvolve.Identity

open Apps (strip)

/-! ## Tables -/

/-- The exceptions of `IdentityStore`. -/
inductive IdentityError where
  | value (message : String)
  | integrity (message : String)
  deriving DecidableEq

/-- `f"{type(exc).__name__}: {exc}"` -/
def IdentityError.describe : IdentityError → String
  | .value message => "ValueError: " ++ message
  | .integrity message => "IntegrityError: " ++ message

inductive Role where
  | developer
  | member
  deriving DecidableEq

structure UserRow where
  userId : String
  username : String
  passwordSalt : Bytes
  passwordHash : Bytes
  passwordIterations : Nat
  role : Role
  createdAt : Timestamp

structure SessionRow where
  tokenHash : String
  sessionId : String
  userId : String
  createdAt : Timestamp
  expiresAt : Timestamp
  lastSeenAt : Timestamp

structure OwnerRow where
  resourceType : String
  resourceId : String
  userId : String
  createdAt : Timestamp

structure Accounts where
  users : List UserRow := []
  sessions : List SessionRow := []
  owners : List OwnerRow := []

structure AuthSession where
  userId : String
  username : String
  developer : Bool
  sessionId : String
  deriving DecidableEq

/-- What a call draws: a salt, a user id, a token, a session id, and the time. -/
structure Draws where
  salt : Bytes := []
  userId : String := ""
  token : String := ""
  sessionId : String := ""
  now : Timestamp := 0

/-- The texts a caller registers or logs in with. -/
structure Credentials where
  username : String
  password : String

def pbkdf2Iterations : Nat := 310000

def sessionSeconds : Timestamp := 7 * 24 * 3600

def minPasswordLength : Nat := 8

def maxPasswordLength : Nat := 256

/-- The name of the shared identity of the mode without authentication. -/
def localUser : String := "local-user"

/-! ## Names and passwords -/

def isUsernameTail (c : Char) : Bool := c.isAlphanum || c = '_' || c = '.' || c = '-'

/-- `USERNAME`: 3 to 32 characters, starting alphanumeric. -/
def isUsername (s : String) : Bool :=
  match s.toList with
  | [] => false
  | c :: cs => c.isAlphanum && cs.all isUsernameTail && 2 ≤ cs.length && cs.length ≤ 31

/-- `_username` -/
def normalizedUsername (value : String) : Except IdentityError String :=
  let username := String.ofList (strip value.toList)
  if isUsername username then .ok username
  else .error (.value
    "Username must be 3-32 characters using letters, numbers, dot, dash, or underscore")

/-- `_password` -/
def checkPassword (value : String) : Except IdentityError Unit :=
  if minPasswordLength ≤ value.length ∧ value.length ≤ maxPasswordLength then .ok ()
  else .error (.value ("Password must contain " ++ toString minPasswordLength ++ "-" ++
    toString maxPasswordLength ++ " characters"))

/-- `COLLATE NOCASE` -/
def sameName (a b : String) : Bool := a.toList.map Char.toLower = b.toList.map Char.toLower

/-! ## Accounts -/

namespace Accounts

section Methods

variable (H : Bytes → String) (derive : String → Bytes → Nat → Bytes)

def userNamed? (a : Accounts) (username : String) : Option UserRow :=
  a.users.find? fun u ↦ sameName u.username username

def user? (a : Accounts) (userId : String) : Option UserRow :=
  Table.get? UserRow.userId userId a.users

def tokenHash (token : String) : String := H (JsonText.utf8 token.toList)

def session? (a : Accounts) (token : String) : Option SessionRow :=
  Table.get? SessionRow.tokenHash (tokenHash H token) a.sessions

/-- The primary key and the unique name. -/
def refusesUser (a : Accounts) (u : UserRow) : Bool :=
  (a.user? u.userId).isSome || (a.userNamed? u.username).isSome

/-- Why a session cannot be inserted. -/
def refusesSession? (a : Accounts) (s : SessionRow) : Option String :=
  if a.sessions.any (·.tokenHash = s.tokenHash) then
    some "UNIQUE constraint failed: identity_sessions.token_hash"
  else if a.sessions.any (·.sessionId = s.sessionId) then
    some "UNIQUE constraint failed: identity_sessions.session_id"
  else if (a.user? s.userId).isNone then some "FOREIGN KEY constraint failed"
  else none

/-- `_new_session` -/
def newSession (userId username : String) (developer : Bool) (d : Draws) (a : Accounts) :
    Except IdentityError (AuthSession × String) × Accounts :=
  let row : SessionRow :=
    { tokenHash := tokenHash H d.token
      sessionId := d.sessionId
      userId := userId
      createdAt := d.now
      expiresAt := d.now + sessionSeconds
      lastSeenAt := d.now }
  match a.refusesSession? row with
  | some message => (.error (.integrity message), a)
  | none =>
      (.ok ({ userId := userId, username := username, developer := developer,
              sessionId := d.sessionId }, d.token),
        { a with sessions := a.sessions ++ [row] })

/-- The row `register` inserts; the first user becomes the developer. -/
def newUser (username password : String) (d : Draws) (a : Accounts) : UserRow where
  userId := d.userId
  username := username
  passwordSalt := d.salt
  passwordHash := derive password d.salt pbkdf2Iterations
  passwordIterations := pbkdf2Iterations
  role := if a.users.isEmpty then .developer else .member
  createdAt := d.now

def register (c : Credentials) (d : Draws) (a : Accounts) :
    Except IdentityError (AuthSession × String) × Accounts :=
  match normalizedUsername c.username, checkPassword c.password with
  | .error e, _ => (.error e, a)
  | .ok _, .error e => (.error e, a)
  | .ok normalized, .ok () =>
      let user := newUser derive normalized c.password d a
      if a.refusesUser user then (.error (.value "Username is already registered"), a)
      else newSession H user.userId normalized (user.role = .developer) d
        { a with users := a.users ++ [user] }

def invalidLogin : IdentityError := .value "Invalid username or password"

def login (c : Credentials) (d : Draws) (a : Accounts) :
    Except IdentityError (AuthSession × String) × Accounts :=
  match normalizedUsername c.username with
  | .error e => (.error e, a)
  | .ok normalized =>
      match a.userNamed? normalized with
      | none => (.error invalidLogin, a)
      | some user =>
          if derive c.password user.passwordSalt user.passwordIterations = user.passwordHash then
            newSession H user.userId user.username (user.role = .developer) d a
          else (.error invalidLogin, a)

/-- `resolve`: the session of a token, and the accounts without it if it has expired. -/
def resolve (token : String) (now : Timestamp) (a : Accounts) : Option AuthSession × Accounts :=
  if token = "" then (none, a)
  else
    match a.session? H token with
    | none => (none, a)
    | some row =>
        match a.user? row.userId with
        | none => (none, a)
        | some user =>
            if row.expiresAt ≤ now then
              (none, { a with
                sessions := Table.delete (·.tokenHash = tokenHash H token) a.sessions })
            else
              (some { userId := row.userId, username := user.username,
                      developer := user.role = .developer, sessionId := row.sessionId },
                { a with
                  sessions := Table.update (·.tokenHash = tokenHash H token)
                    (fun s ↦ { s with lastSeenAt := now }) a.sessions })

def logout (token : String) (a : Accounts) : Accounts :=
  if token = "" then a
  else { a with sessions := Table.delete (·.tokenHash = tokenHash H token) a.sessions }

/-- The row of the shared identity has no salt and no hash. -/
def sharedUser (d : Draws) : UserRow where
  userId := d.userId
  username := localUser
  passwordSalt := []
  passwordHash := []
  passwordIterations := pbkdf2Iterations
  role := .developer
  createdAt := d.now

def ensureLocalUser (d : Draws) (a : Accounts) : Except IdentityError Bool × Accounts :=
  if (a.userNamed? localUser).isSome then (.ok false, a)
  else if a.refusesUser (sharedUser d) then
    (.error (.integrity "UNIQUE constraint failed: identity_users.user_id"), a)
  else (.ok true, { a with users := a.users ++ [sharedUser d] })

/-! ## Owners -/

def ownerOf (a : Accounts) (resourceType resourceId : String) : Option String :=
  (a.owners.find? fun o ↦ o.resourceType = resourceType && o.resourceId = resourceId).map
    OwnerRow.userId

/-- `owns_resource`, with `developer_all` -/
def ownsResource (a : Accounts) (resourceType resourceId userId : String) (developerAll : Bool) :
    Bool :=
  match a.ownerOf resourceType resourceId with
  | none => true
  | some owner =>
      owner = userId ||
        developerAll && (a.user? userId).any fun user ↦ user.role = .developer

def resourcesOwned (a : Accounts) (resourceType userId : String) : List String :=
  (a.owners.filter fun o ↦ o.resourceType = resourceType && o.userId = userId).map
    OwnerRow.resourceId

def bindResource (resourceType resourceId userId : String) (now : Timestamp) (a : Accounts) :
    Except IdentityError Unit × Accounts :=
  if resourceType = "" ∨ 64 < resourceType.length then
    (.error (.value ("invalid resource_type: " ++ quoted resourceType)), a)
  else if resourceId = "" then (.error (.value "resource_id is required"), a)
  else
    match a.ownerOf resourceType resourceId with
    | some owner =>
        if owner ≠ userId then
          (.error (.value (resourceType ++ " " ++ quoted resourceId ++
            " is already owned by another user")), a)
        else (.ok (), a)
    | none =>
        if (a.user? userId).isNone then (.error (.integrity "FOREIGN KEY constraint failed"), a)
        else (.ok (), { a with
          owners := a.owners ++ [{ resourceType := resourceType, resourceId := resourceId,
                                   userId := userId, createdAt := now }] })

end Methods

/-! ## Whom a token stands for -/

section Resolve

variable {H : Bytes → String} {token : String} {now : Timestamp} {a : Accounts}

theorem resolve_eq_some {session : AuthSession} (h : (a.resolve H token now).1 = some session) :
    ∃ row user, row ∈ a.sessions ∧ a.user? row.userId = some user ∧
      session = { userId := row.userId, username := user.username,
                  developer := user.role = .developer, sessionId := row.sessionId } := by
  unfold resolve at h
  split at h
  · cases h
  cases hrow : a.session? H token with
  | none =>
      rw [hrow] at h
      cases h
  | some row =>
      rw [hrow] at h
      simp only at h
      cases huser : a.user? row.userId with
      | none =>
          rw [huser] at h
          cases h
      | some user =>
          rw [huser] at h
          simp only at h
          split at h
          · cases h
          · exact ⟨row, user, Table.mem_of_get? hrow, huser, (Option.some.inj h).symm⟩

/-- Only sessions change. -/
theorem resolve_keeps : (a.resolve H token now).2.users = a.users ∧
    (a.resolve H token now).2.owners = a.owners := by
  unfold resolve
  split
  · exact ⟨rfl, rfl⟩
  split
  · exact ⟨rfl, rfl⟩
  split
  · exact ⟨rfl, rfl⟩
  split <;> exact ⟨rfl, rfl⟩

end Resolve

/-! ## Nobody logs in as the shared identity -/

/-- Users have ids of their own, the shared identity has no password, and no session is its. -/
structure Guarded (a : Accounts) : Prop where
  ids : Table.Unique UserRow.userId a.users
  passwordless : ∀ u ∈ a.users, u.username = localUser → u.passwordHash = []
  apart : ∀ s ∈ a.sessions, ∃ u ∈ a.users, u.userId = s.userId ∧ u.username ≠ localUser

/-- A registration that opens an account under the name of the shared identity. -/
def opensLocalUser (c : Credentials) (a : Accounts) : Prop :=
  normalizedUsername c.username = .ok localUser ∧ checkPassword c.password = .ok () ∧
    a.userNamed? localUser = none

namespace Guarded

variable {H : Bytes → String} {derive : String → Bytes → Nat → Bytes} {a : Accounts}

theorem empty : Guarded {} := ⟨List.nodup_nil, by simp, by simp⟩

theorem addUser (h : a.Guarded) {u : UserRow} (hfree : a.refusesUser u = false)
    (hlocal : u.username = localUser → u.passwordHash = []) :
    Guarded { a with users := a.users ++ [u] } := by
  have hnew : a.user? u.userId = none := by simpa using (Bool.or_eq_false_iff.mp hfree).1
  refine ⟨h.ids.append (Table.get?_eq_none_iff.mp hnew), ?_, ?_⟩
  · intro v hv
    rcases List.mem_append.mp hv with hv | hv
    · exact h.passwordless v hv
    · obtain rfl := List.mem_singleton.mp hv
      exact hlocal
  · intro s hs
    obtain ⟨v, hv, hown⟩ := h.apart s hs
    exact ⟨v, List.mem_append_left _ hv, hown⟩

/-- Sessions may go, and may change apart from their user. -/
theorem withSessions (h : a.Guarded) {sessions : List SessionRow}
    (hold : ∀ s ∈ sessions, ∃ s' ∈ a.sessions, s'.userId = s.userId) :
    Guarded { a with sessions := sessions } := by
  refine ⟨h.ids, h.passwordless, fun s hs ↦ ?_⟩
  obtain ⟨s', hs', heq⟩ := hold s hs
  rw [← heq]
  exact h.apart s' hs'

theorem newSession (h : a.Guarded) {u : UserRow} (hu : u ∈ a.users)
    (hname : u.username ≠ localUser) (username : String) (developer : Bool) (d : Draws) :
    (Accounts.newSession H u.userId username developer d a).2.Guarded := by
  unfold Accounts.newSession
  dsimp only
  split
  · exact h
  · refine ⟨h.ids, h.passwordless, fun s hs ↦ ?_⟩
    rcases List.mem_append.mp hs with hs | hs
    · exact h.apart s hs
    · obtain rfl := List.mem_singleton.mp hs
      exact ⟨u, hu, rfl, hname⟩

theorem register (h : a.Guarded) {c : Credentials} (d : Draws) (hopens : ¬a.opensLocalUser c) :
    (Accounts.register H derive c d a).2.Guarded := by
  unfold Accounts.register
  cases hname : normalizedUsername c.username with
  | error e => exact h
  | ok normalized =>
      cases hpassword : checkPassword c.password with
      | error e => exact h
      | ok u =>
          simp only
          split
          · exact h
          · next hfree =>
              have hfree : a.refusesUser (newUser derive normalized c.password d a) = false := by
                simpa using hfree
              have hother : normalized ≠ localUser := by
                rintro rfl
                refine hopens ⟨hname, hpassword, ?_⟩
                simpa [newUser] using (Bool.or_eq_false_iff.mp hfree).2
              exact (h.addUser hfree fun heq ↦ absurd heq hother).newSession (by simp) hother _ _ _

theorem login (h : a.Guarded) (hderive : ∀ password salt n, derive password salt n ≠ [])
    (c : Credentials) (d : Draws) : (Accounts.login H derive c d a).2.Guarded := by
  unfold Accounts.login
  cases normalizedUsername c.username with
  | error e => exact h
  | ok normalized =>
      simp only
      cases huser : a.userNamed? normalized with
      | none => exact h
      | some user =>
          simp only
          split
          · next hmatches =>
              have hmem : user ∈ a.users := List.mem_of_find?_eq_some huser
              refine h.newSession hmem (fun heq ↦ ?_) _ _ _
              exact hderive _ _ _ (hmatches.trans (h.passwordless user hmem heq))
          · exact h

theorem resolve (h : a.Guarded) (token : String) (now : Timestamp) :
    (Accounts.resolve H token now a).2.Guarded := by
  unfold Accounts.resolve
  split
  · exact h
  split
  · exact h
  split
  · exact h
  split
  · exact h.withSessions fun s hs ↦ ⟨s, List.mem_of_mem_filter hs, rfl⟩
  · refine h.withSessions fun s hs ↦ ?_
    obtain ⟨s', hs', rfl⟩ := List.mem_map.mp hs
    refine ⟨s', hs', ?_⟩
    split <;> rfl

/-- Whoever a token stands for, it is not the shared identity. -/
theorem username_of_resolve (h : a.Guarded) {token : String} {now : Timestamp}
    {session : AuthSession} (hresolve : (Accounts.resolve H token now a).1 = some session) :
    session.username ≠ localUser := by
  obtain ⟨row, user, hrow, huser, rfl⟩ := resolve_eq_some hresolve
  obtain ⟨owner, howner, hid, hname⟩ := h.apart row hrow
  have hsame : owner = user :=
    h.ids.eq_of_key howner (Table.mem_of_get? huser) (hid.trans (Table.key_of_get? huser).symm)
  rwa [← hsame]

theorem logout (h : a.Guarded) (token : String) : (Accounts.logout H token a).Guarded := by
  unfold Accounts.logout
  split
  · exact h
  · exact h.withSessions fun s hs ↦ ⟨s, List.mem_of_mem_filter hs, rfl⟩

theorem ensureLocalUser (h : a.Guarded) (d : Draws) : (a.ensureLocalUser d).2.Guarded := by
  unfold Accounts.ensureLocalUser
  split
  · exact h
  split
  · exact h
  · next hfree => exact h.addUser (by simpa using hfree) fun _ ↦ rfl

theorem bindResource (h : a.Guarded) (resourceType resourceId userId : String) (now : Timestamp) :
    (a.bindResource resourceType resourceId userId now).2.Guarded := by
  unfold Accounts.bindResource
  split
  · exact h
  split
  · exact h
  split
  · split <;> exact h
  split
  · exact h
  · exact ⟨h.ids, h.passwordless, h.apart⟩

end Guarded

end Accounts

end ChipEvolve.Identity
