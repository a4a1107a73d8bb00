import ChipEvolve.Gateway.Identity
import ChipEvolve.Machine
import Mathlib.Data.List.Pairwise
import Mathlib.Data.List.Sort

/-!
# The first account and the shared identity

Processes over one identity database: registrations, and kernels that are built
(`bootstrap.py`) with or without authentication.  A transaction is one step, and so
is the query with which `ensure_local_user` looks for its row before it opens one.
-/

namespace ChipEvolve.Identity

open Machine

/-! ## The statements -/

namespace Accounts

variable (H : Bytes → String) (derive : String → Bytes → Nat → Bytes)

/-- The transaction of `register`. -/
def enroll (c : Credentials) (d : Draws) (a : Accounts) : Except IdentityError UserRow × Accounts :=
  match normalizedUsername c.username, checkPassword c.password with
  | .error e, _ => (.error e, a)
  | .ok _, .error e => (.error e, a)
  | .ok normalized, .ok () =>
      let user := newUser derive normalized c.password d a
      if a.refusesUser user then (.error (.value "Username is already registered"), a)
      else (.ok user, { a with users := a.users ++ [user] })

/-- `register` is its transaction and then a session. -/
theorem register_eq (c : Credentials) (d : Draws) (a : Accounts) :
    a.register H derive c d =
      match a.enroll derive c d with
      | (.error e, a) => (.error e, a)
      | (.ok user, a) => newSession H user.userId user.username (user.role = .developer) d a := by
  unfold register enroll
  cases normalizedUsername c.username with
  | error e => rfl
  | ok normalized =>
      cases checkPassword c.password with
      | error e => rfl
      | ok u =>
          dsimp only
          split_ifs <;> rfl

/-- `register` accepts the name and the password, and the name is free. -/
def admits (c : Credentials) (a : Accounts) : Bool :=
  match normalizedUsername c.username, checkPassword c.password with
  | .ok normalized, .ok () => (a.userNamed? normalized).isNone
  | _, _ => false

def listUsers (a : Accounts) : List UserRow :=
  a.users.insertionSort fun u v ↦ u.createdAt ≤ v.createdAt

/-- `next(u["user_id"] for u in identity.list_users() if u["username"] == "local-user")` -/
def localUserId? (a : Accounts) : Option String :=
  (a.listUsers.find? fun u ↦ u.username = localUser).map UserRow.userId

end Accounts

/-! ## Processes -/

abbrev ProcessId := Nat

/-- Where a process is in `build_kernel`. -/
inductive Building where
  | idle
  /-- before the query of `ensure_local_user` -/
  | looking
  /-- its query has found no row -/
  | inserting
  /-- before `list_users` -/
  | listing
  deriving DecidableEq

inductive BuildError where
  | integrity (message : String)
  | stopIteration
  deriving DecidableEq

/-- A kernel that was asked for, and its `local_user_id`. -/
structure Build where
  allowAnonymous : Bool
  outcome : Except BuildError (Option String)

structure Deployment where
  accounts : Accounts := {}
  building : ProcessId → Building := fun _ ↦ .idle
  built : List Build := []
  /-- The accounts `register` has created, in order. -/
  registered : List String := []
  /-- The accounts `ensure_local_user` has created. -/
  created : List String := []

inductive Deployment.Event where
  | register (c : Credentials) (d : Draws)
  /-- The session that follows a registration or a login. -/
  | session (userId username : String) (developer : Bool) (d : Draws)
  | build (process : ProcessId) (allowAnonymous : Bool)
  /-- The next statement of a kernel that is being built. -/
  | advance (process : ProcessId) (d : Draws)

namespace Deployment

variable (H : Bytes → String) (derive : String → Bytes → Nat → Bytes)

/-- `uuid4` has not given the id before. -/
def fresh (s : Deployment) (d : Draws) : Bool := (s.accounts.user? d.userId).isNone

def finish (s : Deployment) (process : ProcessId) (outcome : Except BuildError (Option String)) :
    Deployment :=
  { s with
    building := Function.update s.building process .idle
    built := s.built ++ [{ allowAnonymous := true, outcome := outcome }] }

def step (s : Deployment) : Event → Option Deployment
  | .register c d =>
      if s.fresh d then
        match s.accounts.enroll derive c d with
        | (.error _, _) => some s
        | (.ok user, accounts) =>
            some { s with accounts := accounts, registered := s.registered ++ [user.userId] }
      else none
  | .session userId username developer d =>
      some { s with accounts := (s.accounts.newSession H userId username developer d).2 }
  | .build process allowAnonymous =>
      if s.building process ≠ .idle then none
      else if allowAnonymous then
        some { s with building := Function.update s.building process .looking }
      else
        some { s with built := s.built ++ [{ allowAnonymous := false, outcome := .ok none }] }
  | .advance process d =>
      match s.building process with
      | .idle => none
      | .looking =>
          if (s.accounts.userNamed? localUser).isSome then
            some { s with building := Function.update s.building process .listing }
          else some { s with building := Function.update s.building process .inserting }
      | .inserting =>
          if s.fresh d then
            if s.accounts.refusesUser (Accounts.sharedUser d) then
              some (s.finish process
                (.error (.integrity "UNIQUE constraint failed: identity_users.username")))
            else
              some { s with
                accounts := { s.accounts with
                              users := s.accounts.users ++ [Accounts.sharedUser d] }
                building := Function.update s.building process .listing
                created := s.created ++ [d.userId] }
          else none
      | .listing =>
          match s.accounts.localUserId? with
          | some userId => some (s.finish process (.ok (some userId)))
          | none => some (s.finish process (.error .stopIteration))

/-! ## What should hold -/

/-- The first registered account is the developer's and no other is, and each kernel for
anonymous use has the account that was created for it. -/
structure Bootstrapped (s : Deployment) : Prop where
  first : ∀ userId ∈ s.registered.head?, ∃ u ∈ s.accounts.users,
    u.userId = userId ∧ u.role = .developer
  others : ∀ userId ∈ s.registered.tail, ∀ u ∈ s.accounts.users, u.userId = userId →
    u.role ≠ .developer
  builds : ∀ b ∈ s.built, b.allowAnonymous = true →
    ∃ userId ∈ s.created, b.outcome = .ok (some userId) ∧ userId ∉ s.registered

/-- The first registration meets an empty table, `ensure_local_user` finds no registered
account under its name, and between its query and its insertion nobody takes the name. -/
def Undisturbed (s : Deployment) : Event → Prop
  | .register c _ => s.registered = [] → s.accounts.admits c = true → s.accounts.users = []
  | .advance process _ =>
      (s.building process = .looking →
        ∀ u ∈ s.accounts.userNamed? localUser, u.userId ∉ s.registered) ∧
      (s.building process = .inserting → s.accounts.userNamed? localUser = none)
  | _ => True

instance (s : Deployment) : DecidablePred s.Undisturbed
  | .register _ _ => inferInstanceAs (Decidable (_ → _ → _))
  | .session _ _ _ _ => inferInstanceAs (Decidable True)
  | .build _ _ => inferInstanceAs (Decidable True)
  | .advance _ _ => inferInstanceAs (Decidable (_ ∧ _))

/-! ## Whose account a row is -/

/-- Ids and names are unique, and each account was either registered or created. -/
structure Known (users : List UserRow) (registered created : List String) : Prop where
  ids : Table.Unique UserRow.userId users
  names : users.Pairwise fun u v ↦ sameName u.username v.username = false
  ofRegistered : ∀ userId ∈ registered, ∃ u ∈ users, u.userId = userId
  ofCreated : ∀ userId ∈ created, ∃ u ∈ users, u.userId = userId ∧ u.username = localUser
  origin : ∀ u ∈ users, u.userId ∈ registered ∨ u.userId ∈ created
  apart : ∀ userId ∈ created, userId ∉ registered

/-- A kernel that is about to look for its account will find it. -/
structure Sound (s : Deployment) : Prop where
  known : Known s.accounts.users s.registered s.created
  bootstrapped : Bootstrapped s
  found : ∀ process, s.building process = .listing → ∃ u ∈ s.accounts.users,
    u.username = localUser ∧ u.userId ∈ s.created

theorem sameName_self (name : String) : sameName name name = true := by simp [sameName]

theorem sameName_comm (x y : String) : sameName x y = sameName y x := by
  simp only [sameName, eq_comm]

namespace Known

variable {users : List UserRow} {registered created : List String} {u v : UserRow}

theorem eq_of_sameName (h : Known users registered created) (hu : u ∈ users) (hv : v ∈ users)
    (hname : u.username = v.username) : u = v := by
  by_contra hne
  have hsymm : Std.Symm fun x y : UserRow ↦ sameName x.username y.username = false :=
    ⟨fun x y hxy ↦ by rwa [sameName_comm]⟩
  have hapart := h.names.forall hu hv hne
  rw [hname, sameName_self] at hapart
  cases hapart

/-- An id that no row has is in neither list. -/
theorem unlisted (h : Known users registered created) {userId : String}
    (hnew : ∀ v ∈ users, v.userId ≠ userId) : userId ∉ registered ∧ userId ∉ created := by
  constructor
  · intro hmem
    obtain ⟨v, hv, heq⟩ := h.ofRegistered _ hmem
    exact hnew v hv heq
  · intro hmem
    obtain ⟨v, hv, heq, _⟩ := h.ofCreated _ hmem
    exact hnew v hv heq

theorem names_append (h : Known users registered created)
    (hfree : ∀ v ∈ users, sameName v.username u.username = false) :
    (users ++ [u]).Pairwise fun v w ↦ sameName v.username w.username = false := by
  rw [List.pairwise_append]
  refine ⟨h.names, List.pairwise_singleton _ _, fun v hv w hw ↦ ?_⟩
  obtain rfl := List.mem_singleton.mp hw
  exact hfree v hv

theorem register (h : Known users registered created) (hnew : ∀ v ∈ users, v.userId ≠ u.userId)
    (hfree : ∀ v ∈ users, sameName v.username u.username = false) :
    Known (users ++ [u]) (registered ++ [u.userId]) created := by
  refine ⟨h.ids.append hnew, h.names_append hfree, fun x hx ↦ ?_, fun x hx ↦ ?_, fun v hv ↦ ?_,
    fun x hx hmem ↦ ?_⟩
  · rcases List.mem_append.mp hx with hx | hx
    · obtain ⟨v, hv, heq⟩ := h.ofRegistered x hx
      exact ⟨v, List.mem_append_left _ hv, heq⟩
    · exact ⟨u, by simp, (List.mem_singleton.mp hx).symm⟩
  · obtain ⟨v, hv, heq⟩ := h.ofCreated x hx
    exact ⟨v, List.mem_append_left _ hv, heq⟩
  · rcases List.mem_append.mp hv with hv | hv
    · exact (h.origin v hv).imp_left (List.mem_append_left _)
    · obtain rfl := List.mem_singleton.mp hv
      exact .inl (by simp)
  · rcases List.mem_append.mp hmem with hmem | hmem
    · exact h.apart x hx hmem
    · exact (h.unlisted hnew).2 (List.mem_singleton.mp hmem ▸ hx)

theorem create (h : Known users registered created) (hnew : ∀ v ∈ users, v.userId ≠ u.userId)
    (hfree : ∀ v ∈ users, sameName v.username u.username = false)
    (hlocal : u.username = localUser) :
    Known (users ++ [u]) registered (created ++ [u.userId]) := by
  refine ⟨h.ids.append hnew, h.names_append hfree, fun x hx ↦ ?_, fun x hx ↦ ?_, fun v hv ↦ ?_,
    fun x hx hmem ↦ ?_⟩
  · obtain ⟨v, hv, heq⟩ := h.ofRegistered x hx
    exact ⟨v, List.mem_append_left _ hv, heq⟩
  · rcases List.mem_append.mp hx with hx | hx
    · obtain ⟨v, hv, heq⟩ := h.ofCreated x hx
      exact ⟨v, List.mem_append_left _ hv, heq⟩
    · exact ⟨u, by simp, (List.mem_singleton.mp hx).symm, hlocal⟩
  · rcases List.mem_append.mp hv with hv | hv
    · exact (h.origin v hv).imp_right (List.mem_append_left _)
    · obtain rfl := List.mem_singleton.mp hv
      exact .inr (by simp)
  · rcases List.mem_append.mp hx with hx | hx
    · exact h.apart x hx hmem
    · exact (h.unlisted hnew).1 (List.mem_singleton.mp hx ▸ hmem)

/-- The query of `ensure_local_user` finds a registered account or the created one. -/
theorem local_of_unregistered (h : Known users registered created) (hu : u ∈ users)
    (hother : u.userId ∉ registered) : u.username = localUser ∧ u.userId ∈ created := by
  have hmem : u.userId ∈ created := (h.origin u hu).resolve_left hother
  obtain ⟨v, hv, heq, hlocal⟩ := h.ofCreated _ hmem
  obtain rfl := h.ids.eq_of_key hv hu heq
  exact ⟨hlocal, hmem⟩

end Known

/-! ## Each statement -/

section Steps

variable {H derive} {s : Deployment} {c : Credentials} {d : Draws}

/-- What a registration does to the accounts. -/
theorem enroll_cases (c : Credentials) (d : Draws) (a : Accounts) :
    (∃ e, a.enroll derive c d = (.error e, a)) ∨
      ∃ user : UserRow, a.enroll derive c d = (.ok user, { a with users := a.users ++ [user] }) ∧
        a.admits c = true ∧ user.userId = d.userId ∧ a.userNamed? user.username = none ∧
        (user.role = .developer ↔ a.users = []) := by
  unfold Accounts.enroll Accounts.admits
  cases normalizedUsername c.username with
  | error e => exact .inl ⟨e, rfl⟩
  | ok normalized =>
      cases checkPassword c.password with
      | error e => exact .inl ⟨e, rfl⟩
      | ok u =>
          dsimp only
          split_ifs with hrefused
          · exact .inl ⟨_, rfl⟩
          · have hfree : a.userNamed? normalized = none := by
              simpa [Accounts.newUser] using
                (Bool.or_eq_false_iff.mp (Bool.eq_false_of_not_eq_true hrefused)).2
            refine .inr ⟨_, rfl, by simp [hfree], rfl, hfree, ?_⟩
            simp [Accounts.newUser]

theorem new_of_fresh (hfresh : s.fresh d = true) : ∀ v ∈ s.accounts.users, v.userId ≠ d.userId :=
  Table.get?_eq_none_iff.mp (by simpa [fresh, Accounts.user?] using hfresh)

theorem free_of_unnamed {a : Accounts} {name : String} (hfree : a.userNamed? name = none) :
    ∀ v ∈ a.users, sameName v.username name = false := by
  simpa [Accounts.userNamed?] using hfree

theorem Sound.initial : Sound {} where
  known := ⟨List.nodup_nil, List.Pairwise.nil, by simp, by simp, by simp, by simp⟩
  bootstrapped := ⟨by simp, by simp, by simp⟩
  found := by simp

/-- Sessions are no part of it. -/
theorem Sound.withAccounts (h : s.Sound) {accounts : Accounts}
    (husers : accounts.users = s.accounts.users) : Sound { s with accounts := accounts } := by
  obtain ⟨known, ⟨first, others, builds⟩, found⟩ := h
  rw [← husers] at known first others found
  exact ⟨known, ⟨first, others, builds⟩, found⟩

theorem Sound.withBuilding (h : s.Sound) {process : ProcessId} (stage : Building)
    (hfound : stage = .listing → ∃ u ∈ s.accounts.users, u.username = localUser ∧
      u.userId ∈ s.created) :
    Sound { s with building := Function.update s.building process stage } := by
  refine ⟨h.known, ⟨h.bootstrapped.first, h.bootstrapped.others, h.bootstrapped.builds⟩,
    fun p hp ↦ ?_⟩
  by_cases heq : p = process
  · subst heq
    exact hfound (by simpa using hp)
  · exact h.found p (by simpa [heq] using hp)

theorem Sound.withBuilt (h : s.Sound) {b : Build}
    (hb : b.allowAnonymous = true →
      ∃ userId ∈ s.created, b.outcome = .ok (some userId) ∧ userId ∉ s.registered) :
    Sound { s with built := s.built ++ [b] } := by
  refine ⟨h.known, ⟨h.bootstrapped.first, h.bootstrapped.others, fun b' hb' hanonymous ↦ ?_⟩,
    h.found⟩
  rcases List.mem_append.mp hb' with hb' | hb'
  · exact h.bootstrapped.builds b' hb' hanonymous
  · obtain rfl := List.mem_singleton.mp hb'
    exact hb hanonymous

theorem Sound.finish (h : s.Sound) {process : ProcessId}
    {outcome : Except BuildError (Option String)}
    (houtcome : ∃ userId ∈ s.created, outcome = .ok (some userId) ∧ userId ∉ s.registered) :
    Sound (s.finish process outcome) :=
  (h.withBuilding .idle (by simp)).withBuilt fun _ ↦ houtcome

theorem Sound.register (h : s.Sound) (hfresh : s.fresh d = true) {user : UserRow}
    (hid : user.userId = d.userId) (hfree : s.accounts.userNamed? user.username = none)
    (hrole : user.role = .developer ↔ s.accounts.users = [])
    (hguard : s.registered = [] → s.accounts.users = []) :
    Sound { s with
      accounts := { s.accounts with users := s.accounts.users ++ [user] }
      registered := s.registered ++ [user.userId] } := by
  have hnew : ∀ v ∈ s.accounts.users, v.userId ≠ user.userId := hid ▸ new_of_fresh hfresh
  obtain ⟨hregistered, hcreated⟩ := h.known.unlisted hnew
  refine ⟨h.known.register hnew (free_of_unnamed hfree), ⟨fun x hx ↦ ?_, fun x hx ↦ ?_,
    fun b hb hanonymous ↦ ?_⟩, fun p hp ↦ ?_⟩
  · cases hs : s.registered with
    | nil =>
        obtain rfl : user.userId = x := by simpa [hs] using hx
        exact ⟨user, by simp, rfl, hrole.mpr (hguard hs)⟩
    | cons y ys =>
        obtain rfl : y = x := by simpa [hs] using hx
        obtain ⟨u, hu, heq, hdev⟩ := h.bootstrapped.first y (by simp [hs])
        exact ⟨u, List.mem_append_left _ hu, heq, hdev⟩
  · intro u hu heq
    -- a row meets the list it was in before, for the new id is in neither
    cases hs : s.registered with
    | nil => simp [hs] at hx
    | cons y ys =>
        have hx : x ∈ ys ∨ x = user.userId := by simpa [hs] using hx
        have hmem : ∀ z ∈ ys, z ∈ s.registered := fun z hz ↦ by simp [hs, hz]
        rcases List.mem_append.mp hu with hu | hu
        · rcases hx with hx | rfl
          · exact h.bootstrapped.others x (by simpa [hs] using hx) u hu heq
          · exact absurd heq (hnew u hu)
        · obtain rfl := List.mem_singleton.mp hu
          obtain ⟨v, hv, _⟩ := h.known.ofRegistered y (by simp [hs])
          exact fun hdev ↦ List.ne_nil_of_mem hv (hrole.mp hdev)
  · obtain ⟨userId, hmem, hout, hapart⟩ := h.bootstrapped.builds b hb hanonymous
    refine ⟨userId, hmem, hout, fun hx ↦ ?_⟩
    rcases List.mem_append.mp hx with hx | hx
    · exact hapart hx
    · exact hcreated (List.mem_singleton.mp hx ▸ hmem)
  · obtain ⟨u, hu, hlocal⟩ := h.found p hp
    exact ⟨u, List.mem_append_left _ hu, hlocal⟩

theorem Sound.create (h : s.Sound) (hfresh : s.fresh d = true) {process : ProcessId}
    (hfree : s.accounts.userNamed? localUser = none) :
    Sound { s with
      accounts := { s.accounts with users := s.accounts.users ++ [Accounts.sharedUser d] }
      building := Function.update s.building process .listing
      created := s.created ++ [d.userId] } := by
  have hnew : ∀ v ∈ s.accounts.users, v.userId ≠ (Accounts.sharedUser d).userId :=
    new_of_fresh hfresh
  obtain ⟨hregistered, _⟩ := h.known.unlisted hnew
  refine ⟨h.known.create hnew (free_of_unnamed hfree) rfl, ⟨fun x hx ↦ ?_, fun x hx ↦ ?_,
    fun b hb hanonymous ↦ ?_⟩, fun p hp ↦ ?_⟩
  · obtain ⟨u, hu, hdev⟩ := h.bootstrapped.first x hx
    exact ⟨u, List.mem_append_left _ hu, hdev⟩
  · intro u hu heq
    rcases List.mem_append.mp hu with hu | hu
    · exact h.bootstrapped.others x hx u hu heq
    · obtain rfl := List.mem_singleton.mp hu
      exact absurd (heq ▸ List.mem_of_mem_tail hx) hregistered
  · obtain ⟨userId, hmem, hout⟩ := h.bootstrapped.builds b hb hanonymous
    exact ⟨userId, List.mem_append_left _ hmem, hout⟩
  · by_cases heq : p = process
    · exact ⟨Accounts.sharedUser d, by simp, rfl, by simp [Accounts.sharedUser]⟩
    · obtain ⟨u, hu, hlocal, hmem⟩ := h.found p (by simpa [heq] using hp)
      exact ⟨u, List.mem_append_left _ hu, hlocal, List.mem_append_left _ hmem⟩

/-- What the search by name finds is the row a kernel looked for. -/
theorem Sound.localUserId? (h : s.Sound) {process : ProcessId}
    (hlisting : s.building process = .listing) :
    ∃ userId ∈ s.created, s.accounts.localUserId? = some userId ∧ userId ∉ s.registered := by
  obtain ⟨u, hu, hlocal, hmem⟩ := h.found process hlisting
  have hlisted : ∀ v, v ∈ s.accounts.listUsers ↔ v ∈ s.accounts.users := fun v ↦
    (List.perm_insertionSort _ _).mem_iff
  refine ⟨u.userId, hmem, ?_, h.known.apart _ hmem⟩
  unfold Accounts.localUserId?
  cases hfind : s.accounts.listUsers.find? fun v ↦ v.username = localUser with
  | none =>
      have hno := List.find?_eq_none.mp hfind u ((hlisted u).mpr hu)
      exact absurd hlocal (by simpa using hno)
  | some v =>
      have hv : v ∈ s.accounts.users := (hlisted v).mp (List.mem_of_find?_eq_some hfind)
      have hname : v.username = localUser := by simpa using List.find?_some hfind
      obtain rfl := h.known.eq_of_sameName hu hv (hlocal.trans hname.symm)
      rfl

theorem refusesUser_eq_false (hfresh : s.fresh d = true)
    (hfree : s.accounts.userNamed? localUser = none) :
    s.accounts.refusesUser (Accounts.sharedUser d) = false := by
  have hnone : s.accounts.user? d.userId = none := by simpa [fresh] using hfresh
  simp [Accounts.refusesUser, Accounts.sharedUser, hnone, hfree]

/-- A statement that is not disturbed. -/
theorem Sound.keep {l : Event} {s' : Deployment} (h : s.Sound) (hguard : s.Undisturbed l)
    (hstep : s.step H derive l = some s') : s'.Sound := by
  cases l with
  | register c d =>
      simp only [step] at hstep
      split at hstep
      · next hfresh =>
          rcases @enroll_cases derive c d s.accounts with
            ⟨e, heq⟩ | ⟨user, heq, hadmits, hid, hfree, hrole⟩
          · rw [heq] at hstep
            obtain rfl := Option.some.inj hstep
            exact h
          · rw [heq] at hstep
            obtain rfl := Option.some.inj hstep
            exact h.register hfresh hid hfree hrole fun hnil ↦ hguard hnil hadmits
      · cases hstep
  | session userId username developer d =>
      obtain rfl := Option.some.inj hstep
      refine h.withAccounts ?_
      unfold Accounts.newSession
      dsimp only
      split <;> rfl
  | build process allowAnonymous =>
      simp only [step] at hstep
      split at hstep
      · cases hstep
      split at hstep
      · obtain rfl := Option.some.inj hstep
        exact h.withBuilding _ (by simp)
      · obtain rfl := Option.some.inj hstep
        exact h.withBuilt (by simp)
  | advance process d =>
      simp only [step] at hstep
      cases hbuilding : s.building process with
      | idle =>
          rw [hbuilding] at hstep
          cases hstep
      | looking =>
          rw [hbuilding] at hstep
          simp only at hstep
          cases hfind : s.accounts.userNamed? localUser with
          | none =>
              rw [hfind] at hstep
              obtain rfl := Option.some.inj hstep
              exact h.withBuilding _ (by simp)
          | some u =>
              rw [hfind] at hstep
              obtain rfl := Option.some.inj hstep
              have hu : u ∈ s.accounts.users := List.mem_of_find?_eq_some hfind
              exact h.withBuilding _ fun _ ↦
                ⟨u, hu, h.known.local_of_unregistered hu (hguard.1 hbuilding u hfind)⟩
      | inserting =>
          rw [hbuilding] at hstep
          simp only at hstep
          split at hstep
          · next hfresh =>
              have hfree := hguard.2 hbuilding
              rw [refusesUser_eq_false hfresh hfree] at hstep
              obtain rfl := Option.some.inj hstep
              exact h.create hfresh hfree
          · cases hstep
      | listing =>
          rw [hbuilding] at hstep
          obtain ⟨userId, hmem, hlocal, hapart⟩ := h.localUserId? hbuilding
          simp only [hlocal] at hstep
          obtain rfl := Option.some.inj hstep
          exact h.finish ⟨userId, hmem, rfl, hapart⟩

end Steps

/-! ## Every interleaving -/

section Runs

variable {H derive} {ls : List Event} {s : Deployment}

theorem bootstrapped_of_undisturbed
    (hguard : ∀ s l s', Takes (step H derive) {} ls s l s' → s.Undisturbed l)
    (hs : Visits (step H derive) {} ls s) : s.Bootstrapped :=
  ((hs.reachableBy hguard).invariant Sound.initial fun _ _ _ h hl hstep ↦
    h.keep hl hstep).bootstrapped

def alice : Credentials := { username := " Alice ", password := "correct horse" }

def bob : Credentials := { username := "bob", password := "battery staple" }

/-- Registrations around two kernels for anonymous use, and one that is not. -/
def sharedLater : List Event :=
  [.register alice { userId := "user-1", now := 1 }, .session "user-1" "Alice" true { now := 2 },
    .build 0 true, .build 2 false, .advance 0 {}, .build 1 true,
    .advance 0 { userId := "user-2", now := 3 }, .register bob { userId := "user-3", now := 4 },
    .advance 1 {}, .advance 0 {}, .advance 1 {}]

theorem bootstrapped_sharedLater :
    ∃ s, Visits (step (fun _ ↦ "digest") fun _ _ _ ↦ [1]) {} sharedLater s ∧
      s.registered = ["user-1", "user-3"] ∧ s.created = ["user-2"] ∧ s.built.length = 3 ∧
      s.Bootstrapped := by
  have hrun : ((run (step (fun _ ↦ "digest") fun _ _ _ ↦ [1]) {} sharedLater).any fun s ↦
      s.registered = ["user-1", "user-3"] ∧ s.created = ["user-2"] ∧
        s.built.length = 3) = true := by
    decide +kernel
  obtain ⟨s, hs, hp⟩ := Visits.of_any hrun
  obtain ⟨hregistered, hcreated, hbuilt⟩ := of_decide_eq_true hp
  refine ⟨s, hs, hregistered, hcreated, hbuilt,
    bootstrapped_of_undisturbed (fun s l _ htakes ↦ ?_) hs⟩
  have hall : allSteps (step (fun _ ↦ "digest") fun _ _ _ ↦ [1])
      (fun s l ↦ decide (s.Undisturbed l)) {} sharedLater = true := by decide +kernel
  have hl := Takes.of_allSteps hall htakes
  exact of_decide_eq_true hl

/-- A kernel for anonymous use is built first, and the first registration follows. -/
def sharedFirst : List Event :=
  [.build 0 true, .advance 0 {}, .advance 0 { userId := "user-1", now := 1 }, .advance 0 {},
    .register alice { userId := "user-2", now := 2 }]

/-- The name of the shared identity is registered before the kernel is built. -/
def takenName : List Event :=
  [.register { username := "local-user", password := "correct horse" }
      { userId := "user-1", now := 1 },
    .build 0 true, .advance 0 {}, .advance 0 {}]

theorem not_bootstrapped :
    (∃ s, Visits (step (fun _ ↦ "digest") fun _ _ _ ↦ [1]) {} sharedFirst s ∧
      s.registered = ["user-2"] ∧ ¬s.Bootstrapped) ∧
    ∃ s, Visits (step (fun _ ↦ "digest") fun _ _ _ ↦ [1]) {} takenName s ∧
      s.registered = ["user-1"] ∧ ¬s.Bootstrapped := by
  constructor
  · have hrun : ((run (step (fun _ ↦ "digest") fun _ _ _ ↦ [1]) {} sharedFirst).any fun s ↦
        s.registered = ["user-2"] ∧ ∀ u ∈ s.accounts.users, u.userId = "user-2" →
          u.role ≠ .developer) = true := by
      decide +kernel
    obtain ⟨s, hs, hp⟩ := Visits.of_any hrun
    obtain ⟨hregistered, hmember⟩ := of_decide_eq_true hp
    refine ⟨s, hs, hregistered, fun h ↦ ?_⟩
    obtain ⟨u, hu, hid, hdeveloper⟩ := h.first "user-2" (by simp [hregistered])
    exact hmember u hu hid hdeveloper
  · have hrun : ((run (step (fun _ ↦ "digest") fun _ _ _ ↦ [1]) {} takenName).any fun s ↦
        s.registered = ["user-1"] ∧ s.created = [] ∧
          s.built.map Build.allowAnonymous = [true]) = true := by
      decide +kernel
    obtain ⟨s, hs, hp⟩ := Visits.of_any hrun
    obtain ⟨hregistered, hcreated, hbuilt⟩ := of_decide_eq_true hp
    refine ⟨s, hs, hregistered, fun h ↦ ?_⟩
    obtain ⟨b, hb, hanonymous⟩ : ∃ b ∈ s.built, b.allowAnonymous = true :=
      List.mem_map.mp (by simp [hbuilt])
    obtain ⟨userId, hmem, _⟩ := h.builds b hb hanonymous
    simp [hcreated] at hmem

end Runs

end Deployment

end ChipEvolve.Identity
