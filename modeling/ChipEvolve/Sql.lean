import Mathlib.Tactic.Common

/-!
# One connection, its transactions and its exceptions

A method of a store is a program over one database connection.  An exception
does not undo the statements that ran before it: only `rollback` does, and only
inside a transaction.  `immediate` is the shape every transactional method has,
`BEGIN IMMEDIATE` followed by a body whose exceptions are caught, rolled back
and raised again; the body itself says where it commits.
-/

/-- The tables a connection sees and, inside a transaction, those `ROLLBACK`
restores. -/
structure Conn (δ : Type) where
  db : δ
  saved : Option δ := none

/-- The exceptions of a store include the engine's own. -/
class SqlError (ε : Type) where
  operational : String → ε

/-- A program on a connection to tables `δ` that may raise an `ε`. -/
def Sql (δ ε α : Type) : Type := Conn δ → Except ε α × Conn δ

namespace Sql

variable {δ ε α β : Type}

instance : Monad (Sql δ ε) where
  pure a := fun c ↦ (.ok a, c)
  bind m f := fun c ↦
    match m c with
    | (.ok a, c') => f a c'
    | (.error e, c') => (.error e, c')

def raise (e : ε) : Sql δ ε α := fun c ↦ (.error e, c)

/-- Read from the tables the connection sees. -/
def query (f : δ → α) : Sql δ ε α := fun c ↦ (.ok (f c.db), c)

/-- Run a statement that cannot fail. -/
def execute (f : δ → δ) : Sql δ ε Unit := fun c ↦ (.ok (), { c with db := f c.db })

/-- Run a statement unless it violates a constraint. -/
def executeChecked (violated : δ → Bool) (e : ε) (f : δ → δ) : Sql δ ε Unit := fun c ↦
  if violated c.db then (.error e, c) else (.ok (), { c with db := f c.db })

/-- Run a statement that reports something about the rows it met. -/
def executeReturning (f : δ → α × δ) : Sql δ ε α := fun c ↦
  (.ok (f c.db).1, { c with db := (f c.db).2 })

/-- Read from the tables something that may not be readable. -/
def reading (f : δ → Except ε α) : Sql δ ε α := fun c ↦ (f c.db, c)

section Transactions

variable [SqlError ε]

def beginImmediate : Sql δ ε Unit := fun c ↦
  match c.saved with
  | some _ => (.error (SqlError.operational "cannot start a transaction within a transaction"), c)
  | none => (.ok (), { c with saved := some c.db })

def commit : Sql δ ε Unit := fun c ↦
  match c.saved with
  | some _ => (.ok (), { c with saved := none })
  | none => (.error (SqlError.operational "cannot commit - no transaction is active"), c)

def rollback : Sql δ ε Unit := fun c ↦
  match c.saved with
  | some d => (.ok (), { db := d })
  | none => (.error (SqlError.operational "cannot rollback - no transaction is active"), c)

/-- `try: … except Exception: ROLLBACK; raise` -/
def rollingBack (body : Sql δ ε α) : Sql δ ε α := fun c ↦
  match body c with
  | (.ok a, c') => (.ok a, c')
  | (.error e, c') => (do rollback; raise e : Sql δ ε α) c'

def immediate (body : Sql δ ε α) : Sql δ ε α := do
  beginImmediate
  rollingBack body

end Transactions

/-- Run a method from a connection that is in no transaction, and look at the
tables it leaves. -/
def exec (m : Sql δ ε α) (d : δ) : Except ε α × δ :=
  ((m { db := d }).1, (m { db := d }).2.db)

/-! ## Evaluation -/

@[simp] theorem pure_apply (a : α) (c : Conn δ) : (pure a : Sql δ ε α) c = (.ok a, c) := rfl

theorem bind_apply (m : Sql δ ε α) (f : α → Sql δ ε β) (c : Conn δ) :
    (m >>= f) c =
      match m c with
      | (.ok a, c') => f a c'
      | (.error e, c') => (.error e, c') := rfl

@[simp] theorem raise_apply (e : ε) (c : Conn δ) : (raise e : Sql δ ε α) c = (.error e, c) := rfl

@[simp] theorem query_bind (g : δ → α) (f : α → Sql δ ε β) (c : Conn δ) :
    (query g >>= f) c = f (g c.db) c := rfl

theorem reading_bind (g : δ → Except ε α) (f : α → Sql δ ε β) (c : Conn δ) :
    (reading g >>= f) c =
      match g c.db with
      | .ok a => f a c
      | .error e => (.error e, c) := by
  rw [bind_apply, reading]
  cases g c.db <;> rfl

@[simp] theorem query_apply (g : δ → α) (c : Conn δ) :
    (query g : Sql δ ε α) c = (.ok (g c.db), c) := rfl

@[simp] theorem execute_bind (g : δ → δ) (f : Unit → Sql δ ε β) (c : Conn δ) :
    (execute g >>= f) c = f () { c with db := g c.db } := rfl

@[simp] theorem executeReturning_bind (g : δ → α × δ) (f : α → Sql δ ε β) (c : Conn δ) :
    (executeReturning g >>= f) c = f (g c.db).1 { c with db := (g c.db).2 } := rfl

theorem executeChecked_bind (v : δ → Bool) (e : ε) (g : δ → δ) (f : Unit → Sql δ ε β)
    (c : Conn δ) :
    (executeChecked v e g >>= f) c =
      if v c.db then (.error e, c) else f () { c with db := g c.db } := by
  cases hv : v c.db <;> simp [bind_apply, executeChecked, hv]

theorem bind_eq_ok {m : Sql δ ε α} {f : α → Sql δ ε β} {c c'' : Conn δ} {b : β} :
    (m >>= f) c = (.ok b, c'') ↔ ∃ a c', m c = (.ok a, c') ∧ f a c' = (.ok b, c'') := by
  rw [bind_apply]
  rcases m c with ⟨_ | _, _⟩ <;> simp

theorem raise_bind (e : ε) (f : α → Sql δ ε β) : (raise e : Sql δ ε α) >>= f = raise e := rfl

theorem bind_bind {γ : Type} (m : Sql δ ε α) (f : α → Sql δ ε β) (g : β → Sql δ ε γ) :
    (m >>= f) >>= g = m >>= fun a ↦ f a >>= g := by
  funext c
  simp only [bind_apply]
  rcases m c with ⟨_ | _, _⟩ <;> rfl

theorem ite_bind (p : Prop) [Decidable p] (m n : Sql δ ε α) (f : α → Sql δ ε β) :
    (if p then m else n) >>= f = if p then m >>= f else n >>= f := by
  split <;> rfl

theorem ite_apply (p : Prop) [Decidable p] (m n : Sql δ ε α) (c : Conn δ) :
    (if p then m else n) c = if p then m c else n c := by
  split <;> rfl

section Transactions

variable [SqlError ε]

@[simp] theorem commit_bind (d s : δ) (f : Unit → Sql δ ε β) :
    (commit >>= f) { db := d, saved := some s } = f () { db := d } := rfl

@[simp] theorem commit_apply (d s : δ) :
    (commit : Sql δ ε Unit) { db := d, saved := some s } = (.ok (), { db := d }) := rfl

@[simp] theorem rollback_bind (d s : δ) (f : Unit → Sql δ ε β) :
    (rollback >>= f) { db := d, saved := some s } = f () { db := s } := rfl

/-- What the handler makes of a body's outcome. -/
def handled : Except ε α × Conn δ → Except ε α × Conn δ
  | (.ok a, c) => (.ok a, c)
  | (.error e, c) => (do rollback; raise e : Sql δ ε α) c

theorem immediate_apply (body : Sql δ ε α) (d : δ) :
    immediate body { db := d } = handled (body { db := d, saved := some d }) := by
  unfold immediate
  rw [bind_apply]
  simp only [beginImmediate, rollingBack, handled]

@[simp] theorem handled_ok (a : α) (c : Conn δ) :
    handled ((.ok a, c) : Except ε α × Conn δ) = (.ok a, c) := rfl

/-- An exception before the commit restores the tables of the `BEGIN`. -/
@[simp] theorem handled_error (e : ε) (d s : δ) :
    handled ((.error e, { db := d, saved := some s }) : Except ε α × Conn δ) =
      (.error e, { db := s }) := rfl

theorem handled_eq_ok {x : Except ε α × Conn δ} {a : α} {c : Conn δ} :
    handled x = (.ok a, c) ↔ x = (.ok a, c) := by
  rcases x with ⟨_ | _, d, _ | _⟩ <;> simp [handled, bind_apply, rollback]

end Transactions

theorem exec_eq_of_apply {m : Sql δ ε α} {d d' : δ} {r : Except ε α} {saved : Option δ}
    (h : m { db := d } = (r, { db := d', saved := saved })) : exec m d = (r, d') := by
  simp [exec, h]

/-! ## Methods that raise -/

/-- A method that raises, called outside a transaction, leaves every table as it was and no
transaction open. -/
def Undone (m : Sql δ ε α) (d : δ) : Prop :=
  ∀ e, (m { db := d }).1 = .error e → (m { db := d }).2 = { db := d }

/-- The program changes nothing. -/
def Quiet (m : Sql δ ε α) : Prop := ∀ c, (m c).2 = c

/-- Inside a transaction, the program stays in it. -/
def Inside (m : Sql δ ε α) : Prop := ∀ d s, (m { db := d, saved := some s }).2.saved = some s

/-- Inside a transaction, the program ends it exactly if it does not raise. -/
def Settles (m : Sql δ ε α) : Prop := ∀ d s,
  match m { db := d, saved := some s } with
  | (.ok _, c) => c.saved = none
  | (.error _, c) => c.saved = some s

section Rules

variable {m : Sql δ ε α} {f : α → Sql δ ε β} {d : δ}

theorem quiet_pure (a : α) : Quiet (pure a : Sql δ ε α) := fun _ ↦ rfl

theorem quiet_raise (e : ε) : Quiet (raise e : Sql δ ε α) := fun _ ↦ rfl

theorem quiet_query (g : δ → α) : Quiet (query g : Sql δ ε α) := fun _ ↦ rfl

theorem quiet_reading (g : δ → Except ε α) : Quiet (reading g) := fun _ ↦ rfl

theorem Quiet.inside (h : Quiet m) : Inside m := fun d s ↦ by rw [h]

theorem inside_execute (g : δ → δ) : Inside (execute g : Sql δ ε Unit) := fun _ _ ↦ rfl

theorem inside_executeChecked (v : δ → Bool) (e : ε) (g : δ → δ) :
    Inside (executeChecked v e g) := by
  intro d s
  unfold executeChecked
  split <;> rfl

theorem Inside.bind (hm : Inside m) (hf : ∀ a, Inside (f a)) : Inside (m >>= f) := by
  intro d s
  rw [bind_apply]
  have hsaved := hm d s
  cases h : m { db := d, saved := some s } with
  | mk result c =>
      rw [h] at hsaved
      obtain ⟨d', _⟩ := c
      obtain rfl : _ = some s := hsaved
      cases result with
      | ok a => exact hf a d' s
      | error e => rfl

theorem Inside.forM {ι : Type} {g : ι → Sql δ ε PUnit} (h : ∀ i, Inside (g i)) (is : List ι) :
    Inside (is.forM g) := by
  induction is with
  | nil => exact (quiet_pure _).inside
  | cons i is ih => exact (h i).bind fun _ ↦ ih

theorem settles_raise (e : ε) : Settles (raise e : Sql δ ε α) := fun _ _ ↦ rfl

/-- Before the part that commits, a program stays inside its transaction. -/
theorem Inside.settles (hm : Inside m) (hf : ∀ a, Settles (f a)) : Settles (m >>= f) := by
  intro d s
  rw [bind_apply]
  have hsaved := hm d s
  cases h : m { db := d, saved := some s } with
  | mk result c =>
      rw [h] at hsaved
      obtain ⟨d', _⟩ := c
      obtain rfl : _ = some s := hsaved
      cases result with
      | ok a => exact hf a d' s
      | error e => rfl

theorem Quiet.undone (h : Quiet m) : Undone m d := fun _ _ ↦ h _

/-- What only reads may come before a method. -/
theorem Quiet.undone_bind (hm : Quiet m) (hf : ∀ a, Undone (f a) d) : Undone (m >>= f) d := by
  intro e
  rw [bind_apply]
  have hsame := hm { db := d }
  cases h : m { db := d } with
  | mk result c =>
      rw [h] at hsame
      obtain rfl : c = { db := d } := hsame
      cases result with
      | ok a => exact hf a e
      | error e => exact fun _ ↦ rfl

/-- What follows a method does not raise where it is reached. -/
theorem Undone.bind (hm : Undone m d)
    (hf : ∀ a c, m { db := d } = (.ok a, c) → ∃ b, (f a c).1 = .ok b) : Undone (m >>= f) d := by
  intro e
  rw [bind_apply]
  cases h : m { db := d } with
  | mk result c =>
      cases result with
      | ok a =>
          obtain ⟨b, hb⟩ := hf a c h
          exact fun he ↦ by rw [hb] at he; cases he
      | error e' =>
          have hsame := hm e' (by rw [h])
          rw [h] at hsame
          exact fun _ ↦ hsame

section Committing

variable [SqlError ε]

theorem settles_commit : Settles (commit : Sql δ ε Unit) := fun _ _ ↦ rfl

/-- Nothing that raises may come after the commit. -/
theorem settles_commit_pure (a : α) : Settles (do commit; pure a : Sql δ ε α) := fun _ _ ↦ rfl

/-- The rollback restores the tables where the body raises before it ended its transaction. -/
theorem Settles.undone (h : Settles m) (d : δ) : Undone (immediate m) d := by
  intro e
  rw [immediate_apply]
  have hsettles := h d d
  cases hm : m { db := d, saved := some d } with
  | mk result c =>
      rw [hm] at hsettles
      obtain ⟨d', _⟩ := c
      cases result with
      | ok a => exact fun h ↦ by cases h
      | error e' =>
          obtain rfl : _ = some d := hsettles
          exact fun _ ↦ rfl

/-- A body that reads after its commit: if that raises, there is nothing to roll back, and what
was committed stays. -/
theorem undone_immediate_reading {γ : Type} (hm : Inside m) {g : δ → Except ε γ} :
    Undone (immediate do
        let _ ← m
        commit
        reading g) d ↔
      ∀ a c, m { db := d, saved := some d } = (.ok a, c) → (∃ b, g c.db = .ok b) ∨ c.db = d := by
  unfold Undone
  rw [immediate_apply, bind_apply]
  have hsaved := hm d d
  cases h : m { db := d, saved := some d } with
  | mk result c =>
      rw [h] at hsaved
      obtain ⟨d', _⟩ := c
      obtain rfl : _ = some d := hsaved
      cases result with
      | error e => simp
      | ok a =>
          simp only [commit_bind, reading, Prod.mk.injEq, Except.ok.injEq]
          cases hg : g d' with
          | ok b => simp [hg]
          | error e =>
              simp only [handled, rollback, bind_apply]
              constructor
              · rintro hundone _ _ ⟨rfl, rfl⟩
                exact .inr (congrArg Conn.db (hundone _ rfl))
              · intro hsame e' _
                rcases hsame a _ ⟨rfl, rfl⟩ with ⟨b, hb⟩ | hdb
                · rw [hg] at hb
                  cases hb
                · exact congrArg (fun db ↦ ({ db := db } : Conn δ)) hdb

end Committing

end Rules

/-! ## The same method on other tables -/

/-- Related tables, and related tables to restore. -/
structure Related {δ' : Type} (R : δ → δ' → Prop) (c : Conn δ) (c' : Conn δ') : Prop where
  db : R c.db c'.db
  saved : Option.Rel R c.saved c'.saved

/-- The programs return the same from related tables, and leave related tables. -/
def Refines {δ' : Type} (R : δ → δ' → Prop) (m : Sql δ ε α) (m' : Sql δ' ε α) : Prop :=
  ∀ c c', Related R c c' → (m c).1 = (m' c').1 ∧ Related R (m c).2 (m' c').2

section Refinement

variable {δ' : Type} {R : δ → δ' → Prop} {m : Sql δ ε α} {m' : Sql δ' ε α} {f : α → Sql δ ε β}
  {f' : α → Sql δ' ε β}

theorem refines_pure (a : α) : Refines R (pure a : Sql δ ε α) (pure a) := fun _ _ h ↦ ⟨rfl, h⟩

theorem refines_raise (e : ε) : Refines R (raise e : Sql δ ε α) (raise e) := fun _ _ h ↦ ⟨rfl, h⟩

theorem refines_query {g : δ → α} {g' : δ' → α} (h : ∀ d d', R d d' → g d = g' d') :
    Refines R (query g : Sql δ ε α) (query g') :=
  fun _ _ hc ↦ ⟨congrArg Except.ok (h _ _ hc.db), hc⟩

theorem refines_execute {g : δ → δ} {g' : δ' → δ'} (h : ∀ d d', R d d' → R (g d) (g' d')) :
    Refines R (execute g : Sql δ ε Unit) (execute g') :=
  fun _ _ hc ↦ ⟨rfl, h _ _ hc.db, hc.saved⟩

theorem refines_executeChecked {v : δ → Bool} {v' : δ' → Bool} (e : ε) {g : δ → δ} {g' : δ' → δ'}
    (hv : ∀ d d', R d d' → v d = v' d') (hg : ∀ d d', R d d' → R (g d) (g' d')) :
    Refines R (executeChecked v e g) (executeChecked v' e g') := by
  intro c c' hc
  unfold executeChecked
  rw [hv _ _ hc.db]
  split
  · exact ⟨rfl, hc⟩
  · exact ⟨rfl, hg _ _ hc.db, hc.saved⟩

theorem Refines.bind (hm : Refines R m m') (hf : ∀ a, Refines R (f a) (f' a)) :
    Refines R (m >>= f) (m' >>= f') := by
  intro c c' hc
  obtain ⟨hresult, hrelated⟩ := hm c c' hc
  rw [bind_apply, bind_apply]
  rcases hmc : m c with ⟨result, d⟩
  rcases hmc' : m' c' with ⟨result', d'⟩
  rw [hmc, hmc'] at hresult hrelated
  obtain rfl : result = result' := hresult
  cases result with
  | ok a => exact hf a d d' hrelated
  | error e => exact ⟨rfl, hrelated⟩

/-- What is read without raising need not be read on the other side. -/
theorem refines_reading_bind {g : δ → Except ε α} {n : Sql δ' ε β} {a : α}
    (hread : ∀ d d', R d d' → g d = .ok a) (hf : Refines R (f a) n) :
    Refines R (reading g >>= f) n := by
  intro c c' hc
  have hstep : (reading g >>= f) c = f a c := by
    simp only [bind_apply, reading, hread _ _ hc.db]
  rw [hstep]
  exact hf c c' hc

theorem refines_query_bind {g : δ → α} {n : Sql δ' ε β} {a : α} (hread : ∀ d d', R d d' → g d = a)
    (hf : Refines R (f a) n) : Refines R (query g >>= f) n :=
  refines_reading_bind (fun d d' h ↦ congrArg Except.ok (hread d d' h)) hf

theorem Refines.ite {p : Prop} [Decidable p] {n : Sql δ ε α} {n' : Sql δ' ε α}
    (hm : Refines R m m') (hn : Refines R n n') :
    Refines R (if p then m else n) (if p then m' else n') := by
  split
  · exact hm
  · exact hn

variable [SqlError ε]

theorem refines_commit : Refines R (commit : Sql δ ε Unit) commit := by
  rintro ⟨d, saved⟩ ⟨d', saved'⟩ ⟨hdb, hsaved⟩
  cases hsaved with
  | some h => exact ⟨rfl, hdb, .none⟩
  | none => exact ⟨rfl, hdb, .none⟩

theorem refines_rollback : Refines R (rollback : Sql δ ε Unit) rollback := by
  rintro ⟨d, saved⟩ ⟨d', saved'⟩ ⟨hdb, hsaved⟩
  cases hsaved with
  | some h => exact ⟨rfl, h, .none⟩
  | none => exact ⟨rfl, hdb, .none⟩

theorem refines_beginImmediate : Refines R (beginImmediate : Sql δ ε Unit) beginImmediate := by
  rintro ⟨d, saved⟩ ⟨d', saved'⟩ ⟨hdb, hsaved⟩
  cases hsaved with
  | some h => exact ⟨rfl, hdb, .some h⟩
  | none => exact ⟨rfl, hdb, .some hdb⟩

theorem Refines.rollingBack (h : Refines R m m') : Refines R (rollingBack m) (rollingBack m') := by
  intro c c' hc
  obtain ⟨hresult, hrelated⟩ := h c c' hc
  unfold Sql.rollingBack
  rcases hmc : m c with ⟨result, d⟩
  rcases hmc' : m' c' with ⟨result', d'⟩
  rw [hmc, hmc'] at hresult hrelated
  obtain rfl : result = result' := hresult
  cases result with
  | ok a => exact ⟨rfl, hrelated⟩
  | error e => exact refines_rollback.bind (fun _ ↦ refines_raise e) d d' hrelated

theorem Refines.immediate (h : Refines R m m') : Refines R (immediate m) (immediate m') :=
  refines_beginImmediate.bind fun _ ↦ h.rollingBack

end Refinement

end Sql
