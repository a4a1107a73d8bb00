import Mathlib.Data.List.Forall2
import Mathlib.Tactic.Common

/-!
# Programs that return or raise

Inversion of the binds and the loops of `Except`: what a run that returned must
have done, step by step and item by item, with lists related item by item.
-/

/-! ## Pointwise related lists -/

namespace Pointwise

variable {α β : Type*} {R : α → β → Prop} {xs : List α} {ys : List β}

theorem mem (h : List.Forall₂ R xs ys) :
    (∀ x ∈ xs, ∃ y ∈ ys, R x y) ∧ ∀ y ∈ ys, ∃ x ∈ xs, R x y := by
  induction h with
  | nil => simp
  | cons hR _ ih =>
      simp only [List.forall_mem_cons, List.exists_mem_cons_iff]
      exact ⟨⟨.inl hR, fun x hx ↦ .inr (ih.1 x hx)⟩, .inl hR, fun y hy ↦ .inr (ih.2 y hy)⟩

theorem exists_of_forall (h : ∀ x ∈ xs, ∃ y, R x y) : ∃ ys, List.Forall₂ R xs ys := by
  induction xs with
  | nil => exact ⟨[], .nil⟩
  | cons x xs ih =>
      rw [List.forall_mem_cons] at h
      obtain ⟨y, hy⟩ := h.1
      obtain ⟨ys, hys⟩ := ih h.2
      exact ⟨y :: ys, .cons hy hys⟩

/-- A relation that is a function on the items of a list. -/
theorem eq_map_iff {f : α → β} (h : ∀ x ∈ xs, ∀ y, R x y ↔ y = f x) :
    List.Forall₂ R xs ys ↔ ys = xs.map f := by
  induction xs generalizing ys with
  | nil => simp
  | cons x xs ih =>
      rw [List.forall_mem_cons] at h
      rw [List.forall₂_cons_left_iff, List.map_cons]
      constructor
      · rintro ⟨y, rest, hy, hrest, rfl⟩
        rw [(h.1 y).mp hy, (ih h.2).mp hrest]
      · rintro rfl
        exact ⟨f x, xs.map f, (h.1 _).mpr rfl, (ih h.2).mpr rfl, rfl⟩

end Pointwise

/-! ## Returning and raising -/

namespace Except

universe u

variable {ε : Type*} {α β : Type u}

theorem bind_eq_ok {x : Except ε α} {f : α → Except ε β} {b : β} :
    (x >>= f) = .ok b ↔ ∃ a, x = .ok a ∧ f a = .ok b := by
  cases x <;> simp [bind, Except.bind]

theorem bind_eq_error {x : Except ε α} {f : α → Except ε β} {e : ε} :
    (x >>= f) = .error e ↔ x = .error e ∨ ∃ a, x = .ok a ∧ f a = .error e := by
  cases x <;> simp [bind, Except.bind]

theorem map_eq_ok {x : Except ε α} {f : α → β} {b : β} :
    x.map f = .ok b ↔ ∃ a, x = .ok a ∧ f a = b := by
  cases x <;> simp [Except.map]

theorem map_eq_error {x : Except ε α} {f : α → β} {e : ε} :
    x.map f = .error e ↔ x = .error e := by
  cases x <;> simp [Except.map]

theorem toOption_eq_some {x : Except ε α} {a : α} : x.toOption = some a ↔ x = .ok a := by
  cases x <;> simp [Except.toOption]

/-- A loop that returned has one answer for each item, in order. -/
theorem forall₂_of_mapM {f : α → Except ε β} {xs : List α} {ys : List β}
    (h : xs.mapM f = .ok ys) : List.Forall₂ (fun x y ↦ f x = .ok y) xs ys := by
  induction xs generalizing ys with
  | nil =>
      obtain rfl : [] = ys := Except.ok.inj h
      exact .nil
  | cons x xs ih =>
      rw [List.mapM_cons] at h
      obtain ⟨y, hy, h⟩ := bind_eq_ok.mp h
      obtain ⟨rest, hrest, h⟩ := bind_eq_ok.mp h
      obtain rfl := Except.ok.inj h
      exact .cons hy (ih hrest)

theorem mapM_of_forall₂ {f : α → Except ε β} {xs : List α} {ys : List β}
    (h : List.Forall₂ (fun x y ↦ f x = .ok y) xs ys) : xs.mapM f = .ok ys := by
  induction h with
  | nil => rfl
  | cons hy _ ih =>
      rw [List.mapM_cons, hy, ih]
      rfl

theorem mem_of_mapM {f : α → Except ε β} {xs : List α} {ys : List β} (h : xs.mapM f = .ok ys) :
    (∀ x ∈ xs, ∃ y ∈ ys, f x = .ok y) ∧ ∀ y ∈ ys, ∃ x ∈ xs, f x = .ok y :=
  Pointwise.mem (forall₂_of_mapM h)

theorem mapM_of_forall {f : α → Except ε β} {xs : List α}
    (h : ∀ x ∈ xs, ∃ y, f x = .ok y) : ∃ ys, xs.mapM f = .ok ys :=
  (Pointwise.exists_of_forall h).imp fun _ ↦ mapM_of_forall₂

theorem mapM_congr {f g : α → Except ε β} {xs : List α} (h : ∀ x ∈ xs, f x = g x) :
    xs.mapM f = xs.mapM g := by
  induction xs with
  | nil => rfl
  | cons x xs ih =>
      rw [List.mapM_cons, List.mapM_cons, h x List.mem_cons_self,
        ih fun y hy ↦ h y (List.mem_cons_of_mem _ hy)]

theorem forM_congr {f g : α → Except ε PUnit} {xs : List α} (h : ∀ x ∈ xs, f x = g x) :
    xs.forM f = xs.forM g := by
  induction xs with
  | nil => rfl
  | cons x xs ih =>
      change (f x >>= fun _ ↦ xs.forM f) = (g x >>= fun _ ↦ xs.forM g)
      rw [h x List.mem_cons_self, ih fun y hy ↦ h y (List.mem_cons_of_mem _ hy)]

/-- What every item of a loop keeps holds at its end. -/
theorem foldlM_keeps {P : β → Prop} {f : β → α → Except ε β} {xs : List α} {b b' : β}
    (hkeep : ∀ b x b', x ∈ xs → P b → f b x = .ok b' → P b') (hb : P b)
    (h : xs.foldlM f b = .ok b') : P b' := by
  induction xs generalizing b with
  | nil =>
      obtain rfl := Except.ok.inj h
      exact hb
  | cons x xs ih =>
      rw [List.foldlM_cons] at h
      obtain ⟨next, hnext, h⟩ := bind_eq_ok.mp h
      exact ih (fun b y b' hy ↦ hkeep b y b' (List.mem_cons_of_mem _ hy))
        (hkeep _ _ _ List.mem_cons_self hb hnext) h

theorem map_mapM {γ : Type u} {f : α → Except ε β} {g : β → γ} {xs : List α} :
    (xs.mapM f).map (List.map g) = xs.mapM fun x ↦ (f x).map g := by
  induction xs with
  | nil => rfl
  | cons x xs ih =>
      rw [List.mapM_cons, List.mapM_cons, ← ih]
      cases f x with
      | error e => rfl
      | ok y => cases xs.mapM f <;> rfl

/-- A loop of checks passes if each of them does. -/
theorem forM_eq_ok {f : α → Except ε PUnit} {xs : List α} :
    xs.forM f = .ok ⟨⟩ ↔ ∀ x ∈ xs, f x = .ok ⟨⟩ := by
  induction xs with
  | nil => simp [List.forM, pure, Except.pure]
  | cons x xs ih =>
      have hcons : (x :: xs).forM f = (f x >>= fun _ ↦ xs.forM f) := rfl
      rw [hcons, bind_eq_ok, List.forall_mem_cons, ← ih]
      exact ⟨fun ⟨_, hx, hrest⟩ ↦ ⟨hx, hrest⟩, fun ⟨hx, hrest⟩ ↦ ⟨⟨⟩, hx, hrest⟩⟩

/-! ## What is raised -/

/-- The program raises, and what it raises meets `P`. -/
def Raises {α : Type*} (P : ε → Prop) (x : Except ε α) : Prop := ∃ e, x = .error e ∧ P e

/-- The program returns. -/
def Returns {α : Type*} (x : Except ε α) : Prop := ∃ a, x = .ok a

section Raises

variable {P : ε → Prop}

@[simp] theorem raises_ok {a : α} : ¬Raises P (.ok a : Except ε α) := by
  rintro ⟨_, h, _⟩
  cases h

@[simp] theorem raises_pure {a : α} : ¬Raises P (pure a : Except ε α) := raises_ok

@[simp] theorem raises_error {e : ε} : Raises P (.error e : Except ε α) ↔ P e := by
  simp [Raises]

@[simp] theorem returns_ok {a : α} : Returns (.ok a : Except ε α) := ⟨a, rfl⟩

@[simp] theorem returns_pure {a : α} : Returns (pure a : Except ε α) := ⟨a, rfl⟩

@[simp] theorem returns_error {e : ε} : ¬Returns (.error e : Except ε α) := by
  rintro ⟨_, h⟩
  cases h

theorem returns_of_isOk {x : Except ε α} (h : x.isOk = true) : Returns x := by
  cases x with
  | ok a => exact returns_ok
  | error e => cases h

theorem not_raises_of_returns {x : Except ε α} (h : Returns x) : ¬Raises P x := by
  obtain ⟨a, rfl⟩ := h
  exact raises_ok

/-- A sequence raises in its first part, or in the second after the first returned. -/
theorem raises_bind {x : Except ε α} {f : α → Except ε β} :
    Raises P (x >>= f) ↔ Raises P x ∨ ∃ a, x = .ok a ∧ Raises P (f a) := by
  cases x <;> simp [bind, Except.bind]

theorem returns_bind {x : Except ε α} {f : α → Except ε β} :
    Returns (x >>= f) ↔ ∃ a, x = .ok a ∧ Returns (f a) := by
  cases x <;> simp [bind, Except.bind]

@[simp] theorem raises_map {x : Except ε α} {f : α → β} : Raises P (x.map f) ↔ Raises P x := by
  cases x <;> simp [Except.map]

@[simp] theorem returns_map {x : Except ε α} {f : α → β} : Returns (x.map f) ↔ Returns x := by
  cases x <;> simp [Except.map]

theorem raises_ite {c : Prop} [Decidable c] {x y : Except ε α} :
    Raises P (if c then x else y) ↔ c ∧ Raises P x ∨ ¬c ∧ Raises P y := by
  by_cases hc : c <;> simp [hc]

/-- A loop raises at the first item that does, after all before it returned. -/
theorem raises_mapM {f : α → Except ε β} {xs : List α} :
    Raises P (xs.mapM f) ↔
      ∃ before x after, xs = before ++ x :: after ∧ (∀ y ∈ before, Returns (f y)) ∧
        Raises P (f x) := by
  induction xs with
  | nil => simp
  | cons x xs ih =>
      rw [List.mapM_cons, raises_bind]
      simp only [raises_bind, raises_pure, and_false, exists_false, or_false, ih]
      constructor
      · rintro (hx | ⟨b, hb, before, y, after, rfl, hbefore, hy⟩)
        · exact ⟨[], x, xs, rfl, by simp, hx⟩
        · refine ⟨x :: before, y, after, rfl, ?_, hy⟩
          rw [List.forall_mem_cons]
          exact ⟨⟨b, hb⟩, hbefore⟩
      · rintro ⟨before, y, after, hsplit, hbefore, hy⟩
        cases before with
        | nil =>
            obtain ⟨rfl, rfl⟩ := List.cons.inj hsplit
            exact .inl hy
        | cons z before =>
            obtain ⟨rfl, rfl⟩ := List.cons.inj hsplit
            rw [List.forall_mem_cons] at hbefore
            obtain ⟨b, hb⟩ := hbefore.1
            exact .inr ⟨b, hb, before, y, after, rfl, hbefore.2, hy⟩

theorem returns_mapM {f : α → Except ε β} {xs : List α} :
    Returns (xs.mapM f) ↔ ∀ x ∈ xs, Returns (f x) := by
  constructor
  · rintro ⟨ys, hys⟩ x hx
    obtain ⟨y, _, hy⟩ := (mem_of_mapM hys).1 x hx
    exact ⟨y, hy⟩
  · intro h
    exact mapM_of_forall h

/-- Where any item that raises meets `P`, the order does not matter. -/
theorem raises_mapM_of_forall {f : α → Except ε β} {xs : List α}
    (h : ∀ x ∈ xs, ¬Returns (f x) → Raises P (f x)) :
    Raises P (xs.mapM f) ↔ ∃ x ∈ xs, ¬Returns (f x) := by
  induction xs with
  | nil => simp
  | cons x xs ih =>
      rw [List.forall_mem_cons] at h
      rw [List.mapM_cons, raises_bind, List.exists_mem_cons_iff]
      simp only [raises_bind, raises_pure, and_false, exists_false, or_false, ih h.2]
      by_cases hx : Returns (f x)
      · obtain ⟨b, hb⟩ := hx
        simp [hb]
      · simp [hx, h.1 hx]

end Raises

/-! ## Programs that end alike -/

/-- Both raise the same exception, or they return related values. -/
inductive Alike {α β : Type*} (R : α → β → Prop) : Except ε α → Except ε β → Prop
  | ok {a : α} {b : β} (h : R a b) : Alike R (.ok a) (.ok b)
  | error (e : ε) : Alike R (.error e) (.error e)

namespace Alike

variable {γ δ : Type*} {R : γ → δ → Prop}

theorem refl (x : Except ε γ) : Alike Eq x x := by
  cases x with
  | ok a => exact .ok rfl
  | error e => exact .error e

/-- A map of what is returned relates it to its image. -/
theorem of_map {x : Except ε γ} {f : γ → δ} (h : ∀ a, x = .ok a → R a (f a)) :
    Alike R x (x.map f) := by
  cases x with
  | ok a => exact .ok (h a rfl)
  | error e => exact .error e

theorem bind {α' β' : Type u} {R : α → α' → Prop} {S : β → β' → Prop} {x : Except ε α}
    {y : Except ε α'} {f : α → Except ε β} {g : α' → Except ε β'} (hxy : Alike R x y)
    (hfg : ∀ a a', x = .ok a → R a a' → Alike S (f a) (g a')) :
    Alike S (x >>= f) (y >>= g) := by
  cases hxy with
  | ok h => exact hfg _ _ rfl h
  | error e => exact .error e

end Alike

end Except
