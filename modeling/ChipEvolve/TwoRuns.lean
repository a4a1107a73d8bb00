import Mathlib.Tactic.Common

/-!
# Two programs from related states

A program with a state and exceptions is compared with another one, each from its own
state: they return the same, or raise the same, and leave states that are related as those
were in which they began.  The rules go through the two programs in step.
-/

namespace TwoRuns

universe u

variable {ε σ α β : Type u}

/-- From `s` and `s'` the programs return the same, of which `post` holds, or raise the same;
the states they leave are related. -/
def Related (R : σ → σ → Prop) (x x' : EStateM ε σ α) (post : α → Prop) (s s' : σ) : Prop :=
  (∃ a t t', x s = .ok a t ∧ x' s' = .ok a t' ∧ R t t' ∧ post a) ∨
    ∃ e t t', x s = .error e t ∧ x' s' = .error e t' ∧ R t t'

section Rules

variable {R : σ → σ → Prop} {x x' : EStateM ε σ α} {f f' : α → EStateM ε σ β}
  {mid : α → Prop} {post : β → Prop} {s s' : σ}

theorem Related.returns {a : α} {post : α → Prop} (h : R s s') (ha : post a) :
    Related R (pure a : EStateM ε σ α) (pure a) post s s' :=
  .inl ⟨a, s, s', rfl, rfl, h, ha⟩

theorem Related.raises {e : ε} {post : α → Prop} (h : R s s') :
    Related R (throw e : EStateM ε σ α) (throw e) post s s' :=
  .inr ⟨e, s, s', rfl, rfl, h⟩

theorem Related.bind (hx : Related R x x' mid s s')
    (hf : ∀ a t t', R t t' → mid a → Related R (f a) (f' a) post t t') :
    Related R (x >>= f) (x' >>= f') post s s' := by
  have hbind : ∀ {y : EStateM ε σ α} {g : α → EStateM ε σ β} {r : σ} {a : α} {t : σ},
      y r = .ok a t → (y >>= g) r = g a t := by
    intro y g r a t h
    change EStateM.bind y g r = _
    simp [EStateM.bind, h]
  have hraise : ∀ {y : EStateM ε σ α} {g : α → EStateM ε σ β} {r : σ} {e : ε} {t : σ},
      y r = .error e t → (y >>= g) r = .error e t := by
    intro y g r e t h
    change EStateM.bind y g r = _
    simp [EStateM.bind, h]
  rcases hx with ⟨a, t, t', h, h', hR, ha⟩ | ⟨e, t, t', h, h', hR⟩
  · unfold Related
    rw [hbind h, hbind h']
    exact hf a t t' hR ha
  · exact .inr ⟨e, t, t', hraise h, hraise h', hR⟩

theorem Related.read {g g' : σ → EStateM ε σ β} (h : Related R (g s) (g' s') post s s') :
    Related R (get >>= g) (get >>= g') post s s' := h

theorem Related.writes {g g' : σ → σ} {post : PUnit → Prop} (h : R (g s) (g' s'))
    (hpost : post ⟨⟩) :
    Related R (modify g : EStateM ε σ PUnit) (modify g') post s s' :=
  .inl ⟨⟨⟩, g s, g' s', rfl, rfl, h, hpost⟩

theorem Related.lift {y y' : Except ε α} (h : R s s') (hy : y = y') :
    Related R (ofExcept y : EStateM ε σ α) (ofExcept y') (fun a ↦ y = .ok a) s s' := by
  subst hy
  cases y with
  | error e => exact .inr ⟨e, s, s', rfl, rfl, h⟩
  | ok a => exact .inl ⟨a, s, s', rfl, rfl, h, rfl⟩

end Rules

end TwoRuns
