import Mathlib.Tactic.Common

/-!
# Keys with at most one holder

Each key has at most one holder, and a key that is free has none.  Two rules
say how a step keeps this.  In a handover one party moves: it may take over
from a holder that ends with the step, and it may free the keys it lets go of.
In an admission a free key gets its holder.
-/

/-- At most one holder for each key, and none for a free one. -/
structure Exclusive {κ η : Type*} (holds : κ → η → Prop) (free : κ → Prop) : Prop where
  unique : ∀ {k x y}, holds k x → holds k y → x = y
  not_free : ∀ {k x}, holds k x → ¬free k

namespace Exclusive

variable {κ η : Type*} {holds holds' : κ → η → Prop} {free free' : κ → Prop}

theorem handover (h : Exclusive holds free) (mover : η)
    (horigin : ∀ k x, holds' k x → holds k x ∨ x = mover ∧ ∃ y, holds k y ∧ ¬holds' k y)
    (hfrees : ∀ k, free' k → free k ∨ holds k mover ∧ ¬holds' k mover) :
    Exclusive holds' free' := by
  refine ⟨?_, ?_⟩
  · intro k x y hx hy
    rcases horigin k x hx with hx₀ | ⟨rfl, u, hu, hgone⟩ <;>
      rcases horigin k y hy with hy₀ | ⟨rfl, v, hv, hgone'⟩
    · exact h.unique hx₀ hy₀
    · exact absurd (h.unique hx₀ hv ▸ hx) hgone'
    · exact absurd (h.unique hy₀ hu ▸ hy) hgone
    · rfl
  · intro k x hx hfree'
    rcases horigin k x hx with hx₀ | ⟨rfl, u, hu, hgone⟩ <;>
      rcases hfrees k hfree' with hfree | ⟨hmover, hleft⟩
    · exact h.not_free hx₀ hfree
    · exact hleft (h.unique hx₀ hmover ▸ hx)
    · exact h.not_free hu hfree
    · exact hleft hx

theorem enter (h : Exclusive holds free) {k₀ : κ} (newcomer : η) (hk₀ : free k₀)
    (horigin : ∀ k x, holds' k x → holds k x ∨ k = k₀ ∧ x = newcomer)
    (hfrees : ∀ k, free' k → free k ∧ k ≠ k₀) : Exclusive holds' free' := by
  refine ⟨?_, ?_⟩
  · intro k x y hx hy
    rcases horigin k x hx with hx₀ | ⟨rfl, rfl⟩ <;> rcases horigin k y hy with hy₀ | ⟨hk, rfl⟩
    · exact h.unique hx₀ hy₀
    · exact absurd (hk ▸ hk₀) (h.not_free hx₀)
    · exact absurd hk₀ (h.not_free hy₀)
    · rfl
  · intro k x hx hfree'
    obtain ⟨hfree, hne⟩ := hfrees k hfree'
    rcases horigin k x hx with hx₀ | ⟨rfl, rfl⟩
    · exact h.not_free hx₀ hfree
    · exact hne rfl

end Exclusive
