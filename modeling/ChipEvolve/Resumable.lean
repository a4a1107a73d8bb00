import Mathlib.Data.List.Basic
import Mathlib.Tactic.Common

/-!
# Programs that are stopped and started again

A program is a list of blocks, each with a list of statements and a test that says
whether the block is needed.  Every statement takes effect at once, so a program
that is stopped leaves the state after some prefix of the statements it ran, and
it is started again from the first block.

`Settles` collects what makes this harmless: a block that has run is not needed
any more, and no block undoes another.  Then whatever stops between two blocks,
the next complete run ends where the first would have ended.
-/

/-- How blocks `β` of statements `σ` run on states `δ`. -/
structure Resumable (β σ δ ε : Type*) where
  exec : σ → δ → Except ε δ
  needed : β → δ → Bool
  body : β → List σ

namespace Resumable

variable {β σ δ ε : Type*} (L : Resumable β σ δ ε)

/-- All statements in order, up to the first that raises. -/
def runBody : List σ → δ → Except ε δ
  | [], d => .ok d
  | s :: body, d => (L.exec s d).bind (runBody body)

/-- The statements that took effect, each with the state after it. -/
def bodyTrace : List σ → δ → List (σ × δ)
  | [], _ => []
  | s :: body, d =>
      match L.exec s d with
      | .ok d' => (s, d') :: bodyTrace body d'
      | .error _ => []

def act (b : β) (d : δ) : Except ε δ :=
  if L.needed b d then L.runBody (L.body b) d else .ok d

/-- A run that nothing stops. -/
def finish : List β → δ → Except ε δ
  | [], d => .ok d
  | b :: bs, d => (L.act b d).bind (finish bs)

def trace : List β → δ → List (σ × δ)
  | [], _ => []
  | b :: bs, d =>
      (if L.needed b d then L.bodyTrace (L.body b) d else []) ++
        match L.act b d with
        | .ok d' => trace bs d'
        | .error _ => []

/-- The statements of a run that is stopped after `n` of them. -/
def executed (n : Nat) (bs : List β) (d : δ) : List σ :=
  ((L.trace bs d).take n).map Prod.fst

/-- The state a run leaves that is stopped after `n` statements. -/
def stopAt (n : Nat) (bs : List β) (d : δ) : δ :=
  (((L.trace bs d).take n).map Prod.snd).getLastD d

/-- `d` is the state of the complete run from `d₀` between two blocks. -/
def Checkpoint (bs : List β) (d₀ d : δ) : Prop :=
  ∃ before after, bs = before ++ after ∧ L.finish before d₀ = .ok d

/-- Each block establishes its `done`, rests once that holds, and no block undoes
it. -/
structure Settles (bs : List β) (done : β → δ → Prop) : Prop where
  makes : ∀ b ∈ bs, ∀ d d', L.act b d = .ok d' → done b d'
  rests : ∀ b ∈ bs, ∀ d, done b d → L.act b d = .ok d
  keeps : ∀ b ∈ bs, ∀ c ∈ bs, ∀ d d', done b d → L.act c d = .ok d' → done b d'

variable {L} {b : β} {bs before after : List β} {d₀ d d' : δ} {n : Nat} {done : β → δ → Prop}

theorem bind_eq_ok {α β : Type*} {x : Except ε α} {f : α → Except ε β} {c : β} :
    x.bind f = .ok c ↔ ∃ a, x = .ok a ∧ f a = .ok c := by
  cases x <;> simp [Except.bind]

theorem finish_append :
    L.finish (before ++ after) d = (L.finish before d).bind (L.finish after) := by
  induction before generalizing d with
  | nil => rfl
  | cons b before ih =>
      simp only [List.cons_append, finish]
      cases L.act b d with
      | error e => rfl
      | ok d' => exact ih

theorem Checkpoint.start : L.Checkpoint bs d d := ⟨[], bs, rfl, rfl⟩

/-! ## Running again -/

namespace Settles

/-- What a block made survives the blocks after it. -/
theorem done_finish (h : L.Settles bs done) (hb : b ∈ bs) (hsub : after ⊆ bs)
    (hdone : done b d) (hrun : L.finish after d = .ok d') : done b d' := by
  induction after generalizing d with
  | nil =>
      obtain rfl : d = d' := Except.ok.inj hrun
      exact hdone
  | cons c after ih =>
      obtain ⟨d₁, hc, hrest⟩ := bind_eq_ok.mp hrun
      rw [List.cons_subset] at hsub
      exact ih hsub.2 (h.keeps b hb c hsub.1 d d₁ hdone hc) hrest

theorem done_of_finish (h : L.Settles bs done) (hsub : before ⊆ bs)
    (hrun : L.finish before d₀ = .ok d) (hb : b ∈ before) : done b d := by
  induction before generalizing d₀ with
  | nil => cases hb
  | cons c before ih =>
      obtain ⟨d₁, hc, hrest⟩ := bind_eq_ok.mp hrun
      rw [List.cons_subset] at hsub
      rcases List.mem_cons.mp hb with rfl | hb
      · exact h.done_finish hsub.1 hsub.2 (h.makes b hsub.1 d₀ d₁ hc) hrest
      · exact ih hsub.2 hrest hb

theorem finish_of_done (h : L.Settles bs done) (hsub : before ⊆ bs)
    (hdone : ∀ b ∈ before, done b d) : L.finish before d = .ok d := by
  induction before with
  | nil => rfl
  | cons b before ih =>
      rw [List.cons_subset] at hsub
      rw [finish, h.rests b hsub.1 d (hdone b (List.mem_cons_self ..))]
      exact ih hsub.2 fun c hc ↦ hdone c (List.mem_cons_of_mem b hc)

/-- The blocks before a checkpoint have nothing to do there. -/
theorem finish_before (h : L.Settles bs done) (hsub : before ⊆ bs)
    (hrun : L.finish before d₀ = .ok d) : L.finish before d = .ok d :=
  h.finish_of_done hsub fun _ hb ↦ h.done_of_finish hsub hrun hb

/-- A complete run from a checkpoint ends where the run it belongs to ends. -/
theorem finish_eq (h : L.Settles bs done) (hcheck : L.Checkpoint bs d₀ d) :
    L.finish bs d = L.finish bs d₀ := by
  obtain ⟨before, after, rfl, hrun⟩ := hcheck
  rw [finish_append, finish_append, hrun,
    h.finish_before (List.subset_append_left before after) hrun]

/-- A checkpoint of a run from a checkpoint is one of the run it belongs to. -/
theorem checkpoint_trans (h : L.Settles bs done) (hcheck : L.Checkpoint bs d₀ d)
    (hagain : L.Checkpoint bs d d') : L.Checkpoint bs d₀ d' := by
  obtain ⟨before, after, rfl, hrun⟩ := hcheck
  obtain ⟨before', after', heq, hrun'⟩ := hagain
  have hrests := h.finish_before (List.subset_append_left before after) hrun
  rcases List.append_eq_append_iff.mp heq with ⟨more, hbefore', _⟩ | ⟨more, hbefore, _⟩
  · -- the second run got further
    refine ⟨before', after', heq, ?_⟩
    rw [hbefore', finish_append, hrests] at hrun'
    rw [hbefore', finish_append, hrun]
    exact hrun'
  · -- the second run stopped among blocks that are already done
    have hsub : before' ⊆ before ++ after := by
      rw [hbefore, List.append_assoc]
      exact List.subset_append_left _ _
    have hdone : ∀ b ∈ before', done b d := fun b hb ↦
      h.done_of_finish (List.subset_append_left before after) hrun
        (by rw [hbefore]; exact List.mem_append_left more hb)
    obtain rfl : d = d' := Except.ok.inj ((h.finish_of_done hsub hdone).symm.trans hrun')
    exact ⟨before, after, rfl, hrun⟩

end Settles

/-! ## Stopping between blocks -/

/-- The first statement is out of the way. -/
theorem stopAt_succ {s : σ} {after : List β} (htrace : L.trace bs d = (s, d') :: L.trace after d') :
    L.stopAt (n + 1) bs d = L.stopAt n after d' := by
  rw [stopAt, htrace, List.take_succ_cons, List.map_cons, List.getLastD_cons]
  rfl

theorem executed_succ {s : σ} {after : List β}
    (htrace : L.trace bs d = (s, d') :: L.trace after d') :
    L.executed (n + 1) bs d = s :: L.executed n after d' := by
  rw [executed, htrace, List.take_succ_cons, List.map_cons]
  rfl

/-- A block of one statement, which is all or nothing. -/
def Atomic (L : Resumable β σ δ ε) (b : β) : Prop := ∃ s, L.body b = [s]

/-- The next block is skipped, takes effect with one statement, or raises. -/
theorem Atomic.trace_cases (hb : L.Atomic b) (bs : List β) (d : δ) :
    (L.act b d = .ok d ∧ L.trace (b :: bs) d = L.trace bs d) ∨
      (∃ s d', L.body b = [s] ∧ L.act b d = .ok d' ∧
        L.trace (b :: bs) d = (s, d') :: L.trace bs d') ∨
      ∃ e, L.act b d = .error e ∧ L.trace (b :: bs) d = [] := by
  obtain ⟨s, hs⟩ := hb
  cases hneeded : L.needed b d with
  | false => exact .inl ⟨by simp [act, hneeded], by simp [trace, act, hneeded]⟩
  | true =>
      have hact : L.act b d = L.exec s d := by
        simp only [act, hneeded, if_true, hs, runBody]
        cases L.exec s d <;> rfl
      cases hexec : L.exec s d with
      | error e =>
          refine .inr (.inr ⟨e, by rw [hact, hexec], ?_⟩)
          simp [trace, hneeded, hs, bodyTrace, hexec, hact]
      | ok d' =>
          refine .inr (.inl ⟨s, d', hs, by rw [hact, hexec], ?_⟩)
          simp [trace, hneeded, hs, bodyTrace, hexec, hact]

theorem bodyTrace_of_error {s : σ} {body : List σ} {e : ε} (h : L.exec s d = .error e) :
    L.bodyTrace (s :: body) d = [] := by
  simp [bodyTrace, h]

theorem Atomic.act_of_mem (hb : L.Atomic b) (hneeded : L.needed b d = true) {p : σ × δ}
    (hp : p ∈ L.bodyTrace (L.body b) d) : L.act b d = .ok p.2 := by
  obtain ⟨s, hs⟩ := hb
  rw [act, if_pos hneeded, hs]
  rw [hs] at hp
  cases hexec : L.exec s d with
  | error e => simp [bodyTrace, hexec] at hp
  | ok d' =>
      obtain rfl : p = (s, d') := by simpa [bodyTrace, hexec] using hp
      simp [runBody, hexec, Except.bind]

theorem Checkpoint.cons (hact : L.act b d = .ok d') {x : δ} (h : L.Checkpoint bs d' x) :
    L.Checkpoint (b :: bs) d x := by
  obtain ⟨before, after, rfl, hrun⟩ := h
  exact ⟨b :: before, after, rfl, by rw [finish, hact]; exact hrun⟩

/-- A program of atomic blocks can only be stopped between two of them. -/
theorem checkpoint_stopAt (hatomic : ∀ b ∈ bs, L.Atomic b) (n : Nat) (d : δ) :
    L.Checkpoint bs d (L.stopAt n bs d) := by
  induction bs generalizing n d with
  | nil =>
      refine ⟨[], [], rfl, ?_⟩
      simp [stopAt, trace, finish]
  | cons b bs ih =>
      have hrest : ∀ c ∈ bs, L.Atomic c := fun c hc ↦ hatomic c (List.mem_cons_of_mem b hc)
      rcases (hatomic b (List.mem_cons_self ..)).trace_cases bs d with
        ⟨hact, htrace⟩ | ⟨s, d', _, hact, htrace⟩ | ⟨e, _, htrace⟩
      · have hsame : L.stopAt n (b :: bs) d = L.stopAt n bs d := by rw [stopAt, htrace]; rfl
        rw [hsame]
        exact (ih hrest n d).cons hact
      · cases n with
        | zero => exact .start
        | succ n =>
            rw [stopAt_succ htrace]
            exact (ih hrest n d').cons hact
      · have hstuck : L.stopAt n (b :: bs) d = d := by simp [stopAt, htrace]
        rw [hstuck]
        exact .start

theorem getLastD_append {α : Type*} (xs ys : List α) (a : α) :
    (xs ++ ys).getLastD a = ys.getLastD (xs.getLastD a) := by
  induction xs generalizing a with
  | nil => rfl
  | cons x xs ih => rw [List.cons_append, List.getLastD_cons, List.getLastD_cons, ih]

theorem bodyTrace_of_run {body : List σ} (hrun : L.runBody body d = .ok d') :
    (L.bodyTrace body d).map Prod.fst = body ∧
      ((L.bodyTrace body d).map Prod.snd).getLastD d = d' := by
  induction body generalizing d with
  | nil => exact ⟨rfl, Except.ok.inj hrun⟩
  | cons s body ih =>
      obtain ⟨d₁, hs, hrest⟩ := bind_eq_ok.mp hrun
      simp only [bodyTrace, hs, List.map_cons, List.getLastD_cons]
      exact ⟨congrArg (s :: ·) (ih hrest).1, (ih hrest).2⟩

/-- A needed block that runs through contributes its whole body to the trace. -/
theorem trace_needed (bs : List β) (hneeded : L.needed b d = true)
    (hact : L.act b d = .ok d') :
    L.trace (b :: bs) d = L.bodyTrace (L.body b) d ++ L.trace bs d' := by
  simp [trace, hneeded, hact]

/-- A block is left out or gone through: the run is not stopped after its first and
before its last statement. -/
theorem checkpoint_stopAt_cons {first last : σ} {d₁ : δ} (hbody : (L.body b).head? = some first)
    (hends : ∀ m, m < (L.body b).length → last ∉ (L.body b).take m) (hact : L.act b d = .ok d₁)
    (hafter : ∀ c ∈ bs, L.Atomic c)
    (hout : first ∈ L.executed n (b :: bs) d → last ∈ L.executed n (b :: bs) d) :
    L.Checkpoint (b :: bs) d (L.stopAt n (b :: bs) d) := by
  cases hneeded : L.needed b d with
  | false =>
      obtain rfl : d = d₁ := by simpa [act, hneeded] using hact
      have hsame : L.stopAt n (b :: bs) d = L.stopAt n bs d := by
        simp [stopAt, trace, hneeded, hact]
      rw [hsame]
      exact (checkpoint_stopAt hafter n d).cons hact
  | true =>
      have hrun : L.runBody (L.body b) d = .ok d₁ := by simpa [act, hneeded] using hact
      obtain ⟨hfst, hsnd⟩ := bodyTrace_of_run hrun
      have hlength : (L.bodyTrace (L.body b) d).length = (L.body b).length := by
        rw [← List.length_map, hfst]
      have htrace := trace_needed bs hneeded hact
      rcases Nat.lt_or_ge n (L.body b).length with hinside | hpast
      · have hexecuted : L.executed n (b :: bs) d = (L.body b).take n := by
          rw [executed, htrace, List.take_append_of_le_length (by omega), List.map_take, hfst]
        cases n with
        | zero => exact .start
        | succ n =>
            rw [hexecuted] at hout
            have hfirst : first ∈ (L.body b).take (n + 1) := by
              cases hb : L.body b with
              | nil => simp [hb] at hbody
              | cons s body =>
                  obtain rfl : s = first := by simpa [hb] using hbody
                  simp
            exact absurd (hout hfirst) (hends (n + 1) hinside)
      · have hstep : L.stopAt n (b :: bs) d = L.stopAt (n - (L.body b).length) bs d₁ := by
          rw [stopAt, htrace, List.take_append, List.take_of_length_le (by omega), hlength,
            List.map_append, getLastD_append, hsnd]
          rfl
        rw [hstep]
        exact (checkpoint_stopAt hafter _ d₁).cons hact

/-- A program with one block that is not atomic is stopped between two blocks unless
it is stopped inside that one. -/
theorem checkpoint_stopAt_append {first last : σ} {D : δ} (hbody : (L.body b).head? = some first)
    (hends : ∀ m, m < (L.body b).length → last ∉ (L.body b).take m)
    (hbefore : ∀ c ∈ before, ∃ s, L.body c = [s] ∧ s ≠ last)
    (hafter : ∀ c ∈ after, L.Atomic c) (hruns : L.finish (before ++ b :: after) d = .ok D)
    (hout : first ∈ L.executed n (before ++ b :: after) d →
      last ∈ L.executed n (before ++ b :: after) d) :
    L.Checkpoint (before ++ b :: after) d (L.stopAt n (before ++ b :: after) d) := by
  induction before generalizing n d with
  | nil =>
      obtain ⟨d₁, hact, _⟩ := bind_eq_ok.mp hruns
      exact checkpoint_stopAt_cons hbody hends hact hafter hout
  | cons c before ih =>
      rw [List.forall_mem_cons] at hbefore
      obtain ⟨⟨s, hs, hlast⟩, hbefore⟩ := hbefore
      obtain ⟨d₁, hact, hrest⟩ := bind_eq_ok.mp hruns
      have hatomic : L.Atomic c := ⟨s, hs⟩
      rcases hatomic.trace_cases (before ++ b :: after) d with
        ⟨hskips, htrace⟩ | ⟨s', d', hs', htakes, htrace⟩ | ⟨e, hraises, _⟩
      · obtain rfl : d = d₁ := Except.ok.inj (hskips.symm.trans hact)
        simp only [List.cons_append, stopAt, executed, htrace] at hout ⊢
        exact (ih hbefore hrest hout).cons hact
      · obtain rfl : d₁ = d' := Except.ok.inj (hact.symm.trans htakes)
        obtain rfl : s = s' := by simpa [hs] using hs'
        cases n with
        | zero => exact .start
        | succ n =>
            simp only [List.cons_append, executed_succ htrace, stopAt_succ htrace] at hout ⊢
            refine (ih hbefore hrest fun hmem ↦ ?_).cons hact
            have hlate := hout (List.mem_cons_of_mem s hmem)
            exact (List.mem_cons.mp hlate).resolve_left hlast.symm
      · rw [hact] at hraises
        cases hraises

/-! ## What a stopped run has run -/

/-- Each statement of the list takes the state before it to the state beside it. -/
inductive Steps (L : Resumable β σ δ ε) : δ → List (σ × δ) → Prop
  | nil {d : δ} : Steps L d []
  | cons {s : σ} {d d' : δ} {rest : List (σ × δ)} (hs : L.exec s d = .ok d')
      (hrest : Steps L d' rest) : Steps L d ((s, d') :: rest)

namespace Steps

variable {xs ys : List (σ × δ)}

theorem append (hxs : L.Steps d xs) (hys : L.Steps ((xs.map Prod.snd).getLastD d) ys) :
    L.Steps d (xs ++ ys) := by
  induction hxs with
  | nil => exact hys
  | cons hs _ ih =>
      rw [List.map_cons, List.getLastD_cons] at hys
      exact .cons hs (ih hys)

theorem take (h : L.Steps d xs) (n : Nat) : L.Steps d (xs.take n) := by
  induction h generalizing n with
  | nil => simpa using .nil
  | cons hs _ ih =>
      cases n with
      | zero => exact .nil
      | succ n => exact .cons hs (ih n)

theorem runBody (h : L.Steps d xs) :
    L.runBody (xs.map Prod.fst) d = .ok ((xs.map Prod.snd).getLastD d) := by
  induction h with
  | nil => rfl
  | cons hs _ ih =>
      rw [List.map_cons, Resumable.runBody, hs, List.map_cons, List.getLastD_cons]
      exact ih

theorem bodyTrace (body : List σ) (d : δ) : L.Steps d (L.bodyTrace body d) := by
  induction body generalizing d with
  | nil => exact .nil
  | cons s body ih =>
      unfold Resumable.bodyTrace
      split
      · next d' hs => exact .cons hs (ih d')
      · exact .nil

theorem trace (bs : List β) (d : δ) : L.Steps d (L.trace bs d) := by
  induction bs generalizing d with
  | nil => exact .nil
  | cons b bs ih =>
      unfold Resumable.trace
      cases hneeded : L.needed b d with
      | false =>
          simp only [act, hneeded, Bool.false_eq_true, if_false]
          exact ih d
      | true =>
          cases hact : L.act b d with
          | error e =>
              simp only [if_true, List.append_nil]
              exact .bodyTrace _ d
          | ok d' =>
              have hrun : L.runBody (L.body b) d = .ok d' := by simpa [act, hneeded] using hact
              simp only [if_true]
              refine (bodyTrace (L.body b) d).append ?_
              rw [(bodyTrace_of_run hrun).2]
              exact ih d'

end Steps

theorem runBody_executed (n : Nat) (bs : List β) (d : δ) :
    L.runBody (L.executed n bs d) d = .ok (L.stopAt n bs d) :=
  ((Steps.trace bs d).take n).runBody

theorem mem_bodyTrace {body : List σ} {p : σ × δ} (h : p ∈ L.bodyTrace body d) : p.1 ∈ body := by
  induction body generalizing d with
  | nil => cases h
  | cons s body ih =>
      unfold bodyTrace at h
      split at h
      · rcases List.mem_cons.mp h with rfl | h
        · exact List.mem_cons_self ..
        · exact List.mem_cons_of_mem s (ih h)
      · cases h

theorem mem_trace {p : σ × δ} (h : p ∈ L.trace bs d) : ∃ b ∈ bs, p.1 ∈ L.body b := by
  induction bs generalizing d with
  | nil => cases h
  | cons b bs ih =>
      rcases List.mem_append.mp h with hbody | hrest
      · split at hbody
        · exact ⟨b, List.mem_cons_self .., mem_bodyTrace hbody⟩
        · cases hbody
      · split at hrest
        · obtain ⟨c, hc, hp⟩ := ih hrest
          exact ⟨c, List.mem_cons_of_mem b hc, hp⟩
        · cases hrest

theorem mem_executed {s : σ} (h : s ∈ L.executed n bs d) : ∃ b ∈ bs, s ∈ L.body b := by
  obtain ⟨p, hp, rfl⟩ := List.mem_map.mp h
  exact mem_trace (List.mem_of_mem_take hp)

/-- What every block keeps, whether it runs through or is stopped, holds wherever
the program is stopped and where it ends. -/
theorem stopAt_invariant {P : δ → Prop}
    (hkeeps : ∀ b ∈ bs, ∀ d, P d →
      (L.needed b d = true → ∀ p ∈ L.bodyTrace (L.body b) d, P p.2) ∧
        ∀ d', L.act b d = .ok d' → P d')
    (hd : P d) : P (L.stopAt n bs d) ∧ ∀ d', L.finish bs d = .ok d' → P d' := by
  have htrace : ∀ p ∈ L.trace bs d, P p.2 := by
    induction bs generalizing d with
    | nil => simp [trace]
    | cons b bs ih =>
        rw [List.forall_mem_cons] at hkeeps
        intro p hp
        rcases List.mem_append.mp hp with hbody | hrest
        · split at hbody
          · next hneeded => exact (hkeeps.1 d hd).1 hneeded p hbody
          · cases hbody
        · split at hrest
          · next d' hact => exact ih hkeeps.2 ((hkeeps.1 d hd).2 d' hact) p hrest
          · cases hrest
  constructor
  · have hmem : L.stopAt n bs d ∈ d :: ((L.trace bs d).take n).map Prod.snd :=
      List.getLastD_mem_cons
    rcases List.mem_cons.mp hmem with heq | hlast
    · rw [heq]
      exact hd
    · obtain ⟨p, hp, heq⟩ := List.mem_map.mp hlast
      rw [← heq]
      exact htrace p (List.mem_of_mem_take hp)
  · clear htrace
    induction bs generalizing d with
    | nil =>
        rintro d' hfinish
        obtain rfl := Except.ok.inj hfinish
        exact hd
    | cons b bs ih =>
        rw [List.forall_mem_cons] at hkeeps
        intro d' hfinish
        obtain ⟨d₁, hact, hrest⟩ := bind_eq_ok.mp hfinish
        exact ih hkeeps.2 ((hkeeps.1 d hd).2 d₁ hact) d' hrest

end Resumable
