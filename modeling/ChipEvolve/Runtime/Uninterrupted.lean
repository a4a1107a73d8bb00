import ChipEvolve.Runtime.Bundle
import Mathlib.Logic.Relation

/-!
# Registrations that nothing interrupts

`register_artifacts`, `ingest_input`, `ingest_input_file` and `_register_file` change the depot at
once where runs and bundles are concerned, and step by step where custody is
(`Store/Custody.lean`).  A call that begins with its lock and the database free, and goes on alone
until it ends, leaves what the change at once leaves.
-/

namespace ChipEvolve.Custody

open ChipEvolve.Bundle (after insertArtifact registerArtifact)

/-! ## Calls that go on alone -/

section Alone

variable (H : Bytes → String) (source : Item → Option Bytes) (k : Nat)

/-- What the step of a call at a phase reads. -/
def reading : Phase → Option Bytes
  | .lock | .begin | .declared => none
  | .look item | .digest item | .size item _ => source item
  | .acquire m | .existing m | .target m | .existingSize m | .existingDigest m | .copy m |
    .verify m _ | .replace m _ | .insert m => source m.item

/-- The call makes its next step. -/
def Goes (w w' : World) : Prop :=
  ∃ t, w.calls k = .running t ∧ step H w (.next k (reading source t.phase)) = some w'

/-- The call comes, alone, to a state that is as the program leaves it. -/
def Leaves {α : Type} (x : IntakeM α) (d : Depot) (w : World)
    (P : α → Depot → World → Prop) (E : Depot → World → Prop) : Prop :=
  ∃ w', Relation.ReflTransGen (Goes H source k) w w' ∧
    match x d with
    | .ok a d' => P a d' w'
    | .error _ d' => E d' w'

end Alone

section Programs

variable {H : Bytes → String} {source : Item → Option Bytes} {k : Nat}
  {α β : Type} {d : Depot} {w w' : World} {P : α → Depot → World → Prop}
  {Q : β → Depot → World → Prop} {E : Depot → World → Prop}

namespace Leaves

theorem ofExcept_ok {y : Except RuntimeError α} {a : α} {f : α → IntakeM β} (hy : y = .ok a)
    (h : Leaves H source k (f a) d w Q E) : Leaves H source k (ofExcept y >>= f) d w Q E := by
  subst hy
  exact h

theorem ofExcept_error {y : Except RuntimeError α} {e : RuntimeError} {f : α → IntakeM β}
    (hy : y = .error e) (h : Leaves H source k (throw e : IntakeM β) d w Q E) :
    Leaves H source k (ofExcept y >>= f) d w Q E := by
  subst hy
  exact h

theorem pure {a : α} (h : P a d w) : Leaves H source k (pure a) d w P E := ⟨w, .refl, h⟩

theorem modify {f : Depot → Depot} {P : Unit → Depot → World → Prop} (h : P () (f d) w) :
    Leaves H source k (modify f) d w P E :=
  ⟨w, .refl, h⟩

theorem throw {e : RuntimeError} (h : E d w) :
    Leaves H source k (throw e : IntakeM α) d w P E := ⟨w, .refl, h⟩

theorem goes {x : IntakeM α} (hgoes : Goes H source k w w') (h : Leaves H source k x d w' P E) :
    Leaves H source k x d w P E := by
  obtain ⟨w'', hruns, hends⟩ := h
  exact ⟨w'', .head hgoes hruns, hends⟩

theorem bind {x : IntakeM α} {f : α → IntakeM β} (hx : Leaves H source k x d w P E)
    (hf : ∀ a d' w', P a d' w' → Leaves H source k (f a) d' w' Q E) :
    Leaves H source k (x >>= f) d w Q E := by
  obtain ⟨w₁, hruns, hends⟩ := hx
  change ∃ w', Relation.ReflTransGen (Goes H source k) w w' ∧
    match EStateM.bind x f d with
    | .ok b d' => Q b d' w'
    | .error _ d' => E d' w'
  unfold EStateM.bind
  cases hd : x d with
  | error e d₁ =>
      rw [hd] at hends
      exact ⟨w₁, hruns, hends⟩
  | ok a d₁ =>
      rw [hd] at hends
      obtain ⟨w₂, hruns', hends'⟩ := hf a d₁ w₁ hends
      exact ⟨w₂, hruns.trans hruns', hends'⟩

theorem get_bind {f : Depot → IntakeM α} (hf : Leaves H source k (f d) d w P E) :
    Leaves H source k (get >>= f) d w P E := hf

end Leaves

end Programs

/-! ## The states of one call -/

/-- The source of an artifact is the file of its workspace. -/
def workspaceSource (files : AttemptId → String → Option (Option Bytes)) (item : Item) :
    Option Bytes :=
  match item.record with
  | .inl (attemptId, d) => (files attemptId d.storeKey).join
  | .inr _ => none

/-- The call stands at `t` over the tables of `d`, whose last artifacts are its own and wait for
`COMMIT`. -/
structure At (k : Nat) (files : AttemptId → String → Option (Option Bytes))
    (committed : List ArtifactRow) (t : Thread) (d : Depot) (w : World) : Prop where
  running : w.calls k = .running t
  files_eq : d.workspaceFile = files
  objects : w.objects = d.objects
  uploaded : w.uploaded = d.uploaded
  artifacts : w.artifacts.map Prod.snd = committed
  pending : d.artifacts = committed ++ t.pending
  single : t.registers = none → t.pending = []
  writer : t.registers = none → w.writer = none

/-- The tables of custody and those of a depot are the same. -/
structure Mirrors (w : World) (d : Depot) : Prop where
  objects : w.objects = d.objects
  uploaded : w.uploaded = d.uploaded
  artifacts : w.artifacts.map Prod.snd = d.artifacts

/-- The call has returned over these tables. -/
def Returned (k : Nat) (d : Depot) (w : World) : Prop := w.calls k = .returned ∧ Mirrors w d

/-- The call was broken off by an exception, and its artifacts are rolled back; one that writes a
single row has none. -/
structure Raised (k : Nat) (registers : Option String) (committed : List ArtifactRow) (d : Depot)
    (w : World) : Prop where
  raised : w.calls k = .raised
  mirrors : Mirrors w { d with artifacts := committed }
  single : registers = none → d.artifacts = committed

section Calls

variable {H : Bytes → String} {source : Item → Option Bytes}
  {files : AttemptId → String → Option (Option Bytes)} {k : Nat} {committed : List ArtifactRow}
  {t : Thread} {d : Depot} {w : World} {m : Measured} {bytes : Bytes} {attemptId : AttemptId}
  {declared : Declared} {α : Type}

namespace At

/-- A call that has written no rows. -/
theorem of_mirrors (h : Mirrors w d) (hrunning : w.calls k = .running t) (hpending : t.pending = [])
    (hwriter : t.registers = none → w.writer = none) :
    At k d.workspaceFile d.artifacts t d w where
  running := hrunning
  files_eq := rfl
  objects := h.objects
  uploaded := h.uploaded
  artifacts := h.artifacts
  pending := by rw [hpending, List.append_nil]
  single := fun _ ↦ hpending
  writer := hwriter

theorem goes {w' : World} (h : At k files committed t d w)
    (hadvance : w.advance H k t (reading source t.phase) = some w') : Goes H source k w w' :=
  ⟨t, h.running, by simp only [step, h.running, hadvance]⟩

theorem moves (h : At k files committed t d w) (phase : Phase) :
    At k files committed { t with phase := phase } d (w.moves k t phase) :=
  { h with running := Function.update_self .. }

/-- The call goes on to a phase, and from there it is as the program leaves it. -/
theorem leaves {x : IntakeM α} {P : α → Depot → World → Prop} {E : Depot → World → Prop}
    (h : At k files committed t d w) (phase : Phase)
    (hadvance : w.advance H k t (reading source t.phase) = some (w.moves k t phase))
    (hx : ∀ w', At k files committed { t with phase := phase } d w' →
      Leaves H source k x d w' P E) :
    Leaves H source k x d w P E :=
  .goes (h.goes hadvance) (hx _ (h.moves phase))

theorem raises {e : RuntimeError} {P : α → Depot → World → Prop}
    (h : At k files committed t d w)
    (hadvance : w.advance H k t (reading source t.phase) = some (w.raises k)) :
    Leaves H source k (throw e : IntakeM α) d w P (Raised k t.registers committed) := by
  refine .goes (h.goes hadvance) (.throw ⟨Function.update_self .., ?_, fun hregisters ↦ ?_⟩)
  · exact ⟨h.objects, h.uploaded, h.artifacts⟩
  · rw [h.pending, h.single hregisters, List.append_nil]

end At

/-- What `_store_object` leaves. -/
theorem leaves_storeObject (h : At k files committed t d w) (hphase : t.phase = .target m)
    (hdigest : m.digest = H bytes) (hsize : m.size = bytes.length)
    (hsource : m.item.content.or (source m.item) = some bytes) :
    Leaves H source k (storeObject H m.digest bytes) d w
      (fun _ d' w' ↦ At k files committed { t with phase := .insert m } d' w')
      (Raised k t.registers committed) := by
  refine Leaves.get_bind ?_
  cases hobject : d.objects m.digest with
  | some existing =>
      refine h.leaves (.existingSize m) ?_ fun w₁ h₁ ↦ ?_
      · simp [World.advance, hphase, h.objects, hobject]
      by_cases hlength : existing.length = bytes.length
      · refine h₁.leaves (.existingDigest m) ?_ fun w₂ h₂ ↦ ?_
        · simp [World.advance, h₁.objects, hobject, hlength, hsize]
        by_cases hsame : H existing = m.digest
        · refine h₂.leaves (.insert m) ?_ fun w₃ h₃ ↦ ?_
          · simp [World.advance, h₂.objects, hobject, hsame]
          simp only [hlength, hsame, ne_eq, not_true, or_self, if_false]
          exact .pure h₃
        · simp only [hlength, hsame, ne_eq, not_true, false_or, not_false_eq_true, if_true]
          refine h₂.raises ?_
          simp [World.advance, h₂.objects, hobject, hsame]
      · simp only [hlength, ne_eq, not_false_eq_true, true_or, if_true]
        refine h₁.raises ?_
        simp [World.advance, h₁.objects, hobject, hlength, hsize]
  | none =>
      refine h.leaves (.copy m) ?_ fun w₁ h₁ ↦ h₁.leaves (.verify m bytes) ?_ fun w₂ h₂ ↦
        h₂.leaves (.replace m bytes) ?_ fun w₃ h₃ ↦ ?_
      · simp [World.advance, hphase, h.objects, hobject]
      · simp [World.advance, reading, hsource]
      · simp [World.advance, hdigest, hsize]
      have hpublished : At k files committed { t with phase := .insert m }
          { d with objects := Function.update d.objects m.digest (some bytes) }
          ((w₃.publish m.digest bytes).moves k t (.insert m)) :=
        { h₃ with
          running := Function.update_self ..
          objects := by
            change Function.update w₃.objects _ _ = _
            rw [h₃.objects] }
      exact .goes (h₃.goes rfl) (.modify hpublished)

/-- What the `INSERT` of an artifact leaves within `register_artifacts`. -/
theorem leaves_insertArtifact (h : At k files committed t d w) (hphase : t.phase = .insert m)
    (hrecord : m.item.record = .inl (attemptId, declared))
    (hregisters : t.registers.isSome = true) :
    Leaves H source k (insertArtifact (m.artifactRow attemptId declared)) d w
      (fun _ d' w' ↦ ∃ rows, At k files committed
        { t with phase := .declared, pending := t.pending ++ rows } d' w')
      (Raised k t.registers committed) := by
  refine Leaves.get_bind ?_
  obtain ⟨registers, hregisters⟩ := Option.isSome_iff_exists.mp hregisters
  have hrows : w.artifacts.map Prod.snd ++ t.pending = d.artifacts := by
    rw [h.artifacts, h.pending]
  by_cases hclash : d.artifacts.any (m.artifactRow attemptId declared).clashes = true
  · rw [if_pos hclash]
    refine h.raises ?_
    simp only [World.advance, hphase, World.inserts, hrecord, hregisters, hrows, hclash, if_true]
  · rw [if_neg hclash]
    let t' : Thread := { t with pending := t.pending ++ [m.artifactRow attemptId declared] }
    have hgoes : Goes H source k w (w.moves k t' .declared) := h.goes (by
      simp [t', World.advance, hphase, World.inserts, hrecord, hregisters, hrows, hclash])
    refine .goes hgoes (.modify ⟨[m.artifactRow attemptId declared], ?_⟩)
    exact
      { h with
        running := Function.update_self ..
        pending := by rw [h.pending, List.append_assoc]
        single := fun hnone ↦ nomatch hregisters.symm.trans hnone }

/-- What one declaration of `register_artifacts` leaves. -/
theorem leaves_registerArtifact {todo : List Declared} (h : At k files committed t d w)
    (hphase : t.phase = .declared) (hregisters : t.registers = some attemptId)
    (htodo : t.todo = declared :: todo) :
    Leaves H (workspaceSource files) k (registerArtifact H attemptId declared) d w
      (fun _ d' w' ↦ ∃ rows, At k files committed
        { t with phase := .declared, todo := todo, pending := t.pending ++ rows } d' w')
      (Raised k t.registers committed) := by
  let item : Item := { record := .inl (attemptId, declared) }
  let t₁ : Thread := { t with todo := todo, phase := .look item }
  have hgoes : Goes H (workspaceSource files) k w (w.moves k t₁ (.look item)) := h.goes (by
    simp [t₁, item, World.advance, World.moves, hphase, World.declares, htodo, hregisters])
  have h₁ : At k files committed t₁ d (w.moves k t₁ (.look item)) :=
    { h with running := Function.update_self .. }
  have hsource : workspaceSource files item = (files attemptId declared.storeKey).join := rfl
  have hcontent : item.content = none := rfl
  refine .goes hgoes (.get_bind ?_)
  rw [h.files_eq]
  cases hfile : files attemptId declared.storeKey with
  | none => exact h₁.raises (by simp [t₁, World.advance, reading, hsource, hfile])
  | some found =>
      cases found with
      | none => exact h₁.raises (by simp [t₁, World.advance, reading, hsource, hfile])
      | some bytes =>
          rw [hfile] at hsource
          refine h₁.leaves (.digest item) ?_ fun w₂ h₂ ↦ h₂.leaves (.size item (H bytes)) ?_
            fun w₃ h₃ ↦ ?_
          · simp [t₁, World.advance, reading, hsource]
          · simp [World.advance, reading, hcontent, hsource]
          let m : Measured := { item := item, digest := H bytes, size := bytes.length }
          cases hvalid : m.validate with
          | error message =>
              refine .ofExcept_error (congrArg (Except.mapError RuntimeError.contract) hvalid) ?_
              exact h₃.raises (by simp [World.advance, reading, hcontent, hsource, m, hvalid])
          | ok u =>
              refine .ofExcept_ok (congrArg (Except.mapError RuntimeError.contract) hvalid) ?_
              refine h₃.leaves (.target m) ?_ fun w₄ h₄ ↦ ?_
              · simp [t₁, World.advance, reading, hcontent, hsource, hregisters, m, hvalid]
              have hread : m.item.content.or (workspaceSource files m.item) = some bytes := hsource
              refine (leaves_storeObject h₄ rfl rfl rfl hread).bind fun _ d₅ w₅ h₅ ↦ ?_
              have hisSome : t.registers.isSome = true := Option.isSome_of_eq_some hregisters
              exact leaves_insertArtifact h₅ rfl rfl hisSome

/-- What the loop of `register_artifacts` leaves. -/
theorem leaves_declarations {declarations : List Declared} (h : At k files committed t d w)
    (hphase : t.phase = .declared) (hregisters : t.registers = some attemptId)
    (htodo : t.todo = declarations) :
    Leaves H (workspaceSource files) k (declarations.forM (registerArtifact H attemptId)) d w
      (fun _ d' w' ↦ ∃ t', t'.phase = .declared ∧ t'.todo = [] ∧ At k files committed t' d' w')
      (Raised k (some attemptId) committed) := by
  induction declarations generalizing t d w with
  | nil => exact .pure ⟨t, hphase, htodo, h⟩
  | cons declared declarations ih =>
      have hfirst := leaves_registerArtifact (H := H) h hphase hregisters htodo
      rw [hregisters] at hfirst
      refine hfirst.bind ?_
      rintro _ d₁ w₁ ⟨rows, h₁⟩
      exact ih h₁ rfl rfl rfl

/-- With the lock free, a call that writes one row comes to the look for an earlier row. -/
theorem leaves_measured {x : IntakeM α} {P : α → Depot → World → Prop} {E : Depot → World → Prop}
    {item : Item} (h : At k files committed t d w) (hphase : t.phase = .digest item)
    (hregisters : t.registers = none) (hlock : w.locks t.process = none)
    (hsource : item.content.or (source item) = some bytes) (hm : m = ⟨item, H bytes, bytes.length⟩)
    (hvalid : m.validate = .ok ())
    (hx : ∀ w', At k files committed { t with phase := .existing m } d w' →
      Leaves H source k x d w' P E) :
    Leaves H source k x d w P E := by
  let t₁ : Thread := { t with phase := .size item (H bytes) }
  let t₂ : Thread := { t with phase := .acquire m }
  let w₁ := w.moves k t (.size item (H bytes))
  let w₂ := w₁.moves k t₁ (.acquire m)
  have h₁ : At k files committed t₁ d w₁ := h.moves _
  have h₂ : At k files committed t₂ d w₂ := h₁.moves _
  have hdigest : Goes H source k w w₁ := h.goes (by
    simp [w₁, World.advance, hphase, reading, hsource])
  have hsize : Goes H source k w₁ w₂ := h₁.goes (by
    simp [w₂, t₁, World.advance, reading, hsource, hregisters, ← hm, hvalid])
  have hacquire : Goes H source k w₂ ((w₂.takesLock k t₂).moves k t₂ (.existing m)) := h₂.goes (by
    have hfree : w₂.locks t.process = none := hlock
    simp [t₂, World.advance, hfree])
  refine .goes hdigest (.goes hsize (.goes hacquire (hx _ ?_)))
  exact { h₂ with running := Function.update_self .. }

/-- What the `INSERT` of an input leaves. -/
theorem leaves_insertUploaded {inputId : String} (h : At k files committed t d w)
    (hphase : t.phase = .insert m) (hregisters : t.registers = none)
    (hrecord : m.item.record = .inr inputId) :
    Leaves H source k (insertUploaded (m.uploadedRow inputId)) d w
      (fun _ ↦ Returned k) (Raised k t.registers committed) := by
  have hwriter := h.writer hregisters
  refine .get_bind ?_
  change Leaves H source k (if (d.uploaded.any fun r ↦ r.inputId = inputId) = true then _ else _)
    d w _ _
  by_cases hclash : (d.uploaded.any fun r ↦ r.inputId = inputId) = true
  · rw [if_pos hclash]
    refine h.raises ?_
    simp only [World.advance, hphase, World.inserts, hrecord, hwriter, h.uploaded, hclash, if_true]
    rfl
  · rw [if_neg hclash]
    have hgoes : Goes H source k w
        { w.ends k .returned with uploaded := w.uploaded ++ [m.uploadedRow inputId] } := h.goes (by
      simp only [World.advance, hphase, World.inserts, hrecord, hwriter, h.uploaded, hclash]
      rfl)
    refine .goes hgoes (.modify ⟨Function.update_self .., h.objects, ?_, ?_⟩)
    · exact congrArg (· ++ [m.uploadedRow inputId]) h.uploaded
    · rw [h.pending, h.single hregisters, List.append_nil]
      exact h.artifacts

/-- What the `INSERT` of one artifact leaves that is no part of `register_artifacts`. -/
theorem leaves_insertOne (h : At k files committed t d w) (hphase : t.phase = .insert m)
    (hrecord : m.item.record = .inl (attemptId, declared)) (hregisters : t.registers = none) :
    Leaves H source k (insertArtifact (m.artifactRow attemptId declared)) d w
      (fun _ ↦ Returned k) (Raised k t.registers committed) := by
  have hwriter := h.writer hregisters
  have hrows : w.artifacts.map Prod.snd = d.artifacts := by
    rw [h.artifacts, h.pending, h.single hregisters, List.append_nil]
  refine Leaves.get_bind ?_
  by_cases hclash : d.artifacts.any (m.artifactRow attemptId declared).clashes = true
  · rw [if_pos hclash]
    refine h.raises ?_
    simp only [World.advance, hphase, World.inserts, hrecord, hregisters, hwriter, hrows, hclash,
      if_true]
    rfl
  · rw [if_neg hclash]
    have hgoes : Goes H source k w { w.ends k .returned with
        artifacts := w.artifacts ++ [(k, m.artifactRow attemptId declared)] } := h.goes (by
      simp only [World.advance, hphase, World.inserts, hrecord, hregisters, hwriter, hrows, hclash]
      rfl)
    refine .goes hgoes (.modify ⟨Function.update_self .., h.objects, h.uploaded, ?_⟩)
    rw [List.map_append, hrows]
    rfl

end Calls

/-! ## Whole calls -/

section Whole

variable {H : Bytes → String} {source : Item → Option Bytes} {k process : Nat} {d : Depot}
  {w : World} {attemptId : AttemptId}

/-- The call ends, alone, over the tables of `d'`. -/
def EndsOver (H : Bytes → String) (source : Item → Option Bytes) (k : Nat) (w : World)
    (d' : Depot) : Prop :=
  ∃ w', Relation.ReflTransGen (Goes H source k) w w' ∧
    (w'.calls k = .returned ∨ w'.calls k = .raised) ∧ Mirrors w' d'

/-- `register_artifacts` leaves what it leaves at once. -/
theorem registerArtifacts_alone {declarations : List Declared} (hmirrors : Mirrors w d)
    (hlock : w.locks process = none) (hwriter : w.writer = none)
    (hcall : w.calls k =
      .running (Call.start process (.registerArtifacts attemptId declarations))) :
    EndsOver H (workspaceSource d.workspaceFile) k w
      (Bundle.registerArtifacts H attemptId declarations d) := by
  let t := Call.start process (.registerArtifacts attemptId declarations)
  let t₁ : Thread := { t with phase := .begin }
  let t₂ : Thread := { t with phase := .declared }
  let w₁ := (w.takesLock k t).moves k t .begin
  let w₂ := { w₁ with writer := some k }.moves k t₁ .declared
  have hbegin : Goes H (workspaceSource d.workspaceFile) k w w₁ :=
    ⟨t, hcall, by simp [step, hcall, World.advance, t, Call.start, hlock, w₁]⟩
  have hrunning : w₁.calls k = .running t₁ := Function.update_self ..
  have hdeclared : Goes H (workspaceSource d.workspaceFile) k w₁ w₂ := by
    have hfree : w₁.writer = none := hwriter
    exact ⟨t₁, hrunning, by simp [step, hrunning, World.advance, t₁, hfree, w₂]⟩
  have h₂ : At k d.workspaceFile d.artifacts t₂ d w₂ :=
    .of_mirrors ⟨hmirrors.objects, hmirrors.uploaded, hmirrors.artifacts⟩
      (Function.update_self ..) rfl fun h ↦ absurd h (Option.some_ne_none attemptId)
  have htodo : t₂.todo = declarations := rfl
  obtain ⟨w', hloop, hends⟩ := leaves_declarations (H := H) h₂ rfl rfl htodo
  have hruns := (hloop.head hdeclared).head hbegin
  unfold Bundle.registerArtifacts
  cases hrun : declarations.forM (registerArtifact H attemptId) d with
  | error e d' =>
      rw [hrun] at hends
      exact ⟨w', hruns, .inr hends.raised, hends.mirrors⟩
  | ok u d' =>
      rw [hrun] at hends
      obtain ⟨t', hphase, htodo, h⟩ := hends
      have hcommits : Goes H (workspaceSource d.workspaceFile) k w' { w'.ends k .returned with
          artifacts := w'.artifacts ++ t'.pending.map fun r ↦ (k, r) } := h.goes (by
        simp [World.advance, hphase, World.declares, htodo])
      refine ⟨_, hruns.tail hcommits, .inl (Function.update_self ..), h.objects, h.uploaded, ?_⟩
      rw [h.pending, ← h.artifacts]
      simp [Function.comp_def]

/-- What the call leaves, if it is the only one and writes a single row. -/
theorem endsOver_after {α : Type} {x : IntakeM α}
    (h : Leaves H source k x d w (fun _ ↦ Returned k) (Raised k none d.artifacts)) :
    EndsOver H source k w (after x d) := by
  obtain ⟨w', hruns, hends⟩ := h
  unfold after
  cases hx : x d with
  | ok a d' =>
      rw [hx] at hends
      exact ⟨w', hruns, .inl hends.1, hends.2⟩
  | error e d' =>
      rw [hx] at hends
      have hsame : d'.artifacts = d.artifacts := hends.single rfl
      refine ⟨w', hruns, .inr hends.raised, ?_⟩
      rw [← hsame] at hends
      exact hends.mirrors

/-- `ingest_input` leaves what it leaves at once. -/
theorem ingestInput_alone {inputId : String} {content : Bytes} (hmirrors : Mirrors w d)
    (hlock : w.locks process = none) (hwriter : w.writer = none)
    (hcall : w.calls k = .running (Call.start process (.ingestInput inputId content))) :
    EndsOver H source k w (after (Bundle.ingestInput H inputId content) d) := by
  let t := Call.start process (.ingestInput inputId content)
  let m : Measured := ⟨{ record := .inr inputId, content := some content }, H content,
    content.length⟩
  have h : At k d.workspaceFile d.artifacts t d w := .of_mirrors hmirrors hcall rfl fun _ ↦ hwriter
  refine endsOver_after (leaves_measured (m := m) h rfl rfl hlock rfl rfl rfl fun w₁ h₁ ↦ ?_)
  refine h₁.leaves (.target m) rfl fun w₂ h₂ ↦ ?_
  exact (leaves_storeObject h₂ rfl rfl rfl rfl).bind fun _ d₃ w₃ h₃ ↦
    leaves_insertUploaded h₃ rfl rfl rfl

/-- What reading a file of the host finds. -/
def hostSource (host : Host) (path : String) : Option Bytes :=
  (host.resolve path).toOption.bind fun source ↦ (host.file source).bind Except.toOption

/-- `ingest_input_file` leaves what it leaves at once. -/
theorem ingestInputFile_alone {host : Host} {inputId path : String} (hmirrors : Mirrors w d)
    (hlock : w.locks process = none) (hwriter : w.writer = none)
    (hcall : w.calls k = .running (Call.start process (.ingestInputFile inputId))) :
    EndsOver H (fun _ ↦ hostSource host path) k w
      (after (ingestInputFile H host inputId path) d) := by
  let t := Call.start process (.ingestInputFile inputId)
  let item : Item := { record := .inr inputId }
  have h : At k d.workspaceFile d.artifacts t d w := .of_mirrors hmirrors hcall rfl fun _ ↦ hwriter
  refine endsOver_after ?_
  cases hresolve : host.resolve path with
  | error e =>
      refine .ofExcept_error hresolve (h.raises ?_)
      simp [World.advance, t, Call.start, reading, hostSource, hresolve, Except.toOption]
  | ok resolved =>
      refine .ofExcept_ok hresolve ?_
      cases hfile : host.file resolved with
      | none =>
          refine h.raises ?_
          simp [World.advance, t, Call.start, reading, hostSource, hresolve, hfile,
            Except.toOption]
      | some contents =>
          cases contents with
          | error e =>
              refine .ofExcept_error rfl (h.raises ?_)
              simp [World.advance, t, Call.start, reading, hostSource, hresolve, hfile,
                Except.toOption]
          | ok bytes =>
              refine .ofExcept_ok rfl ?_
              have hsource : hostSource host path = some bytes := by
                simp [hostSource, hresolve, hfile, Except.toOption]
              let m : Measured := ⟨item, H bytes, bytes.length⟩
              have hread : m.item.content.or ((fun _ : Item ↦ hostSource host path) m.item) =
                  some bytes := hsource
              have hlook : Goes H (fun _ ↦ hostSource host path) k w
                  (w.moves k t (.digest item)) := h.goes (by
                simp [World.advance, t, item, Call.start, reading, hsource])
              refine .goes hlook (leaves_measured (m := m) (h.moves (.digest item)) rfl rfl hlock
                hsource rfl rfl fun w₁ h₁ ↦ h₁.leaves (.target m) rfl fun w₂ h₂ ↦ ?_)
              refine (leaves_storeObject h₂ rfl rfl rfl hread).bind fun _ d₃ w₃ h₃ ↦ ?_
              exact (leaves_insertUploaded h₃ rfl rfl rfl).bind fun _ d₄ w₄ h₄ ↦ .pure h₄

/-- What `_register_file` hands over for a bundle. -/
def bundleDeclared (artifactId : String) : Declared :=
  { artifactId := artifactId, kind := Bundle.bundleKind, storeKey := Bundle.bundleKey
    metadata := [("producer", .str "runtime"), ("format", .str "zip"), ("complete", .bool true)] }

/-- `_register_file` leaves what it leaves at once. -/
theorem registerFile_alone {artifactId : String} {content : Bytes} (hmirrors : Mirrors w d)
    (hlock : w.locks process = none) (hwriter : w.writer = none)
    (hcall : w.calls k = .running
      (Call.start process (.registerFile attemptId (bundleDeclared artifactId)))) :
    EndsOver H (fun _ ↦ some content) k w
      (after (Bundle.World.registerFile H artifactId attemptId content) d) := by
  let t := Call.start process (.registerFile attemptId (bundleDeclared artifactId))
  let item : Item := { record := .inl (attemptId, bundleDeclared artifactId) }
  let m : Measured := ⟨item, H content, content.length⟩
  have h : At k d.workspaceFile d.artifacts t d w :=
    .of_mirrors hmirrors hcall rfl fun _ ↦ hwriter
  refine endsOver_after ?_
  cases hvalid : m.validate with
  | error message =>
      refine .ofExcept_error (congrArg (Except.mapError RuntimeError.contract) hvalid) ?_
      refine h.leaves (.size item (H content)) rfl fun w₁ h₁ ↦ h₁.raises ?_
      simp [World.advance, reading, item, m, hvalid]
  | ok u =>
      refine .ofExcept_ok (congrArg (Except.mapError RuntimeError.contract) hvalid) ?_
      refine leaves_measured (m := m) h rfl rfl hlock rfl rfl hvalid fun w₁ h₁ ↦ .get_bind ?_
      have hany : (w₁.artifacts.any fun r ↦
          r.2.attemptId = attemptId ∧ r.2.storeKey = Bundle.bundleKey) = true ↔
            (d.artifacts.find? fun r ↦
              r.attemptId = attemptId ∧ r.storeKey = Bundle.bundleKey).isSome = true := by
        rw [← h₁.artifacts, List.find?_map, Option.isSome_map, List.find?_isSome]
        simp
      cases hfind : d.artifacts.find? fun r ↦
          r.attemptId = attemptId ∧ r.storeKey = Bundle.bundleKey with
      | some existing =>
          rw [hfind] at hany
          have hreturns : Goes H (fun _ ↦ some content) k w₁ (w₁.ends k .returned) :=
            h₁.goes (if_pos (hany.mpr rfl))
          refine .goes hreturns (.pure ⟨Function.update_self .., h₁.objects, h₁.uploaded, ?_⟩)
          exact h₁.artifacts
      | none =>
          rw [hfind] at hany
          refine h₁.leaves (.target m) (if_neg fun h ↦ nomatch hany.mp h) fun w₂ h₂ ↦ ?_
          refine (leaves_storeObject h₂ rfl rfl rfl rfl).bind fun _ d₃ w₃ h₃ ↦ ?_
          exact (leaves_insertOne h₃ rfl rfl rfl).bind fun _ d₄ w₄ h₄ ↦ .pure h₄

end Whole

end ChipEvolve.Custody
