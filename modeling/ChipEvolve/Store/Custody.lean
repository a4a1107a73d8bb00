import ChipEvolve.Contracts.Artifact
import ChipEvolve.Machine
import ChipEvolve.Store.Tables
import Mathlib.Data.Set.Function
import Mathlib.Logic.Function.Basic

/-!
# The object store and the rows that refer to it

`register_artifacts`, `ingest_input`, `ingest_input_file` (`store.py`) and the
two registrations of `bundle.py`, cut at every read of a file and at every write
that another process can see.  What a read of a source finds is in the label, so
sources may change between any two reads.  A process has one lock, and the
database has one writer.  The partial file of a publication has a name of its
own, so it belongs to the call; what is under `object_path(digest)` is shared.
-/

namespace ChipEvolve.Custody

open Machine

/-! ## Calls -/

/-- A declaration handed to `register_artifacts`, with the id it will be given. -/
structure Declared where
  artifactId : String
  kind : String
  storeKey : String
  mediaType : Option String := none
  metadata : JsonObject := []

inductive Call where
  | registerArtifacts (attemptId : String) (declarations : List Declared)
  | ingestInput (inputId : String) (content : Bytes)
  | ingestInputFile (inputId : String)
  | registerBytes (attemptId : String) (declared : Declared) (content : Bytes)
  | registerFile (attemptId : String) (declared : Declared)

/-- What is published: an artifact or an input, from memory or from a file. -/
structure Item where
  record : (String × Declared) ⊕ String
  content : Option Bytes := none

/-- An item with the digest and the size that were measured. -/
structure Measured where
  item : Item
  digest : String
  size : Nat

/-- The place a call has come to. -/
inductive Phase where
  | lock
  | begin
  | declared
  | look (item : Item)
  | digest (item : Item)
  | size (item : Item) (digest : String)
  | acquire (m : Measured)
  | existing (m : Measured)
  | target (m : Measured)
  | existingSize (m : Measured)
  | existingDigest (m : Measured)
  | copy (m : Measured)
  | verify (m : Measured) (copied : Bytes)
  | replace (m : Measured) (copied : Bytes)
  | insert (m : Measured)

/-- A call that runs: what is still to be declared and what waits for `COMMIT`. -/
structure Thread where
  process : Nat
  phase : Phase
  registers : Option String := none
  todo : List Declared := []
  pending : List ArtifactRow := []

inductive CallState where
  | unused
  | running (t : Thread)
  | returned
  | raised
  | killed

/-- The rows carry the call that added them. -/
structure World where
  objects : String → Option Bytes := fun _ ↦ none
  artifacts : List (Nat × ArtifactRow) := []
  uploaded : List UploadedRow := []
  locks : Nat → Option Nat := fun _ ↦ none
  writer : Option Nat := none
  calls : Nat → CallState := fun _ ↦ .unused

/-- Where a call begins. -/
def Call.start (process : Nat) : Call → Thread
  | registerArtifacts attemptId declarations =>
      { process := process, phase := .lock, registers := some attemptId, todo := declarations }
  | ingestInput inputId content =>
      { process := process, phase := .digest { record := .inr inputId, content := some content } }
  | ingestInputFile inputId => { process := process, phase := .look { record := .inr inputId } }
  | registerBytes attemptId declared content =>
      { process := process
        phase := .digest { record := .inl (attemptId, declared), content := some content } }
  | registerFile attemptId declared =>
      { process := process, phase := .digest { record := .inl (attemptId, declared) } }

namespace Measured

/-- `Artifact(…).validate()` of an artifact; an input has no such check. -/
def validate (m : Measured) : Validated :=
  match m.item.record with
  | .inl (_, d) =>
      Artifact.validate
        { artifactId := d.artifactId, kind := d.kind, storeKey := d.storeKey, sha256 := m.digest,
          sizeBytes := m.size, mediaType := d.mediaType, metadata := d.metadata }
  | .inr _ => .ok ()

def artifactRow (m : Measured) (attemptId : String) (d : Declared) : ArtifactRow :=
  { artifactId := d.artifactId, attemptId := attemptId, kind := d.kind, storeKey := d.storeKey,
    sizeBytes := m.size, sha256 := m.digest, metadata := d.metadata, storage := .object }

def uploadedRow (m : Measured) (inputId : String) : UploadedRow :=
  { inputId := inputId, storeKey := m.digest, sizeBytes := m.size, sha256 := m.digest }

end Measured

namespace World

/-! ## Steps -/

def set (w : World) (k : Nat) (c : CallState) : World :=
  { w with calls := Function.update w.calls k c }

def moves (w : World) (k : Nat) (t : Thread) (phase : Phase) : World :=
  w.set k (.running { t with phase := phase })

/-- A call ends, and with it the lock and the transaction it holds. -/
def ends (w : World) (k : Nat) (c : CallState) : World :=
  { w.set k c with
    locks := fun p ↦ if w.locks p = some k then none else w.locks p
    writer := if w.writer = some k then none else w.writer }

/-- An exception: the transaction is rolled back and the partial file unlinked. -/
def raises (w : World) (k : Nat) : World := w.ends k .raised

def takesLock (w : World) (k : Nat) (t : Thread) : World :=
  { w with locks := Function.update w.locks t.process (some k) }

def publish (w : World) (digest : String) (content : Bytes) : World :=
  { w with objects := Function.update w.objects digest (some content) }

/-- The `INSERT` of an artifact or an input. -/
def inserts (w : World) (k : Nat) (t : Thread) (m : Measured) : Option World :=
  match m.item.record, t.registers with
  | .inl (attemptId, d), some _ =>
      let row := m.artifactRow attemptId d
      if (w.artifacts.map Prod.snd ++ t.pending).any row.clashes then some (w.raises k)
      else some (w.moves k { t with pending := t.pending ++ [row] } .declared)
  | .inl (attemptId, d), none =>
      let row := m.artifactRow attemptId d
      if w.writer.isSome then none
      else if (w.artifacts.map Prod.snd).any row.clashes then some (w.raises k)
      else some { w.ends k .returned with artifacts := w.artifacts ++ [(k, row)] }
  | .inr inputId, _ =>
      if w.writer.isSome then none
      else if w.uploaded.any fun r ↦ r.inputId = inputId then some (w.raises k)
      else some { w.ends k .returned with uploaded := w.uploaded ++ [m.uploadedRow inputId] }

/-- The next declaration of `register_artifacts`, or its `COMMIT`. -/
def declares (w : World) (k : Nat) (t : Thread) : World :=
  match t.todo with
  | d :: todo =>
      w.moves k { t with todo := todo } (.look { record := .inl (t.registers.getD "", d) })
  | [] =>
      { w.ends k .returned with artifacts := w.artifacts ++ t.pending.map fun r ↦ (k, r) }

/-- One step of a call.  A read of the source finds `read`, or there is no such file
in the workspace; bytes in memory are what they are. -/
def advance (H : Bytes → String) (w : World) (k : Nat) (t : Thread) (read : Option Bytes) :
    Option World :=
  match t.phase with
  | .lock => if (w.locks t.process).isSome then none else some ((w.takesLock k t).moves k t .begin)
  | .begin =>
      if w.writer.isSome then none else some ({ w with writer := some k }.moves k t .declared)
  | .declared => some (w.declares k t)
  | .look item =>
      match read with
      | some _ => some (w.moves k t (.digest item))
      | none => some (w.raises k)
  | .digest item =>
      match item.content.or read with
      | some bytes => some (w.moves k t (.size item (H bytes)))
      | none => some (w.raises k)
  | .size item digest =>
      match item.content.or read with
      | some bytes =>
          let m : Measured := { item := item, digest := digest, size := bytes.length }
          match m.validate with
          | .ok _ => some (w.moves k t (if t.registers.isSome then .target m else .acquire m))
          | .error _ => some (w.raises k)
      | none => some (w.raises k)
  | .acquire m =>
      if (w.locks t.process).isSome then none else some ((w.takesLock k t).moves k t (.existing m))
  | .existing m =>
      match m.item.record with
      | .inl (attemptId, d) =>
          if w.artifacts.any fun r ↦ r.2.attemptId = attemptId ∧ r.2.storeKey = d.storeKey then
            some (w.ends k .returned)
          else some (w.moves k t (.target m))
      | .inr _ => some (w.moves k t (.target m))
  | .target m =>
      some (w.moves k t (if (w.objects m.digest).isSome then .existingSize m else .copy m))
  | .existingSize m =>
      if (w.objects m.digest).any fun b ↦ b.length = m.size then
        some (w.moves k t (.existingDigest m))
      else some (w.raises k)
  | .existingDigest m =>
      if (w.objects m.digest).any fun b ↦ H b = m.digest then some (w.moves k t (.insert m))
      else some (w.raises k)
  | .copy m =>
      match m.item.content.or read with
      | some bytes => some (w.moves k t (.verify m bytes))
      | none => some (w.raises k)
  | .verify m copied =>
      if copied.length = m.size ∧ H copied = m.digest then
        some (w.moves k t (.replace m copied))
      else some (w.raises k)
  | .replace m copied => some ((w.publish m.digest copied).moves k t (.insert m))
  | .insert m => w.inserts k t m

/-- The calls of a process that is killed are gone, and so is its transaction. -/
def kill (w : World) (p : Nat) : World :=
  { w with
    calls := fun k ↦
      match w.calls k with
      | .running t => if t.process = p then .killed else .running t
      | c => c
    locks := Function.update w.locks p none
    writer := w.writer.filter fun k ↦
      match w.calls k with
      | .running t => t.process ≠ p
      | _ => true }

end World

inductive Label where
  | start (k process : Nat) (call : Call)
  | next (k : Nat) (read : Option Bytes)
  | fail (k : Nat)
  | kill (process : Nat)

/-- Any call starts, goes on, or is broken off by an error of the file system or the
database; any process is killed. -/
def step (H : Bytes → String) (w : World) : Label → Option World
  | .start k process call =>
      match w.calls k with
      | .unused => some (w.set k (.running (call.start process)))
      | _ => none
  | .next k read =>
      match w.calls k with
      | .running t => w.advance H k t read
      | _ => none
  | .fail k =>
      match w.calls k with
      | .running _ => some (w.raises k)
      | _ => none
  | .kill p => some (w.kill p)

/-- The bytes a call is handed. -/
def Call.bytes : Call → List Bytes
  | ingestInput _ content => [content]
  | registerBytes _ _ content => [content]
  | _ => []

def Label.bytes : Label → List Bytes
  | start _ _ call => call.bytes
  | next _ read => read.toList
  | _ => []

/-- The byte strings that occur in a history: in memory, or as what a read finds. -/
def occurring (history : List Label) : Set Bytes := {b | ∃ l ∈ history, b ∈ l.bytes}

/-! ## Custody -/

/-- There is an object of that digest and size. -/
def Kept (H : Bytes → String) (objects : String → Option Bytes) (digest : String) (size : Nat) :
    Prop :=
  ∃ b, objects digest = some b ∧ b.length = size ∧ H b = digest

/-- Every row that refers to the object store has its bytes there. -/
structure InCustody (H : Bytes → String) (w : World) : Prop where
  artifacts : ∀ p ∈ w.artifacts, p.2.storage = .object → Kept H w.objects p.2.sha256 p.2.sizeBytes
  uploaded : ∀ r ∈ w.uploaded, Kept H w.objects r.sha256 r.sizeBytes

/-- Every object lies under its digest, and has occurred. -/
def Named (H : Bytes → String) (S : Set Bytes) (objects : String → Option Bytes) : Prop :=
  ∀ digest b, objects digest = some b → b ∈ S ∧ H b = digest

def Item.Within (S : Set Bytes) (item : Item) : Prop := ∀ b, item.content = some b → b ∈ S

/-- What a call knows at its place. -/
def Phase.Sound (H : Bytes → String) (S : Set Bytes) (objects : String → Option Bytes) :
    Phase → Prop
  | .look item | .digest item | .size item _ => item.Within S
  | .acquire m | .existing m | .target m | .existingSize m | .copy m => m.item.Within S
  | .existingDigest m => ∃ b, objects m.digest = some b ∧ b.length = m.size
  | .verify _ copied => copied ∈ S
  | .replace m copied => copied ∈ S ∧ copied.length = m.size ∧ H copied = m.digest
  | .insert m => Kept H objects m.digest m.size
  | .lock | .begin | .declared => True

def Thread.Sound (H : Bytes → String) (S : Set Bytes) (objects : String → Option Bytes)
    (t : Thread) : Prop :=
  (∀ r ∈ t.pending, Kept H objects r.sha256 r.sizeBytes) ∧ t.phase.Sound H S objects

structure Sound (H : Bytes → String) (S : Set Bytes) (w : World) : Prop where
  named : Named H S w.objects
  custody : InCustody H w
  threads : ∀ k t, w.calls k = .running t → t.Sound H S w.objects

variable {H : Bytes → String} {S : Set Bytes} {w w' : World} {k : Nat} {t : Thread}
  {read : Option Bytes}

/-- What one step of a call does: it goes on with what it learnt, it publishes, or it
ends, and rows come with the end that adds them. -/
inductive Turn (H : Bytes → String) (S : Set Bytes) (w : World) (k : Nat) (t : Thread) :
    World → Prop
  | goes {t' : Thread} {locks : Nat → Option Nat} {writer : Option Nat}
      (hpending : t'.pending = t.pending)
      (hlearns : Named H S w.objects → t.phase.Sound H S w.objects →
        t'.phase.Sound H S w.objects) :
      Turn H S w k t { w.set k (.running t') with locks := locks, writer := writer }
  | raises : Turn H S w k t (w.raises k)
  | returns : Turn H S w k t (w.ends k .returned)
  | publishes {m : Measured} {copied : Bytes} (hm : t.phase = .replace m copied) :
      Turn H S w k t ((w.publish m.digest copied).moves k t (.insert m))
  | declares {m : Measured} {attemptId : String} {d : Declared} (hm : t.phase = .insert m) :
      Turn H S w k t
        (w.moves k { t with pending := t.pending ++ [m.artifactRow attemptId d] } .declared)
  | commits : Turn H S w k t
      { w.ends k .returned with artifacts := w.artifacts ++ t.pending.map fun r ↦ (k, r) }
  | registers {m : Measured} {attemptId : String} {d : Declared} (hm : t.phase = .insert m) :
      Turn H S w k t
        { w.ends k .returned with artifacts := w.artifacts ++ [(k, m.artifactRow attemptId d)] }
  | uploads {m : Measured} {inputId : String} (hm : t.phase = .insert m) :
      Turn H S w k t { w.ends k .returned with uploaded := w.uploaded ++ [m.uploadedRow inputId] }

namespace Turn

theorem moves {phase : Phase}
    (hlearns : Named H S w.objects → t.phase.Sound H S w.objects → phase.Sound H S w.objects) :
    Turn H S w k t (w.moves k t phase) :=
  .goes rfl hlearns

theorem of_inserts {m : Measured} (hm : t.phase = .insert m) (h : w.inserts k t m = some w') :
    Turn H S w k t w' := by
  unfold World.inserts at h
  split at h
  · simp only at h
    split at h <;> obtain rfl := Option.some.inj h
    · exact .raises
    · exact .declares hm
  · simp only at h
    split at h
    · cases h
    · split at h <;> obtain rfl := Option.some.inj h
      · exact .raises
      · exact .registers hm
  · split at h
    · cases h
    · split at h <;> obtain rfl := Option.some.inj h
      · exact .raises
      · exact .uploads hm

theorem of_declares : Turn H S w k t (w.declares k t) := by
  unfold World.declares
  split
  · exact .goes rfl fun _ _ _ h ↦ by cases h
  · exact .commits

/-- What a read or the memory gives has occurred. -/
theorem mem_of_read {item : Item} {bytes : Bytes} (hread : ∀ b, read = some b → b ∈ S)
    (hitem : item.Within S) (h : item.content.or read = some bytes) : bytes ∈ S := by
  rcases Option.or_eq_some_iff.mp h with hcontent | ⟨_, hread'⟩
  · exact hitem bytes hcontent
  · exact hread bytes hread'

theorem of_advance (hread : ∀ b, read = some b → b ∈ S) (h : w.advance H k t read = some w') :
    Turn H S w k t w' := by
  unfold World.advance at h
  split at h
  · -- lock
    split at h
    · cases h
    · obtain rfl := Option.some.inj h
      exact .goes rfl fun _ _ ↦ trivial
  · -- begin
    split at h
    · cases h
    · obtain rfl := Option.some.inj h
      exact .goes rfl fun _ _ ↦ trivial
  · obtain rfl := Option.some.inj h
    exact .of_declares
  · -- look
    next item hphase =>
      split at h <;> obtain rfl := Option.some.inj h
      · exact .moves fun _ hitem ↦ by rwa [hphase] at hitem
      · exact .raises
  · -- digest
    next item hphase =>
      split at h <;> obtain rfl := Option.some.inj h
      · exact .moves fun _ hitem ↦ by rwa [hphase] at hitem
      · exact .raises
  · -- size
    next item digest hphase =>
      split at h
      · simp only at h
        split at h <;> obtain rfl := Option.some.inj h
        · refine .moves fun _ hitem ↦ ?_
          rw [hphase] at hitem
          split <;> exact hitem
        · exact .raises
      · obtain rfl := Option.some.inj h
        exact .raises
  · -- acquire
    next m hphase =>
      split at h
      · cases h
      · obtain rfl := Option.some.inj h
        exact .goes rfl fun _ hitem ↦ by rwa [hphase] at hitem
  · -- existing
    next m hphase =>
      split at h
      · split at h <;> obtain rfl := Option.some.inj h
        · exact .returns
        · exact .moves fun _ hitem ↦ by rwa [hphase] at hitem
      · obtain rfl := Option.some.inj h
        exact .moves fun _ hitem ↦ by rwa [hphase] at hitem
  · -- target
    next m hphase =>
      obtain rfl := Option.some.inj h
      refine .moves fun _ hitem ↦ ?_
      rw [hphase] at hitem
      split <;> exact hitem
  · -- existing size
    split at h <;> obtain rfl := Option.some.inj h
    · next hsize =>
        obtain ⟨b, hb, hlength⟩ := (Option.any_eq_true _ _).mp hsize
        exact .moves fun _ _ ↦ ⟨b, hb, by simpa using hlength⟩
    · exact .raises
  · -- existing digest
    next m hm =>
      split at h <;> obtain rfl := Option.some.inj h
      · refine .moves fun hnamed hphase ↦ ?_
        rw [hm] at hphase
        obtain ⟨b, hb, hlength⟩ := hphase
        exact ⟨b, hb, hlength, (hnamed m.digest b hb).2⟩
      · exact .raises
  · -- copy
    next m hphase =>
      split at h <;> obtain rfl := Option.some.inj h
      · next bytes hbytes =>
          refine .moves fun _ hitem ↦ ?_
          rw [hphase] at hitem
          exact mem_of_read hread hitem hbytes
      · exact .raises
  · -- verify
    next m copied hphase =>
      split at h <;> obtain rfl := Option.some.inj h
      · next hverified =>
          refine .moves fun _ hcopied ↦ ?_
          rw [hphase] at hcopied
          exact ⟨hcopied, hverified⟩
      · exact .raises
  · -- replace
    next m copied hm =>
      obtain rfl := Option.some.inj h
      exact .publishes hm
  · next m hm => exact .of_inserts hm h

end Turn

namespace Sound

theorem ends (h : Sound H S w) (k : Nat) {c : CallState} (hc : ∀ t, c ≠ .running t) :
    Sound H S (w.ends k c) where
  named := h.named
  custody := ⟨h.custody.artifacts, h.custody.uploaded⟩
  threads := by
    intro k' t ht
    by_cases heq : k' = k
    · subst heq
      exact absurd (by simpa [World.ends, World.set] using ht) (hc t)
    · exact h.threads k' t (by simpa [World.ends, World.set, heq] using ht)

theorem set (h : Sound H S w) (k : Nat) {t : Thread} (ht : t.Sound H S w.objects) :
    Sound H S (w.set k (.running t)) where
  named := h.named
  custody := ⟨h.custody.artifacts, h.custody.uploaded⟩
  threads := by
    intro k' t' ht'
    by_cases heq : k' = k
    · subst heq
      obtain rfl : t = t' := by simpa [World.set] using ht'
      exact ht
    · exact h.threads k' t' (by simpa [World.set, heq] using ht')

theorem kill (h : Sound H S w) (p : Nat) : Sound H S (w.kill p) where
  named := h.named
  custody := ⟨h.custody.artifacts, h.custody.uploaded⟩
  threads := by
    intro k t ht
    simp only [World.kill] at ht
    split at ht
    · next t' ht' =>
        split at ht
        · cases ht
        · obtain rfl : t' = t := by simpa using ht
          exact h.threads k t' ht'
    · next hother => exact absurd ht (hother t)

end Sound

section CollisionFree

variable (hfree : Set.InjOn H S)

include hfree

/-- A publication under a digest keeps every object of its digest and size. -/
theorem Kept.publish (hnamed : Named H S w.objects) {digest : String} {size : Nat} {m : Measured}
    {copied : Bytes} (hmem : copied ∈ S) (hcopied : H copied = m.digest)
    (h : Kept H w.objects digest size) : Kept H (w.publish m.digest copied).objects digest size := by
  obtain ⟨b, hb, hsize, hdigest⟩ := h
  by_cases heq : digest = m.digest
  · subst heq
    obtain rfl : copied = b :=
      hfree hmem (hnamed m.digest b hb).1 (hcopied.trans hdigest.symm)
    exact ⟨copied, by simp [World.publish], hsize, hcopied⟩
  · exact ⟨b, by simpa [World.publish, heq] using hb, hsize, hdigest⟩

theorem Phase.Sound.publish (hnamed : Named H S w.objects) {m : Measured} {copied : Bytes}
    (hmem : copied ∈ S) (hcopied : H copied = m.digest) {phase : Phase}
    (h : phase.Sound H S w.objects) : phase.Sound H S (w.publish m.digest copied).objects := by
  cases phase with
  | existingDigest m' =>
      obtain ⟨b, hb, hsize⟩ := h
      obtain ⟨b', hb', hsize', _⟩ :=
        Kept.publish hfree hnamed hmem hcopied ⟨b, hb, hsize, (hnamed m'.digest b hb).2⟩
      exact ⟨b', hb', hsize'⟩
  | insert m' => exact Kept.publish hfree hnamed hmem hcopied h
  | _ => exact h

theorem Sound.publish (h : Sound H S w) {m : Measured} {copied : Bytes} (hmem : copied ∈ S)
    (hcopied : H copied = m.digest) : Sound H S (w.publish m.digest copied) where
  named := by
    intro digest b hb
    by_cases heq : digest = m.digest
    · subst heq
      obtain rfl : copied = b := by simpa [World.publish] using hb
      exact ⟨hmem, hcopied⟩
    · exact h.named digest b (by simpa [World.publish, heq] using hb)
  custody :=
    ⟨fun p hp hobject ↦
      (h.custody.artifacts p hp hobject).publish hfree h.named hmem hcopied,
    fun r hr ↦ (h.custody.uploaded r hr).publish hfree h.named hmem hcopied⟩
  threads := by
    intro k t ht
    obtain ⟨hpending, hphase⟩ := h.threads k t ht
    exact ⟨fun r hr ↦ (hpending r hr).publish hfree h.named hmem hcopied,
      hphase.publish hfree h.named hmem hcopied⟩

end CollisionFree

namespace Sound

/-- Rows whose bytes are there may be added. -/
theorem artifactsAdded (h : Sound H S w) {rows : List (Nat × ArtifactRow)}
    (hrows : ∀ p ∈ rows, Kept H w.objects p.2.sha256 p.2.sizeBytes) :
    Sound H S { w with artifacts := w.artifacts ++ rows } where
  named := h.named
  custody := by
    refine ⟨fun p hp hobject ↦ ?_, h.custody.uploaded⟩
    rcases List.mem_append.mp hp with hold | hnew
    · exact h.custody.artifacts p hold hobject
    · exact hrows p hnew
  threads := h.threads

theorem inputAdded (h : Sound H S w) {r : UploadedRow} (hr : Kept H w.objects r.sha256 r.sizeBytes) :
    Sound H S { w with uploaded := w.uploaded ++ [r] } where
  named := h.named
  custody := by
    refine ⟨h.custody.artifacts, fun r' hr' ↦ ?_⟩
    rcases List.mem_append.mp hr' with hold | hnew
    · exact h.custody.uploaded r' hold
    · obtain rfl := List.mem_singleton.mp hnew
      exact hr
  threads := h.threads

theorem turn (hfree : Set.InjOn H S) (h : Sound H S w) (ht : w.calls k = .running t)
    (hturn : Turn H S w k t w') : Sound H S w' := by
  obtain ⟨hpending, hphase⟩ := h.threads k t ht
  cases hturn with
  | goes hkeeps hlearns =>
      have hset := h.set k ⟨by rwa [hkeeps], hlearns h.named hphase⟩
      exact ⟨hset.named, ⟨hset.custody.artifacts, hset.custody.uploaded⟩, hset.threads⟩
  | raises => exact h.ends k (by simp)
  | returns => exact h.ends k (by simp)
  | @publishes m copied hm =>
      rw [hm] at hphase
      obtain ⟨hmem, hsize, hdigest⟩ := hphase
      refine (h.publish hfree hmem hdigest).set k ⟨?_, copied, ?_, hsize, hdigest⟩
      · exact fun r hr ↦ (hpending r hr).publish hfree h.named hmem hdigest
      · simp [World.publish]
  | @declares m attemptId d hm =>
      rw [hm] at hphase
      refine h.set k ⟨fun r hr ↦ ?_, trivial⟩
      rcases List.mem_append.mp hr with hold | hnew
      · exact hpending r hold
      · obtain rfl := List.mem_singleton.mp hnew
        exact hphase
  | commits =>
      refine (h.ends k (by simp)).artifactsAdded fun p hp ↦ ?_
      obtain ⟨r, hr, rfl⟩ := List.mem_map.mp hp
      exact hpending r hr
  | @registers m attemptId d hm =>
      rw [hm] at hphase
      refine (h.ends k (by simp)).artifactsAdded fun p hp ↦ ?_
      obtain rfl := List.mem_singleton.mp hp
      exact hphase
  | @uploads m inputId hm =>
      rw [hm] at hphase
      exact (h.ends k (by simp)).inputAdded hphase

end Sound

theorem Call.start_sound (process : Nat) {call : Call} (hbytes : ∀ b ∈ call.bytes, b ∈ S)
    (objects : String → Option Bytes) : (call.start process).Sound H S objects := by
  refine ⟨by cases call <;> simp [Call.start], ?_⟩
  cases call with
  | registerArtifacts => trivial
  | ingestInput _ content | registerBytes _ _ content =>
      rintro b ⟨⟩
      exact hbytes content (by simp [Call.bytes])
  | ingestInputFile | registerFile =>
      rintro b ⟨⟩

theorem Sound.step (hfree : Set.InjOn H S) (h : Sound H S w) {l : Label}
    (hbytes : ∀ b ∈ l.bytes, b ∈ S) (hstep : step H w l = some w') : Sound H S w' := by
  cases l with
  | start k process call =>
      simp only [Custody.step] at hstep
      split at hstep
      · obtain rfl := Option.some.inj hstep
        exact h.set k (call.start_sound process hbytes w.objects)
      · cases hstep
  | next k read =>
      simp only [Custody.step] at hstep
      split at hstep
      · next t ht =>
          have hread : ∀ b, read = some b → b ∈ S := by
            rintro b rfl
            exact hbytes b (by simp [Label.bytes])
          exact h.turn hfree ht (.of_advance hread hstep)
      · cases hstep
  | fail k =>
      simp only [Custody.step] at hstep
      split at hstep
      · obtain rfl := Option.some.inj hstep
        exact h.ends k (by simp)
      · cases hstep
  | kill p =>
      obtain rfl := Option.some.inj hstep
      exact h.kill p

theorem Sound.of_visits {history : List Label} (hfree : Set.InjOn H (occurring history))
    (h : Visits (Custody.step H) {} history w) : Sound H (occurring history) w := by
  refine (h.reachableBy fun _ _ _ ht ↦ ht.mem).invariant
    (P := Sound H (occurring history)) ?_ fun w l w' hw hl hstep ↦
      hw.step hfree (fun b hb ↦ ⟨l, hl, hb⟩) hstep
  exact ⟨by simp [Named], ⟨by simp, by simp⟩, by simp⟩

/-! ## Rows come from calls that returned -/

def RowsReturned (w : World) : Prop := ∀ p ∈ w.artifacts, w.calls p.1 = .returned

namespace RowsReturned

/-- A call that runs has added no row, so what becomes of it does not matter. -/
theorem update (h : RowsReturned w) (hk : w.calls k ≠ .returned) (c : CallState) :
    ∀ p ∈ w.artifacts, Function.update w.calls k c p.1 = .returned := by
  intro p hp
  have hne : p.1 ≠ k := by
    rintro rfl
    exact hk (h p hp)
  rw [Function.update_of_ne hne]
  exact h p hp

/-- The rows a call adds as it returns. -/
theorem returns (h : RowsReturned w) (hk : w.calls k ≠ .returned)
    {rows : List (Nat × ArtifactRow)} (hrows : ∀ p ∈ rows, p.1 = k) :
    RowsReturned { w.ends k .returned with artifacts := w.artifacts ++ rows } := by
  intro p hp
  rcases List.mem_append.mp hp with hold | hnew
  · exact h.update hk .returned p hold
  · rw [hrows p hnew]
    simp [World.ends, World.set]

theorem turn (h : RowsReturned w) (hk : w.calls k ≠ .returned) (hturn : Turn H S w k t w') :
    RowsReturned w' := by
  cases hturn with
  | goes | raises | returns | publishes | declares | uploads => exact h.update hk _
  | commits => exact h.returns hk (by simp)
  | registers hm => exact h.returns hk (by simp)

theorem step (h : RowsReturned w) {l : Label} (hstep : step H w l = some w') :
    RowsReturned w' := by
  cases l with
  | start k process call =>
      simp only [Custody.step] at hstep
      split at hstep
      · next hunused =>
          obtain rfl := Option.some.inj hstep
          exact h.update (by simp [hunused]) _
      · cases hstep
  | next k read =>
      simp only [Custody.step] at hstep
      split at hstep
      · next t ht => exact h.turn (by simp [ht]) (.of_advance (fun _ _ ↦ Set.mem_univ _) hstep)
      · cases hstep
  | fail k =>
      simp only [Custody.step] at hstep
      split at hstep
      · next t ht =>
          obtain rfl := Option.some.inj hstep
          exact h.update (by simp [ht]) _
      · cases hstep
  | kill p =>
      obtain rfl := Option.some.inj hstep
      intro q hq
      simp only [World.kill, h q hq]

theorem of_visits {history : List Label} (h : Visits (Custody.step H) {} history w) :
    RowsReturned w :=
  h.reachable.invariant (P := RowsReturned) (by simp [RowsReturned]) fun _ _ _ hs _ hstep ↦
    hs.step hstep

end RowsReturned

/-- In every history of registrations and ingestions, from any number of processes
and with sources that change, in which no two byte strings have one digest, each row has
its bytes in the object store, and an artifact row comes from a call that returned. -/
theorem rows_in_custody {history : List Label} (hfree : Set.InjOn H (occurring history))
    (hw : Visits (step H) {} history w) :
    InCustody H w ∧ ∀ k, w.calls k = .raised → ∀ p ∈ w.artifacts, p.1 ≠ k := by
  refine ⟨(Sound.of_visits hfree hw).custody, ?_⟩
  rintro k hraised p hp rfl
  rw [RowsReturned.of_visits hw p hp] at hraised
  cases hraised

namespace Sample

def hi : Bytes := [104, 105]

def ho : Bytes := [104, 111]

/-- The digests of the two byte strings. -/
def sha256 (b : Bytes) : String :=
  if b = hi then "8f434346648f6b96df89dda901c5176b10a6d83961dd3c1ac88b59b2dc327aa4"
  else "a821c62e8104f8519d639b4c0948aece641b143f6601fa145993bb2e2c7299d4"

/-- One process registers a file and another ingests the same bytes; both find no object.
A third call measures a file that has changed by the time it is copied. -/
def race : List Label :=
  [.start 0 0 (.registerArtifacts "attempt-1"
      [{ artifactId := "art-1", kind := "report", storeKey := "report.txt" }]),
    .start 1 1 (.ingestInput "input-1" hi)] ++
    [none, none, none, some hi, some hi, some hi, none].map (.next 0) ++
    List.replicate 5 (.next 1 none) ++
    [some hi, none, none, none, none].map (.next 0) ++ List.replicate 4 (.next 1 none) ++
    [.start 2 0 (.ingestInputFile "input-2")] ++
    [some ho, some ho, some ho, none, none, none, some hi, none].map (.next 2)

end Sample

theorem rows_in_custody_race :
    ∃ w, Visits (step Sample.sha256) {} Sample.race w ∧ w.artifacts.length = 1 ∧
      w.uploaded.length = 1 ∧ InCustody Sample.sha256 w ∧
        ∀ k, w.calls k = .raised → ∀ p ∈ w.artifacts, p.1 ≠ k := by
  have hends : (run (step Sample.sha256) {} Sample.race).any (fun w ↦
      w.artifacts.length = 1 && w.uploaded.length = 1 &&
        match w.calls 2 with
        | .raised => true
        | _ => false) = true := by
    decide +kernel
  have hoccur : ∀ b ∈ occurring Sample.race, b = Sample.hi ∨ b = Sample.ho := by
    have hall : ∀ l ∈ Sample.race, ∀ b ∈ l.bytes, b = Sample.hi ∨ b = Sample.ho := by
      simp [Sample.race, Label.bytes, Call.bytes]
    rintro b ⟨l, hl, hb⟩
    exact hall l hl b hb
  have hfree : Set.InjOn Sample.sha256 (occurring Sample.race) := by
    intro a ha b hb heq
    rcases hoccur a ha with rfl | rfl <;> rcases hoccur b hb with rfl | rfl <;>
      first | rfl | exact absurd heq (by decide)
  obtain ⟨w, hw, hlengths⟩ := Visits.of_any hends
  simp only [Bool.and_eq_true, decide_eq_true_eq] at hlengths
  exact ⟨w, hw, hlengths.1.1, hlengths.1.2, rows_in_custody hfree hw⟩

end ChipEvolve.Custody
