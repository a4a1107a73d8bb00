import ChipEvolve.Gateway.Runs

/-!
# Inputs uploaded in chunks

`KernelApi.ingest_input_chunk` (`kernel_api.py`) with `RuntimeStore.ingest_input_file`
and `_store_object` (`store.py`), for the requests that name one upload.  The server
answers each request in a thread of its own, and nothing is held between the reading
of the size of the partial file, the append, and the removal at the end, so each of
these is a step of its own here.
-/

namespace ChipEvolve.Gateway.Upload

open Machine

/-! ## Requests -/

abbrev RequestId := Nat

/-- A `POST /kernel/inputs/chunk` with bytes for a body. -/
structure Chunk where
  body : Bytes
  offset : Int := 0
  final : Bool := false

inductive Reply where
  | accepted (offset : Nat)
  | ingested (digest : String) (size : Nat)
  | error (e : HttpError)

/-- How far the handler has come with a request; `unlinking` carries what it answers then. -/
inductive Phase where
  | reading
  | comparing (current : Nat)
  | appending (current : Nat)
  | hashing
  | sizing (digest : String)
  | storing (digest : String) (size : Nat)
  | unlinking (reply : Reply)
  | answered (reply : Reply)

def maxInputUploadBytes : Nat := 64 * 1024 ^ 3

namespace Phase

/-- The body is not in the file yet. -/
def early : Phase → Bool
  | reading | comparing _ | appending _ => true
  | _ => false

/-- The body is in the file, and the request has not ended it. -/
def within : Phase → Bool
  | hashing | sizing _ | storing _ _ | unlinking _ | answered (.accepted _) => true
  | _ => false

/-- A final request that has appended its body and still has to remove the file. -/
def finishing : Phase → Bool
  | hashing | sizing _ | storing _ _ | unlinking _ => true
  | _ => false

/-- A final request that has read the file. -/
def measured : Phase → Bool
  | sizing _ | storing _ _ | unlinking _ => true
  | _ => false

/-- The body is in the file, and the request is in progress or was answered with success. -/
def kept : Phase → Bool
  | answered (.ingested _ _) => true
  | phase => phase.within

end Phase

namespace Chunk

def arrive (c : Chunk) : Phase :=
  if c.offset < 0 then .answered (.error ⟨400, "offset must not be negative"⟩) else .reading

def compare (c : Chunk) (current : Nat) : Phase :=
  if (current : Int) ≠ c.offset then
    .answered (.error ⟨409, "upload offset is " ++ toString current ++ ", not " ++
      toString c.offset⟩)
  else if maxInputUploadBytes < current + c.body.length then
    .answered (.error ⟨413, "input upload exceeds the 64 GiB limit"⟩)
  else .appending current

end Chunk

/-! ## The partial file -/

/-- The partial file and the objects, with the requests.  `removals` counts how often
the file was removed, and `writers n` lists who has appended to the file between the
`n`-th removal and the next. -/
structure World where
  file : Option Bytes := none
  objects : String → Option Bytes
  requests : RequestId → Option (Chunk × Phase) := fun _ ↦ none
  removals : Nat := 0
  writers : Nat → List (RequestId × Chunk) := fun _ ↦ []

inductive Event where
  | arrive (p : RequestId) (c : Chunk)
  | next (p : RequestId)
  /-- The file is older than `INPUT_UPLOAD_TTL_SECONDS`, and some request removes it. -/
  | swept
  /-- Some other upload or run stores an object. -/
  | published (content : Bytes)

/-- An exception that the router turns into a response. -/
def raised (message : String) : Phase := .unlinking (.error ⟨500, message⟩)

def bodies (parts : List (RequestId × Chunk)) : Bytes := parts.flatMap fun part ↦ part.2.body

namespace World

variable (H : Bytes → String) (path : String)

def size (w : World) : Nat := (w.file.getD []).length

/-- What the `n`-th file holds, or held when it was removed. -/
def written (w : World) (n : Nat) : Bytes := bodies (w.writers n)

def goTo (w : World) (p : RequestId) (c : Chunk) (phase : Phase) : World :=
  { w with requests := Function.update w.requests p (some (c, phase)) }

def append (w : World) (p : RequestId) (c : Chunk) : World :=
  { w with
    file := some (w.file.getD [] ++ c.body)
    writers := Function.update w.writers w.removals (w.writers w.removals ++ [(p, c)]) }

def remove (w : World) : World := { w with file := none, removals := w.removals + 1 }

def publish (w : World) (content : Bytes) : World :=
  { w with
    objects := fun digest ↦
      (w.objects digest).or (if H content = digest then some content else none) }

/-- `_store_object` -/
def storeObject (w : World) (digest : String) (size : Nat) : Except String World :=
  match w.objects digest with
  | some existing =>
      if existing.length ≠ size || H existing ≠ digest then
        .error ("RuntimeStoreError: object " ++ digest ++ " is " ++ toString existing.length ++
          " bytes but the artifact is " ++ toString size ++ ": the object store is inconsistent")
      else .ok w
  | none =>
      match w.file with
      | none => .error ("FileNotFoundError: [Errno 2] No such file or directory: '" ++ path ++ "'")
      | some content =>
          if content.length ≠ size || H content ≠ digest then
            .error "RuntimeStoreError: source changed while publishing object"
          else .ok (w.publish H content)

/-- The next thing the handler does for a request. -/
def handle (w : World) (p : RequestId) (c : Chunk) : Phase → Option World
  | .reading => some (w.goTo p c (.comparing w.size))
  | .comparing current => some (w.goTo p c (c.compare current))
  | .appending current =>
      some ((w.append p c).goTo p c
        (if c.final then .hashing else .answered (.accepted (current + c.body.length))))
  | .hashing =>
      match w.file with
      | none =>
          some (w.goTo p c (raised ("RuntimeStoreError: input file is not readable: " ++ path)))
      | some content => some (w.goTo p c (.sizing (H content)))
  | .sizing digest =>
      match w.file with
      | none =>
          some (w.goTo p c
            (raised ("FileNotFoundError: [Errno 2] No such file or directory: '" ++ path ++ "'")))
      | some content => some (w.goTo p c (.storing digest content.length))
  | .storing digest size =>
      match w.storeObject H path digest size with
      | .error message => some (w.goTo p c (raised message))
      | .ok stored => some (stored.goTo p c (.unlinking (.ingested digest size)))
  | .unlinking reply => some (w.remove.goTo p c (.answered reply))
  | .answered _ => none

def step (w : World) : Event → Option World
  | .arrive p c => if (w.requests p).isSome then none else some (w.goTo p c c.arrive)
  | .next p => (w.requests p).bind fun request ↦ w.handle H path p request.1 request.2
  | .swept => some w.remove
  | .published content => some (w.publish H content)

end World

/-! ## What is asked of an upload -/

/-- Every body lies in the file where its request said that it belongs. -/
def Laid : Nat → List (RequestId × Chunk) → Prop
  | _, [] => True
  | n, (_, c) :: rest => c.offset = n ∧ Laid (n + c.body.length) rest

/-- All bodies in the `n`-th file belong to requests that were answered with success or
that are in progress. -/
def AllKept (w : World) (n : Nat) : Prop :=
  ∀ part ∈ w.writers n, ∃ phase, w.requests part.1 = some (part.2, phase) ∧ phase.kept = true

instance decidableLaid : ∀ n parts, Decidable (Laid n parts)
  | _, [] => isTrue trivial
  | n, (_, c) :: rest =>
      have := decidableLaid (n + c.body.length) rest
      inferInstanceAs (Decidable (_ ∧ _))

structure Intact (w : World) : Prop where
  once : ((w.writers w.removals).map Prod.fst).Nodup
  kept : AllKept w w.removals
  laid : Laid 0 (w.writers w.removals)
  file : w.file.getD [] = w.written w.removals
  /-- An input that was answered has the bytes that were accepted, and no others. -/
  ingested : ∀ {p : RequestId} {c : Chunk} {digest : String} {size : Nat},
    w.requests p = some (c, .answered (.ingested digest size)) →
      ∃ n, (p, c) ∈ w.writers n ∧ w.objects digest = some (w.written n) ∧
        size = (w.written n).length ∧ AllKept w n

/-- Nobody else comes between the steps of a request.  Whoever appends finds the file as long as
when it read the size, and no final request between its reading of the file and its removal.
Whoever removes the file leaves no other final request without it. -/
def World.Undisturbed (w : World) : Event → Prop
  | .next p =>
      match w.requests p with
      | some (_, .appending current) =>
          w.size = current ∧
            ∀ q c phase, w.requests q = some (c, phase) → phase.measured = false
      | some (_, .unlinking _) =>
          ∀ q c phase, q ≠ p → w.requests q = some (c, phase) → phase.finishing = false
      | _ => True
  | .swept => ∀ q c phase, w.requests q = some (c, phase) → phase.finishing = false
  | _ => True

/-- The byte strings that occur in a history, as objects or as the partial file. -/
def occurring (H : Bytes → String) (path : String) (objects : String → Option Bytes)
    (history : List Event) : Set Bytes :=
  {b | ∃ w, Visits (World.step H path) { objects := objects } history w ∧
    ((∃ digest, w.objects digest = some b) ∨ w.file = some b)}

/-! ## Bodies in a row -/

section Bodies

variable {parts : List (RequestId × Chunk)} {p : RequestId} {c : Chunk} {n : Nat}

@[simp] theorem bodies_nil : bodies [] = [] := rfl

@[simp] theorem bodies_concat : bodies (parts ++ [(p, c)]) = bodies parts ++ c.body := by
  simp [bodies]

theorem laid_concat_iff :
    Laid n (parts ++ [(p, c)]) ↔
      Laid n parts ∧ c.offset = ((n + (bodies parts).length : Nat) : Int) := by
  induction parts generalizing n with
  | nil => simp [Laid]
  | cons part parts ih =>
      obtain ⟨q, c'⟩ := part
      have hlength : n + (bodies ((q, c') :: parts)).length =
          n + c'.body.length + (bodies parts).length := by
        simp [bodies, Nat.add_assoc]
      rw [List.cons_append, Laid, Laid, ih, hlength, and_assoc]

end Bodies

/-! ## One step -/

section Step

variable {H : Bytes → String} {path : String} {w w' : World}
variable {p q : RequestId} {c c' : Chunk} {phase : Phase} {n : Nat}

namespace World

theorem requests_goTo : (w.goTo p c phase).requests q =
    if q = p then some (c, phase) else w.requests q := by
  simp [goTo, Function.update_apply]

@[simp] theorem file_goTo : (w.goTo p c phase).file = w.file := rfl

@[simp] theorem objects_goTo : (w.goTo p c phase).objects = w.objects := rfl

@[simp] theorem removals_goTo : (w.goTo p c phase).removals = w.removals := rfl

@[simp] theorem writers_goTo : (w.goTo p c phase).writers = w.writers := rfl

@[simp] theorem written_goTo : (w.goTo p c phase).written n = w.written n := rfl

theorem writers_append : (w.append p c).writers n =
    if n = w.removals then w.writers n ++ [(p, c)] else w.writers n := by
  by_cases heq : n = w.removals
  · subst heq
    simp [append]
  · simp [append, heq]

theorem written_append : (w.append p c).written n =
    if n = w.removals then w.written n ++ c.body else w.written n := by
  unfold written
  rw [writers_append]
  split
  · exact bodies_concat
  · rfl

theorem mem_writers_append {part : RequestId × Chunk} :
    part ∈ (w.append p c).writers n ↔ part ∈ w.writers n ∨ n = w.removals ∧ part = (p, c) := by
  rw [writers_append]
  split <;> simp_all

theorem objects_publish_of_some {content bytes : Bytes} {digest : String}
    (h : w.objects digest = some bytes) : (w.publish H content).objects digest = some bytes := by
  simp [publish, h]

/-- `_store_object` leaves an object of the size that was asked for, the file itself unless
another one had its digest. -/
theorem storeObject_eq_ok {digest : String} {size : Nat}
    (h : w.storeObject H path digest size = .ok w') :
    (w' = w ∨ ∃ content, w' = w.publish H content) ∧
      ∃ bytes, w'.objects digest = some bytes ∧ bytes.length = size ∧ H bytes = digest ∧
        (w.objects digest = some bytes ∨ w.file = some bytes) := by
  unfold storeObject at h
  cases hobject : w.objects digest with
  | some existing =>
      simp only [hobject] at h
      split at h
      · cases h
      · next hfits =>
          obtain rfl : w = w' := Except.ok.inj h
          obtain ⟨hsize, hdigest⟩ : existing.length = size ∧ H existing = digest := by
            simpa using hfits
          exact ⟨.inl rfl, existing, hobject, hsize, hdigest, .inl rfl⟩
  | none =>
      simp only [hobject] at h
      cases hfile : w.file with
      | none => simp [hfile] at h
      | some content =>
          simp only [hfile] at h
          split at h
          · cases h
          · next hfits =>
              obtain rfl : w.publish H content = w' := Except.ok.inj h
              obtain ⟨hsize, hdigest⟩ : content.length = size ∧ H content = digest := by
                simpa using hfits
              refine ⟨.inr ⟨content, rfl⟩, content, ?_, hsize, hdigest, .inr rfl⟩
              simp [publish, hobject, hdigest]

end World

namespace Chunk

theorem arrive_cases : c.arrive = .reading ∨ ∃ e, c.arrive = .answered (.error e) := by
  unfold arrive
  split
  · exact .inr ⟨_, rfl⟩
  · exact .inl rfl

theorem compare_cases (c : Chunk) (current : Nat) :
    c.compare current = .appending current ∧ c.offset = current ∨
      ∃ e, c.compare current = .answered (.error e) := by
  unfold compare
  split
  · exact .inr ⟨_, rfl⟩
  · next hoffset =>
      split
      · exact .inr ⟨_, rfl⟩
      · exact .inl ⟨rfl, (not_ne_iff.mp hoffset).symm⟩

end Chunk

/-- The request has no body in the file: it is new, or it has not come to the append. -/
def World.Before (w : World) (p : RequestId) (c : Chunk) : Prop :=
  w.requests p = none ∨ ∃ phase, w.requests p = some (c, phase) ∧ phase.early = true

/-- The file is what a final request has read of it. -/
def World.Reads (H : Bytes → String) (w : World) : Phase → Prop
  | .sizing digest => ∃ b, w.file = some b ∧ H b = digest
  | .storing digest size => ∃ b, w.file = some b ∧ H b = digest ∧ b.length = size
  | .unlinking (.ingested digest _) => ∃ b, w.file = some b ∧ w.objects digest = some b
  | _ => True

/-- No object has the digest of the file and other bytes. -/
def World.Distinct (H : Bytes → String) (w : World) : Prop :=
  ∀ b existing, w.file = some b → w.objects (H b) = some existing → H existing = H b →
    existing = b

/-- What a step can do. -/
inductive Change (H : Bytes → String) (w : World) : Event → World → Prop
  | waits {ev : Event} (p : RequestId) (c : Chunk) (phase : Phase) (hbefore : w.Before p c)
      (hphase : phase.early = true ∨ ∃ e, phase = .answered (.error e))
      (hoffset : ∀ current, phase = .appending current → c.offset = current) :
      Change H w ev (w.goTo p c phase)
  | appends (p : RequestId) (c : Chunk) (current : Nat) (phase : Phase)
      (hrequest : w.requests p = some (c, .appending current))
      (hphase : phase = .hashing ∨ ∃ offset, phase = .answered (.accepted offset)) :
      Change H w (.next p) ((w.append p c).goTo p c phase)
  | works {ev : Event} (stored : World) (p : RequestId) (c : Chunk) (phase phase' : Phase)
      (hstored : stored = w ∨ ∃ content, stored = w.publish H content)
      (hrequest : w.requests p = some (c, phase)) (hphase : phase.finishing = true)
      (hphase' : phase'.finishing = true)
      (hclaims : ∀ digest size, phase' = .unlinking (.ingested digest size) →
        ∃ bytes, stored.objects digest = some bytes ∧ bytes.length = size)
      (hreads : w.Distinct H → w.Reads H phase → stored.Reads H phase') :
      Change H w ev (stored.goTo p c phase')
  | publishes {ev : Event} (content : Bytes) : Change H w ev (w.publish H content)
  | ends (p : RequestId) (c : Chunk) (reply : Reply)
      (hrequest : w.requests p = some (c, .unlinking reply)) :
      Change H w (.next p) (w.remove.goTo p c (.answered reply))
  | sweeps : Change H w .swept w.remove

theorem handle_change (hrequest : w.requests p = some (c, phase))
    (h : w.handle H path p c phase = some w') : Change H w (.next p) w' := by
  have hraise : ∀ message, phase.finishing = true →
      Change H w (.next p) (w.goTo p c (raised message)) := fun message hfinishing ↦
    .works w p c phase _ (.inl rfl) hrequest hfinishing rfl (by simp [raised])
      fun _ _ ↦ trivial
  cases phase with
  | reading =>
      obtain rfl := Option.some.inj h
      exact .waits p c _ (.inr ⟨_, hrequest, rfl⟩) (.inl rfl) (by simp)
  | comparing current =>
      obtain rfl := Option.some.inj h
      refine .waits p c _ (.inr ⟨_, hrequest, rfl⟩) ?_ ?_
      · rcases c.compare_cases current with ⟨heq, _⟩ | ⟨e, heq⟩ <;> simp [heq, Phase.early]
      · rcases c.compare_cases current with ⟨heq, hoffset⟩ | ⟨e, heq⟩ <;> simp_all
  | appending current =>
      obtain rfl := Option.some.inj h
      refine .appends p c current _ hrequest ?_
      split
      · exact .inl rfl
      · exact .inr ⟨_, rfl⟩
  | hashing =>
      cases hfile : w.file with
      | none =>
          simp only [World.handle, hfile, Option.some.injEq] at h
          subst h
          exact hraise _ rfl
      | some content =>
          simp only [World.handle, hfile, Option.some.injEq] at h
          subst h
          exact .works w p c _ _ (.inl rfl) hrequest rfl rfl (by simp)
            fun _ _ ↦ ⟨content, hfile, rfl⟩
  | sizing digest =>
      cases hfile : w.file with
      | none =>
          simp only [World.handle, hfile, Option.some.injEq] at h
          subst h
          exact hraise _ rfl
      | some content =>
          simp only [World.handle, hfile, Option.some.injEq] at h
          subst h
          refine .works w p c _ _ (.inl rfl) hrequest rfl rfl (by simp) ?_
          rintro _ ⟨b, hb, hdigest⟩
          obtain rfl := Option.some.inj (hfile.symm.trans hb)
          exact ⟨content, hfile, hdigest, rfl⟩
  | storing digest size =>
      cases hstore : w.storeObject H path digest size with
      | error message =>
          simp only [World.handle, hstore, Option.some.injEq] at h
          subst h
          exact hraise _ rfl
      | ok stored =>
          simp only [World.handle, hstore, Option.some.injEq] at h
          subst h
          obtain ⟨hstored, bytes, hobject, hsize, hdigest, hfrom⟩ := World.storeObject_eq_ok hstore
          refine .works stored p c _ _ hstored hrequest rfl rfl ?_ ?_
          · rintro _ _ ⟨⟩
            exact ⟨bytes, hobject, hsize⟩
          · rintro hdistinct ⟨b, hb, hfile, _⟩
            have hsame : bytes = b := by
              rcases hfrom with hold | hnew
              · exact hdistinct b bytes hb (by rwa [hfile]) (hdigest.trans hfile.symm)
              · exact Option.some.inj (hnew.symm.trans hb)
            subst hsame
            refine ⟨bytes, ?_, hobject⟩
            rcases hstored with rfl | ⟨content, rfl⟩ <;> exact hb
  | unlinking reply =>
      obtain rfl := Option.some.inj h
      exact .ends p c reply hrequest
  | answered reply => cases h

theorem step_change {ev : Event} (h : w.step H path ev = some w') : Change H w ev w' := by
  cases ev with
  | arrive p c =>
      simp only [World.step] at h
      split at h
      · cases h
      · next hnew =>
          obtain rfl := Option.some.inj h
          have hnone : w.requests p = none := by simpa using hnew
          refine .waits p c _ (.inl hnone) ?_ ?_
          · rcases c.arrive_cases with heq | heq
            · simp [heq, Phase.early]
            · exact .inr heq
          · rcases c.arrive_cases with heq | ⟨e, heq⟩ <;> simp [heq]
  | next p =>
      obtain ⟨⟨c, phase⟩, hrequest, hhandle⟩ := Option.bind_eq_some_iff.mp h
      exact handle_change hrequest hhandle
  | swept =>
      obtain rfl := Option.some.inj h
      exact .sweeps
  | published content =>
      obtain rfl := Option.some.inj h
      exact .publishes content

end Step

/-! ## What holds in every state -/

/-- An answer with this input has been decided on or given. -/
def Phase.claims (phase : Phase) (digest : String) (size : Nat) : Prop :=
  phase = .unlinking (.ingested digest size) ∨ phase = .answered (.ingested digest size)

structure Sound (w : World) : Prop where
  file : w.file.getD [] = w.written w.removals
  later : ∀ {n : Nat}, w.removals < n → w.writers n = []
  wrote : ∀ {n : Nat} {p : RequestId} {c : Chunk}, (p, c) ∈ w.writers n →
    ∃ phase, w.requests p = some (c, phase) ∧ phase.early = false
  current : ∀ {p : RequestId} {c : Chunk}, (p, c) ∈ w.writers w.removals →
    ∃ phase, w.requests p = some (c, phase) ∧ phase.within = true
  once : ∀ n, ((w.writers n).map Prod.fst).Nodup
  sole : ∀ {m n : Nat} {p : RequestId} {c c' : Chunk},
    (p, c) ∈ w.writers m → (p, c') ∈ w.writers n → m = n
  listed : ∀ {p : RequestId} {c : Chunk} {phase : Phase}, w.requests p = some (c, phase) →
    phase.kept = true → ∃ n, (p, c) ∈ w.writers n
  compared : ∀ {p : RequestId} {c : Chunk} {current : Nat},
    w.requests p = some (c, .appending current) → c.offset = current
  claimed : ∀ {p : RequestId} {c : Chunk} {phase : Phase} {digest : String} {size : Nat},
    w.requests p = some (c, phase) → phase.claims digest size →
      ∃ bytes, w.objects digest = some bytes ∧ bytes.length = size

section Sound

variable {H : Bytes → String} {path : String} {w w' : World}
variable {p q : RequestId} {c c' : Chunk} {phase : Phase} {n : Nat}

theorem Phase.kept_of_within (h : phase.within = true) : phase.kept = true := by
  unfold kept
  split
  · rfl
  · exact h

theorem Phase.early_of_within (h : phase.within = true) : phase.early = false := by
  cases phase <;> simp_all [within, early]

theorem Phase.within_of_finishing (h : phase.finishing = true) : phase.within = true := by
  cases phase <;> simp_all [within, finishing]

theorem Phase.finishing_of_early (h : phase.early = true) : phase.finishing = false := by
  cases phase <;> simp_all [early, finishing]

/-- Where a request goes when it has appended its body. -/
theorem Phase.within_of_appended
    (h : phase = .hashing ∨ ∃ offset, phase = .answered (.accepted offset)) :
    phase.within = true := by
  rcases h with rfl | ⟨offset, rfl⟩ <;> rfl

theorem Phase.kept_of_early (h : phase.early = true) : phase.kept = false := by
  cases phase <;> simp_all [within, early, kept]

theorem sound_start (objects : String → Option Bytes) : Sound { objects := objects } where
  file := rfl
  later _ := rfl
  wrote h := by simp at h
  current h := by simp at h
  once _ := List.nodup_nil
  sole h := by simp at h
  listed h := by simp at h
  compared h := by simp at h
  claimed h := by simp at h

namespace Sound

theorem not_mem_of_before (h : Sound w) (hbefore : w.Before p c) : (p, c') ∉ w.writers n := by
  intro hmem
  obtain ⟨phase, hrequest, hlate⟩ := h.wrote hmem
  rcases hbefore with hnone | ⟨phase', hrequest', hearly⟩
  · simp [hnone] at hrequest
  · simp_all

/-- A request whose body is in a file wrote the chunk it has. -/
theorem writer_eq (h : Sound w) (hrequest : w.requests p = some (c, phase))
    (hmem : (p, c') ∈ w.writers n) : c' = c := by
  obtain ⟨_, hrequest', _⟩ := h.wrote hmem
  exact congrArg Prod.fst (Option.some.inj (hrequest'.symm.trans hrequest))

/-- A request goes on, to a phase that agrees with the files it has written to. -/
theorem goTo (h : Sound w) (hwrote : ∀ n c', (p, c') ∈ w.writers n → c' = c ∧ phase.early = false)
    (hcurrent : ∀ c', (p, c') ∈ w.writers w.removals → phase.within = true)
    (hlisted : phase.kept = true → ∃ n, (p, c) ∈ w.writers n)
    (hcompared : ∀ current, phase = .appending current → c.offset = current)
    (hclaimed : ∀ digest size, phase.claims digest size →
      ∃ bytes, w.objects digest = some bytes ∧ bytes.length = size) :
    Sound (w.goTo p c phase) where
  file := h.file
  later := h.later
  wrote := by
    intro n q c' hmem
    rw [World.requests_goTo]
    split
    · next heq =>
        subst heq
        obtain ⟨rfl, hlate⟩ := hwrote n c' hmem
        exact ⟨phase, rfl, hlate⟩
    · exact h.wrote hmem
  current := by
    intro q c' hmem
    rw [World.requests_goTo]
    split
    · next heq =>
        subst heq
        obtain ⟨rfl, _⟩ := hwrote _ c' hmem
        exact ⟨phase, rfl, hcurrent _ hmem⟩
    · exact h.current hmem
  once := h.once
  sole := h.sole
  listed := by
    intro q c' phase' hrequest hkept
    rw [World.requests_goTo] at hrequest
    split at hrequest
    · next heq =>
        subst heq
        obtain ⟨rfl, rfl⟩ : c = c' ∧ phase = phase' := by simpa using hrequest
        exact hlisted hkept
    · exact h.listed hrequest hkept
  compared := by
    intro q c' current hrequest
    rw [World.requests_goTo] at hrequest
    split at hrequest
    · obtain ⟨rfl, heq⟩ : c = c' ∧ phase = .appending current := by simpa using hrequest
      exact hcompared current heq
    · exact h.compared hrequest
  claimed := by
    intro q c' phase' digest size hrequest hclaims
    rw [World.requests_goTo] at hrequest
    split at hrequest
    · obtain ⟨rfl, rfl⟩ : c = c' ∧ phase = phase' := by simpa using hrequest
      exact hclaimed digest size hclaims
    · exact h.claimed hrequest hclaims

theorem append (h : Sound w) {current : Nat}
    (hrequest : w.requests p = some (c, .appending current))
    (hgoes : phase = .hashing ∨ ∃ offset, phase = .answered (.accepted offset)) :
    Sound ((w.append p c).goTo p c phase) := by
  have hphase := Phase.within_of_appended hgoes
  have hbefore : w.Before p c := .inr ⟨_, hrequest, rfl⟩
  have hfresh : ∀ n c', (p, c') ∉ w.writers n := fun _ _ ↦ h.not_mem_of_before hbefore
  refine ⟨?_, ?_, ?_, ?_, ?_, ?_, ?_, ?_, ?_⟩
  · simp [World.append, h.file, World.written]
  · intro n hn
    have hne : n ≠ w.removals := by
      rintro rfl
      exact lt_irrefl _ hn
    rw [World.writers_goTo, World.writers_append, if_neg hne]
    exact h.later hn
  · intro n q c' hmem
    rw [World.requests_goTo]
    split
    · next heq =>
        subst heq
        obtain hold | ⟨_, hnew⟩ := World.mem_writers_append.mp hmem
        · exact absurd hold (hfresh n c')
        · obtain rfl : c' = c := by simpa using hnew
          exact ⟨phase, rfl, Phase.early_of_within hphase⟩
    · next hne =>
        obtain hold | ⟨_, hnew⟩ := World.mem_writers_append.mp hmem
        · exact h.wrote hold
        · exact absurd (congrArg Prod.fst hnew) hne
  · intro q c' hmem
    rw [World.requests_goTo]
    split
    · next heq =>
        subst heq
        obtain hold | ⟨_, hnew⟩ := World.mem_writers_append.mp hmem
        · exact absurd hold (hfresh _ c')
        · obtain rfl : c' = c := by simpa using hnew
          exact ⟨phase, rfl, hphase⟩
    · next hne =>
        obtain hold | ⟨_, hnew⟩ := World.mem_writers_append.mp hmem
        · exact h.current hold
        · exact absurd (congrArg Prod.fst hnew) hne
  · intro n
    rw [World.writers_goTo, World.writers_append]
    split
    · rw [List.map_append, List.nodup_append]
      refine ⟨h.once n, by simp, ?_⟩
      intro q hq q' hq' heq
      obtain ⟨⟨q, c'⟩, hmem, rfl⟩ := List.mem_map.mp hq
      obtain rfl : q' = p := by simpa using hq'
      obtain rfl : q = q' := heq
      exact hfresh n c' hmem
    · exact h.once n
  · intro m n q c' c'' hm hn
    rcases World.mem_writers_append.mp hm with hold | ⟨rfl, hnew⟩
    · rcases World.mem_writers_append.mp hn with hold' | ⟨_, hnew⟩
      · exact h.sole hold hold'
      · obtain rfl : q = p := congrArg Prod.fst hnew
        exact absurd hold (hfresh m c')
    · obtain rfl : q = p := congrArg Prod.fst hnew
      rcases World.mem_writers_append.mp hn with hold' | ⟨rfl, _⟩
      · exact absurd hold' (hfresh n c'')
      · rfl
  · intro q c' phase' hq hkept
    rw [World.requests_goTo] at hq
    split at hq
    · next heq =>
        obtain ⟨rfl, _⟩ : c = c' ∧ phase = phase' := by simpa using hq
        exact ⟨w.removals, World.mem_writers_append.mpr (.inr ⟨rfl, by rw [heq]⟩)⟩
    · obtain ⟨n, hmem⟩ := h.listed hq hkept
      exact ⟨n, World.mem_writers_append.mpr (.inl hmem)⟩
  · intro q c' current hq
    rw [World.requests_goTo] at hq
    split at hq
    · obtain ⟨rfl, rfl⟩ : c = c' ∧ phase = .appending current := by simpa using hq
      cases hphase
    · exact h.compared hq
  · intro q c' phase' digest size hq hclaim
    rw [World.requests_goTo] at hq
    split at hq
    · obtain ⟨rfl, rfl⟩ : c = c' ∧ phase = phase' := by simpa using hq
      rcases hclaim with rfl | rfl
      · rcases hgoes with heq | ⟨_, heq⟩ <;> cases heq
      · cases hphase
    · exact h.claimed hq hclaim

theorem publish (h : Sound w) (content : Bytes) : Sound (w.publish H content) where
  file := h.file
  later := h.later
  wrote := h.wrote
  current := h.current
  once := h.once
  sole := h.sole
  listed := h.listed
  compared := h.compared
  claimed hrequest hclaims := by
    obtain ⟨bytes, hobject, hsize⟩ := h.claimed hrequest hclaims
    exact ⟨bytes, World.objects_publish_of_some hobject, hsize⟩

theorem remove (h : Sound w) : Sound w.remove where
  file := by
    have hnone : w.remove.written w.remove.removals = bodies [] :=
      congrArg bodies (h.later (Nat.lt_succ_self _))
    exact hnone.symm
  later hn := h.later (Nat.lt_of_succ_lt hn)
  wrote := h.wrote
  current hmem := by
    have hnone : w.remove.writers w.remove.removals = [] := h.later (Nat.lt_succ_self _)
    simp [hnone] at hmem
  once := h.once
  sole := h.sole
  listed := h.listed
  compared := h.compared
  claimed := h.claimed

theorem of_stored (h : Sound w) {stored : World}
    (hstored : stored = w ∨ ∃ content, stored = w.publish H content) : Sound stored := by
  rcases hstored with rfl | ⟨content, rfl⟩
  · exact h
  · exact h.publish content

end Sound

theorem Phase.not_claims_of_early (h : phase.early = true) {digest : String} {size : Nat} :
    ¬phase.claims digest size := by
  rintro (rfl | rfl) <;> cases h

/-- Every step keeps the invariant. -/
theorem Change.sound {ev : Event} (h : Change H w ev w') (hw : Sound w) : Sound w' := by
  cases h with
  | waits p c phase hbefore hphase hoffset =>
      have hfresh : ∀ n c', (p, c') ∉ w.writers n := fun _ _ ↦ hw.not_mem_of_before hbefore
      refine hw.goTo (fun n c' hmem ↦ absurd hmem (hfresh n c'))
        (fun c' hmem ↦ absurd hmem (hfresh _ c')) ?_ hoffset ?_
      · intro hkept
        rcases hphase with hearly | ⟨e, rfl⟩
        · simp [Phase.kept_of_early hearly] at hkept
        · cases hkept
      · intro digest size hclaims
        rcases hphase with hearly | ⟨e, rfl⟩
        · exact absurd hclaims (Phase.not_claims_of_early hearly)
        · rcases hclaims with heq | heq <;> simp at heq
  | appends p c current phase hrequest hphase => exact hw.append hrequest hphase
  | works stored p c phase phase' hstored hrequest hphase hphase' hclaims =>
      have hphase := Phase.within_of_finishing hphase
      have hphase' := Phase.within_of_finishing hphase'
      have hwriters : stored.writers = w.writers := by
        rcases hstored with rfl | ⟨content, rfl⟩ <;> rfl
      refine (hw.of_stored hstored).goTo ?_ (fun _ _ ↦ hphase') ?_ ?_ ?_
      · intro n c' hmem
        rw [hwriters] at hmem
        exact ⟨hw.writer_eq hrequest hmem, Phase.early_of_within hphase'⟩
      · intro _
        rw [hwriters]
        exact hw.listed hrequest (Phase.kept_of_within hphase)
      · rintro current rfl
        cases hphase'
      · rintro digest size (rfl | rfl)
        · exact hclaims digest size rfl
        · cases hphase'
  | publishes content => exact hw.publish content
  | ends p c reply hrequest =>
      have hnone : w.remove.writers w.remove.removals = [] := hw.later (Nat.lt_succ_self _)
      refine hw.remove.goTo ?_ ?_ (fun _ ↦ hw.listed hrequest rfl) (by simp) ?_
      · exact fun n c' hmem ↦ ⟨hw.writer_eq hrequest hmem, rfl⟩
      · intro c' hmem
        simp [hnone] at hmem
      · rintro digest size (heq | heq)
        · cases heq
        · obtain rfl : reply = .ingested digest size := by simpa using heq
          exact hw.claimed hrequest (.inl rfl)
  | sweeps => exact hw.remove

/-! ## Undisturbed steps -/

/-- All who wrote to the `n`-th file have been answered, with success. -/
def Settled (w : World) (n : Nat) : Prop :=
  ∀ part ∈ w.writers n, ∃ reply, w.requests part.1 = some (part.2, .answered reply) ∧
    (Phase.answered reply).kept = true

theorem Settled.allKept (h : Settled w n) : AllKept w n := by
  intro part hpart
  obtain ⟨reply, hrequest, hkept⟩ := h part hpart
  exact ⟨_, hrequest, hkept⟩

theorem Settled.goTo (h : Settled w n)
    (hmoving : ∀ c' reply, w.requests p ≠ some (c', .answered reply)) :
    Settled (w.goTo p c phase) n := by
  intro part hpart
  obtain ⟨reply, hrequest, hkept⟩ := h part hpart
  have hne : part.1 ≠ p := by
    rintro heq
    exact hmoving part.2 reply (heq ▸ hrequest)
  exact ⟨reply, by rw [World.requests_goTo, if_neg hne]; exact hrequest, hkept⟩

theorem World.reads_of_measured (h : phase.measured = false) : w.Reads H phase := by
  cases phase with
  | sizing | storing | unlinking => cases h
  | _ => trivial

theorem Phase.measured_of_finishing (h : phase.finishing = false) : phase.measured = false := by
  cases phase <;> simp_all [finishing, measured]

theorem Phase.eq_of_within (h : phase.within = true) (hends : phase.finishing = false) :
    ∃ offset, phase = .answered (.accepted offset) := by
  cases phase with
  | answered reply =>
      cases reply with
      | accepted offset => exact ⟨offset, rfl⟩
      | _ => cases h
  | _ => simp_all [within, finishing]

/-- What a state owes to the steps before it: a final request still has the file to which it
wrote, and finds it as it read it. -/
structure Orderly (H : Bytes → String) (w : World) : Prop where
  laid : Laid 0 (w.writers w.removals)
  holds : ∀ {p : RequestId} {c : Chunk} {phase : Phase}, w.requests p = some (c, phase) →
    phase.finishing = true → (p, c) ∈ w.writers w.removals
  reads : ∀ {p : RequestId} {c : Chunk} {phase : Phase}, w.requests p = some (c, phase) →
    w.Reads H phase
  ingested : ∀ {p : RequestId} {c : Chunk} {digest : String} {size : Nat},
    w.requests p = some (c, .answered (.ingested digest size)) →
      ∃ n, (p, c) ∈ w.writers n ∧ w.objects digest = some (w.written n) ∧ Settled w n

theorem intact_of_orderly (hw : Sound w) (h : Orderly H w) : Intact w where
  once := hw.once _
  kept part hmem := by
    obtain ⟨phase, hrequest, hwithin⟩ := hw.current hmem
    exact ⟨phase, hrequest, Phase.kept_of_within hwithin⟩
  laid := h.laid
  file := hw.file
  ingested hrequest := by
    obtain ⟨n, hmem, hobject, hsettled⟩ := h.ingested hrequest
    obtain ⟨bytes, hbytes, hsize⟩ := hw.claimed hrequest (.inr rfl)
    obtain rfl : bytes = w.written n := Option.some.inj (hbytes.symm.trans hobject)
    exact ⟨n, hmem, hobject, hsize.symm, hsettled.allKept⟩

/-- A request goes on: what the others owe is as it was. -/
theorem Orderly.goTo (h : Orderly H w)
    (hmoving : ∀ c' reply, w.requests p ≠ some (c', .answered reply))
    (hholds : phase.finishing = true → (p, c) ∈ w.writers w.removals) (hreads : w.Reads H phase)
    (hingested : ∀ digest size, phase = .answered (.ingested digest size) →
      ∃ n, (p, c) ∈ w.writers n ∧ w.objects digest = some (w.written n) ∧
        Settled (w.goTo p c phase) n) :
    Orderly H (w.goTo p c phase) where
  laid := h.laid
  holds := by
    intro q c' phase' hrequest hfinishing
    rw [World.requests_goTo] at hrequest
    split at hrequest
    · next heq =>
        subst heq
        obtain ⟨rfl, rfl⟩ : c = c' ∧ phase = phase' := by simpa using hrequest
        exact hholds hfinishing
    · exact h.holds hrequest hfinishing
  reads := by
    intro q c' phase' hrequest
    rw [World.requests_goTo] at hrequest
    split at hrequest
    · obtain ⟨_, rfl⟩ : c = c' ∧ phase = phase' := by simpa using hrequest
      exact hreads
    · exact h.reads hrequest
  ingested := by
    intro q c' digest size hrequest
    rw [World.requests_goTo] at hrequest
    split at hrequest
    · next heq =>
        subst heq
        obtain ⟨rfl, heq⟩ : c = c' ∧ phase = .answered (.ingested digest size) := by
          simpa using hrequest
        exact hingested digest size heq
    · obtain ⟨n, hmem, hobject, hsettled⟩ := h.ingested hrequest
      exact ⟨n, hmem, hobject, hsettled.goTo hmoving⟩

theorem Orderly.append (h : Orderly H w) (hw : Sound w) {current : Nat}
    (hrequest : w.requests p = some (c, .appending current)) (hsize : w.size = current)
    (hunread : ∀ q c phase, w.requests q = some (c, phase) → phase.measured = false)
    (hgoes : phase = .hashing ∨ ∃ offset, phase = .answered (.accepted offset)) :
    Orderly H ((w.append p c).goTo p c phase) := by
  have hlaid : Laid 0 ((w.append p c).writers w.removals) := by
    have hlength : (bodies (w.writers w.removals)).length = current := by
      rw [← hsize, World.size, hw.file]
      rfl
    rw [World.writers_append, if_pos rfl]
    exact laid_concat_iff.mpr ⟨h.laid, by rw [Nat.zero_add, hlength]; exact hw.compared hrequest⟩
  have happended : Orderly H (w.append p c) := by
    refine ⟨hlaid, fun hq hfinishing ↦ ?_, fun hq ↦ World.reads_of_measured (hunread _ _ _ hq),
      fun {q c' digest size} hq ↦ ?_⟩
    · exact World.mem_writers_append.mpr (.inl (h.holds hq hfinishing))
    · obtain ⟨n, hmem, hobject, hsettled⟩ := h.ingested hq
      -- the file that an answered request wrote to is gone
      have hold : n ≠ w.removals := by
        rintro rfl
        obtain ⟨phase', hrequest', hwithin⟩ := hw.current hmem
        have hend : phase' = .answered (.ingested digest size) :=
          congrArg Prod.snd (Option.some.inj (hrequest'.symm.trans hq))
        subst hend
        cases hwithin
      have hwriters : (w.append p c).writers n = w.writers n := by
        rw [World.writers_append, if_neg hold]
      refine ⟨n, by rwa [hwriters], ?_, fun part hpart ↦ hsettled part (hwriters ▸ hpart)⟩
      rw [World.written_append, if_neg hold]
      exact hobject
  refine happended.goTo (fun c' reply heq ↦ ?_) (fun _ ↦ ?_) ?_ ?_
  · have hboth := hrequest.symm.trans heq
    simp at hboth
  · exact World.mem_writers_append.mpr (.inr ⟨rfl, rfl⟩)
  · rcases hgoes with rfl | ⟨_, rfl⟩ <;> trivial
  · rintro digest size rfl
    rcases hgoes with heq | ⟨_, heq⟩ <;> cases heq

theorem World.Reads.publish (h : w.Reads H phase) (content : Bytes) :
    (w.publish H content).Reads H phase := by
  cases phase with
  | unlinking reply =>
      cases reply with
      | ingested digest size =>
          obtain ⟨b, hfile, hobject⟩ := h
          exact ⟨b, hfile, World.objects_publish_of_some hobject⟩
      | _ => trivial
  | _ => exact h

theorem Orderly.publish (h : Orderly H w) (content : Bytes) : Orderly H (w.publish H content) where
  laid := h.laid
  holds := h.holds
  reads hq := (h.reads hq).publish content
  ingested hq := by
    obtain ⟨n, hmem, hobject, hsettled⟩ := h.ingested hq
    exact ⟨n, hmem, World.objects_publish_of_some hobject, hsettled⟩

/-- The file may go when no final request needs it. -/
theorem Orderly.remove (h : Orderly H w) (hlater : w.writers (w.removals + 1) = [])
    (hidle : ∀ q c phase, w.requests q = some (c, phase) → phase.finishing = false) :
    Orderly H w.remove where
  laid := by
    have hnone : w.remove.writers w.remove.removals = [] := hlater
    rw [hnone]
    trivial
  holds hq hfinishing := by
    rw [hidle _ _ _ hq] at hfinishing
    cases hfinishing
  reads hq := World.reads_of_measured (Phase.measured_of_finishing (hidle _ _ _ hq))
  ingested := h.ingested

/-- The end of a final request that nobody else has come between. -/
theorem Orderly.answer (h : Orderly H w) (hw : Sound w) {reply : Reply}
    (hrequest : w.requests p = some (c, .unlinking reply))
    (hothers : ∀ q c phase, q ≠ p → w.requests q = some (c, phase) → phase.finishing = false) :
    Orderly H (w.goTo p c (.answered reply)) := by
  refine h.goTo (fun c' reply' heq ↦ ?_) (by simp [Phase.finishing]) trivial ?_
  · have hboth := hrequest.symm.trans heq
    simp at hboth
  · intro digest size heq
    obtain rfl : reply = .ingested digest size := by simpa using heq
    obtain ⟨b, hfile, hobject⟩ := h.reads hrequest
    have hwritten : b = w.written w.removals := by rw [← hw.file, hfile, Option.getD_some]
    refine ⟨w.removals, h.holds hrequest rfl, hwritten ▸ hobject, ?_⟩
    rintro ⟨q, c'⟩ hmem
    by_cases hqp : q = p
    · subst hqp
      obtain rfl := hw.writer_eq hrequest hmem
      exact ⟨_, by rw [World.requests_goTo, if_pos rfl], rfl⟩
    · obtain ⟨phase', hrequest', hwithin⟩ := hw.current hmem
      obtain ⟨offset, rfl⟩ := Phase.eq_of_within hwithin (hothers q c' phase' hqp hrequest')
      exact ⟨_, by rw [World.requests_goTo, if_neg hqp]; exact hrequest', rfl⟩

/-- An undisturbed step keeps the order. -/
theorem Change.orderly {ev : Event} (h : Change H w ev w') (hw : Sound w)
    (hdistinct : w.Distinct H) (hev : w.Undisturbed ev) (horderly : Orderly H w) :
    Orderly H w' := by
  cases h with
  | waits p c phase hbefore hphase hoffset =>
      have hquiet : phase.finishing = false := by
        rcases hphase with hearly | ⟨e, rfl⟩
        · exact Phase.finishing_of_early hearly
        · rfl
      refine horderly.goTo (fun c' reply heq ↦ ?_) (by simp [hquiet])
        (World.reads_of_measured (Phase.measured_of_finishing hquiet)) ?_
      · rcases hbefore with hnone | ⟨phase', hrequest, hearly⟩
        · simp [hnone] at heq
        · obtain ⟨_, rfl⟩ : c = c' ∧ phase' = .answered reply := by
            simpa using hrequest.symm.trans heq
          cases hearly
      · rintro digest size rfl
        rcases hphase with hearly | ⟨e, heq⟩
        · cases hearly
        · cases heq
  | appends p c current phase hrequest hphase =>
      obtain ⟨hsize, hunread⟩ : w.size = current ∧
          ∀ q c phase, w.requests q = some (c, phase) → phase.measured = false := by
        simpa only [World.Undisturbed, hrequest] using hev
      exact horderly.append hw hrequest hsize hunread hphase
  | works stored p c phase phase' hstored hrequest hphase hphase' hclaims hreads =>
      have hkept : Orderly H stored := by
        rcases hstored with rfl | ⟨content, rfl⟩
        · exact horderly
        · exact horderly.publish content
      have hsame : stored.requests = w.requests := by
        rcases hstored with rfl | ⟨content, rfl⟩ <;> rfl
      have hrequest : stored.requests p = some (c, phase) := hsame ▸ hrequest
      refine hkept.goTo (fun c' reply heq ↦ ?_) (fun _ ↦ hkept.holds hrequest hphase)
        (hreads hdistinct (horderly.reads (hsame ▸ hrequest))) ?_
      · obtain ⟨_, rfl⟩ : c = c' ∧ phase = .answered reply := by
          simpa using hrequest.symm.trans heq
        cases hphase
      · rintro digest size rfl
        cases hphase'
  | publishes content => exact horderly.publish content
  | ends p c reply hrequest =>
      have hothers : ∀ q c phase, q ≠ p → w.requests q = some (c, phase) →
          phase.finishing = false := by
        simpa only [World.Undisturbed, hrequest] using hev
      have hanswered := horderly.answer hw hrequest hothers
      refine hanswered.remove (hw.later (Nat.lt_succ_self _)) fun q c' phase hq ↦ ?_
      rw [World.requests_goTo] at hq
      split at hq
      · obtain ⟨_, rfl⟩ : c = c' ∧ Phase.answered reply = phase := by simpa using hq
        rfl
      · next hne => exact hothers q c' phase hne hq
  | sweeps => exact horderly.remove (hw.later (Nat.lt_succ_self _)) hev

/-- Uploads stay intact through every history in which nobody comes between the steps of a request
and no two byte strings have one digest. -/
theorem uploads_intact {H : Bytes → String} {path : String} {objects : String → Option Bytes}
    {history : List Event} (hfree : Set.InjOn H (occurring H path objects history))
    (hundisturbed : ∀ w ev w', Takes (World.step H path) { objects := objects } history w ev w' →
      w.Undisturbed ev) {w : World}
    (hw : Visits (World.step H path) { objects := objects } history w) : Intact w := by
  have hguard : ∀ u ev u', Takes (World.step H path) { objects := objects } history u ev u' →
      u.Distinct H ∧ u.Undisturbed ev := by
    refine fun u ev u' htakes ↦ ⟨fun b existing hfile hobject hdigest ↦ ?_,
      hundisturbed u ev u' htakes⟩
    exact hfree ⟨u, htakes.visits_left, .inl ⟨_, hobject⟩⟩ ⟨u, htakes.visits_left, .inr hfile⟩
      hdigest
  have hboth : Sound w ∧ Orderly H w := by
    refine (hw.reachableBy hguard).invariant (P := fun w ↦ Sound w ∧ Orderly H w)
      ⟨sound_start objects, trivial, by simp, by simp, by simp⟩ ?_
    rintro u ev u' ⟨hu, horderly⟩ ⟨hdistinct, hev⟩ hstep
    have hchange := step_change hstep
    exact ⟨hchange.sound hu, hchange.orderly hu hdistinct hev horderly⟩
  exact intact_of_orderly hboth.1 hboth.2

end Sound

/-! ## Samples -/

namespace Sample

open ChipEvolve.Sample (hash hash_injective)

/-- A chunk comes twice, one too early, and the last one ends the upload. -/
def orderly : List Event :=
  [.arrive 0 { body := [97] }, .arrive 1 { body := [99], offset := 2, final := true }] ++
    List.replicate 2 (.next 1) ++ List.replicate 3 (.next 0) ++
    [.arrive 2 { body := [97] }, .arrive 3 { body := [98], offset := 1 }] ++
    List.replicate 3 (.next 3) ++ List.replicate 2 (.next 2) ++
    [.arrive 4 { body := [99], offset := 2, final := true }] ++ List.replicate 6 (.next 4) ++
    [.published [100], .next 4, .swept]

def H : Bytes → String := hash []

/-- All of the first five requests pass the test. -/
def among (w : World) (test : RequestId → Phase → Bool) : Bool :=
  (List.range 5).all fun q ↦ (w.requests q).all fun request ↦ test q request.2

/-- `Undisturbed` when the requests of the history are the first five. -/
def undisturbed (w : World) : Event → Bool
  | .next p =>
      match w.requests p with
      | some (_, .appending current) =>
          w.size = current && among w fun _ phase ↦ !phase.measured
      | some (_, .unlinking _) => among w fun q phase ↦ q = p || !phase.finishing
      | _ => true
  | .swept => among w fun _ phase ↦ !phase.finishing
  | _ => true

end Sample

/-- A step of one request leaves the others where they are. -/
theorem requests_handle {H : Bytes → String} {path : String} {w w' : World} {p q : RequestId}
    {c : Chunk} {phase : Phase} (h : w.handle H path p c phase = some w') (hne : q ≠ p) :
    w'.requests q = w.requests q := by
  have hgoTo : ∀ (u : World) phase', u.requests = w.requests →
      (u.goTo p c phase').requests q = w.requests q := fun u phase' hsame ↦ by
    rw [World.requests_goTo, if_neg hne, hsame]
  cases phase with
  | hashing | sizing digest =>
      simp only [World.handle] at h
      split at h <;> obtain rfl := Option.some.inj h <;> exact hgoTo _ _ rfl
  | storing digest size =>
      simp only [World.handle] at h
      split at h
      · obtain rfl := Option.some.inj h
        exact hgoTo _ _ rfl
      · next stored hstore =>
          obtain rfl := Option.some.inj h
          refine hgoTo _ _ ?_
          rcases (World.storeObject_eq_ok hstore).1 with rfl | ⟨content, rfl⟩ <;> rfl
  | reading | comparing | appending | unlinking =>
      obtain rfl := Option.some.inj h
      exact hgoTo _ _ rfl
  | answered => cases h

/-- Only requests that have arrived have a phase. -/
theorem requests_eq_none {H : Bytes → String} {path : String} {objects : String → Option Bytes}
    {history : List Event} {w : World} {q : RequestId} (hq : ∀ c, .arrive q c ∉ history)
    (hw : Visits (World.step H path) { objects := objects } history w) : w.requests q = none := by
  refine (hw.reachableBy fun _ ev _ h ↦ h.mem).invariant (P := fun w ↦ w.requests q = none)
    rfl fun w ev w' hnone hev hstep ↦ ?_
  cases ev with
  | arrive p c =>
      have hne : q ≠ p := by
        rintro rfl
        exact hq c hev
      simp only [World.step] at hstep
      split at hstep
      · cases hstep
      · obtain rfl := Option.some.inj hstep
        rw [World.requests_goTo, if_neg hne, hnone]
  | next p =>
      obtain ⟨⟨c, phase⟩, hrequest, hhandle⟩ := Option.bind_eq_some_iff.mp hstep
      have hne : q ≠ p := by
        rintro rfl
        simp [hnone] at hrequest
      rw [requests_handle hhandle hne, hnone]
  | swept | published =>
      obtain rfl := Option.some.inj hstep
      exact hnone

theorem Sample.undisturbed_sound {H : Bytes → String} {path : String}
    {objects : String → Option Bytes} {history : List Event} {w : World} {ev : Event}
    (hfive : ∀ q c, .arrive q c ∈ history → q < 5)
    (hw : Visits (World.step H path) { objects := objects } history w)
    (h : Sample.undisturbed w ev = true) : w.Undisturbed ev := by
  have hamong : ∀ {test : RequestId → Phase → Bool}, Sample.among w test = true →
      ∀ q c phase, w.requests q = some (c, phase) → test q phase = true := by
    intro test hall q c phase hq
    have hlt : q < 5 := by
      by_contra hge
      rw [requests_eq_none (fun c hc ↦ hge (hfive q c hc)) hw] at hq
      cases hq
    have hone := List.all_eq_true.mp hall q (List.mem_range.mpr hlt)
    rwa [hq, Option.all_some] at hone
  cases ev with
  | next p =>
      unfold World.Undisturbed
      dsimp only
      split
      · next c current hrequest =>
          simp only [undisturbed, hrequest, Bool.and_eq_true, decide_eq_true_eq] at h
          exact ⟨h.1, fun q c phase hq ↦ by simpa using hamong h.2 q c phase hq⟩
      · next c reply hrequest =>
          simp only [undisturbed, hrequest] at h
          intro q c phase hne hq
          simpa [hne] using hamong h q c phase hq
      · trivial
  | swept =>
      have hidle : Sample.among w (fun _ phase ↦ !phase.finishing) = true := h
      exact fun q c phase hq ↦ by simpa using hamong hidle q c phase hq
  | _ => trivial

/-- The answer to a request. -/
def World.reply? (w : World) (p : RequestId) : Option Reply :=
  match w.requests p with
  | some (_, .answered reply) => some reply
  | _ => none

def Sample.stored (w : World) : Bool :=
  match w.reply? 4 with
  | some (.ingested digest size) => size = 3 && w.objects digest = some [97, 98, 99]
  | _ => false

theorem Sample.exists_of_stored {w : World} (h : stored w = true) : ∃ digest,
    w.reply? 4 = some (.ingested digest 3) ∧ w.objects digest = some [97, 98, 99] := by
  unfold stored at h
  split at h
  · next digest size hreply =>
      obtain ⟨hsize, hobject⟩ := Bool.and_eq_true_iff.mp h
      obtain rfl := of_decide_eq_true hsize
      exact ⟨digest, hreply, of_decide_eq_true hobject⟩
  · cases h

def Sample.early : Event → Bool
  | .arrive q _ => q < 5
  | _ => true

/-- The three chunks in a row are the input that the last request is answered with. -/
theorem uploads_intact_orderly :
    ∃ w digest, Visits (World.step Sample.H "upload") { objects := fun _ ↦ none } Sample.orderly w ∧
      w.reply? 4 = some (.ingested digest 3) ∧ w.objects digest = some [97, 98, 99] ∧
        Intact w := by
  have hall : allSteps (World.step Sample.H "upload") Sample.undisturbed
      { objects := fun _ ↦ none } Sample.orderly = true := by decide +kernel
  obtain ⟨w, hw, hends⟩ := Visits.of_any
    (show (run (World.step Sample.H "upload") { objects := fun _ ↦ none } Sample.orderly).any
      Sample.stored = true by decide +kernel)
  have hfive : ∀ q c, Event.arrive q c ∈ Sample.orderly → q < 5 := by
    have hearly : Sample.orderly.all Sample.early = true := by decide
    exact fun q c hmem ↦ of_decide_eq_true (List.all_eq_true.mp hearly _ hmem)
  obtain ⟨digest, hreply, hobject⟩ := Sample.exists_of_stored hends
  exact ⟨w, digest, hw, hreply, hobject, uploads_intact (ChipEvolve.Sample.hash_injective []).injOn
    (fun _ _ _ h ↦ Sample.undisturbed_sound hfive h.visits_left (h.of_allSteps hall)) hw⟩

/-- A client that saw no answer sends its first chunk again, and both requests read the
size before either appends. -/
def Sample.resent : List Event :=
  [.arrive 0 { body := [97] }, .arrive 1 { body := [97] }, .next 0, .next 1, .next 0, .next 1,
    .next 0, .next 1]

theorem resent_chunk_twice :
    ¬∀ (H : Bytes → String) (path : String) (objects : String → Option Bytes)
      (history : List Event) (w : World), Function.Injective H →
      Visits (World.step H path) { objects := objects } history w → Intact w := by
  intro h
  obtain ⟨w, hw, htwice⟩ := Visits.of_any (p := fun w ↦ !decide (Laid 0 (w.writers w.removals)))
    (show (run (World.step (ChipEvolve.Sample.hash []) "") { objects := fun _ ↦ none }
      Sample.resent).any _ = true by decide +kernel)
  have hlaid := (h _ _ _ _ w (ChipEvolve.Sample.hash_injective []) hw).laid
  simp [hlaid] at htwice

end ChipEvolve.Gateway.Upload
