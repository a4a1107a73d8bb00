import ChipEvolve.Gateway.Tree
import ChipEvolve.Provenance.Registered

/-!
# Downloading an artifact

`KernelClient.download_artifact_to` (`client.py`) asks for one piece of an artifact after the
other until an answer says that nothing follows.  The server cuts a piece from the file as it
is, but tells from the recorded size whether more follows, so a file that is too short keeps
the client asking.
-/

namespace ChipEvolve.Gateway

open Identity Provenance Paging

/-! ## The client -/

/-- What a call of the client may raise: a refused argument, an answer without the key, or a
`KernelError` with the status of the answer. -/
inductive ClientError where
  | value (message : String)
  | key (name : String)
  | kernel (message : String) (status : Option Nat)

/-- `KernelError(_error_message(exc), status=exc.code)` -/
def ClientError.ofHttp (e : HttpError) : ClientError :=
  .kernel (if e.message = "" then "kernel returned HTTP " ++ toString e.status else e.message)
    (some e.status)

/-- The file at the destination with the answer of `download_artifact_to`. -/
structure Downloaded where
  content : Bytes
  sizeBytes : Nat
  sha256 : String

namespace KernelClient

variable (H : Bytes → String)

/-- The query of `artifact_chunk`. -/
def chunkQuery (offset maxBytes : Nat) : Query
  | "offset" => [toString offset]
  | "max_bytes" => [toString maxBytes]
  | _ => []

/-- `artifact_chunk`, of a server that answers a query with `answer`. -/
def artifactChunk (answer : Query → Except HttpError Body) (offset maxBytes : Nat) :
    Except ClientError Excerpt :=
  if 0 < maxBytes ∧ maxBytes ≤ maxExcerptBytes then
    match answer (chunkQuery offset maxBytes) with
    | .error e => .error (.ofHttp e)
    | .ok (.excerpt excerpt) => .ok excerpt
    | .ok _ => .error (.key "data_base64")
  else
    .error (.value ("max_bytes must be between 1 and " ++ toString maxExcerptBytes))

/-- What `download_artifact_to` does behind the loop. -/
def finish (sha256 : String) (offset : Nat) (written : Bytes) : Except ClientError Downloaded :=
  if sha256 ≠ H written then
    .error (.kernel "downloaded artifact failed SHA-256 verification" none)
  else .ok { content := written, sizeBytes := offset, sha256 := H written }

/-- The loop of `download_artifact_to` from request `n` on, which may end within `fuel` requests;
`written` is in the file and in the hasher. -/
def downloadFrom (chunkOfRequest : Nat → Nat → Except ClientError Excerpt) :
    Nat → Nat → Nat → Bytes → Option (Except ClientError Downloaded)
  | 0, _, _, _ => none
  | fuel + 1, n, offset, written =>
      match chunkOfRequest n offset with
      | .error e => some (.error e)
      | .ok excerpt =>
          let written := written ++ excerpt.chunk
          let offset := offset + excerpt.chunk.length
          if excerpt.truncated then downloadFrom chunkOfRequest fuel (n + 1) offset written
          else some (finish H excerpt.sha256 offset written)

/-- `download_artifact_to`, where `answers n` is what the server answers at request `n`. -/
def downloadArtifactTo (answers : Nat → Query → Except HttpError Body) (chunkSize fuel : Nat) :
    Option (Except ClientError Downloaded) :=
  downloadFrom H (fun n offset ↦ artifactChunk (answers n) offset chunkSize) fuel 0 0 []

end KernelClient

/-! ## The server -/

namespace KernelApi

variable (api : KernelApi) (session : Option AuthSession)

/-- The file that `artifact_chunk` reads, if the caller may read the run and there is one. -/
def servedFile (b : Backend) (runId : RunId) (artifactId : String) : Option Bytes :=
  match api.requireOwnership b.accounts session "run" runId, b.records.artifactBytes artifactId with
  | .ok _, .ok (some bytes) => some bytes
  | _, _ => none

/-- What is answered at each request, when it finds the server as `b` says. -/
def chunkAnswers (H : Bytes → String) (env : Surroundings) (b : Nat → Backend) (runId : RunId)
    (artifactId : String) (n : Nat) (query : Query) : Except HttpError Body :=
  api.handle H env session (b n).records.totals (b n) query (.chunk runId artifactId)

end KernelApi

/-- At each request the run has one artifact of the id, with the row that was registered. -/
structure Serves (H : Bytes → String) (b : Nat → Backend) (runId : RunId) (row : ArtifactRow) :
    Prop where
  registered : ∃ x : Records, x.Registered H ∧ row ∈ x.depot.artifacts
  found : ∀ n, ∃ d, (b n).records.runDetail runId = .ok d ∧ d.artifactsNamed row.artifactId = [row]

/-! ## Piece after piece -/

namespace KernelClient

/-- The answers to a client that reads a file as it is at each request: a piece of at most `k`
bytes, and whether it ends before the recorded size. -/
structure Pieces (k : Nat) (row : ArtifactRow) (file : Nat → Option Bytes)
    (chunkOfRequest : Nat → Nat → Except ClientError Excerpt) : Prop where
  refused : ∀ n offset, file n = none → ∃ e, chunkOfRequest n offset = .error e
  piece : ∀ n offset bytes, file n = some bytes → ∃ excerpt,
    chunkOfRequest n offset = .ok excerpt ∧ excerpt.sha256 = row.sha256 ∧
      excerpt.chunk.length = min k (bytes.length - offset) ∧
      (excerpt.truncated = true ↔ offset + excerpt.chunk.length < row.sizeBytes)

section Loop

variable {H : Bytes → String} {k : Nat} {row : ArtifactRow} {file : Nat → Option Bytes}
  {chunkOfRequest : Nat → Nat → Except ClientError Excerpt} {fuel n offset : Nat} {written : Bytes}

/-- The length of the file at each request. -/
def lengthAt (file : Nat → Option Bytes) (n : Nat) : Nat := ((file n).getD []).length

/-- One request: it is refused, or a piece is written and either more is asked for or not. -/
theorem downloadFrom_succ (h : Pieces k row file chunkOfRequest) (n : Nat) (written : Bytes) :
    (file n = none ∧ ∃ e, ∀ fuel, downloadFrom H chunkOfRequest (fuel + 1) n
        (reached k (lengthAt file) n) written = some (.error e)) ∨
      file n ≠ none ∧ ∃ chunk : Bytes,
        reached k (lengthAt file) n + chunk.length = reached k (lengthAt file) (n + 1) ∧
        ((reached k (lengthAt file) (n + 1) < row.sizeBytes ∧ ∀ fuel,
            downloadFrom H chunkOfRequest (fuel + 1) n (reached k (lengthAt file) n) written =
              downloadFrom H chunkOfRequest fuel (n + 1) (reached k (lengthAt file) (n + 1))
                (written ++ chunk)) ∨
          row.sizeBytes ≤ reached k (lengthAt file) (n + 1) ∧ ∀ fuel,
            downloadFrom H chunkOfRequest (fuel + 1) n (reached k (lengthAt file) n) written =
              some (finish H row.sha256 (reached k (lengthAt file) (n + 1))
                (written ++ chunk))) := by
  cases hfile : file n with
  | none =>
      obtain ⟨e, hask⟩ := h.refused n (reached k (lengthAt file) n) hfile
      exact .inl ⟨rfl, e, fun fuel ↦ by simp only [downloadFrom, hask]⟩
  | some bytes =>
      obtain ⟨excerpt, hask, hdigest, hlength, htruncated⟩ :=
        h.piece n (reached k (lengthAt file) n) bytes hfile
      have hnext : reached k (lengthAt file) n + excerpt.chunk.length =
          reached k (lengthAt file) (n + 1) := by
        rw [hlength, reached_succ, lengthAt, hfile]
        rfl
      rw [hnext] at htruncated
      refine .inr ⟨Option.some_ne_none bytes, excerpt.chunk, hnext, ?_⟩
      by_cases hmore : excerpt.truncated = true
      · refine .inl ⟨htruncated.mp hmore, fun fuel ↦ ?_⟩
        simp only [downloadFrom, hask, hnext, if_pos hmore]
      · refine .inr ⟨not_lt.mp (hmore ∘ htruncated.mpr), fun fuel ↦ ?_⟩
        simp only [downloadFrom, hask, hnext, if_neg hmore, hdigest]

/-- The loop ends at a request that is refused, or when the recorded size is reached. -/
theorem downloadFrom_ends_iff (h : Pieces k row file chunkOfRequest) (n : Nat) (written : Bytes) :
    (∃ fuel result, downloadFrom H chunkOfRequest fuel n (reached k (lengthAt file) n) written =
        some result) ↔
      ∃ m, n ≤ m ∧ (file m = none ∨ row.sizeBytes ≤ reached k (lengthAt file) (m + 1)) := by
  constructor
  · rintro ⟨fuel, result, hresult⟩
    induction fuel generalizing n written with
    | zero => cases hresult
    | succ fuel ih =>
        rcases downloadFrom_succ (H := H) h n written with
          ⟨hnone, _⟩ | ⟨_, chunk, _, ⟨_, hmore⟩ | ⟨hreached, _⟩⟩
        · exact ⟨n, le_refl n, .inl hnone⟩
        · obtain ⟨m, hm, hends⟩ := ih (n + 1) (written ++ chunk) (hmore fuel ▸ hresult)
          exact ⟨m, (Nat.le_succ n).trans hm, hends⟩
        · exact ⟨n, le_refl n, .inr hreached⟩
  · rintro ⟨m, hm, hends⟩
    induction hm using Nat.decreasingInduction generalizing written with
    | self =>
        rcases downloadFrom_succ (H := H) h m written with
          ⟨_, e, herror⟩ | ⟨hfile, chunk, _, ⟨hlt, _⟩ | ⟨_, hlast⟩⟩
        · exact ⟨1, _, herror 0⟩
        · exact absurd (hends.resolve_left hfile) (not_le.mpr hlt)
        · exact ⟨1, _, hlast 0⟩
    | of_succ n _ ih =>
        rcases downloadFrom_succ (H := H) h n written with
          ⟨_, e, herror⟩ | ⟨_, chunk, _, ⟨_, hmore⟩ | ⟨_, hlast⟩⟩
        · exact ⟨1, _, herror 0⟩
        · obtain ⟨fuel, result, hresult⟩ := ih (written ++ chunk)
          exact ⟨fuel + 1, result, (hmore fuel).trans hresult⟩
        · exact ⟨1, _, hlast 0⟩

/-- What is returned has the digest of the row, and all of it is counted. -/
theorem downloadFrom_eq_ok (h : Pieces k row file chunkOfRequest) {d : Downloaded}
    (hwritten : written.length = reached k (lengthAt file) n)
    (hd : downloadFrom H chunkOfRequest fuel n (reached k (lengthAt file) n) written =
      some (.ok d)) :
    H d.content = row.sha256 ∧ d.content.length = d.sizeBytes := by
  induction fuel generalizing n written with
  | zero => cases hd
  | succ fuel ih =>
      rcases downloadFrom_succ (H := H) h n written with
        ⟨_, e, herror⟩ | ⟨_, chunk, hchunk, ⟨_, hmore⟩ | ⟨_, hlast⟩⟩
      · rw [herror] at hd
        cases hd
      · refine ih ?_ (hmore fuel ▸ hd)
        rw [List.length_append, hwritten, hchunk]
      · rw [hlast, finish] at hd
        split at hd
        · cases hd
        · next hdigest =>
            obtain rfl := Except.ok.inj (Option.some.inj hd)
            refine ⟨(not_not.mp hdigest).symm, ?_⟩
            rw [List.length_append, hwritten, hchunk]

end Loop

end KernelClient

/-! ## The pieces that the server cuts -/

namespace KernelApi

variable {api : KernelApi} {session : Option AuthSession} {H : Bytes → String}
  {env : Surroundings} {b : Nat → Backend} {runId : RunId} {row : ArtifactRow} {chunkSize : Nat}

/-- The numbers of a query are read as they were written. -/
theorem readExcerpt_chunkQuery (hint : ∀ n : Nat, env.int (toString n) = some (n : Int))
    (hchunk : 1 ≤ chunkSize) (x : Backend) (artifactId : String) (offset : Nat) :
    readExcerpt H env x (KernelClient.chunkQuery offset chunkSize) runId artifactId 65536 false =
      ((x.records.readArtifactExcerpt H env.noFile runId artifactId offset chunkSize false).map
        Body.excerpt).mapError (refused (some 404) (some 400)) := by
  have hoffset : (KernelClient.chunkQuery offset chunkSize).qInt env.int "offset" =
      .ok (some (offset : Int)) := by
    simp only [Query.qInt, Query.q, KernelClient.chunkQuery, List.head?_cons, hint]
  have hsize : (KernelClient.chunkQuery offset chunkSize).qInt env.int "max_bytes" =
      .ok (some (chunkSize : Int)) := by
    simp only [Query.qInt, Query.q, KernelClient.chunkQuery, List.head?_cons, hint]
  have hgiven : orDefault (some (chunkSize : Int)) 65536 = chunkSize :=
    if_neg (by simp only [Option.getD_some]; omega)
  have hstart : orDefault (some (offset : Int)) 0 = offset := by
    unfold orDefault
    split
    · next hzero => exact hzero.symm
    · rfl
  unfold readExcerpt
  rw [hoffset, hsize]
  simp only [bind, Except.bind, hgiven, hstart]

theorem readArtifactExcerpt_eq {x : Records} {d : RunDetail} (hd : x.runDetail runId = .ok d)
    (hrow : d.artifactsNamed row.artifactId = [row]) (noFile : String → String) (offset : Nat)
    (hchunk : 1 ≤ chunkSize) (hmax : chunkSize ≤ maxExcerptBytes) :
    x.readArtifactExcerpt H noFile runId row.artifactId offset chunkSize false =
      x.excerptOf H noFile row offset chunkSize false := by
  have hbounds : ¬((offset : Int) < 0 ∨ ¬(0 < (chunkSize : Int) ∧
      (chunkSize : Int) ≤ maxExcerptBytes)) := by omega
  unfold Records.readArtifactExcerpt raiseIf
  rw [if_neg hbounds, hd]
  simp only [bind, Except.bind, hrow]

theorem pieces_of_serves (hint : ∀ n : Nat, env.int (toString n) = some (n : Int))
    (hserves : Serves H b runId row) (hchunk : 1 ≤ chunkSize) (hmax : chunkSize ≤ maxExcerptBytes) :
    KernelClient.Pieces chunkSize row (fun n ↦ api.servedFile session (b n) runId row.artifactId)
      (fun n offset ↦ KernelClient.artifactChunk
        (api.chunkAnswers session H env b runId row.artifactId n) offset chunkSize) := by
  have hasked : ∀ n offset, api.chunkAnswers session H env b runId row.artifactId n
      (KernelClient.chunkQuery offset chunkSize) =
        api.ofRun session (b n) runId ((((b n).records.excerptOf H env.noFile row offset chunkSize
          false).map Body.excerpt).mapError (refused (some 404) (some 400))) := by
    intro n offset
    obtain ⟨d, hd, hrow⟩ := hserves.found n
    unfold chunkAnswers handle
    dsimp only
    rw [readExcerpt_chunkQuery hint hchunk, readArtifactExcerpt_eq hd hrow _ _ hchunk hmax]
  have hsize : 0 < chunkSize ∧ chunkSize ≤ maxExcerptBytes := ⟨hchunk, hmax⟩
  refine ⟨fun n offset hnone ↦ ?_, fun n offset bytes hsome ↦ ?_⟩
  · unfold KernelClient.artifactChunk
    rw [if_pos hsize, hasked]
    unfold servedFile at hnone
    unfold ofRun Records.excerptOf Records.readArtifact
    cases howner : api.requireOwnership (b n).accounts session "run" runId with
    | error e => exact ⟨_, rfl⟩
    | ok u =>
        cases hfile : (b n).records.artifactBytes row.artifactId with
        | error e => exact ⟨_, rfl⟩
        | ok found =>
            cases found with
            | none => exact ⟨_, rfl⟩
            | some bytes =>
                rw [howner, hfile] at hnone
                cases hnone
  · unfold KernelClient.artifactChunk
    rw [if_pos hsize, hasked]
    unfold servedFile at hsome
    unfold ofRun Records.excerptOf Records.readArtifact
    cases howner : api.requireOwnership (b n).accounts session "run" runId with
    | error e => simp [howner] at hsome
    | ok u =>
        cases hfile : (b n).records.artifactBytes row.artifactId with
        | error e => simp [howner, hfile] at hsome
        | ok found =>
            cases found with
            | none => simp [howner, hfile] at hsome
            | some content =>
                rw [howner, hfile] at hsome
                obtain rfl := Option.some.inj hsome
                refine ⟨_, rfl, rfl, ?_, ?_⟩
                · simp [chunkOf]
                · simp only [decide_eq_true_eq]
                  omega

/-- A download comes to an end, with what was recorded, exactly when a request is refused or the
file is long enough while it is read. -/
theorem download_faithful_iff (hH : Function.Injective H)
    (hint : ∀ n : Nat, env.int (toString n) = some (n : Int)) (hserves : Serves H b runId row)
    (hchunk : 1 ≤ chunkSize) (hmax : chunkSize ≤ maxExcerptBytes) :
    ((∃ fuel result, KernelClient.downloadArtifactTo H
        (api.chunkAnswers session H env b runId row.artifactId) chunkSize fuel = some result) ∧
      ∀ fuel d, KernelClient.downloadArtifactTo H
          (api.chunkAnswers session H env b runId row.artifactId) chunkSize fuel = some (.ok d) →
        H d.content = row.sha256 ∧ d.content.length = d.sizeBytes ∧
          d.content.length = row.sizeBytes) ↔
      (∃ n, api.servedFile session (b n) runId row.artifactId = none) ∨
        ∃ t, Marks chunkSize (KernelClient.lengthAt fun n ↦
            api.servedFile session (b n) runId row.artifactId) t ∧
          ∃ n, row.sizeBytes ≤ t n := by
  have hpieces : KernelClient.Pieces chunkSize row
      (fun n ↦ api.servedFile session (b n) runId row.artifactId)
      (fun n offset ↦ KernelClient.artifactChunk
        (api.chunkAnswers session H env b runId row.artifactId n) offset chunkSize) :=
    pieces_of_serves hint hserves hchunk hmax
  have hends := KernelClient.downloadFrom_ends_iff (H := H) hpieces 0 []
  have hfaithful : ∀ fuel d, KernelClient.downloadArtifactTo H
      (api.chunkAnswers session H env b runId row.artifactId) chunkSize fuel = some (.ok d) →
        H d.content = row.sha256 ∧ d.content.length = d.sizeBytes ∧
          d.content.length = row.sizeBytes := by
    intro fuel d hd
    obtain ⟨hdigest, hcount⟩ := KernelClient.downloadFrom_eq_ok (n := 0) hpieces rfl hd
    obtain ⟨x, hregistered, hrow⟩ := hserves.registered
    obtain ⟨content, hcontent, hsize⟩ := hregistered.catalogued.shelf.measured row hrow
    obtain rfl := hH (hdigest.trans hcontent)
    exact ⟨hdigest, hcount, hsize.symm⟩
  rw [and_iff_left hfaithful, ← exists_le_reached_iff, ← exists_or]
  refine hends.trans (exists_congr fun m ↦ ?_)
  rw [and_iff_right (Nat.zero_le m)]

end KernelApi

/-! ## A file that has been emptied -/

namespace Sample

/-- The digits of a query. -/
def readInt (text : String) : Option Int :=
  if text.toList.all Char.isDigit then some (Nat.ofDigitChars 10 text.toList 0 : Nat) else none

theorem readInt_toString (n : Nat) : readInt (toString n) = some (n : Int) := by
  have hall : (Nat.toDigits 10 n).all Char.isDigit = true :=
    List.all_eq_true.mpr fun _ hc ↦ JsonText.isDigit_of_mem hc
  unfold readInt
  rw [JsonText.toList_toString, if_pos hall, Nat.ofDigitChars_ten_toDigits]

def reading : Surroundings := { surroundings with int := readInt }

def hashOf : Bytes → String := ChipEvolve.Sample.hash [[1, 2]]

def writingAttempt : AttemptRow where
  attemptId := "a1"
  stageRunId := "s1"
  attemptNumber := 1
  status := .succeeded
  workspace := "/work/1"
  workerId := "worker"
  leaseExpiresAt := none
  heartbeatAt := none
  startedAt := 0

/-- An attempt of the run has written two bytes. -/
def written : Records where
  system := { tables := { runs := [ownRun], stages := [ownStage], attempts := [writingAttempt] } }
  depot := { workspaceFile := fun _ _ ↦ some (some [1, 2]) }

def netlist : Custody.Declared where
  artifactId := "x1"
  kind := "netlist"
  storeKey := "out.v"

def registered : Records := written.registerArtifacts hashOf "a1" [netlist]

def netlistRow : ArtifactRow where
  artifactId := "x1"
  attemptId := "a1"
  kind := "netlist"
  storeKey := "out.v"
  sizeBytes := 2
  sha256 := hashOf [1, 2]
  metadata := []
  storage := .object

theorem artifacts_registered : registered.depot.artifacts = [netlistRow] := rfl

theorem registered_netlist : registered.Registered hashOf :=
  .artifacts (.start ⟨by unfold Table.Unique; decide, by unfold Table.Unique; decide,
    by decide +kernel⟩ rfl rfl) _ _

/-- The server, when the file of the artifact has the content given. -/
def serving (content : Bytes) (_ : Nat) : Backend where
  accounts := accountsBeside []
  records := { registered with depot :=
    { registered.depot with objects := fun _ ↦ some content } }

theorem serves (content : Bytes) : Serves hashOf (serving content) "r1" netlistRow := by
  refine ⟨⟨registered, registered_netlist, ?_⟩, fun _ ↦ ⟨_, rfl, rfl⟩⟩
  rw [artifacts_registered]
  exact List.mem_singleton_self _

/-- An answer without a byte is asked for again and again. -/
theorem emptied_file_never_ends : ¬∀ (api : KernelApi) (session : Option AuthSession)
    (H : Bytes → String) (env : Surroundings) (b : Nat → Backend) (runId : RunId)
    (row : ArtifactRow) (chunkSize : Nat), Function.Injective H →
      (∀ n : Nat, env.int (toString n) = some (n : Int)) → Serves H b runId row →
      1 ≤ chunkSize → chunkSize ≤ maxExcerptBytes →
      (∃ fuel result, KernelClient.downloadArtifactTo H
        (api.chunkAnswers session H env b runId row.artifactId) chunkSize fuel = some result) ∧
      ∀ fuel d, KernelClient.downloadArtifactTo H
          (api.chunkAnswers session H env b runId row.artifactId) chunkSize fuel = some (.ok d) →
        H d.content = row.sha256 ∧ d.content.length = d.sizeBytes ∧
          d.content.length = row.sizeBytes := by
  intro h
  have hends := (h api (some alice) hashOf reading (serving []) "r1" netlistRow 1
    (ChipEvolve.Sample.hash_injective _) readInt_toString (serves []) (le_refl 1) (by decide)).1
  have hpieces : KernelClient.Pieces 1 netlistRow
      (fun n ↦ api.servedFile (some alice) (serving [] n) "r1" netlistRow.artifactId)
      (fun n offset ↦ KernelClient.artifactChunk
        (api.chunkAnswers (some alice) hashOf reading (serving []) "r1" netlistRow.artifactId n)
        offset 1) :=
    KernelApi.pieces_of_serves readInt_toString (serves []) (le_refl 1) (by decide)
  obtain ⟨m, _, hnone | hreached⟩ := (KernelClient.downloadFrom_ends_iff hpieces 0 []).mp hends
  · cases hnone
  · have hzero : ∀ n, reached 1 (KernelClient.lengthAt fun n ↦
        api.servedFile (some alice) (serving [] n) "r1" netlistRow.artifactId) n = 0 := by
      intro n
      induction n with
      | zero => rfl
      | succ n ih => rw [reached_succ, ih]; rfl
    rw [hzero] at hreached
    exact absurd hreached (by decide)

theorem download_faithful_netlist :
    ∃ fuel result, KernelClient.downloadArtifactTo hashOf
      (api.chunkAnswers (some alice) hashOf reading (serving [1, 2]) "r1" "x1") 1 fuel =
        some result := by
  refine ((KernelApi.download_faithful_iff (ChipEvolve.Sample.hash_injective _) readInt_toString
    (serves [1, 2]) (le_refl 1) (by decide)).mpr
      (.inr ⟨fun n ↦ min n 2, ⟨rfl, fun n ↦ ?_, fun n ↦ ?_⟩, 2, le_refl 2⟩)).1
  · omega
  · exact (min_le_right _ _).trans (le_max_right _ _)

end Sample

end ChipEvolve.Gateway
