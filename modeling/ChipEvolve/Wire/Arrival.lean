import ChipEvolve.Wire.Reach
import ChipEvolve.Outcome

/-!
# What arrives of a call

Every id of a call and every value of its query is written such that the server reads it
as it was given, whatever characters it has; only blank values are left out.
-/

namespace ChipEvolve.Wire

open Gateway Gateway.Routing Percent Separated Url

/-! ## Paths -/

section Paths

variable {call : Call} {s : Sending} {c : Char}

/-- What a method gives to `_call` is for its handler. -/
structure Call.Sends (call : Call) (s : Sending) : Prop where
  method : s.method = call.operation.method
  path : s.path =
    ['/'].intercalate (fill call.operation.shape (call.ids.map fun id ↦ seg id.2))
  names : names call.operation.shape = call.ids.map Prod.fst
  keys : s.query.map Prod.fst = call.operation.keys

theorem bounded_eq_ok {maxBytes : Int} {s' : Sending} (h : bounded maxBytes s' = .ok s) :
    s' = s := by
  unfold bounded at h
  split_ifs at h
  exact Except.ok.inj h

theorem intercalate_cons (xs ys : Text) (parts : List Text) :
    ['/'].intercalate (xs :: ys :: parts) = xs ++ '/' :: ['/'].intercalate (ys :: parts) := by
  rw [List.intercalate_cons_cons, List.append_assoc, List.singleton_append]

theorem intercalate_pair (xs ys : Text) : ['/'].intercalate [xs, ys] = xs ++ '/' :: ys := by
  rw [intercalate_cons, List.intercalate_singleton]

theorem path_run (runId : Text) : Call.ofRun runId = ['/'].intercalate
    [[], "kernel".toList, "runs".toList, seg runId] :=
  congrArg ("/kernel/runs/".toList ++ ·) List.intercalate_singleton.symm

theorem path_ofRun (runId suffix : Text) : Call.ofRun runId ++ '/' :: suffix =
    ['/'].intercalate [[], "kernel".toList, "runs".toList, seg runId, suffix] :=
  calc
    Call.ofRun runId ++ '/' :: suffix = "/kernel/runs/".toList ++ (seg runId ++ '/' :: suffix) :=
      List.append_assoc _ _ _
    _ = "/kernel/runs/".toList ++ ['/'].intercalate [seg runId, suffix] :=
      congrArg _ (intercalate_pair _ _).symm

theorem path_ofArtifact (runId artifactId suffix : Text) :
    Call.ofArtifact runId artifactId ++ '/' :: suffix = ['/'].intercalate
      [[], "kernel".toList, "runs".toList, seg runId, "artifacts".toList, seg artifactId,
        suffix] :=
  calc
    Call.ofArtifact runId artifactId ++ '/' :: suffix =
        Call.ofRun runId ++ '/' :: ("artifacts/".toList ++ (seg artifactId ++ '/' :: suffix)) :=
      (List.append_assoc _ _ _).trans (List.append_assoc _ _ _)
    _ = "/kernel/runs/".toList ++
          (seg runId ++ '/' :: ("artifacts/".toList ++ (seg artifactId ++ '/' :: suffix))) :=
      List.append_assoc _ _ _
    _ = "/kernel/runs/".toList ++ (seg runId ++
          '/' :: ['/'].intercalate ["artifacts".toList, seg artifactId, suffix]) :=
      congrArg (fun tail ↦ "/kernel/runs/".toList ++ (seg runId ++
        '/' :: ("artifacts/".toList ++ tail))) (intercalate_pair _ _).symm
    _ = "/kernel/runs/".toList ++ ['/'].intercalate
          [seg runId, "artifacts".toList, seg artifactId, suffix] :=
      congrArg _ (intercalate_cons _ _ _).symm

theorem path_tree (designId : Text) : "/kernel/designs/".toList ++ seg designId ++ "/tree".toList =
    ['/'].intercalate
      [[], "kernel".toList, "designs".toList, seg designId, "tree".toList] :=
  calc
    "/kernel/designs/".toList ++ seg designId ++ "/tree".toList =
        "/kernel/designs/".toList ++ (seg designId ++ '/' :: "tree".toList) :=
      List.append_assoc _ _ _
    _ = "/kernel/designs/".toList ++ ['/'].intercalate [seg designId, "tree".toList] :=
      congrArg _ (intercalate_pair _ _).symm

theorem Call.sends (h : call.sending = .ok s) : call.Sends s := by
  cases call with
  | submit task idempotent key version =>
      obtain ⟨payload, _, rfl⟩ := Except.map_eq_ok.mp h
      exact ⟨rfl, by rfl, rfl, rfl⟩
  | artifactExcerpt runId artifactId offset maxBytes =>
      obtain rfl := bounded_eq_ok h
      exact ⟨rfl, path_ofArtifact runId artifactId _, rfl, rfl⟩
  | artifactChunk runId artifactId offset maxBytes =>
      obtain rfl := bounded_eq_ok h
      exact ⟨rfl, path_ofArtifact runId artifactId _, rfl, rfl⟩
  | artifactBytes runId artifactId =>
      obtain rfl := Except.ok.inj h
      exact ⟨rfl, path_ofArtifact runId artifactId _, rfl, rfl⟩
  | run runId =>
      obtain rfl := Except.ok.inj h
      exact ⟨rfl, path_run runId, rfl, rfl⟩
  | designTree designId limit offset =>
      obtain rfl := Except.ok.inj h
      exact ⟨rfl, path_tree designId, rfl, rfl⟩
  | cancel runId | retry runId reason | bundle runId | metrics runId complete
  | artifacts runId category format stage | timeline runId | resources runId
  | logs runId offset maxBytes =>
      obtain rfl := Except.ok.inj h
      exact ⟨rfl, path_ofRun runId _, rfl, rfl⟩
  | _ =>
      obtain rfl := Except.ok.inj h
      exact ⟨rfl, by rfl, rfl, rfl⟩

theorem shape_eq (operation : Operation) :
    ∃ parts, operation.shape = Operation.kernelShape parts := by
  cases operation <;> exact ⟨_, rfl⟩

/-! ## What a path is made of -/

def isPathChar (c : Char) : Bool := isUnreserved c || c = '%' || c = '/'

theorem isPathChar_plain (h : isPathChar c = true) :
    isVisible c = true ∧ c ≠ '#' ∧ c ≠ '?' ∧ c ≠ ';' ∧ c ≠ '\n' := by
  have hne : ∀ d : Char, isPathChar d = false → c ≠ d := by
    rintro d hd rfl
    rw [h] at hd
    cases hd
  refine ⟨?_, hne _ (by decide), hne _ (by decide), hne _ (by decide), hne _ (by decide)⟩
  simp only [isPathChar, Bool.or_eq_true, decide_eq_true_eq] at h
  rcases h with (h | rfl) | rfl
  · have hrange := isUnreserved_iff.mp h
    simp only [isVisible, Bool.and_eq_true, decide_eq_true_eq]
    omega
  · decide
  · decide

theorem mem_intercalate {parts : List Text} (h : c ∈ ['/'].intercalate parts) :
    c = '/' ∨ ∃ part ∈ parts, c ∈ part := by
  induction parts with
  | nil => cases h
  | cons xs parts ih =>
      cases parts with
      | nil =>
          rw [List.intercalate_singleton] at h
          exact .inr ⟨xs, List.mem_cons_self, h⟩
      | cons ys parts =>
          rw [intercalate_cons, List.mem_append, List.mem_cons] at h
          rcases h with h | rfl | h
          · exact .inr ⟨xs, List.mem_cons_self, h⟩
          · exact .inl rfl
          · obtain hslash | ⟨part, hpart, hc⟩ := ih h
            · exact .inl hslash
            · exact .inr ⟨part, List.mem_cons_of_mem _ hpart, hc⟩

namespace Call.Sends

variable (h : call.Sends s)

include h

theorem length_names :
    (Wire.names call.operation.shape).length = (call.ids.map fun id ↦ seg id.2).length := by
  rw [h.names, List.length_map, List.length_map]

theorem plain_of_mem {part : Text}
    (hpart : part ∈ fill call.operation.shape (call.ids.map fun id ↦ seg id.2)) (hc : c ∈ part) :
    isUnreserved c = true ∨ c = '%' := by
  rcases mem_fill h.length_names hpart with hliteral | hid
  · have hall : part.all isUnreserved = true := shape_plain call.operation _ hliteral
    exact .inl (List.all_eq_true.mp hall c hc)
  · obtain ⟨id, _, rfl⟩ := List.mem_map.mp hid
    exact mem_quote hc

theorem path_plain (hc : c ∈ s.path) : isPathChar c = true := by
  rw [h.path] at hc
  rcases mem_intercalate hc with rfl | ⟨part, hpart, hc⟩
  · rfl
  · simp only [isPathChar, Bool.or_eq_true, decide_eq_true_eq]
    exact .inl (h.plain_of_mem hpart hc)

/-- The path is split where it was joined. -/
theorem splitOn_path :
    s.path.splitOn '/' = fill call.operation.shape (call.ids.map fun id ↦ seg id.2) := by
  have hslash : ∀ part ∈ fill call.operation.shape (call.ids.map fun id ↦ seg id.2),
      '/' ∉ part := by
    intro part hpart hmem
    rcases h.plain_of_mem hpart hmem with hplain | hpercent
    · exact absurd hplain (by decide)
    · cases hpercent
  have hne : fill call.operation.shape (call.ids.map fun id ↦ seg id.2) ≠ [] := by
    obtain ⟨parts, hparts⟩ := shape_eq call.operation
    rw [hparts]
    exact List.cons_ne_nil _ _
  rw [h.path, List.splitOn_intercalate '/' hslash hne]

theorem path_head : ∃ rest, s.path = '/' :: 'k' :: rest := by
  obtain ⟨parts, hparts⟩ := shape_eq call.operation
  have hfill : fill call.operation.shape (call.ids.map fun id ↦ seg id.2) =
      [] :: "kernel".toList :: fill parts (call.ids.map fun id ↦ seg id.2) := by
    rw [hparts]
    rfl
  rw [h.path, hfill, intercalate_cons]
  cases fill parts (call.ids.map fun id ↦ seg id.2) with
  | nil => exact ⟨_, rfl⟩
  | cons part tail =>
      rw [intercalate_cons]
      exact ⟨_, rfl⟩

theorem line_not_mem : '\n' ∉ s.path :=
  fun hmem ↦ (isPathChar_plain (h.path_plain hmem)).2.2.2.2 rfl

/-- The handler is found with the ids, if none of them is empty. -/
theorem matchRoute_eq (hne : ∀ id ∈ call.ids, id.2 ≠ []) :
    matchRoute endpoints s.method s.path = some (call.operation.route, call.ids) := by
  obtain ⟨rest, hpath⟩ := h.path_head
  have hids : ∀ id ∈ call.ids.map fun id ↦ seg id.2, id ≠ [] := by
    intro id hid
    obtain ⟨pair, hpair, rfl⟩ := List.mem_map.mp hid
    exact fun hnil ↦ hne pair hpair (quote_eq_nil_iff.mp hnil)
  have hfits : Fits call.operation.shape (s.path.splitOn '/') := by
    rw [h.splitOn_path]
    exact fits_fill h.length_names hids
  have hparams : decoded (named call.operation.shape (s.path.splitOn '/')) = call.ids := by
    rw [h.splitOn_path, named_fill h.length_names, h.names, decoded, List.zip_map', List.map_map]
    refine (List.map_congr_left fun id _ ↦ ?_).trans (List.map_id _)
    exact congrArg (Prod.mk id.1) (unquote_quote id.2)
  rw [h.method, matchRoute_of_fits hpath h.line_not_mem hfits, hparams]

/-- Otherwise nobody serves the path. -/
theorem groups_eq_none (hempty : ∃ id ∈ call.ids, id.2 = []) {route : Route Endpoint}
    (hroute : route ∈ endpoints) : groups route.regex s.path = none := by
  obtain ⟨rest, hpath⟩ := h.path_head
  obtain ⟨parts, hparts⟩ := shape_eq call.operation
  obtain ⟨id, hid, hnil⟩ := hempty
  have hlength := h.length_names
  rw [hparts] at hlength
  have hseg : [] ∈ call.ids.map fun id ↦ seg id.2 :=
    List.mem_map.mpr ⟨id, hid, quote_eq_nil_iff.mpr hnil⟩
  have hsplit : (s.path.splitOn '/').drop 2 = fill parts (call.ids.map fun id ↦ seg id.2) := by
    rw [h.splitOn_path, hparts]
    rfl
  refine groups_of_nil_mem hpath h.line_not_mem ?_ hroute
  rw [hsplit]
  exact nil_mem_fill hlength hseg

end Call.Sends

end Paths

/-! ## Queries and bodies -/

section Arrival

variable {call : Call} {s : Sending} {client : KernelClient} {codec : Codec}

theorem keys_nodup (operation : Operation) : operation.keys.Nodup := by
  cases operation <;> decide

theorem written_of_not_isGiven {v : Value} (h : v.isGiven = false) :
    v.written.filter (· ≠ []) = [] := by
  cases v with
  | none => rfl
  | text t =>
      obtain rfl : t = [] := by simpa [Value.isGiven] using h
      rfl
  | number n => simp [Value.isGiven] at h
  | texts ts =>
      obtain rfl : ts = [] := by simpa [Value.isGiven] using h
      rfl

theorem filter_map_filter {α β : Type} {p : β → Bool} {f : α → β} {g : α → Bool}
    (h : ∀ a, g a = false → p (f a) = false) (xs : List α) :
    ((xs.filter g).map f).filter p = (xs.map f).filter p := by
  induction xs with
  | nil => rfl
  | cons a xs ih =>
      cases hg : g a with
      | true => simp [hg, List.filter_cons, ih]
      | false => simp [hg, h a hg, ih]

/-- The query arrives without its blanks. -/
theorem parseQs_cleaned (query : List (Text × Value)) (h : (query.map Prod.fst).Nodup) :
    parseQs false (urlencode (pairs (cleaned query))) = withoutBlanks query := by
  have hkeys : (cleaned query).map Prod.fst = (query.filter (·.2.isGiven)).map Prod.fst := by
    rw [cleaned, List.map_map]
    rfl
  have hnodup : ((cleaned query).map Prod.fst).Nodup := by
    rw [hkeys]
    exact h.sublist (List.filter_sublist.map Prod.fst)
  rw [parseQs_urlencode _ hnodup, cleaned, withoutBlanks, List.map_map]
  refine filter_map_filter (fun field hgiven ↦ ?_) query
  simp only [Function.comp_apply, written_of_not_isGiven hgiven]
  rfl

theorem readBody_none {m : Message} (h : m.contentLength = none ∨ m.contentLength = some 0)
    (htype : m.contentType = none) : readBody codec m = .ok .none := by
  rcases h with h | h
  · rw [readBody, h]
  · rw [readBody, h, htype]
    rfl

theorem mediaType_json : mediaType (some "application/json".toList) = "application/json".toList := by
  decide +kernel

theorem mediaType_octets :
    mediaType (some "application/octet-stream".toList) = "application/octet-stream".toList := by
  decide +kernel

theorem readBody_json {m : Message} {value : Json}
    (htype : m.contentType = some "application/json".toList)
    (hlength : m.contentLength = some m.body.length) (hloads : codec.loads m.body = some value)
    (hsize : m.body.length ≤ maxBodyBytes) : readBody codec m = .ok (.json value) := by
  have hne : m.body.length ≠ 0 := by
    intro hzero
    rw [List.eq_nil_of_length_eq_zero hzero, codec.loads_nil] at hloads
    cases hloads
  have hkind : decide ("application/json".toList = "application/octet-stream".toList) = false := by
    decide +kernel
  rw [readBody, hlength, htype]
  simp only [mediaType_json, hkind, List.take_length, hloads, if_neg hne,
    if_neg (Nat.not_lt.mpr hsize)]
  rfl

theorem readBody_bytes {m : Message}
    (htype : m.contentType = some "application/octet-stream".toList)
    (hlength : m.contentLength = some m.body.length) (hsize : m.body.length ≤ maxBodyBytes) :
    readBody codec m = .ok (.bytes m.body) := by
  rw [readBody, hlength, htype]
  simp only [mediaType_octets, decide_true, List.take_length, if_neg (Nat.not_lt.mpr hsize), if_true]
  split_ifs with hzero
  · rw [List.eq_nil_of_length_eq_zero hzero]
  · rfl

theorem readBody_large {m : Message} {size : Nat} (hlength : m.contentLength = some size)
    (hsize : maxBodyBytes < size) : readBody codec m =
      .error ⟨413, "request body exceeds " ++ toString maxBodyBytes ++ " bytes"⟩ := by
  rw [readBody, hlength]
  exact if_pos hsize

/-- What the server reads of a body is the payload, if it is not too large. -/
theorem readBody_content {m : Message} {payload : Payload} {method : String}
    (hcontent : KernelClient.content codec method payload =
      (m.body, m.contentType, m.contentLength))
    (hcodec : ∀ value, payload = .json value → codec.loads (codec.dumps value) = some value) :
    readBody codec m = if maxBodyBytes < m.body.length then
      .error ⟨413, "request body exceeds " ++ toString maxBodyBytes ++ " bytes"⟩
    else .ok payload := by
  cases payload with
  | none =>
      obtain ⟨hbody, hrest⟩ := Prod.mk.inj hcontent
      obtain ⟨htype, hlength⟩ := Prod.mk.inj hrest
      have hzero : m.contentLength = none ∨ m.contentLength = some 0 := by
        rw [← hlength]
        split_ifs
        · exact .inr rfl
        · exact .inl rfl
      rw [readBody_none hzero htype.symm, ← hbody]
      rfl
  | json value =>
      obtain ⟨hbody, hrest⟩ := Prod.mk.inj hcontent
      obtain ⟨htype, hlength⟩ := Prod.mk.inj hrest
      rw [hbody] at hlength
      have hloads : codec.loads m.body = some value := hbody ▸ hcodec value rfl
      split_ifs with hsize
      · exact readBody_large hlength.symm hsize
      · exact readBody_json htype.symm hlength.symm hloads (Nat.not_lt.mp hsize)
  | bytes content =>
      obtain ⟨rfl, hrest⟩ := Prod.mk.inj hcontent
      obtain ⟨htype, hlength⟩ := Prod.mk.inj hrest
      split_ifs with hsize
      · exact readBody_large hlength.symm hsize
      · exact readBody_bytes htype.symm hlength.symm (Nat.not_lt.mp hsize)

/-! ## Sending and receiving -/

section Dispatch

variable {acceptsNetloc : Text → Bool} {m : Message} {parsed : Parsed} {body : Payload}

theorem receive_refused {e : HttpError} (hparsed : urlparse? acceptsNetloc m.target = some parsed)
    (hbody : readBody codec m = .error e) : receive acceptsNetloc codec m = some (.error e) := by
  rw [receive, hparsed, hbody]
  rfl

theorem receive_found {route : Route Endpoint} {params : List (Text × Text)}
    (hparsed : urlparse? acceptsNetloc m.target = some parsed) (hbody : readBody codec m = .ok body)
    (hmatch : matchRoute endpoints m.method parsed.path = some (route, params)) :
    receive acceptsNetloc codec m = some (.ok {
      endpoint := route.handler
      params := params
      query := parseQs false parsed.query
      authorization := m.authorization
      body := body }) := by
  rw [receive, hparsed, Option.map_some, hbody]
  simp only [hmatch]
  rfl

theorem receive_missing (hparsed : urlparse? acceptsNetloc m.target = some parsed)
    (hbody : readBody codec m = .ok body)
    (hnone : ∀ route ∈ endpoints, groups route.regex parsed.path = none) :
    receive acceptsNetloc codec m = some (.error ⟨404, "not found"⟩) := by
  have hmatch : matchRoute endpoints m.method parsed.path = none := by
    rw [matchRoute, List.findSome?_eq_none_iff]
    intro route hroute
    rw [Route.tried, hnone route (LongestFirst.mem_sort.mp hroute)]
    split_ifs <;> rfl
  have hallowed : allowedMethods endpoints parsed.path = [] := by
    rw [allowedMethods, List.map_eq_nil_iff, List.filter_eq_nil_iff]
    intro route hroute
    rw [hnone route hroute]
    decide
  rw [receive, hparsed, Option.map_some, hbody]
  simp only [hmatch, if_pos hallowed]
  rfl

end Dispatch

/-- The request that a call makes. -/
def message (client : KernelClient) (codec : Codec) (s : Sending) : Message where
  method := s.method
  target := s.path ++ queryText (cleaned s.query)
  authorization := client.authorization
  contentType := (KernelClient.content codec s.method s.payload).2.1
  contentLength := (KernelClient.content codec s.method s.payload).2.2
  body := (KernelClient.content codec s.method s.payload).1

/-- It is sent as it was written, and parsed into what it was written from. -/
theorem Call.Sends.send_eq (h : call.Sends s) (acceptsNetloc : Text → Bool) :
    client.send codec s = some (message client codec s) ∧
      urlparse? acceptsNetloc (message client codec s).target =
        some { path := s.path, query := urlencode (pairs (cleaned s.query)) } := by
  obtain ⟨rest, hpath⟩ := h.path_head
  have hplain : ∀ c ∈ 'k' :: rest,
      isVisible c = true ∧ c ≠ '#' ∧ c ≠ '?' ∧ c ≠ ';' ∧ c ≠ '\n' := by
    intro c hc
    exact isPathChar_plain (h.path_plain (by rw [hpath]; exact List.mem_cons_of_mem _ hc))
  have hvisible : ∀ c ∈ 'k' :: rest ++ queryText (cleaned s.query),
      isVisible c = true ∧ c ≠ '#' := by
    intro c hc
    rcases List.mem_append.mp hc with hc | hc
    · exact ⟨(hplain c hc).1, (hplain c hc).2.1⟩
    · exact queryText_visible hc
  have htarget : s.path ++ queryText (cleaned s.query) =
      '/' :: ('k' :: rest ++ queryText (cleaned s.query)) := by
    rw [hpath]
    rfl
  constructor
  · have hsent : requestTarget? (client.url s) = some (s.path ++ queryText (cleaned s.query)) := by
      rw [KernelClient.url, BaseUrl.rdropWhile_text, List.append_assoc, htarget]
      exact requestTarget?_visible client.baseUrl hvisible
    rw [KernelClient.send, hsent]
    rfl
  · have hparams : withoutParams ('k' :: rest) = 'k' :: rest :=
      cutAt_of_not_mem '/' fun hmem ↦ (hplain _ hmem).2.2.2.1 rfl
    rw [message, htarget, urlparse?_sent _
      (fun c hc ↦ ⟨(hplain c hc).1, (hplain c hc).2.1, (hplain c hc).2.2.1⟩) (by simp), hparams,
      hpath]

/-- A call that is sent arrives at the handler that it is written for, with its ids and the
values that are not blank, unless its body is too large or an id is empty. -/
theorem receive_send (acceptsNetloc : Text → Bool) (h : call.sending = .ok s)
    (hcodec : ∀ value, s.payload = .json value → codec.loads (codec.dumps value) = some value) :
    (client.send codec s).bind (receive acceptsNetloc codec) = some (
      if maxBodyBytes < (KernelClient.content codec s.method s.payload).1.length then
        .error ⟨413, "request body exceeds " ++ toString maxBodyBytes ++ " bytes"⟩
      else if ∀ id ∈ call.ids, id.2 ≠ [] then .ok (expected client call s)
      else .error ⟨404, "not found"⟩) := by
  have hsends := Call.sends h
  obtain ⟨hsent, hparsed⟩ := hsends.send_eq acceptsNetloc
  have hbody := @readBody_content codec (message client codec s) s.payload s.method rfl hcodec
  have hlength : (message client codec s).body.length =
      (KernelClient.content codec s.method s.payload).1.length := rfl
  rw [hlength] at hbody
  rw [hsent, Option.bind_some]
  split_ifs at hbody ⊢ with hsize hids
  · exact receive_refused hparsed hbody
  · have hkeys : (s.query.map Prod.fst).Nodup := by
      rw [hsends.keys]
      exact keys_nodup call.operation
    rw [receive_found hparsed hbody (hsends.matchRoute_eq hids), parseQs_cleaned s.query hkeys]
    rfl
  · push Not at hids
    exact receive_missing hparsed hbody fun route hroute ↦ hsends.groups_eq_none hids hroute

end Arrival

/-! ## An id that looks like a path -/

def sampleClient : KernelClient where
  baseUrl := {
    secure := false
    authority := "127.0.0.1:8800".toList
    slashes := 1
    authority_ne := by decide
    authority_plain := by decide }
  token := some "t0"

def sampleReason : Json := .obj [("reason", .str "again")]

/-- `{"reason": "again"}` -/
def sampleBytes : Bytes :=
  [123, 34, 114, 101, 97, 115, 111, 110, 34, 58, 32, 34, 97, 103, 97, 105, 110, 34, 125]

def sampleCodec : Codec where
  dumps _ := sampleBytes
  loads bytes := if bytes = sampleBytes then some sampleReason else none
  loads_nil := rfl

def sampleCall : Call := .retry "../auth/login?x=%2F#ü".toList "again"

def sampleSending : Sending where
  method := "POST"
  path := Call.ofRun "../auth/login?x=%2F#ü".toList ++ "/retry".toList
  payload := .json sampleReason

theorem receive_send_sampleCall :
    (sampleClient.send sampleCodec sampleSending).bind (receive (fun _ ↦ true) sampleCodec) =
      some (.ok (expected sampleClient sampleCall sampleSending)) := by
  have hsent : sampleCall.sending = .ok sampleSending := rfl
  have hcodec : ∀ value, sampleSending.payload = .json value →
      sampleCodec.loads (sampleCodec.dumps value) = some value := by
    intro value h
    obtain rfl := Payload.json.inj h
    rfl
  have hreceived := @receive_send _ _ sampleClient sampleCodec (fun _ ↦ true) hsent hcodec
  rwa [if_neg (by decide), if_pos (by decide)] at hreceived

end ChipEvolve.Wire
