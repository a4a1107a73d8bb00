import ChipEvolve.Wire.Requests

/-!
# Which handler a call reaches

A path that the client builds has as many segments as the template it is meant for, and no
other template has a literal for each literal of that one.  Whatever the ids are, the
handler that a method is written for gets them, or no handler is called.
-/

namespace ChipEvolve.Wire

open Gateway Gateway.Routing Percent Separated Url

/-! ## Templates without a tail -/

inductive Part where
  | literal (text : Text)
  | name (text : Text)
  deriving DecidableEq

namespace Part

def regex : Part → List Piece
  | literal t => t.map .char
  | name t => [.segment t]

/-- A segment that stands where the part does. -/
def Takes : Part → Text → Prop
  | literal t, segment => segment = t
  | name _, segment => segment ≠ []

def isPlain : Part → Bool
  | literal t => t.all isUnreserved
  | name _ => true

end Part

def shapeRegex : List Part → List Piece
  | [] => []
  | [p] => p.regex
  | p :: ps => p.regex ++ .char '/' :: shapeRegex ps

def Fits (shape : List Part) (segments : List Text) : Prop := List.Forall₂ Part.Takes shape segments

/-- The segments that stand where the names do. -/
def named : List Part → List Text → List (Text × Text)
  | .literal _ :: ps, _ :: segments => named ps segments
  | .name t :: ps, segment :: segments => (t, segment) :: named ps segments
  | _, _ => []

section Shapes

variable {shape shape' : List Part} {path : Text} {segments : List Text}
  {found : List (Text × Text)}

theorem Part.slash_not_mem {t : Text} (h : (Part.literal t).isPlain = true) : '/' ∉ t :=
  fun hmem ↦ absurd (List.all_eq_true.mp h _ hmem) (by decide)

theorem groups_part_iff {p : Part} (hplain : p.isPlain = true) (hline : '\n' ∉ path) :
    groups p.regex path = some found ↔
      '/' ∉ path ∧ p.Takes path ∧ found = named [p] [path] := by
  cases p with
  | literal t =>
      have hregex : (Part.literal t).regex = t.map .char ++ [] := (List.append_nil _).symm
      have hslash := Part.slash_not_mem hplain
      rw [hregex, groups_literal_iff]
      constructor
      · rintro ⟨rest, rfl, hrest⟩
        obtain ⟨rfl | rfl, rfl⟩ := groups_nil_iff.mp hrest
        · rw [List.append_nil]
          exact ⟨hslash, rfl, rfl⟩
        · simp at hline
      · rintro ⟨_, rfl, rfl⟩
        exact ⟨[], (List.append_nil _).symm, groups_nil_iff.mpr ⟨.inl rfl, rfl⟩⟩
  | name t =>
      refine groups_segment_end_iff.trans ?_
      rw [and_left_comm]
      rfl

theorem groups_part_slash_iff {p : Part} (hplain : p.isPlain = true) {regex : List Piece} :
    groups (p.regex ++ .char '/' :: regex) path = some found ↔
      ∃ v t found', path = v ++ '/' :: t ∧ '/' ∉ v ∧ p.Takes v ∧ groups regex t = some found' ∧
        found = named [p] [v] ++ found' := by
  cases p with
  | literal l =>
      have hslash := Part.slash_not_mem hplain
      have hchar : (.char '/' :: regex : List Piece) = (['/'] : Text).map .char ++ regex := rfl
      rw [hchar, Part.regex, groups_literal_iff]
      simp only [groups_literal_iff]
      constructor
      · rintro ⟨_, rfl, t, rfl, ht⟩
        exact ⟨l, t, found, rfl, hslash, rfl, ht, rfl⟩
      · rintro ⟨v, t, found', rfl, _, rfl, ht, rfl⟩
        exact ⟨_, rfl, t, rfl, ht⟩
  | name n =>
      refine groups_segment_slash_iff.trans ⟨?_, ?_⟩
      · rintro ⟨v, t, found', rfl, hne, hv, ht, rfl⟩
        exact ⟨v, t, found', rfl, hv, hne, ht, rfl⟩
      · rintro ⟨v, t, found', rfl, hv, hne, ht, rfl⟩
        exact ⟨v, t, found', rfl, hne, hv, ht, rfl⟩

theorem named_cons (p : Part) (ps : List Part) (v : Text) (segments : List Text) :
    named (p :: ps) (v :: segments) = named [p] [v] ++ named ps segments := by
  cases p with
  | literal t => rfl
  | name t => rfl

/-- A path matches a template exactly if its segments fit the parts one by one. -/
theorem groups_shapeRegex_iff (hne : shape ≠ []) (hplain : ∀ p ∈ shape, p.isPlain = true)
    (hline : '\n' ∉ path) :
    groups (shapeRegex shape) path = some found ↔
      Fits shape (path.splitOn '/') ∧ found = named shape (path.splitOn '/') := by
  induction shape generalizing path found with
  | nil => exact absurd rfl hne
  | cons p ps ih =>
      rw [List.forall_mem_cons] at hplain
      obtain ⟨v, t, rfl, hv, rfl | ⟨t, rfl⟩, _⟩ := exists_split '/' path
      · rw [List.append_nil] at hline ⊢
        rw [List.splitOn_eq_singleton hv]
        cases ps with
        | nil =>
            refine (groups_part_iff hplain.1 hline).trans ?_
            simp [Fits, hv]
        | cons q qs =>
            have hslash : ¬∃ v' t' found', v = v' ++ '/' :: t' ∧ '/' ∉ v' ∧ p.Takes v' ∧
                groups (shapeRegex (q :: qs)) t' = some found' ∧
                found = named [p] [v'] ++ found' := by
              rintro ⟨v', t', _, rfl, _⟩
              simp at hv
            refine (groups_part_slash_iff hplain.1).trans (iff_of_false hslash ?_)
            simp [Fits]
      · rw [List.splitOn_append_cons_self_of_not_mem hv]
        have ht : '\n' ∉ t := fun h ↦ hline (by simp [h])
        cases ps with
        | nil =>
            have hslash : ¬('/' ∉ v ++ '/' :: t ∧ p.Takes (v ++ '/' :: t) ∧
                found = named [p] [v ++ '/' :: t]) := by simp
            refine (groups_part_iff hplain.1 hline).trans (iff_of_false hslash ?_)
            simp [Fits, List.splitOn_ne_nil]
        | cons q qs =>
            have hrest := fun found ↦ @ih t found (by simp) hplain.2 ht
            refine (groups_part_slash_iff hplain.1).trans ?_
            rw [named_cons, Fits, List.forall₂_cons]
            constructor
            · rintro ⟨v', t', found', heq, hv', htakes, hfound', rfl⟩
              obtain ⟨rfl, rfl⟩ := Table.append_cons_inj hv hv' heq
              obtain ⟨hfits, rfl⟩ := (hrest _).mp hfound'
              exact ⟨⟨htakes, hfits⟩, rfl⟩
            · rintro ⟨⟨htakes, hfits⟩, rfl⟩
              exact ⟨v, t, _, rfl, hv, htakes, (hrest _).mpr ⟨hfits, rfl⟩, rfl⟩

/-! ## Templates that exclude each other -/

/-- The lengths differ, or two literals do. -/
def excludes : List Part → List Part → Bool
  | [], [] => false
  | .literal t :: ps, .literal t' :: ps' => t ≠ t' || excludes ps ps'
  | _ :: ps, _ :: ps' => excludes ps ps'
  | _, _ => true

theorem not_fits_of_excludes (h : excludes shape shape' = true) (hfits : Fits shape segments) :
    ¬Fits shape' segments := by
  induction hfits generalizing shape' with
  | nil =>
      intro hfits'
      cases hfits'
      cases h
  | @cons p segment ps segments htakes _ ih =>
      intro hfits'
      obtain _ | ⟨htakes', hfits'⟩ := hfits'
      rename_i p' ps'
      have hrest : excludes ps ps' = true → False := fun hrest ↦ ih hrest hfits'
      cases p with
      | name t => exact hrest h
      | literal t =>
          cases p' with
          | name t' => exact hrest h
          | literal t' =>
              have hsame : t = t' := Eq.trans (Eq.symm htakes) htakes'
              have hne : decide (t ≠ t') = false := by simpa using hsame
              rw [excludes, hne, Bool.false_or] at h
              exact hrest h

/-- Where no literal is empty no segment is. -/
theorem not_fits_of_nil_mem (n : Nat) (hplain : (shape.drop n).all (· ≠ .literal []) = true)
    (hnil : [] ∈ segments.drop n) : ¬Fits shape segments := by
  intro hfits
  have hdrop : Fits (shape.drop n) (segments.drop n) := List.forall₂_drop n hfits
  generalize shape.drop n = ps at hplain hdrop
  generalize segments.drop n = parts at hnil hdrop
  induction hdrop with
  | nil => cases hnil
  | @cons p segment ps parts htakes _ ih =>
      rw [List.all_cons, Bool.and_eq_true] at hplain
      rcases List.mem_cons.mp hnil with rfl | hnil
      · cases p with
        | literal t =>
            obtain rfl : [] = t := htakes
            exact absurd hplain.1 (by decide)
        | name t => exact htakes rfl
      · exact ih hplain.2 hnil

/-! ## Filling in ids -/

/-- The segments of a path: the ids stand where the names do. -/
def fill : List Part → List Text → List Text
  | .literal t :: ps, ids => t :: fill ps ids
  | .name _ :: ps, id :: ids => id :: fill ps ids
  | .name _ :: ps, [] => [] :: fill ps []
  | [], _ => []

def names : List Part → List Text
  | .literal _ :: ps => names ps
  | .name t :: ps => t :: names ps
  | [] => []

theorem named_fill {ids : List Text} (h : (names shape).length = ids.length) :
    named shape (fill shape ids) = (names shape).zip ids := by
  induction shape generalizing ids with
  | nil => rfl
  | cons p ps ih =>
      cases p with
      | literal t => exact ih h
      | name t =>
          cases ids with
          | nil => cases h
          | cons id ids => exact congrArg _ (ih (Nat.succ.inj h))

theorem fits_fill {ids : List Text} (h : (names shape).length = ids.length)
    (hne : ∀ id ∈ ids, id ≠ []) : Fits shape (fill shape ids) := by
  induction shape generalizing ids with
  | nil => exact .nil
  | cons p ps ih =>
      cases p with
      | literal t => exact .cons rfl (ih h hne)
      | name t =>
          cases ids with
          | nil => cases h
          | cons id ids =>
              rw [List.forall_mem_cons] at hne
              exact .cons hne.1 (ih (Nat.succ.inj h) hne.2)

theorem mem_fill {ids : List Text} {segment : Text}
    (h : (names shape).length = ids.length) (hmem : segment ∈ fill shape ids) :
    .literal segment ∈ shape ∨ segment ∈ ids := by
  induction shape generalizing ids with
  | nil => cases hmem
  | cons p ps ih =>
      cases p with
      | literal t =>
          rcases List.mem_cons.mp hmem with rfl | hmem
          · exact .inl List.mem_cons_self
          · exact (ih h hmem).imp_left (List.mem_cons_of_mem _)
      | name t =>
          cases ids with
          | nil => cases h
          | cons id ids =>
              rcases List.mem_cons.mp hmem with rfl | hmem
              · exact .inr List.mem_cons_self
              · exact (ih (Nat.succ.inj h) hmem).imp (List.mem_cons_of_mem _)
                  (List.mem_cons_of_mem _)

theorem nil_mem_fill {ids : List Text} (h : (names shape).length = ids.length)
    (hnil : [] ∈ ids) : [] ∈ fill shape ids := by
  induction shape generalizing ids with
  | nil =>
      obtain rfl := List.eq_nil_of_length_eq_zero h.symm
      cases hnil
  | cons p ps ih =>
      cases p with
      | literal t => exact List.mem_cons_of_mem _ (ih h hnil)
      | name t =>
          cases ids with
          | nil => cases h
          | cons id ids =>
              rcases List.mem_cons.mp hnil with rfl | hnil
              · exact List.mem_cons_self
              · exact List.mem_cons_of_mem _ (ih (Nat.succ.inj h) hnil)

end Shapes

/-! ## The templates of the kernel -/

namespace Operation

/-- The parts of `/kernel/…` -/
def kernelShape (parts : List Part) : List Part :=
  .literal [] :: .literal "kernel".toList :: parts

def runShape (parts : List Part) : List Part :=
  kernelShape (.literal "runs".toList :: .name "run_id".toList :: parts)

def artifactShape (part : String) : List Part :=
  runShape [.literal "artifacts".toList, .name "artifact_id".toList, .literal part.toList]

def method : Operation → String
  | authRegister | authLogin | authLogout | ingestInput | ingestInputChunk | submitRun
  | cancelRun | retryRun | bundle => "POST"
  | _ => "GET"

def shape : Operation → List Part
  | health => kernelShape [.literal "health".toList]
  | authRegister => kernelShape [.literal "auth".toList, .literal "register".toList]
  | authLogin => kernelShape [.literal "auth".toList, .literal "login".toList]
  | authSession => kernelShape [.literal "auth".toList, .literal "session".toList]
  | authLogout => kernelShape [.literal "auth".toList, .literal "logout".toList]
  | plugins => kernelShape [.literal "plugins".toList]
  | ingestInput => kernelShape [.literal "inputs".toList]
  | ingestInputChunk => kernelShape [.literal "inputs".toList, .literal "chunk".toList]
  | submitRun | listRuns => kernelShape [.literal "runs".toList]
  | getRun => runShape []
  | designTree =>
      kernelShape [.literal "designs".toList, .name "design_id".toList, .literal "tree".toList]
  | cancelRun => runShape [.literal "cancel".toList]
  | retryRun => runShape [.literal "retry".toList]
  | bundle => runShape [.literal "bundle".toList]
  | metrics => runShape [.literal "metrics".toList]
  | artifacts => runShape [.literal "artifacts".toList]
  | timeline => runShape [.literal "timeline".toList]
  | resources => runShape [.literal "resources".toList]
  | logs => runShape [.literal "logs".toList]
  | artifactExcerpt => artifactShape "excerpt"
  | artifactDownload => artifactShape "download"
  | artifactChunk => artifactShape "chunk"
  | graph => kernelShape [.literal "graph".toList]

/-- The parameters of the query that a client gives. -/
def keys : Operation → List Text
  | ingestInputChunk => ["upload_id".toList, "offset".toList, "final".toList]
  | submitRun => ["idempotent".toList, "idempotency_key".toList]
  | listRuns =>
      ["project_id".toList, "design_id".toList, "plugin_id".toList, "status".toList,
        "limit".toList, "offset".toList]
  | designTree => ["limit".toList, "offset".toList]
  | metrics => ["complete_only".toList]
  | artifacts => ["category".toList, "format".toList, "stage".toList]
  | logs | artifactExcerpt | artifactChunk => ["offset".toList, "max_bytes".toList]
  | graph => ["run_id".toList]
  | _ => []

/-- The route that `register` adds for an operation. -/
def route (operation : Operation) : Route Endpoint where
  method := operation.method
  regex := shapeRegex operation.shape
  handler := .kernel operation

end Operation

theorem kernelOperations_spec : ∀ r ∈ kernelOperations,
    upper r.1 = r.2.2.method ∧ expand .ascii r.2.1.toList = shapeRegex r.2.2.shape := by
  have hall : kernelOperations.all (fun r ↦ upper r.1 = r.2.2.method &&
      expand .ascii r.2.1.toList = shapeRegex r.2.2.shape) = true := by decide +kernel
  intro r hr
  simpa using List.all_eq_true.mp hall r hr

theorem excludes_of_ne : ∀ r ∈ kernelOperations, ∀ r' ∈ kernelOperations,
    r.2.2.method = r'.2.2.method → r.2.2 ≠ r'.2.2 →
      excludes r.2.2.shape r'.2.2.shape = true := by
  have hall : kernelOperations.all (fun r ↦ kernelOperations.all fun r' ↦
      r.2.2.method ≠ r'.2.2.method || r.2.2 = r'.2.2 ||
        excludes r.2.2.shape r'.2.2.shape) = true := by decide +kernel
  intro r hr r' hr' hmethod hne
  have h := List.all_eq_true.mp (List.all_eq_true.mp hall r hr) r' hr'
  simpa [hmethod, hne] using h

theorem mem_kernelOperations (operation : Operation) :
    ∃ r ∈ kernelOperations, r.2.2 = operation := by
  cases operation <;> decide +kernel

/-! ## The routes of the entry point -/

section Endpoints

variable {operation : Operation} {path rest : Text}

theorem mem_endpoints {route : Route Endpoint} (h : route ∈ endpoints) :
    (∃ operation : Operation, route = operation.route) ∨
      ∃ r ∈ gatewayRoutes, route = entry (r.1, r.2.1, .gateway r.2.2) := by
  rw [endpoints, foldl_add, List.nil_append, endpointRows, List.map_append, List.mem_append] at h
  rcases h with h | h
  · obtain ⟨row, hrow, rfl⟩ := List.mem_map.mp h
    obtain ⟨r, hr, rfl⟩ := List.mem_map.mp hrow
    obtain ⟨hmethod, hregex⟩ := kernelOperations_spec r hr
    refine .inl ⟨r.2.2, ?_⟩
    rw [entry, Operation.route, hmethod, hregex]
  · obtain ⟨row, hrow, rfl⟩ := List.mem_map.mp h
    obtain ⟨r, hr, rfl⟩ := List.mem_map.mp hrow
    exact .inr ⟨r, hr, rfl⟩

theorem route_mem_endpoints (operation : Operation) : operation.route ∈ endpoints := by
  obtain ⟨r, hr, rfl⟩ := mem_kernelOperations operation
  obtain ⟨hmethod, hregex⟩ := kernelOperations_spec r hr
  have hrow : (r.1, r.2.1, Endpoint.kernel r.2.2) ∈ endpointRows :=
    List.mem_append_left _ (List.mem_map.mpr ⟨r, hr, rfl⟩)
  rw [endpoints, foldl_add, List.nil_append]
  refine List.mem_map.mpr ⟨_, hrow, ?_⟩
  rw [entry, Operation.route, hmethod, hregex]

/-- The routes are those of `build_router` with the kernel attached. -/
theorem buildRouter_eq :
    buildRouter true = endpoints.map fun route ↦ { route with handler := route.handler.kind } := by
  have hrows : (kernelRoutes.map fun r ↦ (r.1, r.2, Handler.kernel)) ++ gatewayRoutes =
      endpointRows.map fun r ↦ (r.1, r.2.1, r.2.2.kind) := rfl
  rw [buildRouter, endpoints, foldl_add, foldl_add, List.nil_append, List.nil_append, List.map_map,
    if_pos rfl, hrows, List.map_map]
  rfl

/-- No route of the entry point itself matches a path that begins with `/k`. -/
theorem groups_gatewayRoutes {r : String × String × Handler} (h : r ∈ gatewayRoutes)
    (rest : Text) : groups (expand .ascii r.2.1.toList) ('/' :: 'k' :: rest) = none := by
  simp only [gatewayRoutes, List.mem_cons, List.not_mem_nil, or_false] at h
  rcases h with rfl | rfl | rfl | rfl | rfl | rfl
  · rfl
  · rfl
  · rfl
  · rfl
  · rfl
  · rfl

theorem shape_ne_nil (operation : Operation) : operation.shape ≠ [] := by
  cases operation <;> exact List.cons_ne_nil _ _

theorem shape_plain (operation : Operation) : ∀ p ∈ operation.shape, p.isPlain = true := by
  have hall : operation.shape.all Part.isPlain = true := by
    cases operation <;> decide +kernel
  exact List.all_eq_true.mp hall

theorem groups_route_iff (hline : '\n' ∉ path) {found : List (Text × Text)} :
    groups operation.route.regex path = some found ↔
      Fits operation.shape (path.splitOn '/') ∧ found = named operation.shape (path.splitOn '/') :=
  groups_shapeRegex_iff (shape_ne_nil operation) (shape_plain operation) hline

/-- The handler whose template fits is found. -/
theorem matchRoute_of_fits (hpath : path = '/' :: 'k' :: rest) (hline : '\n' ∉ path)
    (hfits : Fits operation.shape (path.splitOn '/')) :
    matchRoute endpoints operation.method path =
      some (operation.route, decoded (named operation.shape (path.splitOn '/'))) := by
  have hupper : upper operation.method = operation.method := by
    cases operation <;> decide +kernel
  have htried : operation.route.tried operation.method path =
      some (operation.route, decoded (named operation.shape (path.splitOn '/'))) := by
    rw [Route.tried, if_neg (by rw [hupper]; exact not_not.mpr rfl),
      (groups_route_iff hline).mpr ⟨hfits, rfl⟩]
    rfl
  refine matchRoute_of_only ⟨_, route_mem_endpoints operation, htried⟩ fun route hroute hsome ↦ ?_
  obtain ⟨hmethod, hgroups⟩ := tried_isSome hsome
  rcases mem_endpoints hroute with ⟨other, rfl⟩ | ⟨r, hr, rfl⟩
  · by_cases hother : operation = other
    · rw [← hother, htried]
    · obtain ⟨found, hfound⟩ := Option.isSome_iff_exists.mp hgroups
      obtain ⟨r, hr, rfl⟩ := mem_kernelOperations operation
      obtain ⟨r', hr', rfl⟩ := mem_kernelOperations other
      have hsame : r.2.2.method = r'.2.2.method := (hmethod.trans hupper).symm
      have hexcludes := excludes_of_ne r hr r' hr' hsame hother
      exact absurd ((groups_route_iff hline).mp hfound).1 (not_fits_of_excludes hexcludes hfits)
  · have hnone : groups (entry (r.1, r.2.1, Endpoint.gateway r.2.2)).regex path = none := by
      rw [hpath]
      exact groups_gatewayRoutes hr rest
    rw [hnone] at hgroups
    cases hgroups

/-- A path of the kernel with an empty segment is served by nobody. -/
theorem groups_of_nil_mem (hpath : path = '/' :: 'k' :: rest) (hline : '\n' ∉ path)
    (hnil : [] ∈ (path.splitOn '/').drop 2) {route : Route Endpoint} (hroute : route ∈ endpoints) :
    groups route.regex path = none := by
  rcases mem_endpoints hroute with ⟨operation, rfl⟩ | ⟨r, hr, rfl⟩
  · cases hfound : groups operation.route.regex path with
    | none => rfl
    | some found =>
        have hplain : (operation.shape.drop 2).all (· ≠ .literal []) = true := by
          cases operation <;> decide +kernel
        exact absurd ((groups_route_iff hline).mp hfound).1 (not_fits_of_nil_mem 2 hplain hnil)
  · rw [hpath]
    exact groups_gatewayRoutes hr rest

end Endpoints

end ChipEvolve.Wire
