import ChipEvolve.Gateway.Proxy

/-!
# What an application receives

The proxy decodes the path of a target and sends it as it then is.  A target arrives
unchanged exactly if nothing in the decoded path is read differently the second time.
-/

namespace ChipEvolve.Gateway.Routing

open Percent Separated Url

/-! ## The route of the proxy -/

section Route

variable {ω : Type} {routes : List (Route ω)} {method : String} {path : Text}
variable {found : Route ω × List (Text × Text)} {mount tail : Text}

/-- The only route that can be found is found. -/
theorem matchRoute_of_only (hmem : ∃ route ∈ routes, route.tried method path = some found)
    (honly : ∀ route ∈ routes, (route.tried method path).isSome = true →
      route.tried method path = some found) :
    matchRoute routes method path = some found := by
  obtain ⟨route, hroute, htried⟩ := hmem
  have hsome : (matchRoute routes method path).isSome = true := by
    rw [matchRoute, List.isSome_findSome?, List.any_eq_true]
    exact ⟨route, LongestFirst.mem_sort.mpr hroute, by simp [htried]⟩
  obtain ⟨found', hfound'⟩ := Option.isSome_iff_exists.mp hsome
  obtain ⟨route', hroute', htried'⟩ := List.exists_of_findSome?_eq_some hfound'
  have hsame := honly route' (LongestFirst.mem_sort.mp hroute') (by simp [htried'])
  rw [hfound', ← htried', hsame]

/-- What `add` makes of a method, a template and a handler. -/
def entry (r : String × String × ω) : Route ω where
  method := upper r.1
  regex := expand .ascii r.2.1.toList
  handler := r.2.2

theorem foldl_add (rows : List (String × String × ω)) (routes : List (Route ω)) :
    rows.foldl (fun routes r ↦ add .ascii r.1 r.2.1.toList r.2.2 routes) routes =
      routes ++ rows.map entry := by
  induction rows generalizing routes with
  | nil => simp
  | cons r rows ih =>
      rw [List.foldl_cons, ih, add, List.append_assoc]
      rfl

theorem mem_buildRouter_iff {kernel : Bool} {route : Route Handler} :
    route ∈ buildRouter kernel ↔
      (kernel = true ∧ ∃ r ∈ kernelRoutes, route = entry (r.1, r.2, .kernel)) ∨
        ∃ r ∈ gatewayRoutes, route = entry r := by
  rw [buildRouter, foldl_add, List.nil_append, List.map_append, List.mem_append]
  refine or_congr ?_ ?_
  · cases kernel with
    | false => simp
    | true => simp [eq_comm]
  · simp [eq_comm]

/-- No template of the kernel matches a path that begins with `/a`. -/
theorem groups_kernel {r : String × String} (h : r ∈ kernelRoutes) (path : Text) :
    groups (expand .ascii r.2.toList) ('/' :: 'a' :: path) = none := by
  have hall : kernelRoutes.all (fun r ↦ ['/', 'k'].isPrefixOf r.2.toList) = true := by
    decide +kernel
  have hr := List.all_eq_true.mp hall r h
  obtain ⟨template, htemplate⟩ := List.isPrefixOf_iff_prefix.mp hr
  rw [← htemplate, expand_plain (by simp)]
  rfl

/-- The path that the tail route of the proxy matches. -/
def appPath (mount tail : Text) : Text := "/app/".toList ++ mount ++ '/' :: tail

theorem appPath_eq (mount tail : Text) :
    appPath mount tail = "/app/".toList ++ (mount ++ '/' :: tail) :=
  List.append_assoc _ _ _

theorem groups_proxy (hmount : mount ≠ []) (hslash : '/' ∉ mount) (hline : '\n' ∉ tail) :
    groups (expand .ascii "/app/{name}/{rest...}".toList) (appPath mount tail) =
      some [("name".toList, mount), ("rest".toList, tail)] := by
  have hregex : expand .ascii "/app/{name}/{rest...}".toList = "/app/".toList.map .char ++
      .segment "name".toList :: .char '/' :: [.tail "rest".toList] := by decide +kernel
  rw [hregex, appPath_eq, groups_literal_iff]
  refine ⟨_, rfl, groups_segment_slash_iff.mpr ⟨mount, tail, _, rfl, hmount, hslash, ?_, rfl⟩⟩
  exact groups_tail_iff.mpr ⟨tail, .inl rfl, hline, rfl⟩

theorem groups_name (mount tail : Text) :
    groups (expand .ascii "/app/{name}".toList) (appPath mount tail) = none := by
  have hregex : expand .ascii "/app/{name}".toList = "/app/".toList.map .char ++
      [.segment "name".toList] := by decide +kernel
  cases h : groups (expand .ascii "/app/{name}".toList) (appPath mount tail) with
  | none => rfl
  | some found =>
      rw [hregex, appPath_eq, groups_literal_iff] at h
      obtain ⟨t, ht, hgroups⟩ := h
      rw [← List.append_cancel_left ht] at hgroups
      exact absurd (by simp) (groups_segment_end_iff.mp hgroups).2.1

/-- What the route of the proxy makes of the path. -/
def proxied (verb : Verb) (mount tail : Text) : Route Handler × List (Text × Text) :=
  (entry (verb.text, "/app/{name}/{rest...}", .proxy),
    [("name".toList, unquote mount), ("rest".toList, unquote tail)])

theorem tried_proxy (verb : Verb) (hmount : mount ≠ []) (hslash : '/' ∉ mount)
    (hline : '\n' ∉ tail) :
    (entry (verb.text, "/app/{name}/{rest...}", .proxy)).tried verb.text (appPath mount tail) =
      some (proxied verb mount tail) := by
  have hgroups := groups_proxy hmount hslash hline
  unfold Route.tried
  rw [if_neg (by simp [entry])]
  simp only [entry, hgroups, Option.map_some, decoded, List.map_cons, List.map_nil]
  rfl

theorem tried_isSome {route : Route ω} (h : (route.tried method path).isSome = true) :
    route.method = upper method ∧ (groups route.regex path).isSome = true := by
  unfold Route.tried at h
  split_ifs at h with hmethod
  · cases h
  · exact ⟨not_not.mp hmethod, by simpa using h⟩

/-- The other routes of the entry point do not match. -/
theorem groups_gateway {r : String × String × Handler} (h : r ∈ gatewayRoutes)
    (htail : r.2.1 ≠ "/app/{name}/{rest...}") (mount tail : Text) :
    groups (expand .ascii r.2.1.toList) (appPath mount tail) = none := by
  simp only [gatewayRoutes, List.mem_cons, List.not_mem_nil, or_false] at h
  rcases h with rfl | rfl | rfl | rfl | rfl | rfl
  · rfl
  · rfl
  · rfl
  · exact groups_name mount tail
  · exact absurd rfl htail
  · exact absurd rfl htail

theorem matchRoute_app (kernel : Bool) (verb : Verb) (hmount : mount ≠ []) (hslash : '/' ∉ mount)
    (hline : '\n' ∉ tail) :
    matchRoute (buildRouter kernel) verb.text (appPath mount tail) =
      some (proxied verb mount tail) := by
  have htried := tried_proxy verb hmount hslash hline
  refine matchRoute_of_only ⟨_, mem_buildRouter_iff.mpr (.inr ?_), htried⟩
    fun route hroute hsome ↦ ?_
  · cases verb with
    | get => exact ⟨_, by decide, rfl⟩
    | post => exact ⟨_, by decide, rfl⟩
  · obtain ⟨hmethod, hgroups⟩ := tried_isSome hsome
    rcases mem_buildRouter_iff.mp hroute with ⟨_, r, hr, rfl⟩ | ⟨r, hr, rfl⟩
    · have hnone : groups (entry (r.1, r.2, Handler.kernel)).regex (appPath mount tail) = none :=
        groups_kernel hr _
      rw [hnone] at hgroups
      cases hgroups
    · by_cases htail : r.2.1 = "/app/{name}/{rest...}"
      · have hr' : r = (verb.text, "/app/{name}/{rest...}", Handler.proxy) := by
          simp only [gatewayRoutes, List.mem_cons, List.not_mem_nil, or_false] at hr
          rcases hr with rfl | rfl | rfl | rfl | rfl | rfl
          · exact absurd htail (by decide)
          · exact absurd htail (by decide)
          · exact absurd htail (by decide)
          · exact absurd htail (by decide)
          · cases verb with
            | get => rfl
            | post => exact absurd hmethod (by decide)
          · cases verb with
            | get => exact absurd hmethod (by decide)
            | post => rfl
        rw [hr']
        exact htried
      · have hnone : groups (entry r).regex (appPath mount tail) = none :=
          groups_gateway hr htail mount tail
        rw [hnone] at hgroups
        cases hgroups

end Route

/-! ## The target that comes -/

namespace AppTarget

variable (t : AppTarget)

theorem location_plain : '#' ∉ t.location ∧ '?' ∉ t.location := by
  have hmount : ∀ c ∈ t.mount, isAuthority c = true := List.all_eq_true.mp t.mount_plain
  unfold location
  constructor
  · intro h
    rcases List.mem_append.mp h with h | h
    · exact absurd h (by decide)
    · exact absurd (hmount _ h) (by decide)
  · intro h
    rcases List.mem_append.mp h with h | h
    · exact absurd h (by decide)
    · exact absurd (hmount _ h) (by decide)

theorem slash_not_mem_mount : '/' ∉ t.mount := fun h ↦
  absurd (List.all_eq_true.mp t.mount_plain _ h) (by decide)

theorem unbroken_of_mem {c : Char} (h : c ∈ t.mount ∨ c ∈ t.rest) : isSpace c = false := by
  have hall := List.all_eq_true.mp t.unbroken c (List.mem_append.mpr h)
  simpa using hall

theorem text_clean : ∀ c ∈ t.text, c ≠ '\t' ∧ c ≠ '\r' ∧ c ≠ '\n' := by
  intro c hc
  have hspace : isSpace c = false := by
    rcases List.mem_append.mp hc with hc | hc
    · rcases List.mem_append.mp hc with hc | hc
      · have happ : "/app/".toList.all (fun c ↦ !isSpace c) = true := by decide
        simpa using List.all_eq_true.mp happ c hc
      · exact t.unbroken_of_mem (.inl hc)
    · rcases List.mem_cons.mp hc with rfl | hc
      · decide
      · exact t.unbroken_of_mem (.inr hc)
  refine ⟨?_, ?_, ?_⟩
  · rintro rfl
    exact absurd hspace (by decide)
  · rintro rfl
    exact absurd hspace (by decide)
  · rintro rfl
    exact absurd hspace (by decide)

theorem tail_line : '\n' ∉ t.tail := by
  intro h
  have hmem : '\n' ∈ t.rest :=
    (beforeMarks_isPrefix t.rest).subset ((cutAt_isPrefix _ _ _).subset h)
  exact absurd (t.unbroken_of_mem (.inr hmem)) (by decide)

theorem urlparse?_text (acceptsNetloc : Text → Bool) :
    urlparse? acceptsNetloc t.text =
      some { path := appPath t.mount t.tail, query := t.query } := by
  rw [urlparse?_of_single_slash t.text_clean (by rfl), text,
    parsePath_append t.location_plain.1 t.location_plain.2]
  rfl

end AppTarget

/-! ## The target that goes -/

section Sent

variable {rest : Text} {p : Char → Bool} {c : Char}

theorem rdropWhile_append_cons (hc : p c = false) (xs ys : Text) :
    (xs ++ c :: ys).rdropWhile p = xs ++ c :: ys.rdropWhile p := by
  have hreverse : (xs ++ c :: ys).reverse = ys.reverse ++ c :: xs.reverse := by simp
  have hstop : (c :: xs.reverse).dropWhile p = c :: xs.reverse :=
    List.dropWhile_cons_of_neg (by simp [hc])
  unfold List.rdropWhile
  rw [hreverse, List.dropWhile_append]
  split_ifs with hempty
  · rw [hstop, List.isEmpty_iff.mp hempty]
    simp
  · simp

theorem BaseUrl.origin_head (b : BaseUrl) : ∃ o, b.origin = 'h' :: o := by
  unfold BaseUrl.origin
  cases b.secure with
  | true => exact ⟨_, rfl⟩
  | false => exact ⟨_, rfl⟩

theorem BaseUrl.hash_not_mem (b : BaseUrl) : '#' ∉ b.origin := by
  intro h
  rcases List.mem_append.mp h with h | h
  · cases hsecure : b.secure with
    | true => exact absurd (hsecure ▸ h) (by decide)
    | false => exact absurd (hsecure ▸ h) (by decide)
  · exact absurd (List.all_eq_true.mp b.authority_plain _ h) (by decide)

theorem BaseUrl.rdropWhile_text (b : BaseUrl) :
    b.text.rdropWhile (· = '/') = b.origin := by
  obtain ⟨init, last, hauthority⟩ : ∃ init last, b.authority = init ++ [last] :=
    ⟨_, _, (List.dropLast_append_getLast b.authority_ne).symm⟩
  have hlast : last ≠ '/' := by
    rintro rfl
    exact absurd (List.all_eq_true.mp b.authority_plain '/' (by simp [hauthority])) (by decide)
  have horigin : b.origin.rdropWhile (· = '/') = b.origin := by
    rw [BaseUrl.origin, hauthority, ← List.append_assoc]
    exact List.rdropWhile_concat_neg _ _ _ (by simpa using hlast)
  unfold BaseUrl.text
  induction b.slashes with
  | zero => rw [List.replicate_zero, List.append_nil, horigin]
  | succ n ih =>
      rw [List.replicate_succ', ← List.append_assoc, List.rdropWhile_concat_pos _ _ _ (by simp), ih]

/-- Only white space at the end is lost. -/
theorem unwrap_origin (b : BaseUrl) (rest : Text) :
    unwrap (b.origin ++ '/' :: rest) = b.origin ++ '/' :: rest.rdropWhile isSpace := by
  obtain ⟨o, ho⟩ := b.origin_head
  have hstrip : Apps.strip (b.origin ++ '/' :: rest) =
      b.origin ++ '/' :: rest.rdropWhile isSpace := by
    have hhead : (b.origin ++ '/' :: rest).dropWhile isSpace = b.origin ++ '/' :: rest := by
      rw [ho]
      exact List.dropWhile_cons_of_neg (by decide)
    have hdef : Apps.strip (b.origin ++ '/' :: rest) =
        ((b.origin ++ '/' :: rest).dropWhile isSpace).rdropWhile isSpace := rfl
    rw [hdef, hhead, rdropWhile_append_cons (by decide)]
  unfold unwrap
  rw [hstrip, ho]
  have hopen : ¬(('h' :: o ++ '/' :: rest.rdropWhile isSpace).head? = some '<' ∧
      ('h' :: o ++ '/' :: rest.rdropWhile isSpace).getLast? = some '>') :=
    fun h ↦ absurd h.1 (by simp)
  simp only [if_neg hopen]
  rfl

theorem BaseUrl.takeWhile_authority (b : BaseUrl) (ys : Text) :
    (b.authority ++ '/' :: ys).takeWhile isAuthority = b.authority := by
  rw [List.takeWhile_append_of_pos (List.all_eq_true.mp b.authority_plain),
    List.takeWhile_cons_of_neg (by decide), List.append_nil]

theorem BaseUrl.dropWhile_authority (b : BaseUrl) (ys : Text) :
    (b.authority ++ '/' :: ys).dropWhile isAuthority = '/' :: ys := by
  rw [List.dropWhile_append_of_pos (List.all_eq_true.mp b.authority_plain),
    List.dropWhile_cons_of_neg (by decide)]

theorem BaseUrl.origin_scheme (b : BaseUrl) :
    ∃ s, (s = "http".toList ∨ s = "https".toList) ∧ b.origin = s ++ "://".toList ++ b.authority := by
  unfold BaseUrl.origin
  cases b.secure with
  | true => exact ⟨_, .inr rfl, rfl⟩
  | false => exact ⟨_, .inl rfl, rfl⟩

theorem selector?_origin (b : BaseUrl) (rest : Text) :
    selector? (b.origin ++ '/' :: rest) =
      some ('/' :: cutAt '#' '#' (rest.rdropWhile isSpace)) := by
  have hurl : cutAt '#' '#' (unwrap (b.origin ++ '/' :: rest)) =
      b.origin ++ '/' :: cutAt '#' '#' (rest.rdropWhile isSpace) := by
    rw [unwrap_origin, cutAt_append '#' b.hash_not_mem]
    rfl
  unfold selector?
  rw [hurl]
  generalize cutAt '#' '#' (rest.rdropWhile isSpace) = ys
  obtain ⟨s, hs, horigin⟩ := b.origin_scheme
  have hscheme : (b.origin ++ '/' :: ys).takeWhile (fun c ↦ c ≠ '/' && c ≠ ':') = s := by
    rw [horigin]
    rcases hs with rfl | rfl
    · rfl
    · rfl
  have hdrop : (b.origin ++ '/' :: ys).drop s.length =
      "://".toList ++ (b.authority ++ '/' :: ys) := by
    rw [horigin, List.append_assoc, List.append_assoc, List.drop_left]
  have hrest : (b.origin ++ '/' :: ys).drop (s.length + 3) = b.authority ++ '/' :: ys := by
    rw [← List.drop_drop, hdrop]
    rfl
  have hlower : ¬(s.map Char.toLower ≠ "http".toList ∧ s.map Char.toLower ≠ "https".toList) := by
    rcases hs with rfl | rfl
    · decide
    · decide
  simp only [hscheme, hdrop, hrest, b.takeWhile_authority, b.dropWhile_authority]
  rw [if_pos (by rfl), if_neg hlower, if_neg b.authority_ne]
  rfl

theorem requestTarget?_origin (b : BaseUrl) (rest : Text) :
    requestTarget? (b.origin ++ '/' :: rest) =
      if ('/' :: cutAt '#' '#' (rest.rdropWhile isSpace)).all isVisible then
        some ('/' :: cutAt '#' '#' (rest.rdropWhile isSpace))
      else none := by
  rw [requestTarget?, selector?_origin]
  rfl

end Sent

/-! ## What is sent -/

section Forwarded

variable {acceptsNetloc : Text → Bool} {apps : List AppRegistration} {kernel : Bool} {verb : Verb}
variable {t : AppTarget} {app : AppRegistration}

/-- The decoded tail and the query as it is written again, under the origin. -/
theorem forwarded?_eq (happ : app? apps (unquote t.mount) = some app) :
    forwarded? acceptsNetloc apps kernel verb t.text = requestTarget? (app.baseUrl.origin ++
      '/' :: (unquote t.tail ++ queryText (parseQs false t.query))) := by
  have hmatched : matchRoute (buildRouter kernel) verb.text (appPath t.mount t.tail) =
      some (proxied verb t.mount t.tail) :=
    matchRoute_app kernel verb t.mount_ne t.slash_not_mem_mount t.tail_line
  have hproxy : (proxied verb t.mount t.tail).1.handler = .proxy := rfl
  have hname : (param? (proxied verb t.mount t.tail).2 "name".toList).bind (app? apps) =
      some app := happ
  rw [forwarded?, t.urlparse?_text, Option.bind_some]
  dsimp only
  rw [hmatched, Option.bind_some, if_pos hproxy, hname, Option.bind_some, forwardUrl,
    BaseUrl.rdropWhile_text]
  rfl

theorem isSpace_of_isVisible {c : Char} (h : isVisible c = true) : isSpace c = false := by
  simp only [isVisible, Bool.and_eq_true, decide_eq_true_eq] at h
  simp only [isSpace, Bool.or_eq_false_iff, Bool.and_eq_false_iff, decide_eq_false_iff_not]
  omega

theorem queryText_eq (query : List (Text × List Text)) :
    queryText query = [] ∧ urlencode (pairs query) = [] ∨
      queryText query = '?' :: urlencode (pairs query) := by
  unfold queryText
  split_ifs with h
  · exact .inl ⟨rfl, by rw [h]; rfl⟩
  · exact .inr rfl

theorem queryText_visible {query : List (Text × List Text)} {c : Char}
    (h : c ∈ queryText query) : isVisible c = true ∧ c ≠ '#' := by
  rcases queryText_eq query with ⟨hquery, _⟩ | hquery
  · rw [hquery] at h
    cases h
  · rw [hquery] at h
    rcases List.mem_cons.mp h with rfl | h
    · decide
    · obtain ⟨hlow, hhigh, hhash, _⟩ := urlencode_visible h
      exact ⟨by simp [isVisible, hlow, hhigh], hhash⟩

/-- A target of visible characters without a fragment is sent as it is. -/
theorem requestTarget?_visible (b : BaseUrl) {rest : Text}
    (h : ∀ c ∈ rest, isVisible c = true ∧ c ≠ '#') :
    requestTarget? (b.origin ++ '/' :: rest) = some ('/' :: rest) := by
  have hspace : rest.rdropWhile isSpace = rest := by
    rw [List.rdropWhile_eq_self_iff]
    intro hne
    rw [isSpace_of_isVisible (h _ (List.getLast_mem hne)).1]
    decide
  have hcut : cutAt '#' '#' rest = rest := cutAt_of_not_mem '#' fun hmem ↦ (h _ hmem).2 rfl
  have hall : ('/' :: rest).all isVisible = true := by
    rw [List.all_cons, Bool.and_eq_true]
    exact ⟨by decide, List.all_eq_true.mpr fun c hc ↦ (h c hc).1⟩
  rw [requestTarget?_origin, hspace, hcut, if_pos hall]

theorem isVisible_clean {c : Char} (h : isVisible c = true) : c ≠ '\t' ∧ c ≠ '\r' ∧ c ≠ '\n' := by
  refine ⟨?_, ?_, ?_⟩
  · rintro rfl
    exact absurd h (by decide)
  · rintro rfl
    exact absurd h (by decide)
  · rintro rfl
    exact absurd h (by decide)

/-- How an application parses a path and a query that are sent. -/
theorem urlparse?_sent {path : Text} (query : List (Text × List Text))
    (hvisible : ∀ c ∈ path, isVisible c = true ∧ c ≠ '#' ∧ c ≠ '?')
    (hrelative : path.head? ≠ some '/') :
    urlparse? acceptsNetloc ('/' :: (path ++ queryText query)) =
      some { path := '/' :: withoutParams path, query := urlencode (pairs query) } := by
  have hhash : '#' ∉ '/' :: path := by
    rw [List.mem_cons, not_or]
    exact ⟨by decide, fun h ↦ (hvisible _ h).2.1 rfl⟩
  have hmark : '?' ∉ '/' :: path := by
    rw [List.mem_cons, not_or]
    exact ⟨by decide, fun h ↦ (hvisible _ h).2.2 rfl⟩
  have hhash' : '#' ∉ queryText query := fun h ↦ (queryText_visible h).2 rfl
  have hclean : ∀ c ∈ '/' :: (path ++ queryText query), c ≠ '\t' ∧ c ≠ '\r' ∧ c ≠ '\n' := by
    intro c hc
    rcases List.mem_cons.mp hc with rfl | hc
    · decide
    · rcases List.mem_append.mp hc with hc | hc
      · exact isVisible_clean (hvisible c hc).1
      · exact isVisible_clean (queryText_visible hc).1
  have hsingle : ['/', '/'].isPrefixOf ('/' :: (path ++ queryText query)) = false := by
    cases path with
    | nil =>
        rcases queryText_eq query with ⟨hquery, _⟩ | hquery
        · rw [hquery]
          rfl
        · rw [hquery]
          rfl
    | cons d path =>
        have hne : d ≠ '/' := by simpa using hrelative
        simp [List.isPrefixOf, Ne.symm hne]
  have hparams : withoutParams ('/' :: path) = '/' :: withoutParams path :=
    cutAt_append_cons (by decide) [] path
  rw [urlparse?_of_single_slash hclean hsingle, parsePath, ← List.cons_append,
    splitFirst_append_left hhash, splitFirst_of_not_mem hhash']
  dsimp only
  rcases queryText_eq query with ⟨hquery, hencoded⟩ | hquery
  · rw [hquery, List.append_nil, splitFirst_of_not_mem hmark, hencoded]
    exact congrArg some (congrArg (Parsed.mk · []) hparams)
  · rw [hquery, splitFirst_append hmark]
    exact congrArg some (congrArg (Parsed.mk · _) hparams)

theorem drop_appPath (t : AppTarget) :
    (appPath t.mount t.tail).drop t.location.length = '/' :: t.tail :=
  List.drop_left

theorem unquote_slash (path : Text) : unquote ('/' :: path) = '/' :: unquote path :=
  @unquote_append_cons '/' (by decide) (by decide) [] path

theorem escapes_slash (path : Text) : escapes ('/' :: path) = escapes path :=
  @escapes_append_cons '/' (by decide) [] path

/-- What is before the query in a prefix of a path and a query is in the path. -/
theorem prefix_path {xs path : Text} {query : List (Text × List Text)}
    (h : xs <+: path ++ queryText query) (hmark : '?' ∉ xs) : xs <+: path := by
  rcases List.prefix_or_prefix_of_prefix h (List.prefix_append path _) with h' | ⟨more, rfl⟩
  · exact h'
  · have hmore : more <+: queryText query := (List.prefix_append_right_inj path).mp h
    have hnil : more = [] := by
      cases more with
      | nil => rfl
      | cons c more =>
          rcases queryText_eq query with ⟨hquery, _⟩ | hquery
          · rw [hquery] at hmore
            cases List.prefix_nil.mp hmore
          · rw [hquery] at hmore
            obtain ⟨rfl, _⟩ := List.cons_prefix_cons.mp hmore
            exact absurd (by simp) hmark
    rw [hnil, List.append_nil]

/-- If a target is sent with the segments that came, the decoded path is its path. -/
theorem path_of_segments {b : BaseUrl} {path sent : Text} {query : List (Text × List Text)}
    {parsed : Parsed}
    (hsent : requestTarget? (b.origin ++ '/' :: (unquote path ++ queryText query)) = some sent)
    (hparsed : urlparse? acceptsNetloc sent = some parsed)
    (hsegments : segments parsed.path = segments ('/' :: path)) :
    (∀ c ∈ unquote path, isVisible c = true ∧ c ≠ '#' ∧ c ≠ '?') ∧
      (unquote path).head? ≠ some '/' ∧ parsed.path = '/' :: unquote path ∧
      escapes (unquote path) = [] := by
  rw [requestTarget?_origin] at hsent
  have hprefix : cutAt '#' '#' ((unquote path ++ queryText query).rdropWhile isSpace) <+:
      unquote path ++ queryText query :=
    (cutAt_isPrefix _ _ _).trans (List.rdropWhile_prefix _ _)
  revert hsent hprefix
  generalize cutAt '#' '#' ((unquote path ++ queryText query).rdropWhile isSpace) = target
  intro hsent hprefix
  split_ifs at hsent with hall
  obtain rfl := Option.some.inj hsent
  have hvisible : ∀ c ∈ '/' :: target, isVisible c = true := List.all_eq_true.mp hall
  have hbefore : beforeMarks target <+: unquote path :=
    prefix_path ((beforeMarks_isPrefix target).trans hprefix) (not_mem_beforeMarks target).2
  obtain ⟨hlength, hlocation⟩ :=
    length_urlparse?_path (fun c hc ↦ isVisible_clean (hvisible c hc)) hparsed
  have hunquote : unquote parsed.path = '/' :: unquote path := by
    rw [← intercalate_segments, hsegments, intercalate_segments, unquote_slash]
  -- Decoding again shortens what has escapes, and what was cut off is missing.
  have hdecoded := length_unquote_le parsed.path
  have hle := hbefore.length_le
  rw [hunquote, List.length_cons] at hdecoded
  have hsame : beforeMarks target = unquote path := hbefore.eq_of_length (by omega)
  obtain ⟨hhead, hpath⟩ := hlocation (by omega)
  rw [hsame] at hpath
  have htarget : unquote path <+: target := hsame ▸ beforeMarks_isPrefix target
  refine ⟨fun c hc ↦ ⟨?_, ?_, ?_⟩, fun h ↦ hhead ?_, hpath, ?_⟩
  · exact hvisible c (List.mem_cons_of_mem _ (htarget.subset hc))
  · rintro rfl
    exact (not_mem_beforeMarks target).1 (hsame ▸ hc)
  · rintro rfl
    exact (not_mem_beforeMarks target).2 (hsame ▸ hc)
  · obtain ⟨more, rfl⟩ := htarget
    obtain ⟨more', hmore'⟩ := List.head?_eq_some_iff.mp h
    rw [hmore']
    rfl
  · rw [hpath, escapes_slash] at hdecoded
    exact List.length_eq_zero_iff.mp (by rw [List.length_cons] at hdecoded; omega)

/-- A decoded path that is read as it is has the segments that came exactly if none of its
slashes was escaped. -/
theorem segments_decoded_iff {path : Text} (honce : escapes (unquote path) = []) :
    segments ('/' :: unquote path) = segments ('/' :: path) ↔ 0x2F ∉ escapes path := by
  constructor
  · intro h
    have hlength := congrArg List.length h
    rw [length_segments, length_segments, List.count_cons_self, List.count_cons_self,
      count_unquote (by decide) (by decide) (by decide)] at hlength
    have hcount : (escapes path).count 0x2F = 0 := by
      have hslash : '/'.toNat = 0x2F := rfl
      rw [hslash] at hlength
      omega
    exact List.count_eq_zero.mp hcount
  · intro h
    have hdecoded : 0x2F ∉ escapes ('/' :: unquote path) := by
      rw [escapes_slash, honce]
      exact List.not_mem_nil
    have hcame : 0x2F ∉ escapes ('/' :: path) := by rwa [escapes_slash]
    rw [segments_eq hdecoded, segments_eq hcame, unquote_slash, unquote_slash,
      unquote_eq_self_iff.mpr honce]

/-- An application receives the segments and the values of a target exactly if its decoded
path can be sent and read as it is, and no value is blank. -/
theorem forwardsUnchanged_iff (happ : app? apps (unquote t.mount) = some app) :
    ForwardsUnchanged acceptsNetloc apps kernel verb t ↔ Transparent t := by
  have hforwarded : forwarded? acceptsNetloc apps kernel verb t.text = requestTarget?
      (app.baseUrl.origin ++ '/' :: (unquote t.tail ++ queryText (parseQs false t.query))) :=
    forwarded?_eq happ
  have hshown : (∀ c ∈ unquote t.tail, isVisible c = true ∧ c ≠ '#' ∧ c ≠ '?') →
      ∀ c ∈ unquote t.tail ++ queryText (parseQs false t.query), isVisible c = true ∧ c ≠ '#' := by
    intro hvisible c hc
    rcases List.mem_append.mp hc with hc | hc
    · exact ⟨(hvisible c hc).1, (hvisible c hc).2.1⟩
    · exact queryText_visible hc
  constructor
  · rintro ⟨sent, parsed, original, hsent, hparsed, horiginal, hsegments, hvalues⟩
    rw [t.urlparse?_text] at horiginal
    obtain rfl := Option.some.inj horiginal
    dsimp only at hsegments hvalues
    rw [drop_appPath] at hsegments
    rw [hforwarded] at hsent
    obtain ⟨hvisible, hrelative, hpath, honce⟩ := path_of_segments hsent hparsed hsegments
    rw [requestTarget?_visible _ (hshown hvisible)] at hsent
    obtain rfl := Option.some.inj hsent
    rw [urlparse?_sent _ hvisible hrelative] at hparsed
    obtain rfl := Option.some.inj hparsed
    rw [hpath] at hsegments
    exact {
      visible := hvisible
      relative := hrelative
      slashes := (segments_decoded_iff honce).mp hsegments
      once := honce
      params := (List.cons.inj hpath).2
      fields := values_written_iff.mp hvalues }
  · intro h
    have hparsed := @urlparse?_sent acceptsNetloc _ (parseQs false t.query) h.visible h.relative
    refine ⟨_, _, _, hforwarded.trans (requestTarget?_visible _ (hshown h.visible)), hparsed,
      t.urlparse?_text _, ?_, values_written_iff.mpr h.fields⟩
    dsimp only
    rw [drop_appPath, h.params]
    exact (segments_decoded_iff h.once).mpr h.slashes

def evidenceConsole : AppRegistration where
  name := "evidence_console".toList
  baseUrl :=
    { secure := false, authority := "127.0.0.1:8810".toList, slashes := 0,
      authority_ne := by decide, authority_plain := by decide }

/-- The mount, a segment and a value are escaped, and a key is repeated. -/
def plainTarget : AppTarget where
  mount := "evidence%5Fconsole".toList
  rest := "runs/run%2D1?tag=a%26b&tag=c+d".toList
  mount_ne := by decide
  mount_plain := by decide
  unbroken := by decide

theorem forwardsUnchanged_plainTarget :
    ForwardsUnchanged (fun _ ↦ true) [evidenceConsole] true .get plainTarget := by
  have happ : app? [evidenceConsole] (unquote plainTarget.mount) = some evidenceConsole := by rfl
  refine (forwardsUnchanged_iff happ).mpr ?_
  exact {
    visible := by
      have hall : (unquote plainTarget.tail).all
          (fun c ↦ isVisible c && (c ≠ '#') && (c ≠ '?')) = true := by decide +kernel
      intro c hc
      simpa [and_assoc] using List.all_eq_true.mp hall c hc
    relative := by decide +kernel
    slashes := by decide +kernel
    once := by decide +kernel
    params := by decide +kernel
    fields := by decide +kernel }

/-- The second segment contains a slash. -/
def escapedSlash : AppTarget where
  mount := "evidence_console".toList
  rest := "runs/a%2Fb".toList
  mount_ne := by decide
  mount_plain := by decide
  unbroken := by decide

def blankValue : AppTarget where
  mount := "evidence_console".toList
  rest := "runs?tag=".toList
  mount_ne := by decide
  mount_plain := by decide
  unbroken := by decide

theorem not_forwardsUnchanged :
    ¬ForwardsUnchanged (fun _ ↦ true) [evidenceConsole] true .get escapedSlash ∧
      ¬ForwardsUnchanged (fun _ ↦ true) [evidenceConsole] true .get blankValue := by
  constructor
  · rintro ⟨sent, parsed, original, hsent, hparsed, horiginal, hsegments, _⟩
    have hslash : forwarded? (fun _ ↦ true) [evidenceConsole] true .get escapedSlash.text =
        some "/runs/a/b".toList := by decide +kernel
    obtain rfl := Option.some.inj (hslash.symm.trans hsent)
    obtain rfl := Option.some.inj hparsed
    obtain rfl := Option.some.inj horiginal
    exact absurd hsegments (by decide +kernel)
  · rintro ⟨sent, parsed, original, hsent, hparsed, horiginal, _, hvalues⟩
    have hblank : forwarded? (fun _ ↦ true) [evidenceConsole] true .get blankValue.text =
        some "/runs".toList := by decide +kernel
    obtain rfl := Option.some.inj (hblank.symm.trans hsent)
    obtain rfl := Option.some.inj hparsed
    obtain rfl := Option.some.inj horiginal
    exact absurd (hvalues "tag".toList) (by decide +kernel)

end Forwarded

end ChipEvolve.Gateway.Routing
