import ChipEvolve.Gateway.Router
import Mathlib.Data.Set.BooleanAlgebra
import Mathlib.Order.CompletePartialOrder

/-!
# Which route a path finds

Of the templates that match a path the router finds the one with the longest
pattern.  Whether that is the one that matches the fewest paths depends on the names.
-/

namespace ChipEvolve.Gateway.Routing

open Percent Separated

variable {w : Words} {ω : Type}

/-! ## Which route is found -/

structure Registration (w : Words) (ω : Type) where
  method : String
  template : Template w
  handler : ω

namespace Registration

def route (r : Registration w ω) : Route ω where
  method := upper r.method
  regex := r.template.regex
  handler := r.handler

/-- It is of the method and its template matches. -/
def Takes (r : Registration w ω) (method : String) (path : Text) : Prop :=
  upper r.method = upper method ∧ (groups (expand w r.template.text) path).isSome = true

/-- Of the paths that requests have, those that the template matches. -/
def paths (requests : Set Text) (r : Registration w ω) : Set Text :=
  {path ∈ requests | (groups (expand w r.template.text) path).isSome = true}

end Registration

/-- A router to which the templates are added in order. -/
def register (regs : List (Registration w ω)) : List (Route ω) :=
  regs.foldl (fun routes r ↦ add w r.method r.template.text r.handler routes) []

section Found

variable {regs pre post : List (Registration w ω)} {r : Registration w ω} {method : String}
variable {path : Text} {route : Route ω} {params found : List (Text × Text)}

theorem register_eq (regs : List (Registration w ω)) :
    register regs = regs.map Registration.route := by
  have hfold : ∀ routes, regs.foldl
      (fun routes r ↦ add w r.method r.template.text r.handler routes) routes =
        routes ++ regs.map Registration.route := by
    induction regs with
    | nil => simp
    | cons r regs ih =>
        intro routes
        rw [List.foldl_cons, ih, add, expand_text, List.append_assoc]
        rfl
  exact hfold []

theorem takes_iff : r.Takes method path ↔
    upper r.method = upper method ∧ ∃ found, groups r.template.regex path = some found := by
  rw [Registration.Takes, expand_text, Option.isSome_iff_exists]

/-- The template that leads the others that match. -/
def Leads (method : String) (path : Text) (pre : List (Registration w ω)) (r : Registration w ω)
    (post : List (Registration w ω)) : Prop :=
  LongestFirst.Leads (fun r ↦ r.template.weight) (fun z ↦ z.Takes method path) pre r post

theorem tried_eq_some_iff : r.route.tried method path = some (route, params) ↔
    upper r.method = upper method ∧ ∃ found, groups r.template.regex path = some found ∧
      route = r.route ∧ params = decoded found := by
  have hmethod : r.route.method = upper r.method := rfl
  unfold Route.tried
  rw [hmethod]
  by_cases h : upper r.method = upper method
  · rw [if_neg (not_not.mpr h), Option.map_eq_some_iff]
    simp only [h, true_and, Prod.mk.injEq, eq_comm, Registration.route]
  · rw [if_pos h]
    simp [h]

theorem tried_isSome_iff : (r.route.tried method path).isSome = true ↔ r.Takes method path := by
  rw [takes_iff, Option.isSome_iff_exists]
  constructor
  · rintro ⟨⟨route, params⟩, h⟩
    obtain ⟨hmethod, found, hfound, _⟩ := tried_eq_some_iff.mp h
    exact ⟨hmethod, found, hfound⟩
  · rintro ⟨hmethod, found, hfound⟩
    exact ⟨(r.route, decoded found), tried_eq_some_iff.mpr ⟨hmethod, found, hfound, rfl, rfl⟩⟩

theorem length_route (r : Registration w ω) :
    (pattern r.route.regex).length = r.template.weight + 2 := length_pattern r.template

/-- Among routes the longest pattern leads where among templates the heaviest does. -/
theorem leads_route_iff : LongestFirst.Leads (fun route ↦ (pattern route.regex).length)
      (fun route ↦ (route.tried method path).isSome = true) (pre.map Registration.route) r.route
      (post.map Registration.route) ↔ Leads method path pre r post := by
  unfold Leads LongestFirst.Leads
  simp only [List.forall_mem_map, tried_isSome_iff, length_route, Nat.add_lt_add_iff_right,
    Nat.add_le_add_iff_right]

theorem matchRoute_eq_some (h : matchRoute (register regs) method path = some (route, params)) :
    ∃ pre r post found, regs = pre ++ r :: post ∧ r.Takes method path ∧
      Leads method path pre r post ∧ groups r.template.regex path = some found ∧
      route = r.route ∧ params = decoded found := by
  rw [matchRoute, register_eq] at h
  obtain ⟨pre', x, post', hmap, hx, hleads⟩ := LongestFirst.exists_leads h
  obtain ⟨pre, rest, rfl, rfl, hrest⟩ := List.map_eq_append_iff.mp hmap
  obtain ⟨r, post, rfl, rfl, rfl⟩ := List.map_eq_cons_iff.mp hrest
  obtain ⟨hmethod, found, hfound, hroute, hparams⟩ := tried_eq_some_iff.mp hx
  exact ⟨pre, r, post, found, rfl, takes_iff.mpr ⟨hmethod, found, hfound⟩,
    leads_route_iff.mp hleads, hfound, hroute, hparams⟩

theorem matchRoute_of_leads (htakes : r.Takes method path) (hleads : Leads method path pre r post) :
    ∃ found, groups r.template.regex path = some found ∧
      matchRoute (register (pre ++ r :: post)) method path = some (r.route, decoded found) := by
  obtain ⟨hmethod, found, hfound⟩ := takes_iff.mp htakes
  refine ⟨found, hfound, ?_⟩
  rw [matchRoute, register_eq, List.map_append, List.map_cons]
  exact LongestFirst.findSome?_of_leads
    (tried_eq_some_iff.mpr ⟨hmethod, found, hfound, rfl, rfl⟩) (leads_route_iff.mpr hleads)

/-- What tells a wrong method from a path that nobody serves. -/
theorem mem_allowedMethods_iff (routes : List (Route ω)) (method : String) (path : Text) :
    upper method ∈ allowedMethods routes path ↔ (matchRoute routes method path).isSome = true := by
  unfold allowedMethods matchRoute
  rw [List.isSome_findSome?, List.any_eq_true]
  simp only [List.mem_map, List.mem_filter, LongestFirst.mem_sort]
  constructor
  · rintro ⟨route, ⟨hroute, hgroups⟩, hmethod⟩
    refine ⟨route, hroute, ?_⟩
    rw [Route.tried, if_neg (not_not.mpr hmethod), Option.isSome_map]
    exact hgroups
  · rintro ⟨route, hroute, hsome⟩
    unfold Route.tried at hsome
    split_ifs at hsome with hmethod
    · cases hsome
    · rw [Option.isSome_map] at hsome
      exact ⟨route, ⟨hroute, hsome⟩, not_not.mp hmethod⟩

end Found

/-! ## The most specific route -/

section Specific

variable {regs : List (Registration w ω)} {r : Registration w ω} {requests : Set Text}
variable {method : String} {path : Text}

/-- Several templates match and one of them matches fewer paths than each of the others. -/
def MostSpecific (requests : Set Text) (method : String) (path : Text)
    (pre : List (Registration w ω)) (r : Registration w ω) (post : List (Registration w ω)) :
    Prop :=
  r.Takes method path ∧
    ∀ other ∈ pre ++ post, other.Takes method path → r.paths requests ⊂ other.paths requests

/-- The most specific template is found, and no value of a `{name}` has a slash in it. -/
structure Picks (requests : Set Text) (regs : List (Registration w ω)) (method : String)
    (path : Text) : Prop where
  specific : ∀ pre r post, regs = pre ++ r :: post → MostSpecific requests method path pre r post →
    ∃ params, matchRoute (register regs) method path = some (r.route, params)
  values : ∀ route params, matchRoute (register regs) method path = some (route, params) →
    ∀ name, .segment name ∈ route.regex → ∀ value ∈ param? params name, '/' ∉ value

/-- The most specific template has the longest pattern, the first of them if there are several,
and where the template with that pattern has a `{name}` the path has no escaped slash. -/
structure Suited (requests : Set Text) (regs : List (Registration w ω)) (method : String)
    (path : Text) : Prop where
  longest : ∀ pre r post, regs = pre ++ r :: post → MostSpecific requests method path pre r post →
    Leads method path pre r post
  unescaped : ∀ pre r post, regs = pre ++ r :: post → r.Takes method path →
    Leads method path pre r post →
    ∀ p ∈ captured r.template.segments (path.splitOn '/'), 0x2F ∉ escapes p.2

theorem segment_mem_regex_iff (t : Template w) (name : Text) :
    Piece.segment name ∈ t.regex ↔ name ∈ t.segments.filterMap Segment.name? := by
  have hsegment : ∀ s : Segment w, Piece.segment name ∈ s.regex ↔ s.name? = some name := by
    intro s
    cases s with
    | literal l => simp [Segment.regex, Segment.name?]
    | param n => simp [Segment.regex, Segment.name?, eq_comm]
  have hending : Piece.segment name ∈ t.ending.regex ↔
      ∃ s ∈ t.ending.segments, s.name? = some name := by
    cases t.ending with
    | segment s => simp [Ending.regex, Ending.segments, hsegment]
    | tail n => simp [Ending.regex, Ending.segments]
  unfold Template.regex Template.segments
  simp only [List.mem_append, List.mem_flatMap, hsegment, hending, List.mem_filterMap]
  simp [or_and_right, exists_or]

/-- The value of a name is the decoded part of the path that stands where the name does. -/
theorem param?_decoded {t : Template w} {found : List (Text × Text)}
    (hfound : groups t.regex path = some found) {name : Text}
    (hname : name ∈ t.segments.filterMap Segment.name?) {value : Text} :
    param? (decoded found) name = some value ↔
      ∃ part, (name, part) ∈ captured t.segments (path.splitOn '/') ∧ value = unquote part := by
  obtain ⟨tail, rfl, htail⟩ := groups_eq_captured t hfound
  have hnodup := t.names_nodup
  rw [← htail] at hnodup
  have hunique : Table.Unique Prod.fst
      (decoded (captured t.segments (path.splitOn '/') ++ tail)) := by
    have hnames : (decoded (captured t.segments (path.splitOn '/') ++ tail)).map Prod.fst =
        (captured t.segments (path.splitOn '/')).map Prod.fst ++ tail.map Prod.fst := by
      rw [decoded, List.map_map, ← List.map_append]
      rfl
    unfold Table.Unique
    rw [hnames]
    exact ((captured_names _ _).append (List.Sublist.refl _)).nodup hnodup
  have hother : name ∉ tail.map Prod.fst :=
    fun hmem ↦ (List.nodup_append.mp hnodup).2.2 name hname name hmem rfl
  rw [param?, Option.map_eq_some_iff]
  constructor
  · rintro ⟨g, hg, rfl⟩
    obtain ⟨hmem, rfl⟩ := hunique.get?_iff.mp hg
    obtain ⟨p, hp, rfl⟩ := List.mem_map.mp hmem
    rcases List.mem_append.mp hp with hp | hp
    · exact ⟨p.2, hp, rfl⟩
    · exact absurd (List.mem_map_of_mem hp) hother
  · rintro ⟨part, hpart, rfl⟩
    refine ⟨(name, unquote part), hunique.get?_iff.mpr ⟨?_, rfl⟩, rfl⟩
    exact List.mem_map.mpr ⟨(name, part), List.mem_append_left _ hpart, rfl⟩

theorem captured_mem {segments : List (Segment w)} {parts : List Text} {p : Text × Text}
    (h : p ∈ captured segments parts) :
    p.1 ∈ segments.filterMap Segment.name? ∧ p.2 ∈ parts := by
  refine ⟨(captured_names segments parts).subset (List.mem_map_of_mem h), ?_⟩
  obtain ⟨⟨s, part⟩, hmem, hname⟩ := List.mem_filterMap.mp h
  obtain ⟨name, _, rfl⟩ := Option.map_eq_some_iff.mp hname
  exact (List.of_mem_zip hmem).2

/-- A position of a list, or another one. -/
theorem same_or_mem {α : Type*} {pre pre' post post' : List α} {x x' : α}
    (h : pre ++ x :: post = pre' ++ x' :: post') :
    (pre = pre' ∧ x = x' ∧ post = post') ∨ x' ∈ pre ++ post := by
  rcases List.append_eq_append_iff.mp h with ⟨mid, rfl, hmid⟩ | ⟨mid, rfl, hmid⟩
  · rcases List.cons_eq_append_iff.mp hmid with ⟨rfl, hsame⟩ | ⟨rest, rfl, rfl⟩
    · obtain ⟨rfl, rfl⟩ := List.cons.inj hsame
      exact .inl ⟨by simp, rfl, rfl⟩
    · exact .inr (by simp)
  · rcases List.cons_eq_append_iff.mp hmid with ⟨rfl, hsame⟩ | ⟨rest, rfl, rfl⟩
    · obtain ⟨rfl, rfl⟩ := List.cons.inj hsame
      exact .inl ⟨by simp, rfl, rfl⟩
    · exact .inr (by simp)

theorem paths_eq_of_route {r' : Registration w ω} (h : r.route = r'.route) :
    r.paths requests = r'.paths requests := by
  have hregex : r.template.regex = r'.template.regex := congrArg Route.regex h
  unfold Registration.paths
  rw [expand_text, expand_text, hregex]

/-- A part of a path has a slash after decoding if it has an escaped one. -/
theorem slash_mem_unquote_part {p : Text × Text} {segments : List (Segment w)}
    (hp : p ∈ captured segments (path.splitOn '/')) :
    '/' ∈ unquote p.2 ↔ 0x2F ∈ escapes p.2 :=
  slash_mem_unquote_iff (not_mem_of_mem_splitOn (captured_mem hp).2)

theorem picks_iff : Picks requests regs method path ↔ Suited requests regs method path := by
  constructor
  · intro h
    refine ⟨fun pre r post heq hspecific ↦ ?_, fun pre r post heq htakes hleads p hp hescaped ↦ ?_⟩
    · obtain ⟨params, hmatch⟩ := h.specific pre r post heq hspecific
      obtain ⟨pre', r', post', found, heq', htakes, hleads, _, hroute, _⟩ :=
        matchRoute_eq_some hmatch
      rcases same_or_mem (heq.symm.trans heq') with ⟨rfl, rfl, rfl⟩ | hother
      · exact hleads
      · have hstrict := hspecific.2 r' hother htakes
        rw [paths_eq_of_route hroute] at hstrict
        exact absurd hstrict (ssubset_irrefl _)
    · obtain ⟨found, hfound, hmatch⟩ := matchRoute_of_leads htakes hleads
      rw [← heq] at hmatch
      have hname := (captured_mem hp).1
      refine h.values r.route (decoded found) hmatch p.1
        ((segment_mem_regex_iff r.template p.1).mpr hname) (unquote p.2) ?_
        ((slash_mem_unquote_part hp).mpr hescaped)
      exact (param?_decoded hfound hname).mpr ⟨p.2, hp, rfl⟩
  · intro h
    refine ⟨fun pre r post heq hspecific ↦ ?_, fun route params hmatch name hname value hvalue ↦ ?_⟩
    · obtain ⟨found, _, hmatch⟩ :=
        matchRoute_of_leads hspecific.1 (h.longest pre r post heq hspecific)
      exact ⟨decoded found, heq ▸ hmatch⟩
    · obtain ⟨pre, r, post, found, heq, htakes, hleads, hfound, rfl, rfl⟩ :=
        matchRoute_eq_some hmatch
      have hname' := (segment_mem_regex_iff r.template name).mp hname
      obtain ⟨part, hpart, rfl⟩ := (param?_decoded hfound hname').mp hvalue
      intro hslash
      exact h.unescaped pre r post heq htakes hleads _ hpart
        ((slash_mem_unquote_part hpart).mp hslash)

end Specific

/-! ## A long name, and an escaped slash -/

def root : Segment Words.ascii := .literal { text := [], plain := rfl }

def longName : Registration Words.ascii Unit where
  method := "GET"
  template :=
    { init := [root]
      ending := .segment (.param
        { text := "averylongname".toList, ne_nil := by decide, words := by decide })
      names_nodup := by decide }
  handler := ()

def abc : Registration Words.ascii Unit where
  method := "GET"
  template :=
    { init := [root]
      ending := .segment (.literal { text := "abc".toList, plain := by decide })
      names_nodup := by decide }
  handler := ()

theorem abc_paths_ssubset : abc.paths Set.univ ⊂ longName.paths Set.univ := by
  rw [Set.ssubset_iff_exists]
  constructor
  · rintro path ⟨_, hmatches⟩
    refine ⟨trivial, ?_⟩
    obtain ⟨found, hfound⟩ := Option.isSome_iff_exists.mp hmatches
    rw [expand_text] at hfound
    have hregex : abc.template.regex = "/abc".toList.map .char ++ [] := by decide
    rw [hregex] at hfound
    obtain ⟨t, rfl, ht⟩ := groups_literal_iff.mp hfound
    obtain ⟨rfl | rfl, _⟩ := groups_nil_iff.mp ht
    · decide +kernel
    · decide +kernel
  · refine ⟨"/x".toList, ⟨trivial, by decide +kernel⟩, fun h ↦ ?_⟩
    exact absurd h.2 (by decide +kernel)

/-- The longer name goes before the literal, and a `{name}` gets a slash. -/
theorem not_picks :
    ¬Picks Set.univ [longName, abc] "GET" "/abc".toList ∧
      ¬Picks Set.univ [longName] "GET" "/a%2Fb".toList := by
  constructor
  · intro h
    have hspecific : MostSpecific Set.univ "GET" "/abc".toList [longName] abc [] := by
      refine ⟨⟨rfl, by decide +kernel⟩, fun other hother _ ↦ ?_⟩
      obtain rfl := List.mem_singleton.mp hother
      exact abc_paths_ssubset
    obtain ⟨params, hmatch⟩ := h.specific [longName] abc [] rfl hspecific
    have hfound : (matchRoute (register [longName, abc]) "GET" "/abc".toList).map
        (fun found ↦ found.1.regex) = some abc.route.regex := by
      rw [hmatch]
      rfl
    exact absurd hfound (by decide +kernel)
  · intro h
    have hfound : matchRoute (register [longName]) "GET" "/a%2Fb".toList =
        some (longName.route, [("averylongname".toList, "a/b".toList)]) := by
      rfl
    refine h.values _ _ hfound "averylongname".toList (by decide) "a/b".toList (by decide) ?_
    decide

end ChipEvolve.Gateway.Routing
