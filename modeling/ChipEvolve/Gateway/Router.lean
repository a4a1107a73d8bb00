import ChipEvolve.LongestFirst
import ChipEvolve.Percent
import ChipEvolve.Separated
import ChipEvolve.Table

/-!
# The router

`Router` (`router.py`): templates are expanded into regular expressions, and a path is
tried against the longest expression first.  A regular expression is kept as the list of
its pieces, with a matcher that backtracks as Python's does.
-/

namespace ChipEvolve.Gateway.Routing

open Percent Separated

abbrev Text := List Char

/-! ## Regular expressions -/

/-- The pieces that `add` puts between `^` and `$`. -/
inductive Piece where
  | char (c : Char)
  /-- `_SEGMENT` -/
  | segment (name : Text)
  /-- `_TAIL` -/
  | tail (name : Text)
  deriving DecidableEq

def Piece.pattern : Piece → Text
  | .char c => [c]
  | .segment name => "(?P<".toList ++ name ++ ">[^/]+)".toList
  | .tail name => "(?P<".toList ++ name ++ ">.*)".toList

/-- `regex.pattern` -/
def pattern (regex : List Piece) : Text := '^' :: regex.flatMap Piece.pattern ++ ['$']

/-- A repetition takes as much as it can, down to `least`, such that the rest matches. -/
def greedy {β : Type} (rest : Text → Option β) (path : Text) (least : Nat) :
    Nat → Option (Text × β)
  | 0 => if least = 0 then (rest path).map fun r ↦ ([], r) else none
  | n + 1 =>
      if n + 1 < least then none
      else
        match rest (path.drop (n + 1)) with
        | some r => some (path.take (n + 1), r)
        | none => greedy rest path least n

/-- `regex.match(path).groupdict()`; `$` also matches before a last newline, and `.`
matches no newline. -/
def groups : List Piece → Text → Option (List (Text × Text))
  | [], path => if path = [] ∨ path = ['\n'] then some [] else none
  | .char _ :: _, [] => none
  | .char c :: regex, d :: path => if d = c then groups regex path else none
  | .segment name :: regex, path =>
      (greedy (fun rest ↦ groups regex rest) path 1 (path.takeWhile (· ≠ '/')).length).map
        fun found ↦ ((name, found.1) :: found.2)
  | .tail name :: regex, path =>
      (greedy (fun rest ↦ groups regex rest) path 0 (path.takeWhile (· ≠ '\n')).length).map
        fun found ↦ ((name, found.1) :: found.2)

/-! ## Templates -/

/-- The characters that `\w` matches; these two are not among them. -/
structure Words where
  isWord : Char → Bool
  dot : isWord '.' = false
  brace : isWord '\x7d' = false

def Words.ascii : Words where
  isWord c := c.isAlphanum || c = '_'
  dot := rfl
  brace := rfl

variable (w : Words)

/-- A match of `\{(\w+)(\.\.\.)?\}` at the start of a text: what it expands to and its length. -/
def placeholder? : Text → Option (Piece × Nat)
  | [] => none
  | c :: cs =>
      let name := cs.takeWhile w.isWord
      let rest := cs.drop name.length
      if c ≠ '\x7b' ∨ name = [] then none
      else if ['\x7d'] <+: rest then some (.segment name, name.length + 2)
      else if ['.', '.', '.', '\x7d'] <+: rest then some (.tail name, name.length + 5)
      else none

/-- `re.sub` with the first `skip` characters already replaced. -/
def expandAfter : Nat → Text → List Piece
  | _, [] => []
  | skip + 1, _ :: cs => expandAfter skip cs
  | 0, c :: cs =>
      match placeholder? w (c :: cs) with
      | some (piece, length) => piece :: expandAfter (length - 1) cs
      | none => .char c :: expandAfter 0 cs

def expand (template : Text) : List Piece := expandAfter w 0 template

/-! ## Routes -/

structure Route (ω : Type) where
  method : String
  regex : List Piece
  handler : ω

def upper (method : String) : String := String.ofList (method.toList.map Char.toUpper)

variable {ω : Type}

def add (method : String) (template : Text) (handler : ω) (routes : List (Route ω)) :
    List (Route ω) :=
  routes ++ [{ method := upper method, regex := expand w template, handler := handler }]

def decoded (found : List (Text × Text)) : List (Text × Text) :=
  found.map fun g ↦ (g.1, unquote g.2)

/-- The body of the loop of `match`. -/
def Route.tried (method : String) (path : Text) (route : Route ω) :
    Option (Route ω × List (Text × Text)) :=
  if route.method ≠ upper method then none
  else (groups route.regex path).map fun found ↦ (route, decoded found)

/-- `match` -/
def matchRoute (routes : List (Route ω)) (method : String) (path : Text) :
    Option (Route ω × List (Text × Text)) :=
  (LongestFirst.sort (fun route ↦ (pattern route.regex).length) routes).findSome?
    (Route.tried method path)

def allowedMethods (routes : List (Route ω)) (path : Text) : List String :=
  (routes.filter fun route ↦ (groups route.regex path).isSome).map Route.method

/-- `request.params.get(name)` -/
def param? (params : List (Text × Text)) (name : Text) : Option Text :=
  (Table.get? Prod.fst name params).map Prod.snd

/-! ## Templates of segments -/

/-- The characters that mean something else in a regular expression. -/
def isMeta (c : Char) : Bool := ".^$*+?\x7b\x7d[]\\|()".toList.contains c

structure Literal where
  text : Text
  plain : (text.all fun c ↦ !isMeta c && c ≠ '/') = true

structure Name where
  text : Text
  ne_nil : text ≠ []
  words : text.all w.isWord = true

inductive Segment where
  | literal (l : Literal)
  | param (n : Name w)

/-- How a template ends. -/
inductive Ending where
  | segment (s : Segment w)
  | tail (n : Name w)

namespace Segment

variable {w}

def text : Segment w → Text
  | literal l => l.text
  | param n => '\x7b' :: n.text ++ ['\x7d']

def regex : Segment w → List Piece
  | literal l => l.text.map .char
  | param n => [.segment n.text]

def name? : Segment w → Option Text
  | literal _ => none
  | param n => some n.text

end Segment

namespace Ending

variable {w}

def text : Ending w → Text
  | segment s => s.text
  | tail n => '\x7b' :: n.text ++ ['.', '.', '.', '\x7d']

def regex : Ending w → List Piece
  | segment s => s.regex
  | tail n => [.tail n.text]

def segments : Ending w → List (Segment w)
  | segment s => [s]
  | tail _ => []

def tailName? : Ending w → Option Text
  | segment _ => none
  | tail n => some n.text

end Ending

/-- Segments, each followed by a slash, and an ending; `re.compile` accepts no name twice. -/
structure Template where
  init : List (Segment w)
  ending : Ending w
  names_nodup : ((init ++ ending.segments).filterMap Segment.name? ++
    ending.tailName?.toList).Nodup

namespace Template

variable {w}

def text (t : Template w) : Text := t.init.flatMap (fun s ↦ s.text ++ ['/']) ++ t.ending.text

def regex (t : Template w) : List Piece :=
  t.init.flatMap (fun s ↦ s.regex ++ [.char '/']) ++ t.ending.regex

def segments (t : Template w) : List (Segment w) := t.init ++ t.ending.segments

end Template

/-! ## What a template expands to -/

section Expand

variable {w} {cs ds : Text}

theorem expandAfter_append (cs ds : Text) :
    expandAfter w cs.length (cs ++ ds) = expandAfter w 0 ds := by
  induction cs with
  | nil => rfl
  | cons c cs ih => exact ih

/-- Characters that open no placeholder stay. -/
theorem expand_plain (h : ∀ c ∈ cs, c ≠ '\x7b') (ds : Text) :
    expand w (cs ++ ds) = cs.map .char ++ expand w ds := by
  induction cs with
  | nil => rfl
  | cons c cs ih =>
      rw [List.forall_mem_cons] at h
      have hnone : placeholder? w (c :: (cs ++ ds)) = none := if_pos (.inl h.1)
      unfold expand at ih ⊢
      rw [List.cons_append, expandAfter, hnone]
      simp only [ih h.2, List.map_cons, List.cons_append]

theorem takeWhile_name (n : Name w) {c : Char} (hc : w.isWord c = false) (ds : Text) :
    (n.text ++ c :: ds).takeWhile w.isWord = n.text := by
  rw [List.takeWhile_append_of_pos (List.all_eq_true.mp n.words),
    List.takeWhile_cons_of_neg (by simp [hc]), List.append_nil]

theorem expand_placeholder {c : Char} {piece : Piece}
    (h : placeholder? w (c :: (cs ++ ds)) = some (piece, cs.length + 1)) :
    expand w (c :: (cs ++ ds)) = piece :: expand w ds := by
  rw [expand, expandAfter, h]
  simp only [Nat.add_sub_cancel, expandAfter_append]
  rfl

theorem expand_param (n : Name w) (ds : Text) :
    expand w ((Segment.param n).text ++ ds) = .segment n.text :: expand w ds := by
  have happend : n.text ++ ['\x7d'] ++ ds = n.text ++ '\x7d' :: ds := List.append_assoc _ _ _
  have hname := takeWhile_name n w.brace ds
  refine @expand_placeholder w (n.text ++ ['\x7d']) ds _ _ ?_
  simp [placeholder?, hname, n.ne_nil]

theorem expand_tail (n : Name w) (ds : Text) :
    expand w ((Ending.tail n).text ++ ds) = .tail n.text :: expand w ds := by
  have hname := takeWhile_name n w.dot ('.' :: '.' :: '\x7d' :: ds)
  refine @expand_placeholder w (n.text ++ ['.', '.', '.', '\x7d']) ds _ _ ?_
  simp [placeholder?, hname, n.ne_nil]

theorem Literal.ne_brace (l : Literal) : ∀ c ∈ l.text, c ≠ '\x7b' := by
  rintro c hc rfl
  exact absurd (List.all_eq_true.mp l.plain _ hc) (by decide)

theorem expand_segment (s : Segment w) (ds : Text) :
    expand w (s.text ++ ds) = s.regex ++ expand w ds := by
  cases s with
  | literal l => exact expand_plain l.ne_brace ds
  | param n => exact expand_param n ds

theorem expand_ending (e : Ending w) : expand w e.text = e.regex := by
  cases e with
  | segment s =>
      have h := expand_segment s []
      rw [List.append_nil] at h
      exact h.trans (List.append_nil _)
  | tail n =>
      have h := expand_tail n []
      rw [List.append_nil] at h
      exact h

theorem expand_text (t : Template w) : expand w t.text = t.regex := by
  unfold Template.text Template.regex
  induction t.init with
  | nil => exact expand_ending t.ending
  | cons s init ih =>
      have hslash : ∀ ds, expand w ('/' :: ds) = .char '/' :: expand w ds :=
        fun ds ↦ @expand_plain w ['/'] (by simp) ds
      rw [List.flatMap_cons, List.flatMap_cons, List.append_assoc, List.append_assoc,
        expand_segment, List.singleton_append, hslash, ih]
      simp

/-- What the length of a pattern counts: the text, and the same for every name. -/
def Template.weight (t : Template w) : Nat :=
  t.text.length + 9 * (t.segments.filterMap Segment.name?).length +
    3 * t.ending.tailName?.toList.length

theorem length_segment (s : Segment w) : (s.regex.flatMap Piece.pattern).length =
    s.text.length + 9 * s.name?.toList.length := by
  cases s with
  | literal l =>
      have htext : (l.text.map Piece.char).flatMap Piece.pattern = l.text := by
        rw [List.flatMap_map]
        exact List.flatMap_singleton' l.text
      exact congrArg List.length htext
  | param n => simp [Segment.regex, Segment.text, Segment.name?, Piece.pattern]

theorem length_ending (e : Ending w) : (e.regex.flatMap Piece.pattern).length =
    e.text.length + 9 * (e.segments.filterMap Segment.name?).length +
      3 * e.tailName?.toList.length := by
  cases e with
  | segment s =>
      have h := length_segment s
      cases s with
      | literal l => exact h
      | param n => exact h
  | tail n =>
      simp [Ending.regex, Ending.text, Ending.segments, Ending.tailName?, Piece.pattern]

theorem length_pattern (t : Template w) : (pattern t.regex).length = t.weight + 2 := by
  have hinit : ∀ init : List (Segment w),
      ((init.flatMap fun s ↦ s.regex ++ [.char '/']).flatMap Piece.pattern).length =
        (init.flatMap fun s ↦ s.text ++ ['/']).length +
          9 * (init.filterMap Segment.name?).length := by
    intro init
    induction init with
    | nil => rfl
    | cons s init ih =>
        have hs := length_segment s
        have hname : ((s :: init).filterMap Segment.name?).length =
            s.name?.toList.length + (init.filterMap Segment.name?).length := by
          cases s with
          | literal l => exact (Nat.zero_add _).symm
          | param n => exact Nat.add_comm _ 1
        simp only [List.flatMap_cons, List.flatMap_append, List.length_append, hname, ih, hs]
        simp [Piece.pattern]
        omega
  have hending := length_ending t.ending
  have hinit := hinit t.init
  unfold pattern Template.weight Template.regex Template.text Template.segments
  simp only [List.length_cons, List.length_append, List.flatMap_append, List.filterMap_append,
    List.length_nil]
  omega

end Expand

/-! ## What the pieces match -/

section Matching

variable {β : Type} {rest : Text → Option β} {path v t : Text} {least n k : Nat} {r : β}
variable {regex : List Piece} {name : Text} {found : List (Text × Text)}

theorem greedy_eq_some (h : greedy rest path least n = some (v, r)) :
    ∃ k, least ≤ k ∧ k ≤ n ∧ v = path.take k ∧ rest (path.drop k) = some r ∧
      ∀ j, k < j → j ≤ n → rest (path.drop j) = none := by
  induction n with
  | zero =>
      rw [greedy] at h
      split_ifs at h with hleast
      obtain ⟨r', hr, heq⟩ := Option.map_eq_some_iff.mp h
      obtain ⟨rfl, rfl⟩ := Prod.mk.inj heq
      exact ⟨0, by omega, by omega, rfl, hr, by omega⟩
  | succ n ih =>
      rw [greedy] at h
      split_ifs at h with hleast
      cases hr : rest (path.drop (n + 1)) with
      | some r' =>
          rw [hr] at h
          obtain ⟨rfl, rfl⟩ := Prod.mk.inj (Option.some.inj h)
          exact ⟨n + 1, by omega, by omega, rfl, hr, by omega⟩
      | none =>
          rw [hr] at h
          obtain ⟨k, hk, hkn, hv, hrk, hmore⟩ := ih h
          refine ⟨k, hk, by omega, hv, hrk, fun j hj hjn ↦ ?_⟩
          rcases Nat.lt_or_eq_of_le hjn with hlt | rfl
          · exact hmore j hj (by omega)
          · exact hr

theorem greedy_of (rest : Text → Option β) (path : Text) (hk : least ≤ k) (hkn : k ≤ n)
    (hr : rest (path.drop k) = some r)
    (hmore : ∀ j, k < j → j ≤ n → rest (path.drop j) = none) :
    greedy rest path least n = some (path.take k, r) := by
  induction n with
  | zero =>
      obtain rfl : k = 0 := by omega
      rw [greedy, if_pos (by omega)]
      have hr : rest path = some r := hr
      rw [hr]
      rfl
  | succ n ih =>
      rw [greedy, if_neg (by omega)]
      rcases Nat.lt_or_eq_of_le hkn with hlt | rfl
      · rw [hmore (n + 1) hlt (Nat.le_refl _)]
        exact ih (by omega) fun j hj hjn ↦ hmore j hj (by omega)
      · rw [hr]

theorem groups_literal_iff {l : Text} :
    groups (l.map .char ++ regex) path = some found ↔
      ∃ t, path = l ++ t ∧ groups regex t = some found := by
  induction l generalizing path with
  | nil => simp
  | cons c l ih =>
      cases path with
      | nil => simp [groups]
      | cons d path =>
          rw [List.map_cons, List.cons_append, groups]
          split_ifs with hd
          · subst hd
            rw [ih]
            simp
          · simp only [List.cons_append, List.cons.injEq, false_iff]
            rintro ⟨t, ⟨rfl, _⟩, _⟩
            exact hd rfl

theorem groups_nil_of_mem {c : Char} (hc : c ∈ path) (hne : c ≠ '\n') :
    groups [] path = none := by
  refine if_neg ?_
  rintro (rfl | rfl)
  · cases hc
  · exact hne (List.mem_singleton.mp hc)

theorem drop_append_ne_nil {k : Nat} (hk : k < v.length) (t : Text) :
    ∃ c ∈ v, ∃ u, (v ++ t).drop k = c :: (u ++ t) ∧ u = v.drop (k + 1) := by
  refine ⟨v[k], List.getElem_mem hk, v.drop (k + 1), ?_, rfl⟩
  rw [List.drop_append_of_le_length hk.le, List.drop_eq_getElem_cons hk]
  rfl

/-- A `{name}` before a slash takes what comes before the slash. -/
theorem groups_segment_slash_iff :
    groups (.segment name :: .char '/' :: regex) path = some found ↔
      ∃ v t found', path = v ++ '/' :: t ∧ v ≠ [] ∧ '/' ∉ v ∧
        groups regex t = some found' ∧ found = (name, v) :: found' := by
  obtain ⟨v, t, rfl, hv, ht, htake⟩ := exists_split '/' path
  have hmore : ∀ k, k < v.length → groups (.char '/' :: regex) ((v ++ t).drop k) = none := by
    intro k hk
    obtain ⟨c, hc, u, hdrop, _⟩ := drop_append_ne_nil hk t
    have hne : c ≠ '/' := fun heq ↦ hv (heq ▸ hc)
    rw [hdrop, groups, if_neg hne]
  rw [groups, htake]
  constructor
  · intro h
    obtain ⟨⟨u, r⟩, hgreedy, rfl⟩ := Option.map_eq_some_iff.mp h
    obtain ⟨k, hk, hkv, rfl, hr, _⟩ := greedy_eq_some hgreedy
    rcases Nat.lt_or_eq_of_le hkv with hlt | rfl
    · rw [hmore k hlt] at hr
      cases hr
    · rw [List.drop_left] at hr
      rcases ht with rfl | ⟨t', rfl⟩
      · cases hr
      · refine ⟨v, t', r, rfl, ?_, hv, ?_, ?_⟩
        · rintro rfl
          simp at hk
        · rwa [groups, if_pos rfl] at hr
        · rw [List.take_left]
  · rintro ⟨v', t', found', heq, hne, hv', hr, rfl⟩
    have hsame : v = v' ∧ t = '/' :: t' := by
      rcases ht with rfl | ⟨t'', rfl⟩
      · exact absurd (heq ▸ (by simp : '/' ∈ v' ++ '/' :: t')) (by simpa using hv)
      · obtain ⟨h1, h2⟩ := Table.append_cons_inj hv hv' heq
        exact ⟨h1, by rw [h2]⟩
    obtain ⟨rfl, rfl⟩ := hsame
    have hlength : 1 ≤ v.length := List.length_pos_iff.mpr hne
    have hslash : groups (.char '/' :: regex) ((v ++ '/' :: t').drop v.length) = some found' := by
      rw [List.drop_left, groups, if_pos rfl, hr]
    rw [greedy_of _ (v ++ '/' :: t') hlength (le_refl _) hslash fun j hj hjv ↦ by omega,
      List.take_left]
    rfl

/-- A `{name}` at the end takes what is left, which has no slash. -/
theorem groups_segment_end_iff :
    groups [.segment name] path = some found ↔
      path ≠ [] ∧ '/' ∉ path ∧ found = [(name, path)] := by
  obtain ⟨v, t, rfl, hv, ht, htake⟩ := exists_split '/' path
  have hend : groups [] (v.drop v.length) = some [] := by simp [groups]
  rw [groups, htake]
  constructor
  · intro h
    obtain ⟨⟨u, r⟩, hgreedy, rfl⟩ := Option.map_eq_some_iff.mp h
    obtain ⟨k, hk, hkv, rfl, hr, hmore⟩ := greedy_eq_some hgreedy
    rcases ht with rfl | ⟨t', rfl⟩
    · rw [List.append_nil] at hr hmore ⊢
      have hlast : k = v.length := by
        by_contra hne
        rw [hmore v.length (by omega) (le_refl _)] at hend
        cases hend
      subst hlast
      obtain rfl := Option.some.inj (hr.symm.trans hend)
      refine ⟨?_, hv, by rw [List.take_length]⟩
      rintro rfl
      simp at hk
    · have hmem : '/' ∈ (v ++ '/' :: t').drop k := by
        rw [List.drop_append_of_le_length hkv]
        simp
      rw [groups_nil_of_mem hmem (by decide)] at hr
      cases hr
  · rintro ⟨hne, hslash, rfl⟩
    obtain rfl : t = [] := by
      rcases ht with rfl | ⟨t', rfl⟩
      · rfl
      · simp at hslash
    rw [List.append_nil] at hne ⊢
    have hlength : 1 ≤ v.length := List.length_pos_iff.mpr hne
    rw [greedy_of _ v hlength (le_refl _) hend fun j hj hjv ↦ by omega, List.take_length]
    rfl

theorem groups_nil_iff :
    groups [] path = some found ↔ (path = [] ∨ path = ['\n']) ∧ found = [] := by
  rw [groups]
  split_ifs with h
  · simp [h, eq_comm]
  · simp [h]

/-- A `{name...}` takes a line, and a newline may follow it. -/
theorem groups_tail_iff :
    groups [.tail name] path = some found ↔
      ∃ v, (path = v ∨ path = v ++ ['\n']) ∧ '\n' ∉ v ∧ found = [(name, v)] := by
  obtain ⟨v, t, rfl, hv, ht, htake⟩ := exists_split '\n' path
  rw [groups, htake]
  constructor
  · intro h
    obtain ⟨⟨u, r⟩, hgreedy, rfl⟩ := Option.map_eq_some_iff.mp h
    obtain ⟨k, hk, hkv, rfl, hr, _⟩ := greedy_eq_some hgreedy
    obtain ⟨hrest, rfl⟩ := groups_nil_iff.mp hr
    rcases Nat.lt_or_eq_of_le hkv with hlt | rfl
    · obtain ⟨c, hc, u, hdrop, _⟩ := drop_append_ne_nil hlt t
      rw [hdrop] at hrest
      rcases hrest with hrest | hrest
      · cases hrest
      · obtain ⟨rfl, _⟩ := List.cons.inj hrest
        exact absurd hc hv
    · rw [List.drop_left] at hrest
      refine ⟨v, ?_, hv, by rw [List.take_left]⟩
      rcases hrest with rfl | rfl
      · exact .inl (List.append_nil v)
      · exact .inr rfl
  · rintro ⟨v', heq, hv', rfl⟩
    have hsame : v = v' ∧ (t = [] ∨ t = ['\n']) := by
      rcases ht with rfl | ⟨t', rfl⟩
      · rw [List.append_nil] at heq
        rcases heq with rfl | rfl
        · exact ⟨rfl, .inl rfl⟩
        · simp at hv
      · rcases heq with rfl | heq
        · simp at hv'
        · obtain ⟨rfl, rfl⟩ := Table.append_cons_inj hv hv' heq
          exact ⟨rfl, .inr rfl⟩
    obtain ⟨rfl, hrest⟩ := hsame
    have hend : groups [] ((v ++ t).drop v.length) = some [] := by
      rw [List.drop_left]
      exact groups_nil_iff.mpr ⟨hrest, rfl⟩
    rw [greedy_of _ (v ++ t) (Nat.zero_le _) (le_refl _) hend fun j hj hjv ↦ by omega,
      List.take_left]
    rfl

/-! ## What a template captures -/

variable {w}

/-- The parts of a path that stand where the template has names. -/
def captured (segments : List (Segment w)) (parts : List Text) : List (Text × Text) :=
  (segments.zip parts).filterMap fun p ↦ p.1.name?.map fun name ↦ (name, p.2)

theorem Literal.slash_not_mem (l : Literal) : '/' ∉ l.text :=
  fun h ↦ absurd (List.all_eq_true.mp l.plain _ h) (by decide)

theorem groups_ending (e : Ending w) (h : groups e.regex path = some found) :
    ∃ tail, found = captured e.segments (path.splitOn '/') ++ tail ∧
      tail.map Prod.fst = e.tailName?.toList := by
  cases e with
  | segment s =>
      cases s with
      | literal l =>
          have hregex : (Ending.segment (.literal l) : Ending w).regex = l.text.map .char ++ [] :=
            (List.append_nil _).symm
          rw [hregex] at h
          obtain ⟨t, _, ht⟩ := groups_literal_iff.mp h
          obtain ⟨_, rfl⟩ := groups_nil_iff.mp ht
          refine ⟨[], ?_, rfl⟩
          cases path.splitOn '/' with
          | nil => rfl
          | cons part parts => rfl
      | param n =>
          obtain ⟨_, hslash, rfl⟩ := groups_segment_end_iff.mp h
          refine ⟨[], ?_, rfl⟩
          rw [List.splitOn_eq_singleton hslash]
          rfl
  | tail n =>
      obtain ⟨v, _, _, rfl⟩ := groups_tail_iff.mp h
      exact ⟨[(n.text, v)], rfl, rfl⟩

theorem groups_template (init : List (Segment w)) (e : Ending w)
    (h : groups (init.flatMap (fun s ↦ s.regex ++ [.char '/']) ++ e.regex) path = some found) :
    ∃ tail, found = captured (init ++ e.segments) (path.splitOn '/') ++ tail ∧
      tail.map Prod.fst = e.tailName?.toList := by
  induction init generalizing path found with
  | nil => exact groups_ending e h
  | cons s init ih =>
      rw [List.flatMap_cons, List.append_assoc, List.append_assoc, List.singleton_append] at h
      cases s with
      | literal l =>
          obtain ⟨t, rfl, ht⟩ := groups_literal_iff.mp h
          have hslash : (['/'] : Text).map Piece.char ++
              (init.flatMap (fun s ↦ s.regex ++ [.char '/']) ++ e.regex) =
              .char '/' :: (init.flatMap (fun s ↦ s.regex ++ [.char '/']) ++ e.regex) := rfl
          rw [← hslash] at ht
          obtain ⟨t, rfl, ht⟩ := groups_literal_iff.mp ht
          obtain ⟨tail, rfl, htail⟩ := ih ht
          refine ⟨tail, ?_, htail⟩
          rw [List.singleton_append, List.splitOn_append_cons_self_of_not_mem l.slash_not_mem]
          rfl
      | param n =>
          obtain ⟨v, t, found', rfl, _, hv, ht, rfl⟩ := groups_segment_slash_iff.mp h
          obtain ⟨tail, rfl, htail⟩ := ih ht
          refine ⟨tail, ?_, htail⟩
          rw [List.splitOn_append_cons_self_of_not_mem hv]
          rfl

/-- A match captures the parts of the path under the names, and then the tail. -/
theorem groups_eq_captured (t : Template w) (h : groups t.regex path = some found) :
    ∃ tail, found = captured t.segments (path.splitOn '/') ++ tail ∧
      tail.map Prod.fst = t.ending.tailName?.toList :=
  groups_template t.init t.ending h

theorem captured_names (segments : List (Segment w)) (parts : List Text) :
    List.Sublist ((captured segments parts).map Prod.fst)
      (segments.filterMap Segment.name?) := by
  induction segments generalizing parts with
  | nil => simp [captured]
  | cons s segments ih =>
      cases parts with
      | nil => simp [captured]
      | cons part parts =>
          cases s with
          | literal l => exact ih parts
          | param n => exact (ih parts).cons_cons n.text

end Matching

end ChipEvolve.Gateway.Routing
