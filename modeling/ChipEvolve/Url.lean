import ChipEvolve.FirstOf
import ChipEvolve.Percent
import ChipEvolve.Separated

/-!
# Targets and queries

`urlparse` of a text that starts with a slash, which has no scheme, and the query
functions `parse_qs` and `urlencode`.  What is decoded is compared by its segments
and by its values for each key.
-/

namespace Url

open Percent Separated

/-! ## Parsing a target -/

structure Parsed where
  path : List Char
  query : List Char
  deriving DecidableEq

/-- `_splitparams`: parameters begin after a semicolon in the last segment. -/
def withoutParams (path : List Char) : List Char := cutAt ';' '/' path

/-- A path, a query and a fragment. -/
def parsePath (text : List Char) : Parsed :=
  let (url, query) := splitFirst '?' (splitFirst '#' text).1
  { path := withoutParams url, query := query }

def isAuthority (c : Char) : Bool := c ≠ '/' && c ≠ '?' && c ≠ '#'

/-- Tabs and line ends are taken out; two slashes begin a network location, which may not
be acceptable. -/
def urlparse? (acceptsNetloc : List Char → Bool) (target : List Char) : Option Parsed :=
  let url := target.filter fun c ↦ c ≠ '\t' && c ≠ '\r' && c ≠ '\n'
  if ['/', '/'].isPrefixOf url then
    if acceptsNetloc ((url.drop 2).takeWhile isAuthority) then
      some (parsePath ((url.drop 2).dropWhile isAuthority))
    else none
  else some (parsePath url)

/-- `[unquote(s) for s in path.split("/")]` -/
def segments (path : List Char) : List (List Char) := (path.splitOn '/').map unquote

/-! ## Queries -/

/-- A field of a query: `None` if it is left out. -/
def parseField? (keepBlank : Bool) (field : List Char) : Option (List Char × List Char) :=
  let (name, value) := splitFirst '=' field
  if field = [] ∨ value = [] ∧ keepBlank = false then none
  else some (unquotePlus name, unquotePlus value)

/-- `parse_qsl` -/
def parseQsl (keepBlank : Bool) (query : List Char) : List (List Char × List Char) :=
  (query.splitOn '&').filterMap (parseField? keepBlank)

/-- `values.append(value)` under a key of a dictionary, in the order of the first insertions. -/
def addValue {κ β : Type} [DecidableEq κ] : List (κ × List β) → κ × β → List (κ × List β)
  | [], (key, value) => [(key, [value])]
  | (k, values) :: dict, (key, value) =>
      if k = key then (k, values ++ [value]) :: dict
      else (k, values) :: addValue dict (key, value)

/-- `parse_qs` -/
def parseQs (keepBlank : Bool) (query : List Char) : List (List Char × List (List Char)) :=
  (parseQsl keepBlank query).foldl addValue []

/-- `[(key, value) for key, values in dict.items() for value in values]` -/
def pairs {κ β : Type} (dict : List (κ × List β)) : List (κ × β) :=
  dict.flatMap fun entry ↦ entry.2.map fun value ↦ (entry.1, value)

/-- `urlencode` of pairs -/
def urlencode (fields : List (List Char × List Char)) : List Char :=
  ['&'].intercalate (fields.map fun field ↦ quotePlus field.1 ++ '=' :: quotePlus field.2)

/-- `dict.get(key, [])` -/
def values {κ β : Type} [DecidableEq κ] (dict : List (κ × List β)) (key : κ) : List β :=
  ((dict.find? fun entry ↦ entry.1 = key).map Prod.snd).getD []

/-! ## Parsing what is in order -/

section Parse

variable {acceptsNetloc : List Char → Bool} {xs ys target : List Char}

theorem parsePath_append (hhash : '#' ∉ xs) (hmark : '?' ∉ xs) (ys : List Char) :
    parsePath (xs ++ '/' :: ys) =
      { path := xs ++ '/' :: (parsePath ys).path, query := (parsePath ys).query } := by
  have hslash : xs ++ '/' :: ys = (xs ++ ['/']) ++ ys := by simp
  have hhash' : '#' ∉ xs ++ ['/'] := by simp [hhash]
  have hmark' : '?' ∉ xs ++ ['/'] := by simp [hmark]
  unfold parsePath
  rw [hslash, splitFirst_append_left hhash', splitFirst_append_left hmark']
  simp only [withoutParams, List.append_assoc, List.singleton_append]
  rw [cutAt_append_cons (by decide)]

theorem filter_clean (hclean : ∀ c ∈ target, c ≠ '\t' ∧ c ≠ '\r' ∧ c ≠ '\n') :
    target.filter (fun c ↦ c ≠ '\t' && c ≠ '\r' && c ≠ '\n') = target := by
  rw [List.filter_eq_self]
  intro c hc
  obtain ⟨htab, hreturn, hline⟩ := hclean c hc
  simp [htab, hreturn, hline]

theorem urlparse?_of_single_slash
    (hclean : ∀ c ∈ target, c ≠ '\t' ∧ c ≠ '\r' ∧ c ≠ '\n')
    (hsingle : ['/', '/'].isPrefixOf target = false) :
    urlparse? acceptsNetloc target = some (parsePath target) := by
  rw [urlparse?, filter_clean hclean, hsingle]
  rfl

/-- What is before a fragment and a query. -/
def beforeMarks (text : List Char) : List Char := (splitFirst '?' (splitFirst '#' text).1).1

theorem beforeMarks_isPrefix (text : List Char) : beforeMarks text <+: text :=
  (splitFirst_isPrefix _ _).trans (splitFirst_isPrefix _ _)

theorem not_mem_beforeMarks (text : List Char) : '#' ∉ beforeMarks text ∧ '?' ∉ beforeMarks text :=
  ⟨fun h ↦ not_mem_splitFirst '#' text ((splitFirst_isPrefix _ _).subset h),
    not_mem_splitFirst _ _⟩

theorem beforeMarks_append (hhash : '#' ∉ xs) (hmark : '?' ∉ xs) (ys : List Char) :
    beforeMarks (xs ++ ys) = xs ++ beforeMarks ys := by
  unfold beforeMarks
  rw [splitFirst_append_left hhash, splitFirst_append_left hmark]

theorem length_parsePath_path (text : List Char) :
    (parsePath text).path.length ≤ (beforeMarks text).length :=
  (cutAt_isPrefix _ _ _).length_le

/-- A path is no longer than the target before its marks, and as long only if there is
no network location. -/
theorem length_urlparse?_path {rest : List Char} {parsed : Parsed}
    (hclean : ∀ c ∈ '/' :: rest, c ≠ '\t' ∧ c ≠ '\r' ∧ c ≠ '\n')
    (h : urlparse? acceptsNetloc ('/' :: rest) = some parsed) :
    parsed.path.length ≤ (beforeMarks rest).length + 1 ∧
      (parsed.path.length = (beforeMarks rest).length + 1 →
        rest.head? ≠ some '/' ∧ parsed.path = '/' :: beforeMarks rest) := by
  have hmarks : beforeMarks ('/' :: rest) = '/' :: beforeMarks rest :=
    @beforeMarks_append ['/'] (by decide) (by decide) rest
  by_cases hdouble : rest.head? = some '/'
  · obtain ⟨tail, rfl⟩ := List.head?_eq_some_iff.mp hdouble
    have hauthority : ∀ c ∈ '/' :: tail.takeWhile isAuthority, c ≠ '#' ∧ c ≠ '?' := by
      intro c hc
      rcases List.mem_cons.mp hc with rfl | hc
      · decide
      · have hauth := List.mem_takeWhile_imp hc
        simp only [isAuthority, Bool.and_eq_true, decide_eq_true_eq] at hauth
        exact ⟨hauth.2, hauth.1.2⟩
    have hlocation : '/' :: tail = ('/' :: tail.takeWhile isAuthority) ++
        tail.dropWhile isAuthority := by
      rw [List.cons_append, List.takeWhile_append_dropWhile]
    have hbefore : beforeMarks ('/' :: tail) = ('/' :: tail.takeWhile isAuthority) ++
        beforeMarks (tail.dropWhile isAuthority) := by
      rw [hlocation, beforeMarks_append (fun h ↦ (hauthority _ h).1 rfl)
        (fun h ↦ (hauthority _ h).2 rfl)]
    have hpath : parsed.path.length < (beforeMarks ('/' :: tail)).length := by
      rw [urlparse?, filter_clean hclean] at h
      simp only [List.drop_succ_cons, List.drop_zero] at h
      rw [if_pos (by rfl)] at h
      split_ifs at h with haccepts
      obtain rfl := Option.some.inj h
      have hlength := length_parsePath_path (tail.dropWhile isAuthority)
      rw [hbefore, List.length_append, List.length_cons]
      omega
    exact ⟨by omega, fun heq ↦ by omega⟩
  · have hsingle : ['/', '/'].isPrefixOf ('/' :: rest) = false := by
      cases rest with
      | nil => rfl
      | cons d rest =>
          have hne : d ≠ '/' := by simpa using hdouble
          simp [List.isPrefixOf, Ne.symm hne]
    rw [urlparse?_of_single_slash hclean hsingle] at h
    obtain rfl := Option.some.inj h
    have hlength := length_parsePath_path ('/' :: rest)
    rw [hmarks, List.length_cons] at hlength
    refine ⟨hlength, fun heq ↦ ⟨hdouble, ?_⟩⟩
    have hprefix : (parsePath ('/' :: rest)).path <+: beforeMarks ('/' :: rest) :=
      cutAt_isPrefix _ _ _
    rw [hmarks] at hprefix
    exact hprefix.eq_of_length (by rw [heq, List.length_cons])

end Parse

/-! ## Dictionaries of lists -/

section Values

variable {κ β : Type} [DecidableEq κ] {dict : List (κ × List β)} {fields : List (κ × β)}

def valuesOf (fields : List (κ × β)) (key : κ) : List β :=
  (fields.filter fun field ↦ field.1 = key).map Prod.snd

theorem valuesOf_append (fields fields' : List (κ × β)) (key : κ) :
    valuesOf (fields ++ fields') key = valuesOf fields key ++ valuesOf fields' key := by
  rw [valuesOf, List.filter_append, List.map_append]
  rfl

theorem values_cons (k key : κ) (vs : List β) (dict : List (κ × List β)) :
    values ((k, vs) :: dict) key = if k = key then vs else values dict key := by
  unfold values
  by_cases h : k = key <;> simp [h]

theorem values_addValue (dict : List (κ × List β)) (key : κ) (value : β) (k : κ) :
    values (addValue dict (key, value)) k = values dict k ++ if key = k then [value] else [] := by
  induction dict with
  | nil => exact values_cons _ _ _ _
  | cons entry dict ih =>
      obtain ⟨k', vs⟩ := entry
      unfold addValue
      by_cases hk : k' = key
      · rw [if_pos hk, values_cons, values_cons]
        subst hk
        by_cases hkey : k' = k <;> simp [hkey]
      · rw [if_neg hk, values_cons, values_cons, ih]
        by_cases hkey : k' = k
        · have hne : key ≠ k := fun heq ↦ hk (hkey.trans heq.symm)
          simp [hkey, hne]
        · simp [hkey]

theorem values_foldl (fields : List (κ × β)) (dict : List (κ × List β)) (key : κ) :
    values (fields.foldl addValue dict) key = values dict key ++ valuesOf fields key := by
  induction fields generalizing dict with
  | nil => simp [valuesOf]
  | cons field fields ih =>
      obtain ⟨k, value⟩ := field
      rw [List.foldl_cons, ih, values_addValue, List.append_assoc]
      congr 1
      unfold valuesOf
      by_cases h : k = key <;> simp [h]

theorem addValue_of_not_mem {key : κ} (h : key ∉ dict.map Prod.fst) (value : β) :
    addValue dict (key, value) = dict ++ [(key, [value])] := by
  induction dict with
  | nil => rfl
  | cons entry dict ih =>
      rw [List.map_cons, List.mem_cons, not_or] at h
      rw [addValue, if_neg (Ne.symm h.1), ih h.2]
      rfl

theorem addValue_concat {key : κ} (h : key ∉ dict.map Prod.fst) (values : List β) (value : β) :
    addValue (dict ++ [(key, values)]) (key, value) = dict ++ [(key, values ++ [value])] := by
  induction dict with
  | nil => rw [List.nil_append, addValue, if_pos rfl]; rfl
  | cons entry dict ih =>
      rw [List.map_cons, List.mem_cons, not_or] at h
      rw [List.cons_append, addValue, if_neg (Ne.symm h.1), ih h.2]
      rfl

/-- The values of one key are gathered under it. -/
theorem foldl_addValue_concat {key : κ} (h : key ∉ dict.map Prod.fst) (values more : List β) :
    (more.map fun value ↦ (key, value)).foldl addValue (dict ++ [(key, values)]) =
      dict ++ [(key, values ++ more)] := by
  induction more generalizing values with
  | nil => simp
  | cons value more ih =>
      rw [List.map_cons, List.foldl_cons, addValue_concat h, ih, List.append_assoc]
      rfl

/-- A dictionary without empty lists is gathered from its pairs. -/
theorem foldl_addValue_pairs (hnodup : (dict.map Prod.fst).Nodup)
    (hne : ∀ entry ∈ dict, entry.2 ≠ []) : (pairs dict).foldl addValue [] = dict := by
  have hfold : ∀ done todo : List (κ × List β), ((done ++ todo).map Prod.fst).Nodup →
      (∀ entry ∈ todo, entry.2 ≠ []) → (pairs todo).foldl addValue done = done ++ todo := by
    intro done todo
    induction todo generalizing done with
    | nil => simp [pairs]
    | cons entry todo ih =>
        obtain ⟨key, values⟩ := entry
        intro hnodup hne
        rw [List.forall_mem_cons] at hne
        obtain ⟨value, more, rfl⟩ := List.exists_cons_of_ne_nil hne.1
        have hkey : key ∉ done.map Prod.fst := by
          intro hmem
          rw [List.map_append, List.nodup_append] at hnodup
          exact hnodup.2.2 key hmem key (by simp) rfl
        have hpairs : pairs ((key, value :: more) :: todo) =
            (key, value) :: (more.map fun value ↦ (key, value)) ++ pairs todo := rfl
        rw [hpairs, List.cons_append, List.foldl_cons, addValue_of_not_mem hkey,
          List.foldl_append, foldl_addValue_concat hkey, List.singleton_append,
          ih (done ++ [(key, value :: more)]) (by simpa using hnodup) hne.2]
        simp
  exact hfold [] dict hnodup hne

theorem keys_addValue (dict : List (κ × List β)) (key : κ) (value : β) :
    (addValue dict (key, value)).map Prod.fst =
      if key ∈ dict.map Prod.fst then dict.map Prod.fst else dict.map Prod.fst ++ [key] := by
  induction dict with
  | nil => rfl
  | cons entry dict ih =>
      obtain ⟨k, vs⟩ := entry
      unfold addValue
      by_cases hk : k = key
      · simp [hk]
      · rw [if_neg hk, List.map_cons, ih]
        simp only [List.map_cons, List.mem_cons, Ne.symm hk, false_or]
        split_ifs <;> rfl

theorem nodup_foldl (fields : List (κ × β)) (h : (dict.map Prod.fst).Nodup) :
    ((fields.foldl addValue dict).map Prod.fst).Nodup := by
  induction fields generalizing dict with
  | nil => exact h
  | cons field fields ih =>
      refine ih ?_
      rw [keys_addValue]
      split_ifs with hkey
      · exact h
      · rw [List.nodup_append]
        refine ⟨h, by simp, fun a ha b hb ↦ ?_⟩
        rw [List.mem_singleton.mp hb]
        exact fun heq ↦ hkey (heq ▸ ha)

/-- A dictionary has each key once, so its pairs have its values. -/
theorem valuesOf_pairs (h : (dict.map Prod.fst).Nodup) (key : κ) :
    valuesOf (pairs dict) key = values dict key := by
  induction dict with
  | nil => rfl
  | cons entry dict ih =>
      obtain ⟨k, vs⟩ := entry
      rw [List.map_cons, List.nodup_cons] at h
      have hpairs : pairs ((k, vs) :: dict) = vs.map (fun value ↦ (k, value)) ++ pairs dict := rfl
      rw [hpairs, valuesOf_append, ih h.2, values_cons]
      by_cases hk : k = key
      · have hnone : dict.find? (fun entry ↦ entry.1 = key) = none := by
          rw [List.find?_eq_none]
          intro entry hentry heq
          have hkey : entry.1 = k := (of_decide_eq_true heq).trans hk.symm
          exact h.1 (List.mem_map.mpr ⟨entry, hentry, hkey⟩)
        have hrest : values dict key = [] := by rw [values, hnone]; rfl
        have hvalues : valuesOf (vs.map fun value ↦ (k, value)) key = vs := by
          simp [valuesOf, hk, List.filter_map, Function.comp_def]
        rw [hrest, hvalues, if_pos hk, List.append_nil]
      · simp [valuesOf, hk, List.filter_map, Function.comp_def]

end Values

/-! ## Segments -/

section Segments

variable {path : List Char}

/-- Decoding a text without escaped slashes decodes its segments. -/
theorem segments_eq (h : 0x2F ∉ escapes path) : segments path = (unquote path).splitOn '/' := by
  unfold segments
  induction path using split_induction '/' with
  | last part hpart =>
      have hout : '/' ∉ unquote part := fun hmem ↦ h ((slash_mem_unquote_iff hpart).mp hmem)
      rw [List.splitOn_eq_singleton hpart, List.splitOn_eq_singleton hout]
      rfl
  | first part rest hpart ih =>
      rw [escapes_append_cons (by decide), List.mem_append, not_or] at h
      have hout : '/' ∉ unquote part := fun hmem ↦ h.1 ((slash_mem_unquote_iff hpart).mp hmem)
      rw [List.splitOn_append_cons_self_of_not_mem hpart,
        unquote_append_cons (by decide) (by decide),
        List.splitOn_append_cons_self_of_not_mem hout, List.map_cons, ih h.2]

theorem intercalate_segments (path : List Char) :
    ['/'].intercalate (segments path) = unquote path := by
  unfold segments
  induction path using split_induction '/' with
  | last part hpart =>
      rw [List.splitOn_eq_singleton hpart]
      simp
  | first part rest hpart ih =>
      have hne : (rest.splitOn '/').map unquote ≠ [] := by
        simp [List.splitOn_ne_nil]
      rw [List.splitOn_append_cons_self_of_not_mem hpart, List.map_cons,
        List.intercalate_cons_of_ne_nil hne, ih, unquote_append_cons (by decide) (by decide)]
      simp

theorem length_segments (path : List Char) : (segments path).length = path.count '/' + 1 := by
  rw [segments, List.length_map, length_splitOn]

end Segments

/-! ## Fields of a query -/

section Fields

variable {field query : List Char} {fields : List (List Char × List Char)}

theorem not_mem_quotePlus {c : Char} (text : List Char) (hsafe : isUnreserved c = false)
    (hpercent : c ≠ '%') (hplus : c ≠ '+') : c ∉ quotePlus text := by
  intro h
  rcases mem_quotePlus h with h | h | h
  · simp [hsafe] at h
  · exact hpercent h
  · exact hplus h

theorem parseField?_urlencode (keepBlank : Bool) (name value : List Char)
    (hvalue : keepBlank = true) :
    parseField? keepBlank (quotePlus name ++ '=' :: quotePlus value) = some (name, value) := by
  have hname : '=' ∉ quotePlus name := not_mem_quotePlus name rfl (by decide) (by decide)
  rw [parseField?, splitFirst_append hname]
  simp [hvalue, unquotePlus_quotePlus]

/-- Writing fields and reading them with their blanks. -/
theorem parseQsl_urlencode (fields : List (List Char × List Char)) :
    parseQsl true (urlencode fields) = fields := by
  cases hfields : fields with
  | nil => rfl
  | cons field rest =>
      rw [← hfields]
      have hand : ∀ part ∈ fields.map fun field ↦ quotePlus field.1 ++ '=' :: quotePlus field.2,
          '&' ∉ part := by
        intro part hpart
        obtain ⟨field, _, rfl⟩ := List.mem_map.mp hpart
        rw [List.mem_append, List.mem_cons]
        rintro (h | h | h)
        · exact not_mem_quotePlus _ rfl (by decide) (by decide) h
        · cases h
        · exact not_mem_quotePlus _ rfl (by decide) (by decide) h
      rw [parseQsl, urlencode, List.splitOn_intercalate '&' hand (by simp [hfields]),
        List.filterMap_map]
      have hread : (parseField? true ∘ fun field ↦ quotePlus field.1 ++ '=' :: quotePlus field.2) =
          some := funext fun field ↦ parseField?_urlencode true field.1 field.2 rfl
      rw [hread, List.filterMap_some]

/-- Reading without the blanks leaves them out. -/
theorem parseQsl_blank (query : List Char) :
    parseQsl false query = (parseQsl true query).filter (·.2 ≠ []) := by
  unfold parseQsl
  rw [List.filter_filterMap]
  refine List.filterMap_congr fun field _ ↦ ?_
  have hblank := @unquotePlus_eq_nil_iff (splitFirst '=' field).2
  unfold parseField?
  by_cases hfield : field = []
  · simp [hfield]
  · by_cases hvalue : (splitFirst '=' field).2 = []
    · have hnil : unquotePlus [] = [] := unquotePlus_eq_nil_iff.mpr rfl
      simp [hfield, hvalue, hnil, Option.filter_some]
    · simp [hfield, hvalue, hblank, Option.filter_some]

/-- What a query can be written with. -/
theorem mem_urlencode {c : Char} (h : c ∈ urlencode fields) :
    isUnreserved c = true ∨ c = '%' ∨ c = '+' ∨ c = '=' ∨ c = '&' := by
  unfold urlencode at h
  induction fields with
  | nil => cases h
  | cons field fields ih =>
      have hfield : c ∈ quotePlus field.1 ++ '=' :: quotePlus field.2 →
          isUnreserved c = true ∨ c = '%' ∨ c = '+' ∨ c = '=' ∨ c = '&' := by
        intro h
        rw [List.mem_append, List.mem_cons] at h
        rcases h with h | h | h
        · rcases mem_quotePlus h with h | h | h <;> simp [h]
        · simp [h]
        · rcases mem_quotePlus h with h | h | h <;> simp [h]
      cases hrest : fields with
      | nil =>
          subst hrest
          exact hfield (by simpa using h)
      | cons next rest =>
          have hne : fields.map (fun field ↦ quotePlus field.1 ++ '=' :: quotePlus field.2) ≠
              [] := by
            simp [hrest]
          rw [List.map_cons, List.intercalate_cons_of_ne_nil hne] at h
          rcases List.mem_append.mp h with h | h
          · rcases List.mem_append.mp h with h | h
            · exact hfield h
            · simp [List.mem_singleton.mp h]
          · exact ih h

theorem urlencode_visible {c : Char} (h : c ∈ urlencode fields) :
    0x20 < c.toNat ∧ c.toNat < 0x7F ∧ c ≠ '#' ∧ c ≠ '?' := by
  have hne : ∀ d : Char, c.toNat ≠ d.toNat → c ≠ d := fun d hne heq ↦ hne (heq ▸ rfl)
  rcases mem_urlencode h with h | rfl | rfl | rfl | rfl
  · have hrange := isUnreserved_iff.mp h
    refine ⟨by omega, by omega, hne _ ?_, hne _ ?_⟩
    · simp only [Char.reduceToNat]
      omega
    · simp only [Char.reduceToNat]
      omega
  · decide
  · decide
  · decide
  · decide

/-- A field whose value is blank. -/
def isBlankField (field : List Char) : Bool := field ≠ [] && (splitFirst '=' field).2 = []

theorem parseField?_of_not_blank (h : isBlankField field = false) :
    parseField? false field = parseField? true field := by
  unfold parseField?
  by_cases hfield : field = []
  · simp [hfield]
  · have hvalue : (splitFirst '=' field).2 ≠ [] := by simpa [isBlankField, hfield] using h
    simp [hfield, hvalue]

theorem length_valuesOf (keepBlank : Bool) (parts : List (List Char)) (key : List Char) :
    (valuesOf (parts.filterMap (parseField? keepBlank)) key).length =
      parts.countP fun field ↦ (parseField? keepBlank field).any fun f ↦ f.1 = key := by
  induction parts with
  | nil => rfl
  | cons field parts ih =>
      rw [List.countP_cons, ← ih]
      cases h : parseField? keepBlank field with
      | none => simp [h]
      | some f =>
          rw [List.filterMap_cons, h]
          by_cases hkey : f.1 = key <;> simp [valuesOf, hkey]

/-- Leaving the blank values out changes nothing if there are none. -/
theorem valuesOf_parseQsl_iff :
    (∀ key, valuesOf (parseQsl false query) key = valuesOf (parseQsl true query) key) ↔
      ∀ field ∈ query.splitOn '&', isBlankField field = false := by
  constructor
  · intro h field hfield
    by_contra hblank
    have hblank : isBlankField field = true := by simpa using hblank
    obtain ⟨hne, hvalue⟩ : field ≠ [] ∧ (splitFirst '=' field).2 = [] := by
      simpa [isBlankField] using hblank
    have hkept : parseField? true field =
        some (unquotePlus (splitFirst '=' field).1, unquotePlus []) := by
      simp [parseField?, hne, hvalue]
    have hleft : parseField? false field = none := by simp [parseField?, hvalue]
    have hcount := congrArg List.length (h (unquotePlus (splitFirst '=' field).1))
    rw [parseQsl, parseQsl, length_valuesOf, length_valuesOf] at hcount
    have hall := FirstOf.of_countP_eq (fun f hf hany ↦ ?_) hcount field hfield (by simp [hkept])
    · simp [hleft] at hall
    · cases hb : isBlankField f with
      | false => rwa [parseField?_of_not_blank hb] at hany
      | true =>
          have hv : (splitFirst '=' f).2 = [] := by
            simp only [isBlankField, Bool.and_eq_true, decide_eq_true_eq] at hb
            exact hb.2
          simp [parseField?, hv] at hany
  · intro h key
    have hsame : parseQsl false query = parseQsl true query :=
      List.filterMap_congr fun field hfield ↦ parseField?_of_not_blank (h field hfield)
    rw [hsame]

theorem values_parseQs (keepBlank : Bool) (query key : List Char) :
    values (parseQs keepBlank query) key = valuesOf (parseQsl keepBlank query) key := by
  rw [parseQs, values_foldl]
  rfl

/-- Reading a query, writing it and reading it again. -/
theorem values_written (keepBlank : Bool) (query key : List Char) :
    values (parseQs true (urlencode (pairs (parseQs keepBlank query)))) key =
      valuesOf (parseQsl keepBlank query) key := by
  have hnodup : ((parseQs keepBlank query).map Prod.fst).Nodup := nodup_foldl _ List.nodup_nil
  rw [values_parseQs, parseQsl_urlencode, valuesOf_pairs hnodup, values_parseQs]

theorem filter_pairs (dict : List (List Char × List (List Char))) :
    (pairs dict).filter (·.2 ≠ []) =
      pairs ((dict.map fun entry ↦ (entry.1, entry.2.filter (· ≠ []))).filter (·.2 ≠ [])) := by
  induction dict with
  | nil => rfl
  | cons entry dict ih =>
      have hpairs : pairs (entry :: dict) =
          entry.2.map (fun value ↦ (entry.1, value)) ++ pairs dict := rfl
      have hentry : (entry.2.map fun value ↦ (entry.1, value)).filter (·.2 ≠ []) =
          (entry.2.filter (· ≠ [])).map fun value ↦ (entry.1, value) := by
        rw [List.filter_map]
        rfl
      rw [hpairs, List.filter_append, hentry, ih, List.map_cons]
      by_cases hnil : entry.2.filter (· ≠ []) = []
      · rw [hnil, List.filter_cons_of_neg (by simp)]
        rfl
      · rw [List.filter_cons_of_pos (by simpa using hnil)]
        rfl

/-- A dictionary that is written arrives without its blank values. -/
theorem parseQs_urlencode (dict : List (List Char × List (List Char)))
    (h : (dict.map Prod.fst).Nodup) :
    parseQs false (urlencode (pairs dict)) =
      (dict.map fun entry ↦ (entry.1, entry.2.filter (· ≠ []))).filter (·.2 ≠ []) := by
  rw [parseQs, parseQsl_blank, parseQsl_urlencode, filter_pairs]
  refine foldl_addValue_pairs ?_ fun entry hentry ↦ ?_
  · have hkeys : (dict.map fun entry ↦ (entry.1, entry.2.filter (· ≠ []))).map Prod.fst =
        dict.map Prod.fst := by
      rw [List.map_map]
      rfl
    rw [← hkeys] at h
    exact h.sublist (List.filter_sublist.map Prod.fst)
  · simpa using (List.mem_filter.mp hentry).2

/-- What is written without blank values has the values of the query if it has none. -/
theorem values_written_iff :
    (∀ key, values (parseQs true (urlencode (pairs (parseQs false query)))) key =
        values (parseQs true query) key) ↔
      ∀ field ∈ query.splitOn '&', isBlankField field = false := by
  refine Iff.trans (forall_congr' fun key ↦ ?_) valuesOf_parseQsl_iff
  rw [values_written, values_parseQs]

end Fields

end Url
