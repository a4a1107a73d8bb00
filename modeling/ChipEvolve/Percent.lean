import Mathlib.Data.List.Basic
import Mathlib.Tactic.Common

/-!
# Percent encoding

Texts with `%XX` escapes, as `unquote` and `quote_plus` treat them: escapes are octets,
the ASCII characters between them are octets too, and each run of octets is decoded as
UTF-8 with a replacement character for what is not.  A character outside ASCII is
not encoded: it ends the run.
-/

namespace Percent

/-! ## Decoding UTF-8 -/

def replacement : Char := Char.ofNat 0xFFFD

/-- A character that has begun: its bits so far, the range of the next octet, and how many
octets follow that one. -/
structure Begun where
  bits : Nat
  low : Nat
  high : Nat
  more : Nat
  low_le : 0x80 ≤ low
  /-- It will not be an ASCII character. -/
  wide : 2 ≤ bits ∨ 0 < more ∧ 2 ≤ bits * 64 + (low - 0x80)

/-- The first octet of a character of more than one. -/
def lead? (b : Nat) : Option Begun :=
  if h : 0xC2 ≤ b ∧ b ≤ 0xDF then some ⟨b - 0xC0, 0x80, 0xBF, 0, by omega, by omega⟩
  else if b = 0xE0 then some ⟨0, 0xA0, 0xBF, 1, by omega, by omega⟩
  else if b = 0xED then some ⟨0xD, 0x80, 0x9F, 1, by omega, by omega⟩
  else if h : 0xE1 ≤ b ∧ b ≤ 0xEF then some ⟨b - 0xE0, 0x80, 0xBF, 1, by omega, by omega⟩
  else if b = 0xF0 then some ⟨0, 0x90, 0xBF, 2, by omega, by omega⟩
  else if h : 0xF1 ≤ b ∧ b ≤ 0xF3 then some ⟨b - 0xF0, 0x80, 0xBF, 2, by omega, by omega⟩
  else if b = 0xF4 then some ⟨4, 0x80, 0x8F, 2, by omega, by omega⟩
  else none

def Begun.value (s : Begun) (b : Nat) : Nat := s.bits * 64 + (b - 0x80)

theorem Begun.two_le_value (s : Begun) {b : Nat} (h : s.low ≤ b) : 2 ≤ s.value b := by
  have hlow := s.low_le
  rcases s.wide with hwide | ⟨_, hwide⟩ <;> unfold Begun.value <;> omega

def Begun.next (s : Begun) (b : Nat) (h : s.low ≤ b) : Begun where
  bits := s.value b
  low := 0x80
  high := 0xBF
  more := s.more - 1
  low_le := Nat.le_refl _
  wide := .inl (s.two_le_value h)

/-- An octet at the start of a character: what it yields, and what it begins. -/
def start (b : Nat) : List Char × Option Begun :=
  if b < 0x80 then ([Char.ofNat b], none)
  else if (lead? b).isSome then ([], lead? b) else ([replacement], none)

/-- What is left of a character that does not go on. -/
def flush (s : Option Begun) : List Char := if s.isSome then [replacement] else []

/-- The next octet; one that does not continue a character starts another. -/
def feed (s : Option Begun) (b : Nat) : List Char × Option Begun :=
  match s with
  | none => start b
  | some s =>
      if h : s.low ≤ b ∧ b ≤ s.high then
        if s.more = 0 then ([Char.ofNat (s.value b)], none)
        else ([], some (s.next b h.1))
      else (replacement :: (start b).1, (start b).2)

/-! ## Escapes -/

inductive Token where
  | octet (b : Nat)
  | char (c : Char)
  deriving DecidableEq

def hexValue? (c : Char) : Option Nat :=
  if 48 ≤ c.toNat ∧ c.toNat ≤ 57 then some (c.toNat - 48)
  else if 65 ≤ c.toNat ∧ c.toNat ≤ 70 then some (c.toNat - 55)
  else if 97 ≤ c.toNat ∧ c.toNat ≤ 102 then some (c.toNat - 87)
  else none

/-- The octet of three characters that are an escape. -/
def escape? (c x y : Char) : Option Nat :=
  if c = '%' then (hexValue? x).bind fun m ↦ (hexValue? y).map fun n ↦ 16 * m + n else none

/-- A character that no escape begins with. -/
def plain (c : Char) : Token := if c.toNat < 0x80 then .octet c.toNat else .char c

def tokens : List Char → List Token
  | c :: x :: y :: cs =>
      match escape? c x y with
      | some b => .octet b :: tokens cs
      | none => plain c :: tokens (x :: y :: cs)
  | c :: cs => plain c :: tokens cs
  | [] => []

/-- The octets of the escapes of a text. -/
def escapes : List Char → List Nat
  | c :: x :: y :: cs => (escape? c x y).toList ++ escapes (x :: y :: cs)
  | _ => []

def text (s : Option Begun) : List Token → List Char
  | [] => flush s
  | .octet b :: ts => (feed s b).1 ++ text (feed s b).2 ts
  | .char c :: ts => flush s ++ c :: text none ts

/-- `unquote` -/
def unquote (cs : List Char) : List Char := text none (tokens cs)

/-- `unquote_plus` -/
def unquotePlus (cs : List Char) : List Char :=
  unquote (cs.map fun c ↦ if c = '+' then ' ' else c)

/-! ## Encoding -/

def hexDigit (n : Nat) : Char := Char.ofNat (if n < 10 then n + 48 else n + 55)

def escape (b : Nat) : List Char := ['%', hexDigit (b / 16), hexDigit (b % 16)]

def utf8 (c : Char) : List Nat := (String.utf8EncodeChar c).map UInt8.toNat

/-- What `quote` leaves as it is, apart from what it is told to. -/
def isUnreserved (c : Char) : Bool :=
  c.isAlphanum || c = '_' || c = '.' || c = '-' || c = '~'

def quotePlusChar (c : Char) : List Char :=
  if c = ' ' then ['+'] else if isUnreserved c then [c] else (utf8 c).flatMap escape

/-- `quote_plus` -/
def quotePlus (cs : List Char) : List Char := cs.flatMap quotePlusChar

def quoteChar (c : Char) : List Char :=
  if isUnreserved c then [c] else (utf8 c).flatMap escape

/-- `quote(text, safe="")` -/
def quote (cs : List Char) : List Char := cs.flatMap quoteChar

/-! ## What decoding keeps -/

section Decode

variable {s : Option Begun} {b : Nat} {d : Char} {ts us : List Token}

theorem toNat_ofNat (h : b.isValidChar) : (Char.ofNat b).toNat = b := by
  unfold Char.ofNat
  rw [dif_pos h]
  rfl

theorem ofNat_eq_iff (hb : b < 0x80) : Char.ofNat b = d ↔ b = d.toNat := by
  constructor
  · rintro rfl
    exact (toNat_ofNat (.inl (by omega))).symm
  · rintro rfl
    exact Char.ofNat_toNat d

/-- An octet or more that is not ASCII makes no ASCII character (but NUL, for no character). -/
theorem ofNat_ne (hb : 0x80 ≤ b) (hd : 0 < d.toNat) (hascii : d.toNat < 0x80) :
    Char.ofNat b ≠ d := by
  rintro rfl
  by_cases hvalid : b.isValidChar
  · rw [toNat_ofNat hvalid] at hascii
    omega
  · unfold Char.ofNat at hd
    rw [dif_neg hvalid] at hd
    exact absurd hd (by decide)

theorem replacement_ne (hascii : d.toNat < 0x80) : replacement ≠ d := by
  rintro rfl
  exact absurd hascii (by decide)

theorem start_of_lt (hb : b < 0x80) : start b = ([Char.ofNat b], none) := if_pos hb

theorem start_count (hascii : d.toNat < 0x80) :
    (start b).1.count d = if b = d.toNat then 1 else 0 := by
  by_cases hb : b < 0x80
  · rw [start_of_lt hb]
    by_cases heq : Char.ofNat b = d
    · simp [(ofNat_eq_iff hb).mp heq]
    · simp [heq, (ofNat_eq_iff hb).not.mp heq]
  · have hr := replacement_ne hascii
    rw [if_neg (by omega)]
    unfold start
    rw [if_neg hb]
    split_ifs <;> simp [hr]

theorem flush_count (hascii : d.toNat < 0x80) : (flush s).count d = 0 := by
  have hr := replacement_ne hascii
  unfold flush
  split_ifs <;> simp [hr]

theorem feed_last {s : Begun} (h : s.low ≤ b ∧ b ≤ s.high) (hmore : s.more = 0) :
    feed (some s) b = ([Char.ofNat (s.value b)], none) := by
  simp only [feed, dif_pos h, if_pos hmore]

theorem feed_more {s : Begun} (h : s.low ≤ b ∧ b ≤ s.high) (hmore : s.more ≠ 0) :
    feed (some s) b = ([], some (s.next b h.1)) := by
  simp only [feed, dif_pos h, if_neg hmore]

theorem feed_refused {s : Begun} (h : ¬(s.low ≤ b ∧ b ≤ s.high)) :
    feed (some s) b = (replacement :: (start b).1, (start b).2) := by
  simp only [feed, dif_neg h]

/-- An octet yields an ASCII character if it is that character. -/
theorem feed_count (hd : 0 < d.toNat) (hascii : d.toNat < 0x80) :
    (feed s b).1.count d = if b = d.toNat then 1 else 0 := by
  cases s with
  | none => exact start_count hascii
  | some s =>
      have hlow := s.low_le
      by_cases hrange : s.low ≤ b ∧ b ≤ s.high
      · have hne : b ≠ d.toNat := by omega
        rw [if_neg hne]
        by_cases hmore : s.more = 0
        · have hvalue : 0x80 ≤ s.value b := by
            have hwide := s.wide
            unfold Begun.value
            omega
          rw [feed_last hrange hmore]
          simp [ofNat_ne hvalue hd hascii]
        · rw [feed_more hrange hmore]
          rfl
      · rw [feed_refused hrange]
        simp [replacement_ne hascii, start_count hascii]

theorem text_count (hd : 0 < d.toNat) (hascii : d.toNat < 0x80) :
    (text s ts).count d = ts.countP fun t ↦ t = .octet d.toNat ∨ t = .char d := by
  induction ts generalizing s with
  | nil => simp [text, flush_count hascii]
  | cons t ts ih =>
      cases t with
      | octet b =>
          simp only [text, List.count_append, feed_count hd hascii, ih, List.countP_cons]
          by_cases heq : b = d.toNat
          · simp [heq, Nat.add_comm]
          · simp [heq]
      | char c =>
          simp only [text, List.count_append, flush_count hascii, List.count_cons, ih,
            List.countP_cons]
          by_cases heq : c = d
          · simp [heq]
          · simp [heq]

end Decode

/-! ## Where the escapes are -/

section Tokens

variable {c d x y : Char} {cs ds : List Char} {b : Nat}

/-- A character that is in no escape. -/
def isOutside (d : Char) : Bool := d ≠ '%' && (hexValue? d).isNone

/-- The escape that a text begins with. -/
def escapeAt? : List Char → Option Nat
  | c :: x :: y :: _ => escape? c x y
  | _ => none

theorem ne_percent_of_isOutside (hout : isOutside d = true) : d ≠ '%' := by
  rintro rfl
  cases hout

theorem escape?_eq_some (h : escape? c x y = some b) :
    c = '%' ∧ isOutside x = false ∧ isOutside y = false ∧ x ≠ '%' ∧ y ≠ '%' := by
  unfold escape? at h
  split_ifs at h with hc
  obtain ⟨m, hm, h⟩ := Option.bind_eq_some_iff.mp h
  obtain ⟨n, hn, _⟩ := Option.map_eq_some_iff.mp h
  refine ⟨hc, by simp [isOutside, hm], by simp [isOutside, hn], ?_, ?_⟩
  · rintro rfl
    cases hm
  · rintro rfl
    cases hn

theorem escapeAt?_of_ne (hc : c ≠ '%') : escapeAt? (c :: cs) = none := by
  rcases cs with _ | ⟨x, _ | ⟨y, cs⟩⟩
  · rfl
  · rfl
  · exact if_neg hc

/-- What an escape begins with does not depend on a character that is in none. -/
theorem escapeAt?_append_cons (hout : isOutside d = true) (c : Char) (cs ds : List Char) :
    escapeAt? (c :: (cs ++ d :: ds)) = escapeAt? (c :: cs) := by
  rcases cs with _ | ⟨x, _ | ⟨y, cs⟩⟩
  · rcases ds with _ | ⟨y, ds⟩
    · rfl
    · cases h : escape? c d y with
      | none => exact h
      | some b => simp [(escape?_eq_some h).2.1] at hout
  · cases h : escape? c x d with
    | none => exact h
    | some b => simp [(escape?_eq_some h).2.2.1] at hout
  · rfl

theorem tokens_of_escape (h : escape? c x y = some b) :
    tokens (c :: x :: y :: cs) = .octet b :: tokens cs := by
  rw [tokens, h]

theorem tokens_cons (h : escapeAt? (c :: cs) = none) :
    tokens (c :: cs) = plain c :: tokens cs := by
  rcases cs with _ | ⟨x, _ | ⟨y, cs⟩⟩
  · rfl
  · rfl
  · have h' : escape? c x y = none := h
    rw [tokens, h']

theorem escapes_cons (h : escapeAt? (c :: cs) = none) : escapes (c :: cs) = escapes cs := by
  rcases cs with _ | ⟨x, _ | ⟨y, cs⟩⟩
  · rfl
  · rfl
  · have h' : escape? c x y = none := h
    rw [escapes, h']
    rfl

/-- The digits of an escape are in no other. -/
theorem escapes_of_escape (h : escape? c x y = some b) :
    escapes (c :: x :: y :: cs) = b :: escapes cs := by
  obtain ⟨_, _, _, hx, hy⟩ := escape?_eq_some h
  rw [escapes, h, escapes_cons (escapeAt?_of_ne hx), escapes_cons (escapeAt?_of_ne hy)]
  rfl

/-- A text ends, begins with an escape, or begins with a character that stands for itself. -/
@[elab_as_elim]
theorem escape_induction {motive : List Char → Prop} (nil : motive [])
    (escape : ∀ c x y cs b, escape? c x y = some b → motive cs → motive (c :: x :: y :: cs))
    (single : ∀ c cs, escapeAt? (c :: cs) = none → motive cs → motive (c :: cs))
    (cs : List Char) : motive cs := by
  induction cs using tokens.induct with
  | case1 c x y cs b h ih => exact escape c x y cs b h ih
  | case2 c x y cs h ih => exact single c (x :: y :: cs) h ih
  | case3 c cs hshort ih =>
      rcases cs with _ | ⟨x, _ | ⟨y, cs⟩⟩
      · exact single c [] rfl ih
      · exact single c [x] rfl ih
      · exact (hshort x y cs rfl).elim
  | case4 => exact nil

theorem length_tokens (cs : List Char) :
    (tokens cs).length + 2 * (escapes cs).length = cs.length := by
  induction cs using escape_induction with
  | nil => rfl
  | escape c x y cs b h ih =>
      rw [tokens_of_escape h, escapes_of_escape h]
      simp only [List.length_cons]
      omega
  | single c cs h ih =>
      rw [tokens_cons h, escapes_cons h]
      simp only [List.length_cons]
      omega

theorem tokens_of_escapes_eq_nil (h : escapes cs = []) : tokens cs = cs.map plain := by
  induction cs using escape_induction with
  | nil => rfl
  | escape c x y cs b hesc ih =>
      rw [escapes_of_escape hesc] at h
      cases h
  | single c cs hnone ih =>
      rw [escapes_cons hnone] at h
      rw [tokens_cons hnone, ih h]
      rfl

theorem plain_eq_iff (hascii : d.toNat < 0x80) :
    (plain c = .octet d.toNat ∨ plain c = .char d) ↔ c = d := by
  unfold plain
  constructor
  · intro h
    split_ifs at h with hc
    · rcases h with h | h
      · exact Char.toNat_inj.mp (Token.octet.inj h)
      · cases h
    · rcases h with h | h
      · cases h
      · exact Token.char.inj h
  · rintro rfl
    rw [if_pos hascii]
    exact .inl rfl

/-- The tokens of an ASCII character: those that stand for themselves, and the escapes. -/
theorem count_tokens (hout : isOutside d = true) (hascii : d.toNat < 0x80) (cs : List Char) :
    ((tokens cs).countP fun t ↦ t = .octet d.toNat ∨ t = .char d) =
      cs.count d + (escapes cs).count d.toNat := by
  induction cs using escape_induction with
  | nil => rfl
  | escape c x y cs b h ih =>
      obtain ⟨rfl, hx, hy, _⟩ := escape?_eq_some h
      have hdx : x ≠ d := by
        rintro rfl
        simp [hx] at hout
      have hdy : y ≠ d := by
        rintro rfl
        simp [hy] at hout
      have hd : '%' ≠ d := (ne_percent_of_isOutside hout).symm
      rw [tokens_of_escape h, escapes_of_escape h, List.countP_cons, ih]
      simp only [List.count_cons]
      simp [hdx, hdy, hd]
      omega
  | single c cs hnone ih =>
      rw [tokens_cons hnone, escapes_cons hnone, List.countP_cons, ih, List.count_cons]
      simp only [plain_eq_iff hascii, decide_eq_true_eq, beq_iff_eq]
      omega

theorem tokens_append_cons (hout : isOutside d = true) (cs ds : List Char) :
    tokens (cs ++ d :: ds) = tokens cs ++ plain d :: tokens ds := by
  induction cs using escape_induction with
  | nil => exact tokens_cons (escapeAt?_of_ne (ne_percent_of_isOutside hout))
  | escape c x y cs b h ih =>
      rw [tokens_of_escape h, List.cons_append, List.cons_append, List.cons_append,
        tokens_of_escape h, ih]
      rfl
  | single c cs h ih =>
      rw [tokens_cons h, List.cons_append,
        tokens_cons ((escapeAt?_append_cons hout c cs ds).trans h), ih]
      rfl

theorem escapes_append_cons (hout : isOutside d = true) (cs ds : List Char) :
    escapes (cs ++ d :: ds) = escapes cs ++ escapes ds := by
  induction cs using escape_induction with
  | nil => exact escapes_cons (escapeAt?_of_ne (ne_percent_of_isOutside hout))
  | escape c x y cs b h ih =>
      rw [escapes_of_escape h, List.cons_append, List.cons_append, List.cons_append,
        escapes_of_escape h, ih]
      rfl
  | single c cs h ih =>
      rw [escapes_cons h, List.cons_append,
        escapes_cons ((escapeAt?_append_cons hout c cs ds).trans h), ih]

end Tokens

/-! ## Unquoting -/

section Unquote

variable {s : Option Begun} {c d : Char} {cs ds : List Char} {ts us : List Token}

theorem count_unquote (hd : 0 < d.toNat) (hascii : d.toNat < 0x80) (hout : isOutside d = true)
    (cs : List Char) : (unquote cs).count d = cs.count d + (escapes cs).count d.toNat := by
  rw [unquote, text_count hd hascii, count_tokens hout hascii]

/-- A text without slashes is one without slashes after decoding if no escape is one. -/
theorem slash_mem_unquote_iff (h : '/' ∉ cs) : '/' ∈ unquote cs ↔ 0x2F ∈ escapes cs := by
  have hcount := count_unquote (d := '/') (by decide) (by decide) (by decide) cs
  rw [List.count_eq_zero_of_not_mem h, Nat.zero_add] at hcount
  rw [← List.count_pos_iff, hcount]
  exact List.count_pos_iff

theorem text_append_ascii (hascii : d.toNat < 0x80) :
    text s (ts ++ .octet d.toNat :: us) = text s ts ++ d :: text none us := by
  induction ts generalizing s with
  | nil =>
      have hstart : start d.toNat = ([d], none) := by
        rw [start_of_lt hascii, Char.ofNat_toNat]
      cases s with
      | none => simp [text, feed, hstart, flush]
      | some s =>
          have hlow := s.low_le
          have hrange : ¬(s.low ≤ d.toNat ∧ d.toNat ≤ s.high) := by omega
          simp [text, feed_refused hrange, hstart, flush]
  | cons t ts ih =>
      cases t with
      | octet b => simp only [List.cons_append, text, ih, List.append_assoc]
      | char c => simp only [List.cons_append, text, ih, List.append_assoc]

theorem unquote_append_cons (hascii : d.toNat < 0x80) (hout : isOutside d = true)
    (cs ds : List Char) : unquote (cs ++ d :: ds) = unquote cs ++ d :: unquote ds := by
  have hplain : plain d = .octet d.toNat := if_pos hascii
  rw [unquote, tokens_append_cons hout, hplain, text_append_ascii hascii]
  rfl

theorem feed_length (s : Option Begun) (b : Nat) :
    (feed s b).1.length + (flush (feed s b).2).length ≤ (flush s).length + 1 := by
  have hstart : (start b).1.length + (flush (start b).2).length = 1 := by
    unfold start
    split_ifs with hb hlead
    · rfl
    · simp [flush, hlead]
    · rfl
  cases s with
  | none => exact Nat.le_of_eq hstart
  | some s =>
      by_cases hrange : s.low ≤ b ∧ b ≤ s.high
      · by_cases hmore : s.more = 0
        · rw [feed_last hrange hmore]
          simp [flush]
        · rw [feed_more hrange hmore]
          simp [flush]
      · rw [feed_refused hrange]
        simp [flush] at hstart ⊢
        omega

theorem text_length (s : Option Begun) (ts : List Token) :
    (text s ts).length ≤ (flush s).length + ts.length := by
  induction ts generalizing s with
  | nil => exact Nat.le_refl _
  | cons t ts ih =>
      cases t with
      | octet b =>
          have hfeed := feed_length s b
          have htext := ih (feed s b).2
          simp only [text, List.length_append, List.length_cons]
          omega
      | char c =>
          have htext := ih none
          simp only [text, List.length_append, List.length_cons]
          simp only [flush] at htext ⊢
          simp at htext
          omega

theorem length_unquote_le (cs : List Char) :
    (unquote cs).length + 2 * (escapes cs).length ≤ cs.length := by
  have htext := text_length none (tokens cs)
  have htokens := length_tokens cs
  have hflush : (flush none).length = 0 := rfl
  unfold unquote
  omega

theorem feed_pending (h : (feed s b).1 = []) : (feed s b).2.isSome = true := by
  have hstart : (start b).1 = [] → (start b).2.isSome = true := by
    unfold start
    split_ifs with hb hlead
    · simp
    · exact fun _ ↦ hlead
    · simp
  cases s with
  | none => exact hstart h
  | some s =>
      by_cases hrange : s.low ≤ b ∧ b ≤ s.high
      · by_cases hmore : s.more = 0
        · rw [feed_last hrange hmore] at h
          cases h
        · rw [feed_more hrange hmore]
          rfl
      · rw [feed_refused hrange] at h
        cases h

/-- Only nothing decodes to nothing. -/
theorem text_eq_nil (h : text s ts = []) : s = none ∧ ts = [] := by
  induction ts generalizing s with
  | nil =>
      cases s with
      | none => exact ⟨rfl, rfl⟩
      | some s => cases h
  | cons t ts ih =>
      cases t with
      | octet b =>
          obtain ⟨hfeed, hrest⟩ := List.append_eq_nil_iff.mp h
          have hpending := feed_pending hfeed
          rw [(ih hrest).1] at hpending
          cases hpending
      | char c => simp [text] at h

theorem unquote_eq_nil_iff : unquote cs = [] ↔ cs = [] := by
  constructor
  · intro h
    have htokens := (text_eq_nil h).2
    induction cs using escape_induction with
    | nil => rfl
    | escape c x y cs b hesc _ =>
        rw [tokens_of_escape hesc] at htokens
        cases htokens
    | single c cs hnone _ =>
        rw [tokens_cons hnone] at htokens
        cases htokens
  · rintro rfl
    rfl

theorem unquotePlus_eq_nil_iff : unquotePlus cs = [] ↔ cs = [] := by
  rw [unquotePlus, unquote_eq_nil_iff, List.map_eq_nil_iff]

theorem text_ascii (hascii : c.toNat < 0x80) :
    text none (.octet c.toNat :: ts) = c :: text none ts :=
  @text_append_ascii none c [] ts hascii

theorem text_map_plain (cs : List Char) : text none (cs.map plain) = cs := by
  induction cs with
  | nil => rfl
  | cons c cs ih =>
      rw [List.map_cons]
      by_cases hascii : c.toNat < 0x80
      · have hplain : plain c = .octet c.toNat := if_pos hascii
        rw [hplain]
        rw [text_ascii hascii, ih]
      · have hplain : plain c = .char c := if_neg hascii
        rw [hplain]
        simp [text, flush, ih]

/-- What has no escapes stands for itself, and nothing else does. -/
theorem unquote_eq_self_iff : unquote cs = cs ↔ escapes cs = [] := by
  constructor
  · intro h
    have hlength := length_unquote_le cs
    rw [h] at hlength
    exact List.length_eq_zero_iff.mp (by omega)
  · intro h
    rw [unquote, tokens_of_escapes_eq_nil h, text_map_plain]

end Unquote

/-! ## Encoding and back -/

section Encode

variable {c : Char} {cs : List Char} {ts : List Token} {b : Nat}

theorem hexValue?_hexDigit {n : Nat} (h : n < 16) : hexValue? (hexDigit n) = some n := by
  have hall : ∀ n : Fin 16, hexValue? (hexDigit n) = some n.val := by decide
  exact hall ⟨n, h⟩

theorem tokens_escape (h : b < 256) (cs : List Char) :
    tokens (escape b ++ cs) = .octet b :: tokens cs := by
  have hescape : escape? '%' (hexDigit (b / 16)) (hexDigit (b % 16)) = some b := by
    unfold escape?
    rw [if_pos rfl, hexValue?_hexDigit (by omega), hexValue?_hexDigit (by omega)]
    simp only [Option.bind_some, Option.map_some, Option.some.injEq]
    omega
  exact tokens_of_escape hescape

theorem tokens_flatMap_escape {bs : List Nat} (h : ∀ b ∈ bs, b < 256) (cs : List Char) :
    tokens (bs.flatMap escape ++ cs) = bs.map Token.octet ++ tokens cs := by
  induction bs with
  | nil => rfl
  | cons b bs ih =>
      rw [List.forall_mem_cons] at h
      rw [List.flatMap_cons, List.append_assoc, tokens_escape h.1, ih h.2]
      rfl

theorem utf8_lt (h : b ∈ utf8 c) : b < 256 := by
  obtain ⟨u, _, rfl⟩ := List.mem_map.mp h
  exact u.toNat_lt

theorem utf8_eq (c : Char) : utf8 c =
    if c.toNat ≤ 0x7F then [c.toNat]
    else if c.toNat ≤ 0x7FF then [c.toNat / 64 + 0xC0, c.toNat % 64 + 0x80]
    else if c.toNat ≤ 0xFFFF then
      [c.toNat / 4096 + 0xE0, c.toNat / 64 % 64 + 0x80, c.toNat % 64 + 0x80]
    else [c.toNat / 262144 + 0xF0, c.toNat / 4096 % 64 + 0x80, c.toNat / 64 % 64 + 0x80,
      c.toNat % 64 + 0x80] := by
  have hvalid : c.toNat < 0x110000 := by
    rcases c.valid with h | ⟨_, h⟩
    · exact Nat.lt_trans h (by decide)
    · exact h
  have hval : c.val.toNat = c.toNat := rfl
  unfold utf8 String.utf8EncodeChar
  simp only [hval]
  split_ifs <;> simp <;> omega

theorem lead?_two {k : Nat} (hk : 2 ≤ k ∧ k < 32) :
    ∃ s, lead? (k + 0xC0) = some s ∧ s.bits = k ∧ s.more = 0 ∧ s.low = 0x80 ∧ s.high = 0xBF := by
  unfold lead?
  rw [dif_pos ⟨by omega, by omega⟩]
  exact ⟨_, rfl, by simp, rfl, rfl, rfl⟩

/-- The second octet is in the range that the first one leaves. -/
theorem lead?_three {k x : Nat} (hk : k < 16) (hx : 0x80 ≤ x ∧ x ≤ 0xBF)
    (hlong : k = 0 → 0xA0 ≤ x) (hsurrogate : k = 13 → x ≤ 0x9F) :
    ∃ s, lead? (k + 0xE0) = some s ∧ s.bits = k ∧ s.more = 1 ∧ s.low ≤ x ∧ x ≤ s.high := by
  unfold lead?
  split_ifs <;>
    first
      | omega
      | exact ⟨_, rfl, by dsimp only; omega, rfl, by dsimp only; omega, by dsimp only; omega⟩

theorem lead?_four {k x : Nat} (hk : k < 5) (hx : 0x80 ≤ x ∧ x ≤ 0xBF)
    (hlong : k = 0 → 0x90 ≤ x) (hlast : k = 4 → x ≤ 0x8F) :
    ∃ s, lead? (k + 0xF0) = some s ∧ s.bits = k ∧ s.more = 2 ∧ s.low ≤ x ∧ x ≤ s.high := by
  unfold lead?
  split_ifs <;>
    first
      | omega
      | exact ⟨_, rfl, by dsimp only; omega, rfl, by dsimp only; omega, by dsimp only; omega⟩

theorem text_lead {s : Begun} (hb : 0x80 ≤ b) (hlead : lead? b = some s) :
    text none (.octet b :: ts) = text (some s) ts := by
  have hstart : start b = ([], some s) := by
    unfold start
    rw [if_neg (by omega), hlead]
    rfl
  simp [text, feed, hstart]

theorem text_next (s : Begun) (h : s.low ≤ b ∧ b ≤ s.high) (hmore : s.more ≠ 0) :
    ∃ s' : Begun, (∀ ts, text (some s) (.octet b :: ts) = text (some s') ts) ∧
      s'.bits = s.value b ∧ s'.low = 0x80 ∧ s'.high = 0xBF ∧ s'.more = s.more - 1 := by
  refine ⟨s.next b h.1, fun ts ↦ ?_, rfl, rfl, rfl, rfl⟩
  rw [text, feed_more h hmore]
  rfl

theorem text_last {s : Begun} (h : s.low ≤ b ∧ b ≤ s.high) (hmore : s.more = 0)
    (hvalue : s.value b = c.toNat) : text (some s) (.octet b :: ts) = c :: text none ts := by
  rw [text, feed_last h hmore, hvalue, Char.ofNat_toNat]
  rfl

/-- The octets of a character decode to it. -/
theorem text_utf8 (c : Char) (ts : List Token) :
    text none ((utf8 c).map Token.octet ++ ts) = c :: text none ts := by
  have hvalid : c.toNat < 0xD800 ∨ 0xDFFF < c.toNat ∧ c.toNat < 0x110000 := c.valid
  rw [utf8_eq]
  split_ifs with h1 h2 h3
  · exact text_ascii (by omega)
  · obtain ⟨s, hlead, hbits, hmore, hlow, hhigh⟩ := @lead?_two (c.toNat / 64) (by omega)
    simp only [List.map_cons, List.map_nil, List.cons_append, List.nil_append]
    rw [text_lead (by omega) hlead]
    refine text_last (by omega) hmore ?_
    unfold Begun.value
    omega
  · obtain ⟨s, hlead, hbits, hmore, hrange⟩ := @lead?_three (c.toNat / 4096)
      (c.toNat / 64 % 64 + 0x80) (by omega) (by omega) (by omega) (by omega)
    obtain ⟨s', hs', hbits', hlow', hhigh', hmore'⟩ := text_next s hrange (by omega)
    simp only [List.map_cons, List.map_nil, List.cons_append, List.nil_append]
    rw [text_lead (by omega) hlead, hs']
    refine text_last (by omega) (by omega) ?_
    unfold Begun.value at hbits' ⊢
    omega
  · obtain ⟨s, hlead, hbits, hmore, hrange⟩ := @lead?_four (c.toNat / 262144)
      (c.toNat / 4096 % 64 + 0x80) (by omega) (by omega) (by omega) (by omega)
    obtain ⟨s', hs', hbits', hlow', hhigh', hmore'⟩ := text_next s hrange (by omega)
    obtain ⟨s'', hs'', hbits'', hlow'', hhigh'', hmore''⟩ :=
      @text_next (c.toNat / 64 % 64 + 0x80) s' (by omega) (by omega)
    simp only [List.map_cons, List.map_nil, List.cons_append, List.nil_append]
    rw [text_lead (by omega) hlead, hs', hs'']
    refine text_last (by omega) (by omega) ?_
    unfold Begun.value at hbits' hbits'' ⊢
    omega

theorem isUnreserved_iff : isUnreserved c = true ↔
    48 ≤ c.toNat ∧ c.toNat ≤ 57 ∨ 65 ≤ c.toNat ∧ c.toNat ≤ 90 ∨ 97 ≤ c.toNat ∧ c.toNat ≤ 122 ∨
      c.toNat = 95 ∨ c.toNat = 46 ∨ c.toNat = 45 ∨ c.toNat = 126 := by
  have heq : ∀ d : Char, c = d ↔ c.toNat = d.toNat := fun d ↦ Char.toNat_inj.symm
  have hval : ∀ d : Char, d.val.toNat = d.toNat := fun _ ↦ rfl
  have halphanum : c.isAlphanum = (decide ('A'.val ≤ c.val ∧ c.val ≤ 'Z'.val) ||
      (decide ('a'.val ≤ c.val) && decide (c.val ≤ 'z'.val)) ||
      (decide ('0'.val ≤ c.val) && decide (c.val ≤ '9'.val))) := rfl
  simp only [isUnreserved, halphanum, Bool.or_eq_true, Bool.and_eq_true, decide_eq_true_eq,
    UInt32.le_iff_toNat_le, heq, hval, Char.reduceToNat]
  omega

theorem hexDigit_unreserved {n : Nat} (h : n < 16) : isUnreserved (hexDigit n) = true := by
  have hall : ∀ n : Fin 16, isUnreserved (hexDigit n) = true := by decide
  exact hall ⟨n, h⟩

theorem mem_escape (hb : b < 256) (h : c ∈ escape b) : isUnreserved c = true ∨ c = '%' := by
  simp only [escape, List.mem_cons, List.not_mem_nil, or_false] at h
  rcases h with rfl | rfl | rfl
  · exact .inr rfl
  · exact .inl (hexDigit_unreserved (by omega))
  · exact .inl (hexDigit_unreserved (by omega))

/-- What `quote_plus` writes. -/
theorem mem_quotePlus (h : c ∈ quotePlus cs) : isUnreserved c = true ∨ c = '%' ∨ c = '+' := by
  obtain ⟨d, _, hc⟩ := List.mem_flatMap.mp h
  unfold quotePlusChar at hc
  split_ifs at hc with hspace hsafe
  · exact .inr (.inr (List.mem_singleton.mp hc))
  · exact .inl (List.mem_singleton.mp hc ▸ hsafe)
  · obtain ⟨b, hb, hc⟩ := List.mem_flatMap.mp hc
    exact (mem_escape (utf8_lt hb) hc).imp_right .inl

theorem utf8_of_ascii (hascii : c.toNat < 0x80) : utf8 c = [c.toNat] := by
  rw [utf8_eq, if_pos (by omega)]

theorem tokens_quotePlusChar (c : Char) (cs : List Char) :
    tokens ((quotePlusChar c).map (fun c ↦ if c = '+' then ' ' else c) ++ cs) =
      (utf8 c).map Token.octet ++ tokens cs := by
  unfold quotePlusChar
  split_ifs with hspace hsafe
  · subst hspace
    exact tokens_cons (escapeAt?_of_ne (by decide))
  · have hrange := isUnreserved_iff.mp hsafe
    have hplus : c ≠ '+' := by
      rintro rfl
      exact absurd hsafe (by decide)
    have hpercent : c ≠ '%' := by
      rintro rfl
      exact absurd hsafe (by decide)
    have hascii : c.toNat < 0x80 := by omega
    have hplain : plain c = .octet c.toNat := if_pos hascii
    rw [utf8_of_ascii hascii, List.map_singleton, if_neg hplus, List.singleton_append,
      tokens_cons (escapeAt?_of_ne hpercent), hplain]
    rfl
  · have hsame : ((utf8 c).flatMap escape).map (fun c ↦ if c = '+' then ' ' else c) =
        (utf8 c).flatMap escape := by
      refine (List.map_congr_left fun d hd ↦ if_neg ?_).trans (List.map_id _)
      obtain ⟨b, hb, hd⟩ := List.mem_flatMap.mp hd
      rintro rfl
      rcases mem_escape (utf8_lt hb) hd with h | h
      · exact absurd h (by decide)
      · exact absurd h (by decide)
    rw [hsame, tokens_flatMap_escape fun b hb ↦ utf8_lt hb]

theorem unquotePlus_quotePlus (cs : List Char) : unquotePlus (quotePlus cs) = cs := by
  unfold unquotePlus unquote quotePlus
  induction cs with
  | nil => rfl
  | cons c cs ih =>
      rw [List.flatMap_cons, List.map_append, tokens_quotePlusChar, text_utf8, ih]

/-- What `quote` writes. -/
theorem mem_quote (h : c ∈ quote cs) : isUnreserved c = true ∨ c = '%' := by
  obtain ⟨d, _, hc⟩ := List.mem_flatMap.mp h
  unfold quoteChar at hc
  split_ifs at hc with hsafe
  · exact .inl (List.mem_singleton.mp hc ▸ hsafe)
  · obtain ⟨b, hb, hc⟩ := List.mem_flatMap.mp hc
    exact mem_escape (utf8_lt hb) hc

theorem tokens_quoteChar (c : Char) (cs : List Char) :
    tokens (quoteChar c ++ cs) = (utf8 c).map Token.octet ++ tokens cs := by
  unfold quoteChar
  split_ifs with hsafe
  · have hrange := isUnreserved_iff.mp hsafe
    have hpercent : c ≠ '%' := by
      rintro rfl
      exact absurd hsafe (by decide)
    have hascii : c.toNat < 0x80 := by omega
    have hplain : plain c = .octet c.toNat := if_pos hascii
    rw [utf8_of_ascii hascii, List.singleton_append, tokens_cons (escapeAt?_of_ne hpercent),
      hplain]
    rfl
  · exact tokens_flatMap_escape (fun b hb ↦ utf8_lt hb) cs

theorem unquote_quote (cs : List Char) : unquote (quote cs) = cs := by
  unfold unquote quote
  induction cs with
  | nil => rfl
  | cons c cs ih => rw [List.flatMap_cons, tokens_quoteChar, text_utf8, ih]

theorem quote_eq_nil_iff : quote cs = [] ↔ cs = [] := by
  constructor
  · intro h
    rw [← unquote_quote cs, h]
    rfl
  · rintro rfl
    rfl

end Encode

example : unquote "a%2Fb%e4%bd%a0%C3/%4".toList = "a/b你\uFFFD/%4".toList := by decide +kernel

end Percent
