import Mathlib.Data.List.Basic
import Mathlib.Logic.Function.Basic
import Mathlib.Tactic.Common

/-!
# Texts that can be read back

Writers of JSON text whose output tells where it ends, so that what is written
one after the other can be taken apart again.  Texts are written in ASCII with
the escapes of `json.dumps`; a number needs the character that follows it.
-/

namespace JsonText

/-- What a value was written as, and what comes after it, can be told apart. -/
def SelfDelimiting {α : Type*} (write : α → List Char) : Prop :=
  ∀ a b xs ys, write a ++ xs = write b ++ ys → a = b ∧ xs = ys

namespace SelfDelimiting

variable {α β γ : Type*} {write : α → List Char} {write' : β → List Char}

theorem injective (h : SelfDelimiting write) : Function.Injective write := by
  intro a b hab
  exact (h a b [] [] (by rw [hab])).1

/-- A reader that stops where the writer stopped. -/
theorem of_read (read : List Char → Option (α × List Char))
    (h : ∀ a xs, read (write a ++ xs) = some (a, xs)) : SelfDelimiting write := by
  intro a b xs ys heq
  have hread : some (a, xs) = some (b, ys) := by rw [← h a xs, ← h b ys, heq]
  exact Prod.mk.inj (Option.some.inj hread)

theorem after (lead : List Char) (h : SelfDelimiting write) :
    SelfDelimiting fun a ↦ lead ++ write a := by
  intro a b xs ys heq
  simp only [List.append_assoc, List.append_cancel_left_eq] at heq
  exact h a b xs ys heq

theorem seq (h : SelfDelimiting write) (h' : SelfDelimiting write') :
    SelfDelimiting fun p : α × β ↦ write p.1 ++ write' p.2 := by
  rintro ⟨a, b⟩ ⟨c, d⟩ xs ys heq
  simp only [List.append_assoc] at heq
  obtain ⟨rfl, hrest⟩ := h a c _ _ heq
  obtain ⟨rfl, hxs⟩ := h' b d _ _ hrest
  exact ⟨rfl, hxs⟩

theorem comp {f : γ → α} (h : SelfDelimiting write) (hf : Function.Injective f) :
    SelfDelimiting fun c ↦ write (f c) := by
  intro a b xs ys heq
  obtain ⟨hab, hxs⟩ := h (f a) (f b) xs ys heq
  exact ⟨hf hab, hxs⟩

/-- Items up to a closing character that begins none of them. -/
theorem closed (h : SelfDelimiting write) {close : Char} (hne : ∀ a, write a ≠ [])
    (hclose : ∀ a, (write a).head? ≠ some close) :
    SelfDelimiting fun as : List α ↦ as.flatMap write ++ [close] := by
  have hhead : ∀ (a : α) (zs : List Char), (write a ++ zs).head? ≠ some close := by
    intro a zs
    rw [List.head?_append_of_ne_nil _ (hne a)]
    exact hclose a
  intro as
  induction as with
  | nil =>
      intro bs xs ys heq
      cases bs with
      | nil => simpa using heq
      | cons b bs =>
          simp only [List.flatMap_nil, List.nil_append, List.flatMap_cons, List.append_assoc] at heq
          exact absurd (congrArg List.head? heq).symm (hhead b _)
  | cons a as ih =>
      intro bs xs ys heq
      cases bs with
      | nil =>
          simp only [List.flatMap_nil, List.nil_append, List.flatMap_cons, List.append_assoc] at heq
          exact absurd (congrArg List.head? heq) (hhead a _)
      | cons b bs =>
          simp only [List.flatMap_cons, List.append_assoc] at heq
          obtain ⟨rfl, hrest⟩ := h a b _ _ heq
          obtain ⟨rfl, hxs⟩ := ih bs xs ys (by simpa using hrest)
          exact ⟨rfl, hxs⟩

end SelfDelimiting

/-! ## Texts -/

/-- The two-character escapes. -/
def shortEscapes : List (Char × Char) :=
  [('"', '"'), ('\\', '\\'), ('\n', 'n'), ('\r', 'r'), ('\t', 't'), ('\x0c', 'f'), ('\x08', 'b')]

def hex4 (n : Nat) : List Char :=
  [Nat.digitChar (n / 4096 % 16), Nat.digitChar (n / 256 % 16), Nat.digitChar (n / 16 % 16),
    Nat.digitChar (n % 16)]

/-- `'\\u{0:04x}'.format(n)` -/
def unicodeEscape (n : Nat) : List Char := '\\' :: 'u' :: hex4 n

def isPrintable (c : Char) : Bool := ' ' ≤ c && c ≤ '~'

/-- One character of a text; one above U+FFFF as a surrogate pair. -/
def escape (c : Char) : List Char :=
  match shortEscapes.find? fun p ↦ p.1 = c with
  | some p => ['\\', p.2]
  | none =>
      if isPrintable c then [c]
      else if c.toNat < 0x10000 then unicodeEscape c.toNat
      else
        unicodeEscape (0xd800 + (c.toNat - 0x10000) / 0x400) ++
          unicodeEscape (0xdc00 + (c.toNat - 0x10000) % 0x400)

/-- `json.dumps` of a text, with `ensure_ascii`. -/
def text (s : String) : List Char := '"' :: (s.toList.flatMap escape ++ ['"'])

/-! ### Reading a character back -/

def hexValue (c : Char) : Nat := if c.isDigit then c.toNat - 48 else c.toNat - 87

def readHex4 : List Char → Option (Nat × List Char)
  | a :: b :: c :: d :: xs =>
      some (((hexValue a * 16 + hexValue b) * 16 + hexValue c) * 16 + hexValue d, xs)
  | _ => none

/-- The code point after `\u`; a high surrogate is followed by the escape of a low one. -/
def readUnits (xs : List Char) : Option (Char × List Char) :=
  (readHex4 xs).bind fun r ↦
    if 0xd800 ≤ r.1 ∧ r.1 < 0xdc00 then
      (readHex4 (r.2.drop 2)).map fun r' ↦
        (Char.ofNat (0x10000 + (r.1 - 0xd800) * 0x400 + (r'.1 - 0xdc00)), r'.2)
    else some (Char.ofNat r.1, r.2)

def readEscaped : List Char → Option (Char × List Char)
  | [] => none
  | e :: xs =>
      if e = 'u' then readUnits xs
      else (shortEscapes.find? fun p ↦ p.2 = e).map fun p ↦ (p.1, xs)

def readChar : List Char → Option (Char × List Char)
  | [] => none
  | c :: xs => if c = '\\' then readEscaped xs else some (c, xs)

theorem hexValue_digitChar : ∀ n < 16, hexValue (Nat.digitChar n) = n := by decide

theorem readHex4_hex4 {n : Nat} (h : n < 0x10000) (xs : List Char) :
    readHex4 (hex4 n ++ xs) = some (n, xs) := by
  have hlt : ∀ m, m % 16 < 16 := fun m ↦ Nat.mod_lt _ (by decide)
  simp only [hex4, List.cons_append, List.nil_append, readHex4, hexValue_digitChar _ (hlt _)]
  congr 2
  omega

theorem readUnits_single {n : Nat} (h : n < 0x10000) (hscalar : ¬(0xd800 ≤ n ∧ n < 0xdc00))
    (xs : List Char) : readUnits (hex4 n ++ xs) = some (Char.ofNat n, xs) := by
  rw [readUnits, readHex4_hex4 h, Option.bind_some, if_neg hscalar]

theorem readUnits_pair {n m : Nat} (h : 0xd800 ≤ n ∧ n < 0xdc00) (hm : m < 0x10000)
    (xs : List Char) : readUnits (hex4 n ++ (unicodeEscape m ++ xs)) =
      some (Char.ofNat (0x10000 + (n - 0xd800) * 0x400 + (m - 0xdc00)), xs) := by
  have hn : n < 0x10000 := by omega
  have hdrop : (unicodeEscape m ++ xs).drop 2 = hex4 m ++ xs := rfl
  rw [readUnits, readHex4_hex4 hn, Option.bind_some, if_pos h, hdrop, readHex4_hex4 hm,
    Option.map_some]

theorem toNat_cases (c : Char) :
    c.toNat < 0xd800 ∨ 0xdfff < c.toNat ∧ c.toNat < 0x110000 := c.valid

theorem readUnits_toNat (c : Char) (h : c.toNat < 0x10000) (xs : List Char) :
    readUnits (hex4 c.toNat ++ xs) = some (c, xs) := by
  have hscalar : ¬(0xd800 ≤ c.toNat ∧ c.toNat < 0xdc00) := by
    have hcases := toNat_cases c
    omega
  rw [readUnits_single h hscalar, Char.ofNat_toNat]

theorem readUnits_surrogates (c : Char) (h : 0x10000 ≤ c.toNat) (xs : List Char) :
    readUnits (hex4 (0xd800 + (c.toNat - 0x10000) / 0x400) ++
      (unicodeEscape (0xdc00 + (c.toNat - 0x10000) % 0x400) ++ xs)) = some (c, xs) := by
  have hcases := toNat_cases c
  have hhigh : 0xd800 ≤ 0xd800 + (c.toNat - 0x10000) / 0x400 ∧
      0xd800 + (c.toNat - 0x10000) / 0x400 < 0xdc00 := by omega
  have hlow : 0xdc00 + (c.toNat - 0x10000) % 0x400 < 0x10000 := by omega
  have hcode : 0x10000 + (0xd800 + (c.toNat - 0x10000) / 0x400 - 0xd800) * 0x400 +
      (0xdc00 + (c.toNat - 0x10000) % 0x400 - 0xdc00) = c.toNat := by omega
  rw [readUnits_pair hhigh hlow, hcode, Char.ofNat_toNat]

theorem shortEscapes_spec :
    ∀ p ∈ shortEscapes, p.2 ≠ 'u' ∧ (shortEscapes.find? fun q ↦ q.2 = p.2) = some p := by
  decide

theorem readChar_escape (c : Char) (xs : List Char) : readChar (escape c ++ xs) = some (c, xs) := by
  unfold escape
  cases hshort : shortEscapes.find? fun p ↦ p.1 = c with
  | some p =>
      obtain ⟨hu, hfind⟩ := shortEscapes_spec p (List.mem_of_find?_eq_some hshort)
      have hkey : p.1 = c := by simpa using List.find?_some hshort
      simp [readChar, readEscaped, hu, hfind, hkey]
  | none =>
      have hplain : c ≠ '\\' := by
        rintro rfl
        exact absurd hshort (by decide)
      by_cases hprint : isPrintable c = true
      · simp [hprint, readChar, hplain]
      · simp only [hprint, Bool.false_eq_true, if_false]
        split
        · next hsmall => exact readUnits_toNat c hsmall xs
        · next hlarge =>
            rw [List.append_assoc]
            exact readUnits_surrogates c (Nat.le_of_not_lt hlarge) xs

theorem selfDelimiting_escape : SelfDelimiting escape :=
  .of_read readChar readChar_escape

theorem escape_ne_nil (c : Char) : escape c ≠ [] := by
  intro hnil
  simpa [hnil, readChar] using readChar_escape c []

theorem escape_head_ne_quote (c : Char) : (escape c).head? ≠ some '"' := by
  intro hhead
  obtain ⟨rest, hrest⟩ := List.head?_eq_some_iff.mp hhead
  have hread := readChar_escape c []
  rw [hrest] at hread
  obtain rfl : '"' = c := by
    simpa [readChar] using congrArg (Option.map Prod.fst) hread
  exact absurd hhead (by decide)

theorem selfDelimiting_text : SelfDelimiting text := by
  have hchars := (selfDelimiting_escape.closed escape_ne_nil escape_head_ne_quote).after ['"']
  exact hchars.comp fun _ _ h ↦ String.toList_injective h

theorem head?_text (s : String) : (text s).head? = some '"' := rfl

theorem text_ne_nil (s : String) : text s ≠ [] := List.cons_ne_nil _ _

/-! ## Other values -/

/-- The key of a member, after the character that opens the object or ends the last member. -/
def key (opening : Char) (name : String) : List Char := opening :: (text name ++ [':'])

def boolean (b : Bool) : List Char := if b then "true".toList else "false".toList

/-- A value or `null`. -/
def nullable {α : Type*} (write : α → List Char) : Option α → List Char
  | none => "null".toList
  | some a => write a

/-- A number with the character that ends it. -/
def natural (n : Nat) (ending : Char) : List Char := Nat.toDigits 10 n ++ [ending]

/-- `json.dumps` of a list, with `","` between the items. -/
def array {α : Type*} (write : α → List Char) : List α → List Char
  | [] => ['[', ']']
  | a :: as => '[' :: (write a ++ (as.flatMap (fun a ↦ ',' :: write a) ++ [']']))

theorem selfDelimiting_boolean : SelfDelimiting boolean := by
  intro a b xs ys heq
  cases a <;> cases b <;> simp_all [boolean]

theorem SelfDelimiting.nullable {α : Type*} {write : α → List Char} (h : SelfDelimiting write)
    (hne : ∀ a, write a ≠ []) (hnull : ∀ a, (write a).head? ≠ some 'n') :
    SelfDelimiting (nullable write) := by
  have hhead : ∀ (a : α) (zs ws : List Char), write a ++ zs ≠ "null".toList ++ ws := by
    intro a zs ws heq
    have hfirst := congrArg List.head? heq
    rw [List.head?_append_of_ne_nil _ (hne a)] at hfirst
    exact hnull a hfirst
  intro a b xs ys heq
  cases a with
  | none =>
      cases b with
      | none => exact ⟨rfl, List.append_cancel_left heq⟩
      | some b => exact absurd heq.symm (hhead b _ _)
  | some a =>
      cases b with
      | none => exact absurd heq (hhead a _ _)
      | some b =>
          obtain ⟨rfl, hxs⟩ := h a b xs ys heq
          exact ⟨rfl, hxs⟩

theorem toList_toString (n : Nat) : (toString n).toList = Nat.toDigits 10 n := Nat.toList_repr

theorem isDigit_of_mem {n : Nat} {c : Char} (h : c ∈ Nat.toDigits 10 n) : c.isDigit = true :=
  Nat.isDigit_of_mem_toDigits (by decide) (by decide) h

theorem toDigits_injective : Function.Injective (Nat.toDigits 10) := by
  intro n m h
  rw [← Nat.ofDigitChars_ten_toDigits (n := n), h, Nat.ofDigitChars_ten_toDigits]

theorem takeWhile_digits {n : Nat} {ending : Char} (h : ending.isDigit = false)
    (xs : List Char) :
    (JsonText.natural n ending ++ xs).takeWhile Char.isDigit = Nat.toDigits 10 n := by
  rw [natural, List.append_assoc, List.takeWhile_append_of_pos fun c hc ↦ isDigit_of_mem hc]
  simp [h]

theorem selfDelimiting_natural {ending : Char} (h : ending.isDigit = false) :
    SelfDelimiting fun n ↦ natural n ending := by
  intro n m xs ys heq
  have hdigits : Nat.toDigits 10 n = Nat.toDigits 10 m := by
    rw [← takeWhile_digits h xs, ← takeWhile_digits h ys]
    exact congrArg _ heq
  obtain rfl := toDigits_injective hdigits
  exact ⟨rfl, List.append_cancel_left heq⟩

theorem SelfDelimiting.array {α : Type*} {write : α → List Char} (h : SelfDelimiting write)
    (hne : ∀ a, write a ≠ []) (hclose : ∀ a, (write a).head? ≠ some ']') :
    SelfDelimiting (array write) := by
  have htail : SelfDelimiting fun as : List α ↦ as.flatMap (fun a ↦ ',' :: write a) ++ [']'] :=
    (h.after [',']).closed (fun a ↦ List.cons_ne_nil _ _) (fun a ↦ by simp)
  have hhead : ∀ (a : α) (zs ws : List Char), write a ++ zs ≠ ']' :: ws := by
    intro a zs ws heq
    have hfirst := congrArg List.head? heq
    rw [List.head?_append_of_ne_nil _ (hne a)] at hfirst
    exact hclose a hfirst
  intro as bs xs ys heq
  cases as with
  | nil =>
      cases bs with
      | nil => exact ⟨rfl, List.append_cancel_left heq⟩
      | cons b bs =>
          simp only [JsonText.array, List.cons_append, List.cons.injEq, true_and,
            List.append_assoc, List.nil_append] at heq
          exact absurd heq.symm (hhead b _ _)
  | cons a as =>
      cases bs with
      | nil =>
          simp only [JsonText.array, List.cons_append, List.cons.injEq, true_and,
            List.append_assoc, List.nil_append] at heq
          exact absurd heq (hhead a _ _)
      | cons b bs =>
          simp only [JsonText.array, List.cons_append, List.cons.injEq, true_and] at heq
          obtain ⟨hitems, hxs⟩ := h.seq htail (a, as) (b, bs) xs ys heq
          obtain ⟨rfl, rfl⟩ := Prod.mk.inj hitems
          exact ⟨rfl, hxs⟩

/-! ## Bytes -/

/-- `text.encode("utf-8")` -/
def utf8 (text : List Char) : List UInt8 := (String.ofList text).toUTF8.data.toList

theorem utf8_injective : Function.Injective utf8 := by
  intro a b h
  have hbytes : (String.ofList a).toUTF8 = (String.ofList b).toUTF8 :=
    ByteArray.ext (Array.toList_inj.mp h)
  exact String.ofList_injective (String.toByteArray_inj.mp hbytes)

end JsonText
