import Conduit.Json.Reader
import Conduit.Proofs.Text.Utf8

/-!
# Numbers and strings read back

Whole numbers of at most 64 bits and all strings are read as what they were written for
(`Json.readNumber_digits`, `Json.readString_written`), whatever follows them; behind a number
something has to follow that does not go on with it (`Json.Ends`).
-/

namespace Conduit.Json

open Utf8

/-! ## Characters of one byte -/

/-- The byte of a character that has one. -/
def asciiByte (c : Char) : UInt8 := UInt8.ofNat c.toNat

theorem encodeChar_ascii {c : Char} (h : c.toNat < 128) :
    String.utf8EncodeChar c = [asciiByte c] := by
  rw [String.utf8EncodeChar]
  exact if_pos (Nat.le_of_lt_succ h)

theorem toNat_asciiByte {c : Char} (h : c.toNat < 128) : (asciiByte c).toNat = c.toNat :=
  toNat_ofNat_of_lt (by omega)

theorem encodeChars_ascii {cs : List Char} (h : ∀ c ∈ cs, c.toNat < 128) :
    encodeChars cs = cs.map asciiByte := by
  induction cs with
  | nil => rfl
  | cons c cs ih =>
    rw [encodeChars_cons, encodeChar_ascii (h c List.mem_cons_self),
      ih fun d hd ↦ h d (List.mem_cons_of_mem _ hd)]
    rfl

/-! ## Digits -/

theorem toNat_of_isDigit {c : Char} (h : c.isDigit = true) : 48 ≤ c.toNat ∧ c.toNat ≤ 57 := by
  obtain ⟨hlow, hhigh⟩ := Bool.and_eq_true_iff.1 h
  exact ⟨UInt32.le_iff_toNat_le.1 (of_decide_eq_true hlow),
    UInt32.le_iff_toNat_le.1 (of_decide_eq_true hhigh)⟩

theorem isDigit_asciiByte {c : Char} (h : c.isDigit = true) : isDigit (asciiByte c) = true := by
  obtain ⟨hlow, hhigh⟩ := toNat_of_isDigit h
  have hb : (asciiByte c).toNat = c.toNat := toNat_asciiByte (by omega)
  rw [isDigit, Bool.and_eq_true, decide_eq_true_iff, decide_eq_true_iff, UInt8.le_iff_toNat_le,
    UInt8.le_iff_toNat_le, hb]
  exact ⟨hlow, hhigh⟩

/-- The digits of a number as bytes. -/
def digitBytes (n : Nat) : Bytes := (Nat.toDigits 10 n).map asciiByte

theorem isDigit_of_mem_toDigits {c : Char} {n : Nat} (h : c ∈ Nat.toDigits 10 n) :
    c.isDigit = true := Nat.isDigit_of_mem_toDigits (by decide) (by decide) h

theorem encodeChars_toDigits (n : Nat) : encodeChars (Nat.toDigits 10 n) = digitBytes n :=
  encodeChars_ascii fun c hc ↦ by
    have := toNat_of_isDigit (isDigit_of_mem_toDigits hc)
    omega

theorem isDigit_of_mem_digitBytes {b : UInt8} {n : Nat} (h : b ∈ digitBytes n) :
    isDigit b = true := by
  obtain ⟨c, hc, rfl⟩ := List.mem_map.1 h
  exact isDigit_asciiByte (isDigit_of_mem_toDigits hc)

/-- Only zero is written with a zero in front. -/
theorem head?_toDigits_ne_zero {n : Nat} (h : 0 < n) : (Nat.toDigits 10 n).head? ≠ some '0' := by
  induction n using Nat.strongRecOn with
  | ind n ih =>
    by_cases hn : n < 10
    · have hdigit : ∀ n < 10, 0 < n → [n.digitChar].head? ≠ some '0' := by decide
      rw [Nat.toDigits_of_lt_base hn]
      exact hdigit n hn h
    · rw [Nat.toDigits_of_base_le (by decide) (by omega), List.head?_append]
      have hne : (Nat.toDigits 10 (n / 10)).head? ≠ none := by simp [Nat.toDigits_ne_nil]
      rw [Option.or_of_isSome (Option.isSome_iff_ne_none.2 hne)]
      exact ih (n / 10) (by omega) (by omega)

theorem le_ofDigitChars (start : Nat) (cs : List Char) : start ≤ Nat.ofDigitChars 10 cs start := by
  induction cs generalizing start with
  | nil => exact Nat.le_refl _
  | cons c cs ih =>
    have := ih (10 * start + (c.toNat - '0'.toNat))
    change start ≤ Nat.ofDigitChars 10 cs (10 * start + (c.toNat - '0'.toNat))
    omega

/-- Digits gather to their value if it fits. -/
theorem gather_map {bound start : Nat} {cs : List Char} (hdigit : ∀ c ∈ cs, c.isDigit = true)
    (h : Nat.ofDigitChars 10 cs start < bound) :
    gather bound start (cs.map asciiByte) = (Nat.ofDigitChars 10 cs start, []) := by
  induction cs generalizing start with
  | nil => rfl
  | cons c cs ih =>
    have hc := toNat_of_isDigit (hdigit c List.mem_cons_self)
    have hvalue : digitOf (asciiByte c) = c.toNat - '0'.toNat := by
      rw [digitOf, toNat_asciiByte (by omega)]
      rfl
    have hle := le_ofDigitChars (10 * start + (c.toNat - '0'.toNat)) cs
    change Nat.ofDigitChars 10 cs (10 * start + (c.toNat - '0'.toNat)) < bound at h
    rw [List.map_cons, gather, hvalue, if_pos (by omega),
      ih (fun d hd ↦ hdigit d (List.mem_cons_of_mem _ hd)) h]
    rfl

theorem gather_digitBytes {bound n : Nat} (h : n < bound) :
    gather bound 0 (digitBytes n) = (n, []) := by
  have hvalue : Nat.ofDigitChars 10 (Nat.toDigits 10 n) 0 = n := Nat.ofDigitChars_ten_toDigits
  rw [digitBytes, gather_map (fun c ↦ isDigit_of_mem_toDigits) (hvalue.symm ▸ h), hvalue]

/-! ## Numbers -/

/-- What follows does not go on with a number. -/
def Ends (rest : Bytes) : Prop :=
  ∀ b ∈ rest.head?, isDigit b = false ∧ b ≠ 0x2e ∧ b ≠ 0x65 ∧ b ≠ 0x45

theorem ends_nil : Ends [] := fun _ h ↦ absurd h (Option.not_mem_none _)

theorem takeWhile_isDigit {ds rest : Bytes} (hd : ∀ b ∈ ds, isDigit b = true) (h : Ends rest) :
    (ds ++ rest).takeWhile isDigit = ds := by
  rw [List.takeWhile_append_of_pos hd]
  cases rest with
  | nil => simp
  | cons b rest => simp [(h b rfl).1]

theorem dropWhile_isDigit {ds rest : Bytes} (hd : ∀ b ∈ ds, isDigit b = true) (h : Ends rest) :
    (ds ++ rest).dropWhile isDigit = rest := by
  rw [List.dropWhile_append_of_pos hd]
  cases rest with
  | nil => rfl
  | cons b rest => simp [(h b rfl).1]

/-- The digits of a number are read as the number. -/
theorem readNumber_digits {negative : Bool} {n : Nat} (hn : n < 0x10000000000000000) {rest : Bytes}
    (h : Ends rest) :
    readNumber negative (digitBytes n ++ rest) = wholeOrDouble negative n rest := by
  have htake := takeWhile_isDigit (fun _ ↦ isDigit_of_mem_digitBytes (n := n)) h
  have hdrop := dropWhile_isDigit (fun _ ↦ isDigit_of_mem_digitBytes (n := n)) h
  have hgather := gather_digitBytes hn
  obtain ⟨c, cs, hcs⟩ := List.exists_cons_of_ne_nil (Nat.toDigits_ne_nil (n := n) (b := 10))
  have hbytes : digitBytes n = asciiByte c :: cs.map asciiByte := by
    rw [digitBytes, hcs]
    rfl
  have hdigit : isDigit (asciiByte c) = true :=
    isDigit_asciiByte (isDigit_of_mem_toDigits (hcs ▸ List.mem_cons_self))
  -- A zero in front is the whole number, and nothing that follows is a digit.
  have hzero : ¬ (asciiByte c = 0x30 ∧ (cs.map asciiByte ++ rest).head?.any isDigit = true) := by
    rintro ⟨h0, hnext⟩
    rcases Nat.eq_zero_or_pos n with rfl | hpos
    · obtain ⟨rfl, rfl⟩ := List.cons.inj (hcs.symm.trans (Nat.toDigits_zero 10))
      cases rest with
      | nil => cases hnext
      | cons b rest => exact absurd hnext (by simp [(h b rfl).1])
    · refine head?_toDigits_ne_zero hpos ?_
      have hlow := toNat_of_isDigit (isDigit_of_mem_toDigits (hcs ▸ List.mem_cons_self : c ∈ _))
      have hc : c.toNat = 48 := by
        rw [← toNat_asciiByte (by omega), h0]
        rfl
      rw [hcs, List.head?_cons, ← Char.ofNat_toNat c, hc]
  rw [hbytes, List.cons_append] at htake hdrop ⊢
  rw [hbytes] at hgather
  unfold readNumber
  dsimp only
  rw [if_neg (by simp [hdigit]), if_neg hzero, htake, hdrop, hgather]
  dsimp only
  split
  · exact absurd rfl (h _ rfl).2.1
  · exact absurd rfl (h _ rfl).2.2.1
  · exact absurd rfl (h _ rfl).2.2.2
  · rfl

theorem wholeOrDouble_natAbs {n : Whole} {negative : Bool} (h : negative = decide (n.val < 0))
    (rest : Bytes) : wholeOrDouble negative n.val.natAbs rest = .ok (.whole n, rest) := by
  obtain ⟨i, hi⟩ := n
  subst h
  unfold wholeOrDouble
  by_cases hneg : i < 0
  · have hsigned : -(i.natAbs : Int) = i := by omega
    simp only [hneg, decide_true, if_true, true_and]
    rw [if_neg (by omega), hsigned, Number.ofInt?, dif_pos hi]
  · have hsigned : (i.natAbs : Int) = i := by omega
    simp only [hneg, decide_false, Bool.false_eq_true, if_false, false_and]
    rw [hsigned, Number.ofInt?, dif_pos hi]

/-! ## Strings -/

theorem readBody_close (s : Bytes) : readBody (0x22 :: s) = .ok ([], s) := by
  rw [readBody.eq_def]
  rfl

theorem readBody_byte {b : UInt8} (hquote : b ≠ 0x22) (hback : b ≠ 0x5c) (hcontrol : ¬ b < 0x20)
    (s : Bytes) : readBody (b :: s) = (readBody s).map fun r => (b :: r.1, r.2) := by
  rw [readBody.eq_def]
  dsimp only
  rw [if_neg hquote, if_neg hback, if_neg hcontrol]

/-- A letter behind a backslash. -/
theorem readBody_letter {e x : UInt8} (hletter : e ≠ 0x75) (h : escaped? e = some x) (s : Bytes) :
    readBody (0x5c :: e :: s) = (readBody s).map fun r => (x :: r.1, r.2) := by
  rw [readBody.eq_def]
  dsimp only
  rw [if_neg (by decide), if_pos rfl, if_neg hletter, h]

/-- A number behind a backslash that is no half of a pair. -/
theorem readBody_hex {a b c d : UInt8} {n : Nat} (h : hex4? a b c d = some n) (hn : n < 0xd800)
    (s : Bytes) :
    readBody (0x5c :: 0x75 :: a :: b :: c :: d :: s) =
      (readBody s).map fun r => (charBytes n ++ r.1, r.2) := by
  rw [readBody.eq_def]
  dsimp only
  rw [if_neg (by decide), if_pos rfl, if_pos rfl, h]
  dsimp only
  rw [if_neg (by omega), if_pos (by omega)]

/-- Bytes that stand for themselves in a string. -/
theorem readBody_plain {bs : Bytes} (h : ∀ b ∈ bs, b ≠ 0x22 ∧ b ≠ 0x5c ∧ ¬ b < 0x20) (s : Bytes) :
    readBody (bs ++ s) = (readBody s).map fun r => (bs ++ r.1, r.2) := by
  induction bs with
  | nil =>
    rw [List.nil_append]
    cases readBody s <;> rfl
  | cons b bs ih =>
    obtain ⟨hquote, hback, hcontrol⟩ := h b List.mem_cons_self
    rw [List.cons_append, readBody_byte hquote hback hcontrol,
      ih fun c hc ↦ h c (List.mem_cons_of_mem _ hc)]
    cases readBody s <;> rfl

/-- The bytes of a character beyond the first 128 are beyond the first 128, too. -/
theorem le_of_mem_encodeChar {c : Char} (h : 128 ≤ c.toNat) {b : UInt8}
    (hb : b ∈ String.utf8EncodeChar c) : 128 ≤ b.toNat := by
  have hc : 128 ≤ c.val.toNat := h
  unfold String.utf8EncodeChar at hb
  generalize c.val.toNat = v at hc hb
  dsimp only at hb
  rw [if_neg (by omega)] at hb
  split at hb
  · simp only [List.mem_cons, List.not_mem_nil, or_false] at hb
    rcases hb with rfl | rfl <;> rw [toNat_ofNat_of_lt] <;> omega
  split at hb
  · simp only [List.mem_cons, List.not_mem_nil, or_false] at hb
    rcases hb with rfl | rfl | rfl <;> rw [toNat_ofNat_of_lt] <;> omega
  · simp only [List.mem_cons, List.not_mem_nil, or_false] at hb
    rcases hb with rfl | rfl | rfl | rfl <;> rw [toNat_ofNat_of_lt] <;> omega

/-- A character that needs no escape is read as its bytes. -/
theorem readBody_char {c : Char} (hquote : c ≠ '"') (hback : c ≠ '\\') (hcontrol : 0x20 ≤ c.toNat)
    (s : Bytes) :
    readBody (String.utf8EncodeChar c ++ s) =
      (readBody s).map fun r => (String.utf8EncodeChar c ++ r.1, r.2) := by
  refine readBody_plain (fun b hb ↦ ?_) s
  simp only [UInt8.lt_iff_toNat_lt, ne_eq, ← UInt8.toNat_inj, UInt8.reduceToNat]
  by_cases hc : c.toNat < 128
  · rw [encodeChar_ascii hc, List.mem_singleton] at hb
    rw [hb, toNat_asciiByte hc]
    refine ⟨fun h ↦ hquote ?_, fun h ↦ hback ?_, Nat.not_lt.2 hcontrol⟩
    · rw [← Char.ofNat_toNat c, h]
    · rw [← Char.ofNat_toNat c, h]
  · have hb := le_of_mem_encodeChar (Nat.not_lt.1 hc) hb
    omega

theorem hexDigit_ascii : ∀ n < 16, String.utf8EncodeChar (hexDigit n) = [asciiByte (hexDigit n)] ∧
    hexValue? (asciiByte (hexDigit n)) = some n := by
  decide

/-- A control written by its number. -/
theorem readBody_control {c : Char} (h : c.toNat < 0x20) (s : Bytes) :
    readBody (encodeChars ['\\', 'u', '0', '0', hexDigit (c.toNat / 16), hexDigit (c.toNat % 16)]
        ++ s) = (readBody s).map fun r => (String.utf8EncodeChar c ++ r.1, r.2) := by
  obtain ⟨hhigh, hhigh'⟩ := hexDigit_ascii (c.toNat / 16) (by omega)
  obtain ⟨hlow, hlow'⟩ := hexDigit_ascii (c.toNat % 16) (by omega)
  have hvalue : hex4? 0x30 0x30 (asciiByte (hexDigit (c.toNat / 16)))
      (asciiByte (hexDigit (c.toNat % 16))) = some c.toNat := by
    simp only [hex4?, hhigh', hlow', show hexValue? 0x30 = some 0 from rfl, Option.bind_eq_bind,
      Option.bind_some, Option.pure_def, Option.some.injEq]
    omega
  have hbytes : encodeChars ['\\', 'u', '0', '0', hexDigit (c.toNat / 16),
      hexDigit (c.toNat % 16)] ++ s = 0x5c :: 0x75 :: 0x30 :: 0x30 ::
        asciiByte (hexDigit (c.toNat / 16)) :: asciiByte (hexDigit (c.toNat % 16)) :: s := by
    simp only [encodeChars_cons, hhigh, hlow]
    rfl
  rw [hbytes, readBody_hex hvalue (by omega), charBytes, Char.ofNat_toNat]

/-- A character is read back from what it is written as, escaped or not. -/
theorem readBody_escapeChar (c : Char) (s : Bytes) :
    readBody (encodeChars (escapeChar c) ++ s) =
      (readBody s).map fun r => (String.utf8EncodeChar c ++ r.1, r.2) := by
  unfold escapeChar
  split
  · subst c
    exact readBody_letter (by decide) rfl s
  split
  · subst c
    exact readBody_letter (by decide) rfl s
  split
  · subst c
    exact readBody_letter (by decide) rfl s
  split
  · subst c
    exact readBody_letter (by decide) rfl s
  split
  · subst c
    exact readBody_letter (by decide) rfl s
  split
  · subst c
    exact readBody_letter (by decide) rfl s
  split
  · subst c
    exact readBody_letter (by decide) rfl s
  split
  · rename_i h
    exact readBody_control h s
  · rename_i hquote hback _ _ _ _ _ hcontrol
    rw [encodeChars_cons, encodeChars_nil, List.append_nil]
    exact readBody_char hquote hback (Nat.not_lt.1 hcontrol) s

theorem readBody_escaped (cs : List Char) (rest : Bytes) :
    readBody (encodeChars (cs.flatMap escapeChar) ++ 0x22 :: rest) = .ok (encodeChars cs, rest) := by
  induction cs with
  | nil => exact readBody_close rest
  | cons c cs ih =>
    rw [List.flatMap_cons, encodeChars_append, List.append_assoc, readBody_escapeChar, ih,
      encodeChars_cons]
    rfl

theorem encodeChars_writeString (s : String) (rest : Bytes) :
    encodeChars (writeString s) ++ rest =
      0x22 :: (encodeChars (s.toList.flatMap escapeChar) ++ 0x22 :: rest) := by
  rw [writeString, encodeChars_cons, encodeChars_append]
  simp [show String.utf8EncodeChar '"' = [0x22] from rfl]

/-- A string is read back from what it is written as. -/
theorem readString_written (s : String) (rest : Bytes) :
    readString (encodeChars (s.toList.flatMap escapeChar) ++ 0x22 :: rest) = .ok (s, rest) := by
  rw [readString, readBody_escaped]
  dsimp only [bind, Except.bind]
  rw [decode_encodeChars, String.ofList_toList]
  rfl

end Conduit.Json
