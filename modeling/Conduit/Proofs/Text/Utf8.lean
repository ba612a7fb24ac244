import Conduit.Proofs.Basic
import Conduit.Text.Utf8

/-!
# Text written and read back

The machine that reads UTF-8 takes the bytes of a character to that character
(`Utf8.run_encodeChar`), so what a text was written to is read as the same text
(`Utf8.decode_encode`). It takes no other bytes (`Utf8.exists_char_of_run`): a character has one
form in bytes, and bytes are a text just if they are what it is written as
(`Utf8.decode_eq_ok_iff`).
-/

namespace Conduit.Utf8

/-! ## Single bytes -/

theorem toNat_ofNat_of_lt {n : Nat} (h : n < 256) : (UInt8.ofNat n).toNat = n := by
  rw [UInt8.toNat_ofNat']
  exact Nat.mod_eq_of_lt h

theorem ofNat_toNat_val (c : Char) : Char.ofNat c.val.toNat = c := Char.ofNat_toNat c

section

variable {seen value left n : Nat} {low high : UInt8}

/-- A byte that goes on with a character brings six bits. -/
theorem step_within_byte {b : UInt8} (hlow : low.toNat ≤ b.toNat)
    (hhigh : b.toNat ≤ high.toNat) :
    step (.within seen value low high left) b =
      match left with
      | 0 => .char (Char.ofNat (value * 64 + b.toNat % 64))
      | left + 1 => .next (.within (seen + 1) (value * 64 + b.toNat % 64) 0x80 0xBF left) := by
  have hbounds : low ≤ b ∧ b ≤ high :=
    ⟨UInt8.le_iff_toNat_le.2 hlow, UInt8.le_iff_toNat_le.2 hhigh⟩
  cases left <;> simp only [step, if_pos hbounds]

theorem step_within (hlow : low.toNat ≤ n % 64 + 128) (hhigh : n % 64 + 128 ≤ high.toNat) :
    step (.within seen value low high left) (UInt8.ofNat (n % 64 + 128)) =
      match left with
      | 0 => .char (Char.ofNat (value * 64 + n % 64))
      | left + 1 => .next (.within (seen + 1) (value * 64 + n % 64) 0x80 0xBF left) := by
  have hb : (UInt8.ofNat (n % 64 + 128)).toNat = n % 64 + 128 := toNat_ofNat_of_lt (by omega)
  have hbits : (n % 64 + 128) % 64 = n % 64 := by omega
  rw [step_within_byte (by omega) (by omega), hb, hbits]

theorem run_within_succ (hlow : low.toNat ≤ n % 64 + 128) (hhigh : n % 64 + 128 ≤ high.toNat)
    (index : Nat) (rest : Bytes) :
    run index (.within seen value low high (left + 1)) (UInt8.ofNat (n % 64 + 128) :: rest) =
      run index (.within (seen + 1) (value * 64 + n % 64) 0x80 0xBF left) rest := by
  rw [run, step_within hlow hhigh]

theorem run_within_zero (hlow : low.toNat ≤ n % 64 + 128) (hhigh : n % 64 + 128 ≤ high.toNat)
    (index : Nat) (rest : Bytes) :
    run index (.within seen value low high 0) (UInt8.ofNat (n % 64 + 128) :: rest) =
      (run (index + seen + 1) .start rest).map (Char.ofNat (value * 64 + n % 64) :: ·) := by
  rw [run, step_within hlow hhigh]

theorem run_lead {b : UInt8} (h : lead b = .next (.within seen value low high left))
    (index : Nat) (rest : Bytes) :
    run index .start (b :: rest) = run index (.within seen value low high left) rest := by
  rw [run, step, h]

end

theorem lead_ascii {v : Nat} (h : v ≤ 127) : lead (UInt8.ofNat v) = .char (Char.ofNat v) := by
  have hb : (UInt8.ofNat v).toNat = v := toNat_ofNat_of_lt (by omega)
  rw [lead, if_pos (by rw [UInt8.lt_iff_toNat_lt, hb]; exact Nat.lt_succ_of_le h), hb]

theorem lead_two {v : Nat} (h : 127 < v) (h' : v ≤ 2047) :
    lead (UInt8.ofNat (v / 64 % 32 + 192)) = .next (.within 1 (v / 64) 0x80 0xBF 0) := by
  have hb : (UInt8.ofNat (v / 64 % 32 + 192)).toNat = v / 64 + 192 := by
    rw [toNat_ofNat_of_lt] <;> omega
  simp only [lead, UInt8.lt_iff_toNat_lt, hb, UInt8.reduceToNat]
  rw [if_neg (by omega), if_neg (by omega), if_pos (by omega)]
  congr 2
  omega

/-- The second byte of three is bounded so that no shorter form and no half of a pair is taken. -/
theorem lead_three {v : Nat} (h : 2047 < v) (h' : v ≤ 65535) (hv : v < 0xD800 ∨ 0xDFFF < v) :
    ∃ low high : UInt8, lead (UInt8.ofNat (v / 4096 % 16 + 224)) =
        .next (.within 1 (v / 4096) low high 1) ∧
      low.toNat ≤ v / 64 % 64 + 128 ∧ v / 64 % 64 + 128 ≤ high.toNat := by
  have hb : (UInt8.ofNat (v / 4096 % 16 + 224)).toNat = v / 4096 + 224 := by
    rw [toNat_ofNat_of_lt] <;> omega
  simp only [lead, UInt8.lt_iff_toNat_lt, ← UInt8.toNat_inj, hb, UInt8.reduceToNat]
  rw [if_neg (by omega), if_neg (by omega), if_neg (by omega)]
  by_cases h0 : v / 4096 = 0
  · rw [if_pos (by omega), h0]
    exact ⟨_, _, rfl, by simp; omega, by simp; omega⟩
  by_cases h13 : v / 4096 = 13
  · rw [if_neg (by omega), if_pos (by omega), h13]
    exact ⟨_, _, rfl, by simp, by simp; omega⟩
  · rw [if_neg (by omega), if_neg (by omega), if_pos (by omega)]
    refine ⟨_, _, congrArg _ (congrArg (State.within 1 · _ _ _) ?_), by simp, by simp; omega⟩
    omega

/-- The second byte of four is bounded so that no shorter form and nothing beyond the last
character is taken. -/
theorem lead_four {v : Nat} (h : 65535 < v) (h' : v < 0x110000) :
    ∃ low high : UInt8, lead (UInt8.ofNat (v / 262144 % 8 + 240)) =
        .next (.within 1 (v / 262144) low high 2) ∧
      low.toNat ≤ v / 4096 % 64 + 128 ∧ v / 4096 % 64 + 128 ≤ high.toNat := by
  have hb : (UInt8.ofNat (v / 262144 % 8 + 240)).toNat = v / 262144 + 240 := by
    rw [toNat_ofNat_of_lt] <;> omega
  simp only [lead, UInt8.lt_iff_toNat_lt, ← UInt8.toNat_inj, hb, UInt8.reduceToNat]
  rw [if_neg (by omega), if_neg (by omega), if_neg (by omega), if_neg (by omega),
    if_neg (by omega), if_neg (by omega)]
  by_cases h0 : v / 262144 = 0
  · rw [if_pos (by omega), h0]
    exact ⟨_, _, rfl, by simp; omega, by simp; omega⟩
  by_cases h4 : v / 262144 = 4
  · rw [if_neg (by omega), if_neg (by omega), if_pos (by omega), h4]
    exact ⟨_, _, rfl, by simp, by simp; omega⟩
  · rw [if_neg (by omega), if_pos (by omega)]
    refine ⟨_, _, congrArg _ (congrArg (State.within 1 · _ _ _) ?_), by simp, by simp; omega⟩
    omega

/-! ## Characters and texts -/

/-- The bytes of a character are read as that character. -/
theorem run_encodeChar (index : Nat) (c : Char) (rest : Bytes) :
    run index .start (String.utf8EncodeChar c ++ rest) =
      (run (index + (String.utf8EncodeChar c).length) .start rest).map (c :: ·) := by
  have hvalid : c.val.toNat < 0xD800 ∨ 0xDFFF < c.val.toNat ∧ c.val.toNat < 0x110000 := c.valid
  have hc := ofNat_toNat_val c
  unfold String.utf8EncodeChar
  generalize c.val.toNat = v at hvalid hc
  dsimp only
  split
  · rw [List.singleton_append, run, step, lead_ascii (by assumption), hc]
    rfl
  split
  · have hvalue : v / 64 * 64 + v % 64 = v := by omega
    rw [List.cons_append, List.cons_append, run_lead (lead_two (by omega) (by assumption)),
      run_within_zero (by simp) (by simp; omega), hvalue, hc]
    rfl
  split
  · obtain ⟨low, high, hlead, hlow, hhigh⟩ :=
      lead_three (v := v) (by omega) (by assumption) (hvalid.imp_right (·.1))
    have hvalue : (v / 4096 * 64 + v / 64 % 64) * 64 + v % 64 = v := by omega
    rw [List.cons_append, List.cons_append, List.cons_append, run_lead hlead,
      run_within_succ hlow hhigh, run_within_zero (by simp) (by simp; omega), hvalue, hc]
    rfl
  · obtain ⟨low, high, hlead, hlow, hhigh⟩ :=
      lead_four (v := v) (by omega) (hvalid.elim (by omega) (·.2))
    have hvalue : ((v / 262144 * 64 + v / 4096 % 64) * 64 + v / 64 % 64) * 64 + v % 64 = v := by
      omega
    rw [List.cons_append, List.cons_append, List.cons_append, List.cons_append, run_lead hlead,
      run_within_succ hlow hhigh, run_within_succ (by simp) (by simp; omega),
      run_within_zero (by simp) (by simp; omega), hvalue, hc]
    rfl

@[simp]
theorem encodeChars_nil : encodeChars [] = [] := rfl

@[simp]
theorem encodeChars_cons (c : Char) (cs : List Char) :
    encodeChars (c :: cs) = String.utf8EncodeChar c ++ encodeChars cs := List.flatMap_cons

@[simp]
theorem encodeChars_append (cs ds : List Char) :
    encodeChars (cs ++ ds) = encodeChars cs ++ encodeChars ds := List.flatMap_append

theorem run_encodeChars (index : Nat) (cs : List Char) :
    run index .start (encodeChars cs) = .ok cs := by
  induction cs generalizing index with
  | nil => rfl
  | cons c cs ih =>
    rw [encodeChars_cons, run_encodeChar, ih]
    rfl

/-- Characters written as bytes are read as the text of them. -/
theorem decode_encodeChars (cs : List Char) : decode (encodeChars cs) = .ok (String.ofList cs) := by
  rw [decode, run_encodeChars]
  rfl

/-- A text is read back from its bytes. -/
theorem decode_encode (text : String) : decode (encode text) = .ok text := by
  rw [encode, decode_encodeChars, String.ofList_toList]

/-! ## Bytes that are text -/

/-- A number is that of the character with it, unless it is half of a pair or too large. -/
theorem val_ofNat {v : Nat} (h : v < 0xD800 ∨ 0xDFFF < v ∧ v < 0x110000) :
    (Char.ofNat v).val.toNat = v := by
  rw [Char.ofNat, dif_pos h]
  rfl

section

variable {index seen value left : Nat} {low high : UInt8} {bs : Bytes} {cs : List Char}

/-- What is read inside a character begins with a byte within its bounds. -/
theorem run_within_inv (h : run index (.within seen value low high left) bs = .ok cs) :
    ∃ b rest, bs = b :: rest ∧ low.toNat ≤ b.toNat ∧ b.toNat ≤ high.toNat ∧
      run index (.within seen value low high left) (b :: rest) = .ok cs := by
  cases bs with
  | nil => cases h
  | cons b rest =>
    by_cases hb : low ≤ b ∧ b ≤ high
    · exact ⟨b, rest, rfl, UInt8.le_iff_toNat_le.1 hb.1, UInt8.le_iff_toNat_le.1 hb.2, h⟩
    · rw [run, step, if_neg hb] at h
      cases h

/-- The last byte of a character. -/
theorem last_of_run (h : run index (.within seen value low high 0) bs = .ok cs) :
    ∃ b rest cs', bs = b :: rest ∧ low.toNat ≤ b.toNat ∧ b.toNat ≤ high.toNat ∧
      cs = Char.ofNat (value * 64 + b.toNat % 64) :: cs' ∧
      run (index + seen + 1) .start rest = .ok cs' := by
  obtain ⟨b, rest, rfl, hlow, hhigh, h⟩ := run_within_inv h
  rw [run, step_within_byte hlow hhigh] at h
  obtain ⟨cs', hrest, rfl⟩ := map_eq_ok h
  exact ⟨b, rest, cs', rfl, hlow, hhigh, rfl, hrest⟩

/-- A byte of a character that is not the last. -/
theorem next_of_run (h : run index (.within seen value low high (left + 1)) bs = .ok cs) :
    ∃ b rest, bs = b :: rest ∧ low.toNat ≤ b.toNat ∧ b.toNat ≤ high.toNat ∧
      run index (.within (seen + 1) (value * 64 + b.toNat % 64) 0x80 0xBF left) rest = .ok cs := by
  obtain ⟨b, rest, rfl, hlow, hhigh, h⟩ := run_within_inv h
  rw [run, step_within_byte hlow hhigh] at h
  exact ⟨b, rest, rfl, hlow, hhigh, h⟩

end

/-- What the first byte of a character can be. -/
inductive Leads (b : UInt8) : Prop
  | one : b.toNat ≤ 127 → lead b = .char (Char.ofNat b.toNat) → Leads b
  | two : 0xC2 ≤ b.toNat → b.toNat ≤ 0xDF →
      lead b = .next (.within 1 (b.toNat % 32) 0x80 0xBF 0) → Leads b
  | three {low high : UInt8} : 0xE0 ≤ b.toNat → b.toNat ≤ 0xEF →
      0x80 ≤ low.toNat → (b.toNat = 0xE0 → 0xA0 ≤ low.toNat) →
      high.toNat ≤ 0xBF → (b.toNat = 0xED → high.toNat ≤ 0x9F) →
      lead b = .next (.within 1 (b.toNat % 16) low high 1) → Leads b
  | four {low high : UInt8} : 0xF0 ≤ b.toNat → b.toNat ≤ 0xF4 →
      0x80 ≤ low.toNat → (b.toNat = 0xF0 → 0x90 ≤ low.toNat) →
      high.toNat ≤ 0xBF → (b.toNat = 0xF4 → high.toNat ≤ 0x8F) →
      lead b = .next (.within 1 (b.toNat % 8) low high 2) → Leads b
  | none : lead b = .refused → Leads b

theorem leads (b : UInt8) : Leads b := by
  have heq (n : UInt8) : b = n ↔ b.toNat = n.toNat := UInt8.toNat_inj.symm
  have hlead := lead.eq_def b
  simp only [UInt8.lt_iff_toNat_lt, heq, UInt8.reduceToNat] at hlead
  split at hlead
  · exact .one (by omega) hlead
  split at hlead
  · exact .none hlead
  split at hlead
  · exact .two (by omega) (by omega) hlead
  split at hlead
  · rename_i h
    refine .three (by omega) (by omega) ?_ ?_ ?_ ?_ (by rw [hlead, h]) <;> simp [h]
  split at hlead
  · rename_i h
    refine .three (by omega) (by omega) ?_ ?_ ?_ ?_ (by rw [hlead, h]) <;> simp [h]
  split at hlead
  · refine .three (by omega) (by omega) ?_ ?_ ?_ ?_ hlead <;> simp <;> omega
  split at hlead
  · rename_i h
    refine .four (by omega) (by omega) ?_ ?_ ?_ ?_ (by rw [hlead, h]) <;> simp [h]
  split at hlead
  · refine .four (by omega) (by omega) ?_ ?_ ?_ ?_ hlead <;> simp <;> omega
  split at hlead
  · rename_i h
    refine .four (by omega) (by omega) ?_ ?_ ?_ ?_ (by rw [hlead, h]) <;> simp [h]
  · exact .none hlead

theorem ofNat_eq {n : Nat} {b : UInt8} (h : n = b.toNat) : UInt8.ofNat n = b := by
  rw [h, UInt8.ofNat_toNat]

/-- Bytes that are read as characters begin with the bytes of the first. -/
theorem exists_char_of_run {index : Nat} {b : UInt8} {bs : Bytes} {cs : List Char}
    (h : run index .start (b :: bs) = .ok cs) :
    ∃ c rest cs' index', b :: bs = String.utf8EncodeChar c ++ rest ∧ cs = c :: cs' ∧
      run index' .start rest = .ok cs' := by
  cases leads b with
  | one hb hlead =>
    rw [run, step, hlead] at h
    obtain ⟨cs', hrest, rfl⟩ := map_eq_ok h
    refine ⟨_, bs, cs', _, ?_, rfl, hrest⟩
    rw [String.utf8EncodeChar, val_ofNat (by omega), if_pos hb, UInt8.ofNat_toNat]
    rfl
  | two hb hb' hlead =>
    rw [run_lead hlead] at h
    obtain ⟨b₁, rest, cs', rfl, hlow, hhigh, rfl, hrest⟩ := last_of_run h
    refine ⟨_, rest, cs', _, ?_, rfl, hrest⟩
    simp only [UInt8.reduceToNat] at hlow hhigh
    rw [String.utf8EncodeChar, val_ofNat (by omega), if_neg (by omega), if_pos (by omega),
      ofNat_eq (b := b) (by omega), ofNat_eq (b := b₁) (by omega)]
    rfl
  | three hb hb' hlow₀ hlow₁ hhigh₀ hhigh₁ hlead =>
    rw [run_lead hlead] at h
    obtain ⟨b₁, bs₁, rfl, hlow, hhigh, h⟩ := next_of_run h
    obtain ⟨b₂, rest, cs', rfl, hlow₂, hhigh₂, rfl, hrest⟩ := last_of_run h
    refine ⟨_, rest, cs', _, ?_, rfl, hrest⟩
    simp only [UInt8.reduceToNat] at hlow₂ hhigh₂
    rw [String.utf8EncodeChar, val_ofNat (by omega), if_neg (by omega), if_neg (by omega),
      if_pos (by omega), ofNat_eq (b := b) (by omega), ofNat_eq (b := b₁) (by omega),
      ofNat_eq (b := b₂) (by omega)]
    rfl
  | four hb hb' hlow₀ hlow₁ hhigh₀ hhigh₁ hlead =>
    rw [run_lead hlead] at h
    obtain ⟨b₁, bs₁, rfl, hlow, hhigh, h⟩ := next_of_run h
    obtain ⟨b₂, bs₂, rfl, hlow₂, hhigh₂, h⟩ := next_of_run h
    obtain ⟨b₃, rest, cs', rfl, hlow₃, hhigh₃, rfl, hrest⟩ := last_of_run h
    refine ⟨_, rest, cs', _, ?_, rfl, hrest⟩
    simp only [UInt8.reduceToNat] at hlow₂ hhigh₂ hlow₃ hhigh₃
    rw [String.utf8EncodeChar, val_ofNat (by omega), if_neg (by omega), if_neg (by omega),
      if_neg (by omega), ofNat_eq (b := b) (by omega), ofNat_eq (b := b₁) (by omega),
      ofNat_eq (b := b₂) (by omega), ofNat_eq (b := b₃) (by omega)]
    rfl
  | none hlead =>
    rw [run, step, hlead] at h
    cases h

/-- Bytes that are read as characters are what the characters are written as. -/
theorem encodeChars_of_run {index : Nat} {bs : Bytes} {cs : List Char}
    (h : run index .start bs = .ok cs) : encodeChars cs = bs := by
  induction cs generalizing index bs with
  | nil =>
    cases bs with
    | nil => rfl
    | cons b bs =>
      obtain ⟨c, rest, cs', index', -, hcs, -⟩ := exists_char_of_run h
      cases hcs
  | cons c cs ih =>
    cases bs with
    | nil => cases h
    | cons b bs =>
      obtain ⟨c', rest, cs', index', hbytes, hcs, hrest⟩ := exists_char_of_run h
      obtain ⟨rfl, rfl⟩ := List.cons.inj hcs
      rw [encodeChars_cons, ih hrest, hbytes]

/-- Bytes are read as a text just if they are what the text is written as. -/
theorem decode_eq_ok_iff {bytes : Bytes} {text : String} :
    decode bytes = .ok text ↔ bytes = encode text := by
  constructor
  · intro h
    obtain ⟨cs, hcs, rfl⟩ := map_eq_ok h
    rw [encode, String.toList_ofList, encodeChars_of_run hcs]
  · rintro rfl
    exact decode_encode text

end Conduit.Utf8
