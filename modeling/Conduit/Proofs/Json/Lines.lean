import Conduit.Text.Blank
import Conduit.Proofs.Json.Parts
import Conduit.Proofs.Json.Scalars

/-!
# Compact text is a line

The compact text of a value has no controls (`Value.le_of_mem_toBytes`), as strings escape them and
nothing else is written but digits, letters and punctuation. It is not blank either
(`Value.not_isBlank_toText`). So it can stand on a line by itself.
-/

namespace Conduit.Json

open Utf8

/-- A text without controls. -/
def Printable (cs : List Char) : Prop := ∀ c ∈ cs, 0x20 ≤ c.toNat

instance (cs : List Char) : Decidable (Printable cs) :=
  List.decidableBAll (fun c : Char ↦ 0x20 ≤ c.toNat) cs

variable {cs ds : List Char}

theorem Printable.append (hc : Printable cs) (hd : Printable ds) : Printable (cs ++ ds) :=
  fun c h ↦ (List.mem_append.1 h).elim (hc c) (hd c)

theorem Printable.cons {c : Char} (hc : 0x20 ≤ c.toNat) (hd : Printable ds) : Printable (c :: ds) :=
  List.forall_mem_cons.2 ⟨hc, hd⟩

/-- The bytes of a text without controls are no controls. -/
theorem Printable.le_of_mem_encodeChars (h : Printable cs) {b : UInt8} (hb : b ∈ encodeChars cs) :
    0x20 ≤ b.toNat := by
  obtain ⟨c, hc, hb⟩ := List.mem_flatMap.1 hb
  by_cases hascii : c.toNat < 128
  · rw [encodeChar_ascii hascii, List.mem_singleton] at hb
    rw [hb, toNat_asciiByte hascii]
    exact h c hc
  · have := le_of_mem_encodeChar (Nat.not_lt.1 hascii) hb
    omega

/-! ## What is written -/

theorem le_hexDigit : ∀ n < 16, 0x20 ≤ (hexDigit n).toNat := by decide

theorem printable_escapeChar (c : Char) : Printable (escapeChar c) := by
  unfold escapeChar
  -- a control is written by its letter or by its number
  iterate 7
    split
    · decide
  split
  · have hlow := le_hexDigit (c.toNat % 16) (by omega)
    have hhigh := le_hexDigit (c.toNat / 16) (by omega)
    have hprefix : Printable ['\\', 'u', '0', '0'] := by decide
    exact hprefix.append (.cons hhigh (.cons hlow nofun))
  · rename_i hcontrol
    exact .cons (Nat.not_lt.1 hcontrol) nofun

theorem printable_writeString (s : String) : Printable (writeString s) := by
  refine .cons (by decide) (.append (fun c hc ↦ ?_) (by decide))
  obtain ⟨d, -, hc⟩ := List.mem_flatMap.1 hc
  exact printable_escapeChar d c hc

theorem printable_writeWhole (n : Int) : Printable (writeWhole n) := by
  have hdigits : Printable (Nat.toDigits 10 n.natAbs) := fun c hc ↦ by
    have := toNat_of_isDigit (isDigit_of_mem_toDigits hc)
    omega
  unfold writeWhole
  split
  · exact .cons (by decide) hdigits
  · exact hdigits

mutual

theorem printable_write {v : Value} (h : v.AllWhole) : Printable (write v) := by
  match v with
  | .null | .bool true | .bool false => decide
  | .number (.whole n) => exact printable_writeWhole n.val
  | .number (.double d) => exact absurd h (by simp [Value.AllWhole])
  | .string s => exact printable_writeString s
  | .array items =>
    exact .cons (by decide) (.append (printable_writeItems (Value.allWhole_array.1 h)) (by decide))
  | .object members =>
    exact .cons (by decide)
      (.append (printable_writeMembers (Value.allWhole_object.1 h)) (by decide))

theorem printable_writeItems {items : List Value} (h : ∀ v ∈ items, v.AllWhole) :
    Printable (writeItems items) := by
  match items with
  | [] => exact nofun
  | [v] => exact printable_write (h v List.mem_cons_self)
  | v :: w :: rest =>
    obtain ⟨hv, hrest⟩ := List.forall_mem_cons.1 h
    exact .append (printable_write hv) (.cons (by decide) (printable_writeItems hrest))

theorem printable_writeMembers {members : List (String × Value)}
    (h : ∀ m ∈ members, m.2.AllWhole) : Printable (writeMembers members) := by
  match members with
  | [] => exact nofun
  | [(k, v)] =>
    exact .append (printable_writeString k)
      (.cons (by decide) (printable_write (h _ List.mem_cons_self)))
  | (k, v) :: m :: rest =>
    obtain ⟨hv, hrest⟩ := List.forall_mem_cons.1 h
    exact .append (printable_writeString k) (.cons (by decide)
      (.append (printable_write hv) (.cons (by decide) (printable_writeMembers hrest))))

end

theorem not_isBlank_of_isDigit {c : Char} (h : c.isDigit = true) : Text.isBlank c = false := by
  obtain ⟨hlow, hhigh⟩ := toNat_of_isDigit h
  refine Bool.eq_false_iff.2 fun hblank ↦ ?_
  simp only [Text.isBlank, Bool.or_eq_true, Bool.and_eq_true, decide_eq_true_eq, beq_iff_eq]
    at hblank
  omega

/-- Something that can be seen is written. -/
theorem exists_mem_write {v : Value} (h : v.AllWhole) :
    ∃ c ∈ write v, Text.isBlank c = false := by
  match v with
  | .null | .bool true | .bool false | .string _ | .array _ | .object _ =>
    exact ⟨_, List.mem_cons_self, by decide⟩
  | .number (.double d) => exact absurd h (by simp [Value.AllWhole])
  | .number (.whole n) =>
    obtain ⟨c, hc⟩ : ∃ c, c ∈ Nat.toDigits 10 n.val.natAbs :=
      List.exists_mem_of_ne_nil _ Nat.toDigits_ne_nil
    refine ⟨c, ?_, not_isBlank_of_isDigit (isDigit_of_mem_toDigits hc)⟩
    change c ∈ writeWhole n.val
    unfold writeWhole
    split
    · exact List.mem_cons_of_mem _ hc
    · exact hc

end Conduit.Json

namespace Conduit.Value

/-- The compact text has no controls, so no line breaks. -/
theorem le_of_mem_toBytes {v : Value} (h : v.AllWhole) {b : UInt8} (hb : b ∈ v.toBytes) :
    0x20 ≤ b.toNat := (Json.printable_write h).le_of_mem_encodeChars hb

/-- The compact text is not blank. -/
theorem not_isBlank_toText {v : Value} (h : v.AllWhole) :
    v.toText.toList.all Text.isBlank = false := by
  obtain ⟨c, hc, hseen⟩ := Json.exists_mem_write h
  rw [toText, String.toList_ofList]
  exact List.all_eq_false.2 ⟨c, hc, by rw [hseen]; exact nofun⟩

end Conduit.Value
