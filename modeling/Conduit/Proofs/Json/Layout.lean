import Conduit.Json.Reader
import Conduit.Proofs.Text.Utf8

/-!
# Layouts of JSON texts

Compact and indented texts differ in their blank space only. A layout says where blank space stands;
`Json.spell` writes a value in any layout, and compact text (`Json.spell_compact`) and indented text
(`Json.spell_indented`) are two of them. What is proved of reading a spelled value holds of both.
-/

namespace Conduit.Json

open Utf8

/-- Characters that a reader passes over. -/
def IsBlank (cs : List Char) : Prop := ∀ c ∈ cs, c = ' ' ∨ c = '\n' ∨ c = '\t' ∨ c = '\r'

/-- Where blank space stands: in front of each item and member and of the bracket behind them, by
depth, and behind a colon. -/
structure Layout where
  line : (depth : Nat) → List Char
  gap : List Char
  blank_line : ∀ depth, IsBlank (line depth)
  blank_gap : IsBlank gap

namespace Layout

/-- No blank space. -/
def compact : Layout where
  line _ := []
  gap := []
  blank_line _ _ h := absurd h List.not_mem_nil
  blank_gap _ h := absurd h List.not_mem_nil

/-- A new line for each item and member, two spaces deeper than the brackets. -/
def indented : Layout where
  line := newline
  gap := [' ']
  blank_line depth c h := by
    rcases List.mem_cons.1 h with rfl | h
    · exact .inr (.inl rfl)
    · exact .inl (List.eq_of_mem_replicate h)
  blank_gap c h := .inl (List.mem_singleton.1 h)

end Layout

mutual

/-- The text of a value whose brackets stand at a depth. -/
def spell (L : Layout) (depth : Nat) : Value → List Char
  | .null => ['n', 'u', 'l', 'l']
  | .bool true => ['t', 'r', 'u', 'e']
  | .bool false => ['f', 'a', 'l', 's', 'e']
  | .number n => writeNumber n
  | .string s => writeString s
  | .array [] => ['[', ']']
  | .array (v :: rest) =>
    '[' :: (spellItems L (depth + 1) (v :: rest) ++ L.line depth ++ [']'])
  | .object [] => ['{', '}']
  | .object (m :: rest) =>
    '{' :: (spellMembers L (depth + 1) (m :: rest) ++ L.line depth ++ ['}'])

def spellItems (L : Layout) (depth : Nat) : List Value → List Char
  | [] => []
  | [v] => L.line depth ++ spell L depth v
  | v :: rest => L.line depth ++ spell L depth v ++ ',' :: spellItems L depth rest

def spellMembers (L : Layout) (depth : Nat) : List (String × Value) → List Char
  | [] => []
  | [(k, v)] => L.line depth ++ writeString k ++ ':' :: (L.gap ++ spell L depth v)
  | (k, v) :: rest =>
    L.line depth ++ writeString k ++ ':' :: (L.gap ++ (spell L depth v ++
      ',' :: spellMembers L depth rest))

end

/-! ## The two layouts in use -/

mutual

theorem spell_compact (depth : Nat) (v : Value) : spell .compact depth v = write v := by
  match v with
  | .null => simp only [spell, write]
  | .bool true => simp only [spell, write]
  | .bool false => simp only [spell, write]
  | .number n => simp only [spell, write]
  | .string s => simp only [spell, write]
  | .array [] => simp [spell, write, writeItems]
  | .array (v :: rest) =>
    simp [spell, write, Layout.compact, ← spellItems_compact (depth + 1) (v :: rest)]
  | .object [] => simp [spell, write, writeMembers]
  | .object (m :: rest) =>
    simp [spell, write, Layout.compact, ← spellMembers_compact (depth + 1) (m :: rest)]

theorem spellItems_compact (depth : Nat) (items : List Value) :
    spellItems .compact depth items = writeItems items := by
  match items with
  | [] => simp only [spellItems, writeItems]
  | [v] => simp [spellItems, writeItems, Layout.compact, ← spell_compact depth v]
  | v :: w :: rest =>
    simp [spellItems, writeItems, Layout.compact, ← spell_compact depth v,
      ← spellItems_compact depth (w :: rest)]

theorem spellMembers_compact (depth : Nat) (members : List (String × Value)) :
    spellMembers .compact depth members = writeMembers members := by
  match members with
  | [] => simp only [spellMembers, writeMembers]
  | [(k, v)] => simp [spellMembers, writeMembers, Layout.compact, ← spell_compact depth v]
  | (k, v) :: m :: rest =>
    simp [spellMembers, writeMembers, Layout.compact, ← spell_compact depth v,
      ← spellMembers_compact depth (m :: rest)]

end

mutual

theorem spell_indented (depth : Nat) (v : Value) : spell .indented depth v = indent depth v := by
  match v with
  | .null => simp only [spell, indent]
  | .bool true => simp only [spell, indent]
  | .bool false => simp only [spell, indent]
  | .number n => simp only [spell, indent]
  | .string s => simp only [spell, indent]
  | .array [] => simp only [spell, indent]
  | .array (v :: rest) =>
    simp only [spell, indent, spellItems_indented (depth + 1) (v :: rest)]
    rfl
  | .object [] => simp only [spell, indent]
  | .object (m :: rest) =>
    simp only [spell, indent, spellMembers_indented (depth + 1) (m :: rest)]
    rfl

theorem spellItems_indented (depth : Nat) (items : List Value) :
    spellItems .indented depth items = indentItems depth items := by
  match items with
  | [] => simp only [spellItems, indentItems]
  | [v] =>
    simp only [spellItems, indentItems, spell_indented depth v]
    rfl
  | v :: w :: rest =>
    simp only [spellItems, indentItems, spell_indented depth v,
      spellItems_indented depth (w :: rest)]
    rfl

theorem spellMembers_indented (depth : Nat) (members : List (String × Value)) :
    spellMembers .indented depth members = indentMembers depth members := by
  match members with
  | [] => simp only [spellMembers, indentMembers]
  | [(k, v)] =>
    simp only [spellMembers, indentMembers, spell_indented depth v]
    rfl
  | (k, v) :: m :: rest =>
    simp only [spellMembers, indentMembers, spell_indented depth v,
      spellMembers_indented depth (m :: rest)]
    rfl

end

/-! ## Blank space -/

theorem isSpace_of_isBlank {cs : List Char} (h : IsBlank cs) :
    ∀ b ∈ encodeChars cs, isSpace b = true := by
  intro b hb
  obtain ⟨c, hc, hb⟩ := List.mem_flatMap.1 hb
  rcases h c hc with rfl | rfl | rfl | rfl <;> obtain rfl := List.mem_singleton.1 hb <;> rfl

/-- Blank space is passed over. -/
theorem skipSpace_blank {cs : List Char} (h : IsBlank cs) (s : Bytes) :
    skipSpace (encodeChars cs ++ s) = skipSpace s := by
  have hspace := isSpace_of_isBlank h
  generalize encodeChars cs = bs at hspace
  induction bs with
  | nil => rfl
  | cons b bs ih =>
    rw [List.cons_append, skipSpace, if_pos (hspace b List.mem_cons_self)]
    exact ih fun b hb ↦ hspace b (List.mem_cons_of_mem _ hb)

theorem skipSpace_cons {b : UInt8} (h : isSpace b = false) (s : Bytes) :
    skipSpace (b :: s) = b :: s := by
  rw [skipSpace, if_neg (by simp [h])]

/-- Nothing blank is left behind blank space. -/
theorem skipSpace_skipSpace (s : Bytes) : skipSpace (skipSpace s) = skipSpace s := by
  induction s with
  | nil => rfl
  | cons b s ih =>
    cases hb : isSpace b with
    | true => rw [skipSpace, if_pos hb, ih]
    | false => rw [skipSpace_cons hb, skipSpace_cons hb]

end Conduit.Json
