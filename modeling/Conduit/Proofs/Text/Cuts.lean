import Conduit.Text.Blank
import Mathlib.Data.List.Infix

/-!
# Cutting texts

A text that is split at a separator has one piece more than separators, so always one
(`Text.split_ne_nil`), and may be split at any one of its separators first
(`Text.splitChars_append`).
-/

namespace Conduit.Text

variable {sep : Char} {left right : List Char}

theorem splitChars_ne_nil (sep : Char) (chars : List Char) : splitChars sep chars ≠ [] := by
  cases chars with
  | nil => exact List.cons_ne_nil _ _
  | cons c rest =>
    unfold splitChars
    split
    · exact List.cons_ne_nil _ _
    · split <;> exact List.cons_ne_nil _ _

theorem splitChars_append (sep : Char) (left right : List Char) :
    splitChars sep (left ++ sep :: right) = splitChars sep left ++ splitChars sep right := by
  induction left with
  | nil => exact if_pos rfl
  | cons c rest ih =>
    rw [List.cons_append, splitChars, splitChars]
    split
    · rw [ih, List.cons_append]
    · obtain ⟨piece, pieces, hpieces⟩ := List.exists_cons_of_ne_nil (splitChars_ne_nil sep rest)
      rw [ih, hpieces]
      rfl

theorem splitChars_of_notMem (h : sep ∉ right) : splitChars sep right = [right] := by
  induction right with
  | nil => rfl
  | cons c rest ih =>
    obtain ⟨hne, hrest⟩ := List.ne_and_not_mem_of_not_mem_cons h
    rw [splitChars, if_neg hne.symm, ih hrest]

theorem split_ne_nil (sep : Char) (text : String) : split sep text ≠ [] :=
  fun h ↦ splitChars_ne_nil sep text.toList (List.map_eq_nil_iff.1 h)

/-- A text is split at its last separator first, or at all of them in turn. -/
theorem split_append {before behind : String} (h : sep ∉ behind.toList) :
    split sep (before ++ String.singleton sep ++ behind) = split sep before ++ [behind] := by
  have hchars : (before ++ String.singleton sep ++ behind).toList =
      before.toList ++ sep :: behind.toList := by simp
  rw [split, hchars, splitChars_append, List.map_append, splitChars_of_notMem h,
    List.map_singleton, String.ofList_toList, split]

/-! ## Occurrences -/

theorem occurs_iff {α : Type u} [BEq α] [LawfulBEq α] {needle hay : List α} :
    occurs needle hay = true ↔ needle <:+: hay := by
  induction hay with
  | nil => rw [occurs, List.isEmpty_iff, List.infix_nil]
  | cons a rest ih =>
    rw [occurs, Bool.or_eq_true, ih, List.isPrefixOf_iff_prefix, List.infix_cons_iff]

theorem trimChars_infix (chars : List Char) : trimChars chars <:+: chars := by
  rw [trimChars]
  refine List.IsInfix.trans (List.IsPrefix.isInfix ?_) (List.dropWhile_suffix isBlank).isInfix
  rw [← List.reverse_suffix, List.reverse_reverse]
  exact List.dropWhile_suffix isBlank

end Conduit.Text
