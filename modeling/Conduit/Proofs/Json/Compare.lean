import Conduit.Json.Compare
import Conduit.Proofs.Number.Rounding

/-!
# Comparing whole numbers

Whole numbers are compared as the numbers they are rounded to (`Value.compare_whole`). So all
operators are right about two of them just if these are equal or not rounded to one number, as they
are not up to `2 ^ 53`; longer ones that differ may be found equal (`Value.long_numbers_equal`).
-/

namespace Conduit

/-- What an operator says about two whole numbers. -/
def Operator.Relates : Operator → Int → Int → Prop
  | .eq, a, b => a = b
  | .ne, a, b => a ≠ b
  | .gt, a, b => b < a
  | .ge, a, b => b ≤ a
  | .lt, a, b => a < b
  | .le, a, b => a ≤ b

theorem Operator.allows_compare_iff (op : Operator) (a b : Int) :
    op.allows (Ord.compare a b) = true ↔ op.Relates a b := by
  rcases lt_trichotomy a b with h | rfl | h
  · rw [compare_lt_iff_lt.2 h]
    cases op <;> simp [allows, Relates] <;> omega
  · rw [compare_eq_iff_eq.2 rfl]
    cases op <;> simp [allows, Relates]
  · rw [compare_gt_iff_gt.2 h]
    cases op <;> simp [allows, Relates] <;> omega

namespace Value

open Double (Nearest)

theorem natAbs_lt (a : Whole) : a.val.natAbs < 0x10000000000000000 := by
  have := a.property
  omega

/-- Every operator says of two whole numbers what it says of those they are rounded to. -/
theorem exists_compare_whole (a b : Whole) :
    ∃ r s, Nearest a r ∧ Nearest b s ∧
      ∀ op, (number (.whole a)).compare op (number (.whole b)) = true ↔ op.Relates r s := by
  obtain ⟨r, s, hr, hs, horder⟩ := Double.exists_order_ofInt (natAbs_lt a) (natAbs_lt b)
  refine ⟨r, s, hr, hs, fun op ↦ ?_⟩
  have h : (number (.whole a)).order? (number (.whole b)) = some (Ord.compare r s) := horder
  unfold compare
  rw [h]
  exact op.allows_compare_iff r s

/-- Whole numbers of at most 64 bits are compared as the numbers they are rounded to. All operators
are right about two of them just if they are equal or are not rounded to one number; this is so up
to `2 ^ 53`. No two numbers are ever put in the wrong order. -/
theorem compare_whole (a b : Whole) :
    let holds (op : Operator) := (number (.whole a)).compare op (number (.whole b)) = true
    ∃ r s, Nearest a r ∧ Nearest b s ∧ (∀ op, holds op ↔ op.Relates r s) ∧
      ((∀ op, holds op ↔ op.Relates a b) ↔ a = b ∨ r ≠ s) ∧
      (a.val.natAbs ≤ 2 ^ 53 → b.val.natAbs ≤ 2 ^ 53 → ∀ op, holds op ↔ op.Relates a b) ∧
      (holds .lt → a.val < b) ∧ (holds .gt → b.val < a) := by
  obtain ⟨r, s, hr, hs, hholds⟩ := exists_compare_whole a b
  have hlt : r < s → a.val < b := fun h ↦ by
    by_contra hnot
    exact absurd (hs.mono hr (Int.not_lt.1 hnot)) (Int.not_le.2 h)
  have hgt : s < r → b.val < a := fun h ↦ by
    by_contra hnot
    exact absurd (hr.mono hs (Int.not_lt.1 hnot)) (Int.not_le.2 h)
  refine ⟨r, s, hr, hs, hholds, ⟨fun h ↦ ?_, fun h op ↦ ?_⟩, fun ha hb op ↦ ?_,
    fun h ↦ hlt ((hholds .lt).1 h), fun h ↦ hgt ((hholds .gt).1 h)⟩
  · rw [or_iff_not_imp_right, not_not]
    exact fun heq ↦ Subtype.ext ((h .eq).1 ((hholds .eq).2 heq))
  · refine (hholds op).trans ?_
    rcases h with rfl | hne
    · obtain rfl := hr.unique hs
      cases op <;> simp [Operator.Relates]
    · have hab : a.val ≠ b.val := fun heq ↦ hne (hr.unique (heq ▸ hs))
      cases op <;> simp only [Operator.Relates] <;> omega
  · rw [← hr.eq_of_fits (Double.fits_of_natAbs_le ha),
      ← hs.eq_of_fits (Double.fits_of_natAbs_le hb)]
    exact hholds op

/-- The longest numbers about which every operator is right. -/
theorem compare_whole_limit :
    let a : Whole := ⟨9007199254740992, by decide⟩
    let b : Whole := ⟨-9007199254740992, by decide⟩
    a.val.natAbs ≤ 2 ^ 53 ∧ b.val.natAbs ≤ 2 ^ 53 ∧
      ∀ op, (number (.whole a)).compare op (number (.whole b)) = true ↔ op.Relates a b := by
  obtain ⟨r, s, -, -, -, -, hexact, -⟩ :=
    compare_whole ⟨9007199254740992, by decide⟩ ⟨-9007199254740992, by decide⟩
  exact ⟨by decide, by decide, hexact (by decide) (by decide)⟩

/-- Two long numbers that differ are found equal. -/
theorem long_numbers_equal :
    let a : Whole := ⟨9007199254740993, by decide⟩
    let b : Whole := ⟨9007199254740992, by decide⟩
    a ≠ b ∧ (number (.whole a)).compare .eq (number (.whole b)) = true := by
  decide +kernel

end Value

end Conduit
