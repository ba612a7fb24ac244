import Conduit.Number.Double
import Mathlib.Algebra.Order.Group.Unbundled.Int
import Mathlib.Order.Monotone.Basic
import Mathlib.Order.Compare
import Mathlib.Tactic.Ring
import Mathlib.Tactic.Linarith

/-!
# Rounding whole numbers

A finite `Double` is a whole count of `2 ^ (-1074)`, and finite numbers are ordered as their counts
(`Double.order_eq_compare_count`). A whole number of at most 64 bits becomes the number nearest to
it among those whose significand has 53 bits, a tie going to the even one (`Double.Nearest`,
`Double.exists_nearest`). Rounding keeps the order, but two numbers may become one.
-/

namespace Conduit

namespace Double

variable {a b : Double} {m n : Nat}

/-! ## Counts -/

/-- The count of `2 ^ (-1074)` that belongs to a magnitude. -/
def units (m : Nat) : Nat :=
  if m < 0x10000000000000 then m
  else (m % 0x10000000000000 + 0x10000000000000) * 2 ^ (m / 0x10000000000000 - 1)

/-- A significand that carries into the exponent counts as much as before. -/
theorem units_carry {e r : Nat} (hlow : 0x10000000000000 ≤ r) (hhigh : r ≤ 0x20000000000000) :
    units (e * 0x10000000000000 + r) = r * 2 ^ e := by
  rw [units, if_neg (by omega)]
  rcases Nat.lt_or_eq_of_le hhigh with hlt | rfl
  · have hdiv : (e * 0x10000000000000 + r) / 0x10000000000000 - 1 = e := by omega
    have hmod : (e * 0x10000000000000 + r) % 0x10000000000000 + 0x10000000000000 = r := by omega
    rw [hdiv, hmod]
  · have hdiv : (e * 0x10000000000000 + 0x20000000000000) / 0x10000000000000 - 1 = e + 1 := by omega
    have hmod : (e * 0x10000000000000 + 0x20000000000000) % 0x10000000000000 + 0x10000000000000 =
        0x10000000000000 := by omega
    rw [hdiv, hmod, Nat.pow_succ]
    ring

theorem units_lt_units_succ (m : Nat) : units m < units (m + 1) := by
  by_cases hm : m < 0x10000000000000
  · rw [units, if_pos hm]
    by_cases hsucc : m + 1 < 0x10000000000000
    · rw [units, if_pos hsucc]
      exact Nat.lt_succ_self m
    · obtain rfl : m = 0xfffffffffffff := by omega
      decide
  · -- Both magnitudes have the exponent of the first, the second one perhaps with a carry.
    obtain ⟨e, r, hlow, hhigh, rfl⟩ : ∃ e r, 0x10000000000000 ≤ r ∧ r < 0x20000000000000 ∧
        m = e * 0x10000000000000 + r :=
      ⟨m / 0x10000000000000 - 1, m % 0x10000000000000 + 0x10000000000000, by omega, by omega,
        by omega⟩
    rw [Nat.add_assoc, units_carry hlow (Nat.le_of_lt hhigh), units_carry (by omega) hhigh]
    exact Nat.mul_lt_mul_of_pos_right (Nat.lt_succ_self r) (Nat.two_pow_pos e)

theorem units_strictMono : StrictMono units := strictMono_nat_of_lt_succ units_lt_units_succ

/-- The count that belongs to a key. -/
def countOfKey (k : Int) : Int := if k < 0 then -(units k.natAbs : Int) else units k.natAbs

theorem countOfKey_lt {k l : Int} (h : k < l) : countOfKey k < countOfKey l := by
  have hzero : units 0 = 0 := rfl
  unfold countOfKey
  split <;> split
  · have := units_strictMono (show l.natAbs < k.natAbs by omega)
    omega
  · have := units_strictMono (show 0 < k.natAbs by omega)
    omega
  · omega
  · have := units_strictMono (show k.natAbs < l.natAbs by omega)
    omega

theorem count_least (d : Double) :
    d.count (-1074) = if d.negative then -(units d.magnitude : Int) else units d.magnitude := by
  have hunits : d.significand <<< (d.scale - -1074).toNat = units d.magnitude := by
    rw [significand, scale, units]
    by_cases h : d.magnitude < 0x10000000000000
    · rw [if_pos h, if_pos h, if_pos h]
      exact Nat.shiftLeft_zero
    · rw [if_neg h, if_neg h, if_neg h, Nat.shiftLeft_eq]
      congr 2
      omega
  rw [count, hunits]

theorem count_eq_countOfKey (d : Double) : d.count (-1074) = countOfKey d.key := by
  rw [count_least, countOfKey, key]
  split
  · rcases Nat.eq_zero_or_pos d.magnitude with h | h
    · simp [h, units]
    · rw [if_pos (by omega)]
      simp
  · rw [if_neg (by omega)]
    simp

/-- Numbers are ordered as their counts. -/
theorem order_eq_compare_count (ha : a.isNaN = false) (hb : b.isNaN = false) :
    a.order b = some (compare (a.count (-1074)) (b.count (-1074))) := by
  have hmono : StrictMono countOfKey := fun _ _ ↦ countOfKey_lt
  rw [order, ha, hb, count_eq_countOfKey, count_eq_countOfKey, ← cmp_eq_compare, ← cmp_eq_compare,
    hmono.cmp_map_eq]
  rfl

/-! ## The pattern -/

section

variable {negative : Bool}

theorem toNat_bits_ofMagnitude (h : m < 0x8000000000000000) :
    (ofMagnitude negative m).bits.toNat = if negative then 0x8000000000000000 + m else m := by
  rw [ofMagnitude, UInt64.toNat_ofNat', Nat.mod_eq_of_lt]
  split <;> omega

theorem magnitude_ofMagnitude (h : m < 0x8000000000000000) :
    (ofMagnitude negative m).magnitude = m := by
  rw [magnitude, toNat_bits_ofMagnitude h]
  split <;> omega

theorem negative_ofMagnitude (h : m < 0x8000000000000000) :
    (ofMagnitude negative m).negative = negative := by
  rw [Double.negative, toNat_bits_ofMagnitude h]
  cases negative
  · exact decide_eq_false (by simp; omega)
  · exact decide_eq_true (by simp)

end

/-! ## Rounding -/

theorem roundHalfEven_one (n : Nat) : roundHalfEven n 1 = n := by
  rw [roundHalfEven]
  simp [Nat.mod_one]

theorem roundHalfEven_cases (num den : Nat) :
    (roundHalfEven num den = num / den ∧ 2 * (num % den) ≤ den ∧
        (2 * (num % den) = den → 2 ∣ roundHalfEven num den)) ∨
      (roundHalfEven num den = num / den + 1 ∧ den ≤ 2 * (num % den) ∧
        (2 * (num % den) = den → 2 ∣ roundHalfEven num den)) := by
  dsimp only [roundHalfEven]
  split
  · exact .inl ⟨rfl, by omega, by omega⟩
  · split
    · exact .inr ⟨rfl, by omega, by omega⟩
    · split
      · exact .inl ⟨rfl, by omega, by omega⟩
      · exact .inr ⟨rfl, by omega, by omega⟩

theorem roundHalfEven_bounds (num den : Nat) :
    num / den ≤ roundHalfEven num den ∧ roundHalfEven num den ≤ num / den + 1 := by
  rcases roundHalfEven_cases num den with ⟨h, -⟩ | ⟨h, -⟩ <;> omega

theorem shifted_natCast (num den k : Nat) : shifted num den k = (num, den * 2 ^ k) := by
  rw [← Nat.shiftLeft_eq]
  rfl

theorem shifted_neg_natCast (num den k : Nat) :
    shifted num den (-(k : Int)) = (num * 2 ^ k, den) := by
  rw [← Nat.shiftLeft_eq]
  cases k <;> rfl

/-- The count of the number one is two to this power. It stays folded: nothing should compute the
power. -/
@[irreducible]
def placesOfOne : Nat := 1074

theorem placesOfOne_eq : placesOfOne = 1074 := by rw [placesOfOne]

/-- The number nearest to a whole one with a significand of 53 bits. -/
def rounded (n : Nat) : Nat := roundHalfEven n (2 ^ (n.log2 - 52)) * 2 ^ (n.log2 - 52)

/-- The first guess of the scale is one too small. -/
theorem roundMagnitude_eq (hpos : n ≠ 0)
    (hfirst : 0x20000000000000 ≤
      (shifted n 1 (n.log2 - (53 : Nat))).1 / (shifted n 1 (n.log2 - (53 : Nat))).2) :
    roundMagnitude n 1 = min infinite ((n.log2 + 1022) * 0x10000000000000 +
      roundHalfEven (shifted n 1 (n.log2 - (52 : Nat))).1 (shifted n 1 (n.log2 - (52 : Nat))).2) := by
  have hguess : max (-1074 : Int) ((n.log2 : Int) - ((1 : Nat).log2 : Int) - 53) =
      n.log2 - (53 : Nat) := by
    have hone : (1 : Nat).log2 = 0 := by decide
    omega
  have hscale : (n.log2 : Int) - (53 : Nat) + 1 = n.log2 - (52 : Nat) := by omega
  have hexponent : ((n.log2 : Int) - (52 : Nat) + 1074).toNat = n.log2 + 1022 := by omega
  rw [roundMagnitude, if_neg hpos, hguess]
  dsimp only
  rw [if_pos hfirst, hscale, hexponent]

theorem shifted_of_le {k : Nat} (h : n.log2 ≤ k) :
    shifted n 1 ((n.log2 : Int) - k) = (n * 2 ^ (k - n.log2), 1) := by
  rw [← shifted_neg_natCast]
  congr 1
  omega

theorem shifted_of_ge {k : Nat} (h : k ≤ n.log2) :
    shifted n 1 ((n.log2 : Int) - k) = (n, 2 ^ (n.log2 - k)) := by
  rw [← Nat.one_mul (2 ^ (n.log2 - k)), ← shifted_natCast]
  congr 1
  omega

/-- Moved by its logarithm, a number has as many digits as the scale asks for. -/
theorem shifted_bounds (hpos : n ≠ 0) (k : Nat) :
    2 ^ k ≤ (shifted n 1 ((n.log2 : Int) - k)).1 / (shifted n 1 ((n.log2 : Int) - k)).2 ∧
      (shifted n 1 ((n.log2 : Int) - k)).1 / (shifted n 1 ((n.log2 : Int) - k)).2 <
        2 ^ (k + 1) := by
  have hlow : 2 ^ n.log2 ≤ n := Nat.log2_self_le hpos
  have hhigh : n < 2 ^ (n.log2 + 1) := Nat.lt_log2_self
  rcases Nat.le_total n.log2 k with h | h
  · rw [shifted_of_le h, Nat.div_one]
    obtain ⟨d, hd⟩ := Nat.exists_eq_add_of_le h
    have hmove : k - n.log2 = d := by omega
    have hle := Nat.mul_le_mul_right (2 ^ d) hlow
    have hlt := Nat.mul_lt_mul_of_pos_right hhigh (Nat.two_pow_pos d)
    rw [← Nat.pow_add] at hle hlt
    rw [hmove, hd, Nat.add_right_comm]
    exact ⟨hle, hlt⟩
  · rw [shifted_of_ge h, Nat.le_div_iff_mul_le (Nat.two_pow_pos _),
      Nat.div_lt_iff_lt_mul (Nat.two_pow_pos _), ← Nat.pow_add, ← Nat.pow_add,
      Nat.add_sub_cancel' h, show k + 1 + (n.log2 - k) = n.log2 + 1 by omega]
    exact ⟨hlow, hhigh⟩

/-- The significand of a whole number, before it may carry into the exponent. -/
theorem exists_significand (hpos : n ≠ 0) :
    ∃ r, 0x10000000000000 ≤ r ∧ r ≤ 0x20000000000000 ∧
      roundMagnitude n 1 = min infinite ((n.log2 + 1022) * 0x10000000000000 + r) ∧
        r * 2 ^ (n.log2 + 1022) = rounded n * 2 ^ placesOfOne := by
  obtain ⟨hlow, hhigh⟩ := shifted_bounds hpos 52
  obtain ⟨hdown, hup⟩ := roundHalfEven_bounds (shifted n 1 (n.log2 - (52 : Nat))).1
    (shifted n 1 (n.log2 - (52 : Nat))).2
  refine ⟨_, hlow.trans hdown, hup.trans hhigh,
    roundMagnitude_eq hpos (shifted_bounds hpos 53).1, ?_⟩
  have hplaces := placesOfOne_eq
  rcases Nat.le_total n.log2 52 with h | h
  · have hexponent : 52 - n.log2 + (n.log2 + 1022) = placesOfOne := by omega
    rw [shifted_of_le h, roundHalfEven_one, rounded, Nat.sub_eq_zero_of_le h, Nat.pow_zero,
      roundHalfEven_one, Nat.mul_one, Nat.mul_assoc, ← Nat.pow_add, hexponent]
  · have hexponent : n.log2 - 52 + placesOfOne = n.log2 + 1022 := by omega
    rw [shifted_of_ge h, rounded, Nat.mul_assoc, ← Nat.pow_add, hexponent]

theorem roundMagnitude_le (num den : Nat) : roundMagnitude num den ≤ infinite := by
  rw [roundMagnitude]
  split
  · exact Nat.zero_le _
  · exact Nat.min_le_left _ _

/-- A whole number of at most 64 bits counts as much as the number it is rounded to. -/
theorem units_roundMagnitude (h : n < 0x10000000000000000) :
    units (roundMagnitude n 1) = rounded n * 2 ^ placesOfOne := by
  rcases Nat.eq_zero_or_pos n with rfl | hpos
  · rw [show rounded 0 = 0 from rfl, Nat.zero_mul]
    rfl
  · obtain ⟨r, hlow, hhigh, hmagnitude, hcount⟩ := exists_significand (Nat.ne_of_gt hpos)
    have hlog : n.log2 < 64 := (Nat.log2_lt (Nat.ne_of_gt hpos)).2 h
    rw [hmagnitude, Nat.min_eq_right, units_carry hlow hhigh, hcount]
    rw [infinite]
    omega

/-! ## The nearest number -/

/-- A whole number whose significand has at most 53 bits. -/
def Fits (r : Int) : Prop := ∃ m k : Nat, m < 2 ^ 53 ∧ r.natAbs = m * 2 ^ k

/-- The whole number that a whole number is rounded to. -/
structure Nearest (n r : Int) : Prop where
  fits : Fits r
  /-- No other one is nearer. -/
  least : ∀ s, Fits s → (n - r).natAbs ≤ (n - s).natAbs
  /-- Of two that are equally near, it is an even multiple of what lies between them. -/
  even : ∀ s, Fits s → (n - s).natAbs = (n - r).natAbs → s ≠ r → 2 * (s - r) ∣ r

variable {r s k l : Int}

theorem Fits.neg (h : Fits r) : Fits (-r) := by
  obtain ⟨m, k, hm, hr⟩ := h
  exact ⟨m, k, hm, (Int.natAbs_neg r).trans hr⟩

/-- A significand may be the first number with 54 bits: it ends in a zero. -/
theorem fits_mul_two_pow {m : Nat} (h : m ≤ 2 ^ 53) (k : Nat) : Fits (m * 2 ^ k : Nat) := by
  rcases Nat.lt_or_eq_of_le h with hlt | rfl
  · exact ⟨m, k, hlt, Int.natAbs_natCast _⟩
  · exact ⟨2 ^ 52, k + 1, by decide, by rw [Int.natAbs_natCast, Nat.pow_succ]; ring⟩

theorem fits_of_natAbs_le (h : r.natAbs ≤ 2 ^ 53) : Fits r := by
  have hfits := fits_mul_two_pow h 0
  rw [Nat.pow_zero, Nat.mul_one] at hfits
  rcases Int.natAbs_eq r with hr | hr
  · rwa [hr]
  · rw [hr]
    exact hfits.neg

/-- Numbers that fit lie on a grid: the longer they are, the wider. -/
theorem Fits.dvd {l : Nat} (hs : Fits s) (h : 2 ^ (l + 52) ≤ s) : ((2 ^ l : Nat) : Int) ∣ s := by
  obtain ⟨m, k, hm, hr⟩ := hs
  have hle : 2 ^ (l + 52) ≤ m * 2 ^ k := by
    rw [← hr]
    zify
    rwa [abs_of_nonneg (le_trans (by positivity) h)]
  have hlt : 2 ^ (l + 52) < 2 ^ (53 + k) := by
    rw [Nat.pow_add 2 53]
    exact Nat.lt_of_le_of_lt hle (Nat.mul_lt_mul_of_pos_right hm (Nat.two_pow_pos k))
  have hk : l ≤ k := by
    have := (Nat.pow_lt_pow_iff_right (by decide)).1 hlt
    omega
  rw [← Int.dvd_natAbs, Int.natCast_dvd_natCast, hr]
  exact Nat.dvd_mul_left_of_dvd (Nat.pow_dvd_pow 2 hk) m

namespace Nearest

theorem of_fits (h : Fits r) : Nearest r r where
  fits := h
  least s _ := by simp
  even s _ hs hne := absurd (by simpa [sub_eq_zero, eq_comm] using hs) hne

theorem neg {n : Int} (h : Nearest n r) : Nearest (-n) (-r) where
  fits := h.fits.neg
  least s hs := by
    have := h.least _ hs.neg
    omega
  even s hs heq hne := by
    have hdvd := h.even _ hs.neg (by omega) (by omega)
    rw [Int.dvd_neg, ← Int.neg_dvd, ← Int.mul_neg]
    convert hdvd using 2
    ring

/-- On a grid, rounding a half to the even side gives the nearest number. -/
theorem of_grid {n d : Nat} (hd : 0 < d) (hfits : Fits (roundHalfEven n d * d : Nat))
    (hgrid : ∀ s, Fits s → s ≤ (n / d * d : Nat) ∨ ((n / d * d + d : Nat) : Int) ≤ s) :
    Nearest n (roundHalfEven n d * d : Nat) := by
  have hdiv : n / d * d + n % d = n := Nat.div_add_mod' n d
  have hmod : n % d < d := Nat.mod_lt n hd
  have heven {x : Int} (hx : x = d ∨ x = -d) (h : 2 ∣ roundHalfEven n d) :
      2 * x ∣ (roundHalfEven n d * d : Nat) := by
    have hdvd : 2 * (d : Int) ∣ (roundHalfEven n d * d : Nat) := by
      exact_mod_cast Nat.mul_dvd_mul_right h d
    rcases hx with rfl | rfl
    · exact hdvd
    · rwa [Int.mul_neg, Int.neg_dvd]
  rcases roundHalfEven_cases n d with ⟨hround, hhalf, htie⟩ | ⟨hround, hhalf, htie⟩
  · refine ⟨hfits, fun s hs ↦ ?_, fun s hs heq hne ↦ ?_⟩
    · rw [hround]
      rcases hgrid s hs with h | h <;> omega
    · rw [hround] at heq hne
      rcases hgrid s hs with h | h
      · omega
      · exact heven (.inl (by rw [hround]; omega)) (htie (by omega))
  · rw [show n / d * d + d = (n / d + 1) * d from (Nat.succ_mul _ _).symm, ← hround] at hgrid
    have hup : roundHalfEven n d * d = n / d * d + d := by rw [hround, Nat.succ_mul]
    refine ⟨hfits, fun s hs ↦ ?_, fun s hs heq hne ↦ ?_⟩
    · rcases hgrid s hs with h | h <;> omega
    · rcases hgrid s hs with h | h
      · exact heven (.inr (by omega)) (htie (by omega))
      · omega

/-- A number that fits is not rounded. -/
theorem eq_of_fits {n : Int} (h : Nearest n r) (hn : Fits n) : r = n := by
  have := h.least n hn
  omega

/-- There is one nearest number: two neighbours cannot both be even multiples of their distance. -/
theorem unique {n : Int} (hr : Nearest n r) (hs : Nearest n s) : r = s := by
  by_contra hne
  have hdist : (n - s).natAbs = (n - r).natAbs :=
    Nat.le_antisymm (hs.least r hr.fits) (hr.least s hs.fits)
  obtain ⟨x, hx⟩ := hr.even s hs.fits hdist (Ne.symm hne)
  obtain ⟨y, hy⟩ := hs.even r hr.fits hdist.symm hne
  have hgap : (s - r) * (2 * (x + y) + 1) = 0 := by linarith
  rcases Int.mul_eq_zero.1 hgap with h | h <;> omega

/-- Rounding keeps the order. -/
theorem mono (hr : Nearest k r) (hs : Nearest l s) (h : k ≤ l) : r ≤ s := by
  rcases Int.lt_or_eq_of_le h with hlt | rfl
  · have := hr.least s hs.fits
    have := hs.least r hr.fits
    omega
  · exact (hr.unique hs).le

end Nearest

theorem nearest_rounded (n : Nat) : Nearest n (rounded n) := by
  rcases Nat.lt_or_ge n (2 ^ 53) with hshort | hlong
  · have hlog : n.log2 - 52 = 0 := by
      rcases Nat.eq_zero_or_pos n with rfl | hpos
      · rfl
      · have := (Nat.log2_lt (Nat.ne_of_gt hpos)).2 hshort
        omega
    rw [rounded, hlog, Nat.pow_zero, roundHalfEven_one, Nat.mul_one]
    exact .of_fits (fits_of_natAbs_le (by rw [Int.natAbs_natCast]; exact hshort.le))
  · have hpos : n ≠ 0 := by omega
    have hlog : 53 ≤ n.log2 := (Nat.le_log2 hpos).2 hlong
    obtain ⟨hlow, hhigh⟩ := shifted_bounds hpos 52
    rw [shifted_of_ge (by omega)] at hlow hhigh
    dsimp only at hlow hhigh
    rw [rounded]
    generalize hk : n.log2 - 52 = k at hlow hhigh ⊢
    refine .of_grid (Nat.two_pow_pos k) (fits_mul_two_pow ?_ k) fun s hs ↦ ?_
    · exact (roundHalfEven_bounds n (2 ^ k)).2.trans hhigh
    · -- Below the numbers of as many digits there is nothing to show, and these lie on the grid.
      by_cases hbelow : s < (2 ^ (k + 52) : Nat)
      · left
        have hle : 2 ^ (k + 52) ≤ n / 2 ^ k * 2 ^ k := by
          rw [Nat.pow_add, Nat.mul_comm]
          exact Nat.mul_le_mul_right _ hlow
        omega
      · obtain ⟨j, rfl⟩ := hs.dvd (l := k) (by push_cast at hbelow; omega)
        rcases Int.lt_or_le j (n / 2 ^ k + 1 : Nat) with hj | hj
        · left
          have hj' : j ≤ (n / 2 ^ k : Nat) := by omega
          rw [Nat.cast_mul, mul_comm]
          exact Int.mul_le_mul_of_nonneg_right hj' (Int.natCast_nonneg _)
        · right
          have hup : n / 2 ^ k * 2 ^ k + 2 ^ k = (n / 2 ^ k + 1) * 2 ^ k := (Nat.succ_mul _ _).symm
          rw [hup, Nat.cast_mul, mul_comm ((2 ^ k : Nat) : Int) j]
          exact Int.mul_le_mul_of_nonneg_right hj (Int.natCast_nonneg _)

theorem isNaN_ofInt (n : Int) : (ofInt n).isNaN = false := by
  have hle := roundMagnitude_le n.natAbs 1
  rw [ofInt, ofRatio, isNaN, magnitude_ofMagnitude (Nat.lt_of_le_of_lt hle (by decide))]
  exact decide_eq_false (Nat.not_lt.2 hle)

/-- A whole number of at most 64 bits becomes the nearest one that fits. -/
theorem exists_nearest {n : Int} (h : n.natAbs < 0x10000000000000000) :
    ∃ r, Nearest n r ∧ (ofInt n).count (-1074) = r * (2 ^ placesOfOne : Nat) := by
  have hlt : roundMagnitude n.natAbs 1 < 0x8000000000000000 :=
    Nat.lt_of_le_of_lt (roundMagnitude_le _ _) (by decide)
  have hnearest := nearest_rounded n.natAbs
  rw [count_least, ofInt, ofRatio, magnitude_ofMagnitude hlt, negative_ofMagnitude hlt,
    units_roundMagnitude h]
  by_cases hn : n < 0
  · rw [if_pos (decide_eq_true hn)]
    refine ⟨-(rounded n.natAbs : Int), ?_, by rw [Nat.cast_mul, Int.neg_mul]⟩
    rw [show n = -(n.natAbs : Int) by omega, Int.natAbs_neg, Int.natAbs_natCast]
    exact hnearest.neg
  · rw [if_neg (by simpa using hn)]
    refine ⟨rounded n.natAbs, ?_, Nat.cast_mul _ _⟩
    rw [show n = (n.natAbs : Int) by omega, Int.natAbs_natCast]
    exact hnearest

/-- Whole numbers compare as the numbers they are rounded to. -/
theorem exists_order_ofInt {k l : Int} (hk : k.natAbs < 0x10000000000000000)
    (hl : l.natAbs < 0x10000000000000000) :
    ∃ r s, Nearest k r ∧ Nearest l s ∧ (ofInt k).order (ofInt l) = some (compare r s) := by
  obtain ⟨r, hr, hcountr⟩ := exists_nearest hk
  obtain ⟨s, hs, hcounts⟩ := exists_nearest hl
  refine ⟨r, s, hr, hs, ?_⟩
  have hpos : (0 : Int) < (2 ^ placesOfOne : Nat) := by exact_mod_cast Nat.two_pow_pos placesOfOne
  rw [order_eq_compare_count (isNaN_ofInt k) (isNaN_ofInt l), hcountr, hcounts,
    ← cmp_eq_compare, ← cmp_eq_compare, cmp_mul_pos_right hpos]

end Double

end Conduit
