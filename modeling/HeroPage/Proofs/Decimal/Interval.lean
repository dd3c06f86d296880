import HeroPage.Decimal.Shortest
import HeroPage.Proofs.Decimal.Doubles
set_option autoImplicit false

namespace HeroPage.Decimal

open Binary64

theorem pow_toNat {x : ℚ} (hx : x ≠ 0) (n : ℤ) : x ^ n.toNat = x ^ n * x ^ (-n).toNat := by
  rw [← zpow_natCast, ← zpow_natCast, ← zpow_add₀ hx]
  congr 1
  omega

theorem cast_pow (a n : ℕ) : ((Nat.pow a n : ℕ) : ℚ) = a ^ n := Nat.cast_pow a n

namespace Binary

variable {b : Binary} {k : ℤ} {d : ℕ}

theorem gridStep_mul (b : Binary) (k : ℤ) :
    (b.gridStep k : ℚ) * 2 ^ (b.exponent - 2) = 10 ^ k * b.quarter k := by
  rw [gridStep, quarter, Nat.cast_mul, Nat.cast_mul, cast_pow, cast_pow, cast_pow, cast_pow, Nat.cast_ofNat,
    Nat.cast_ofNat, pow_toNat (by decide) k, pow_toNat two_ne_zero (b.exponent - 2), neg_sub]
  ring

/-- The decimal `d · 10 ^ k`, counted in quarters of the quantum of `b`. -/
def quarters (b : Binary) (k : ℤ) (d : ℕ) : ℚ := d * 10 ^ k / 2 ^ (b.exponent - 2)

theorem natCast_point (b : Binary) (k : ℤ) (d : ℕ) :
    ((d * b.gridStep k : ℕ) : ℚ) = b.quarters k d * b.quarter k := by
  have hpow := two_zpow_pos (b.exponent - 2)
  rw [quarters, div_mul_eq_mul_div, eq_div_iff hpow.ne', Nat.cast_mul, mul_assoc, gridStep_mul, mul_assoc]

theorem holds_iff : b.holds k d = true ↔ (b.low ≤ b.quarters k d ∧ b.quarters k d ≤ b.high) ∧
    (b.significand % 2 = 0 ∨ b.low < b.quarters k d ∧ b.quarters k d < b.high) := by
  have hquarter : (0 : ℚ) < b.quarter k := Nat.cast_pos.mpr (b.quarter_pos k)
  have hlow : b.low * b.quarter k ≤ d * b.gridStep k ↔ (b.low : ℚ) ≤ b.quarters k d := by
    rw [← Nat.cast_le (α := ℚ), natCast_point, Nat.cast_mul, mul_le_mul_iff_left₀ hquarter]
  have hhigh : d * b.gridStep k ≤ b.high * b.quarter k ↔ b.quarters k d ≤ b.high := by
    rw [← Nat.cast_le (α := ℚ), natCast_point, Nat.cast_mul, mul_le_mul_iff_left₀ hquarter]
  have hlow' : b.low * b.quarter k < d * b.gridStep k ↔ (b.low : ℚ) < b.quarters k d := by
    rw [← Nat.cast_lt (α := ℚ), natCast_point, Nat.cast_mul, mul_lt_mul_iff_left₀ hquarter]
  have hhigh' : d * b.gridStep k < b.high * b.quarter k ↔ b.quarters k d < b.high := by
    rw [← Nat.cast_lt (α := ℚ), natCast_point, Nat.cast_mul, mul_lt_mul_iff_left₀ hquarter]
  unfold holds
  dsimp only
  split
  · next heven =>
    rw [decide_eq_true_iff, hlow, hhigh]
    exact (and_iff_left (.inl heven)).symm
  · next hodd =>
    rw [decide_eq_true_iff, hlow', hhigh', or_iff_right hodd]
    exact (and_iff_right_of_imp fun h => ⟨h.1.le, h.2.le⟩).symm

theorem Standard.low_cast (h : b.Standard) :
    (b.low : ℚ) = 4 * b.significand - if b.narrow then 1 else 2 := by
  have hpos := h.pos
  unfold low
  split
  · rw [Nat.cast_sub (by omega)]
    push_cast
    rfl
  · rw [Nat.cast_sub (by omega)]
    push_cast
    rfl

theorem Standard.significand_le (h : b.Standard) : (b.significand : ℚ) ≤ 2 ^ 53 - 1 := by
  have := h.fits.lt
  exact_mod_cast (by omega : (b.significand : ℤ) ≤ 2 ^ 53 - 1)

theorem Standard.nearest_below (h : b.Standard) (hnarrow : b.narrow = true) {t : ℚ}
    (hlow : 4 * b.significand - 1 ≤ t) (hlt : t < 4 * b.significand) :
    Binary64.nearest (t * 2 ^ (b.exponent - 2)) = b.value := by
  obtain ⟨hm, he⟩ := h.narrow_iff.mp hnarrow
  have hm' : (b.significand : ℚ) = 2 ^ 52 := by exact_mod_cast hm
  have hround : roundEven (t / 2) = 2 * b.significand := by
    refine roundEven_eq ?_ (.inl (Int.mul_emod_right 2 _))
    push_cast
    rw [abs_le]
    constructor <;> linarith
  have hhalf : t * 2 ^ (b.exponent - 2) = t / 2 * 2 ^ (b.exponent - 1) := by
    rw [show b.exponent - 2 = b.exponent - 1 - 1 by ring, zpow_sub_one₀ two_ne_zero]
    ring
  rw [hhalf, nearest_mul_zpow (by linarith) (by omega) (.inl (by linarith)) (by linarith) hround, value,
    zpow_sub_one₀ two_ne_zero]
  push_cast
  ring

theorem Standard.nearest_around (h : b.Standard) {t : ℚ} (hleading : 2 ^ 52 ≤ t / 4 ∨ b.exponent = -1074)
    (hlow : 4 * b.significand - 2 ≤ t) (hhigh : t ≤ 4 * b.significand + 2)
    (htie : b.significand % 2 = 0 ∨ 4 * b.significand - 2 < t ∧ t < 4 * b.significand + 2) :
    Binary64.nearest (t * 2 ^ (b.exponent - 2)) = b.value := by
  have hpos : (1 : ℚ) ≤ b.significand := by exact_mod_cast h.pos
  have hle := h.significand_le
  have hquarter : t * 2 ^ (b.exponent - 2) = t / 4 * 2 ^ b.exponent := by
    rw [zpow_sub₀ two_ne_zero]
    norm_num
    ring
  have hround : roundEven (t / 4) = b.significand := by
    refine roundEven_eq ?_ (htie.imp (fun heven => by omega) fun ⟨hgt, hlt⟩ => ?_)
    · push_cast
      rw [abs_le]
      constructor <;> linarith
    · push_cast
      rw [abs_lt]
      constructor <;> linarith
  rw [hquarter, nearest_mul_zpow (by linarith) h.fits.least hleading (by linarith) hround, value]
  push_cast
  rfl

/-- Only below a power of two is the quantum of a number in the interval another one. -/
theorem Standard.leading_of_not_below (h : b.Standard) {t : ℚ} (hlow : 4 * b.significand - 2 ≤ t)
    (habove : b.narrow = true → 4 * b.significand ≤ t) : 2 ^ 52 ≤ t / 4 ∨ b.exponent = -1074 := by
  by_cases he : b.exponent = -1074
  · exact .inr he
  · rcases (h.fits.leading.resolve_right he).eq_or_lt with hm | hm
    · have hm' : (b.significand : ℚ) = 2 ^ 52 := by exact_mod_cast hm.symm
      have hnarrow := h.narrow_iff.mpr ⟨hm.symm, lt_of_le_of_ne h.fits.least (Ne.symm he)⟩
      have := habove hnarrow
      exact .inl (by linarith)
    · have hm' : (2 ^ 52 + 1 : ℚ) ≤ b.significand := by exact_mod_cast hm
      exact .inl (by linarith)

theorem Standard.nearest_eq (h : b.Standard) {t : ℚ} (hlow : b.low ≤ t) (hhigh : t ≤ b.high)
    (htie : b.significand % 2 = 0 ∨ b.low < t ∧ t < b.high) :
    Binary64.nearest (t * 2 ^ (b.exponent - 2)) = b.value := by
  have hwide : 4 * (b.significand : ℚ) - 2 ≤ b.low := by
    rw [h.low_cast]
    split <;> linarith
  have htop : (b.high : ℚ) = 4 * b.significand + 2 := by
    rw [high]
    push_cast
    rfl
  rw [htop] at hhigh htie
  by_cases hbelow : b.narrow = true ∧ t < 4 * b.significand
  · obtain ⟨hnarrow, hlt⟩ := hbelow
    rw [h.low_cast, hnarrow, if_pos rfl] at hlow
    exact h.nearest_below hnarrow hlow hlt
  · have hlow' := hwide.trans hlow
    have hleading := h.leading_of_not_below hlow' fun hnarrow => not_lt.mp fun hlt => hbelow ⟨hnarrow, hlt⟩
    exact h.nearest_around hleading hlow' hhigh (htie.imp_right fun ⟨hgt, hlt⟩ => ⟨hwide.trans_lt hgt, hlt⟩)

theorem Standard.nearest_of_holds (h : b.Standard) (hholds : b.holds k d = true) :
    Binary64.nearest (d * 10 ^ k) = b.value := by
  obtain ⟨⟨hlow, hhigh⟩, htie⟩ := holds_iff.mp hholds
  have hpow := two_zpow_pos (b.exponent - 2)
  rw [← h.nearest_eq hlow hhigh htie, quarters, div_mul_cancel₀ _ hpow.ne']

end Binary

end HeroPage.Decimal
