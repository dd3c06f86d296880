import HeroPage.Json.Number
import HeroPage.Proofs.Binary64.Error
import HeroPage.Proofs.Binary64.Product
set_option autoImplicit false

namespace HeroPage.Json

open Binary64

variable {n : ℕ} {z x y : Float} {q : ℚ}

theorem isNearest_significand (h : n ≤ significandLimit) : IsNearest (UInt64.ofNat n).toFloat n :=
  isNearest_toFloat (Nat.lt_of_le_pred (by decide) h)

theorem isNearest_powerOfTen (h : n ≤ 308) : IsNearest (powerOfTen n) (10 ^ n) := isNearest_ten_pow h

/-- A double that is nearest to a number from one on. -/
structure Rounded (z : Float) (q : ℚ) : Prop where
  finite : z.isFinite = true
  close : Close unit (real z) q
  one_le : 1 ≤ q

theorem rounded_of_isNearest (h : IsNearest z q) (hone : 1 ≤ q) (hle : q ≤ greatest) : Rounded z q := by
  obtain ⟨hfinite, hreal⟩ := h.finite (zero_le_one.trans hone) hle
  refine ⟨hfinite, ?_, hone⟩
  rw [hreal]
  exact abs_nearest_sub_le_of_one_le hone

theorem significand_le (h : n ≤ significandLimit) : n ≤ 10 ^ 20 := h.trans (by decide)

theorem rounded_significand (hpos : 0 < n) (h : n ≤ significandLimit) :
    Rounded (UInt64.ofNat n).toFloat n := by
  exact rounded_of_isNearest (isNearest_significand h) (by exact_mod_cast hpos)
    (natCast_le_greatest (significand_le h) (by decide))

theorem rounded_powerOfTen (h : n ≤ 308) : Rounded (powerOfTen n) (10 ^ n) := by
  have hle := natCast_le_greatest (le_refl (10 ^ n)) h
  rw [Nat.cast_pow, Nat.cast_ofNat] at hle
  exact rounded_of_isNearest (isNearest_powerOfTen h) (one_le_pow₀ (by norm_num)) hle

theorem Rounded.half_le (h : Rounded z q) : 1 / 2 ≤ real z := by
  have hlow := h.close.ge
  have hone := h.one_le
  have hhalf : (1 / 2 : ℚ) * q ≤ (1 - unit) * q :=
    mul_le_mul_of_nonneg_right (by norm_num [unit]) (zero_le_one.trans hone)
  linarith

/-- What comes out of rounding some times, the last time perhaps with the least quantum. -/
structure Near (z : Float) (q : ℚ) : Prop where
  finite : z.isFinite = true
  nonneg : 0 ≤ real z
  near : |real z - q| ≤ 10 * unit * q + grain

variable {r a t : ℚ}

theorem Near.nearest (h : Near z q) (hq : 0 ≤ q) :
    |real z - Binary64.nearest q| ≤ Binary64.nearest q / 2 ^ 49 + 2 ^ (-1073 : ℤ) := by
  have hround := abs_nearest_sub_le q
  have hfour : (2 : ℚ) ^ (-1073 : ℤ) = 4 * grain := by
    rw [grain, show (-1073 : ℤ) = 2 + -1075 by rfl, zpow_add₀ two_ne_zero]
    rfl
  have hnear := h.near
  have htriangle := abs_sub_le (real z) q (Binary64.nearest q)
  have hlow := (abs_le.mp hround).1
  have hgrain := grain_pos
  rw [abs_sub_comm q] at htriangle
  rw [abs_of_nonneg hq] at hround hlow
  rw [hfour]
  simp only [unit] at hround hnear hlow
  linarith

theorem near_of_close (hz : z.isFinite = true) (hreal : real z = nearest a) (h : Close r a q)
    (ha : 0 ≤ a) (hq : 0 ≤ q) (hr : r + unit * (1 + r) ≤ 10 * unit) : Near z q := by
  refine ⟨hz, hreal ▸ nearest_nonneg ha, ?_⟩
  rw [hreal]
  have := mul_le_mul_of_nonneg_right hr hq
  linarith [h.nearest_sub ha]

theorem near_mul (hx : Rounded x q) (hy : Rounded y t) (hfinite : (x * y).isFinite = true) :
    Near (x * y) (q * t) := by
  have hx' := hx.half_le
  have hy' := hy.half_le
  have hq := zero_le_one.trans hx.one_le
  have ht := zero_le_one.trans hy.one_le
  exact near_of_close hfinite ((isNearest_mul hx.finite hy.finite).real_of_isFinite hfinite)
    (hx.close.mul hy.close hq ht) (mul_nonneg (by linarith) (by linarith)) (mul_nonneg hq ht)
    (by norm_num [unit])

theorem div_rounded (hx : x.isFinite = true) (hnonneg : 0 ≤ real x) (hle : 2 * real x ≤ greatest)
    (hy : Rounded y t) : (x / y).isFinite = true ∧ real (x / y) = nearest (real x / real y) := by
  have hy' := hy.half_le
  have hpos : 0 < real y := by linarith
  refine (isNearest_div_of_pos hx hy.finite hpos).finite (div_nonneg hnonneg hpos.le) ?_
  refine le_trans ?_ hle
  rw [div_le_iff₀ hpos]
  have := mul_le_mul_of_nonneg_left hy' (mul_nonneg (show (0 : ℚ) ≤ 2 by norm_num) hnonneg)
  linarith

theorem close_div (hx : Close r (real x) q) (hr : 0 ≤ r) (hq : 0 ≤ q) (hy : Rounded y t) :
    Close ((r + unit) / (1 - unit)) (real x / real y) (q / t) :=
  hx.div hy.close hq (zero_lt_one.trans_le hy.one_le) (add_nonneg hr unit_pos.le) (by norm_num [unit])

theorem exists_close_div (hx : Rounded x q) (hy : Rounded y t) (hle : 4 * q ≤ greatest) :
    ∃ a, (x / y).isFinite = true ∧ real (x / y) = nearest a ∧
      Close ((unit + unit) / (1 - unit)) a (q / t) ∧ 0 ≤ a := by
  have hx' := hx.half_le
  have hy' := hy.half_le
  have hq := zero_le_one.trans hx.one_le
  have hbound : 2 * real x ≤ greatest := by
    have hle' := hx.close.le
    have htwo : (1 + unit) * q ≤ 2 * q := mul_le_mul_of_nonneg_right (by norm_num [unit]) hq
    linarith
  obtain ⟨hfinite, hreal⟩ := div_rounded hx.finite (by linarith) hbound hy
  exact ⟨_, hfinite, hreal, close_div hx.close unit_pos.le hq hy,
    div_nonneg (by linarith) (by linarith)⟩

theorem near_div (hx : Rounded x q) (hy : Rounded y t) (hle : 4 * q ≤ greatest) :
    Near (x / y) (q / t) := by
  obtain ⟨a, hfinite, hreal, hclose, ha⟩ := exists_close_div hx hy hle
  exact near_of_close hfinite hreal hclose ha
    (div_nonneg (zero_le_one.trans hx.one_le) (zero_le_one.trans hy.one_le)) (by norm_num [unit])

/-- A first quotient may be so small that its quantum is the least one, which is still a small part of it. -/
theorem near_div_div {y' : Float} {t' : ℚ} (hx : Rounded x q) (hy : Rounded y t) (hy' : Rounded y' t')
    (hle : 4 * q ≤ greatest) (hsmall : grain ≤ 3 * unit * (q / t)) : Near (x / y / y') (q / t / t') := by
  have hone := hy.one_le
  have hone' := hy'.one_le
  have hq := zero_le_one.trans hx.one_le
  have hqt : 0 ≤ q / t := div_nonneg hq (zero_le_one.trans hone)
  obtain ⟨a, hfinite, hreal, hclose, ha⟩ := exists_close_div hx hy hle
  have hnonneg : 0 ≤ real (x / y) := hreal ▸ nearest_nonneg ha
  have hfirst : Close (7 * unit) (real (x / y)) (q / t) := by
    have hround := hclose.nearest_sub ha
    have hpart : ((unit + unit) / (1 - unit) + unit * (1 + (unit + unit) / (1 - unit)) + 3 * unit) * (q / t) ≤
        7 * unit * (q / t) := mul_le_mul_of_nonneg_right (by norm_num [unit]) hqt
    rw [Close, hreal]
    linarith
  have hbound : 2 * real (x / y) ≤ greatest := by
    have hle' := hfirst.le
    have htwo : (1 + 7 * unit) * (q / t) ≤ 2 * (q / t) :=
      mul_le_mul_of_nonneg_right (by norm_num [unit]) hqt
    have hdiv : q / t ≤ q := div_le_self hq hone
    linarith
  obtain ⟨hfinite', hreal'⟩ := div_rounded hfinite hnonneg hbound hy'
  have hpos' : 0 ≤ real y' := by linarith [hy'.half_le]
  exact near_of_close hfinite' hreal' (close_div hfirst (by norm_num [unit]) hqt hy')
    (div_nonneg hnonneg hpos') (div_nonneg hqt (zero_le_one.trans hone')) (by norm_num [unit])

theorem four_significand_le (h : n ≤ significandLimit) : 4 * (n : ℚ) ≤ greatest := by
  have hle : 4 * n ≤ 10 ^ 20 := (Nat.mul_le_mul_left 4 h).trans (by decide)
  have hcast := natCast_le_greatest hle (by decide)
  rwa [Nat.cast_mul, Nat.cast_ofNat] at hcast

theorem grain_le (hpos : 0 < n) : grain ≤ 3 * unit * (n / 10 ^ greatestPower) := by
  obtain ⟨t, ht⟩ : ∃ t : ℕ, t = 2 ^ 1022 := ⟨_, rfl⟩
  have hgrain : grain * t = unit := by
    rw [grain, ht, Nat.cast_pow, Nat.cast_ofNat, ← zpow_natCast, ← zpow_add₀ two_ne_zero, unit]
    norm_num
  have hten : 10 ^ greatestPower ≤ 3 * 2 ^ 1022 := by decide +kernel
  rw [← ht] at hten
  have hten' : (10 : ℚ) ^ greatestPower ≤ 3 * t := by exact_mod_cast hten
  have hone : (1 : ℚ) ≤ n := by exact_mod_cast hpos
  have hpow : (0 : ℚ) < 10 ^ greatestPower := pow_pos (by norm_num) _
  rw [← hgrain, ← mul_div_assoc, le_div_iff₀ hpow]
  calc grain * 10 ^ greatestPower ≤ grain * (3 * t) := mul_le_mul_of_nonneg_left hten' grain_pos.le
    _ = 3 * (grain * t) * 1 := by ring
    _ ≤ 3 * (grain * t) * n := mul_le_mul_of_nonneg_left hone (by rw [hgrain]; linarith [unit_pos])

theorem near_divideByPower {k : ℕ} (hpos : 0 < n) (h : n ≤ significandLimit) (hk : k ≤ 616) :
    Near (divideByPower (UInt64.ofNat n).toFloat k) (n / 10 ^ k) := by
  have hx := rounded_significand hpos h
  by_cases hsmall : k ≤ greatestPower
  · rw [divideByPower, if_pos hsmall]
    exact near_div hx (rounded_powerOfTen hsmall) (four_significand_le h)
  · have hnonzero : ¬((UInt64.ofNat n).toFloat == 0) = true := by
      rw [beq_iff, real_zero]
      rintro ⟨-, -, hzero⟩
      linarith [hx.half_le]
    have hrest : k - greatestPower ≤ greatestPower := by
      unfold greatestPower at *
      omega
    have hsplit : (n : ℚ) / 10 ^ greatestPower / 10 ^ (k - greatestPower) = n / 10 ^ k := by
      rw [div_div, ← pow_add, Nat.add_sub_of_le (not_le.mp hsmall).le]
    rw [divideByPower, if_neg hsmall, if_neg hnonzero, divideByPower, if_pos hrest, ← hsplit]
    exact near_div_div hx (rounded_powerOfTen le_rfl) (rounded_powerOfTen hrest) (four_significand_le h)
      (grain_le hpos)

theorem scaled?_near {power : ℤ} (hpos : 0 < n) (h : n ≤ significandLimit) (hlow : -616 ≤ power)
    (hhigh : power ≤ 308) (hz : scaled? n power = some z) : Near z (n * 10 ^ power) := by
  rw [scaled?] at hz
  dsimp only at hz
  split at hz
  · next hneg =>
    obtain ⟨k, rfl⟩ : ∃ k : ℕ, power = -k := ⟨power.natAbs, by omega⟩
    cases hz
    rw [zpow_neg, zpow_natCast, ← div_eq_mul_inv, Int.natAbs_neg, Int.natAbs_natCast]
    exact near_divideByPower hpos h (by omega)
  · next hnonneg =>
    obtain ⟨k, rfl⟩ := Int.eq_ofNat_of_zero_le (not_lt.mp hnonneg)
    rw [Int.natAbs_natCast, if_pos (show k ≤ greatestPower by unfold greatestPower; omega)] at hz
    split at hz
    · cases hz
    · next hinf =>
      cases hz
      have hx := rounded_significand hpos h
      have hy := rounded_powerOfTen (n := k) (by omega)
      have hnear := isNearest_mul hx.finite hy.finite
      rw [zpow_natCast]
      exact near_mul hx hy (isFinite_of_isInf hnear.isNaN (Bool.eq_false_iff.mpr hinf))

theorem scaled?_isSome_of_neg {power : ℤ} (h : power < 0) : (scaled? n power).isSome = true := by
  rw [scaled?]
  dsimp only
  rw [if_pos h]
  rfl

theorem scaled?_isSome_of_le {k : ℕ} (hpos : 0 < n) (h : n ≤ significandLimit) (hk : k ≤ 308)
    (hle : (1 + unit) ^ 2 * (n * 10 ^ k) ≤ greatest) : (scaled? n k).isSome = true := by
  have hx := rounded_significand hpos h
  have hy := rounded_powerOfTen hk
  have hx' := hx.half_le
  have hy' := hy.half_le
  have hproduct : real (UInt64.ofNat n).toFloat * real (powerOfTen k) ≤ greatest := by
    refine le_trans ?_ hle
    calc real (UInt64.ofNat n).toFloat * real (powerOfTen k)
        ≤ (1 + unit) * n * ((1 + unit) * 10 ^ k) :=
          mul_le_mul hx.close.le hy.close.le (by linarith) (by linarith [hx.close.le])
      _ = (1 + unit) ^ 2 * (n * 10 ^ k) := by ring
  have hfinite := ((isNearest_mul hx.finite hy.finite).finite
    (mul_nonneg (by linarith) (by linarith)) hproduct).1
  rw [scaled?]
  dsimp only
  rw [if_neg (Int.natCast_nonneg k).not_gt, Int.natAbs_natCast, if_pos (show k ≤ greatestPower from hk), isInf_of_isFinite hfinite]
  rfl

theorem real_significand (h : n ≤ significandLimit) (hdouble : nearest n = n) :
    (UInt64.ofNat n).toFloat.isFinite = true ∧ real (UInt64.ofNat n).toFloat = n := by
  obtain ⟨hfinite, hreal⟩ := (isNearest_significand h).finite n.cast_nonneg
    (natCast_le_greatest (significand_le h) (by decide))
  exact ⟨hfinite, hreal.trans hdouble⟩

theorem real_powerOfTen {k : ℕ} (h : k ≤ 22) :
    (powerOfTen k).isFinite = true ∧ real (powerOfTen k) = 10 ^ k := by
  have hround := rounded_powerOfTen (n := k) (by omega)
  have hreal := (isNearest_powerOfTen (n := k) (by omega)).real_of_isFinite hround.finite
  exact ⟨hround.finite, hreal.trans (nearest_ten_pow h)⟩

theorem scaled?_exact {power : ℤ} (h : n ≤ significandLimit) (hdouble : nearest n = n)
    (hlow : -22 ≤ power) (hhigh : power ≤ 22) :
    ∃ z, scaled? n power = some z ∧ z.isFinite = true ∧ real z = nearest (n * 10 ^ power) := by
  obtain ⟨hx, hx'⟩ := real_significand h hdouble
  have hsmall := significand_le h
  rw [scaled?]
  dsimp only
  rcases lt_or_ge power 0 with hneg | hnonneg
  · obtain ⟨k, rfl⟩ : ∃ k : ℕ, power = -k := ⟨power.natAbs, by omega⟩
    obtain ⟨hy, hy'⟩ := real_powerOfTen (k := k) (by omega)
    have hten : (1 : ℚ) ≤ 10 ^ k := one_le_pow₀ (by norm_num)
    have hnear := isNearest_div_of_pos hx hy (hy'.symm ▸ zero_lt_one.trans_le hten)
    rw [hx', hy'] at hnear
    have hfinite := hnear.finite (div_nonneg n.cast_nonneg (zero_le_one.trans hten))
      ((div_le_self n.cast_nonneg hten).trans (natCast_le_greatest hsmall (by decide)))
    rw [if_pos hneg, Int.natAbs_neg, Int.natAbs_natCast, divideByPower,
      if_pos (show k ≤ greatestPower by unfold greatestPower; omega), zpow_neg, zpow_natCast,
      ← div_eq_mul_inv]
    exact ⟨_, rfl, hfinite⟩
  · obtain ⟨k, rfl⟩ := Int.eq_ofNat_of_zero_le hnonneg
    obtain ⟨hy, hy'⟩ := real_powerOfTen (k := k) (by omega)
    have hnear := isNearest_mul hx hy
    rw [hx', hy'] at hnear
    have hbound : n * 10 ^ k ≤ 10 ^ (20 + k) := by
      rw [Nat.pow_add]
      exact Nat.mul_le_mul_right _ hsmall
    have hgreatest := natCast_le_greatest hbound (by omega)
    rw [Nat.cast_mul, Nat.cast_pow, Nat.cast_ofNat] at hgreatest
    have hfinite := hnear.finite (mul_nonneg n.cast_nonneg (by positivity)) hgreatest
    rw [if_neg (Int.natCast_nonneg k).not_gt, Int.natAbs_natCast,
      if_pos (show k ≤ greatestPower by unfold greatestPower; omega), isInf_of_isFinite hfinite.1,
      zpow_natCast]
    exact ⟨_, rfl, hfinite⟩

end HeroPage.Json
