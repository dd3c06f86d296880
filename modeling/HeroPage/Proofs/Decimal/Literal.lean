import HeroPage.Proofs.Json.Scaling
set_option autoImplicit false

namespace HeroPage.Decimal

open Binary64 Float.Model Float.Model.UnpackedFloat

theorem powers_of_ten : ∀ k : Fin 23, Float.exactlyRepresentablePowersOfTen[k] = Json.powerOfTen k := by
  decide +kernel

theorem nearest_tiny {q : ℚ} (h₀ : 0 ≤ q) (h : q ≤ 2 ^ (-1075 : ℤ)) : nearest q = 0 := by
  have hround : roundEven (1 / 2) = 0 := roundEven_eq (by norm_num) (.inl rfl)
  have hhalf : nearest (1 / 2 * 2 ^ (-1074 : ℤ)) = (0 : ℤ) * 2 ^ (-1074 : ℤ) :=
    nearest_mul_zpow (by norm_num) le_rfl (.inr rfl) (by norm_num) hround
  rw [Int.cast_zero, zero_mul] at hhalf
  have hpow : (2 : ℚ) ^ (-1075 : ℤ) = 1 / 2 * 2 ^ (-1074 : ℤ) := by
    rw [show (-1075 : ℤ) = -1074 - 1 by rfl, zpow_sub_one₀ two_ne_zero]
    ring
  exact le_antisymm ((nearest_mono (h.trans_eq hpow)).trans_eq hhalf) (nearest_nonneg h₀)

theorem div_ten_pow_le {m k : ℕ} (h : 2 ^ 11 + m.log2 < k) : (m : ℚ) / 10 ^ k ≤ 2 ^ (-1075 : ℤ) := by
  have hm : (m : ℚ) ≤ 2 ^ (m.log2 + 1) := by exact_mod_cast (Nat.lt_log2_self (n := m)).le
  have hten : (2 : ℚ) ^ k ≤ 10 ^ k := pow_le_pow_left₀ zero_le_two (by norm_num) k
  have hpow : (2 : ℚ) ^ (m.log2 + 1) ≤ 2 ^ (-1075 : ℤ) * 2 ^ k := by
    rw [← zpow_natCast, ← zpow_natCast, ← zpow_add₀ two_ne_zero]
    refine zpow_le_zpow_right₀ one_le_two ?_
    push_cast
    omega
  rw [div_le_iff₀ (by positivity)]
  exact (hm.trans hpow).trans (mul_le_mul_of_nonneg_left hten (two_zpow_pos _).le)

theorem rounds_div_ten_pow {m : ℕ} (h : 0 < m) (k : ℕ) :
    Rounds (roundWithAccuracy .binary64 .positive (divCore .binary64 m 0 (10 ^ k) 0).1
      (divCore .binary64 m 0 (10 ^ k) 0).2.1 (divCore .binary64 m 0 (10 ^ k) 0).2.2) (m / 10 ^ k) := by
  have hrounds := rounds_quotient .positive h (Nat.pow_pos (by decide) : 0 < 10 ^ k) 0 0
  have hvalue : (m : ℚ) * 2 ^ (0 : ℤ) / ((10 ^ k : ℕ) * 2 ^ (0 : ℤ)) = m / 10 ^ k := by
    rw [zpow_zero, mul_one, mul_one, Nat.cast_pow, Nat.cast_ofNat]
  rw [withSign, hvalue] at hrounds
  exact hrounds

/-- Without places the digits are multiplied by one, and with places they are divided. -/
theorem rounds_ofScientific (m k : ℕ) :
    Rounds (UnpackedFloat.ofScientific .binary64 m (-k : ℤ)) (m / 10 ^ k) := by
  have hexponent : (2 : ℤ) ^ Format.binary64.exponentBits = 2 ^ 11 := rfl
  unfold UnpackedFloat.ofScientific
  rw [hexponent]
  split
  · next hzero =>
    rw [hzero, Nat.cast_zero, zero_div]
    exact rounds_zero .positive
  · next hm =>
    have hpos : 0 < m := Nat.pos_of_ne_zero hm
    rw [if_neg (by omega)]
    split
    · next htiny =>
      have hvalue := nearest_tiny (q := m / 10 ^ k) (by positivity) (div_ten_pow_le (by omega))
      exact ⟨.zero .positive, rfl, hvalue.symm⟩
    · rcases Nat.eq_zero_or_pos k with rfl | hk
      · have hvalue : (m : ℚ) / 10 ^ 0 = m * 10 ^ 0 := by rw [pow_zero, mul_one, div_one]
        rw [if_pos (by omega), hvalue]
        exact rounds_mul_ten_pow hpos 0
      · have hplaces : (-(-k : ℤ)).toNat = k := by omega
        rw [if_neg (by omega)]
        simp only [hplaces]
        exact rounds_div_ten_pow hpos k

/-- A literal is rounded once, whether it is found by a quotient of doubles or from its digits. -/
theorem isNearest_ofScientific (m k : ℕ) : IsNearest (Float.ofScientific m true k) (m / 10 ^ k) := by
  by_cases hfast : m < 2 ^ 53 ∧ k ≤ 22
  · obtain ⟨hm, hk⟩ := hfast
    have hlimit : m ≤ Json.significandLimit := hm.le.trans (by decide)
    obtain ⟨hfinite, hreal⟩ := Json.real_significand hlimit (nearest_natCast hm.le)
    obtain ⟨hfinite', hreal'⟩ := Json.real_powerOfTen hk
    have hpos : 0 < real (Json.powerOfTen k) := hreal' ▸ pow_pos (by norm_num) k
    have hindex : k < 23 := Nat.lt_succ_of_le hk
    have htable : Float.exactlyRepresentablePowersOfTen[k] = Json.powerOfTen k := powers_of_ten ⟨k, hindex⟩
    have hquotient : Float.ofScientific m true k = (UInt64.ofNat m).toFloat / Json.powerOfTen k := by
      rw [Float.ofScientific, dif_pos ⟨hm, hk⟩]
      exact congrArg ((UInt64.ofNat m).toFloat / ·) htable
    have hnear := isNearest_div_of_pos hfinite hfinite' hpos
    rw [hreal, hreal'] at hnear
    exact hquotient ▸ hnear
  · have hslow : Float.ofScientific m true k =
        .ofModel (.pack (UnpackedFloat.ofScientific .binary64 m (-k : ℤ))) := by
      rw [Float.ofScientific, dif_neg hfast]
      have hexponent : Int.negOfNat k = -(k : ℤ) := Int.negOfNat_eq
      simp only [if_true, hexponent]
      rfl
    rw [hslow]
    exact (rounds_ofScientific m k).isNearest

end HeroPage.Decimal
