import HeroPage.Proofs.Binary64.Window
set_option autoImplicit false

namespace HeroPage.Binary64

open Float.Model Float.Model.UnpackedFloat

variable {m m' : ℕ} {e e' : ℤ} {x y : Float}

theorem withSign_mul (s s' : Sign) (x y : ℚ) :
    withSign (s * s') (x * y) = withSign s x * withSign s' y := by
  cases s <;> cases s'
  · exact (neg_mul_neg x y).symm
  · exact (neg_mul x y).symm
  · exact (mul_neg x y).symm
  · rfl

theorem magnitude_mul (m m' : ℕ) (e e' : ℤ) :
    ((m * m' : ℕ) : ℚ) * 2 ^ (e + e') = m * 2 ^ e * (m' * 2 ^ e') := by
  rw [zpow_add₀ two_ne_zero, Nat.cast_mul]
  ring

theorem le_exponent_mul (h : 0 < m) (h' : 0 < m') (hbits : 2 ^ 52 ≤ m * m' ∨ e + e' ≤ -1074) :
    e + e' ≤ exponent ((m * m' : ℕ) * 2 ^ (e + e')) := by
  rw [exponent_natCast_mul (Nat.mul_pos h h')]
  rcases hbits with hbits | hleast
  · have hlog := (Nat.le_log2 (Nat.mul_pos h h').ne').mpr hbits
    exact le_max_of_le_left (by omega)
  · exact le_max_of_le_right hleast

theorem rounds_product (s : Sign) (h : 0 < m) (h' : 0 < m')
    (hbits : 2 ^ 52 ≤ m * m' ∨ e + e' ≤ -1074) :
    Rounds (roundWithAccuracy .binary64 s (m * m') (e + e') .exact)
      (withSign s (m * 2 ^ e * (m' * 2 ^ e'))) := by
  rw [← magnitude_mul]
  exact rounds_roundWithAccuracy s (Nat.cast_pos.mpr (Nat.mul_pos h h')) (marks_exact _)
    (le_exponent_mul h h' hbits)

theorem Fits.bits_mul (fits : Fits m e) (fits' : Fits m' e') (h : 0 < m) (h' : 0 < m') :
    2 ^ 52 ≤ m * m' ∨ e + e' ≤ -1074 := by
  rcases fits.leading with hm | rfl
  · exact .inl (hm.trans (Nat.le_mul_of_pos_right m h'))
  · rcases fits'.leading with hm' | rfl
    · exact .inl (hm'.trans (Nat.le_mul_of_pos_left m' h))
    · exact .inr (by decide)

theorem rounds_mul {u v : UnpackedFloat} (hu : Canonical u) (hv : Canonical v)
    (hu' : u.isFinite = true) (hv' : v.isFinite = true) :
    Rounds (UnpackedFloat.mul .binary64 u v) (value u * value v) := by
  cases hu with
  | notANumber => cases hu'
  | infinity s => cases hu'
  | zero s =>
    rw [value_zero, zero_mul]
    cases hv with
    | notANumber => cases hv'
    | infinity s' => cases hv'
    | zero s' => exact rounds_zero (s * s')
    | finite s' h' fits' => exact rounds_zero (s * s')
  | @finite s m e h fits =>
    cases hv with
    | notANumber => cases hv'
    | infinity s' => cases hv'
    | zero s' =>
      rw [value_zero, mul_zero]
      exact rounds_zero (s * s')
    | @finite s' m' e' h' fits' =>
      rw [value, value, ← withSign_mul]
      exact rounds_product (s * s') h h' (fits.bits_mul fits' h h')

theorem isNearest_mul (hx : x.isFinite = true) (hy : y.isFinite = true) :
    IsNearest (x * y) (real x * real y) :=
  (rounds_mul (isDouble_digits x).canonical (isDouble_digits y).canonical hx hy).isNearest

/-- The greatest double. -/
def greatest : ℚ := (2 ^ 53 - 1 : ℤ) * 2 ^ (971 : ℤ)

theorem nearest_greatest : nearest greatest = greatest := nearest_eq_self (by decide) (by decide)

theorem greatest_lt_limit : greatest < limit := by
  have hpow : limit = 2 ^ 53 * 2 ^ (971 : ℤ) := by
    rw [limit, ← zpow_natCast, ← zpow_add₀ two_ne_zero]
    norm_num
  rw [hpow, greatest]
  exact mul_lt_mul_of_pos_right (by norm_num) (two_zpow_pos 971)

theorem natCast_le_greatest {n k : ℕ} (h : n ≤ 10 ^ k) (hk : k ≤ 308) : (n : ℚ) ≤ greatest := by
  obtain ⟨t, ht⟩ : ∃ t : ℕ, t = 2 ^ 971 := ⟨_, rfl⟩
  have hpow : (2 : ℚ) ^ (971 : ℤ) = t := by
    rw [ht, Nat.cast_pow, ← zpow_natCast]
    rfl
  have hten : 10 ^ 308 ≤ (2 ^ 53 - 1) * 2 ^ 971 := by decide +kernel
  have hgrow : ∀ j, k ≤ j → 10 ^ k ≤ 10 ^ j := fun _ => Nat.pow_le_pow_right (by decide)
  rw [← ht] at hten
  have hle : (n : ℚ) ≤ ((2 ^ 53 - 1) * t : ℕ) := Nat.cast_le.mpr (h.trans ((hgrow 308 hk).trans hten))
  rw [greatest, hpow]
  exact hle.trans_eq (Nat.cast_mul _ _)

theorem IsNearest.finite_of_lt_limit {z : Float} {q : ℚ} (h : IsNearest z q) (hq : 0 ≤ q)
    (hlt : nearest q < limit) : z.isFinite = true ∧ real z = nearest q := by
  have hnonneg := nearest_nonneg hq
  have hreal : real z = nearest q := by
    rw [h.real_eq, clamp, min_eq_left hlt.le, max_eq_right]
    linarith [limit_pos]
  refine ⟨isFinite_of_abs_real_lt h.isNaN ?_, hreal⟩
  rw [hreal, abs_of_nonneg hnonneg]
  exact hlt

theorem IsNearest.finite {z : Float} {q : ℚ} (h : IsNearest z q) (hq : 0 ≤ q) (hle : q ≤ greatest) :
    z.isFinite = true ∧ real z = nearest q :=
  h.finite_of_lt_limit hq ((nearest_greatest ▸ nearest_mono hle).trans_lt greatest_lt_limit)

theorem IsNearest.real_of_isFinite {z : Float} {q : ℚ} (h : IsNearest z q) (hz : z.isFinite = true) :
    real z = nearest q := by
  obtain ⟨hlow, hhigh⟩ := abs_lt.mp (abs_real_lt hz)
  rw [h.real_eq] at hlow hhigh ⊢
  unfold clamp at *
  rcases le_total (nearest q) limit with hle | hle
  · rw [min_eq_left hle] at hlow hhigh ⊢
    exact max_eq_right (le_of_not_ge fun hge => hlow.ne' (max_eq_left hge))
  · rw [min_eq_right hle, max_eq_right (by linarith [limit_pos])] at hhigh
    exact absurd hhigh (lt_irrefl limit)

/-- Half way from the greatest double to the limit. What lies below is rounded down, and all else up. -/
def overflow : ℚ := (2 ^ 53 - 1 / 2) * 2 ^ (971 : ℤ)

theorem nearest_overflow : nearest overflow = limit := by
  have hround : roundEven (2 ^ 53 - 1 / 2) = 2 ^ 53 :=
    roundEven_eq (by norm_num) (.inl (by norm_num))
  have h := nearest_mul_zpow (t := 2 ^ 53 - 1 / 2) (e := 971) (by norm_num) (by norm_num)
    (.inl (by norm_num)) (by norm_num) hround
  rw [overflow, h, limit, Int.cast_pow, Int.cast_ofNat, ← zpow_natCast, ← zpow_add₀ two_ne_zero]
  norm_num

theorem nearest_of_lt_overflow {q : ℚ} (hlow : greatest ≤ q) (hhigh : q < overflow) :
    nearest q = greatest := by
  have hpow := two_zpow_pos 971
  have hq : q / 2 ^ (971 : ℤ) * 2 ^ (971 : ℤ) = q := div_mul_cancel₀ q hpow.ne'
  generalize q / 2 ^ (971 : ℤ) = t at hq
  subst hq
  have hge : ((2 ^ 53 - 1 : ℤ) : ℚ) ≤ t := le_of_mul_le_mul_right hlow hpow
  have hlt : t < 2 ^ 53 - 1 / 2 := lt_of_mul_lt_mul_right hhigh hpow.le
  push_cast at hge
  refine nearest_mul_zpow (by linarith) (by decide) (.inl (by linarith)) (by linarith) ?_
  have habs : |t - ((2 ^ 53 - 1 : ℤ) : ℚ)| < 1 / 2 := by
    push_cast
    rw [abs_lt]
    constructor <;> linarith
  exact roundEven_eq habs.le (.inr habs)

theorem nearest_lt_limit_iff {q : ℚ} : nearest q < limit ↔ q < overflow := by
  constructor
  · contrapose!
    intro h
    exact nearest_overflow ▸ nearest_mono h
  · intro h
    refine lt_of_le_of_lt ?_ greatest_lt_limit
    rcases le_total greatest q with hle | hle
    · exact (nearest_of_lt_overflow hle h).le
    · exact (nearest_mono hle).trans_eq nearest_greatest

theorem IsNearest.isFinite_iff {z : Float} {q : ℚ} (h : IsNearest z q) (hq : 0 ≤ q) :
    z.isFinite = true ↔ q < overflow := by
  rw [← nearest_lt_limit_iff]
  constructor
  · intro hz
    rw [← h.real_of_isFinite hz]
    exact (abs_lt.mp (abs_real_lt hz)).2
  · exact fun hlt => (h.finite_of_lt_limit hq hlt).1

theorem isInf_of_isFinite (h : x.isFinite = true) : x.isInf = false := by
  change (digits x).isFinite = true at h
  change (digits x).isInf = false
  cases hx : digits x with
  | notANumber => rfl
  | infinity s => rw [hx] at h; cases h
  | zero s => rfl
  | finite s m e h => rfl

theorem isFinite_of_isInf (hnan : x.isNaN = false) (h : x.isInf = false) : x.isFinite = true := by
  rcases finite_or_infinite hnan with hfinite | ⟨s, hs⟩
  · exact hfinite
  · change (digits x).isInf = false at h
    rw [hs] at h
    cases h

theorem isNearest_div_of_pos {d : Float} (hx : x.isFinite = true) (hd : d.isFinite = true)
    (hpos : 0 < real d) : IsNearest (x / d) (real x / real d) := by
  obtain ⟨m, e, hm, -, hdigits⟩ := digits_of_pos hd hpos
  have hreal : real d = m * 2 ^ e := by rw [real, hdigits]; rfl
  exact hreal ▸ isNearest_div hdigits hx

theorem isNearest_ofNat (n : ℕ) : IsNearest (.ofModel (.ofNat n)) n := by
  have hrounds := rounds_normalize n 0 .positive
  rw [zpow_zero, mul_one, Int.cast_natCast] at hrounds
  exact hrounds.isNearest

theorem isNearest_toFloat {n : ℕ} (h : n < UInt64.size) : IsNearest (UInt64.ofNat n).toFloat n := by
  have hnear : IsNearest (UInt64.ofNat n).toFloat (UInt64.ofNat n).toNat := isNearest_ofNat _
  rwa [UInt64.toNat_ofNat_of_lt' h] at hnear

theorem nearest_natCast {n : ℕ} (h : n ≤ 2 ^ 53) : nearest n = n := by
  rcases h.lt_or_eq with hlt | rfl
  · have hself := nearest_eq_self (m := n) (e := 0) (by rw [Nat.abs_cast]; exact_mod_cast hlt)
      (by decide)
    rwa [zpow_zero, mul_one, Int.cast_natCast] at hself
  · have hself := nearest_eq_self (m := 1) (e := 53) (by decide) (by decide)
    norm_num at hself ⊢
    exact hself

/-- The powers of ten up to the twenty-second are doubles: their odd part has at most 53 bits. -/
theorem nearest_ten_pow {n : ℕ} (h : n ≤ 22) : nearest (10 ^ n) = 10 ^ n := by
  have hfive : (5 : ℕ) ^ n < 2 ^ 53 :=
    lt_of_le_of_lt (Nat.pow_le_pow_right (by decide) h) (by decide)
  have hself := nearest_eq_self (m := 5 ^ n) (e := n) (by
    rw [abs_of_pos (pow_pos (by decide) n)]
    exact_mod_cast hfive) (by omega)
  have hten : ((5 ^ n : ℤ) : ℚ) * 2 ^ (n : ℤ) = 10 ^ n := by
    rw [zpow_natCast, Int.cast_pow, Int.cast_ofNat, ← mul_pow]
    norm_num
  rwa [hten] at hself

/-- A literal without decimal places; its significand is shifted, so that no bit is missing. -/
theorem rounds_mul_ten_pow (h : 0 < m) (n : ℕ) :
    Rounds (roundWithAccuracy .binary64 .positive ((m <<< 53) * 10 ^ n) (-53 + 0) .exact) (m * 10 ^ n) := by
  have hpos : 0 < 10 ^ n := Nat.pow_pos (by decide)
  have hshift : m <<< 53 = m * 2 ^ 53 := Nat.shiftLeft_eq m 53
  have hlarge : 2 ^ 53 ≤ m <<< 53 := hshift ▸ Nat.le_mul_of_pos_left _ h
  have hbits : 2 ^ 52 ≤ m <<< 53 * 10 ^ n :=
    (show 2 ^ 52 ≤ 2 ^ 53 by decide).trans (hlarge.trans (Nat.le_mul_of_pos_right _ hpos))
  have hrounds := @rounds_product (m <<< 53) (10 ^ n) (-53) 0 .positive
    (Nat.lt_of_lt_of_le (by decide) hlarge) hpos (.inl hbits)
  have hvalue : ((m <<< 53 : ℕ) : ℚ) * 2 ^ (-53 : ℤ) * ((10 ^ n : ℕ) * 2 ^ (0 : ℤ)) = m * 10 ^ n := by
    have hunit : (2 : ℚ) ^ 53 * 2 ^ (-53 : ℤ) = 1 := by norm_num
    rw [hshift, zpow_zero, mul_one, Nat.cast_mul, Nat.cast_pow, Nat.cast_pow, Nat.cast_ofNat,
      Nat.cast_ofNat, mul_assoc (m : ℚ), hunit, mul_one]
  rw [withSign, hvalue] at hrounds
  exact hrounds

theorem isNearest_ten_pow {n : ℕ} (h : n ≤ 308) :
    IsNearest (Float.ofScientific 1 false n) (10 ^ n) := by
  by_cases hsmall : n ≤ 22
  · have htable : ∀ k < 23, Float.ofScientific 1 false k = .ofModel (.ofNat (10 ^ k)) := by
      decide +kernel
    have hnear := isNearest_ofNat (10 ^ n)
    rw [Nat.cast_pow, Nat.cast_ofNat] at hnear
    rw [htable n (by omega)]
    exact hnear
  · have hrounds := rounds_mul_ten_pow one_pos n
    rw [Nat.cast_one, one_mul] at hrounds
    have hslow : Float.ofScientific 1 false n = .ofModel (.pack (roundWithAccuracy .binary64 .positive
        ((1 <<< 53) * 10 ^ n) (-53 + 0) .exact)) := by
      have h₁ : ¬((n : ℤ) > 2 ^ 11) := by omega
      have h₂ : ¬((n : ℤ) < -((2 ^ 11 : ℤ) + (Nat.log2 1 : ℕ))) := by omega
      rw [Float.ofScientific, dif_neg (fun hfast => hsmall hfast.2)]
      change Float.ofModel (.pack (UnpackedFloat.ofScientific .binary64 1 (n : ℤ))) = _
      rw [UnpackedFloat.ofScientific, dif_neg one_ne_zero, if_neg h₁, if_neg h₂,
        if_pos (Int.natCast_nonneg n)]
      rfl
    rw [hslow]
    exact hrounds.isNearest

end HeroPage.Binary64
