import HeroPage.Proofs.Binary64.Order
set_option autoImplicit false

namespace HeroPage.Binary64

open Float.Model Float.Model.UnpackedFloat

theorem Fits.nearest_eq {m : ℕ} {e : ℤ} (h : Fits m e) : nearest ((m : ℚ) * 2 ^ e) = m * 2 ^ e := by
  have hm : |(m : ℤ)| < 2 ^ 53 := by
    rw [abs_of_nonneg (Int.natCast_nonneg m)]
    exact_mod_cast h.lt
  exact nearest_eq_self hm h.least

theorem Canonical.rounds {u : UnpackedFloat} (h : Canonical u) (hfinite : u.isFinite = true) :
    Rounds u (value u) := by
  refine ⟨h, hfinite, ?_⟩
  cases h with
  | notANumber => cases hfinite
  | infinity s => cases hfinite
  | zero s => exact nearest_zero.symm
  | finite s h fits => rw [value, nearest_withSign, fits.nearest_eq]

theorem neg_rounds {s : Sign} {m : ℕ} {e : ℤ} {h : 0 < m} (fits : Fits m e) :
    Rounds (.finite (-s) m e h) (-value (.finite s m e h)) := by
  have hrounds := (Canonical.finite (-s) h fits).rounds rfl
  cases s
  · simpa [value, withSign] using hrounds
  · exact hrounds

theorem apply_decreaseExponent (s : Sign) (m : ℕ) {e t : ℤ} (h : t ≤ e) :
    ((s.apply (decreaseExponent m e t).1 : ℤ) : ℚ) * 2 ^ t = withSign s (m * 2 ^ e) := by
  have heq := decreaseExponent_eq m e t
  have ht : (decreaseExponent m e t).2 = t := by
    dsimp only [decreaseExponent]
    omega
  rw [ht] at heq
  cases s with
  | positive => exact heq
  | negative => simp only [Sign.apply, withSign, ← heq]; push_cast; ring

section

variable {u v : UnpackedFloat}

theorem rounds_add (hu : Canonical u) (hv : Canonical v) (hu' : u.isFinite = true)
    (hv' : v.isFinite = true) : Rounds (UnpackedFloat.add .binary64 u v) (value u + value v) := by
  cases hu with
  | notANumber => cases hu'
  | infinity s => cases hu'
  | zero s =>
    have hrounds := hv.rounds hv'
    cases hv with
    | notANumber => cases hv'
    | infinity s' => cases hv'
    | zero s' =>
      rw [value_zero, value_zero, add_zero]
      cases s <;> cases s' <;> exact rounds_zero _
    | finite s' h' fits' =>
      rw [value_zero, zero_add]
      exact hrounds
  | @finite s m e h fits =>
    cases hv with
    | notANumber => cases hv'
    | infinity s' => cases hv'
    | zero s' =>
      rw [value_zero, add_zero]
      exact (Canonical.finite s h fits).rounds rfl
    | @finite s' m' e' h' fits' =>
      have hrounds := rounds_normalize (s.apply (decreaseExponent m e (min e e')).1 +
        s'.apply (decreaseExponent m' e' (min e e')).1) (min e e') .positive
      rw [Int.cast_add, add_mul, apply_decreaseExponent s m (min_le_left e e'),
        apply_decreaseExponent s' m' (min_le_right e e')] at hrounds
      exact hrounds

theorem rounds_sub (hu : Canonical u) (hv : Canonical v) (hu' : u.isFinite = true)
    (hv' : v.isFinite = true) : Rounds (UnpackedFloat.sub .binary64 u v) (value u - value v) := by
  cases hu with
  | notANumber => cases hu'
  | infinity s => cases hu'
  | zero s =>
    cases hv with
    | notANumber => cases hv'
    | infinity s' => cases hv'
    | zero s' =>
      rw [value_zero, value_zero, sub_zero]
      cases s <;> cases s' <;> exact rounds_zero _
    | finite s' h' fits' =>
      rw [value_zero, zero_sub]
      exact neg_rounds fits'
  | @finite s m e h fits =>
    cases hv with
    | notANumber => cases hv'
    | infinity s' => cases hv'
    | zero s' =>
      rw [value_zero, sub_zero]
      exact (Canonical.finite s h fits).rounds rfl
    | @finite s' m' e' h' fits' =>
      have hrounds := rounds_normalize (s.apply (decreaseExponent m e (min e e')).1 -
        s'.apply (decreaseExponent m' e' (min e e')).1) (min e e') .positive
      rw [Int.cast_sub, sub_mul, apply_decreaseExponent s m (min_le_left e e'),
        apply_decreaseExponent s' m' (min_le_right e e')] at hrounds
      exact hrounds

end

theorem withSign_div (s s' : Sign) (x y : ℚ) :
    withSign (s / s') (x / y) = withSign s x / withSign s' y := by
  cases s <;> cases s'
  · exact (neg_div_neg_eq x y).symm
  · exact (neg_div y x).symm
  · exact (div_neg x).symm
  · rfl

theorem le_log_div {m m' : ℕ} (h : 0 < m) (h' : 0 < m') (e e' : ℤ) :
    totalExponent m e - totalExponent m' e' - 1 ≤ Int.log 2 ((m : ℚ) * 2 ^ e / (m' * 2 ^ e')) := by
  have hm : (2 : ℚ) ^ (m.log2 + e) ≤ m * 2 ^ e := by
    rw [zpow_add₀ two_ne_zero, zpow_natCast]
    refine mul_le_mul_of_nonneg_right ?_ (two_zpow_pos e).le
    exact_mod_cast Nat.log2_self_le h.ne'
  have hm' : (m' : ℚ) * 2 ^ e' ≤ 2 ^ ((m'.log2 + 1 : ℕ) + e') := by
    rw [zpow_add₀ two_ne_zero, zpow_natCast]
    refine mul_le_mul_of_nonneg_right ?_ (two_zpow_pos e').le
    exact_mod_cast (Nat.lt_log2_self (n := m')).le
  have hpos := magnitude_pos h e
  have hpos' := magnitude_pos h' e'
  refine (Int.zpow_le_iff_le_log (b := 2) (by decide) (div_pos hpos hpos')).mp ?_
  have hexp : totalExponent m e - totalExponent m' e' - 1 =
      (m.log2 + e : ℤ) - ((m'.log2 + 1 : ℕ) + e' : ℤ) := by
    simp only [totalExponent]
    push_cast
    omega
  rw [hexp, Nat.cast_ofNat, zpow_sub₀ two_ne_zero]
  exact div_le_div₀ hpos.le hm hpos' hm'

theorem rounds_quotient (s : Sign) {m m' : ℕ} (h : 0 < m) (h' : 0 < m') (e e' : ℤ) :
    Rounds (roundWithAccuracy .binary64 s (divCore .binary64 m e m' e').1
      (divCore .binary64 m e m' e').2.1 (divCore .binary64 m e m' e').2.2)
      (withSign s (m * 2 ^ e / (m' * 2 ^ e'))) := by
  have hlog := le_log_div h h' e e'
  have htarget : Format.binary64.targetExponent (totalExponent m e - totalExponent m' e') =
      max (totalExponent m e - totalExponent m' e' - 53) (-1074) := rfl
  have hquotient : 0 < (m : ℚ) * 2 ^ e / (m' * 2 ^ e') := div_pos (magnitude_pos h e) (magnitude_pos h' e')
  have hexponent : exponent ((m : ℚ) * 2 ^ e / (m' * 2 ^ e')) =
      max (Int.log 2 ((m : ℚ) * 2 ^ e / (m' * 2 ^ e')) - 52) (-1074) := by
    rw [exponent, abs_of_pos hquotient]
  simp only [divCore]
  generalize ht : min (e - e')
    (Format.binary64.targetExponent (totalExponent m e - totalExponent m' e')) = t
  have hfine : t ≤ exponent ((m : ℚ) * 2 ^ e / (m' * 2 ^ e')) := by omega
  have hpower : (2 : ℚ) ^ (e - e' - t).toNat * 2 ^ t = 2 ^ e / 2 ^ e' := by
    rw [← zpow_natCast, Int.toNat_of_nonneg (by omega), ← zpow_add₀ two_ne_zero,
      ← zpow_sub₀ two_ne_zero, Int.sub_add_cancel]
  have hshifted : ((m <<< (e - e' - t).toNat : ℕ) : ℚ) / m' * 2 ^ t = m * 2 ^ e / (m' * 2 ^ e') := by
    rw [Nat.shiftLeft_eq, Nat.cast_mul, Nat.cast_pow, Nat.cast_ofNat, div_mul_eq_mul_div, mul_assoc,
      hpower, mul_div_assoc', div_div, mul_comm (2 ^ e')]
  have hpos : (0 : ℚ) < (m <<< (e - e' - t).toNat : ℕ) / m' := by
    rw [Nat.shiftLeft_eq]
    exact div_pos (Nat.cast_pos.mpr (Nat.mul_pos h (Nat.two_pow_pos _))) (Nat.cast_pos.mpr h')
  rw [← hshifted] at hfine ⊢
  exact rounds_roundWithAccuracy s hpos (marks_quotient _ h') hfine

theorem rounds_div {u : UnpackedFloat} (hu : Canonical u) (hu' : u.isFinite = true) (s' : Sign)
    {m' : ℕ} {e' : ℤ} (h' : 0 < m') :
    Rounds (UnpackedFloat.div .binary64 u (.finite s' m' e' h')) (value u / value (.finite s' m' e' h')) := by
  cases hu with
  | notANumber => cases hu'
  | infinity s => cases hu'
  | zero s =>
    rw [value_zero, zero_div]
    exact rounds_zero (s / s')
  | @finite s m e h fits =>
    rw [value, value, ← withSign_div]
    exact rounds_quotient (s / s') h h' e e'

/-- `z` is the double nearest to `x`. -/
structure IsNearest (z : Float) (x : ℚ) : Prop where
  isNaN : z.isNaN = false
  real_eq : real z = clamp (nearest x)

theorem IsNearest.le {z z' : Float} {x x' : ℚ} (h : IsNearest z x) (h' : IsNearest z' x')
    (hle : x ≤ x') : z ≤ z' := by
  refine le_iff.mpr ⟨h.isNaN, h'.isNaN, ?_⟩
  rw [h.real_eq, h'.real_eq]
  exact clamp_mono (nearest_mono hle)

theorem isNaN_saturate {u : UnpackedFloat} (h : u.isFinite = true) : (saturate u).isNaN = false := by
  cases u with
  | notANumber => cases h
  | infinity s => cases h
  | zero s => rfl
  | finite s m e h =>
    rw [saturate]
    split <;> rfl

theorem Rounds.isNearest {u : UnpackedFloat} {x : ℚ} (h : Rounds u x) :
    IsNearest (.ofModel (.pack u)) x := by
  have hdigits : digits (.ofModel (.pack u)) = saturate u := unpack_pack h.canonical
  refine ⟨?_, ?_⟩
  · change (digits (.ofModel (.pack u))).isNaN = false
    rw [hdigits, isNaN_saturate h.finite]
  · rw [real, hdigits, value_saturate h.canonical, h.value_eq]

section

variable {x y : Float}

theorem isNearest_add (hx : x.isFinite = true) (hy : y.isFinite = true) :
    IsNearest (x + y) (real x + real y) :=
  (rounds_add (isDouble_digits x).canonical (isDouble_digits y).canonical hx hy).isNearest

theorem isNearest_sub (hx : x.isFinite = true) (hy : y.isFinite = true) :
    IsNearest (x - y) (real x - real y) :=
  (rounds_sub (isDouble_digits x).canonical (isDouble_digits y).canonical hx hy).isNearest

end

theorem digits_one : digits 1 = .finite .positive (2 ^ 52) (-52) (by decide) := rfl

end HeroPage.Binary64
