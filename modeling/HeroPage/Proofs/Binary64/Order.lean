import HeroPage.Proofs.Binary64.Packed
set_option autoImplicit false

namespace HeroPage.Binary64

open Float.Model Float.Model.UnpackedFloat

def digits (x : Float) : UnpackedFloat := x.toModel.unpack

/-- The rational that a double stands for. -/
def real (x : Float) : ℚ := value (digits x)

theorem isDouble_digits (x : Float) : IsDouble (digits x) := isDouble_unpack x.toModel.toBits.toBitVec

variable {m m' : ℕ} {e e' : ℤ}

theorem magnitude_pos (h : 0 < m) (e : ℤ) : (0 : ℚ) < m * 2 ^ e :=
  mul_pos (Nat.cast_pos.mpr h) (two_zpow_pos e)

theorem Fits.lt_of_exponent_lt (h : Fits m e) (h' : Fits m' e') (he : e < e') :
    (m : ℚ) * 2 ^ e < m' * 2 ^ e' := by
  have hm : (m : ℚ) < 2 ^ (53 : ℤ) := by exact_mod_cast h.lt
  have hm' : (2 : ℚ) ^ (52 : ℤ) ≤ m' := by
    have := h.least
    exact_mod_cast h'.leading.resolve_right (by omega)
  calc (m : ℚ) * 2 ^ e < 2 ^ (53 : ℤ) * 2 ^ e := mul_lt_mul_of_pos_right hm (two_zpow_pos e)
    _ = 2 ^ (53 + e) := (zpow_add₀ two_ne_zero 53 e).symm
    _ ≤ 2 ^ (52 + e') := zpow_le_zpow_right₀ one_le_two (by omega)
    _ = 2 ^ (52 : ℤ) * 2 ^ e' := zpow_add₀ two_ne_zero 52 e'
    _ ≤ m' * 2 ^ e' := mul_le_mul_of_nonneg_right hm' (two_zpow_pos e').le

theorem Fits.unique (h : Fits m e) (h' : Fits m' e')
    (heq : (m : ℚ) * 2 ^ e = m' * 2 ^ e') : m = m' ∧ e = e' := by
  rcases lt_trichotomy e e' with he | rfl | he
  · exact absurd heq (h.lt_of_exponent_lt h' he).ne
  · exact ⟨by exact_mod_cast mul_right_cancel₀ (two_zpow_pos e).ne' heq, rfl⟩
  · exact absurd heq (h'.lt_of_exponent_lt h he).ne'

theorem Fits.compare_eq (h : Fits m e) (h' : Fits m' e') :
    (compare e e').then (compare m m') = compare ((m : ℚ) * 2 ^ e) (m' * 2 ^ e') := by
  rcases lt_trichotomy e e' with he | rfl | he
  · rw [compare_lt_iff_lt.mpr he, compare_lt_iff_lt.mpr (h.lt_of_exponent_lt h' he)]
    rfl
  · rw [compare_eq_iff_eq.mpr rfl, Ordering.eq_then]
    rcases lt_trichotomy m m' with hm | rfl | hm
    · rw [compare_lt_iff_lt.mpr hm, compare_lt_iff_lt.mpr
        (mul_lt_mul_of_pos_right (Nat.cast_lt.mpr hm) (two_zpow_pos e))]
    · rw [compare_eq_iff_eq.mpr rfl, compare_eq_iff_eq.mpr rfl]
    · rw [compare_gt_iff_gt.mpr hm, compare_gt_iff_gt.mpr
        (mul_lt_mul_of_pos_right (Nat.cast_lt.mpr hm) (two_zpow_pos e))]
  · rw [compare_gt_iff_gt.mpr he, compare_gt_iff_gt.mpr (h'.lt_of_exponent_lt h he)]
    rfl

theorem compare_neg (x y : ℚ) : compare (-x) (-y) = (compare x y).swap := by
  rcases lt_trichotomy x y with h | rfl | h
  · rw [compare_lt_iff_lt.mpr h, compare_gt_iff_gt.mpr (neg_lt_neg h)]; rfl
  · rw [compare_eq_iff_eq.mpr rfl, compare_eq_iff_eq.mpr rfl]; rfl
  · rw [compare_gt_iff_gt.mpr h, compare_lt_iff_lt.mpr (neg_lt_neg h)]; rfl

theorem some_lt {x y : ℚ} (h : x < y) : some Ordering.lt = some (compare x y) :=
  congrArg some (compare_lt_iff_lt.mpr h).symm

theorem some_gt {x y : ℚ} (h : y < x) : some Ordering.gt = some (compare x y) :=
  congrArg some (compare_gt_iff_gt.mpr h).symm

theorem some_eq {x y : ℚ} (h : x = y) : some Ordering.eq = some (compare x y) :=
  congrArg some (compare_eq_iff_eq.mpr h).symm

/-- Digits of the same sign are compared by exponent and mantissa, and all else is decided by the
signs and by what is infinite or zero. -/
theorem compare_value {u v : UnpackedFloat} (hu : IsDouble u) (hv : IsDouble v)
    (hu' : u.isNaN = false) (hv' : v.isNaN = false) :
    UnpackedFloat.compare u v = some (compare (value u) (value v)) := by
  have hlimit := limit_pos
  obtain ⟨hu, hbu⟩ := hu
  obtain ⟨hv, hbv⟩ := hv
  cases hu with
  | notANumber => cases hu'
  | infinity s =>
    cases hv with
    | notANumber => cases hv'
    | infinity s' =>
      cases s <;> cases s' <;> simp only [UnpackedFloat.compare, value, withSign] <;>
        first | exact some_eq rfl | exact some_lt (by linarith) | exact some_gt (by linarith)
    | zero s' => cases s <;> [exact some_lt (neg_lt_zero.mpr hlimit); exact some_gt hlimit]
    | @finite s' _ e' h' fits' =>
      have hpos' := magnitude_pos h' e'
      have hlt' := fits'.lt_limit hbv
      cases s <;> cases s' <;> simp only [UnpackedFloat.compare, value, withSign] <;>
        first | exact some_lt (by linarith) | exact some_gt (by linarith)
  | zero s =>
    cases hv with
    | notANumber => cases hv'
    | infinity s' => cases s' <;> [exact some_gt (neg_lt_zero.mpr hlimit); exact some_lt hlimit]
    | zero s' => exact some_eq rfl
    | @finite s' _ e' h' fits' =>
      have hpos' := magnitude_pos h' e'
      cases s' <;> [exact some_gt (neg_lt_zero.mpr hpos'); exact some_lt hpos']
  | @finite s m e h fits =>
    have hpos := magnitude_pos h e
    cases hv with
    | notANumber => cases hv'
    | infinity s' =>
      have hlt := fits.lt_limit hbu
      cases s <;> cases s' <;> simp only [UnpackedFloat.compare, value, withSign] <;>
        first | exact some_lt (by linarith) | exact some_gt (by linarith)
    | zero s' => cases s <;> [exact some_lt (neg_lt_zero.mpr hpos); exact some_gt hpos]
    | @finite s' _ e' h' fits' =>
      have hpos' := magnitude_pos h' e'
      have hcompare := fits.compare_eq fits'
      cases s <;> cases s' <;> simp only [UnpackedFloat.compare, value, withSign]
      · rw [hcompare, compare_neg]
      · exact some_lt (by linarith)
      · exact some_gt (by linarith)
      · rw [hcompare]

section

variable {x y : Float}

theorem compare_of_isNaN (h : x.isNaN = true ∨ y.isNaN = true) :
    UnpackedFloat.compare (digits x) (digits y) = none := by
  change (digits x).isNaN = true ∨ (digits y).isNaN = true at h
  cases hx : digits x <;> cases hy : digits y <;> simp_all [UnpackedFloat.isNaN, UnpackedFloat.compare]

theorem compare_real (hx : x.isNaN = false) (hy : y.isNaN = false) :
    UnpackedFloat.compare (digits x) (digits y) = some (compare (real x) (real y)) :=
  compare_value (isDouble_digits x) (isDouble_digits y) hx hy

theorem le_iff : x ≤ y ↔ x.isNaN = false ∧ y.isNaN = false ∧ real x ≤ real y := by
  change decide (UnpackedFloat.le (digits x) (digits y) = true) = true ↔ _
  rw [decide_eq_true_iff, UnpackedFloat.le]
  cases hx : x.isNaN
  · cases hy : y.isNaN
    · rw [compare_real hx hy]
      simp [← compare_le_iff_le, Ordering.isLE_iff_ne_gt]
    · simp [compare_of_isNaN (.inr hy)]
  · simp [compare_of_isNaN (.inl hx)]

theorem lt_iff : x < y ↔ x.isNaN = false ∧ y.isNaN = false ∧ real x < real y := by
  change decide (UnpackedFloat.lt (digits x) (digits y) = true) = true ↔ _
  rw [decide_eq_true_iff, UnpackedFloat.lt]
  cases hx : x.isNaN
  · cases hy : y.isNaN
    · rw [compare_real hx hy]
      simp [← compare_lt_iff_lt]
    · simp [compare_of_isNaN (.inr hy)]
  · simp [compare_of_isNaN (.inl hx)]

theorem beq_iff : (x == y) = true ↔ x.isNaN = false ∧ y.isNaN = false ∧ real x = real y := by
  change UnpackedFloat.beq (digits x) (digits y) = true ↔ _
  rw [UnpackedFloat.beq]
  cases hx : x.isNaN
  · cases hy : y.isNaN
    · rw [compare_real hx hy]
      simp
    · simp [compare_of_isNaN (.inr hy)]
  · simp [compare_of_isNaN (.inl hx)]

theorem not_lt_iff (hx : x.isNaN = false) (hy : y.isNaN = false) : ¬x < y ↔ y ≤ x := by
  rw [lt_iff, le_iff, and_iff_right hx, and_iff_right hy, and_iff_right hx, and_iff_right hy, not_lt]

theorem le_self (h : x.isNaN = false) : x ≤ x := le_iff.mpr ⟨h, h, le_rfl⟩

theorem le_chain {z : Float} (h : x ≤ y) (h' : y ≤ z) : x ≤ z := by
  obtain ⟨hx, -, hxy⟩ := le_iff.mp h
  obtain ⟨-, hz, hyz⟩ := le_iff.mp h'
  exact le_iff.mpr ⟨hx, hz, hxy.trans hyz⟩

end

end HeroPage.Binary64
