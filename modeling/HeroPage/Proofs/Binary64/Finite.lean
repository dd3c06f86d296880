import HeroPage.Proofs.Binary64.Arithmetic
set_option autoImplicit false

namespace HeroPage.Binary64

open Float.Model Float.Model.UnpackedFloat

variable {x y d : Float}

theorem finite_or_infinite (h : x.isNaN = false) :
    x.isFinite = true ∨ ∃ s, digits x = .infinity s := by
  change (digits x).isNaN = false at h
  change (digits x).isFinite = true ∨ _
  cases hx : digits x with
  | notANumber => rw [hx] at h; cases h
  | infinity s => exact .inr ⟨s, rfl⟩
  | zero s => exact .inl rfl
  | finite s m e h => exact .inl rfl

theorem digits_of_isNaN (h : x.isNaN = true) : digits x = .notANumber := by
  change (digits x).isNaN = true at h
  generalize digits x = u at h ⊢
  cases u with
  | notANumber => rfl
  | infinity s => cases h
  | zero s => cases h
  | finite s m e h => cases h

theorem isNaN_of_isFinite (h : x.isFinite = true) : x.isNaN = false := by
  change (digits x).isFinite = true at h
  change (digits x).isNaN = false
  cases hx : digits x with
  | notANumber => rw [hx] at h; cases h
  | infinity s => rfl
  | zero s => rfl
  | finite s m e h => rfl

theorem abs_real_lt (h : x.isFinite = true) : |real x| < limit := by
  change (digits x).isFinite = true at h
  obtain ⟨hcanonical, hbounded⟩ := isDouble_digits x
  rw [real]
  generalize digits x = u at *
  cases hcanonical with
  | notANumber => cases h
  | infinity s => cases h
  | zero s => rw [value_zero, abs_zero]; exact limit_pos
  | @finite s m e hm fits =>
    have hlt := fits.lt_limit hbounded
    have hpos := magnitude_pos hm e
    rw [value, abs_withSign, abs_of_pos hpos]
    exact hlt

theorem real_of_infinity {s : Sign} (h : digits x = .infinity s) : real x = withSign s limit := by
  rw [real, h, value]

theorem isNaN_of_infinity {s : Sign} (h : digits x = .infinity s) : x.isNaN = false := by
  change (digits x).isNaN = false
  rw [h]
  rfl

theorem abs_real_le (h : x.isNaN = false) : |real x| ≤ limit := by
  rcases finite_or_infinite h with h | ⟨s, h⟩
  · exact (abs_real_lt h).le
  · rw [real_of_infinity h, abs_withSign, abs_of_pos limit_pos]

theorem isFinite_of_abs_real_lt (h : x.isNaN = false) (hlt : |real x| < limit) : x.isFinite = true := by
  rcases finite_or_infinite h with hfinite | ⟨s, hs⟩
  · exact hfinite
  · rw [real_of_infinity hs, abs_withSign, abs_of_pos limit_pos] at hlt
    exact absurd hlt (lt_irrefl limit)

theorem clamp_nearest_real (h : x.isFinite = true) : clamp (nearest (real x)) = real x := by
  have hlt := abs_lt.mp (abs_real_lt h)
  have hrounds := (isDouble_digits x).canonical.rounds h
  rw [real, ← hrounds.value_eq, ← real, clamp, min_eq_left hlt.2.le, max_eq_right hlt.1.le]

theorem digits_mul_zero (h : x.isFinite = true) : ∃ s, digits (x * 0) = .zero s := by
  change (digits x).isFinite = true at h
  change ∃ s, (Float.Model.pack (UnpackedFloat.mul .binary64 (digits x) (.zero .positive))).unpack = .zero s
  generalize digits x = u at h ⊢
  cases u with
  | notANumber => cases h
  | infinity s => cases h
  | zero s => exact ⟨_, unpack_pack (.zero (s * Sign.positive))⟩
  | finite s m e hm => exact ⟨_, unpack_pack (.zero (s * Sign.positive))⟩

theorem isNaN_mul_zero (h : x.isFinite = false) : (x * 0).isNaN = true := by
  change (digits x).isFinite = false at h
  change (Float.Model.pack (UnpackedFloat.mul .binary64 (digits x) (.zero .positive))).unpack.isNaN = true
  generalize digits x = u at h ⊢
  cases u with
  | notANumber => exact congrArg UnpackedFloat.isNaN (unpack_pack .notANumber)
  | infinity s => exact congrArg UnpackedFloat.isNaN (unpack_pack .notANumber)
  | zero s => cases h
  | finite s m e hm => cases h

theorem isNaN_add (h : y.isNaN = true) : (x + y).isNaN = true := by
  change (Float.Model.pack (UnpackedFloat.add .binary64 (digits x) (digits y))).unpack.isNaN = true
  rw [digits_of_isNaN h]
  cases digits x <;> exact congrArg UnpackedFloat.isNaN (unpack_pack .notANumber)

theorem add_beq_of_zero (hx : x.isFinite = true) {s : Sign} (hy : digits y = .zero s) :
    (x + y == x) = true := by
  have hfinite : y.isFinite = true := by
    change (digits y).isFinite = true
    rw [hy]
    rfl
  have hnear := isNearest_add hx hfinite
  have hreal : real y = 0 := by rw [real, hy, value_zero]
  rw [hreal, add_zero] at hnear
  exact beq_iff.mpr ⟨hnear.isNaN, isNaN_of_isFinite hx, hnear.real_eq.trans (clamp_nearest_real hx)⟩

theorem add_mul_zero_beq_iff (hx : x.isFinite = true) :
    (x + d * 0 == x) = true ↔ d.isFinite = true := by
  constructor
  · intro h
    by_contra hd
    have hnan := isNaN_add (x := x) (isNaN_mul_zero (Bool.eq_false_iff.mpr hd))
    rw [(beq_iff.mp h).1] at hnan
    exact Bool.false_ne_true hnan
  · intro hd
    obtain ⟨s, hzero⟩ := digits_mul_zero hd
    exact add_beq_of_zero hx hzero

end HeroPage.Binary64
