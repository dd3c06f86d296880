import HeroPage.Proofs.Binary64.Nearest
import Mathlib.Tactic.NormNum
set_option autoImplicit false

/-! Arithmetic finds the digits of an exact result down to some power of two, with two more bits that mark
where it lies above them (`Marks`). Shifting them to the quantum keeps the marks right, so what rounding
gives there is the nearest multiple of the quantum (`value_roundWithAccuracy`). -/

namespace HeroPage.Binary64

open Float.Model Float.Model.UnpackedFloat

/-- `x` lies above the mantissa as the round bit and the sticky bit say. -/
inductive Marks : ExtendedMantissa → ℚ → Prop where
  | exact (m : ℕ) : Marks ⟨m, false, false⟩ m
  | below {m : ℕ} {x : ℚ} (h : m < x) (h' : x < m + 1 / 2) : Marks ⟨m, false, true⟩ x
  | half (m : ℕ) : Marks ⟨m, true, false⟩ (m + 1 / 2)
  | above {m : ℕ} {x : ℚ} (h : m + 1 / 2 < x) (h' : x < m + 1) : Marks ⟨m, true, true⟩ x

theorem shiftRightOne_even (k : ℕ) (r s : Bool) :
    ExtendedMantissa.shiftRightOne ⟨2 * k, r, s⟩ = ⟨k, false, r || s⟩ := by
  simp [ExtendedMantissa.shiftRightOne]

theorem shiftRightOne_odd (k : ℕ) (r s : Bool) :
    ExtendedMantissa.shiftRightOne ⟨2 * k + 1, r, s⟩ = ⟨k, true, r || s⟩ := by
  have h : (2 * k + 1) / 2 = k := by omega
  simp [ExtendedMantissa.shiftRightOne, h]

namespace Marks

variable {em : ExtendedMantissa} {x : ℚ}

theorem le (h : Marks em x) : em.mantissa ≤ x := by
  cases h <;> dsimp only <;> linarith

theorem lt (h : Marks em x) : x < em.mantissa + 1 := by
  cases h <;> dsimp only <;> linarith

theorem floor (h : Marks em x) : ⌊x⌋ = em.mantissa :=
  Int.floor_eq_iff.mpr ⟨by exact_mod_cast h.le, by exact_mod_cast h.lt⟩

theorem roundedMantissa (h : Marks em x) : (em.roundedMantissa : ℤ) = roundEven x := by
  have hfloor := h.floor
  rw [roundEven, hfloor, Int.cast_natCast]
  cases h with
  | exact m => rw [sub_self, if_pos (by norm_num)]; rfl
  | below h h' => rw [if_pos (by linarith)]; rfl
  | half m =>
    rw [add_sub_cancel_left, if_neg (lt_irrefl _), if_neg (lt_irrefl _)]
    exact Int.natCast_add m (m % 2)
  | above h h' => rw [if_neg (by linarith), if_pos (by linarith)]; rfl

/-- What was marked as half is now strictly inside of a half. -/
theorem shiftRightOne (h : Marks em x) : Marks em.shiftRightOne (x / 2) := by
  obtain ⟨m, r, s⟩ := em
  obtain ⟨k, rfl | rfl⟩ : ∃ k, m = 2 * k ∨ m = 2 * k + 1 := ⟨m / 2, by omega⟩
  · rw [shiftRightOne_even]
    have hk : ((2 * k : ℕ) : ℚ) = 2 * k := by push_cast; rfl
    cases h with
    | exact =>
      rw [hk, mul_div_cancel_left₀ _ two_ne_zero]
      exact .exact k
    | below h h' => exact .below (by linarith) (by linarith)
    | half => exact .below (by linarith) (by linarith)
    | above h h' => exact .below (by linarith) (by linarith)
  · rw [shiftRightOne_odd]
    have hk : ((2 * k + 1 : ℕ) : ℚ) = 2 * k + 1 := by push_cast; rfl
    cases h with
    | exact =>
      rw [hk, add_div, mul_div_cancel_left₀ _ two_ne_zero]
      exact .half k
    | below h h' => exact .above (by linarith) (by linarith)
    | half => exact .above (by linarith) (by linarith)
    | above h h' => exact .above (by linarith) (by linarith)

theorem shiftRight (h : Marks em x) (n : ℕ) : Marks (em >>> n) (x / 2 ^ n) := by
  change Marks (n.repeat ExtendedMantissa.shiftRightOne em) _
  induction n with
  | zero => simpa [Nat.repeat] using h
  | succ n ih =>
    rw [pow_succ, ← div_div]
    exact ih.shiftRightOne

end Marks

theorem marks_exact (m : ℕ) : Marks (.ofMantissaAndAccuracy m .exact) m := .exact m

theorem marks_quotient (a : ℕ) {b : ℕ} (hb : 0 < b) :
    Marks (.ofMantissaAndAccuracy (a / b) (accuracyOfFraction (a % b) b)) (a / b) := by
  have hmod : a % b < b := Nat.mod_lt a hb
  have hbq : (0 : ℚ) < b := Nat.cast_pos.mpr hb
  have heq : (a : ℚ) / b = (a / b : ℕ) + (a % b : ℕ) / b := by
    rw [eq_comm, ← eq_sub_iff_add_eq', div_eq_iff hbq.ne', sub_mul, div_mul_cancel₀ _ hbq.ne',
      eq_sub_iff_add_eq']
    exact_mod_cast Nat.div_add_mod' a b
  rw [heq]
  generalize a / b = m
  generalize a % b = r at hmod ⊢
  unfold accuracyOfFraction
  split
  · next h => rw [h, Nat.cast_zero, zero_div, add_zero]; exact .exact m
  · next h =>
    have hr : (0 : ℚ) < r / b := div_pos (Nat.cast_pos.mpr (Nat.pos_of_ne_zero h)) hbq
    have hr' : (r : ℚ) / b < 1 := (div_lt_one hbq).mpr (Nat.cast_lt.mpr hmod)
    rcases lt_trichotomy (2 * r) b with hlt | heq | hgt
    · rw [Nat.compare_eq_lt.mpr hlt]
      have : (r : ℚ) / b < 1 / 2 := by
        rw [div_lt_div_iff₀ hbq two_pos]
        exact_mod_cast (by omega : r * 2 < 1 * b)
      exact .below (by linarith) (by linarith)
    · rw [Nat.compare_eq_eq.mpr heq]
      have : (r : ℚ) / b = 1 / 2 := by
        rw [div_eq_div_iff hbq.ne' two_ne_zero]
        exact_mod_cast (by omega : r * 2 = 1 * b)
      rw [this]
      exact .half m
    · rw [Nat.compare_eq_gt.mpr hgt]
      have : 1 / 2 < (r : ℚ) / b := by
        rw [div_lt_div_iff₀ two_pos hbq]
        exact_mod_cast (by omega : 1 * b < r * 2)
      exact .above (by linarith) (by linarith)

end HeroPage.Binary64
