import HeroPage.Easing
import HeroPage.Proofs.Binary64.Share
import HeroPage.Proofs.Decimal.Doubles
set_option autoImplicit false

namespace HeroPage

open Binary64

variable {p q : Float}

theorem real_clampUnit (h : p.isNaN = false) : real (clampUnit p) = max 0 (min (real p) 1) := by
  unfold clampUnit
  split
  · next hlow =>
    have hneg := (lt_iff.mp hlow).2.2
    rw [real_zero] at hneg ⊢
    rw [min_eq_left (by linarith), max_eq_left hneg.le]
  · next hlow =>
    have hnonneg := (le_iff.mp ((not_lt_iff h isNaN_zero).mp hlow)).2.2
    rw [real_zero] at hnonneg
    split
    · next hhigh =>
      have hlarge := (lt_iff.mp hhigh).2.2
      rw [real_one] at hlarge ⊢
      rw [min_eq_right hlarge.le, max_eq_right zero_le_one]
    · next hhigh =>
      have hle := (le_iff.mp ((not_lt_iff isNaN_one h).mp hhigh)).2.2
      rw [real_one] at hle
      rw [min_eq_left hle, max_eq_right hnonneg]

theorem isShare_clampUnit (h : p.isNaN = false) : IsShare (clampUnit p) := by
  unfold clampUnit
  split
  · exact isShare_zero
  · next hlow =>
    split
    · exact isShare_one
    · next hhigh => exact ⟨(not_lt_iff h isNaN_zero).mp hlow, (not_lt_iff isNaN_one h).mp hhigh⟩

theorem clampUnit_of_one_lt (h : 1 < p) : clampUnit p = 1 := by
  have hlarge := (lt_iff.mp h).2.2
  rw [real_one] at hlarge
  have hnonneg : ¬p < 0 := by
    rw [lt_iff, real_zero]
    exact fun hneg => absurd hneg.2.2 (by linarith)
  rw [clampUnit, if_neg hnonneg, if_pos h]

theorem clampUnit_mono (h : p ≤ q) : clampUnit p ≤ clampUnit q := by
  obtain ⟨hp, hq, hle⟩ := le_iff.mp h
  refine le_iff.mpr ⟨?_, ?_, ?_⟩
  · exact isNaN_of_isFinite (isShare_clampUnit hp).isFinite
  · exact isNaN_of_isFinite (isShare_clampUnit hq).isFinite
  · rw [real_clampUnit hp, real_clampUnit hq]
    exact max_le_max_left 0 (min_le_min_right 1 hle)

theorem eq_one_of_real (hfinite : p.isFinite = true) (h : real p = 1) : p = 1 := by
  have hone : Decimal.Double.ofFloat 1 = .finite false ⟨2 ^ 52, -52, true⟩ := by decide +kernel
  have hvalue := Decimal.real_of_ofFloat hone
  rw [real_one] at hvalue
  exact Decimal.eq_of_real_eq hone hfinite (h.trans hvalue)

namespace Easing

variable (e : Easing)

theorem isShare_apply (h : p.isNaN = false) : IsShare (e.apply p) := by
  have hshare := isShare_clampUnit h
  cases e with
  | linear => exact hshare
  | easeOut =>
    have hrest := hshare.complement
    exact ((hrest.mul hrest).mul hrest).complement

theorem apply_mono (h : p ≤ q) : e.apply p ≤ e.apply q := by
  have hmono := clampUnit_mono h
  cases e with
  | linear => exact hmono
  | easeOut =>
    have hp := isShare_clampUnit (le_iff.mp h).1
    have hq := isShare_clampUnit (le_iff.mp h).2.1
    have hp' := hp.complement
    have hq' := hq.complement
    have hrest := hp.complement_le hq hmono
    have hsquare := hq'.mul_mono hq' hp' hp' hrest hrest
    have hcube := (hq'.mul hq').mul_mono hq' (hp'.mul hp') hp' hsquare hrest
    exact ((hq'.mul hq').mul hq').complement_le ((hp'.mul hp').mul hp') hcube

theorem apply_zero : e.apply 0 = 0 := by
  cases e <;> decide +kernel

theorem apply_one : e.apply 1 = 1 := by
  cases e <;> decide +kernel

/-- As a number only: the linear curve keeps a negative zero. -/
theorem apply_of_nonpos (h : p ≤ 0) : (e.apply p == 0) = true := by
  have hshare := e.isShare_apply (le_iff.mp h).1
  have hle := e.apply_mono h
  rw [apply_zero] at hle
  obtain ⟨hnan, hzero, hreal⟩ := le_iff.mp hle
  rw [real_zero] at hreal
  exact beq_iff.mpr ⟨hnan, hzero, hreal.antisymm hshare.real_nonneg⟩

theorem apply_of_one_le (h : 1 ≤ p) : e.apply p = 1 := by
  have hshare := e.isShare_apply (le_iff.mp h).2.1
  have hle := e.apply_mono h
  rw [apply_one] at hle
  have hreal := (le_iff.mp hle).2.2
  rw [real_one] at hreal
  exact eq_one_of_real hshare.isFinite (hshare.real_le_one.antisymm hreal)

/-- Either curve on every double that is a number. -/
theorem apply_proper :
    (∀ p : Float, p.isNaN = false → 0 ≤ e.apply p ∧ e.apply p ≤ 1) ∧
    (∀ p : Float, p ≤ 0 → (e.apply p == 0) = true) ∧
    (∀ p : Float, 1 ≤ p → e.apply p = 1) ∧
    ∀ p q : Float, p ≤ q → e.apply p ≤ e.apply q := by
  refine ⟨?_, ?_, ?_, ?_⟩
  · intro p h
    have hshare := e.isShare_apply h
    exact ⟨hshare.nonneg, hshare.le_one⟩
  · exact fun p h => e.apply_of_nonpos h
  · exact fun p h => e.apply_of_one_le h
  · exact fun p q h => e.apply_mono h

theorem apply_proper_easeOut :
    let tiny : Float := 1e-17
    let infinity : Float := 1 / 0
    (tiny.isNaN = false ∧ 0 ≤ easeOut.apply tiny ∧ easeOut.apply tiny ≤ 1) ∧
    (-0.0 ≤ (0 : Float) ∧ (easeOut.apply (-0.0) == 0) = true) ∧
    (1 ≤ infinity ∧ easeOut.apply infinity = 1) ∧
    -infinity ≤ tiny ∧ easeOut.apply (-infinity) ≤ easeOut.apply tiny := by
  intro tiny infinity
  obtain ⟨hrange, hlow, hhigh, hmono⟩ := apply_proper easeOut
  have hnumber : tiny.isNaN = false := by decide +kernel
  have hzero : -0.0 ≤ (0 : Float) := by decide +kernel
  have hone : 1 ≤ infinity := by decide +kernel
  have hle : -infinity ≤ tiny := by decide +kernel
  exact ⟨⟨hnumber, hrange tiny hnumber⟩, ⟨hzero, hlow (-0.0) hzero⟩, ⟨hone, hhigh infinity hone⟩,
    hle, hmono (-infinity) tiny hle⟩

end Easing

end HeroPage
