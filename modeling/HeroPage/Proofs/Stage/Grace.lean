import HeroPage.Proofs.Binary64.Error
import HeroPage.Proofs.Decimal.Doubles
import HeroPage.Proofs.Stage.Degraded
import HeroPage.Proofs.Transition.Ends
set_option autoImplicit false

/-! The quarter of a second behind the total is more than what rounding can lose, so the timer comes after the
transition exactly if that takes no longer than the longest delay of a timer, some fifty days. -/

namespace HeroPage

open Binary64

namespace Decimal.Binary

theorem ceil_eq (b : Binary) : b.ceil = ⌈b.value⌉₊ := by
  refine eq_of_forall_ge_iff fun n => ?_
  rw [Nat.ceil_le, value]
  rcases lt_or_ge b.exponent 0 with h | h
  · obtain ⟨k, hk⟩ : ∃ k : ℕ, b.exponent = -k := ⟨b.exponent.natAbs, by omega⟩
    have hexponent : (-b.exponent).toNat = k := by omega
    have hpos : 0 < 2 ^ k := Nat.two_pow_pos k
    have hpred : 2 ^ k - 1 + 1 = 2 ^ k := Nat.sub_add_cancel hpos
    rw [ceil, if_pos h, hexponent, hk, zpow_neg, zpow_natCast, ← div_eq_mul_inv,
      div_le_iff₀ (by positivity)]
    change (b.significand + (2 ^ k - 1)) / 2 ^ k ≤ n ↔ _
    rw [Nat.div_le_iff_le_mul_add_pred hpos, Nat.add_le_add_iff_right, mul_comm]
    exact_mod_cast Iff.rfl
  · obtain ⟨k, hk⟩ : ∃ k : ℕ, b.exponent = k := ⟨b.exponent.toNat, by omega⟩
    have hexponent : b.exponent.toNat = k := by omega
    rw [ceil_of_nonneg h, hexponent, hk, zpow_natCast]
    change b.significand * 2 ^ k ≤ n ↔ _
    exact_mod_cast Iff.rfl

end Decimal.Binary

theorem longestDelay_le_limit : (longestDelay : ℚ) ≤ limit :=
  calc (longestDelay : ℚ) ≤ 2 ^ (32 : ℤ) := by norm_num [longestDelay]
    _ ≤ limit := zpow_le_zpow_right₀ one_le_two (by decide)

theorem min_ceil_of_nonpos {q : ℚ} (h : q ≤ 0) : min ⌈q⌉₊ longestDelay = 0 := by
  rw [Nat.ceil_eq_zero.mpr h, Nat.zero_min]

/-- A delay is rounded up and cut off. Nothing is left of one that is negative or no number. -/
theorem wholeMillis_eq (x : Float) : wholeMillis x = min ⌈real x⌉₊ longestDelay := by
  have hlongest : longestDelay ≤ ⌈limit⌉₊ := by
    exact_mod_cast longestDelay_le_limit.trans (Nat.le_ceil limit)
  rw [wholeMillis, Decimal.Double.ofFloat_eq, real]
  cases digits x with
  | notANumber => exact (min_ceil_of_nonpos le_rfl).symm
  | zero s => exact (min_ceil_of_nonpos le_rfl).symm
  | infinity s =>
    cases s with
    | positive => exact (min_eq_right hlongest).symm
    | negative => exact (min_ceil_of_nonpos (neg_nonpos.mpr limit_pos.le)).symm
  | finite s m e h =>
    cases s with
    | positive => exact congrArg (min · longestDelay) (Decimal.Binary.ceil_eq _)
    | negative => exact (min_ceil_of_nonpos (neg_nonpos.mpr (magnitude_pos h e).le)).symm

namespace Binary64

theorem real_thousand : real 1000 = 1000 := by
  have hdigits : digits 1000 = .finite .positive (1000 * 2 ^ 43) (-43) (by decide) := rfl
  rw [real, hdigits, value, withSign]
  norm_num

/-- Up to three years in milliseconds, rounding moves a time by less than a ten thousandth. -/
theorem abs_nearest_sub_le_of_le {q : ℚ} (h : 0 ≤ q) (h' : q ≤ 10 ^ 11) :
    |nearest q - q| ≤ 1 / 10 ^ 4 := by
  have hgrain : grain ≤ unit := by
    have hpow : (2 : ℚ) ^ (-1075 : ℤ) ≤ 2 ^ (-53 : ℤ) := zpow_le_zpow_right₀ one_le_two (by decide)
    have hunit : (2 : ℚ) ^ (-53 : ℤ) = unit := by norm_num [unit]
    exact hpow.trans_eq hunit
  calc |nearest q - q| ≤ unit * |q| + grain := abs_nearest_sub_le q
    _ ≤ unit * 10 ^ 11 + unit := by
      rw [abs_of_nonneg h]
      exact add_le_add (mul_le_mul_of_nonneg_left h' unit_pos.le) hgrain
    _ ≤ 1 / 10 ^ 4 := by norm_num [unit]

theorem IsNearest.abs_real_sub_le {z : Float} {q : ℚ} (h : IsNearest z q) (hq : 0 ≤ q)
    (hq' : q ≤ 10 ^ 11) : z.isFinite = true ∧ |real z - q| ≤ 1 / 10 ^ 4 := by
  have hgreatest : ((10 ^ 11 : ℕ) : ℚ) ≤ greatest := natCast_le_greatest le_rfl (by decide)
  push_cast at hgreatest
  obtain ⟨hfinite, hreal⟩ := h.finite hq (hq'.trans hgreatest)
  exact ⟨hfinite, hreal ▸ abs_nearest_sub_le_of_le hq hq'⟩

end Binary64

variable {t : Transition}

theorem real_settleGrace : real settleGrace = 1 / 4 := by
  have hdigits : digits settleGrace = .finite .positive (2 ^ 52) (-54) (by decide) := rfl
  rw [real, hdigits, value, withSign]
  norm_num

theorem longestDelay_eq : (longestDelay : ℚ) = 4294967295 := by norm_num [longestDelay]

/-- All of the quarter but a millisecond is left as long as the total is some months at most. -/
theorem total_le_deadline (ht : t.Timely) (h : real t.total ≤ 10 ^ 7) :
    1000 * real t.total + 249 ≤ real ((t.total + settleGrace) * 1000) := by
  obtain ⟨-, hnan, hdelay⟩ := le_iff.mp ht.delay_le_total
  have hnonneg := ht.delay_nonneg.trans hdelay
  have hfinite : t.total.isFinite = true := by
    have hlimit := longestDelay_le_limit
    rw [longestDelay_eq] at hlimit
    refine isFinite_of_abs_real_lt hnan ?_
    rw [abs_of_nonneg hnonneg]
    linarith
  have hsum := isNearest_add (y := settleGrace) hfinite rfl
  rw [real_settleGrace] at hsum
  obtain ⟨hfinite', herror⟩ := hsum.abs_real_sub_le (by linarith) (by linarith)
  obtain ⟨hlow, hhigh⟩ := abs_le.mp herror
  have hproduct := isNearest_mul (y := 1000) hfinite' rfl
  rw [real_thousand] at hproduct
  have hlow' := (abs_le.mp (hproduct.abs_real_sub_le (by linarith) (by linarith)).2).1
  linarith

theorem window_le_total (ht : t.Timely)
    (h : 1000 * (real t.delay + real t.duration) ≤ longestDelay) :
    1000 * (real t.delay + real t.duration) ≤ 1000 * real t.total + 1 ∧ real t.total ≤ 10 ^ 7 := by
  have hnonneg := add_nonneg ht.delay_nonneg ht.duration_nonneg
  have hsum : IsNearest t.total (real t.delay + real t.duration) := isNearest_add ht.delay ht.duration
  rw [longestDelay_eq] at h
  obtain ⟨hlow, hhigh⟩ := abs_le.mp (hsum.abs_real_sub_le hnonneg (by linarith)).2
  constructor <;> linarith

theorem le_settleMillis_iff {q : ℚ}
    (h : q ≤ longestDelay → q ≤ real ((t.total + settleGrace) * 1000)) :
    q ≤ settleMillis t ↔ q ≤ longestDelay := by
  rw [settleMillis, wholeMillis_eq, Nat.cast_min, le_min_iff]
  exact and_iff_right_of_imp fun hq => (h hq).trans (Nat.le_ceil _)

namespace Stage

theorem timerSet_of_mount {b : Browser} {s : Stage} {i timer millis : ℕ}
    (h : ⟨i, .timerSet timer millis⟩ ∈ (s.mount b t).2) :
    t.validate = .ok () ∧ millis = settleMillis t := by
  rw [mount_trace, List.mem_map] at h
  obtain ⟨event, hmem, heq⟩ := h
  obtain rfl : event = .timerSet timer millis := congrArg Entry.event heq
  unfold Entrance.arrival at hmem
  split at hmem
  · simp at hmem
  · next hadmits =>
    refine ⟨((admits_eq_ok_iff b t).mp hadmits).1, ?_⟩
    split at hmem
    · simp at hmem
    · split at hmem
      · simp at hmem
      · next id _ =>
        have hset : timer = id ∧ millis = settleMillis t := by simpa using hmem
        exact hset.2

/-- The timer that an entrance sets when it starts, whatever else is on the page. -/
theorem timer_after_transition (b : Browser) (s : Stage) (t : Transition) (i timer millis : ℕ)
    (h : ⟨i, .timerSet timer millis⟩ ∈ (s.mount b t).2) :
    (1000 * real t.total ≤ millis ↔ 1000 * real t.total ≤ longestDelay) ∧
    (1000 * (real t.delay + real t.duration) ≤ millis ↔
      1000 * (real t.delay + real t.duration) ≤ longestDelay) := by
  obtain ⟨hvalid, rfl⟩ := timerSet_of_mount h
  have ht := Transition.timely hvalid
  constructor
  · refine le_settleMillis_iff fun hle => ?_
    rw [longestDelay_eq] at hle
    have hdeadline := total_le_deadline ht (by linarith)
    linarith
  · refine le_settleMillis_iff fun hle => ?_
    obtain ⟨hwindow, htotal⟩ := window_le_total ht hle
    have hdeadline := total_le_deadline ht htotal
    linarith

theorem mount_starting {t : Transition} (h : t.validate = .ok ()) :
    ⟨0, .timerSet 1 (settleMillis t)⟩ ∈ ((empty 0).mount {} t).2 := by
  rw [mount_of_granted (admits_of_ready h rfl rfl) rfl List.not_mem_nil]
  exact List.mem_cons_of_mem _ (List.mem_cons_of_mem _ List.mem_cons_self)

theorem timer_after_textBlock :
    ⟨0, .timerSet 1 750⟩ ∈ ((empty 0).mount {} .textBlock).2 ∧
    (1000 * real Transition.textBlock.total ≤ (750 : ℕ) ↔
      1000 * real Transition.textBlock.total ≤ longestDelay) ∧
    (1000 * (real Transition.textBlock.delay + real Transition.textBlock.duration) ≤ (750 : ℕ) ↔
      1000 * (real Transition.textBlock.delay + real Transition.textBlock.duration) ≤ longestDelay) := by
  have hvalid : Transition.textBlock.validate = .ok () :=
    Transition.textBlock.validate_eq_ok_iff.mpr (by decide +kernel)
  have hmillis : settleMillis .textBlock = 750 := by decide +kernel
  have hset := mount_starting hvalid
  rw [hmillis] at hset
  exact ⟨hset, timer_after_transition {} (empty 0) .textBlock 0 1 750 hset⟩

def ages : Transition := (Transition.between ⟨0, 20, 0⟩ .settled).lasting 1e10

theorem real_ages_total : real ages.total = 10 ^ 10 := by
  have hdigits : digits ages.total = .finite .positive (10 ^ 10 * 2 ^ 19) (-19) (by decide) := rfl
  rw [real, hdigits, value, withSign]
  norm_num

/-- The timer of an entrance can come before its transition is over: fifty days after a start, if the
transition takes centuries. -/
theorem timer_before_end_of_ages :
    ages.validate = .ok () ∧ ⟨0, .timerSet 1 4294967295⟩ ∈ ((empty 0).mount {} ages).2 ∧
      ¬1000 * real ages.total ≤ (4294967295 : ℕ) := by
  have hvalid : ages.validate = .ok () := ages.validate_eq_ok_iff.mpr (by decide +kernel)
  have hmillis : settleMillis ages = 4294967295 := by decide +kernel
  have hset := mount_starting hvalid
  rw [hmillis] at hset
  refine ⟨hvalid, hset, ?_⟩
  rw [real_ages_total]
  norm_num

end Stage

end HeroPage
