import HeroPage.Proofs.Binary64.Nearest
import Mathlib.Tactic.NormNum
import Mathlib.Tactic.FieldSimp
set_option autoImplicit false

namespace HeroPage.Binary64

theorem abs_roundEven_sub_le (x : ℚ) : |roundEven x - x| ≤ 1 / 2 := by
  have hfloor := Int.floor_le x
  have hnext := Int.lt_floor_add_one x
  rw [abs_le]
  unfold roundEven
  split_ifs with hlow hhigh
  · constructor <;> linarith
  · push_cast
    constructor <;> linarith
  · have hhalf : x - ⌊x⌋ = 1 / 2 := le_antisymm (not_lt.mp hhigh) (not_lt.mp hlow)
    have hparity := Int.emod_two_eq_zero_or_one ⌊x⌋
    rcases hparity with h | h <;> rw [h] <;> push_cast <;> constructor <;> linarith

theorem abs_nearest_sub_le_quantum (x : ℚ) : |nearest x - x| ≤ 2 ^ exponent x / 2 := by
  have hq := two_zpow_pos (exponent x)
  have hsub : nearest x - x = (roundEven (x / 2 ^ exponent x) - x / 2 ^ exponent x) * 2 ^ exponent x := by
    rw [nearest, sub_mul, div_mul_cancel₀ _ hq.ne']
  calc |nearest x - x|
      = |roundEven (x / 2 ^ exponent x) - x / 2 ^ exponent x| * 2 ^ exponent x := by
        rw [hsub, abs_mul, abs_of_pos hq]
    _ ≤ 1 / 2 * 2 ^ exponent x := mul_le_mul_of_nonneg_right (abs_roundEven_sub_le _) hq.le
    _ = 2 ^ exponent x / 2 := one_div_mul_eq_div _ _

/-- Half a unit in the last of 53 places. -/
def unit : ℚ := 1 / 2 ^ 53

/-- Half the least double. -/
def grain : ℚ := 2 ^ (-1075 : ℤ)

theorem unit_pos : 0 < unit := by norm_num [unit]

theorem grain_pos : 0 < grain := two_zpow_pos (-1075)

theorem two_zpow_exponent_le {x : ℚ} (hx : x ≠ 0) (h : exponent x ≠ -1074) :
    2 ^ exponent x / 2 ≤ unit * |x| := by
  have hlog : exponent x = Int.log 2 |x| - 52 := by
    unfold exponent at h ⊢
    omega
  have hle : (2 : ℚ) ^ Int.log 2 |x| ≤ |x| := by
    exact_mod_cast Int.zpow_log_le_self (b := 2) (by decide) (abs_pos.mpr hx)
  have hhalf : (2 : ℚ) ^ (Int.log 2 |x| - 52) / 2 = unit * 2 ^ Int.log 2 |x| := by
    rw [zpow_sub₀ two_ne_zero, unit]
    norm_num
    ring
  rw [hlog, hhalf]
  exact mul_le_mul_of_nonneg_left hle unit_pos.le

theorem two_zpow_least : (2 : ℚ) ^ (-1074 : ℤ) / 2 = grain :=
  (zpow_sub_one₀ two_ne_zero (-1074)).symm

theorem abs_nearest_sub_le (x : ℚ) : |nearest x - x| ≤ unit * |x| + grain := by
  have hunit : 0 ≤ unit * |x| := mul_nonneg unit_pos.le (abs_nonneg x)
  have hgrain := grain_pos
  by_cases hx : x = 0
  · rw [hx, nearest_zero, sub_zero, abs_zero]
    linarith
  · have hquantum := abs_nearest_sub_le_quantum x
    by_cases h : exponent x = -1074
    · rw [h, two_zpow_least] at hquantum
      linarith
    · have := two_zpow_exponent_le hx h
      linarith

theorem abs_nearest_sub_le_of_one_le {x : ℚ} (h : 1 ≤ x) : |nearest x - x| ≤ unit * x := by
  have hpos : 0 < x := zero_lt_one.trans_le h
  have hlog : 0 ≤ Int.log 2 |x| := by
    rw [abs_of_pos hpos]
    exact (Int.zpow_le_iff_le_log (b := 2) (by decide) hpos).mp (by exact_mod_cast h)
  have hexponent : exponent x ≠ -1074 := by
    unfold exponent
    omega
  have hquantum := two_zpow_exponent_le hpos.ne' hexponent
  rw [abs_of_pos hpos] at hquantum
  exact (abs_nearest_sub_le_quantum x).trans hquantum

/-- `a` differs from `q` by the part `r` of it at most. -/
def Close (r a q : ℚ) : Prop := |a - q| ≤ r * q

namespace Close

variable {r r' a a' q q' : ℚ}

theorem le (h : Close r a q) : a ≤ (1 + r) * q := by
  have := (abs_le.mp h).2
  linarith

theorem ge (h : Close r a q) : (1 - r) * q ≤ a := by
  have := (abs_le.mp h).1
  linarith

theorem mul (h : Close r a q) (h' : Close r' a' q') (hq : 0 ≤ q) (hq' : 0 ≤ q') :
    Close (r + r' + r * r') (a * a') (q * q') := by
  have hsplit : a * a' - q * q' = (a - q) * (a' - q') + (q * (a' - q') + (a - q) * q') := by ring
  have hboth : |a - q| * |a' - q'| ≤ r * q * (r' * q') :=
    mul_le_mul h h' (abs_nonneg _) ((abs_nonneg _).trans h)
  have hleft := mul_le_mul_of_nonneg_left h' hq
  have hright := mul_le_mul_of_nonneg_right h hq'
  calc |a * a' - q * q'|
      ≤ |a - q| * |a' - q'| + (q * |a' - q'| + |a - q| * q') := by
        rw [hsplit]
        refine (abs_add_le _ _).trans (add_le_add (abs_mul _ _).le ((abs_add_le _ _).trans ?_))
        rw [abs_mul, abs_mul, abs_of_nonneg hq, abs_of_nonneg hq']
    _ ≤ r * q * (r' * q') + (q * (r' * q') + r * q * q') := by linarith
    _ = (r + r' + r * r') * (q * q') := by ring

theorem div (h : Close r a q) (h' : Close r' a' q') (hq : 0 ≤ q) (hq' : 0 < q') (hr : 0 ≤ r + r')
    (hr' : r' < 1) : Close ((r + r') / (1 - r')) (a / a') (q / q') := by
  have hone : 0 < 1 - r' := sub_pos.mpr hr'
  have hlow := h'.ge
  have ha' : 0 < a' := (mul_pos hone hq').trans_le hlow
  have hsplit : a / a' - q / q' = ((a - q) * q' - q * (a' - q')) / (a' * q') := by
    field_simp
    ring
  have hright := mul_le_mul_of_nonneg_right h hq'.le
  have hleft := mul_le_mul_of_nonneg_left h' hq
  have hnumerator : |(a - q) * q' - q * (a' - q')| ≤ (r + r') * (q * q') := by
    refine (abs_sub _ _).trans ?_
    rw [abs_mul, abs_mul, abs_of_pos hq', abs_of_nonneg hq]
    linarith
  rw [Close, hsplit, abs_div, abs_of_pos (mul_pos ha' hq')]
  calc |(a - q) * q' - q * (a' - q')| / (a' * q')
      ≤ (r + r') * (q * q') / ((1 - r') * q' * q') :=
        div_le_div₀ (mul_nonneg hr (mul_nonneg hq hq'.le)) hnumerator
          (mul_pos (mul_pos hone hq') hq') (mul_le_mul_of_nonneg_right hlow hq'.le)
    _ = (r + r') / (1 - r') * (q / q') := by
        field_simp

theorem nearest_sub (h : Close r a q) (ha : 0 ≤ a) :
    |nearest a - q| ≤ (r + unit * (1 + r)) * q + grain := by
  have hround := abs_nearest_sub_le a
  have hle := mul_le_mul_of_nonneg_left h.le unit_pos.le
  rw [abs_of_nonneg ha] at hround
  calc |nearest a - q| ≤ |nearest a - a| + |a - q| := abs_sub_le _ _ _
    _ ≤ (unit * ((1 + r) * q) + grain) + r * q := add_le_add (hround.trans (by linarith)) h
    _ = (r + unit * (1 + r)) * q + grain := by ring

end Close

end HeroPage.Binary64
