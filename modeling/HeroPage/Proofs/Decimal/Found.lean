import HeroPage.Proofs.Decimal.Interval
set_option autoImplicit false

/-! The last grid of the search is so fine that the point above a double lies in its interval, so a point is
always found (`Standard.found`). The first is so coarse that the digits found are at most `10 ^ 19`. -/

namespace HeroPage.Decimal

open Binary64

namespace Binary

variable {b : Binary} {k : ℤ} {d : Digits} {tie : Tie}

/-- The interval of `b` lies below two to this power. -/
def height (b : Binary) : ℤ := (b.significand.log2 + 1 : Nat) + b.exponent

def firstGrid (height : ℤ) : ℤ := height * 30103 / 100000 + 1

theorem top_eq (b : Binary) : b.top = firstGrid b.height := rfl

/-- A first grid is coarse enough, and the one nineteen grids further is fine enough. -/
def covered (height : ℤ) : Bool :=
  let k := firstGrid height
  decide (Nat.pow 2 height.toNat * Nat.pow 10 (-k).toNat ≤ Nat.pow 10 k.toNat * Nat.pow 2 (-height).toNat) &&
    decide (Nat.pow 10 (k - 19).toNat * Nat.pow 2 (-(height - 54)).toNat <
      Nat.pow 2 (height - 54).toNat * Nat.pow 10 (-(k - 19)).toNat)

theorem covered_all : (List.range 2098).all (fun i => covered (i - 1073)) = true := by
  decide +kernel

theorem pow_le_pow_iff {a c : ℕ} (ha : 0 < a) (hc : 0 < c) (i j : ℤ) :
    Nat.pow a i.toNat * Nat.pow c (-j).toNat ≤ Nat.pow c j.toNat * Nat.pow a (-i).toNat ↔
      (a : ℚ) ^ i ≤ c ^ j := by
  have ha' : (0 : ℚ) < a := Nat.cast_pos.mpr ha
  have hc' : (0 : ℚ) < c := Nat.cast_pos.mpr hc
  have hpos : (0 : ℚ) < a ^ (-i).toNat * c ^ (-j).toNat := mul_pos (pow_pos ha' _) (pow_pos hc' _)
  have hleft : (a : ℚ) ^ i * a ^ (-i).toNat * c ^ (-j).toNat =
      a ^ i * (a ^ (-i).toNat * c ^ (-j).toNat) := mul_assoc _ _ _
  have hright : (c : ℚ) ^ j * c ^ (-j).toNat * a ^ (-i).toNat =
      c ^ j * (a ^ (-i).toNat * c ^ (-j).toNat) := by ring
  rw [← Nat.cast_le (α := ℚ), Nat.cast_mul, Nat.cast_mul, cast_pow, cast_pow, cast_pow, cast_pow,
    pow_toNat ha'.ne' i, pow_toNat hc'.ne' j, hleft, hright, mul_le_mul_iff_left₀ hpos]

/-- Both bounds hold of the heights of all doubles: there are two thousand of them. -/
theorem grid_bounds {height : ℤ} (hlow : -1073 ≤ height) (hhigh : height ≤ 1024) :
    (2 : ℚ) ^ height ≤ 10 ^ firstGrid height ∧
      (10 : ℚ) ^ (firstGrid height - 19) < 2 ^ (height - 54) := by
  have hmem : (height + 1073).toNat ∈ List.range 2098 := List.mem_range.mpr (by omega)
  have hcovered := List.all_eq_true.mp covered_all _ hmem
  rw [show (((height + 1073).toNat : ℕ) : ℤ) - 1073 = height by omega, covered, Bool.and_eq_true,
    decide_eq_true_iff, decide_eq_true_iff] at hcovered
  refine ⟨?_, ?_⟩
  · exact_mod_cast (pow_le_pow_iff two_pos (by decide) _ _).mp hcovered.1
  · rw [← not_le]
    intro hle
    refine absurd hcovered.2 (not_lt.mpr ?_)
    exact (pow_le_pow_iff two_pos (by decide) _ _).mpr (by exact_mod_cast hle)

theorem Standard.log2_lt (h : b.Standard) : b.significand.log2 < 53 := (Nat.log2_lt h.pos.ne').mpr h.fits.lt

theorem Standard.height_bounds (h : b.Standard) : -1073 ≤ b.height ∧ b.height ≤ 1024 ∧ b.height ≤ b.exponent + 53 := by
  have hlog := h.log2_lt
  have hleast := h.fits.least
  have hbounded := h.bounded
  unfold height
  omega

theorem value_lt (b : Binary) : b.value < 2 ^ b.height := by
  have hlt : (b.significand : ℚ) < 2 ^ (b.significand.log2 + 1) := by
    exact_mod_cast Nat.lt_log2_self (n := b.significand)
  rw [value, height, zpow_add₀ two_ne_zero, zpow_natCast]
  exact mul_lt_mul_of_pos_right hlt (two_zpow_pos _)

/-- A grid finer than half the quantum has a point in the interval, the one above the double. -/
theorem onGrid_isSome (hfine : (10 : ℚ) ^ k < 2 ^ (b.exponent - 1)) : (b.onGrid tie k).isSome = true := by
  have hquarter := b.quarter_pos k
  have hstep : b.gridStep k < 2 * b.quarter k := by
    have hpow := two_zpow_pos (b.exponent - 2)
    have hquarter' : (0 : ℚ) < b.quarter k := Nat.cast_pos.mpr hquarter
    have htwo : (2 : ℚ) ^ (b.exponent - 1) = 2 * 2 ^ (b.exponent - 2) := by
      rw [← zpow_one_add₀ two_ne_zero]
      congr 1
      ring
    rw [htwo] at hfine
    have hscaled : (b.gridStep k : ℚ) * 2 ^ (b.exponent - 2) < 2 * b.quarter k * 2 ^ (b.exponent - 2) := by
      rw [gridStep_mul]
      exact (mul_lt_mul_of_pos_right hfine hquarter').trans_eq (by ring)
    exact_mod_cast lt_of_mul_lt_mul_right hscaled hpow.le
  have hpoint : 4 * b.significand * b.quarter k < (b.below k + 1) * b.gridStep k := by
    rw [below, Nat.mul_comm _ (b.gridStep k)]
    exact Nat.lt_mul_div_succ _ (b.gridStep_pos k)
  have hbelow : b.below k * b.gridStep k ≤ 4 * b.significand * b.quarter k := Nat.div_mul_le_self _ _
  have hlow : b.low * b.quarter k < (b.below k + 1) * b.gridStep k :=
    (Nat.mul_le_mul_right _ b.low_le_centre).trans_lt hpoint
  have hhigh : (b.below k + 1) * b.gridStep k < b.high * b.quarter k := by
    rw [high, Nat.add_mul, Nat.add_mul, Nat.one_mul]
    exact Nat.add_lt_add_of_le_of_lt hbelow hstep
  have hholds : b.holds k (b.below k + 1) = true := by
    unfold holds
    dsimp only
    split
    · exact decide_eq_true ⟨hlow.le, hhigh.le⟩
    · exact decide_eq_true ⟨hlow, hhigh⟩
  rw [onGrid, hholds]
  cases b.holds k (b.below k) <;> rfl

theorem digits_le_of_onGrid (h : b.onGrid tie k = some d) : d.digits ≤ b.below k + 1 := by
  unfold onGrid at h
  dsimp only at h
  split at h
  · cases h
    rcases nearest_eq tie b k with e | e <;> dsimp only <;> omega
  · cases h
    exact Nat.le_succ _
  · cases h
    exact le_rfl
  · cases h

theorem below_mul_le (b : Binary) (k : ℤ) : (b.below k : ℚ) * 10 ^ k ≤ b.value := by
  have hquarter : (0 : ℚ) < b.quarter k := Nat.cast_pos.mpr (b.quarter_pos k)
  have hbelow : b.below k * b.gridStep k ≤ 4 * b.significand * b.quarter k := Nat.div_mul_le_self _ _
  have hcast : (b.quarters k (b.below k)) * b.quarter k ≤ 4 * b.significand * b.quarter k := by
    rw [← natCast_point]
    exact_mod_cast hbelow
  have hle := le_of_mul_le_mul_right hcast hquarter
  rw [quarters, div_le_iff₀ (two_zpow_pos _)] at hle
  refine hle.trans_eq ?_
  rw [value, zpow_sub₀ two_ne_zero]
  norm_num
  ring

/-- What the search gives. -/
structure Found (b : Binary) (d : Digits) : Prop where
  holds : b.holds d.exponent d.digits = true
  pos : 0 < d.digits
  digits_le : d.digits ≤ 10 ^ 19
  exponent_ge : -342 ≤ d.exponent
  exponent_le : d.exponent ≤ 308

theorem Standard.pos_of_holds (h : b.Standard) {n : ℕ} (hholds : b.holds k n = true) : 0 < n := by
  obtain ⟨⟨hlow, -⟩, -⟩ := holds_iff.mp hholds
  have hpos : (1 : ℚ) ≤ b.significand := by exact_mod_cast h.pos
  rw [h.low_cast] at hlow
  by_contra hzero
  rw [Nat.eq_zero_of_not_pos hzero, quarters, Nat.cast_zero, zero_mul, zero_div] at hlow
  split at hlow <;> linarith

theorem holds_le_half {n : ℕ} (hholds : b.holds k n = true) :
    (n : ℚ) * 10 ^ k ≤ (b.significand + 1 / 2) * 2 ^ b.exponent := by
  obtain ⟨⟨-, hhigh⟩, -⟩ := holds_iff.mp hholds
  rw [high, quarters, div_le_iff₀ (two_zpow_pos _)] at hhigh
  push_cast at hhigh
  calc (n : ℚ) * 10 ^ k ≤ (4 * b.significand + 2) * 2 ^ (b.exponent - 2) := hhigh
    _ = (b.significand + 1 / 2) * 2 ^ b.exponent := by
      rw [zpow_sub₀ two_ne_zero]
      norm_num
      ring

theorem holds_le {n : ℕ} (hholds : b.holds k n = true) :
    (n : ℚ) * 10 ^ k ≤ 2 ^ b.height := by
  have hlt : (b.significand : ℚ) + 1 ≤ 2 ^ (b.significand.log2 + 1) := by
    exact_mod_cast Nat.lt_log2_self (n := b.significand)
  calc (n : ℚ) * 10 ^ k ≤ (b.significand + 1 / 2) * 2 ^ b.exponent := holds_le_half hholds
    _ ≤ 2 ^ (b.significand.log2 + 1) * 2 ^ b.exponent :=
      mul_le_mul_of_nonneg_right (by linarith) (two_zpow_pos _).le
    _ = 2 ^ b.height := by rw [height, zpow_add₀ two_ne_zero, zpow_natCast]

theorem Standard.exponent_le_of_holds (h : b.Standard) {n : ℕ} (hholds : b.holds k n = true) :
    k ≤ 308 := by
  have hpos : (1 : ℚ) ≤ n := by exact_mod_cast h.pos_of_holds hholds
  have hlt : (10 : ℚ) ^ k < 10 ^ (309 : ℤ) := calc
    (10 : ℚ) ^ k ≤ n * 10 ^ k := le_mul_of_one_le_left (zpow_pos (by decide) k).le hpos
    _ ≤ 2 ^ b.height := holds_le hholds
    _ ≤ 2 ^ (1024 : ℤ) := zpow_le_zpow_right₀ one_le_two h.height_bounds.2.1
    _ < 10 ^ (309 : ℤ) := by exact_mod_cast (by decide +kernel : 2 ^ 1024 < 10 ^ 309)
  have := (zpow_lt_zpow_iff_right₀ (by decide)).mp hlt
  omega

theorem Standard.found (h : b.Standard) (tie : Tie) : b.Found (b.shortest tie) := by
  obtain ⟨hmin, hmax, hheight⟩ := h.height_bounds
  obtain ⟨hcoarse, hfine⟩ := grid_bounds hmin hmax
  have hlast : (b.onGrid tie (b.top - (19 : ℕ))).isSome = true := by
    refine onGrid_isSome (hfine.trans_le (zpow_le_zpow_right₀ one_le_two ?_))
    omega
  have hsome : ((List.range 20).findSome? fun n : Nat => b.onGrid tie (b.top - n)).isSome = true := by
    rw [List.findSome?_isSome_iff]
    exact ⟨19, by decide, hlast⟩
  obtain ⟨d, hd⟩ := Option.isSome_iff_exists.mp hsome
  obtain ⟨n, hn, hgrid⟩ := List.exists_of_findSome?_eq_some hd
  obtain ⟨hexponent, hholds⟩ := holds_of_onGrid hgrid
  have hn' : n < 20 := List.mem_range.mp hn
  have hpos := h.pos_of_holds hholds
  have hbelow : b.below (b.top - n) < 10 ^ n := by
    have hten : (10 : ℚ) ^ b.top = 10 ^ n * 10 ^ (b.top - n) := by
      rw [← zpow_natCast, ← zpow_add₀ (by decide)]
      congr 1
      ring
    have hlt : (b.below (b.top - n) : ℚ) * 10 ^ (b.top - n) < 10 ^ n * 10 ^ (b.top - n) :=
      hten ▸ (b.below_mul_le _).trans_lt (b.value_lt.trans_le hcoarse)
    exact_mod_cast lt_of_mul_lt_mul_right hlt (zpow_pos (by decide) _).le
  have hdigits : d.digits ≤ 10 ^ 19 := calc
    d.digits ≤ b.below (b.top - n) + 1 := digits_le_of_onGrid hgrid
    _ ≤ 10 ^ n := hbelow
    _ ≤ 10 ^ 19 := Nat.pow_le_pow_right (by decide) (by omega)
  rw [shortest, hd, Option.getD_some]
  refine ⟨hexponent ▸ hholds, hpos, hdigits, ?_, h.exponent_le_of_holds (hexponent ▸ hholds)⟩
  rw [hexponent, top_eq, firstGrid]
  omega

end Binary

end HeroPage.Decimal
