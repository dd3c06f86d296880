import Mathlib.Data.Int.Log
import Mathlib.Data.Rat.Floor
import Mathlib.Tactic.Linarith
import Mathlib.Tactic.Ring
import Mathlib.Tactic.Positivity
set_option autoImplicit false

/-! A rational is rounded to a multiple of a power of two, its quantum, that leaves 53 bits of it but is never
finer than `2 ^ -1074`. There is no greatest double here; what is too large for one is told apart later. -/

namespace HeroPage.Binary64

/-- The nearest whole number, and the even one if there are two. -/
def roundEven (x : ℚ) : ℤ :=
  if x - ⌊x⌋ < 1 / 2 then ⌊x⌋ else if 1 / 2 < x - ⌊x⌋ then ⌊x⌋ + 1 else ⌊x⌋ + ⌊x⌋ % 2

theorem floor_le_roundEven (x : ℚ) : ⌊x⌋ ≤ roundEven x := by
  unfold roundEven
  split_ifs <;> omega

theorem roundEven_le_floor_add_one (x : ℚ) : roundEven x ≤ ⌊x⌋ + 1 := by
  unfold roundEven
  split_ifs <;> omega

theorem roundEven_mono {x y : ℚ} (h : x ≤ y) : roundEven x ≤ roundEven y := by
  rcases (Int.floor_le_floor h).eq_or_lt with hfloor | hfloor
  · have hfract : x - ⌊x⌋ ≤ y - ⌊y⌋ := by rw [hfloor]; linarith
    unfold roundEven
    rw [hfloor] at hfract ⊢
    split_ifs
    all_goals first | omega | (exfalso; linarith)
  · have hx := roundEven_le_floor_add_one x
    have hy := floor_le_roundEven y
    omega

@[simp] theorem roundEven_intCast (n : ℤ) : roundEven n = n := by
  simp [roundEven]

theorem roundEven_le {x : ℚ} {n : ℤ} (h : x ≤ n) : roundEven x ≤ n :=
  roundEven_intCast n ▸ roundEven_mono h

theorem le_roundEven {x : ℚ} {n : ℤ} (h : n ≤ x) : n ≤ roundEven x :=
  roundEven_intCast n ▸ roundEven_mono h

theorem roundEven_neg (x : ℚ) : roundEven (-x) = -roundEven x := by
  by_cases hx : x = ⌊x⌋
  · rw [hx, ← Int.cast_neg, roundEven_intCast, roundEven_intCast]
  · have hlo := (Int.floor_le x).lt_of_ne' hx
    have hhi := Int.lt_floor_add_one x
    have hfloor : ⌊-x⌋ = -⌊x⌋ - 1 := by
      rw [Int.floor_eq_iff]
      push_cast
      constructor <;> linarith
    unfold roundEven
    rw [hfloor]
    push_cast
    split_ifs
    all_goals first | omega | (exfalso; linarith)

theorem roundEven_eq {x : ℚ} {n : ℤ} (hle : |x - n| ≤ 1 / 2) (htie : n % 2 = 0 ∨ |x - n| < 1 / 2) :
    roundEven x = n := by
  rw [abs_le] at hle
  rw [abs_lt] at htie
  rcases le_or_gt (n : ℚ) x with hx | hx
  · have hfloor : ⌊x⌋ = n := Int.floor_eq_iff.mpr ⟨hx, by linarith⟩
    rw [roundEven, hfloor]
    split_ifs with hlow hhigh
    · rfl
    · linarith
    · rcases htie with h | h
      · omega
      · linarith [h.2]
  · have hfloor : ⌊x⌋ = n - 1 := Int.floor_eq_iff.mpr ⟨by push_cast; linarith, by push_cast; linarith⟩
    rw [roundEven, hfloor]
    push_cast
    split_ifs with hlow hhigh
    · linarith
    · ring
    · rcases htie with h | h
      · omega
      · linarith [h.1]

theorem two_zpow_pos (e : ℤ) : (0 : ℚ) < 2 ^ e := zpow_pos (by decide) e

theorem two_zpow_eq {e k : ℤ} (h : e ≤ k) : (2 : ℚ) ^ k = ((2 : ℤ) ^ (k - e).toNat : ℤ) * 2 ^ e := by
  rw [Int.cast_pow, Int.cast_ofNat, ← zpow_natCast, Int.toNat_of_nonneg (by omega),
    ← zpow_add₀ (by decide), Int.sub_add_cancel]

/-- The quantum of `x` is `2 ^ exponent x`. -/
def exponent (x : ℚ) : ℤ := max (Int.log 2 |x| - 52) (-1074)

def nearest (x : ℚ) : ℚ := roundEven (x / 2 ^ exponent x) * 2 ^ exponent x

@[simp] theorem exponent_neg (x : ℚ) : exponent (-x) = exponent x := by
  rw [exponent, abs_neg, exponent]

theorem nearest_neg (x : ℚ) : nearest (-x) = -nearest x := by
  rw [nearest, exponent_neg, neg_div, roundEven_neg, Int.cast_neg, neg_mul, nearest]

theorem nearest_of_multiple {x : ℚ} {n : ℤ} (h : x = n * 2 ^ exponent x) : nearest x = x := by
  have hq := two_zpow_pos (exponent x)
  rw [nearest, (div_eq_iff hq.ne').mpr h, roundEven_intCast, ← h]

theorem nearest_le {x : ℚ} {n : ℤ} (h : x ≤ n * 2 ^ exponent x) :
    nearest x ≤ n * 2 ^ exponent x := by
  have hq := two_zpow_pos (exponent x)
  exact mul_le_mul_of_nonneg_right
    (Int.cast_le.mpr (roundEven_le ((div_le_iff₀ hq).mpr h))) hq.le

theorem le_nearest {x : ℚ} {n : ℤ} (h : n * 2 ^ exponent x ≤ x) :
    n * 2 ^ exponent x ≤ nearest x := by
  have hq := two_zpow_pos (exponent x)
  exact mul_le_mul_of_nonneg_right
    (Int.cast_le.mpr (le_roundEven ((le_div_iff₀ hq).mpr h))) hq.le

theorem nearest_nonneg {x : ℚ} (h : 0 ≤ x) : 0 ≤ nearest x := by
  have := le_nearest (x := x) (n := 0)
  rw [Int.cast_zero, zero_mul] at this
  exact this h

@[simp] theorem nearest_zero : nearest 0 = 0 := by
  simp [nearest, show roundEven 0 = 0 from roundEven_intCast 0]

theorem exponent_mono {x y : ℚ} (hx : 0 < x) (h : x ≤ y) : exponent x ≤ exponent y := by
  have hlog := Int.log_mono_right (b := 2) hx h
  unfold exponent
  rw [abs_of_pos hx, abs_of_pos (hx.trans_le h)]
  omega

theorem exponent_le {x : ℚ} {e : ℤ} (he : -1074 ≤ e) (hx : x ≠ 0) (h : |x| < 2 ^ (e + 53)) :
    exponent x ≤ e := by
  have hlog := (Int.lt_zpow_iff_log_lt (b := 2) (by decide) (abs_pos.mpr hx)).mp (by exact_mod_cast h)
  unfold exponent
  omega

/-- Between two quanta there is a power of two, which both numbers keep to when they are rounded. -/
theorem nearest_mono_of_lt {x y : ℚ} (hx : 0 < x) (h : x ≤ y) (hlt : exponent x < exponent y) :
    nearest x ≤ nearest y := by
  have hy : 0 < y := hx.trans_le h
  have hmin : -1074 ≤ exponent x := le_max_right _ _
  have hlog : exponent y = Int.log 2 y - 52 := by
    unfold exponent at *
    rw [abs_of_pos hy] at *
    omega
  have hle : exponent x ≤ Int.log 2 y := by omega
  have hbelow : x ≤ 2 ^ Int.log 2 y := by
    have hlogx : Int.log 2 x < Int.log 2 y := by
      have : Int.log 2 x - 52 ≤ exponent x := by
        unfold exponent
        rw [abs_of_pos hx]
        exact le_max_left _ _
      omega
    have := (Int.lt_zpow_iff_log_lt (b := 2) (by decide) hx).mpr hlogx
    exact_mod_cast this.le
  have habove : (2 : ℚ) ^ Int.log 2 y ≤ y := by
    exact_mod_cast Int.zpow_log_le_self (b := 2) (by decide) hy
  calc nearest x
      ≤ 2 ^ Int.log 2 y := by
        rw [two_zpow_eq hle] at hbelow ⊢
        exact nearest_le hbelow
    _ ≤ nearest y := by
        rw [two_zpow_eq (show exponent y ≤ Int.log 2 y by omega)] at habove ⊢
        exact le_nearest habove

theorem nearest_mono_of_pos {x y : ℚ} (hx : 0 < x) (h : x ≤ y) : nearest x ≤ nearest y := by
  rcases (exponent_mono hx h).eq_or_lt with heq | hlt
  · have hq := two_zpow_pos (exponent y)
    unfold nearest
    rw [heq]
    exact mul_le_mul_of_nonneg_right
      (Int.cast_le.mpr (roundEven_mono (div_le_div_of_nonneg_right h hq.le))) hq.le
  · exact nearest_mono_of_lt hx h hlt

theorem nearest_mono {x y : ℚ} (h : x ≤ y) : nearest x ≤ nearest y := by
  rcases lt_or_ge 0 x with hx | hx
  · exact nearest_mono_of_pos hx h
  · have hxle : nearest x ≤ 0 := by
      have := nearest_nonneg (neg_nonneg.mpr hx)
      rw [nearest_neg] at this
      linarith
    rcases le_or_gt 0 y with hy | hy
    · exact hxle.trans (nearest_nonneg hy)
    · have := nearest_mono_of_pos (neg_pos.mpr hy) (neg_le_neg h)
      rw [nearest_neg, nearest_neg] at this
      linarith

theorem nearest_eq_self {m e : ℤ} (hm : |m| < 2 ^ 53) (he : -1074 ≤ e) :
    nearest (m * 2 ^ e) = m * 2 ^ e := by
  by_cases h0 : m = 0
  · simp [h0]
  · have hq := two_zpow_pos e
    have hne : (m : ℚ) * 2 ^ e ≠ 0 := mul_ne_zero (Int.cast_ne_zero.mpr h0) hq.ne'
    have hlt : |(m : ℚ) * 2 ^ e| < 2 ^ (e + 53) := by
      rw [abs_mul, abs_of_pos hq, add_comm, zpow_add₀ (by decide)]
      exact mul_lt_mul_of_pos_right (by exact_mod_cast hm) hq
    have hexp := exponent_le he hne hlt
    refine nearest_of_multiple (n := m * 2 ^ (e - exponent (m * 2 ^ e)).toNat) ?_
    rw [Int.cast_mul, mul_assoc, ← two_zpow_eq hexp]

theorem exponent_eq {x : ℚ} {e : ℤ} (hx : 0 < x) (hmin : -1074 ≤ e)
    (hlow : 2 ^ (52 + e) ≤ x ∨ e = -1074) (hhigh : x < 2 ^ (53 + e)) : exponent x = e := by
  have habove : Int.log 2 x < 53 + e :=
    (Int.lt_zpow_iff_log_lt (b := 2) (by decide) hx).mp (by exact_mod_cast hhigh)
  rw [exponent, abs_of_pos hx]
  rcases hlow with hlow | rfl
  · have hbelow : 52 + e ≤ Int.log 2 x :=
      (Int.zpow_le_iff_le_log (b := 2) (by decide) hx).mp (by exact_mod_cast hlow)
    omega
  · omega

theorem nearest_mul_zpow {t : ℚ} {n e : ℤ} (ht : 0 < t) (hmin : -1074 ≤ e)
    (hlow : 2 ^ 52 ≤ t ∨ e = -1074) (hhigh : t < 2 ^ 53) (hround : roundEven t = n) :
    nearest (t * 2 ^ e) = n * 2 ^ e := by
  have hq := two_zpow_pos e
  have hpow : ∀ k : ℕ, (2 : ℚ) ^ ((k : ℤ) + e) = 2 ^ k * 2 ^ e := fun k => by
    rw [zpow_add₀ two_ne_zero, zpow_natCast]
  have hexp : exponent (t * 2 ^ e) = e := by
    refine exponent_eq (mul_pos ht hq) hmin (hlow.imp_left fun h => ?_) ?_
    · exact (hpow 52).trans_le (mul_le_mul_of_nonneg_right h hq.le)
    · exact (mul_lt_mul_of_pos_right hhigh hq).trans_eq (hpow 53).symm
  rw [nearest, hexp, mul_div_cancel_right₀ _ hq.ne', hround]

end HeroPage.Binary64
