import HeroPage.Proofs.Binary64.Digits
import Mathlib
set_option autoImplicit false

namespace HeroPage.Binary64

open Float.Model Float.Model.UnpackedFloat

def withSign (s : Sign) (x : ℚ) : ℚ :=
  match s with
  | .negative => -x
  | .positive => x

def limit : ℚ := 2 ^ (1024 : ℤ)

/-- What a double stands for. An infinity counts as the limit, which is where numbers that overflow
are cut off. -/
def value : UnpackedFloat → ℚ
  | .finite s m e _ => withSign s (m * 2 ^ e)
  | .zero _ => 0
  | .infinity s => withSign s limit
  | .notANumber => 0

theorem withSign_mul_self (s : Sign) (x y : ℚ) : withSign s x * withSign s y = x * y := by
  cases s with
  | positive => rfl
  | negative => exact neg_mul_neg x y

theorem withSign_sub (s : Sign) (x y : ℚ) : withSign s (x - y) = withSign s x - withSign s y := by
  cases s with
  | positive => rfl
  | negative => exact neg_sub' x y

theorem abs_withSign (s : Sign) (x : ℚ) : |withSign s x| = |x| := by
  cases s with
  | positive => rfl
  | negative => exact abs_neg x

@[simp] theorem value_zero (s : Sign) : value (.zero s) = 0 := rfl

/-- The digits of a double: 53 of them, or fewer at the least exponent. -/
structure Fits (m : ℕ) (e : ℤ) : Prop where
  lt : m < 2 ^ 53
  least : -1074 ≤ e
  leading : 2 ^ 52 ≤ m ∨ e = -1074

/-- The form of a rounded number. Its exponent may be too large for a double. -/
inductive Canonical : UnpackedFloat → Prop where
  | notANumber : Canonical .notANumber
  | infinity (s : Sign) : Canonical (.infinity s)
  | zero (s : Sign) : Canonical (.zero s)
  | finite (s : Sign) {m : ℕ} {e : ℤ} (h : 0 < m) (fits : Fits m e) : Canonical (.finite s m e h)

structure Rounds (u : UnpackedFloat) (x : ℚ) : Prop where
  canonical : Canonical u
  finite : u.isFinite = true
  value_eq : value u = nearest x

theorem rounds_zero (s : Sign) : Rounds (.zero s) 0 := ⟨.zero s, rfl, nearest_zero.symm⟩

theorem nearest_withSign (s : Sign) (x : ℚ) : nearest (withSign s x) = withSign s (nearest x) := by
  cases s with
  | negative => exact nearest_neg x
  | positive => rfl

theorem log_eq {x : ℚ} {k : ℤ} (h : 2 ^ k ≤ x) (h' : x < 2 ^ (k + 1)) : Int.log 2 x = k := by
  have hx : 0 < x := (two_zpow_pos k).trans_le h
  have hle := (Int.zpow_le_iff_le_log (b := 2) (by decide) hx).mp (by exact_mod_cast h)
  have hlt := (Int.lt_zpow_iff_log_lt (b := 2) (by decide) hx).mp (by exact_mod_cast h')
  omega

theorem log_mul_two_zpow {x : ℚ} (hx : 0 < x) (e : ℤ) : Int.log 2 (x * 2 ^ e) = Int.log 2 x + e := by
  have hlo : (2 : ℚ) ^ Int.log 2 x ≤ x := by
    exact_mod_cast Int.zpow_log_le_self (b := 2) (by decide) hx
  have hhi : x < 2 ^ (Int.log 2 x + 1) := by
    exact_mod_cast Int.lt_zpow_succ_log_self (b := 2) (by decide) x
  have hq := two_zpow_pos e
  refine log_eq ?_ ?_
  · rw [zpow_add₀ two_ne_zero]
    exact mul_le_mul_of_nonneg_right hlo hq.le
  · rw [add_right_comm, zpow_add₀ two_ne_zero]
    exact mul_lt_mul_of_pos_right hhi hq

theorem log_eq_log2 {m : ℕ} {x : ℚ} (hm : 0 < m) (h : m ≤ x) (h' : x < m + 1) :
    Int.log 2 x = m.log2 := by
  have hlo : 2 ^ m.log2 ≤ m := Nat.log2_self_le hm.ne'
  have hhi : m + 1 ≤ 2 ^ (m.log2 + 1) := Nat.lt_log2_self
  refine log_eq ?_ ?_
  · rw [zpow_natCast]
    exact le_trans (by exact_mod_cast hlo) h
  · refine h'.trans_le ?_
    rw [show (m.log2 : ℤ) + 1 = (m.log2 + 1 : ℕ) from rfl, zpow_natCast]
    exact_mod_cast hhi

/-- Digits that are fine enough tell the exponent of the quantum, also if there are none: then the
number is too small for any quantum but the least. -/
theorem targetExponent_eq {m : ℕ} {x : ℚ} {e : ℤ} (hx : 0 < x) (h : m ≤ x) (h' : x < m + 1)
    (he : e ≤ exponent (x * 2 ^ e)) :
    Format.binary64.targetExponent (totalExponent m e) = exponent (x * 2 ^ e) := by
  have htarget : Format.binary64.targetExponent (totalExponent m e) =
      max (m.log2 + 1 + e - 53) (-1074) := rfl
  have hexponent : exponent (x * 2 ^ e) = max (Int.log 2 x + e - 52) (-1074) := by
    rw [exponent, abs_of_pos (mul_pos hx (two_zpow_pos e)), log_mul_two_zpow hx]
  rw [htarget, hexponent]
  rcases m.eq_zero_or_pos with rfl | hm
  · have hlog : Int.log 2 x < 0 := by
      refine (Int.lt_zpow_iff_log_lt (b := 2) (by decide) hx).mp ?_
      simpa using h'
    have hlog2 : Nat.log2 0 = 0 := Nat.log2_zero
    omega
  · rw [log_eq_log2 hm h h']
    omega

theorem shiftToTargetExponent_of_lt {r : ℕ} {e : ℤ} (hr : r < 2 ^ 53) (he : -1074 ≤ e) :
    shiftToTargetExponent .binary64 r e .exact = (⟨r, false, false⟩, e) := by
  have hlog : r.log2 ≤ 52 := by
    rcases r.eq_zero_or_pos with rfl | hpos
    · exact Nat.le_of_lt (by decide)
    · exact Nat.lt_succ_iff.mp ((Nat.log2_lt hpos.ne').mpr hr)
  have htarget : Format.binary64.targetExponent (totalExponent r e) =
      max (r.log2 + 1 + e - 53) (-1074) := rfl
  have hshift : (Format.binary64.targetExponent (totalExponent r e) - e).toNat = 0 := by omega
  simp only [shiftToTargetExponent, shiftToExponent, hshift]
  exact Prod.ext rfl (by simp)

theorem shiftToTargetExponent_carry {e : ℤ} (he : -1074 ≤ e) :
    shiftToTargetExponent .binary64 (2 ^ 53) e .exact = (⟨2 ^ 52, false, false⟩, e + 1) := by
  have htarget : Format.binary64.targetExponent (totalExponent (2 ^ 53) e) =
      max ((2 ^ 53 : ℕ).log2 + 1 + e - 53) (-1074) := rfl
  rw [Nat.log2_two_pow] at htarget
  have hshift : (Format.binary64.targetExponent (totalExponent (2 ^ 53) e) - e).toNat = 1 := by omega
  simp only [shiftToTargetExponent, shiftToExponent, hshift]
  exact Prod.ext rfl rfl

def assemble (s : Sign) (digits : ExtendedMantissa × ℤ) : UnpackedFloat :=
  if h : digits.1.mantissa = 0 then .zero s
  else .finite s digits.1.mantissa digits.2 (Nat.pos_of_ne_zero h)

theorem roundWithAccuracy_eq (s : Sign) (m : ℕ) (e : ℤ) (a : Accuracy) :
    roundWithAccuracy .binary64 s m e a =
      let first := shiftToTargetExponent .binary64 m e a
      assemble s (shiftToTargetExponent .binary64 first.1.roundedMantissa first.2 .exact) := rfl

theorem quantum_le {x : ℚ} (hx : 0 < x) : x / 2 ^ exponent x < 2 ^ 53 := by
  have hlog : Int.log 2 x - 52 ≤ exponent x := by
    rw [exponent, abs_of_pos hx]
    exact le_max_left _ _
  rw [div_lt_iff₀ (two_zpow_pos _), ← zpow_natCast, ← zpow_add₀ two_ne_zero]
  refine lt_of_lt_of_le ?_ (zpow_le_zpow_right₀ one_le_two (show Int.log 2 x + 1 ≤ _ by
    push_cast; omega))
  exact_mod_cast Int.lt_zpow_succ_log_self (b := 2) (by decide) x

theorem le_quantum {x : ℚ} (hx : 0 < x) (h : exponent x ≠ -1074) : 2 ^ 52 ≤ x / 2 ^ exponent x := by
  have hlog : exponent x = Int.log 2 x - 52 := by
    unfold exponent at h ⊢
    rw [abs_of_pos hx] at h ⊢
    omega
  rw [le_div_iff₀ (two_zpow_pos _), ← zpow_natCast, ← zpow_add₀ two_ne_zero, hlog]
  rw [show ((52 : ℕ) : ℤ) + (Int.log 2 x - 52) = Int.log 2 x by push_cast; omega]
  exact_mod_cast Int.zpow_log_le_self (b := 2) (by decide) hx

section

variable {m : ℕ} {e : ℤ} {a : Accuracy} {x : ℚ}

theorem marks_shifted (hx : 0 < x) (h : Marks (.ofMantissaAndAccuracy m a) x)
    (he : e ≤ exponent (x * 2 ^ e)) :
    ∃ em, shiftToTargetExponent .binary64 m e a = (em, exponent (x * 2 ^ e)) ∧
      Marks em (x * 2 ^ e / 2 ^ exponent (x * 2 ^ e)) := by
  have hm : (ExtendedMantissa.ofMantissaAndAccuracy m a).mantissa = m := by
    rcases a with _ | (_ | _ | _) <;> rfl
  have htarget := targetExponent_eq hx (hm ▸ h.le) (hm ▸ h.lt) he
  generalize exponent (x * 2 ^ e) = q at he htarget ⊢
  refine ⟨ExtendedMantissa.ofMantissaAndAccuracy m a >>> (q - e).toNat, ?_, ?_⟩
  · rw [shiftToTargetExponent, htarget, shiftToExponent]
    exact Prod.ext rfl (by dsimp only; omega)
  · have hdiv : x * 2 ^ e / 2 ^ q = x / 2 ^ (q - e).toNat := by
      rw [two_zpow_eq he, Int.cast_pow, Int.cast_ofNat, mul_div_mul_right _ _ (two_zpow_pos e).ne']
    rw [hdiv]
    exact h.shiftRight _

theorem fits_or_carry (hx : 0 < x) {r : ℕ} (hr : (r : ℤ) = roundEven (x / 2 ^ exponent x)) :
    Fits r (exponent x) ∨ r = 2 ^ 53 := by
  have hle : (r : ℤ) ≤ 2 ^ 53 := hr ▸ roundEven_le (by exact_mod_cast (quantum_le hx).le)
  rcases hle.lt_or_eq with hlt | heq
  · refine .inl ⟨by exact_mod_cast hlt, le_max_right _ _, ?_⟩
    by_cases hexp : exponent x = -1074
    · exact .inr hexp
    · have hge : (2 ^ 52 : ℤ) ≤ r := hr ▸ le_roundEven (by exact_mod_cast le_quantum hx hexp)
      exact .inl (by exact_mod_cast hge)
  · exact .inr (by exact_mod_cast heq)

theorem rounds_roundWithAccuracy (s : Sign) (hx : 0 < x) (h : Marks (.ofMantissaAndAccuracy m a) x)
    (he : e ≤ exponent (x * 2 ^ e)) :
    Rounds (roundWithAccuracy .binary64 s m e a) (withSign s (x * 2 ^ e)) := by
  obtain ⟨em, hshift, hmarks⟩ := marks_shifted hx h he
  have hpos : 0 < x * 2 ^ e := mul_pos hx (two_zpow_pos e)
  have hmin : -1074 ≤ exponent (x * 2 ^ e) := le_max_right _ _
  have hround := hmarks.roundedMantissa
  have hnearest : nearest (x * 2 ^ e) = em.roundedMantissa * 2 ^ exponent (x * 2 ^ e) := by
    rw [nearest, ← hround, Int.cast_natCast]
  rw [roundWithAccuracy_eq, hshift]
  dsimp only
  generalize em.roundedMantissa = r at hround hnearest ⊢
  rcases fits_or_carry hpos hround with hfits | rfl
  · rw [shiftToTargetExponent_of_lt hfits.lt hmin]
    by_cases hr : r = 0
    · rw [assemble, dif_pos hr]
      refine ⟨.zero s, rfl, ?_⟩
      rw [nearest_withSign, hnearest, hr, Nat.cast_zero, zero_mul]
      cases s <;> simp [value, withSign]
    · rw [assemble, dif_neg hr]
      refine ⟨.finite s (Nat.pos_of_ne_zero hr) hfits, rfl, ?_⟩
      rw [nearest_withSign, hnearest, value]
  · have hcarried : 2 ^ 52 ≠ 0 := by decide
    rw [shiftToTargetExponent_carry hmin, assemble, dif_neg hcarried]
    refine ⟨.finite s _ ⟨Nat.pow_lt_pow_right (by decide) (by decide), ?_, .inl le_rfl⟩, rfl, ?_⟩
    · exact le_add_of_le_of_nonneg hmin Int.one_nonneg
    · rw [nearest_withSign, hnearest, value, zpow_add_one₀ two_ne_zero]
      congr 1
      push_cast
      ring

end

theorem decreaseExponent_eq (m : ℕ) (e t : ℤ) :
    ((decreaseExponent m e t).1 : ℚ) * 2 ^ (decreaseExponent m e t).2 = m * 2 ^ e := by
  simp only [decreaseExponent, Nat.shiftLeft_eq]
  push_cast
  rw [mul_assoc, ← zpow_natCast, ← zpow_add₀ two_ne_zero]
  congr 2
  omega

theorem exponent_natCast_mul {m : ℕ} (hm : 0 < m) (e : ℤ) :
    exponent (m * 2 ^ e) = max (m.log2 + e - 52) (-1074) := by
  have hmq : (0 : ℚ) < m := Nat.cast_pos.mpr hm
  rw [exponent, abs_of_pos (mul_pos hmq (two_zpow_pos e)), log_mul_two_zpow hmq,
    log_eq_log2 hm le_rfl (lt_add_one _)]

theorem rounds_round (s : Sign) {m : ℕ} (hm : 0 < m) (e : ℤ) :
    Rounds (UnpackedFloat.round .binary64 s m e) (withSign s (m * 2 ^ e)) := by
  have htarget : Format.binary64.targetExponent (totalExponent m e) = exponent (m * 2 ^ e) := by
    rw [exponent_natCast_mul hm]
    change max ((m.log2 : ℤ) + 1 + e - 53) (-1074) = _
    omega
  rw [UnpackedFloat.round, htarget]
  generalize hq : exponent ((m : ℚ) * 2 ^ e) = q
  have heq := decreaseExponent_eq m e q
  have hle : (decreaseExponent m e q).2 ≤ q := by
    dsimp only [decreaseExponent]
    omega
  have hpos : 0 < (decreaseExponent m e q).1 := by
    rw [decreaseExponent, Nat.shiftLeft_eq]
    exact Nat.mul_pos hm (Nat.two_pow_pos _)
  generalize decreaseExponent m e q = finer at heq hle hpos
  rw [← heq]
  refine rounds_roundWithAccuracy s (Nat.cast_pos.mpr hpos) (marks_exact _) ?_
  rw [heq, hq]
  exact hle

theorem rounds_normalize (n e : ℤ) (zeroSign : Sign) :
    Rounds (UnpackedFloat.normalize .binary64 n e zeroSign) (n * 2 ^ e) := by
  rcases lt_trichotomy n 0 with hn | rfl | hn
  · have h := rounds_round .negative (m := (-n).toNat) (by omega) e
    have hcast : (((-n).toNat : ℕ) : ℚ) = -n := by exact_mod_cast Int.toNat_of_nonneg (by omega : 0 ≤ -n)
    rw [hcast] at h
    simpa [UnpackedFloat.normalize, Int.compare_eq_lt.mpr hn, withSign] using h
  · rw [Int.cast_zero, zero_mul]
    exact rounds_zero zeroSign
  · have h := rounds_round .positive (m := n.toNat) (by omega) e
    have hcast : ((n.toNat : ℕ) : ℚ) = n := by exact_mod_cast Int.toNat_of_nonneg hn.le
    rw [hcast] at h
    simpa [UnpackedFloat.normalize, Int.compare_eq_gt.mpr hn, withSign] using h

end HeroPage.Binary64
