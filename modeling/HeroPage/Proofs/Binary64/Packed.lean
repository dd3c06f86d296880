import HeroPage.Proofs.Binary64.Rounded
set_option autoImplicit false

namespace HeroPage.Binary64

open Float.Model Float.Model.UnpackedFloat

theorem unpackSign_packComponents {spec : Format} (s : Sign) (e : BitVec spec.exponentBits)
    (m : BitVec spec.mantissaBitsWithoutImplicit) :
    unpackSign (packComponents spec s e m) = s.toBitVec := by
  ext i hi
  have h₀ : i = 0 := by omega
  subst h₀
  simp [unpackSign, packComponents, BitVec.getLsbD_append, BitVec.getElem_append]

theorem ofBitVec_toBitVec (s : Sign) : Sign.ofBitVec s.toBitVec = s := by
  cases s <;> rfl

theorem toNat_one_append {w : ℕ} (v : BitVec w) : (1#1 ++ v).toNat = 2 ^ w + v.toNat := by
  rw [BitVec.toNat_append, ← Nat.shiftLeft_add_eq_or_of_lt v.isLt]
  simp [Nat.shiftLeft_eq]

/-- The exponent is one that a double can have. -/
def Bounded : UnpackedFloat → Prop
  | .finite _ _ e _ => e ≤ 971
  | _ => True

structure IsDouble (u : UnpackedFloat) : Prop where
  canonical : Canonical u
  bounded : Bounded u

theorem isDouble_unpack (b : BitVec Format.binary64.numBits) :
    IsDouble (UnpackedFloat.unpack .binary64 b) := by
  have hbias : (Format.binary64.exponentBias + Format.binary64.mantissaBitsWithoutImplicit : ℤ) = 1075 :=
    rfl
  have hm : (@unpackMantissa .binary64 b).toNat < 2 ^ 52 := (unpackMantissa b).isLt
  have he : (@unpackExponent .binary64 b).toNat < 2 ^ 11 := (unpackExponent b).isLt
  rw [UnpackedFloat.unpack, hbias]
  dsimp only
  split
  · split
    · exact ⟨.infinity _, trivial⟩
    · exact ⟨.notANumber, trivial⟩
  · next hinfinite =>
    split
    · next hzero =>
      split
      · exact ⟨.zero _, trivial⟩
      · have hexp : (@unpackExponent .binary64 b).toNat = 0 := by rw [hzero]; rfl
        rw [hexp]
        exact ⟨.finite _ _ ⟨hm.trans (by decide), by decide, .inr rfl⟩, by simp [Bounded]⟩
    · next hzero =>
      have hne : (@unpackExponent .binary64 b).toNat ≠ 2047 := fun h =>
        hinfinite (BitVec.eq_of_toNat_eq h)
      have hne' : (@unpackExponent .binary64 b).toNat ≠ 0 := fun h =>
        hzero (BitVec.eq_of_toNat_eq h)
      have happend := toNat_one_append (@unpackMantissa .binary64 b)
      refine ⟨.finite _ _ ⟨?_, ?_, .inl ?_⟩, ?_⟩
      · rw [happend]; change 2 ^ 52 + _ < _; omega
      · omega
      · rw [happend]; exact Nat.le_add_right _ _
      · change _ - _ ≤ (971 : ℤ)
        omega

theorem finite_congr {s : Sign} {m m' : ℕ} {e e' : ℤ} {h : 0 < m} {h' : 0 < m'} (hm : m = m')
    (he : e = e') : UnpackedFloat.finite s m e h = .finite s m' e' h' := by
  subst hm he
  rfl

theorem unpack_normal (s : Sign) {e m : ℕ} (he : 0 < e) (he' : e < 2047) (hm : 2 ^ 52 ≤ m)
    (hm' : m < 2 ^ 53) (h : 0 < m) :
    UnpackedFloat.unpack .binary64 (packComponents .binary64 s (BitVec.ofNat _ e) (BitVec.ofNat _ m)) =
      .finite s m (e - 1075) h := by
  have hexp : (BitVec.ofNat 11 e).toNat = e := by rw [BitVec.toNat_ofNat]; omega
  have hmant : (BitVec.ofNat 52 m).toNat = m - 2 ^ 52 := by rw [BitVec.toNat_ofNat]; omega
  have hne : BitVec.ofNat 11 e ≠ -1#11 := fun heq => by
    have : e = 2047 := hexp.symm.trans (congrArg BitVec.toNat heq)
    omega
  have hne' : BitVec.ofNat 11 e ≠ 0#11 := fun heq => by
    have : e = 0 := hexp.symm.trans (congrArg BitVec.toNat heq)
    omega
  simp only [UnpackedFloat.unpack, unpackMantissa_packComponents, unpackExponent_packComponents,
    unpackSign_packComponents, ofBitVec_toBitVec]
  rw [if_neg hne, if_neg hne']
  refine finite_congr ?_ ?_
  · rw [toNat_one_append, hmant]; omega
  · rw [hexp]; rfl

theorem unpack_subnormal (s : Sign) {m : ℕ} (hm : m < 2 ^ 52) (h : 0 < m) :
    UnpackedFloat.unpack .binary64 (packComponents .binary64 s 0#_ (BitVec.ofNat _ m)) =
      .finite s m (-1074) h := by
  have hmant : (BitVec.ofNat 52 m).toNat = m := by rw [BitVec.toNat_ofNat]; omega
  have hne : BitVec.ofNat 52 m ≠ 0#52 := fun heq => by
    have : m = 0 := hmant.symm.trans (congrArg BitVec.toNat heq)
    omega
  simp only [UnpackedFloat.unpack, unpackMantissa_packComponents, unpackExponent_packComponents,
    unpackSign_packComponents, ofBitVec_toBitVec]
  rw [if_neg (by decide), if_pos trivial, dif_neg hne]
  exact finite_congr hmant rfl

/-- What becomes of digits when they are packed. -/
def saturate : UnpackedFloat → UnpackedFloat
  | .finite s m e h => if e ≤ 971 then .finite s m e h else .infinity s
  | u => u

theorem unpack_pack_finite (s : Sign) {m : ℕ} {e : ℤ} (h : 0 < m) (fits : Fits m e) :
    (Float.Model.pack (.finite s m e h)).unpack = saturate (.finite s m e h) := by
  have hbias : (e + Format.binary64.exponentBias + Format.binary64.mantissaBitsWithoutImplicit : ℤ) =
      e + 1075 := add_assoc e 1023 52
  have hleast := fits.least
  have hlt := fits.lt
  change UnpackedFloat.unpack .binary64 (UnpackedFloat.pack .binary64 (.finite s m e h)) = _
  rw [UnpackedFloat.pack, hbias, saturate]
  by_cases he : e ≤ 971
  · rw [if_pos he, if_neg (by change ¬2048 ≤ _; omega)]
    by_cases hm : 2 ^ 52 ≤ m
    · have hlog : m.log2 = 52 := (Nat.log2_eq_iff h.ne').mpr ⟨hm, hlt⟩
      rw [if_pos (by rw [hlog]; rfl), unpack_normal s (by omega) (by omega) hm hlt h]
      exact finite_congr rfl (by omega)
    · have hlog : m.log2 < 52 := (Nat.log2_lt h.ne').mpr (by omega)
      rw [if_neg (by change ¬_ = 53; omega), unpack_subnormal s (by omega) h]
      exact finite_congr rfl (fits.leading.resolve_left hm).symm
  · rw [if_neg he, if_pos (by change 2048 ≤ _; omega)]
    cases s <;> rfl

theorem unpack_pack {u : UnpackedFloat} (h : Canonical u) :
    (Float.Model.pack u).unpack = saturate u := by
  cases h with
  | notANumber => rfl
  | infinity s => cases s <;> rfl
  | zero s => cases s <;> rfl
  | finite s h fits => exact unpack_pack_finite s h fits

theorem limit_pos : 0 < limit := two_zpow_pos 1024

/-- Cut off what lies beyond the infinities. -/
def clamp (x : ℚ) : ℚ := max (-limit) (min x limit)

theorem clamp_mono {x y : ℚ} (h : x ≤ y) : clamp x ≤ clamp y :=
  max_le_max_left _ (min_le_min_right _ h)

theorem clamp_withSign (s : Sign) {x : ℚ} (h : 0 ≤ x) :
    clamp (withSign s x) = withSign s (min x limit) := by
  have hlimit := limit_pos
  cases s with
  | positive => exact max_eq_right ((neg_nonpos.mpr hlimit.le).trans (le_min h hlimit.le))
  | negative =>
    simp only [clamp, withSign]
    rw [min_eq_left (by linarith), max_neg_neg, min_comm]

theorem Fits.lt_limit {m : ℕ} {e : ℤ} (h : Fits m e) (he : e ≤ 971) : (m : ℚ) * 2 ^ e < limit := by
  have hm : (m : ℚ) < 2 ^ (53 : ℤ) := by exact_mod_cast h.lt
  calc (m : ℚ) * 2 ^ e < 2 ^ (53 : ℤ) * 2 ^ e := mul_lt_mul_of_pos_right hm (two_zpow_pos e)
    _ = 2 ^ (53 + e) := (zpow_add₀ two_ne_zero 53 e).symm
    _ ≤ limit := zpow_le_zpow_right₀ one_le_two (by omega)

theorem Fits.limit_le {m : ℕ} {e : ℤ} (h : Fits m e) (he : ¬e ≤ 971) : limit ≤ (m : ℚ) * 2 ^ e := by
  have hm : (2 : ℚ) ^ (52 : ℤ) ≤ m := by exact_mod_cast h.leading.resolve_right (by omega)
  calc limit ≤ 2 ^ (52 + e) := zpow_le_zpow_right₀ one_le_two (by omega)
    _ = 2 ^ (52 : ℤ) * 2 ^ e := zpow_add₀ two_ne_zero 52 e
    _ ≤ m * 2 ^ e := mul_le_mul_of_nonneg_right hm (two_zpow_pos e).le

theorem clamp_zero : clamp 0 = 0 := by
  rw [clamp, min_eq_left limit_pos.le, max_eq_right (neg_nonpos.mpr limit_pos.le)]

theorem value_saturate {u : UnpackedFloat} (h : Canonical u) : value (saturate u) = clamp (value u) := by
  cases h with
  | notANumber => exact clamp_zero.symm
  | infinity s => exact ((clamp_withSign s limit_pos.le).trans (by rw [min_self]; rfl)).symm
  | zero s => exact clamp_zero.symm
  | @finite s m e h fits =>
    have hnonneg : (0 : ℚ) ≤ m * 2 ^ e := mul_nonneg m.cast_nonneg (two_zpow_pos e).le
    rw [value, clamp_withSign s hnonneg, saturate]
    split
    · next he => rw [value, min_eq_left (fits.lt_limit he).le]
    · next he => rw [value, min_eq_right (fits.limit_le he)]

end HeroPage.Binary64
