import HeroPage.Decimal.Binary
import HeroPage.Proofs.Binary64.Product
set_option autoImplicit false

namespace HeroPage.Decimal

open Binary64 Float.Model Float.Model.UnpackedFloat

namespace Double

def ofDigits : UnpackedFloat → Double
  | .notANumber => .nan
  | .infinity s => .infinite (s == .negative)
  | .zero s => .zero (s == .negative)
  | .finite s m e _ => .finite (s == .negative) ⟨m, e, decide (m = 2 ^ 52 ∧ -1074 < e)⟩

section

variable (b : BitVec Format.binary64.numBits)

theorem toNat_unpackMantissa : (unpackMantissa b).toNat = b.toNat % 2 ^ 52 := by
  simp [unpackMantissa, BitVec.extractLsb, BitVec.extractLsb'_toNat]

theorem toNat_unpackExponent : (unpackExponent b).toNat = b.toNat >>> 52 % 2 ^ 11 := by
  simp [unpackExponent, BitVec.extractLsb, BitVec.extractLsb'_toNat]

theorem ofBitVec_unpackSign : (Sign.ofBitVec (unpackSign b) == .negative) = decide (2 ^ 63 ≤ b.toNat) := by
  have hsign : (unpackSign b).toNat = b.toNat >>> 63 % 2 := by
    simp [unpackSign, BitVec.extractLsb, BitVec.extractLsb'_toNat]
  have hlt : b.toNat < 2 ^ 64 := b.isLt
  rw [Nat.shiftRight_eq_div_pow] at hsign
  by_cases hzero : unpackSign b = 0#1
  · have hbits : (unpackSign b).toNat = 0 := by rw [hzero]; rfl
    rw [Sign.ofBitVec, if_pos hzero, decide_eq_false (by omega)]
    rfl
  · have hbits : (unpackSign b).toNat ≠ 0 := fun h => hzero (BitVec.eq_of_toNat_eq h)
    rw [Sign.ofBitVec, if_neg hzero, decide_eq_true (by omega)]
    rfl

end

/-- The fields of the bits are those of the digits, with the leading bit of normal digits added. -/
theorem ofBits_eq (bits : UInt64) :
    ofBits bits = ofDigits (UnpackedFloat.unpack .binary64 bits.toBitVec) := by
  have hmantissa : (@unpackMantissa .binary64 bits.toBitVec).toNat = bits.toNat % 1 <<< 52 :=
    toNat_unpackMantissa _
  have hexponent : (@unpackExponent .binary64 bits.toBitVec).toNat = bits.toNat >>> 52 % 1 <<< 11 :=
    toNat_unpackExponent _
  have hsign : (Sign.ofBitVec (@unpackSign .binary64 bits.toBitVec) == .negative) =
      decide (1 <<< 63 ≤ bits.toNat) := ofBitVec_unpackSign _
  have hbias : (Format.binary64.exponentBias + Format.binary64.mantissaBitsWithoutImplicit : ℤ) = 1075 :=
    rfl
  have hfull : @unpackExponent .binary64 bits.toBitVec = -1#11 ↔
      bits.toNat >>> 52 % 1 <<< 11 = 2047 := by
    rw [← BitVec.toNat_inj, hexponent]
    rfl
  have hnone : @unpackExponent .binary64 bits.toBitVec = 0#11 ↔ bits.toNat >>> 52 % 1 <<< 11 = 0 := by
    rw [← BitVec.toNat_inj, hexponent]
    rfl
  have hzero : @unpackMantissa .binary64 bits.toBitVec = 0#52 ↔ bits.toNat % 1 <<< 52 = 0 := by
    rw [← BitVec.toNat_inj, hmantissa]
    rfl
  have happend := toNat_one_append (@unpackMantissa .binary64 bits.toBitVec)
  rw [hmantissa] at happend
  rw [UnpackedFloat.unpack, hbias, ofBits]
  dsimp only
  rw [← hsign]
  by_cases hinfinite : bits.toNat >>> 52 % 1 <<< 11 = 2047
  · rw [if_pos hinfinite, if_pos (hfull.mpr hinfinite)]
    by_cases hm : bits.toNat % 1 <<< 52 = 0
    · rw [if_pos hm, if_pos (hzero.mpr hm)]
      rfl
    · rw [if_neg hm, if_neg (mt hzero.mp hm)]
      rfl
  · rw [if_neg hinfinite, if_neg (mt hfull.mp hinfinite)]
    by_cases hsubnormal : bits.toNat >>> 52 % 1 <<< 11 = 0
    · rw [if_pos hsubnormal, if_pos (hnone.mpr hsubnormal)]
      by_cases hm : bits.toNat % 1 <<< 52 = 0
      · rw [if_pos hm, dif_pos (hzero.mpr hm)]
        rfl
      · have hlt : bits.toNat % 1 <<< 52 < 2 ^ 52 := Nat.mod_lt _ (by decide)
        have hwide : ¬(bits.toNat % 1 <<< 52 = 2 ^ 52 ∧ (-1074 : ℤ) < (0 : ℕ) - 1075 + 1) := by omega
        rw [if_neg hm, dif_neg (mt hzero.mp hm), ofDigits, hmantissa, hexponent, hsubnormal,
          decide_eq_false hwide]
        rfl
    · rw [if_neg hsubnormal, if_neg (mt hnone.mp hsubnormal)]
      have hnarrow : (bits.toNat % 1 <<< 52 = 0 ∧ 1 < bits.toNat >>> 52 % 1 <<< 11) ↔
          (2 ^ 52 + bits.toNat % 1 <<< 52 = 2 ^ 52 ∧
            (-1074 : ℤ) < (bits.toNat >>> 52 % 1 <<< 11 : ℕ) - 1075) := by omega
      rw [ofDigits, happend, hexponent, decide_eq_decide.mpr hnarrow]
      rfl

theorem ofFloat_eq (x : Float) : ofFloat x = ofDigits (digits x) := ofBits_eq x.toBits

theorem shiftLeft_sign : 1 <<< 63 = 2 ^ 63 := rfl

theorem shiftLeft_field : 1 <<< 11 = 2 ^ 11 := rfl

theorem shiftLeft_fraction : 1 <<< 52 = 2 ^ 52 := rfl

theorem toNat_eq_of_fields {a b : UInt64} (hsign : 2 ^ 63 ≤ a.toNat ↔ 2 ^ 63 ≤ b.toNat)
    (hfield : a.toNat >>> 52 % 2 ^ 11 = b.toNat >>> 52 % 2 ^ 11)
    (hfraction : a.toNat % 2 ^ 52 = b.toNat % 2 ^ 52) : a = b := by
  have ha : a.toNat < 2 ^ 64 := a.toNat_lt
  have hb : b.toNat < 2 ^ 64 := b.toNat_lt
  rw [Nat.shiftRight_eq_div_pow, Nat.shiftRight_eq_div_pow] at hfield
  exact UInt64.toNat_inj.mp (by omega)

theorem ofBits_injective {a b : UInt64} (h : ofBits a = ofBits b) (hnan : ofBits a ≠ .nan) : a = b := by
  simp only [ofBits, shiftLeft_sign, shiftLeft_field, shiftLeft_fraction] at h hnan
  split_ifs at h hnan
  · injection h with hsign
    exact toNat_eq_of_fields (decide_eq_decide.mp hsign) (by omega) (by omega)
  · exact absurd rfl hnan
  · injection h with hsign
    exact toNat_eq_of_fields (decide_eq_decide.mp hsign) (by omega) (by omega)
  -- Both are finite: the significand tells subnormal ones from the others.
  all_goals
    injection h with hsign hbinary
    injection hbinary with hsignificand hexponent
    exact toNat_eq_of_fields (decide_eq_decide.mp hsign) (by omega) (by omega)

theorem ofFloat_injective {x y : Float} (h : ofFloat x = ofFloat y) (hnan : ofFloat x ≠ .nan) :
    x = y := Float.toBits_inj.mp (ofBits_injective h hnan)

end Double

namespace Binary

def value (b : Binary) : ℚ := b.significand * 2 ^ b.exponent

/-- The form that is read off the bits of a double. -/
structure Standard (b : Binary) : Prop where
  pos : 0 < b.significand
  fits : Fits b.significand b.exponent
  bounded : b.exponent ≤ 971
  narrow_iff : b.narrow = true ↔ b.significand = 2 ^ 52 ∧ -1074 < b.exponent

theorem Standard.value_pos {b : Binary} (h : b.Standard) : 0 < b.value := magnitude_pos h.pos _

end Binary

def sign (negative : Bool) : Sign := if negative then .negative else .positive

variable {x y : Float} {n : Bool} {b : Binary}

theorem isFinite_iff_ofFloat : x.isFinite = true ↔
    (∃ n, Double.ofFloat x = .zero n) ∨ ∃ n b, Double.ofFloat x = .finite n b := by
  rw [Double.ofFloat_eq]
  change (digits x).isFinite = true ↔ _
  cases digits x with
  | notANumber => exact iff_of_false Bool.false_ne_true (by rintro (⟨n, h⟩ | ⟨n, b, h⟩) <;> cases h)
  | infinity s => exact iff_of_false Bool.false_ne_true (by rintro (⟨n, h⟩ | ⟨n, b, h⟩) <;> cases h)
  | zero s => exact iff_of_true rfl (.inl ⟨_, rfl⟩)
  | finite s m e hm => exact iff_of_true rfl (.inr ⟨_, _, rfl⟩)

theorem digits_of_ofFloat (h : Double.ofFloat x = .finite n b) :
    ∃ hpos, digits x = .finite (sign n) b.significand b.exponent hpos := by
  rw [Double.ofFloat_eq] at h
  generalize digits x = u at h ⊢
  cases u with
  | notANumber => cases h
  | infinity s => cases h
  | zero s => cases h
  | finite s m e hm =>
    cases h
    exact ⟨hm, by cases s <;> rfl⟩

theorem standard_of_ofFloat (h : Double.ofFloat x = .finite n b) : b.Standard := by
  obtain ⟨hpos, hdigits⟩ := digits_of_ofFloat h
  obtain ⟨hcanonical, hbounded⟩ := isDouble_digits x
  rw [hdigits] at hcanonical hbounded
  rw [Double.ofFloat_eq, hdigits] at h
  refine ⟨hpos, ?_, hbounded, ?_⟩
  · cases hcanonical
    assumption
  · injection h with _ hbinary
    rw [← hbinary]
    exact decide_eq_true_iff

theorem real_of_ofFloat (h : Double.ofFloat x = .finite n b) : real x = withSign (sign n) b.value := by
  obtain ⟨_, hdigits⟩ := digits_of_ofFloat h
  rw [real, hdigits]
  rfl

theorem digits_of_real_eq (h : b.Standard) (hy : y.isFinite = true) (heq : real y = b.value) :
    digits y = .finite .positive b.significand b.exponent h.pos := by
  obtain ⟨m, e, hm, fits, hdigits⟩ := digits_of_pos hy (heq ▸ h.value_pos)
  have hvalue : (m : ℚ) * 2 ^ e = b.significand * 2 ^ b.exponent := by
    rw [real, hdigits] at heq
    exact heq
  obtain ⟨hsignificand, hexponent⟩ := fits.unique h.fits hvalue
  rw [hdigits]
  exact finite_congr hsignificand hexponent

theorem eq_of_digits_eq (h : digits y = digits x) (hx : Double.ofFloat x = .finite n b) : y = x := by
  have hsame : Double.ofFloat y = Double.ofFloat x := by
    rw [Double.ofFloat_eq, Double.ofFloat_eq, h]
  exact Double.ofFloat_injective hsame (by rw [hsame, hx]; exact Double.noConfusion)

theorem digits_neg (y : Float) : digits (-y) = (digits y).neg := by
  obtain ⟨hcanonical, hbounded⟩ := isDouble_digits y
  change (Float.Model.pack (digits y).neg).unpack = _
  generalize digits y = u at hcanonical hbounded ⊢
  cases hcanonical with
  | notANumber => exact unpack_pack .notANumber
  | infinity s => exact unpack_pack (.infinity (-s))
  | zero s => exact unpack_pack (.zero (-s))
  | finite s hm fits => exact (unpack_pack (.finite (-s) hm fits)).trans (if_pos hbounded)

theorem real_neg (y : Float) : real (-y) = -real y := by
  rw [real, digits_neg, real]
  cases digits y with
  | notANumber => exact neg_zero.symm
  | zero s => exact neg_zero.symm
  | infinity s => cases s <;> [exact (neg_neg _).symm; rfl]
  | finite s m e hm => cases s <;> [exact (neg_neg _).symm; rfl]

theorem isFinite_neg (y : Float) : (-y).isFinite = y.isFinite := by
  change (digits (-y)).isFinite = (digits y).isFinite
  rw [digits_neg]
  cases digits y <;> rfl

theorem isNaN_neg (y : Float) : (-y).isNaN = y.isNaN := by
  change (digits (-y)).isNaN = (digits y).isNaN
  rw [digits_neg]
  cases digits y <;> rfl

/-- A double is told by its sign and what it stands for. -/
theorem eq_of_real_eq (hx : Double.ofFloat x = .finite n b) (hy : y.isFinite = true)
    (heq : real y = b.value) : (if n then -y else y) = x := by
  have hdigits := digits_of_real_eq (standard_of_ofFloat hx) hy heq
  obtain ⟨_, hdigits'⟩ := digits_of_ofFloat hx
  cases n with
  | false => exact eq_of_digits_eq (hdigits.trans hdigits'.symm) hx
  | true => exact eq_of_digits_eq ((digits_neg y).trans (hdigits ▸ hdigits'.symm)) hx

end HeroPage.Decimal
