import HeroPage.Json.Scalar
import HeroPage.Proofs.Decimal.Spelled
import HeroPage.Proofs.Json.Fielded
import HeroPage.Proofs.Json.Scaling
set_option autoImplicit false

namespace HeroPage.Decimal

open Binary64
open Json (Scaled floatReader readFloat readNumber realNumber scaled? significandLimit)

/-- The sign, with the significand and the power of ten that stand in the text of a number. -/
def Double.spelled : Double → Option (Bool × Digits)
  | .nan => none
  | .infinite _ => none
  | .zero negative => some (negative, ⟨0, -1⟩)
  | .finite negative b => some (negative, (b.shortest json.tie).spelled)

/-- What a double is read as from its own text. -/
def reread? (x : Float) : Option Float :=
  match (Double.ofFloat x).spelled with
  | none => none
  | some (negative, d) => (scaled? d.digits d.exponent).map (Json.signed negative)

variable {x y z : Float} {n : Bool} {b : Binary} {d : Digits} {v : List Char}

/-- The greatest doubles. Scaling the digits of all others stays away from the limit. -/
def summit (m : ℕ) : Binary := ⟨m, 971, false⟩

theorem scaled?_summit : ∀ m ∈ [2 ^ 53 - 3, 2 ^ 53 - 2, 2 ^ 53 - 1],
    let d := ((summit m).shortest json.tie).spelled
    (scaled? d.digits d.exponent).isSome = true := by
  decide +kernel

namespace Binary.Standard

theorem eq_summit (h : b.Standard) (he : b.exponent = 971) (hm : 2 ^ 53 - 4 < b.significand) :
    b = summit b.significand := by
  have hnarrow : b.narrow = false := Bool.eq_false_iff.mpr fun hnarrow => by
    have := (h.narrow_iff.mp hnarrow).1
    omega
  obtain ⟨m, e, narrow⟩ := b
  cases he
  cases hnarrow
  rfl

theorem scaled_le_greatest (h : b.Standard) (hbelow : b.exponent = 971 → b.significand ≤ 2 ^ 53 - 4)
    (hfound : b.Found d) : (1 + unit) ^ 2 * (d.digits * 10 ^ d.exponent) ≤ greatest := by
  have hpow := two_zpow_pos 971
  have hhalf : ((b.significand : ℚ) + 1 / 2) * 2 ^ b.exponent ≤ (2 ^ 53 - 7 / 2) * 2 ^ (971 : ℤ) := by
    rcases h.bounded.eq_or_lt with he | hlt
    · have hm : (b.significand : ℚ) ≤ 2 ^ 53 - 4 := by
        have hnat : b.significand + 4 ≤ 2 ^ 53 := by have := hbelow he; omega
        have hcast : (b.significand : ℚ) + 4 ≤ 2 ^ 53 := by exact_mod_cast hnat
        linarith
      rw [he]
      exact mul_le_mul_of_nonneg_right (by linarith) hpow.le
    · have hm : (b.significand : ℚ) ≤ 2 ^ 53 := by exact_mod_cast h.fits.lt.le
      have hhalf : (2 : ℚ) ^ (970 : ℤ) = 2 ^ (971 : ℤ) / 2 := zpow_sub_one₀ two_ne_zero 971
      have hexponent : (2 : ℚ) ^ b.exponent ≤ 2 ^ (971 : ℤ) / 2 :=
        hhalf ▸ zpow_le_zpow_right₀ one_le_two (Int.le_sub_one_of_lt hlt)
      calc ((b.significand : ℚ) + 1 / 2) * 2 ^ b.exponent
          ≤ (2 ^ 53 + 1 / 2) * (2 ^ (971 : ℤ) / 2) :=
            mul_le_mul (by linarith) hexponent (two_zpow_pos _).le (by norm_num)
        _ = (2 ^ 53 + 1 / 2) / 2 * 2 ^ (971 : ℤ) := by ring
        _ ≤ (2 ^ 53 - 7 / 2) * 2 ^ (971 : ℤ) := mul_le_mul_of_nonneg_right (by norm_num) hpow.le
  calc (1 + unit) ^ 2 * (d.digits * 10 ^ d.exponent)
      ≤ (1 + unit) ^ 2 * ((2 ^ 53 - 7 / 2) * 2 ^ (971 : ℤ)) :=
        mul_le_mul_of_nonneg_left ((holds_le_half hfound.holds).trans hhalf) (sq_nonneg _)
    _ = (1 + unit) ^ 2 * (2 ^ 53 - 7 / 2) * 2 ^ (971 : ℤ) := (mul_assoc _ _ _).symm
    _ ≤ (2 ^ 53 - 1 : ℤ) * 2 ^ (971 : ℤ) :=
        mul_le_mul_of_nonneg_right (by norm_num [unit]) hpow.le

theorem scaled?_isSome (h : b.Standard) :
    (scaled? (b.shortest json.tie).spelled.digits (b.shortest json.tie).spelled.exponent).isSome = true := by
  by_cases htop : b.exponent = 971 ∧ 2 ^ 53 - 4 < b.significand
  · have hlt := h.fits.lt
    rw [h.eq_summit htop.1 htop.2]
    refine scaled?_summit b.significand ?_
    simp only [List.mem_cons, List.not_mem_nil, or_false]
    omega
  · have hfound := h.found json.tie
    generalize b.shortest json.tie = d at hfound ⊢
    rcases lt_or_ge d.spelled.exponent 0 with hneg | hnonneg
    · exact Json.scaled?_isSome_of_neg hneg
    · have hle := h.scaled_le_greatest (fun he => not_lt.mp fun hm => htop ⟨he, hm⟩) hfound
      have hhigh := hfound.spelled_exponent.2
      rw [← d.spelled_value] at hle
      obtain ⟨k, hk⟩ := Int.eq_ofNat_of_zero_le hnonneg
      rw [hk] at hle hhigh ⊢
      rw [zpow_natCast] at hle
      exact Json.scaled?_isSome_of_le hfound.spelled_pos hfound.spelled_le (by omega) hle

end Binary.Standard

/-- `y` comes back for `x`. -/
structure Reread (x y : Float) : Prop where
  reread : reread? x = some y
  finite : y.isFinite = true
  sign : 0 ≤ real x * real y
  near : |real y - real x| ≤ |real x| / 2 ^ 49 + 2 ^ (-1073 : ℤ)
  /-- Where the significand and the power that are spelled are doubles, nothing is lost. -/
  exact : ∀ n d, (Double.ofFloat x).spelled = some (n, d) → nearest d.digits = d.digits →
    d.exponent.natAbs ≤ 22 → y = x

theorem real_signed (n : Bool) (z : Float) : real (Json.signed n z) = withSign (sign n) (real z) := by
  cases n with
  | false => rfl
  | true => exact real_neg z

theorem isFinite_signed (n : Bool) (z : Float) : (Json.signed n z).isFinite = z.isFinite := by
  cases n with
  | false => rfl
  | true => exact isFinite_neg z

theorem ofFloat_scaled_zero (n : Bool) :
    ((scaled? 0 (-1)).map fun z => Double.ofFloat (Json.signed n z)) = some (.zero n) := by
  cases n <;> decide +kernel

theorem reread_zero (h : Double.ofFloat x = .zero n) : Reread x x := by
  have hfinite : x.isFinite = true := isFinite_iff_ofFloat.mpr (.inl ⟨n, h⟩)
  obtain ⟨z, hz, hzero⟩ := Option.map_eq_some_iff.mp (ofFloat_scaled_zero n)
  have hx : Json.signed n z = x :=
    Double.ofFloat_injective (hzero.trans h.symm) (hzero ▸ Double.noConfusion)
  refine ⟨?_, hfinite, mul_self_nonneg _, ?_, fun _ _ _ _ _ => rfl⟩
  · rw [reread?, h]
    dsimp only [Double.spelled]
    rw [hz, Option.map_some, hx]
  · rw [sub_self, abs_zero]
    exact add_nonneg (div_nonneg (abs_nonneg _) (by norm_num)) (two_zpow_pos _).le

theorem reread_finite (h : Double.ofFloat x = .finite n b) : ∃ y, Reread x y := by
  have hstandard := standard_of_ofFloat h
  have hfound := hstandard.found json.tie
  have hvalue := hstandard.value_pos
  have hreal := real_of_ofFloat h
  obtain ⟨z, hz⟩ := Option.isSome_iff_exists.mp hstandard.scaled?_isSome
  have hspelled : (Double.ofFloat x).spelled = some (n, (b.shortest json.tie).spelled) := by rw [h]; rfl
  generalize b.shortest json.tie = d at hfound hz hspelled
  have hnearest : nearest (d.spelled.digits * 10 ^ d.spelled.exponent) = b.value := by
    rw [d.spelled_value]
    exact hstandard.nearest_of_holds hfound.holds
  obtain ⟨hlow, hhigh⟩ := hfound.spelled_exponent
  have hnear := Json.scaled?_near hfound.spelled_pos hfound.spelled_le (by omega) hhigh hz
  refine ⟨Json.signed n z, ?_, ?_, ?_, ?_, ?_⟩
  · rw [reread?, hspelled]
    dsimp only
    rw [hz, Option.map_some]
  · exact (isFinite_signed n z).trans hnear.finite
  · rw [hreal, real_signed, withSign_mul_self]
    exact mul_nonneg hvalue.le hnear.nonneg
  · have hnonneg : (0 : ℚ) ≤ d.spelled.digits * 10 ^ d.spelled.exponent :=
      mul_nonneg (Nat.cast_nonneg _) (zpow_pos (by norm_num) _).le
    rw [hreal, real_signed, ← withSign_sub, abs_withSign, abs_withSign, abs_of_pos hvalue, ← hnearest]
    exact hnear.nearest hnonneg
  · intro n' d' hspelled' hdouble hexponent
    cases hspelled.symm.trans hspelled'
    obtain ⟨hlow', hhigh'⟩ : -22 ≤ d.spelled.exponent ∧ d.spelled.exponent ≤ 22 := by omega
    obtain ⟨z', hz', hfinite, hexact⟩ := Json.scaled?_exact hfound.spelled_le hdouble hlow' hhigh'
    have hsame : z = z' := Option.some.inj (hz.symm.trans hz')
    subst hsame
    exact eq_of_real_eq h hfinite (hexact.trans hnearest)

theorem isFinite_of_reread? (h : reread? x = some y) : x.isFinite = true := by
  rw [isFinite_iff_ofFloat]
  rw [reread?] at h
  cases hx : Double.ofFloat x with
  | nan => rw [hx] at h; cases h
  | infinite n => rw [hx] at h; cases h
  | zero n => exact .inl ⟨n, rfl⟩
  | finite n b => exact .inr ⟨n, b, rfl⟩

theorem exists_reread (h : x.isFinite = true) : ∃ y, Reread x y := by
  rcases isFinite_iff_ofFloat.mp h with ⟨n, hx⟩ | ⟨n, b, hx⟩
  · exact ⟨x, reread_zero hx⟩
  · exact reread_finite hx

theorem scaled_zero : Scaled ('0' :: json.whole) 0 (-1) := Scaled.fraction .zero digits_zero

theorem characters_of_spelled (h : (Double.ofFloat x).spelled = some (n, d)) :
    ∃ v, json.characters (Double.ofFloat x) = Layout.signed n v ∧ Scaled v d.digits d.exponent ∧
      d.digits ≤ significandLimit := by
  cases hx : Double.ofFloat x with
  | nan => rw [hx] at h; cases h
  | infinite n => rw [hx] at h; cases h
  | zero n' =>
    rw [hx] at h
    cases h
    exact ⟨_, rfl, scaled_zero, Nat.zero_le _⟩
  | finite n' b =>
    have hfound := (standard_of_ofFloat hx).found json.tie
    rw [hx] at h
    cases h
    exact ⟨_, rfl, hfound.scaled_text, hfound.spelled_le⟩

theorem gives_signed (n : Bool) (hv : Scaled v d.digits d.exponent) (hlimit : d.digits ≤ significandLimit) :
    floatReader.Gives (Layout.signed n v) ((scaled? d.digits d.exponent).map (Json.signed n)) := by
  intro r hr
  obtain ⟨c, t, rfl, hc⟩ := hv.head
  have hread : readNumber n (c :: (t ++ r)) = realNumber n d.digits d.exponent r :=
    Json.readNumber_append hv hlimit hr
  have hresult : (readFloat (Layout.signed n (c :: t) ++ r)).toOption =
      (readNumber n (c :: (t ++ r))).toOption.map fun x => (x.1.toFloat, x.2) := by
    cases n with
    | false =>
      change (readFloat (c :: (t ++ r))).toOption = _
      rw [readFloat, Json.skipBlank_cons (Json.isDigit_head hc).1]
      dsimp only
      rw [if_neg (Json.isDigit_ne hc).1, if_pos hc]
      cases readNumber false (c :: (t ++ r)) <;> rfl
    | true =>
      change (readFloat ('-' :: c :: (t ++ r))).toOption = _
      rw [readFloat, Json.skipBlank_cons rfl]
      dsimp only
      rw [if_pos rfl]
      cases readNumber true (c :: (t ++ r)) <;> rfl
  change (readFloat _).toOption = _
  rw [hresult, hread, realNumber]
  cases scaled? d.digits d.exponent <;> rfl

theorem gives_null : floatReader.Gives "null".toList none := fun _ _ => rfl

theorem gives_characters (x : Float) : floatReader.Gives (json.characters (Double.ofFloat x)) (reread? x) := by
  cases hspelled : (Double.ofFloat x).spelled with
  | some p =>
    obtain ⟨n, d⟩ := p
    obtain ⟨v, hcharacters, hv, hlimit⟩ := characters_of_spelled hspelled
    rw [hcharacters, reread?, hspelled]
    exact gives_signed n hv hlimit
  | none =>
    rw [reread?, hspelled]
    cases hx : Double.ofFloat x with
    | nan => exact gives_null
    | infinite n => exact gives_null
    | zero n => rw [hx] at hspelled; cases hspelled
    | finite n b => rw [hx] at hspelled; cases hspelled

end HeroPage.Decimal
