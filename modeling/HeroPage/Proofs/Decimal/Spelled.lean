import HeroPage.Decimal.Layout
import HeroPage.Proofs.Decimal.Found
import HeroPage.Proofs.Json.Numerals
set_option autoImplicit false

namespace HeroPage.Decimal

open Json (Leading Scaled value)

theorem value_numeral (n : ℕ) : value (numeral n) = n := Nat.ofDigitChars_ten_toDigits

theorem lt_ten_pow_length (n : ℕ) : n < 10 ^ (numeral n).length :=
  (Nat.length_toDigits_le_iff (by decide) Nat.length_toDigits_pos).mp le_rfl

theorem digitChar_ne_zero : ∀ n < 10, 0 < n → n.digitChar ≠ '0' := by decide

theorem isDigit_numeral {n : ℕ} {c : Char} (h : c ∈ numeral n) : c.isDigit = true :=
  Nat.isDigit_of_mem_toDigits (by decide) (by decide) h

theorem numeral_head {n : ℕ} (h : 0 < n) : ∃ c t, numeral n = c :: t ∧ c ≠ '0' := by
  induction n using Nat.strong_induction_on with
  | _ n ih =>
    rcases lt_or_ge n 10 with hlt | hge
    · exact ⟨_, [], Nat.toDigits_of_lt_base hlt, digitChar_ne_zero n hlt h⟩
    · obtain ⟨c, t, hct, hc⟩ := ih (n / 10) (Nat.div_lt_self h (by decide)) (Nat.div_pos hge (by decide))
      refine ⟨c, t ++ [(n % 10).digitChar], ?_, hc⟩
      rw [numeral] at hct ⊢
      rw [Nat.toDigits_of_base_le (by decide) hge, hct, List.cons_append]

theorem leading_numeral_append {n : ℕ} (h : 0 < n) {z : List Char} (hz : ∀ c ∈ z, c.isDigit = true) :
    Leading (numeral n ++ z) := by
  obtain ⟨c, t, hct, hc⟩ := numeral_head h
  have hall : ∀ d ∈ numeral n ++ z, d.isDigit = true := fun d hd =>
    (List.mem_append.mp hd).elim isDigit_numeral (hz d)
  rw [hct, List.cons_append] at hall ⊢
  exact .digits (hall c List.mem_cons_self) hc fun d hd => hall d (List.mem_cons_of_mem c hd)

theorem isDigit_of_mem_zeros {k : ℕ} {c : Char} (h : c ∈ List.replicate k '0') : c.isDigit = true := by
  rw [List.eq_of_mem_replicate h]
  decide

theorem digits_zero : Json.Digits ['0'] := ⟨List.cons_ne_nil _ _, List.forall_mem_singleton.mpr rfl⟩

theorem value_append_zeros (d : List Char) (k : ℕ) : value (d ++ List.replicate k '0') = value d * 10 ^ k := by
  rw [value, Nat.ofDigitChars_append, Nat.ofDigitChars_replicate_zero, Nat.mul_comm]
  rfl

theorem value_zeros_append (d : List Char) (k : ℕ) : value (List.replicate k '0' ++ d) = value d := by
  rw [value, Nat.ofDigitChars_append, Nat.ofDigitChars_replicate_zero, Nat.mul_zero]
  rfl

namespace Digits

/-- The significand and the power that the text of a number stands for. -/
def spelled (d : Digits) : Digits :=
  if json.inPlace d.leading ∧ 0 ≤ d.exponent then ⟨d.digits * 10 ^ (d.exponent.toNat + 1), -1⟩ else d

def text (d : Digits) : List Char :=
  if json.inPlace d.leading then d.inPlace json.whole else d.withExponent

variable {d : Digits}

theorem spelled_value (d : Digits) :
    (d.spelled.digits : ℚ) * 10 ^ d.spelled.exponent = d.digits * 10 ^ d.exponent := by
  unfold spelled
  split
  · next h =>
    obtain ⟨k, hk⟩ := Int.eq_ofNat_of_zero_le h.2
    dsimp only
    rw [hk, Int.toNat_natCast, zpow_natCast, zpow_neg_one, pow_succ]
    push_cast
    ring
  · rfl

theorem scaled_whole (hpos : 0 < d.digits) (h : 0 ≤ d.exponent) :
    Scaled (d.inPlace json.whole) (d.digits * 10 ^ (d.exponent.toNat + 1)) (-1) := by
  have hscaled := Scaled.fraction
    (leading_numeral_append hpos (z := List.replicate d.exponent.toNat '0') fun _ => isDigit_of_mem_zeros)
    (show Json.Digits (List.replicate 1 '0') from digits_zero)
  rw [value_append_zeros, value_append_zeros, value_numeral, Nat.mul_assoc, ← Nat.pow_add] at hscaled
  simp only [inPlace, if_pos h]
  exact hscaled

theorem inPlace_fraction (hpos : 0 < d.digits) (h : d.exponent < 0) (u : List Char) :
    ∃ w f, d.inPlace u = w ++ '.' :: f ∧ Leading w ∧ Json.Digits f ∧ value (w ++ f) = d.digits ∧
      -(f.length : ℤ) = d.exponent := by
  obtain ⟨c, t, hct, hc⟩ := numeral_head hpos
  have hall : ∀ b ∈ numeral d.digits, b.isDigit = true := fun _ => isDigit_numeral
  have hvalue := value_numeral d.digits
  simp only [inPlace, if_neg h.not_ge]
  generalize numeral d.digits = ds at hct hall hvalue ⊢
  split
  · next hpoint =>
    obtain ⟨k, hk⟩ : ∃ k : ℕ, (ds.length : ℤ) + d.exponent = (k + 1 : ℕ) :=
      ⟨((ds.length : ℤ) + d.exponent - 1).toNat, by omega⟩
    have hleading : Leading (ds.take (k + 1)) := by
      rw [hct] at hall ⊢
      exact .digits (hall c List.mem_cons_self) hc fun b hb =>
        hall b (List.mem_cons_of_mem c (List.mem_of_mem_take hb))
    have hfraction : Json.Digits (ds.drop (k + 1)) := by
      refine ⟨fun hnil => ?_, fun b hb => hall b (List.mem_of_mem_drop hb)⟩
      rw [List.drop_eq_nil_iff] at hnil
      omega
    rw [hk, Int.toNat_natCast]
    refine ⟨_, _, rfl, hleading, hfraction, ?_, ?_⟩
    · rw [List.take_append_drop, hvalue]
    · rw [List.length_drop]
      omega
  · next hpoint =>
    generalize hk : (-(ds.length + d.exponent)).toNat = k
    have hfraction : Json.Digits (List.replicate k '0' ++ ds) := by
      refine ⟨?_, fun b hb => (List.mem_append.mp hb).elim isDigit_of_mem_zeros (hall b)⟩
      rw [hct]
      exact List.append_ne_nil_of_right_ne_nil _ (List.cons_ne_nil c t)
    refine ⟨['0'], _, rfl, .zero, hfraction, (value_zeros_append ds (k + 1)).trans hvalue, ?_⟩
    rw [List.length_append, List.length_replicate]
    omega

theorem scaled_fraction (hpos : 0 < d.digits) (h : d.exponent < 0) :
    Scaled (d.inPlace json.whole) d.digits d.exponent := by
  obtain ⟨w, f, htext, hleading, hfraction, hvalue, hlength⟩ := inPlace_fraction hpos h json.whole
  rw [htext, ← hvalue, ← hlength]
  exact Scaled.fraction hleading hfraction

theorem scaled_withExponent (hpos : 0 < d.digits) (he : d.leading.natAbs ≤ Json.exponentLimit) :
    Scaled d.withExponent d.digits d.exponent := by
  obtain ⟨c, t, hct, hc⟩ := numeral_head hpos
  have hall : ∀ b ∈ numeral d.digits, b.isDigit = true := fun _ => isDigit_numeral
  have hvalue := value_numeral d.digits
  have hlength : d.leading = (numeral d.digits).length + d.exponent - 1 := rfl
  rw [withExponent]
  rw [hct] at hall hvalue hlength ⊢
  have hleading : Leading [c] := .digits (hall c List.mem_cons_self) hc fun _ hb => absurd hb List.not_mem_nil
  cases t with
  | nil =>
    have hscaled := Scaled.power hleading he
    have hpower : d.leading = d.exponent := by rw [hlength, List.length_singleton]; omega
    rw [hvalue] at hscaled
    exact hpower ▸ hscaled
  | cons c' t =>
    have hfraction : Json.Digits (c' :: t) :=
      ⟨List.cons_ne_nil c' t, fun b hb => hall b (List.mem_cons_of_mem c hb)⟩
    have hscaled := Scaled.fractionPower hleading hfraction he
    have hpower : -((c' :: t).length : ℤ) + d.leading = d.exponent := by
      rw [hlength]
      simp only [List.length_cons]
      omega
    rw [List.singleton_append, List.singleton_append, hvalue, hpower] at hscaled
    exact hscaled

theorem scaled_text (hpos : 0 < d.digits) (he : d.leading.natAbs ≤ Json.exponentLimit) :
    Scaled d.text d.spelled.digits d.spelled.exponent := by
  unfold text spelled
  by_cases hplace : json.inPlace d.leading = true
  · rw [if_pos hplace]
    by_cases hwhole : 0 ≤ d.exponent
    · rw [if_pos ⟨hplace, hwhole⟩]
      exact scaled_whole hpos hwhole
    · rw [if_neg fun h => hwhole h.2]
      exact scaled_fraction hpos (not_le.mp hwhole)
  · rw [if_neg hplace, if_neg fun h => hplace h.1]
    exact scaled_withExponent hpos he

end Digits

namespace Binary.Found

variable {b : Binary} {d : Digits}

theorem length_le (h : b.Found d) : (numeral d.digits).length ≤ 20 :=
  (Nat.length_toDigits_le_iff (by decide) (by decide)).mpr (h.digits_le.trans_lt (by decide))

theorem leading_le (h : b.Found d) : d.leading.natAbs ≤ Json.exponentLimit := by
  have hlength := h.length_le
  have hlow := h.exponent_ge
  have hhigh := h.exponent_le
  have hlimit : 1000 ≤ Json.exponentLimit := by decide
  unfold Digits.leading
  omega

theorem spelled_pos (h : b.Found d) : 0 < d.spelled.digits := by
  unfold Digits.spelled
  split
  · exact Nat.mul_pos h.pos (Nat.pow_pos (by decide))
  · exact h.pos

/-- In place there are at most sixteen digits before the point, and one zero behind it. -/
theorem spelled_le (h : b.Found d) : d.spelled.digits ≤ Json.significandLimit := by
  unfold Digits.spelled
  split
  · next hwhole =>
    obtain ⟨hplace, hnonneg⟩ := hwhole
    have hleading : d.leading < 16 := (decide_eq_true_iff.mp hplace).2
    have hplaces : (numeral d.digits).length + (d.exponent.toNat + 1) ≤ 17 := by
      unfold Digits.leading at hleading
      omega
    calc d.digits * 10 ^ (d.exponent.toNat + 1)
        ≤ 10 ^ (numeral d.digits).length * 10 ^ (d.exponent.toNat + 1) :=
          Nat.mul_le_mul_right _ (lt_ten_pow_length _).le
      _ = 10 ^ ((numeral d.digits).length + (d.exponent.toNat + 1)) := (Nat.pow_add _ _ _).symm
      _ ≤ 10 ^ 17 := Nat.pow_le_pow_right (by decide) hplaces
      _ ≤ Json.significandLimit := by decide
  · exact h.digits_le.trans (by decide)

theorem spelled_exponent (h : b.Found d) : -342 ≤ d.spelled.exponent ∧ d.spelled.exponent ≤ 308 := by
  unfold Digits.spelled
  split
  · exact ⟨show -342 ≤ (-1 : ℤ) by decide, show (-1 : ℤ) ≤ 308 by decide⟩
  · exact ⟨h.exponent_ge, h.exponent_le⟩

theorem scaled_text (h : b.Found d) : Scaled d.text d.spelled.digits d.spelled.exponent :=
  Digits.scaled_text h.pos h.leading_le

end Binary.Found

end HeroPage.Decimal
