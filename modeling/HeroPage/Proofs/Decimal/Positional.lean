import HeroPage.Proofs.Decimal.Literal
import HeroPage.Proofs.Decimal.Reread
set_option autoImplicit false

namespace HeroPage.Decimal

open Binary64

theorem isNearest_signed {z : Float} {q : ℚ} (n : Bool) (h : IsNearest z q) (hq : 0 ≤ q) :
    IsNearest (Json.signed n z) (withSign (sign n) q) := by
  have hnonneg := nearest_nonneg hq
  have hunsigned : clamp (nearest q) = min (nearest q) limit := clamp_withSign .positive hnonneg
  refine ⟨?_, ?_⟩
  · cases n with
    | false => exact h.isNaN
    | true => exact (isNaN_neg z).trans h.isNaN
  · rw [real_signed, h.real_eq, nearest_withSign, clamp_withSign _ hnonneg, hunsigned]

/-- A sign, the digits before the point and those after it. -/
structure Positional where
  negative : Bool
  whole : List Char
  fraction : List Char
  leading : Json.Leading whole
  digits : ∀ c ∈ fraction, c.isDigit = true

namespace Positional

def afterPoint : List Char → List Char
  | [] => []
  | c :: s => '.' :: c :: s

def characters (p : Positional) : List Char :=
  Layout.signed p.negative (p.whole ++ afterPoint p.fraction)

def text (p : Positional) : String := String.ofList p.characters

def significand (p : Positional) : ℕ := Json.value (p.whole ++ p.fraction)

def magnitude (p : Positional) : ℚ := p.significand / 10 ^ p.fraction.length

def number (p : Positional) : ℚ := withSign (sign p.negative) p.magnitude

def double (p : Positional) : Float :=
  Json.signed p.negative (Float.ofScientific p.significand true p.fraction.length)

/-- `x` is the double nearest to the number; of the two zeros, it is the one with the sign of the text. -/
structure Reads (p : Positional) (x : Float) : Prop where
  nearest : IsNearest x p.number
  double : p.double = x

theorem magnitude_nonneg (p : Positional) : 0 ≤ p.magnitude := div_nonneg (Nat.cast_nonneg _) (by positivity)

theorem reads_double (p : Positional) : p.Reads p.double :=
  ⟨isNearest_signed p.negative (isNearest_ofScientific _ _) p.magnitude_nonneg, rfl⟩

theorem noDigit_afterPoint (s : List Char) : Json.NoDigit (afterPoint s) := by
  cases s with
  | nil => exact fun _ hc => absurd hc (Option.not_mem_none _)
  | cons c s => exact Json.noDigit_cons (by decide) _

theorem afterPoint_injective {s s' : List Char} (h : afterPoint s = afterPoint s') : s = s' := by
  cases s with
  | nil =>
    cases s' with
    | nil => rfl
    | cons c' s' => cases h
  | cons c s =>
    cases s' with
    | nil => cases h
    | cons c' s' => exact (List.cons.inj h).2

/-- A digit is no sign, so a sign is told from the digits. -/
theorem signed_injective {n n' : Bool} {s s' r r' : List Char} (hs : Json.Leading s) (hs' : Json.Leading s')
    (h : Layout.signed n (s ++ r) = Layout.signed n' (s' ++ r')) : n = n' ∧ s ++ r = s' ++ r' := by
  obtain ⟨c, t, rfl, hc⟩ := hs.head
  obtain ⟨c', t', rfl, hc'⟩ := hs'.head
  cases n <;> cases n'
  · exact ⟨rfl, h⟩
  · exact absurd (List.cons.inj h).1 (Json.isDigit_ne hc).1
  · exact absurd (List.cons.inj h).1.symm (Json.isDigit_ne hc').1
  · exact ⟨rfl, (List.cons.inj h).2⟩

theorem characters_injective {p q : Positional} (h : p.characters = q.characters) : p = q := by
  obtain ⟨hsign, hrest⟩ := signed_injective p.leading q.leading h
  have htake := congrArg Json.takeDigits hrest
  have hdrop := congrArg Json.dropDigits hrest
  have hp := p.leading.isDigit
  have hq := q.leading.isDigit
  have hp' := noDigit_afterPoint p.fraction
  have hq' := noDigit_afterPoint q.fraction
  rw [Json.takeDigits_append hp hp', Json.takeDigits_append hq hq'] at htake
  rw [Json.dropDigits_append hp hp', Json.dropDigits_append hq hq'] at hdrop
  have hfraction := afterPoint_injective hdrop
  obtain ⟨n, w, f, hw, hf⟩ := p
  obtain ⟨n', w', f', hw', hf'⟩ := q
  cases hsign
  cases htake
  cases hfraction
  rfl

theorem mem_characters {p : Positional} {c : Char} (h : c ∈ p.characters) :
    c.isDigit = true ∨ c = '-' ∨ c = '.' := by
  have hunsigned : ∀ b ∈ p.whole ++ afterPoint p.fraction, b.isDigit = true ∨ b = '-' ∨ b = '.' := by
    intro b hb
    rcases List.mem_append.mp hb with hb | hb
    · exact .inl (p.leading.isDigit b hb)
    · have hdigits := p.digits
      generalize p.fraction = f at hb hdigits
      cases f with
      | nil => exact absurd hb List.not_mem_nil
      | cons c' s =>
        rcases List.mem_cons.mp hb with rfl | hb
        · exact .inr (.inr rfl)
        · exact .inl (hdigits b hb)
  rw [characters, Layout.signed] at h
  split at h
  · rcases List.mem_cons.mp h with rfl | h
    · exact .inr (.inl rfl)
    · exact hunsigned c h
  · exact hunsigned c h

end Positional

variable {x y : Float} {n : Bool} {b : Binary} {d : Digits} {p : Positional}

theorem Positional.double_eq (h : Double.ofFloat x = .finite p.negative b)
    (hnearest : nearest p.magnitude = b.value) : p.double = x := by
  have hstandard := standard_of_ofFloat h
  have hlt : nearest p.magnitude < limit := hnearest ▸ hstandard.fits.lt_limit hstandard.bounded
  have hnear : IsNearest (Float.ofScientific p.significand true p.fraction.length) p.magnitude :=
    isNearest_ofScientific _ _
  obtain ⟨hfinite, hreal⟩ := hnear.finite_of_lt_limit p.magnitude_nonneg hlt
  exact eq_of_real_eq h hfinite (hreal.trans hnearest)

theorem exists_positional_of_pos (n : Bool) (hpos : 0 < d.digits) :
    ∃ p : Positional, p.characters = Layout.signed n (d.inPlace plain.whole) ∧ p.negative = n ∧
      p.magnitude = d.digits * 10 ^ d.exponent := by
  rcases lt_or_ge d.exponent 0 with hneg | hnonneg
  · obtain ⟨w, f, htext, hleading, hfraction, hvalue, hlength⟩ := d.inPlace_fraction hpos hneg plain.whole
    obtain ⟨c, s, rfl⟩ := List.exists_cons_of_ne_nil hfraction.1
    refine ⟨⟨n, w, c :: s, hleading, hfraction.2⟩, congrArg (Layout.signed n) htext.symm, rfl, ?_⟩
    rw [Positional.magnitude, Positional.significand, hvalue, ← hlength, zpow_neg, zpow_natCast]
    exact div_eq_mul_inv _ _
  · obtain ⟨k, hk⟩ := Int.eq_ofNat_of_zero_le hnonneg
    have hleading : Json.Leading (numeral d.digits ++ List.replicate k '0') :=
      leading_numeral_append hpos fun _ => isDigit_of_mem_zeros
    refine ⟨⟨n, _, [], hleading, fun _ hc => absurd hc List.not_mem_nil⟩, ?_, rfl, ?_⟩
    · simp only [Digits.inPlace, hk]
      rfl
    · rw [Positional.magnitude, Positional.significand, List.append_nil, value_append_zeros, value_numeral, hk]
      simp

theorem ofFloat_double_zero (n : Bool) :
    Double.ofFloat (Json.signed n (Float.ofScientific (Json.value ['0']) true 0)) = .zero n := by
  cases n <;> decide +kernel

theorem exists_double_eq (h : x.isFinite = true) :
    ∃ p : Positional, p.characters = plain.characters (Double.ofFloat x) ∧ p.double = x := by
  rcases isFinite_iff_ofFloat.mp h with ⟨n, hx⟩ | ⟨n, b, hx⟩
  · refine ⟨⟨n, ['0'], [], .zero, fun _ hc => absurd hc List.not_mem_nil⟩, ?_, ?_⟩
    · rw [hx]
      rfl
    · have hzero := ofFloat_double_zero n
      exact Double.ofFloat_injective (hzero.trans hx.symm) (hzero ▸ Double.noConfusion)
  · have hstandard := standard_of_ofFloat hx
    have hfound := hstandard.found plain.tie
    obtain ⟨p, htext, rfl, hmagnitude⟩ := exists_positional_of_pos n hfound.pos
    refine ⟨p, ?_, p.double_eq hx ?_⟩
    · rw [htext, hx]
      rfl
    · rw [hmagnitude]
      exact hstandard.nearest_of_holds hfound.holds

theorem exists_positional (h : x.isFinite = true) :
    ∃ p : Positional, p.characters = plain.characters (Double.ofFloat x) ∧ p.Reads x := by
  obtain ⟨p, htext, rfl⟩ := exists_double_eq h
  exact ⟨p, htext, p.reads_double⟩

theorem characters_ne_infinite (p : Positional) (n : Bool) : p.characters ≠ plain.infinite n := by
  intro h
  have hmem : 'f' ∈ p.characters := by
    rw [h]
    cases n <;> decide
  rcases p.mem_characters hmem with h | h | h <;> exact absurd h (by decide)

theorem eq_of_characters_eq (hx : x.isNaN = false) (hy : y.isNaN = false)
    (h : plain.characters (Double.ofFloat x) = plain.characters (Double.ofFloat y)) : x = y := by
  rcases finite_or_infinite hx with hfx | ⟨s, hix⟩ <;> rcases finite_or_infinite hy with hfy | ⟨s', hiy⟩
  · obtain ⟨p, hp, hpx⟩ := exists_positional hfx
    obtain ⟨q, hq, hqy⟩ := exists_positional hfy
    rw [← hpx.double, ← hqy.double, Positional.characters_injective ((hp.trans h).trans hq.symm)]
  · obtain ⟨p, hp, -⟩ := exists_positional hfx
    rw [Double.ofFloat_eq y, hiy] at h
    exact absurd (hp.trans h) (characters_ne_infinite p _)
  · obtain ⟨q, hq, -⟩ := exists_positional hfy
    rw [Double.ofFloat_eq x, hix] at h
    exact absurd (hq.trans h.symm) (characters_ne_infinite q _)
  · have hsame : Double.ofFloat x = Double.ofFloat y := by
      rw [Double.ofFloat_eq x, Double.ofFloat_eq y, hix, hiy] at h ⊢
      cases s <;> cases s' <;> first | rfl | exact absurd h (by decide)
    refine Double.ofFloat_injective hsame ?_
    rw [Double.ofFloat_eq, hix]
    exact Double.noConfusion

end HeroPage.Decimal
