import HeroPage.Proofs.Binary64.Finite
set_option autoImplicit false

/-! A quotient reaches one exactly when it should (`one_le_div_iff`): two doubles in the wrong order are so far
apart that their quotient is no nearer to one than the double below it. -/

namespace HeroPage.Binary64

open Float.Model Float.Model.UnpackedFloat

variable {x y d : Float}

theorem digits_infinity_sub {s : Sign} (h : digits x = .infinity s) (hd : d.isFinite = true) :
    digits (x - d) = .infinity s := by
  change (digits d).isFinite = true at hd
  change (Float.Model.pack (UnpackedFloat.sub .binary64 (digits x) (digits d))).unpack = _
  rw [h]
  cases hdd : digits d with
  | notANumber => rw [hdd] at hd; cases hd
  | infinity s' => rw [hdd] at hd; cases hd
  | zero s' => exact unpack_pack (.infinity s)
  | finite s' m' e' h' => exact unpack_pack (.infinity s)

theorem withSign_neg (s : Sign) (q : ℚ) : withSign (-s) q = -withSign s q := by
  cases s with
  | positive => rfl
  | negative => exact (neg_neg q).symm

theorem real_of_isNaN (h : x.isNaN = true) : real x = 0 := by
  rw [real, digits_of_isNaN h]
  rfl

theorem isNaN_sub (h : d.isNaN = true) : (x - d).isNaN = true := by
  change (Float.Model.pack (UnpackedFloat.sub .binary64 (digits x) (digits d))).unpack.isNaN = true
  rw [digits_of_isNaN h]
  cases digits x <;> exact congrArg UnpackedFloat.isNaN (unpack_pack .notANumber)

/-- An infinity leaves nothing of a number but itself, the other way round, and of its like no number. -/
theorem sub_infinity {s : Sign} (h : digits d = .infinity s) (hx : x.isNaN = false) :
    digits x = .infinity s ∧ (x - d).isNaN = true ∨
      digits x ≠ .infinity s ∧ digits (x - d) = .infinity (-s) := by
  change (digits x).isNaN = false at hx
  change digits x = .infinity s ∧
      (Float.Model.pack (UnpackedFloat.sub .binary64 (digits x) (digits d))).unpack.isNaN = true ∨
    digits x ≠ .infinity s ∧
      (Float.Model.pack (UnpackedFloat.sub .binary64 (digits x) (digits d))).unpack = .infinity (-s)
  rw [h]
  generalize digits x = u at hx ⊢
  cases u with
  | notANumber => cases hx
  | zero s' => exact .inr ⟨UnpackedFloat.noConfusion, unpack_pack (.infinity (-s))⟩
  | finite s' m e hm => exact .inr ⟨UnpackedFloat.noConfusion, unpack_pack (.infinity (-s))⟩
  | infinity s' =>
    by_cases hs : s' = s
    · subst hs
      refine .inl ⟨rfl, ?_⟩
      cases s' <;> exact congrArg UnpackedFloat.isNaN (unpack_pack .notANumber)
    · refine .inr ⟨fun heq => hs (UnpackedFloat.infinity.inj heq), ?_⟩
      cases s <;> cases s' <;> first | exact absurd rfl hs | exact unpack_pack (.infinity _)

theorem map_le_map {f : Float → Float} (hkeeps : ∀ x s, digits x = .infinity s → digits (f x) = .infinity s)
    (hmono : ∀ x y, x.isFinite = true → y.isFinite = true → x ≤ y → f x ≤ f y) (h : x ≤ y) :
    f x ≤ f y := by
  obtain ⟨hx, hy, hle⟩ := le_iff.mp h
  rcases finite_or_infinite hx with hfx | ⟨s, hix⟩ <;>
    rcases finite_or_infinite hy with hfy | ⟨s', hiy⟩
  · exact hmono x y hfx hfy h
  · have hnan := (le_iff.mp (hmono x x hfx hfx (le_self hx))).1
    have hy' := hkeeps y s' hiy
    refine le_iff.mpr ⟨hnan, isNaN_of_infinity hy', ?_⟩
    rw [real_of_infinity hy']
    rw [real_of_infinity hiy] at hle
    cases s' with
    | positive => exact (abs_le.mp (abs_real_le hnan)).2
    | negative => exact absurd hle (abs_lt.mp (abs_real_lt hfx)).1.not_ge
  · have hnan := (le_iff.mp (hmono y y hfy hfy (le_self hy))).1
    have hx' := hkeeps x s hix
    refine le_iff.mpr ⟨isNaN_of_infinity hx', hnan, ?_⟩
    rw [real_of_infinity hx']
    rw [real_of_infinity hix] at hle
    cases s with
    | positive => exact absurd hle (abs_lt.mp (abs_real_lt hfy)).2.not_ge
    | negative => exact (abs_le.mp (abs_real_le hnan)).1
  · have hx' := hkeeps x s hix
    have hy' := hkeeps y s' hiy
    refine le_iff.mpr ⟨isNaN_of_infinity hx', isNaN_of_infinity hy', ?_⟩
    rw [real_of_infinity hx', real_of_infinity hy', ← real_of_infinity hix, ← real_of_infinity hiy]
    exact hle

theorem sub_le_sub_of_finite (hd : d.isFinite = true) (h : x ≤ y) : x - d ≤ y - d := by
  refine map_le_map (f := (· - d)) (fun _ _ hs => digits_infinity_sub hs hd) (fun x y hx hy hle => ?_) h
  have hreal := (le_iff.mp hle).2.2
  exact (isNearest_sub hx hd).le (isNearest_sub hy hd) (sub_le_sub_right hreal (real d))

/-- A smaller double falls short of a greater one by this part of it at least. -/
theorem Fits.gap {m m' : ℕ} {e e' : ℤ} (h : Fits m e) (h' : Fits m' e')
    (hlt : (m : ℚ) * 2 ^ e < m' * 2 ^ e') :
    (m : ℚ) * 2 ^ e ≤ (1 - 1 / 2 ^ 53) * (m' * 2 ^ e') := by
  rcases lt_trichotomy e e' with he | rfl | he
  · have hm : (m : ℚ) ≤ 2 ^ 53 - 1 := by
      have : (m : ℚ) + 1 ≤ 2 ^ 53 := by exact_mod_cast h.lt
      linarith
    have hm' : (2 : ℚ) ^ 52 ≤ m' := by
      have := h.least
      exact_mod_cast h'.leading.resolve_right (by omega)
    have hexp : (2 : ℚ) ^ (e + 1) ≤ 2 ^ e' := zpow_le_zpow_right₀ one_le_two (by omega)
    calc (m : ℚ) * 2 ^ e ≤ (2 ^ 53 - 1) * 2 ^ e := mul_le_mul_of_nonneg_right hm (two_zpow_pos e).le
      _ = (1 - 1 / 2 ^ 53) * (2 ^ 52 * 2 ^ (e + 1)) := by rw [zpow_add_one₀ two_ne_zero]; ring
      _ ≤ (1 - 1 / 2 ^ 53) * (m' * 2 ^ e') :=
        mul_le_mul_of_nonneg_left (mul_le_mul hm' hexp (two_zpow_pos _).le m'.cast_nonneg)
          (by norm_num)
  · have hq := two_zpow_pos e
    have hm : m < m' := by exact_mod_cast lt_of_mul_lt_mul_right hlt hq.le
    have hm1 : (m : ℚ) ≤ m' - 1 := by
      have : (m : ℚ) + 1 ≤ m' := by exact_mod_cast hm
      linarith
    have hm' : (m' : ℚ) ≤ 2 ^ 53 := by exact_mod_cast h'.lt.le
    rw [← mul_assoc]
    refine mul_le_mul_of_nonneg_right ?_ hq.le
    rw [sub_mul, one_mul, one_div_mul_eq_div]
    have : (m' : ℚ) / 2 ^ 53 ≤ 1 := (div_le_one (by positivity)).mpr hm'
    linarith
  · exact absurd hlt (h'.lt_of_exponent_lt h he).not_gt

theorem real_zero : real 0 = 0 := rfl

theorem isNaN_zero : (0 : Float).isNaN = false := rfl

theorem real_one : real 1 = 1 := by
  rw [real, digits_one, value, withSign]
  norm_num

theorem isNaN_one : (1 : Float).isNaN = false := rfl

theorem nearest_one : nearest 1 = 1 := by
  have h := nearest_eq_self (m := 1) (e := 0) (by norm_num) (by norm_num)
  simpa using h

theorem nearest_below_one : nearest (1 - 1 / 2 ^ 53) = 1 - 1 / 2 ^ 53 := by
  have h := nearest_eq_self (m := 2 ^ 53 - 1) (e := -53) (by norm_num) (by norm_num)
  have heq : ((2 ^ 53 - 1 : ℤ) : ℚ) * 2 ^ (-53 : ℤ) = 1 - 1 / 2 ^ 53 := by norm_num
  rwa [heq] at h

theorem one_lt_limit : 1 < limit := one_lt_zpow₀ one_lt_two (by decide)

theorem one_le_limit : 1 ≤ limit := one_lt_limit.le

theorem digits_of_isInf (h : x.isInf = true) (hpos : 0 < x) : digits x = .infinity .positive := by
  change (digits x).isInf = true at h
  have hreal := (lt_iff.mp hpos).2.2
  rw [real_zero, real] at hreal
  generalize digits x = u at h hreal ⊢
  cases u with
  | notANumber => cases h
  | zero s => cases h
  | finite s m e hm => cases h
  | infinity s =>
    cases s with
    | positive => rfl
    | negative => exact absurd hreal (neg_lt_zero.mpr limit_pos).not_gt

theorem one_lt_of_infinity (h : digits x = .infinity .positive) : 1 < x := by
  refine lt_iff.mpr ⟨isNaN_one, isNaN_of_infinity h, ?_⟩
  rw [real_one, real_of_infinity h]
  exact one_lt_limit

theorem le_of_infinity (hd : d.isNaN = false) (h : digits x = .infinity .positive) : d ≤ x := by
  refine le_iff.mpr ⟨hd, isNaN_of_infinity h, ?_⟩
  rw [real_of_infinity h]
  exact (abs_le.mp (abs_real_le hd)).2

theorem one_le_clamp_iff {q : ℚ} : 1 ≤ clamp q ↔ 1 ≤ q := by
  have := one_le_limit
  rw [clamp, le_max_iff, le_min_iff]
  constructor
  · rintro (h | ⟨h, -⟩)
    · linarith
    · exact h
  · exact fun h => .inr ⟨h, this⟩

theorem Canonical.gap {u : UnpackedFloat} (hu : Canonical u) (hfinite : u.isFinite = true) {m : ℕ}
    {e : ℤ} (h : 0 < m) (fits : Fits m e) (hlt : value u < m * 2 ^ e) :
    value u ≤ (1 - 1 / 2 ^ 53) * (m * 2 ^ e) := by
  have hright : (0 : ℚ) < (1 - 1 / 2 ^ 53) * (m * 2 ^ e) :=
    mul_pos (by norm_num) (magnitude_pos h e)
  cases hu with
  | notANumber => cases hfinite
  | infinity s => cases hfinite
  | zero s => exact hright.le
  | @finite s m' e' h' fits' =>
    cases s with
    | negative => exact (neg_lt_zero.mpr (magnitude_pos h' e')).le.trans hright.le
    | positive => exact fits'.gap fits hlt

theorem one_le_nearest_div_iff {u : UnpackedFloat} (hu : Canonical u) (hfinite : u.isFinite = true)
    {m : ℕ} {e : ℤ} (h : 0 < m) (fits : Fits m e) :
    1 ≤ nearest (value u / (m * 2 ^ e)) ↔ m * 2 ^ e ≤ value u := by
  have hpos := magnitude_pos h e
  constructor
  · contrapose!
    intro hlt
    calc nearest (value u / (m * 2 ^ e)) ≤ nearest (1 - 1 / 2 ^ 53) :=
          nearest_mono ((div_le_iff₀ hpos).mpr (hu.gap hfinite h fits hlt))
      _ = 1 - 1 / 2 ^ 53 := nearest_below_one
      _ < 1 := by norm_num
  · intro hle
    rw [← nearest_one]
    exact nearest_mono ((one_le_div hpos).mpr hle)

theorem digits_of_pos (hd : d.isFinite = true) (h : 0 < real d) :
    ∃ (m : ℕ) (e : ℤ) (hm : 0 < m), Fits m e ∧ digits d = .finite .positive m e hm := by
  change (digits d).isFinite = true at hd
  have hcanonical := (isDouble_digits d).canonical
  rw [real] at h
  generalize digits d = u at *
  cases hcanonical with
  | notANumber => cases hd
  | infinity s => cases hd
  | zero s => exact absurd h (lt_irrefl 0)
  | @finite s m e hm fits =>
    cases s with
    | negative => exact absurd h (neg_lt_zero.mpr (magnitude_pos hm e)).not_gt
    | positive => exact ⟨m, e, hm, fits, rfl⟩

section

variable {m : ℕ} {e : ℤ} {hm : 0 < m}

theorem div_eq (h : digits d = .finite .positive m e hm) :
    x / d = .ofModel (.pack (UnpackedFloat.div .binary64 (digits x) (.finite .positive m e hm))) := by
  rw [← h]
  rfl

theorem isNaN_div (h : digits d = .finite .positive m e hm) (hx : x.isNaN = true) :
    (x / d).isNaN = true := by
  rw [div_eq h, digits_of_isNaN hx]
  exact congrArg UnpackedFloat.isNaN (unpack_pack .notANumber)

theorem digits_infinity_div (h : digits d = .finite .positive m e hm) {s : Sign}
    (hx : digits x = .infinity s) : digits (x / d) = .infinity s := by
  rw [div_eq h, hx]
  cases s <;> exact unpack_pack (.infinity _)

theorem isNearest_div (h : digits d = .finite .positive m e hm) (hx : x.isFinite = true) :
    IsNearest (x / d) (real x / (m * 2 ^ e)) := by
  rw [div_eq h]
  exact (rounds_div (isDouble_digits x).canonical hx .positive hm).isNearest

end

theorem one_le_div_iff (hd : d.isFinite = true) (hpos : 0 < real d) : 1 ≤ x / d ↔ d ≤ x := by
  obtain ⟨m, e, hm, fits, hdigits⟩ := digits_of_pos hd hpos
  have hreal : real d = m * 2 ^ e := by rw [real, hdigits]; rfl
  rw [le_iff, le_iff, and_iff_right isNaN_one, and_iff_right (isNaN_of_isFinite hd), real_one]
  cases hx : x.isNaN with
  | true =>
    rw [isNaN_div hdigits hx]
    exact iff_of_false (fun h => Bool.noConfusion h.1) (fun h => Bool.noConfusion h.1)
  | false =>
    rcases finite_or_infinite hx with hfinite | ⟨s, hinfinite⟩
    · have hnear := isNearest_div hdigits hfinite
      rw [hnear.isNaN, hnear.real_eq, one_le_clamp_iff, hreal, real,
        one_le_nearest_div_iff (isDouble_digits x).canonical hfinite hm fits]
    · have hinfinite' := digits_infinity_div hdigits hinfinite
      have hlimit := one_le_limit
      have hle := (abs_le.mp (abs_real_le (isNaN_of_isFinite hd))).2
      rw [isNaN_of_infinity hinfinite', real_of_infinity hinfinite', real_of_infinity hinfinite]
      cases s with
      | positive => exact ⟨fun _ => ⟨rfl, hle⟩, fun _ => ⟨rfl, hlimit⟩⟩
      | negative =>
        simp only [withSign]
        constructor <;> rintro ⟨-, h⟩ <;> linarith

end HeroPage.Binary64
