import HeroPage.Proofs.Binary64.Error
import HeroPage.Proofs.Binary64.Product
set_option autoImplicit false

namespace HeroPage.Binary64

variable {x y z d : Float} {q : ℚ}

theorem isNearest_real (h : x.isFinite = true) : IsNearest x (real x) :=
  ⟨isNaN_of_isFinite h, (clamp_nearest_real h).symm⟩

theorem nearest_real (h : x.isFinite = true) : nearest (real x) = real x :=
  ((isNearest_real h).real_of_isFinite h).symm

theorem IsNearest.le_of_le_real (h : IsNearest z q) (hx : x.isFinite = true) (hle : q ≤ real x) : z ≤ x :=
  h.le (isNearest_real hx) hle

theorem IsNearest.le_of_real_le (h : IsNearest z q) (hx : x.isFinite = true) (hle : real x ≤ q) : x ≤ z :=
  (isNearest_real hx).le h hle

theorem isFinite_of_between (hx : x.isFinite = true) (hy : y.isFinite = true) (h : x ≤ z) (h' : z ≤ y) :
    z.isFinite = true := by
  obtain ⟨-, hz, hlow⟩ := le_iff.mp h
  have hhigh := (le_iff.mp h').2.2
  exact isFinite_of_abs_real_lt hz (abs_lt.mpr ⟨(abs_lt.mp (abs_real_lt hx)).1.trans_le hlow,
    hhigh.trans_lt (abs_lt.mp (abs_real_lt hy)).2⟩)

theorem div_le_div_of_pos (hd : d.isFinite = true) (hpos : 0 < real d) (h : x ≤ y) : x / d ≤ y / d := by
  obtain ⟨m, e, hm, -, hdigits⟩ := digits_of_pos hd hpos
  refine map_le_map (f := (· / d)) (fun _ _ hs => digits_infinity_div hdigits hs) (fun x y hx hy hle => ?_) h
  have hreal := (le_iff.mp hle).2.2
  exact (isNearest_div_of_pos hx hd hpos).le (isNearest_div_of_pos hy hd hpos)
    (div_le_div_of_nonneg_right hreal hpos.le)

theorem le_of_beq (h : (x == y) = true) : x ≤ y := by
  obtain ⟨hx, hy, heq⟩ := beq_iff.mp h
  exact le_iff.mpr ⟨hx, hy, heq.le⟩

theorem ge_of_beq (h : (x == y) = true) : y ≤ x := by
  obtain ⟨hx, hy, heq⟩ := beq_iff.mp h
  exact le_iff.mpr ⟨hy, hx, heq.ge⟩

theorem isFinite_zero : (0 : Float).isFinite = true := rfl

theorem isFinite_one : (1 : Float).isFinite = true := rfl

theorem real_neg_one : real (-1) = -1 := by
  have hdigits : digits (-1) = .finite .negative (2 ^ 52) (-52) (by decide) := rfl
  rw [real, hdigits, value, withSign]
  norm_num

/-- A double from zero to one. -/
structure IsShare (x : Float) : Prop where
  nonneg : 0 ≤ x
  le_one : x ≤ 1

theorem isShare_zero : IsShare 0 := ⟨le_self isNaN_zero, by decide +kernel⟩

theorem isShare_one : IsShare 1 := ⟨by decide +kernel, le_self isNaN_one⟩

theorem IsNearest.isShare (h : IsNearest z q) (h₀ : 0 ≤ q) (h₁ : q ≤ 1) : IsShare z :=
  ⟨h.le_of_real_le isFinite_zero (real_zero ▸ h₀), h.le_of_le_real isFinite_one (real_one ▸ h₁)⟩

namespace IsShare

theorem isFinite (h : IsShare x) : x.isFinite = true :=
  isFinite_of_between isFinite_zero isFinite_one h.nonneg h.le_one

theorem real_nonneg (h : IsShare x) : 0 ≤ real x := (le_iff.mp h.nonneg).2.2

theorem real_le_one (h : IsShare x) : real x ≤ 1 := real_one ▸ (le_iff.mp h.le_one).2.2

theorem mul (h : IsShare x) (h' : IsShare y) : IsShare (x * y) :=
  (isNearest_mul h.isFinite h'.isFinite).isShare (mul_nonneg h.real_nonneg h'.real_nonneg)
    (mul_le_one₀ h.real_le_one h'.real_nonneg h'.real_le_one)

theorem mul_mono {x' y' : Float} (hx : IsShare x) (hy : IsShare y) (hx' : IsShare x') (hy' : IsShare y')
    (h : x ≤ x') (h' : y ≤ y') : x * y ≤ x' * y' :=
  (isNearest_mul hx.isFinite hy.isFinite).le (isNearest_mul hx'.isFinite hy'.isFinite)
    (mul_le_mul (le_iff.mp h).2.2 (le_iff.mp h').2.2 hy.real_nonneg hx'.real_nonneg)

theorem isNearest_complement (h : IsShare x) : IsNearest (1 - x) (1 - real x) :=
  real_one ▸ isNearest_sub isFinite_one h.isFinite

theorem complement (h : IsShare x) : IsShare (1 - x) :=
  h.isNearest_complement.isShare (sub_nonneg.mpr h.real_le_one) (sub_le_self 1 h.real_nonneg)

theorem complement_le (hx : IsShare x) (hy : IsShare y) (h : x ≤ y) : 1 - y ≤ 1 - x :=
  hy.isNearest_complement.le hx.isNearest_complement (sub_le_sub_left (le_iff.mp h).2.2 1)

theorem isFinite_sub (hx : IsShare x) (hy : IsShare y) : (y - x).isFinite = true := by
  have hnear := isNearest_sub hy.isFinite hx.isFinite
  have hlow : real (-1) ≤ real y - real x := by
    rw [real_neg_one]
    linarith [hx.real_le_one, hy.real_nonneg]
  have hhigh : real y - real x ≤ real 1 := by
    rw [real_one]
    linarith [hx.real_nonneg, hy.real_le_one]
  have hfinite : (-1 : Float).isFinite = true := rfl
  exact isFinite_of_between hfinite isFinite_one (hnear.le_of_real_le hfinite hlow)
    (hnear.le_of_le_real isFinite_one hhigh)

end IsShare

theorem nearest_just_above_one : nearest (1 + 1 / 2 ^ 54) = 1 := by
  have hround : roundEven (2 ^ 52 + 1 / 4) = 2 ^ 52 :=
    roundEven_eq (by norm_num) (.inl (by norm_num))
  have h := nearest_mul_zpow (t := 2 ^ 52 + 1 / 4) (e := -52) (by norm_num) (by norm_num)
    (.inl (by norm_num)) (by norm_num) hround
  norm_num at h ⊢
  exact h

/-- Below one, half a quantum is at most half of what separates one from the double below it. -/
theorem abs_nearest_sub_le_of_lt_one {x : ℚ} (h₀ : 0 ≤ x) (h₁ : x < 1) :
    |nearest x - x| ≤ 1 / 2 ^ 54 := by
  rcases h₀.eq_or_lt with rfl | hpos
  · rw [nearest_zero, sub_zero, abs_zero]
    positivity
  · have hexponent : exponent x ≤ -53 := by
      refine exponent_le (by decide) hpos.ne' ?_
      rw [abs_of_pos hpos]
      exact h₁
    calc |nearest x - x| ≤ 2 ^ exponent x / 2 := abs_nearest_sub_le_quantum x
      _ ≤ 2 ^ (-53 : ℤ) / 2 :=
        div_le_div_of_nonneg_right (zpow_le_zpow_right₀ one_le_two hexponent) zero_le_two
      _ = 1 / 2 ^ 54 := by norm_num

theorem nearest_add_complement_le (h₀ : 0 ≤ q) (h₁ : q ≤ 1) : nearest (q + nearest (1 - q)) ≤ 1 := by
  rcases h₀.eq_or_lt with rfl | hpos
  · rw [zero_add, sub_zero, nearest_one, nearest_one]
  · have herror := (abs_le.mp (abs_nearest_sub_le_of_lt_one (sub_nonneg.mpr h₁) (by linarith))).2
    calc nearest (q + nearest (1 - q)) ≤ nearest (1 + 1 / 2 ^ 54) := nearest_mono (by linarith)
      _ = 1 := nearest_just_above_one

end HeroPage.Binary64
