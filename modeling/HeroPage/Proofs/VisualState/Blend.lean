import HeroPage.VisualState
import HeroPage.Proofs.Binary64.Share
set_option autoImplicit false

namespace HeroPage.VisualState

open Binary64

variable {a b d s t : Float}

theorem isFinite_mul_share (hd : d.isFinite = true) (ht : IsShare t) : (d * t).isFinite = true := by
  have hnear := isNearest_mul hd ht.isFinite
  rcases le_total 0 (real d) with h | h
  · exact isFinite_of_between isFinite_zero hd
      (hnear.le_of_real_le isFinite_zero (mul_nonneg h ht.real_nonneg))
      (hnear.le_of_le_real hd (mul_le_of_le_one_right h ht.real_le_one))
  · exact isFinite_of_between hd isFinite_zero
      (hnear.le_of_real_le hd (le_mul_of_le_one_right h ht.real_le_one))
      (hnear.le_of_le_real isFinite_zero (mul_nonpos_of_nonpos_of_nonneg h ht.real_nonneg))

theorem isNearest_mix (ha : a.isFinite = true) (hd : (b - a).isFinite = true) (ht : IsShare t) :
    IsNearest (mix a b t) (real a + nearest (real (b - a) * real t)) := by
  have hfinite := isFinite_mul_share hd ht
  rw [← (isNearest_mul hd ht.isFinite).real_of_isFinite hfinite]
  exact isNearest_add ha hfinite

theorem nearest_mul_le {p q r : ℚ} (hdouble : nearest q = q) (h : p ≤ q) (hq : 0 ≤ q) (hr : 0 ≤ r)
    (hr' : r ≤ 1) : nearest (p * r) ≤ q :=
  calc nearest (p * r) ≤ nearest q :=
        nearest_mono ((mul_le_mul_of_nonneg_right h hr).trans (mul_le_of_le_one_right hq hr'))
    _ = q := hdouble

/-- The way down is no longer than the start, and the way up no longer than its rounded complement. -/
theorem isShare_mix (ha : IsShare a) (hb : IsShare b) (ht : IsShare t) : IsShare (mix a b t) := by
  have hd := ha.isFinite_sub hb
  have hnear := isNearest_mix ha.isFinite hd ht
  have hway := (isNearest_sub hb.isFinite ha.isFinite).real_of_isFinite hd
  have hself := nearest_real ha.isFinite
  have hrest := ha.isNearest_complement.real_of_isFinite ha.complement.isFinite
  have hdown : -real (b - a) ≤ real a := by
    rw [hway, ← nearest_neg]
    exact (nearest_mono (by linarith [hb.real_nonneg])).trans_eq hself
  have hup : real (b - a) ≤ real (1 - a) := by
    rw [hway, hrest]
    exact nearest_mono (sub_le_sub_right hb.real_le_one _)
  have hdown' := nearest_mul_le hself hdown ha.real_nonneg ht.real_nonneg ht.real_le_one
  have hup' := nearest_mul_le (nearest_real ha.complement.isFinite) hup ha.complement.real_nonneg
    ht.real_nonneg ht.real_le_one
  rw [neg_mul, nearest_neg] at hdown'
  rw [hrest] at hup'
  refine ⟨hnear.le_of_real_le isFinite_zero (by rw [real_zero]; linarith), ?_⟩
  refine le_iff.mpr ⟨hnear.isNaN, isNaN_one, ?_⟩
  rw [hnear.real_eq, ← clamp_nearest_real isFinite_one, real_one, nearest_one]
  refine clamp_mono ?_
  calc nearest (real a + nearest (real (b - a) * real t))
      ≤ nearest (real a + nearest (1 - real a)) := nearest_mono (add_le_add_right hup' _)
    _ ≤ 1 := nearest_add_complement_le ha.real_nonneg ha.real_le_one

/-- The way from `a` to `b` does not overflow, and all of it leads to `b`. -/
structure Steady (a b : Float) : Prop where
  source : a.isFinite = true
  target : b.isFinite = true
  way : (b - a).isFinite = true
  lands : (mix a b 1 == b) = true

instance (a b : Float) : Decidable (Steady a b) :=
  decidable_of_iff
    (a.isFinite = true ∧ b.isFinite = true ∧ (b - a).isFinite = true ∧ (mix a b 1 == b) = true)
    ⟨fun ⟨ha, hb, hway, hlands⟩ => ⟨ha, hb, hway, hlands⟩,
      fun h => ⟨h.source, h.target, h.way, h.lands⟩⟩

/-- Both `x` and `y` lie between `a` and `b`, and `y` is no farther from `b` than `x`. -/
structure Onward (a b x y : Float) : Prop where
  rising : a ≤ b → a ≤ x ∧ x ≤ y ∧ y ≤ b
  falling : b ≤ a → b ≤ y ∧ y ≤ x ∧ x ≤ a

namespace Steady

theorem starts (h : Steady a b) : (mix a b 0 == a) = true := (add_mul_zero_beq_iff h.source).mpr h.way

theorem mix_le_mix (h : Steady a b) (hs : IsShare s) (ht : IsShare t)
    (hle : real (b - a) * real s ≤ real (b - a) * real t) : mix a b s ≤ mix a b t :=
  (isNearest_mix h.source h.way hs).le (isNearest_mix h.source h.way ht)
    (add_le_add_right (nearest_mono hle) (real a))

theorem mix_mono (h : Steady a b) (hab : a ≤ b) (hs : IsShare s) (ht : IsShare t) (hle : s ≤ t) :
    mix a b s ≤ mix a b t := by
  have hnonneg : 0 ≤ b - a := (isNearest_sub h.target h.source).le_of_real_le isFinite_zero
    (sub_nonneg.mpr (le_iff.mp hab).2.2)
  exact h.mix_le_mix hs ht (mul_le_mul_of_nonneg_left (le_iff.mp hle).2.2 (le_iff.mp hnonneg).2.2)

theorem mix_anti (h : Steady a b) (hba : b ≤ a) (hs : IsShare s) (ht : IsShare t) (hle : s ≤ t) :
    mix a b t ≤ mix a b s := by
  have hnonpos : b - a ≤ 0 := (isNearest_sub h.target h.source).le_of_le_real isFinite_zero
    (sub_nonpos.mpr (le_iff.mp hba).2.2)
  exact h.mix_le_mix ht hs (mul_le_mul_of_nonpos_left (le_iff.mp hle).2.2 (le_iff.mp hnonpos).2.2)

theorem onward (h : Steady a b) (hs : IsShare s) (ht : IsShare t) (hle : s ≤ t) :
    Onward a b (mix a b s) (mix a b t) where
  rising hab := ⟨le_chain (ge_of_beq h.starts) (h.mix_mono hab isShare_zero hs hs.nonneg),
    h.mix_mono hab hs ht hle,
    le_chain (h.mix_mono hab ht isShare_one ht.le_one) (le_of_beq h.lands)⟩
  falling hba := ⟨le_chain (ge_of_beq h.lands) (h.mix_anti hba ht isShare_one ht.le_one),
    h.mix_anti hba hs ht hle,
    le_chain (h.mix_anti hba isShare_zero hs hs.nonneg) (le_of_beq h.starts)⟩

theorem onward_self (h : Steady a b) : Onward a b b b where
  rising hab := ⟨hab, le_self (isNaN_of_isFinite h.target), le_self (isNaN_of_isFinite h.target)⟩
  falling hba := ⟨le_self (isNaN_of_isFinite h.target), le_self (isNaN_of_isFinite h.target), hba⟩

theorem onward_end (h : Steady a b) (hs : IsShare s) : Onward a b (mix a b s) b where
  rising hab := by
    obtain ⟨hlow, hstep, hhigh⟩ := (h.onward hs isShare_one hs.le_one).rising hab
    exact ⟨hlow, le_chain hstep hhigh, (h.onward_self.rising hab).2.2⟩
  falling hba := by
    obtain ⟨hlow, hstep, hhigh⟩ := (h.onward hs isShare_one hs.le_one).falling hba
    exact ⟨(h.onward_self.falling hba).1, le_chain hlow hstep, hhigh⟩

end Steady

end HeroPage.VisualState
