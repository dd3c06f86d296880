import HeroPage.Controller
import HeroPage.Proofs.Binary64.Window
import HeroPage.Proofs.Easing.Curve
set_option autoImplicit false

/-! A frame compares the time with the total, which is rounded once, and a sample compares a rounded quotient
with one. Both agree exactly if the total, less the delay, is no less than the duration
(`full_from_total_iff`); where rounding the total loses part of the duration, a sample is not at the end. -/

namespace HeroPage

open Binary64

namespace VisualState

/-- `p` relates the states component by component. -/
structure Each (p : Float → Float → Prop) (a b : VisualState) : Prop where
  opacity : p a.opacity b.opacity
  offsetY : p a.offsetY b.offsetY
  rotationDeg : p a.rotationDeg b.rotationDeg

instance (p : Float → Float → Prop) [DecidableRel p] (a b : VisualState) : Decidable (Each p a b) :=
  decidable_of_iff (p a.opacity b.opacity ∧ p a.offsetY b.offsetY ∧ p a.rotationDeg b.rotationDeg)
    ⟨fun ⟨h, h', h''⟩ => ⟨h, h', h''⟩, fun h => ⟨h.opacity, h.offsetY, h.rotationDeg⟩⟩

/-- Equal as numbers, so the sign of a zero does not count. -/
def Equal (a b : VisualState) : Prop := Each (fun x y => (x == y) = true) a b

def Finite (s : VisualState) : Prop := Each (fun x _ => x.isFinite = true) s s

/-- No component overflows on the way from one state to the other. -/
def Spans (a b : VisualState) : Prop := Each (fun x y => (y - x).isFinite = true) a b

instance (a b : VisualState) : Decidable (a.Equal b) := inferInstanceAs (Decidable (Each _ a b))

instance (s : VisualState) : Decidable s.Finite := inferInstanceAs (Decidable (Each _ s s))

theorem blend_zero_equal_iff {a b : VisualState} (ha : a.Finite) :
    (a.blend b 0).Equal a ↔ a.Spans b := by
  constructor
  · intro h
    exact ⟨(add_mul_zero_beq_iff ha.opacity).mp h.opacity,
      (add_mul_zero_beq_iff ha.offsetY).mp h.offsetY,
      (add_mul_zero_beq_iff ha.rotationDeg).mp h.rotationDeg⟩
  · intro h
    exact ⟨(add_mul_zero_beq_iff ha.opacity).mpr h.opacity,
      (add_mul_zero_beq_iff ha.offsetY).mpr h.offsetY,
      (add_mul_zero_beq_iff ha.rotationDeg).mpr h.rotationDeg⟩

end VisualState

theorem not_one_le_zero : ¬(1 : Float) ≤ 0 := by decide +kernel

theorem one_le_clampUnit_iff (x : Float) : 1 ≤ clampUnit x ↔ 1 ≤ x := by
  unfold clampUnit
  split
  · next hneg =>
    refine iff_of_false not_one_le_zero ?_
    rw [lt_iff, real_zero] at hneg
    rw [le_iff, real_one]
    rintro ⟨-, -, h⟩
    linarith [hneg.2.2]
  · split
    · next hlarge =>
      rw [lt_iff] at hlarge
      exact iff_of_true (le_self isNaN_one)
        (le_iff.mpr ⟨hlarge.1, hlarge.2.1, hlarge.2.2.le⟩)
    · rfl

theorem usableTime_iff (x : Float) : usableTime x = true ↔ x.isFinite = true ∧ 0 ≤ real x := by
  rw [usableTime, Bool.and_eq_true, Bool.not_eq_true', decide_eq_false_iff_not]
  refine and_congr_right fun hfinite => ?_
  rw [lt_iff, real_zero, and_iff_right (isNaN_of_isFinite hfinite), and_iff_right isNaN_zero, not_lt]

namespace Transition

/-- What is checked of a transition, as facts about its times. -/
structure Timely (t : Transition) : Prop where
  duration : t.duration.isFinite = true
  duration_nonneg : 0 ≤ real t.duration
  delay : t.delay.isFinite = true
  delay_nonneg : 0 ≤ real t.delay

variable {t : Transition} {e : Float}

theorem timely (h : t.validate = .ok ()) : t.Timely := by
  obtain ⟨hduration, hdelay⟩ := t.validate_eq_ok_iff.mp h
  obtain ⟨hfinite, hnonneg⟩ := (usableTime_iff _).mp hduration
  obtain ⟨hfinite', hnonneg'⟩ := (usableTime_iff _).mp hdelay
  exact ⟨hfinite, hnonneg, hfinite', hnonneg'⟩

theorem sample_of_full (h : 1 ≤ t.progress e) : t.sample e = t.target := by
  simp only [sample]
  exact if_pos h

theorem progress_of_early (h : e.isNaN = true ∨ e < t.delay) : t.progress e = 0 := by
  rw [progress, if_pos]
  simpa using h

theorem progress_of_begun (h : t.delay ≤ e) :
    t.progress e = if t.duration ≤ 0 then 1 else clampUnit ((e - t.delay) / t.duration) := by
  obtain ⟨hdelay, hnan, -⟩ := le_iff.mp h
  have hbegun : ¬((e.isNaN || decide (e < t.delay)) = true) := by
    rw [hnan, Bool.false_or, decide_eq_true_iff]
    exact (not_lt_iff hnan hdelay).mpr h
  rw [progress, if_neg hbegun]

theorem sample_before (h : e.isNaN = true ∨ e < t.delay) :
    t.sample e = t.source.blend t.target 0 := by
  simp only [sample, progress_of_early h]
  rw [if_neg not_one_le_zero, Easing.apply_zero]

namespace Timely

theorem delay_le_total (ht : t.Timely) : t.delay ≤ t.total := by
  have hnear := isNearest_add ht.delay ht.duration
  refine le_iff.mpr ⟨isNaN_of_isFinite ht.delay, hnear.isNaN, ?_⟩
  calc real t.delay = clamp (nearest (real t.delay)) := (clamp_nearest_real ht.delay).symm
    _ ≤ clamp (nearest (real t.delay + real t.duration)) :=
      clamp_mono (nearest_mono (le_add_of_nonneg_right ht.duration_nonneg))
    _ = real t.total := hnear.real_eq.symm

theorem nonneg_sub_delay (ht : t.Timely) (he : t.delay ≤ e) : 0 ≤ real (e - t.delay) := by
  have hle := (le_iff.mp (sub_le_sub_of_finite ht.delay he)).2.2
  have hself := (isNearest_sub ht.delay ht.delay).real_eq
  rw [sub_self, nearest_zero, clamp_zero] at hself
  exact hself ▸ hle

theorem duration_pos (ht : t.Timely) (h : ¬t.duration ≤ 0) : 0 < real t.duration := by
  rw [← real_zero]
  exact not_le.mp fun hle => h (le_iff.mpr ⟨isNaN_of_isFinite ht.duration, isNaN_zero, hle⟩)

theorem one_le_progress_iff (ht : t.Timely) (he : t.delay ≤ e) :
    1 ≤ t.progress e ↔ t.duration ≤ e - t.delay := by
  have hnan := (le_iff.mp (sub_le_sub_of_finite ht.delay he)).2.1
  rw [progress_of_begun he]
  split
  · next hnone =>
    refine iff_of_true (le_self isNaN_one) ?_
    have hle := (le_iff.mp hnone).2.2
    rw [real_zero] at hle
    exact le_iff.mpr ⟨isNaN_of_isFinite ht.duration, hnan, hle.trans (ht.nonneg_sub_delay he)⟩
  · next hsome => rw [one_le_clampUnit_iff, one_le_div_iff ht.duration (ht.duration_pos hsome)]

/-- From its total on, a transition is over for samples exactly if rounding the total has not lost
part of the duration. -/
theorem full_from_total_iff (ht : t.Timely) :
    (∀ e, t.total ≤ e → 1 ≤ t.progress e) ↔ t.duration ≤ t.total - t.delay := by
  have hdelay := ht.delay_le_total
  constructor
  · intro h
    exact (ht.one_le_progress_iff hdelay).mp (h t.total (le_self (le_iff.mp hdelay).2.1))
  · intro h e he
    exact (ht.one_le_progress_iff (le_chain hdelay he)).mpr
      (le_chain h (sub_le_sub_of_finite ht.delay he))

end Timely

theorem frame_eq_sample (h : ∀ e, t.total ≤ e → 1 ≤ t.progress e) (start now : Float)
    (shown : VisualState) :
    ((⟨t, .running start, shown⟩ : Controller).frame now).current =
      t.sample (Controller.elapsed start now) := by
  by_cases hover : t.total ≤ Controller.elapsed start now
  · rw [sample_of_full (h _ hover)]
    simp [Controller.frame, hover]
  · simp [Controller.frame, hover]

theorem sample_ends (h : t.validate = .ok ()) (hsource : t.source.Finite) :
    (∀ e, e.isNaN = true ∨ e < t.delay →
      ((t.sample e).Equal t.source ↔ t.source.Spans t.target)) ∧
    ((∀ e, t.total ≤ e → 1 ≤ t.progress e) ↔ t.duration ≤ t.total - t.delay) ∧
    (t.duration ≤ t.total - t.delay → (∀ e, t.total ≤ e → t.sample e = t.target) ∧
      ∀ start now shown, ((⟨t, .running start, shown⟩ : Controller).frame now).current =
        t.sample (Controller.elapsed start now)) := by
  refine ⟨?_, (timely h).full_from_total_iff, ?_⟩
  · intro e he
    rw [sample_before he]
    exact VisualState.blend_zero_equal_iff hsource
  · intro hkept
    have hfull := (timely h).full_from_total_iff.mpr hkept
    exact ⟨fun e he => sample_of_full (hfull e he), frame_eq_sample hfull⟩

theorem sample_ends_logoCard :
    (logoCard.validate = .ok () ∧ logoCard.source.Finite) ∧
    (∀ e, e.isNaN = true ∨ e < logoCard.delay →
      ((logoCard.sample e).Equal logoCard.source ↔ logoCard.source.Spans logoCard.target)) ∧
    ((∀ e, logoCard.total ≤ e → 1 ≤ logoCard.progress e) ↔
      logoCard.duration ≤ logoCard.total - logoCard.delay) ∧
    (logoCard.duration ≤ logoCard.total - logoCard.delay →
      (∀ e, logoCard.total ≤ e → logoCard.sample e = logoCard.target) ∧
      ∀ start now shown, ((⟨logoCard, .running start, shown⟩ : Controller).frame now).current =
        logoCard.sample (Controller.elapsed start now)) := by
  have hvalid : logoCard.validate = .ok () := logoCard.validate_eq_ok_iff.mpr (by decide +kernel)
  have hfinite : logoCard.source.Finite := by decide +kernel
  exact ⟨⟨hvalid, hfinite⟩, sample_ends hvalid hfinite⟩

def hasty : Transition := ((between ⟨0, 20, 0⟩ .settled).lasting 1e-17).delayed 1

def distant : Transition := ((between ⟨0, -1.7e308, 0⟩ ⟨1, 1.7e308, 0⟩).lasting 1).delayed 1

/-- Neither end holds of every transition with checked times and finite states. A sample at the total
is still the first state, where a frame gives the last, and a sample before the delay can be no
state at all. -/
theorem sample_misses_ends :
    ((hasty.validate = .ok () ∧ hasty.source.Finite ∧ hasty.target.Finite) ∧
      hasty.total ≤ 1 ∧ ¬(hasty.sample 1).Equal hasty.target ∧
      ((⟨hasty, .running 0, hasty.source⟩ : Controller).frame 1).current.Equal hasty.target) ∧
    ((distant.validate = .ok () ∧ distant.source.Finite ∧ distant.target.Finite) ∧
      0 < distant.delay ∧ ¬(distant.sample 0).Equal distant.source) := by
  rw [validate_eq_ok_iff, validate_eq_ok_iff]
  decide +kernel

end Transition

end HeroPage
