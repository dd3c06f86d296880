import HeroPage.Proofs.Easing.Curve
import HeroPage.Proofs.Transition.Ends
import HeroPage.Proofs.VisualState.Blend
set_option autoImplicit false

namespace HeroPage

open Binary64

namespace VisualState

/-- `s` and `s'` lie between `a` and `b`, and no component of `s'` is farther from `b`. -/
structure Advances (a b s s' : VisualState) : Prop where
  opacity : Onward a.opacity b.opacity s.opacity s'.opacity
  offsetY : Onward a.offsetY b.offsetY s.offsetY s'.offsetY
  rotationDeg : Onward a.rotationDeg b.rotationDeg s.rotationDeg s'.rotationDeg

variable {a b : VisualState} {s t : Float}

theorem advances_blend (h : Each Steady a b) (hs : IsShare s) (ht : IsShare t) (hle : s ≤ t) :
    Advances a b (a.blend b s) (a.blend b t) :=
  ⟨h.opacity.onward hs ht hle, h.offsetY.onward hs ht hle, h.rotationDeg.onward hs ht hle⟩

theorem advances_end (h : Each Steady a b) (hs : IsShare s) : Advances a b (a.blend b s) b :=
  ⟨h.opacity.onward_end hs, h.offsetY.onward_end hs, h.rotationDeg.onward_end hs⟩

theorem advances_self (h : Each Steady a b) : Advances a b b b :=
  ⟨h.opacity.onward_self, h.offsetY.onward_self, h.rotationDeg.onward_self⟩

end VisualState

namespace Transition

variable {t : Transition} {e e' : Float}

/-- What a frame shows `e` seconds after the start. -/
def shownAt (t : Transition) (e : Float) : VisualState := if t.total ≤ e then t.target else t.sample e

/-- Frames show the target, `e` seconds after the start. -/
def Over (t : Transition) (e : Float) : Prop := t.total ≤ e ∨ 1 ≤ t.progress e

theorem shownAt_of_over (h : t.Over e) : t.shownAt e = t.target := by
  unfold shownAt
  split
  · rfl
  · next hbefore => exact sample_of_full (h.resolve_left hbefore)

theorem shownAt_of_not_over (h : ¬t.Over e) :
    t.shownAt e = t.source.blend t.target (t.easing.apply (t.progress e)) := by
  obtain ⟨hbefore, hpart⟩ := not_or.mp h
  rw [shownAt, if_neg hbefore, sample, if_neg hpart]

namespace Timely

theorem early_or_begun (ht : t.Timely) (e : Float) : (e.isNaN = true ∨ e < t.delay) ∨ t.delay ≤ e := by
  cases hnan : e.isNaN with
  | true => exact .inl (.inl rfl)
  | false =>
    by_cases h : e < t.delay
    · exact .inl (.inr h)
    · exact .inr ((not_lt_iff hnan (isNaN_of_isFinite ht.delay)).mp h)

theorem quotient_mono (ht : t.Timely) (hsome : ¬t.duration ≤ 0) (h : e ≤ e') :
    (e - t.delay) / t.duration ≤ (e' - t.delay) / t.duration :=
  div_le_div_of_pos ht.duration (ht.duration_pos hsome) (sub_le_sub_of_finite ht.delay h)

theorem isShare_progress (ht : t.Timely) (e : Float) : IsShare (t.progress e) := by
  rcases ht.early_or_begun e with hearly | hbegun
  · rw [progress_of_early hearly]
    exact isShare_zero
  · rw [progress_of_begun hbegun]
    split
    · exact isShare_one
    · next hsome =>
      have hself := ht.quotient_mono hsome (le_self (le_iff.mp hbegun).2.1)
      exact isShare_clampUnit (le_iff.mp hself).1

theorem progress_mono (ht : t.Timely) (h : e ≤ e') : t.progress e ≤ t.progress e' := by
  rcases ht.early_or_begun e with hearly | hbegun
  · rw [progress_of_early hearly]
    exact (ht.isShare_progress e').nonneg
  · rw [progress_of_begun hbegun, progress_of_begun (le_chain hbegun h)]
    split
    · exact le_self isNaN_one
    · next hsome => exact clampUnit_mono (ht.quotient_mono hsome h)

theorem isShare_covered (ht : t.Timely) (e : Float) : IsShare (t.easing.apply (t.progress e)) :=
  t.easing.isShare_apply (isNaN_of_isFinite (ht.isShare_progress e).isFinite)

theorem isShare_sample (ht : t.Timely) (hsource : IsShare t.source.opacity)
    (htarget : IsShare t.target.opacity) (e : Float) : IsShare (t.sample e).opacity := by
  simp only [sample]
  split
  · exact htarget
  · exact VisualState.isShare_mix hsource htarget (ht.isShare_covered e)

theorem over_mono (ht : t.Timely) (h : e ≤ e') (hover : t.Over e) : t.Over e' :=
  hover.imp (fun htotal => le_chain htotal h) fun hfull => le_chain hfull (ht.progress_mono h)

theorem shownAt_advances (ht : t.Timely) (hsteady : VisualState.Each VisualState.Steady t.source t.target)
    (h : e ≤ e') : t.source.Advances t.target (t.shownAt e) (t.shownAt e') := by
  by_cases hover : t.Over e
  · rw [shownAt_of_over hover, shownAt_of_over (ht.over_mono h hover)]
    exact VisualState.advances_self hsteady
  · rw [shownAt_of_not_over hover]
    by_cases hover' : t.Over e'
    · rw [shownAt_of_over hover']
      exact VisualState.advances_end hsteady (ht.isShare_covered e)
    · rw [shownAt_of_not_over hover']
      exact VisualState.advances_blend hsteady (ht.isShare_covered e) (ht.isShare_covered e')
        (t.easing.apply_mono (ht.progress_mono h))

theorem progress_infinity (ht : t.Timely) (h : e.isInf = true) (hpos : 0 < e) : t.progress e = 1 := by
  have hdigits := digits_of_isInf h hpos
  rw [progress_of_begun (le_of_infinity (isNaN_of_isFinite ht.delay) hdigits)]
  split
  · rfl
  · next hsome =>
    obtain ⟨m, e', hm, -, hduration⟩ := digits_of_pos ht.duration (ht.duration_pos hsome)
    have hquotient := digits_infinity_div hduration (digits_infinity_sub hdigits ht.delay)
    exact clampUnit_of_one_lt (one_lt_of_infinity hquotient)

theorem progress_eq_one_iff (ht : t.Timely) (hnone : (t.duration == 0) = true) (e : Float) :
    t.progress e = 1 ↔ t.delay ≤ e := by
  rcases ht.early_or_begun e with hearly | hbegun
  · rw [progress_of_early hearly]
    refine iff_of_false (by decide +kernel) fun hle => ?_
    obtain ⟨-, hnan, hdelay⟩ := le_iff.mp hle
    rcases hearly with hnan' | hlt
    · exact Bool.false_ne_true (hnan.symm.trans hnan')
    · exact (lt_iff.mp hlt).2.2.not_ge hdelay
  · rw [progress_of_begun hbegun, if_pos (le_of_beq hnone)]
    exact iff_of_true rfl hbegun

end Timely

/-- The progress of a transition with checked times, whatever the time. -/
theorem progress_clock (h : t.validate = .ok ()) :
    (∀ e, (t.progress e).isNaN = false ∧ 0 ≤ t.progress e ∧ t.progress e ≤ 1) ∧
    (∀ e, e.isNaN = true ∨ e < t.delay → t.progress e = 0) ∧
    (∀ e e', e ≤ e' → t.progress e ≤ t.progress e') ∧
    (∀ e, e.isInf = true → 0 < e → t.progress e = 1) ∧
    ((t.duration == 0) = true → ∀ e, t.progress e = 1 ↔ t.delay ≤ e) := by
  have ht := timely h
  refine ⟨fun e => ?_, fun e => progress_of_early, fun e e' => ht.progress_mono,
    fun e => ht.progress_infinity, ht.progress_eq_one_iff⟩
  have hshare := ht.isShare_progress e
  exact ⟨isNaN_of_isFinite hshare.isFinite, hshare.nonneg, hshare.le_one⟩

def sudden : Transition := ((between ⟨0, 20, 0⟩ .settled).lasting (-0.0)).delayed 0.2

theorem progress_clock_sudden :
    (sudden.validate = .ok () ∧ (sudden.duration == 0) = true) ∧
    (∀ e, (sudden.progress e).isNaN = false ∧ 0 ≤ sudden.progress e ∧ sudden.progress e ≤ 1) ∧
    (∀ e, e.isNaN = true ∨ e < sudden.delay → sudden.progress e = 0) ∧
    (∀ e e', e ≤ e' → sudden.progress e ≤ sudden.progress e') ∧
    (∀ e, e.isInf = true → 0 < e → sudden.progress e = 1) ∧
    ∀ e, sudden.progress e = 1 ↔ sudden.delay ≤ e := by
  have hvalid : sudden.validate = .ok () := sudden.validate_eq_ok_iff.mpr (by decide +kernel)
  have hnone : (sudden.duration == 0) = true := by decide +kernel
  obtain ⟨hshare, hearly, hmono, hinfinity, hzero⟩ := progress_clock hvalid
  exact ⟨⟨hvalid, hnone⟩, hshare, hearly, hmono, hinfinity, hzero hnone⟩

end Transition

end HeroPage
