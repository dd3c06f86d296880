import HeroPage.Proofs.Controller.Course
import HeroPage.Proofs.Transition.Progress
set_option autoImplicit false

namespace HeroPage

open Binary64

namespace Controller

variable {start now now' : Float}

theorem elapsed_spec (start now : Float) :
    (elapsed start now).isNaN = false ∧ real (elapsed start now) = max 0 (real (now - start)) := by
  unfold elapsed
  dsimp only
  split
  · next h =>
    obtain ⟨-, hnan, hpos⟩ := lt_iff.mp h
    exact ⟨hnan, (max_eq_right hpos.le).symm⟩
  · next h =>
    refine ⟨isNaN_zero, ?_⟩
    rw [real_zero]
    cases hnan : (now - start).isNaN with
    | true => rw [real_of_isNaN hnan, max_self]
    | false =>
      have hle := (le_iff.mp ((not_lt_iff isNaN_zero hnan).mp h)).2.2
      exact (max_eq_left hle).symm

theorem isNaN_elapsed (start now : Float) : (elapsed start now).isNaN = false := (elapsed_spec start now).1

theorem real_elapsed (start now : Float) : real (elapsed start now) = max 0 (real (now - start)) :=
  (elapsed_spec start now).2

theorem elapsed_le_elapsed (h : real (now - start) ≤ max 0 (real (now' - start))) :
    elapsed start now ≤ elapsed start now' := by
  refine le_iff.mpr ⟨isNaN_elapsed start now, isNaN_elapsed start now', ?_⟩
  rw [real_elapsed, real_elapsed]
  exact max_le (le_max_left _ _) h

/-- Only the negative infinity stands for a number so low. -/
theorem digits_of_real_le (h : now.isNaN = false) (hle : real now ≤ -limit) :
    digits now = .infinity .negative := by
  have hlimit := limit_pos
  rcases finite_or_infinite h with hfinite | ⟨s, hs⟩
  · exact absurd hle (abs_lt.mp (abs_real_lt hfinite)).1.not_ge
  · rw [real_of_infinity hs] at hle
    cases s with
    | positive =>
      rw [withSign] at hle
      linarith
    | negative => exact hs

/-- If the start is an infinity, then all times but one lie on the same side of it. -/
theorem elapsed_mono (start : Float) (h : now ≤ now') : elapsed start now ≤ elapsed start now' := by
  obtain ⟨hnow, hnow', hle⟩ := le_iff.mp h
  have hlimit := limit_pos
  refine elapsed_le_elapsed ?_
  cases hnan : start.isNaN with
  | true =>
    rw [real_of_isNaN (isNaN_sub hnan)]
    exact le_max_left _ _
  | false =>
    rcases finite_or_infinite hnan with hfinite | ⟨s, hs⟩
    · exact ((le_iff.mp (sub_le_sub_of_finite hfinite h)).2.2).trans (le_max_right _ _)
    · rcases sub_infinity hs hnow with ⟨-, hnone⟩ | ⟨hne, hsub⟩
      · rw [real_of_isNaN hnone]
        exact le_max_left _ _
      · rw [real_of_infinity hsub, withSign_neg]
        cases s with
        | positive =>
          rw [withSign]
          exact le_max_of_le_left (neg_nonpos.mpr hlimit.le)
        | negative =>
          rcases sub_infinity hs hnow' with ⟨hlow, -⟩ | ⟨-, hsub'⟩
          · rw [real_of_infinity hlow, withSign] at hle
            exact absurd (digits_of_real_le hnow hle) hne
          · rw [real_of_infinity hsub', withSign_neg]
            exact le_max_right _ _

theorem real_sub_zero (h : now.isFinite = true) : real (now - 0) = real now := by
  rw [(isNearest_sub h isFinite_zero).real_eq, real_zero, sub_zero, clamp_nearest_real h]

theorem real_elapsed_zero (h : now.isFinite = true) : real (elapsed 0 now) = max 0 (real now) := by
  rw [real_elapsed, real_sub_zero h]

section

variable (t : Transition)

theorem after_frames (start : Float) (shown : VisualState) (times : List Float) :
    ((∃ now ∈ times, t.total ≤ elapsed start now) ∧
      (⟨t, .running start, shown⟩ : Controller).after (times.map .frame) = ⟨t, .settled, t.target⟩) ∨
    ((∀ now ∈ times, ¬t.total ≤ elapsed start now) ∧ ∃ shown' : VisualState,
      (⟨t, .running start, shown⟩ : Controller).after (times.map .frame) =
        ⟨t, .running start, shown'⟩) := by
  induction times generalizing shown with
  | nil => exact .inr ⟨fun _ h => absurd h List.not_mem_nil, shown, rfl⟩
  | cons now times ih =>
    rw [List.map_cons, after_cons, serve, frame_running]
    by_cases h : t.total ≤ elapsed start now
    · rw [if_pos h]
      exact .inl ⟨⟨now, List.mem_cons_self, h⟩, after_settled t _⟩
    · rw [if_neg h]
      refine (ih (t.sample (elapsed start now))).imp (And.imp_left ?_) (And.imp_left ?_)
      · rintro ⟨later, hmem, hlater⟩
        exact ⟨later, List.mem_cons_of_mem now hmem, hlater⟩
      · exact fun hall => List.forall_mem_cons.mpr ⟨h, hall⟩

end

variable {t : Transition}

theorem total_isFinite_iff (ht : t.Timely) :
    t.total.isFinite = true ↔ real t.delay + real t.duration < overflow :=
  (isNearest_add ht.delay ht.duration).isFinite_iff (add_nonneg ht.delay_nonneg ht.duration_nonneg)

theorem total_le_elapsed_zero (hnow : now.isFinite = true) (h : t.total ≤ now) :
    t.total ≤ elapsed 0 now := by
  obtain ⟨htotal, -, hle⟩ := le_iff.mp h
  refine le_iff.mpr ⟨htotal, isNaN_elapsed 0 now, ?_⟩
  rw [real_elapsed_zero hnow]
  exact hle.trans (le_max_right _ _)

theorem not_total_le_elapsed_zero (ht : t.Timely) (hover : ¬t.total.isFinite = true)
    (hnow : now.isFinite = true) : ¬t.total ≤ elapsed 0 now := by
  intro h
  obtain ⟨htotal, -, hle⟩ := le_iff.mp h
  rw [real_elapsed_zero hnow] at hle
  have hnonneg : 0 ≤ real t.total := ht.delay_nonneg.trans (le_iff.mp ht.delay_le_total).2.2
  refine hover (isFinite_of_abs_real_lt htotal ?_)
  rw [abs_of_nonneg hnonneg]
  exact hle.trans_lt (max_lt limit_pos (abs_lt.mp (abs_real_lt hnow)).2)

theorem runs_on (ht : t.Timely) (hover : ¬t.total.isFinite = true) {times : List Float}
    (hall : ∀ now ∈ times, now.isFinite = true) :
    ((new t).after (.attach 0 :: times.map .frame)).isSettled = false := by
  rcases after_frames t 0 t.source times with ⟨⟨now, hmem, hle⟩, -⟩ | ⟨-, shown, hafter⟩
  · exact absurd hle (not_total_le_elapsed_zero ht hover (hall now hmem))
  · exact congrArg isSettled hafter

theorem ends_by_frame (times : List Float) (hnow : now.isFinite = true) (h : t.total ≤ now) :
    ((new t).after (.attach 0 :: times.map .frame)).frame now = ⟨t, .settled, t.target⟩ := by
  change ((⟨t, .running 0, t.source⟩ : Controller).after (times.map .frame)).frame now = _
  rcases after_frames t 0 t.source times with ⟨-, hafter⟩ | ⟨-, shown, hafter⟩
  · rw [hafter]
    rfl
  · rw [hafter, frame_running, if_pos (total_le_elapsed_zero hnow h)]

theorem frames_finish (h : t.validate = .ok ()) :
    (t.total.isFinite = true ↔ real t.delay + real t.duration < overflow) ∧
    (∀ (times : List Float) (now : Float), now.isFinite = true → t.total ≤ now →
      ((new t).after (.attach 0 :: times.map .frame)).frame now = ⟨t, .settled, t.target⟩) ∧
    (t.total.isFinite = true ↔ ∃ times : List Float, (∀ now ∈ times, now.isFinite = true) ∧
      ((new t).after (.attach 0 :: times.map .frame)).isSettled = true) := by
  have ht := Transition.timely h
  refine ⟨total_isFinite_iff ht, fun times now => ends_by_frame times, ?_, ?_⟩
  · intro hfinite
    have hlast := ends_by_frame [] hfinite (le_self (isNaN_of_isFinite hfinite))
    exact ⟨[t.total], List.forall_mem_singleton.mpr hfinite, congrArg isSettled hlast⟩
  · rintro ⟨times, hall, hsettled⟩
    by_contra hover
    exact Bool.false_ne_true ((runs_on ht hover hall).symm.trans hsettled)

theorem frames_finish_logoCard :
    Transition.logoCard.validate = .ok () ∧
    (Transition.logoCard.total.isFinite = true ↔
      real Transition.logoCard.delay + real Transition.logoCard.duration < overflow) ∧
    (∀ (times : List Float) (now : Float), now.isFinite = true → Transition.logoCard.total ≤ now →
      ((new .logoCard).after (.attach 0 :: times.map .frame)).frame now =
        ⟨.logoCard, .settled, .settled⟩) ∧
    (Transition.logoCard.total.isFinite = true ↔
      ∃ times : List Float, (∀ now ∈ times, now.isFinite = true) ∧
        ((new .logoCard).after (.attach 0 :: times.map .frame)).isSettled = true) := by
  have hvalid : Transition.logoCard.validate = .ok () :=
    Transition.logoCard.validate_eq_ok_iff.mpr (by decide +kernel)
  exact ⟨hvalid, frames_finish hvalid⟩

def endless : Transition := ((Transition.between ⟨0, 20, 0⟩ .settled).lasting 1.7e308).delayed 1.7e308

/-- Checked times need not have a finite total, and then no frames at finite times finish the entrance. -/
theorem frames_never_finish :
    endless.validate = .ok () ∧ endless.total.isFinite = false ∧
    ∀ times : List Float, (∀ now ∈ times, now.isFinite = true) →
      ((new endless).after (.attach 0 :: times.map .frame)).isSettled = false := by
  have hvalid : endless.validate = .ok () := endless.validate_eq_ok_iff.mpr (by decide +kernel)
  have htotal : endless.total.isFinite = false := by decide +kernel
  exact ⟨hvalid, htotal, fun times => runs_on (Transition.timely hvalid) (Bool.eq_false_iff.mp htotal)⟩

end Controller

end HeroPage
