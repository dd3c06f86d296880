import HeroPage.Proofs.Controller.Frames
set_option autoImplicit false

namespace HeroPage

open Binary64

namespace Controller

variable {t : Transition} {times : List Float}

/-- The states that frames at the given times return. -/
def play (c : Controller) : List Float → List VisualState
  | [] => []
  | now :: times => (c.frame now).current :: (c.frame now).play times

theorem run_frames (c : Controller) (times : List Float) :
    (c.run (times.map .frame)).map Prod.snd = (c.play times).map .shown := by
  induction times generalizing c with
  | nil => rfl
  | cons now times ih => exact congrArg (_ :: ·) (ih (c.frame now))

theorem play_settled (t : Transition) (times : List Float) :
    (⟨t, .settled, t.target⟩ : Controller).play times = times.map fun _ => t.target := by
  induction times with
  | nil => rfl
  | cons now times ih => exact congrArg (t.target :: ·) ih

/-- Once the total has passed for one frame, it has passed for all later ones. -/
theorem play_running (start : Float) (shown : VisualState) (hsorted : times.Pairwise (· ≤ ·)) :
    (⟨t, .running start, shown⟩ : Controller).play times =
      times.map fun now => t.shownAt (elapsed start now) := by
  induction hsorted generalizing shown with
  | nil => rfl
  | @cons now times hlater _ ih =>
    rw [play, frame_running, List.map_cons, Transition.shownAt]
    by_cases hover : t.total ≤ elapsed start now
    · rw [if_pos hover, if_pos hover, play_settled]
      refine congrArg (t.target :: ·) (List.map_congr_left fun later hmem => ?_)
      rw [Transition.shownAt, if_pos (le_chain hover (elapsed_mono start (hlater later hmem)))]
    · rw [if_neg hover, if_neg hover, ih]

section

variable (ht : t.Timely) (hsteady : VisualState.Each VisualState.Steady t.source t.target)
include ht hsteady

theorem play_advances (start : Float) (shown : VisualState) (hsorted : times.Pairwise (· ≤ ·)) :
    ((⟨t, .running start, shown⟩ : Controller).play times).Pairwise (t.source.Advances t.target) := by
  rw [play_running start shown hsorted, List.pairwise_map]
  exact hsorted.imp fun hle => ht.shownAt_advances hsteady (elapsed_mono start hle)

theorem mem_play_advances (start : Float) (shown : VisualState) (hsorted : times.Pairwise (· ≤ ·))
    {s : VisualState} (hs : s ∈ (⟨t, .running start, shown⟩ : Controller).play times) :
    t.source.Advances t.target s s := by
  rw [play_running start shown hsorted] at hs
  obtain ⟨now, -, rfl⟩ := List.mem_map.mp hs
  exact ht.shownAt_advances hsteady (le_self (isNaN_elapsed start now))

end

theorem play_of_total_le (start : Float) (shown : VisualState) (hsorted : times.Pairwise (· ≤ ·)) {i j : ℕ}
    (hij : i ≤ j) {now : Float} (hi : times[i]? = some now) (hover : t.total ≤ elapsed start now)
    {s : VisualState} (hs : ((⟨t, .running start, shown⟩ : Controller).play times)[j]? = some s) :
    s = t.target := by
  rw [play_running start shown hsorted, List.getElem?_map] at hs
  obtain ⟨later, hj, rfl⟩ := Option.map_eq_some_iff.mp hs
  have hle : t.total ≤ elapsed start later := by
    rcases hij.eq_or_lt with rfl | hlt
    · rwa [Option.some.inj (hi.symm.trans hj)] at hover
    · obtain ⟨hilt, rfl⟩ := List.getElem?_eq_some_iff.mp hi
      obtain ⟨hjlt, rfl⟩ := List.getElem?_eq_some_iff.mp hj
      exact le_chain hover (elapsed_mono start (List.pairwise_iff_getElem.mp hsorted i j hilt hjlt hlt))
  rw [Transition.shownAt, if_pos hle]

theorem page_entrance_cases (ht : t = .textBlock ∨ t = .logoCard) :
    t.Timely ∧ VisualState.Each VisualState.Steady t.source t.target ∧ t.target = .settled ∧
      t.source.opacity ≤ t.target.opacity ∧ t.target.offsetY ≤ t.source.offsetY ∧
        t.source.rotationDeg ≤ t.target.rotationDeg := by
  rcases ht with rfl | rfl
  · exact ⟨Transition.timely ((Transition.validate_eq_ok_iff _).mpr (by decide +kernel)),
      by decide +kernel, rfl, by decide +kernel⟩
  · exact ⟨Transition.timely ((Transition.validate_eq_ok_iff _).mpr (by decide +kernel)),
      by decide +kernel, rfl, by decide +kernel⟩

/-- Frames of the text block and of the logo card never fade, sink or tilt back, they show nothing outside
of the two states, and from the end on they show the settled state. -/
theorem page_entrances_advance (ht : t = .textBlock ∨ t = .logoCard) (start : Float)
    (hsorted : times.Pairwise (· ≤ ·)) :
    let shown := ((new t).attach start).1.play times
    ((new t).run (.attach start :: times.map .frame)).map Prod.snd =
      .started true :: shown.map .shown ∧
    shown.Pairwise (fun s s' => s.opacity ≤ s'.opacity ∧ s'.offsetY ≤ s.offsetY ∧
      s.rotationDeg ≤ s'.rotationDeg) ∧
    (∀ s ∈ shown, (t.source.opacity ≤ s.opacity ∧ s.opacity ≤ t.target.opacity) ∧
      (t.target.offsetY ≤ s.offsetY ∧ s.offsetY ≤ t.source.offsetY) ∧
      t.source.rotationDeg ≤ s.rotationDeg ∧ s.rotationDeg ≤ t.target.rotationDeg) ∧
    ∀ (i j : ℕ) (now : Float), i ≤ j → times[i]? = some now → t.total ≤ elapsed start now →
      ∀ s : VisualState, shown[j]? = some s → s = .settled := by
  obtain ⟨htimely, hsteady, htarget, hopacity, hoffset, hrotation⟩ := page_entrance_cases ht
  refine ⟨congrArg (Reply.started true :: ·) (run_frames _ times), ?_, fun s hs => ?_,
    fun i j now hij hi hover s hs => ?_⟩
  · refine (play_advances htimely hsteady start t.source hsorted).imp fun hadvance => ?_
    exact ⟨(hadvance.opacity.rising hopacity).2.1, (hadvance.offsetY.falling hoffset).2.1,
      (hadvance.rotationDeg.rising hrotation).2.1⟩
  · have hbetween := mem_play_advances htimely hsteady start t.source hsorted hs
    obtain ⟨hlow, -, hhigh⟩ := hbetween.opacity.rising hopacity
    obtain ⟨hlow', -, hhigh'⟩ := hbetween.offsetY.falling hoffset
    obtain ⟨hlow'', -, hhigh''⟩ := hbetween.rotationDeg.rising hrotation
    exact ⟨⟨hlow, hhigh⟩, ⟨hlow', hhigh'⟩, hlow'', hhigh''⟩
  · exact (play_of_total_le start t.source hsorted hij hi hover hs).trans htarget

theorem page_entrances_advance_logoCard :
    let times : List Float := [0, 0.8, 2]
    times.Pairwise (· ≤ ·) ∧
    let shown := ((new .logoCard).attach 0).1.play times
    ((new .logoCard).run (.attach 0 :: times.map .frame)).map Prod.snd =
      .started true :: shown.map .shown ∧
    shown.Pairwise (fun s s' => s.opacity ≤ s'.opacity ∧ s'.offsetY ≤ s.offsetY ∧
      s.rotationDeg ≤ s'.rotationDeg) ∧
    (∀ s ∈ shown, ((0 : Float) ≤ s.opacity ∧ s.opacity ≤ 1) ∧
      ((0 : Float) ≤ s.offsetY ∧ s.offsetY ≤ 0) ∧ (-5 : Float) ≤ s.rotationDeg ∧ s.rotationDeg ≤ 0) ∧
    ∀ (i j : ℕ) (now : Float), i ≤ j → times[i]? = some now → Transition.logoCard.total ≤ elapsed 0 now →
      ∀ s : VisualState, shown[j]? = some s → s = .settled := by
  have hsorted : ([0, 0.8, 2] : List Float).Pairwise (· ≤ ·) := by decide +kernel
  exact ⟨hsorted, page_entrances_advance (.inr rfl) 0 hsorted⟩

theorem serve_current (c : Controller) (call : Call) :
    (c.serve call).1.current = c.current ∨ (c.serve call).1.current = c.transition.target ∨
      ∃ e, (c.serve call).1.current = c.transition.sample e := by
  cases call with
  | attach now =>
    refine .inl ?_
    simp only [serve, attach]
    split <;> rfl
  | frame now =>
    simp only [serve, frame]
    split
    · split
      · exact .inr (.inl rfl)
      · exact .inr (.inr ⟨_, rfl⟩)
    · exact .inl rfl
  | skip =>
    simp only [serve, skip]
    split
    · exact .inl rfl
    · exact .inr (.inl rfl)
  | detach => exact .inl c.detach_current

/-- A property of the state that is shown, of the target and of all samples is kept by every run. -/
theorem run_current {P : VisualState → Prop} {c : Controller} (hcurrent : P c.current)
    (htarget : P c.transition.target) (hsample : ∀ e, P (c.transition.sample e)) (calls : List Call) :
    ∀ x ∈ c.run calls, P x.1.current := by
  induction calls generalizing c with
  | nil => exact fun _ hx => absurd hx List.not_mem_nil
  | cons call calls ih =>
    have hnext : P (c.serve call).1.current := by
      rcases c.serve_current call with h | h | ⟨e, h⟩ <;> rw [h]
      · exact hcurrent
      · exact htarget
      · exact hsample e
    have htransition := c.serve_transition call
    refine List.forall_mem_cons.mpr ⟨hnext, ih hnext ?_ ?_⟩
    · rwa [htransition]
    · rwa [htransition]

theorem opacity_stays (h : t.validate = .ok ())
    (hsource : 0 ≤ t.source.opacity ∧ t.source.opacity ≤ 1)
    (htarget : 0 ≤ t.target.opacity ∧ t.target.opacity ≤ 1) (calls : List Call) :
    ∀ x ∈ (new t).run calls, 0 ≤ x.1.current.opacity ∧ x.1.current.opacity ≤ 1 := by
  have hshare := (Transition.timely h).isShare_sample ⟨hsource.1, hsource.2⟩ ⟨htarget.1, htarget.2⟩
  exact run_current (P := fun s => 0 ≤ s.opacity ∧ s.opacity ≤ 1) (c := new t) hsource htarget
    (fun e => ⟨(hshare e).nonneg, (hshare e).le_one⟩) calls

theorem opacity_stays_logoCard :
    (Transition.logoCard.validate = .ok () ∧
      (0 ≤ Transition.logoCard.source.opacity ∧ Transition.logoCard.source.opacity ≤ 1) ∧
      0 ≤ Transition.logoCard.target.opacity ∧ Transition.logoCard.target.opacity ≤ 1) ∧
    ∀ x ∈ (new .logoCard).run [.attach 0, .frame 0.8, .frame (0 / 0), .frame 0.9, .detach],
      0 ≤ x.1.current.opacity ∧ x.1.current.opacity ≤ 1 := by
  have hvalid : Transition.logoCard.validate = .ok () :=
    Transition.logoCard.validate_eq_ok_iff.mpr (by decide +kernel)
  have hsource : 0 ≤ Transition.logoCard.source.opacity ∧ Transition.logoCard.source.opacity ≤ 1 := by
    decide +kernel
  have htarget : 0 ≤ Transition.logoCard.target.opacity ∧ Transition.logoCard.target.opacity ≤ 1 := by
    decide +kernel
  exact ⟨⟨hvalid, hsource, htarget⟩, opacity_stays hvalid hsource htarget _⟩

end Controller

end HeroPage
