import HeroPage.Proofs.Stage.Cue
import HeroPage.Proofs.Stage.Reached
set_option autoImplicit false

namespace HeroPage.Stage

theorem transition_of_getElem? {s : Stage} {i : Nat} {e : Entrance} {t : Transition}
    (he : s.entrances[i]? = some e) (ht : s.transitions[i]? = some t) :
    e.controller.transition = t := by
  simpa [transitions, he] using ht

theorem css_of_settled {e : Entrance} (h : e.Sound) (hm : e.mounted = true)
    (hs : e.controller.isSettled = true) :
    e.css? = some e.controller.transition.target.css := by
  simp [Entrance.css?, hm, h.shown, h.settled hs]

namespace Sound
variable {b : Browser} {s : Stage} {i : Nat} {e : Entrance}

theorem forced (h : s.Sound []) (he : s.entrances[i]? = some e) (hm : e.mounted = true)
    (hs : e.controller.isSettled = false) :
    ∃ timer ∈ s.scheduler.timers, timer.owner = i ∧ e.timer = some timer.id ∧
      s.step b (.timeout timer.id) = ⟨(s.fire timer).1, .done true, (s.fire timer).2⟩ ∧
      (s.fire timer).1.entrances[i]? = some e.force := by
  obtain ⟨timer, ht, rfl⟩ := h.kept.ticking i e he hm hs
  refine ⟨timer, ht, rfl, h.kept.id_eq he ht rfl,
    step_timeout_of_some (h.kept.findTimer?_of_mem ht), ?_⟩
  have hfollows := (Follows.fire (b := b) h ht he).entrance
  simpa [Entrance.follow, hs] using hfollows

end Sound

/-- The timer of entrance `i` is pending, and if it fires now the entrance shows the target of `t`
and waits for no frame. -/
structure Rescues (b : Browser) (s : Stage) (i : Nat) (t : Transition) (timer : Timer) : Prop where
  pending : timer ∈ s.scheduler.timers
  owner : timer.owner = i
  own : (s.entrances[i]?.bind Entrance.timer) = some timer.id
  fires : (s.step b (.timeout timer.id)).outcome = .done true
  shows : (s.step b (.timeout timer.id)).stage.styles[i]? = some (some t.target.css)
  idle : ∀ ticket ∈ (s.step b (.timeout timer.id)).stage.scheduler.frames, ticket.owner ≠ i

theorem shown_or_rescued (b : Browser) (clock : Float) (ts : List Transition) (steps : List Step)
    (i : Nat) (t : Transition) (ht : (ts ++ steps.filterMap Step.mounted?)[i]? = some t)
    (hm : (reached b clock ts steps).isMounted i = true) :
    (reached b clock ts steps).styles[i]? = some (some t.target.css) ∨
      ∃ timer, Rescues b (reached b clock ts steps) i t timer := by
  have h := reached_sound b clock ts steps
  rw [← transitions_reached b clock] at ht
  generalize reached b clock ts steps = s at *
  obtain ⟨e, he, hmounted⟩ := exists_of_isMounted hm
  have htransition := transition_of_getElem? he ht
  cases hs : e.controller.isSettled with
  | true =>
    left
    rw [styles, List.getElem?_map, he, Option.map_some,
      css_of_settled (h.each i e he) hmounted hs, htransition]
  | false =>
    right
    obtain ⟨timer, htimer, ho, hid, hstep, hforced⟩ := h.forced (b := b) he hmounted hs
    obtain ⟨hsound, hsettled⟩ := Entrance.force_sound (h.each i e he) hmounted hs
    have hafter : (s.fire timer).1.Sound [] := h.fire htimer
    refine ⟨timer, htimer, ho, by simp [he, hid], by rw [hstep], ?_, ?_⟩
    · rw [hstep, styles, List.getElem?_map, hforced, Option.map_some,
        css_of_settled hsound hmounted hsettled, Entrance.force_transition, htransition]
    · rw [hstep]
      intro ticket hticket ho
      have hwaits := (hafter.waits_iff hforced).mp ⟨ticket, hticket, ho⟩
      exact absurd hwaits (by simp)

/-- A request that is refused in the middle of a run leaves an entrance to its timer. -/
theorem shown_or_rescued_refused :
    (reached { refused := [2] } 0 [.textBlock] [.frame 100]).isMounted 0 = true ∧
      ((reached { refused := [2] } 0 [.textBlock] [.frame 100]).styles[0]? =
          some (some Transition.textBlock.target.css) ∨
        ∃ timer,
          Rescues { refused := [2] } (reached { refused := [2] } 0 [.textBlock] [.frame 100]) 0
            .textBlock timer) := by
  have hm : (reached { refused := [2] } 0 [.textBlock] [.frame 100]).isMounted 0 = true := by
    decide +kernel
  exact ⟨hm, shown_or_rescued { refused := [2] } 0 [.textBlock] [.frame 100] 0 .textBlock rfl hm⟩

end HeroPage.Stage
