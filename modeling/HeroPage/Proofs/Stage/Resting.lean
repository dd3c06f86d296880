import HeroPage.Proofs.Stage.Belongings
import HeroPage.Proofs.Stage.Calls
import HeroPage.Proofs.Stage.Shown
set_option autoImplicit false

namespace HeroPage

theorem Entrance.Sound.frame_eq_none {e : Entrance} (h : e.Sound)
    (hover : e.mounted = true → e.controller.isSettled = true) : e.frame = none := by
  cases hf : e.frame with
  | none => rfl
  | some id =>
    obtain ⟨hm, hn⟩ := h.waits id hf
    exact absurd ((hover hm).symm.trans hn) (by decide)

theorem Entrance.isSettled_follow {e : Entrance} (hs : e.controller.isSettled = true) (c : Cue) :
    (e.follow c).controller.isSettled = true := by
  rw [Entrance.follow_settled hs, hs]

namespace Stage

def isSettled (s : Stage) (i : Nat) : Bool :=
  match s.entrances[i]? with
  | none => false
  | some e => e.controller.isSettled

theorem isSettled_of_getElem? {s : Stage} {i : Nat} {e : Entrance}
    (he : s.entrances[i]? = some e) : s.isSettled i = e.controller.isSettled := by
  simp only [isSettled, he]

section
variable {b : Browser} {s : Stage} {i : Nat} {e : Entrance}

theorem Kept.exists_timer {q : Scheduler} {es : List Entrance} {id : Nat} (h : Kept q es)
    (hi : es[i]? = some e) (hid : e.timer = some id) (hp : q.pending i = true) :
    ∃ timer ∈ q.timers, timer.owner = i ∧ timer.id = id := by
  obtain ⟨timer, ht, ho⟩ := Scheduler.pending_iff.mp hp
  exact ⟨timer, ht, ho, Option.some.inj ((h.id_eq hi ht ho).symm.trans hid)⟩

theorem Sound.pending_of_left (h : s.Sound []) (he : s.entrances[i]? = some e)
    (hm : e.mounted = false) : s.scheduler.pending i = false := by
  rw [Bool.eq_false_iff, ne_eq, Scheduler.pending_iff]
  rintro ⟨t, ht, rfl⟩
  obtain ⟨e', he', hm', -⟩ := h.kept.owner_of_mem ht
  obtain rfl : e = e' := Option.some.inj (he.symm.trans he')
  exact absurd (hm.symm.trans hm') (by decide)

theorem Sound.frame_of_left (h : s.Sound []) (he : s.entrances[i]? = some e)
    (hm : e.mounted = false) : e.frame = none :=
  (h.each i e he).frame_eq_none fun hm' => absurd (hm.symm.trans hm') (by decide)

theorem Sound.cue_of_left (h : s.Sound []) (he : s.entrances[i]? = some e)
    (hm : e.mounted = false) (step : Step) : s.cue b i e step = .idle := by
  cases step with
  | frame now => simp [cue, h.frame_of_left he hm]
  | timeout id => simp [cue, h.pending_of_left he hm]
  | unmount j => simp [cue, hm]
  | mount t now => rfl

theorem Sound.left_after (h : s.Sound []) (he : s.entrances[i]? = some e)
    (hm : e.mounted = false) (steps : List Step) : (s.after b steps).entrances[i]? = some e := by
  induction steps generalizing s with
  | nil => exact he
  | cons step steps ih =>
    have hnext := (h.follows (b := b) he step).entrance
    rw [h.cue_of_left he hm] at hnext
    exact ih (h.step step) hnext

theorem Sound.own_of_left (h : s.Sound []) (he : s.entrances[i]? = some e)
    (hm : e.mounted = false) (step : Step) : own i (s.step b step).trace = [] := by
  rw [(h.follows he step).events, h.cue_of_left he hm]
  rfl

theorem Sound.record_of_left (h : s.Sound []) (he : s.entrances[i]? = some e)
    (hm : e.mounted = false) (steps : List Step) : own i (s.record b steps) = [] := by
  induction steps generalizing s with
  | nil => rfl
  | cons step steps ih =>
    have hnext := (h.follows (b := b) he step).entrance
    rw [h.cue_of_left he hm] at hnext
    rw [record_cons, own_append, h.own_of_left he hm, ih (h.step step) hnext]
    rfl

theorem Sound.frame_of_settled (h : s.Sound []) (he : s.entrances[i]? = some e)
    (hs : e.controller.isSettled = true) : e.frame = none :=
  (h.each i e he).frame_eq_none fun _ => hs

theorem Sound.own_of_settled (h : s.Sound []) (he : s.entrances[i]? = some e)
    (hs : e.controller.isSettled = true) (step : Step) :
    own i (s.step b step).trace = [] ∨
      step = .unmount i ∧ e.mounted = true ∧
        ∃ id, e.timer = some id ∧ s.scheduler.pending i = true ∧
          own i (s.step b step).trace = [.timerCleared id] := by
  have hf := h.frame_of_settled he hs
  rw [(h.follows he step).events]
  cases step with
  | frame now => exact .inl (by simp [cue, hf, Entrance.events])
  | timeout id =>
    left
    simp only [cue]
    split
    · simp only [Entrance.events, hs, ↓reduceIte]
    · rfl
  | unmount j =>
    by_cases hj : j = i ∧ e.mounted = true
    · obtain ⟨rfl, hm⟩ := hj
      cases hp : s.scheduler.pending j with
      | false => exact .inl (by simp [cue, hm, hp, Entrance.events, hf])
      | true =>
        cases hid : e.timer with
        | none => exact .inl (by simp [cue, hm, hp, Entrance.events, hf, hid])
        | some id =>
          exact .inr ⟨rfl, hm, id, rfl, rfl, by simp [cue, hm, hp, Entrance.events, hf, hid]⟩
    · exact .inl (by simp only [cue, hj, ↓reduceIte]; rfl)
  | mount t now => exact .inl rfl

theorem Sound.record_of_settled (h : s.Sound []) (he : s.entrances[i]? = some e)
    (hs : e.controller.isSettled = true) (steps : List Step) :
    own i (s.record b steps) = [] ∨
      ∃ id, e.timer = some id ∧ s.scheduler.pending i = true ∧
        own i (s.record b steps) = [.timerCleared id] := by
  induction steps generalizing s e with
  | nil => exact .inl rfl
  | cons step steps ih =>
    have hfollows := h.follows (b := b) he step
    have hnext := hfollows.entrance
    rw [record_cons, own_append]
    rcases h.own_of_settled (b := b) he hs step with hnone | ⟨rfl, hm, id, hid, hp, hcleared⟩
    · rw [hnone, List.nil_append]
      rcases ih (h.step step) hnext (Entrance.isSettled_follow hs _) with
        hrest | ⟨id, hid, hp, hrest⟩
      · exact .inl hrest
      · -- a timer that is pending later was so before, and it is the same one
        rw [Entrance.follow_timer] at hid
        rw [hfollows.pending, Bool.and_eq_true] at hp
        exact .inr ⟨id, hid, hp.1, hrest⟩
    · have hcue : s.cue b i e (.unmount i) = .unmount true := by simp [cue, hm, hp]
      rw [hcue] at hnext
      have hleft := (h.step (b := b) (.unmount i)).record_of_left (b := b) hnext rfl steps
      exact .inr ⟨id, hid, hp, by rw [hcleared, hleft]; rfl⟩

end

/-- Entrance `i` is over: as long as it is on the page it shows the target of `t`, it waits for no
frame, and the only thing that can still be put on record for it is the clearing of its timer when
it leaves the page. -/
structure Over (b : Browser) (s : Stage) (i : Nat) (t : Transition) : Prop where
  shown : s.isMounted i = true → s.styles[i]? = some (some t.target.css)
  idle : ∀ ticket ∈ s.scheduler.frames, ticket.owner ≠ i
  silent : ∀ step, own i (s.step b step).trace = [] ∨
    step = .unmount i ∧ s.isMounted i = true ∧
      ∃ timer ∈ s.scheduler.timers, timer.owner = i ∧
        own i (s.step b step).trace = [.timerCleared timer.id]

theorem Sound.over {b : Browser} {s : Stage} {i : Nat} {e : Entrance} (h : s.Sound [])
    (he : s.entrances[i]? = some e) (hs : e.controller.isSettled = true) :
    Over b s i e.controller.transition := by
  refine ⟨fun hm => ?_, ?_, fun step => ?_⟩
  · rw [isMounted_of_getElem? he] at hm
    rw [styles, List.getElem?_map, he, Option.map_some, css_of_settled (h.each i e he) hm hs]
  · rw [← Scheduler.framesOf_eq_nil_iff, h.framesOf_eq he, Entrance.ticket,
      h.frame_of_settled he hs]
    rfl
  · rcases h.own_of_settled (b := b) he hs step with hnone | ⟨rfl, hm, id, hid, hp, hcleared⟩
    · exact .inl hnone
    · obtain ⟨timer, ht, ho, rfl⟩ := h.kept.exists_timer he hid hp
      exact .inr ⟨rfl, (isMounted_of_getElem? he).trans hm, timer, ht, ho, hcleared⟩

/-- Whatever has settled an entrance on the page, it is over from then on, and a run of any length
puts at most the clearing of the timer that is pending now on record for it. -/
theorem over_once_settled (b : Browser) (clock : Float) (ts : List Transition) (steps : List Step)
    (i : Nat) (t : Transition) (ht : (ts ++ steps.filterMap Step.mounted?)[i]? = some t)
    (hm : (reached b clock ts steps).isMounted i = true)
    (hs : (reached b clock ts steps).isSettled i = true) (more : List Step) :
    Over b ((reached b clock ts steps).after b more) i t ∧
      (own i ((reached b clock ts steps).record b more) = [] ∨
        ∃ timer ∈ (reached b clock ts steps).scheduler.timers, timer.owner = i ∧
          own i ((reached b clock ts steps).record b more) = [.timerCleared timer.id]) := by
  have h := reached_sound b clock ts steps
  rw [← transitions_reached b clock] at ht
  generalize reached b clock ts steps = s at *
  obtain ⟨e, he, -⟩ := exists_of_isMounted hm
  rw [isSettled_of_getElem? he] at hs
  have htransition := transition_of_getElem? he ht
  obtain ⟨e', he'⟩ : ∃ e', (s.after b more).entrances[i]? = some e' := by
    have hi := (List.getElem?_eq_some_iff.mp he).1
    have hle := length_le_after b s more
    exact ⟨_, List.getElem?_eq_getElem (Nat.lt_of_lt_of_le hi hle)⟩
  obtain ⟨-, hcontroller⟩ := h.settled_after he he' hs
  constructor
  · have hover := (h.after more).over (b := b) he' (hcontroller ▸ hs)
    rwa [hcontroller, htransition] at hover
  · rcases h.record_of_settled (b := b) he hs more with hnone | ⟨id, hid, hp, hcleared⟩
    · exact .inl hnone
    · obtain ⟨timer, htimer, ho, rfl⟩ := h.kept.exists_timer he hid hp
      exact .inr ⟨timer, htimer, ho, hcleared⟩

theorem over_once_settled_by_frame :
    ((reached {} 0 [.textBlock, .logoCard] [.frame 600]).isMounted 0 = true ∧
      (reached {} 0 [.textBlock, .logoCard] [.frame 600]).isSettled 0 = true) ∧
    Over {} ((reached {} 0 [.textBlock, .logoCard] [.frame 600]).after {} [.frame 700, .unmount 0]) 0
        .textBlock ∧
      (own 0 ((reached {} 0 [.textBlock, .logoCard] [.frame 600]).record {}
          [.frame 700, .unmount 0]) = [] ∨
        ∃ timer ∈ (reached {} 0 [.textBlock, .logoCard] [.frame 600]).scheduler.timers,
          timer.owner = 0 ∧
            own 0 ((reached {} 0 [.textBlock, .logoCard] [.frame 600]).record {}
              [.frame 700, .unmount 0]) = [.timerCleared timer.id]) := by
  have hm : (reached {} 0 [.textBlock, .logoCard] [.frame 600]).isMounted 0 = true := by
    decide +kernel
  have hs : (reached {} 0 [.textBlock, .logoCard] [.frame 600]).isSettled 0 = true := by
    decide +kernel
  exact ⟨⟨hm, hs⟩, over_once_settled {} 0 [.textBlock, .logoCard] [.frame 600] 0 .textBlock rfl hm hs
    [.frame 700, .unmount 0]⟩

end Stage

end HeroPage
