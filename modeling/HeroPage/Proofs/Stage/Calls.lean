import HeroPage.Proofs.Stage.Answered
set_option autoImplicit false

namespace HeroPage

namespace Entrance

theorem follow_frame_controller (e : Entrance) (now : Float) (answer : Option Nat) :
    (e.follow (.frame now answer)).controller = e.controller.frame (now / 1000) := by
  simp only [follow]
  split <;> rfl

theorem follow_settled {e : Entrance} {c : Cue} (h : e.controller.isSettled = true) :
    (e.follow c).controller = e.controller := by
  cases c with
  | idle => rfl
  | frame now answer => rw [follow_frame_controller, Controller.frame_of_settled h]
  | timeout => simp only [follow, h, ↓reduceIte]
  | unmount pending =>
    rw [Controller.isSettled_iff] at h
    simp only [follow, leave, Controller.detach, h]

theorem mounted_of_follow {e : Entrance} {c : Cue} (h : (e.follow c).mounted = true) :
    e.mounted = true := by
  cases c with
  | idle => exact h
  | frame now answer =>
    simp only [follow] at h
    split at h <;> exact h
  | timeout =>
    simp only [follow] at h
    split at h <;> exact h
  | unmount pending => exact absurd h (by simp [follow])

end Entrance

namespace Stage

/-- The call that a step makes if it gives a frame to entrance `i`. -/
def heard (i : Nat) (s : Stage) : Step → List Controller.Call
  | .frame now =>
    if s.scheduler.frames.any fun t => t.owner == i then [.frame (now / 1000)] else []
  | _ => []

def heardAll (b : Browser) (i : Nat) (s : Stage) : List Step → List Controller.Call
  | [] => []
  | step :: steps => s.heard i step ++ heardAll b i (s.step b step).stage steps

def fires (i : Nat) (s : Stage) : Step → Bool
  | .timeout id => s.scheduler.timers.any fun t => t.id == id && t.owner == i
  | _ => false

/-- Whether the timer of entrance `i` fires while the controller, which is called for the frames,
has not settled. -/
def forced (b : Browser) (i : Nat) (c : Controller) (s : Stage) : List Step → Bool
  | [] => false
  | step :: steps =>
    s.fires i step && !c.isSettled ||
      forced b i (c.after (s.heard i step)) (s.step b step).stage steps

def calls (b : Browser) (i : Nat) (c : Controller) (s : Stage) (steps : List Step) :
    List Controller.Call :=
  heardAll b i s steps ++ if forced b i c s steps then [.skip] else []

section
variable {b : Browser} {s : Stage} {i : Nat} {e e' : Entrance} {steps : List Step}

theorem calls_of_not_forced {c : Controller} {step : Step}
    (h : (s.fires i step && !c.isSettled) = false) :
    calls b i c s (step :: steps) =
      s.heard i step ++ calls b i (c.after (s.heard i step)) (s.step b step).stage steps := by
  simp only [calls, heardAll, forced, h, Bool.false_or, List.append_assoc]

theorem Sound.heard_frame (h : s.Sound []) (he : s.entrances[i]? = some e) (now : Float) :
    s.heard i (.frame now) = if e.frame.isSome then [.frame (now / 1000)] else [] := by
  have hany : (s.scheduler.frames.any fun t => t.owner == i) = e.frame.isSome := by
    rw [Bool.eq_iff_iff, ← h.waits_iff he]
    simp
  simp only [heard, hany]

theorem Sound.fires_timeout (h : s.Sound []) (he : s.entrances[i]? = some e)
    (id : Nat) :
    s.fires i (.timeout id) = true ↔ s.scheduler.pending i = true ∧ e.timer = some id := by
  simp only [fires, List.any_eq_true, Bool.and_eq_true, beq_iff_eq, Scheduler.pending_iff]
  constructor
  · rintro ⟨t, ht, rfl, ho⟩
    exact ⟨⟨t, ht, ho⟩, h.kept.id_eq he ht ho⟩
  · rintro ⟨⟨t, ht, ho⟩, hid⟩
    exact ⟨t, ht, Option.some.inj ((h.kept.id_eq he ht ho).symm.trans hid), ho⟩

theorem Sound.mounted_of_after (h : s.Sound []) (he : s.entrances[i]? = some e)
    (he' : (s.after b steps).entrances[i]? = some e') (hm : e'.mounted = true) :
    e.mounted = true := by
  induction steps generalizing s e with
  | nil =>
    obtain rfl : e = e' := Option.some.inj (he.symm.trans he')
    exact hm
  | cons step steps ih =>
    exact Entrance.mounted_of_follow (ih (h.step step) (h.follows he step).entrance he')

theorem Sound.settled_after (h : s.Sound []) (he : s.entrances[i]? = some e)
    (he' : (s.after b steps).entrances[i]? = some e') (hs : e.controller.isSettled = true) :
    heardAll b i s steps = [] ∧ e'.controller = e.controller := by
  induction steps generalizing s e with
  | nil =>
    obtain rfl : e = e' := Option.some.inj (he.symm.trans he')
    exact ⟨rfl, rfl⟩
  | cons step steps ih =>
    have hfollow := Entrance.follow_settled (c := s.cue b i e step) hs
    obtain ⟨hrest, hcontroller⟩ :=
      ih (h.step step) (h.follows he step).entrance he' (hfollow ▸ hs)
    have hheard : s.heard i step = [] := by
      cases step with
      | frame now =>
        have hf : e.frame = none := by
          cases hf : e.frame with
          | none => rfl
          | some id => exact absurd (hs.symm.trans ((h.each i e he).waits id hf).2) (by decide)
        rw [h.heard_frame he, hf]
        rfl
      | _ => rfl
    exact ⟨by rw [heardAll, hheard, hrest]; rfl, hcontroller.trans hfollow⟩

theorem Sound.controller_step (h : s.Sound []) (he : s.entrances[i]? = some e) {step : Step}
    (hm : (e.follow (s.cue b i e step)).mounted = true)
    (hf : (s.fires i step && !e.controller.isSettled) = false) :
    (e.follow (s.cue b i e step)).controller = e.controller.after (s.heard i step) := by
  cases step with
  | frame now =>
    rw [h.heard_frame he]
    cases hframe : e.frame.isSome with
    | true =>
      simp only [cue, hframe, ↓reduceIte, Entrance.follow_frame_controller]
      rfl
    | false =>
      simp only [cue, hframe, Bool.false_eq_true, ↓reduceIte]
      rfl
  | timeout id =>
    have hfires := h.fires_timeout he id
    by_cases hp : s.scheduler.pending i = true ∧ e.timer = some id
    · rw [hfires.mpr hp, Bool.true_and, Bool.not_eq_false'] at hf
      exact Entrance.follow_settled hf
    · simp only [cue, hp, ↓reduceIte]
      rfl
  | unmount j =>
    by_cases hj : j = i ∧ e.mounted = true
    · simp [cue, hj, Entrance.follow] at hm
    · simp only [cue, hj, ↓reduceIte]
      rfl
  | mount t now => rfl

theorem Sound.force_step (h : s.Sound []) (he : s.entrances[i]? = some e) {step : Step}
    (hf : (s.fires i step && !e.controller.isSettled) = true) :
    s.heard i step = [] ∧ e.follow (s.cue b i e step) = e.force := by
  rw [Bool.and_eq_true, Bool.not_eq_true'] at hf
  cases step with
  | timeout id =>
    have hp := (h.fires_timeout he id).mp hf.1
    exact ⟨rfl, by simp [cue, hp, Entrance.follow, hf.2]⟩
  | _ => exact absurd hf.1 (by simp [fires])

theorem Sound.controller_after (h : s.Sound []) (he : s.entrances[i]? = some e)
    (he' : (s.after b steps).entrances[i]? = some e') (hm : e'.mounted = true) :
    e'.controller = e.controller.after (calls b i e.controller s steps) := by
  -- a step that forces the entrance is the last one to call it: no frame comes after it, so the
  -- calls for frames all stand in front of the skip
  induction steps generalizing s e with
  | nil =>
    obtain rfl : e = e' := Option.some.inj (he.symm.trans he')
    rfl
  | cons step steps ih =>
    have hnext := (h.follows (b := b) he step).entrance
    have hmounted := (h.step step).mounted_of_after hnext he' hm
    cases hf : s.fires i step && !e.controller.isSettled with
    | false =>
      have hstep := h.controller_step he hmounted hf
      rw [ih (h.step step) hnext he', calls_of_not_forced hf, Controller.after_append, hstep]
    | true =>
      obtain ⟨hheard, hforce⟩ := h.force_step (b := b) he hf
      rw [hforce] at hnext hmounted
      rw [Bool.and_eq_true, Bool.not_eq_true'] at hf
      obtain ⟨-, hsettled⟩ := Entrance.force_sound (h.each i e he) hmounted hf.2
      obtain ⟨hrest, hcontroller⟩ := (h.step step).settled_after hnext he' hsettled
      rw [hcontroller]
      simp only [calls, heardAll, hheard, hrest, forced, hf.1, hf.2]
      rfl

end

/-- On the stage `s`, entrance `i` is what its controller `c` says. -/
structure Plays (s : Stage) (record : List Entry) (i : Nat) (c : Controller) : Prop where
  shown : s.styles[i]? = some (some c.current.css)
  phase : (∃ start, c.phase = .running start) ∨ c.phase = .settled
  /-- Unless its latest request was refused, it waits for a frame just while it runs. -/
  waits : latest (own i record) ≠ some false →
    ((∃ ticket ∈ s.scheduler.frames, ticket.owner = i) ↔ ∃ start, c.phase = .running start)

theorem Sound.plays {s : Stage} {record : List Entry} {i : Nat} {e : Entrance} (h : s.Sound [])
    (ha : s.Answered record) (he : s.entrances[i]? = some e) (hm : e.mounted = true)
    (hlatest : latest (own i record) ≠ none) : Plays s record i e.controller := by
  have hsound := h.each i e he
  have hstyle : s.styles[i]? = some (some e.controller.current.css) := by
    simp [styles, he, Entrance.css?, hm, hsound.shown]
  cases hs : e.controller.isSettled with
  | true =>
    have hphase := Controller.isSettled_iff.mp hs
    refine ⟨hstyle, .inr hphase, fun _ => ⟨fun hwaits => ?_, fun ⟨start, hstart⟩ => ?_⟩⟩
    · obtain ⟨id, hid⟩ := Option.isSome_iff_exists.mp ((h.waits_iff he).mp hwaits)
      exact absurd (hs.symm.trans (hsound.waits id hid).2) (by decide)
    · exact absurd (hphase.symm.trans hstart) (by simp)
  | false =>
    have hrunning := Controller.isRunning_iff.mp (hsound.playing hm hs).1
    refine ⟨hstyle, .inl hrunning, fun hgranted => iff_of_true ?_ hrunning⟩
    rw [h.waits_iff he, ha i e he hm hs]
    obtain ⟨answer, hanswer⟩ := Option.ne_none_iff_exists'.mp hlatest
    cases answer with
    | true => exact hanswer
    | false => exact absurd hanswer hgranted

/-- Of a run in which an entrance that can play is mounted at `now`, in milliseconds, between the
steps of `pre` and `post`. -/
theorem plays_calls (b : Browser) (clock : Float) (pre : List Step) (t : Transition) (now : Float)
    (post : List Step) (ht : t.validate = .ok ()) (hw : b.window = true) (hc : b.clock = true)
    (hr : b.reducedMotion = false)
    (hq : ((empty clock).after b pre).scheduler.requests + 1 ∉ b.refused)
    (hm : ((empty clock).after b (pre ++ .mount t now :: post)).isMounted
      ((empty clock).after b pre).entrances.length = true) :
    let i := ((empty clock).after b pre).entrances.length
    let start := ((Controller.new t).attach (now / 1000)).1
    Plays ((empty clock).after b (pre ++ .mount t now :: post))
      ((empty clock).record b (pre ++ .mount t now :: post)) i
      ((Controller.new t).after (.attach (now / 1000) ::
        calls b i start ((empty clock).after b (pre ++ [.mount t now])) post)) := by
  intro i start
  let s := (empty clock).after b pre
  have h : s.Sound [] := (empty_sound clock).after pre
  have ha : admits b t = .ok () := admits_of_ready ht hw hc
  have hoffer : s.scheduler.offer b =
      some (s.scheduler.lastFrame + 1, s.scheduler.lastTimer + 1) := if_neg hq
  obtain ⟨harrive, harrival⟩ := Entrance.arrive_of_admitted ha hr now (s.scheduler.lastFrame + 1)
    (s.scheduler.lastTimer + 1)
  rw [← hoffer] at harrive harrival
  have hstart : (s.step b (.mount t now)).stage.entrances[i]? =
      some (.starting t (now / 1000) (s.scheduler.lastFrame + 1) (s.scheduler.lastTimer + 1)) := by
    rw [← harrive]
    exact getElem?_mount (s := { s with clock := now }) t
  have hanswered := (Answered.empty clock).after (b := b) (empty_sound clock)
    (pre ++ .mount t now :: post)
  have hlatest : latest (own i ((empty clock).record b (pre ++ .mount t now :: post))) ≠ none := by
    rw [own_record, latest_append, harrival]
    exact fun hnone => Option.some_ne_none true (Option.or_eq_none_iff.mp hnone).2
  rw [List.nil_append, after_append_cons] at hanswered
  rw [after_append_cons] at hm ⊢
  obtain ⟨e, he, hmounted⟩ := exists_of_isMounted hm
  have hcontroller := (h.step _).controller_after hstart he hmounted
  have hplays := ((h.step _).after post).plays hanswered he hmounted hlatest
  rw [hcontroller] at hplays
  rw [after_append_cons]
  exact hplays

theorem plays_calls_forced :
    Transition.textBlock.validate = .ok () ∧
      ((empty 0).after {} [.mount .textBlock 0, .frame 100, .timeout 1]).isMounted 0 = true ∧
      forced {} 0 ((Controller.new .textBlock).attach (0 / 1000)).1
        ((empty 0).after {} [.mount .textBlock 0]) [.frame 100, .timeout 1] = true ∧
      Plays ((empty 0).after {} [.mount .textBlock 0, .frame 100, .timeout 1])
        ((empty 0).record {} [.mount .textBlock 0, .frame 100, .timeout 1]) 0
        ((Controller.new .textBlock).after (.attach (0 / 1000) ::
          calls {} 0 ((Controller.new .textBlock).attach (0 / 1000)).1
            ((empty 0).after {} [.mount .textBlock 0]) [.frame 100, .timeout 1])) := by
  have ht : Transition.textBlock.validate = .ok () :=
    Transition.textBlock.validate_eq_ok_iff.mpr (by decide +kernel)
  have hm :
      ((empty 0).after {} [.mount .textBlock 0, .frame 100, .timeout 1]).isMounted 0 = true := by
    decide +kernel
  exact ⟨ht, hm, by decide +kernel, plays_calls {} 0 [] .textBlock 0 [.frame 100, .timeout 1] ht rfl
    rfl rfl List.not_mem_nil hm⟩

end Stage

end HeroPage
