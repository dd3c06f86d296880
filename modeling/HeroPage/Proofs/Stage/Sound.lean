import HeroPage.Proofs.Stage.Kept
import HeroPage.Proofs.Stage.Queued
set_option autoImplicit false

/-! The invariant of all stages: an entrance on the page has settled or is under way, its style shows its
controller's state, and its frame and its timer are the browser's. -/

namespace HeroPage

def Controller.isRunning (c : Controller) : Bool :=
  match c.phase with
  | .running _ => true
  | _ => false

theorem Controller.isRunning_iff {c : Controller} :
    c.isRunning = true ↔ ∃ start, c.phase = .running start := by
  unfold isRunning
  cases c.phase <;> simp

theorem Controller.isSettled_iff {c : Controller} : c.isSettled = true ↔ c.phase = .settled := by
  unfold isSettled Phase.isSettled
  cases c.phase <;> simp

namespace Entrance

structure Sound (e : Entrance) : Prop where
  shown : e.style = e.controller.current
  settled : e.controller.isSettled = true → e.controller.current = e.controller.transition.target
  playing : e.mounted = true → e.controller.isSettled = false →
    e.controller.isRunning = true ∧ e.callback = true
  waits : ∀ id, e.frame = some id → e.mounted = true ∧ e.controller.isSettled = false

theorem still_sound (t : Transition) : (still t).Sound where
  shown := rfl
  settled _ := rfl
  playing _ h := absurd h (by simp [still, Controller.skip, Controller.new, Controller.isSettled,
    Phase.isSettled])
  waits _ h := by simp [still] at h

theorem starting_sound (t : Transition) (now : Float) (frame timer : Nat) :
    (starting t now frame timer).Sound where
  shown := rfl
  settled h := by simp [starting, Controller.attach, Controller.new, Controller.isSettled,
    Phase.isSettled] at h
  playing _ _ := ⟨rfl, rfl⟩
  waits _ _ := ⟨rfl, rfl⟩

theorem draw_sound {e : Entrance} (h : e.Sound) (hm : e.mounted = true)
    (hn : e.controller.isSettled = false) (now : Float) : (e.draw now).Sound := by
  obtain ⟨start, hp⟩ := Controller.isRunning_iff.mp (h.playing hm hn).1
  refine ⟨rfl, fun hs => ?_, fun _ hs => ?_, fun id hf => by simp [draw] at hf⟩
  · rcases Controller.frame_of_running hp (now / 1000) with ⟨-, hc⟩ | ⟨hr, -⟩
    · simpa [draw] using hc
    · rw [Controller.isSettled_iff] at hs
      simp [draw, hr] at hs
  · rcases Controller.frame_of_running hp (now / 1000) with ⟨hr, -⟩ | ⟨hr, -⟩
    · simp [draw, Controller.isSettled, hr, Phase.isSettled] at hs
    · exact ⟨Controller.isRunning_iff.mpr ⟨start, hr⟩, (h.playing hm hn).2⟩

theorem requested_sound {e : Entrance} (h : e.Sound) (hm : e.mounted = true)
    (hn : e.controller.isSettled = false) (id : Nat) : { e with frame := some id }.Sound where
  shown := h.shown
  settled := h.settled
  playing := h.playing
  waits _ _ := ⟨hm, hn⟩

theorem force_sound {e : Entrance} (h : e.Sound) (hm : e.mounted = true)
    (hn : e.controller.isSettled = false) :
    e.force.Sound ∧ e.force.controller.isSettled = true := by
  obtain ⟨start, hp⟩ := Controller.isRunning_iff.mp (h.playing hm hn).1
  have hs : e.force.controller.isSettled = true := by
    simp [force, Controller.skip, hp, Controller.isSettled, Phase.isSettled]
  have hc : e.force.controller.current = e.force.controller.transition.target := by
    simp [force, Controller.skip, hp]
  exact ⟨⟨rfl, fun _ => hc, fun _ hf => absurd hf (by simp [hs]),
    fun id hf => by simp [force] at hf⟩, hs⟩

theorem leave_sound {e : Entrance} (h : e.Sound) : e.leave.Sound := by
  refine ⟨?_, fun hs => ?_, fun hm => by simp at hm, fun id hf => by simp at hf⟩
  · simpa [leave] using h.shown
  · simp only [leave, Controller.detach_isSettled, Controller.detach_current,
      Controller.detach_transition] at hs ⊢
    exact h.settled hs

end Entrance

namespace Stage

/-- What holds of a stage on which the frames of `due` are being given out. -/
structure Sound (s : Stage) (due : List Ticket) : Prop where
  each : ∀ (i : Nat) (e : Entrance), s.entrances[i]? = some e → e.Sound
  queued : Queued s.scheduler s.entrances due
  kept : Kept s.scheduler s.entrances

theorem empty_sound (clock : Float) : (empty clock).Sound [] where
  each i e h := by simp [empty] at h
  queued := ⟨rfl, List.nodup_nil, by simp [waiting, held, empty]⟩
  kept := ⟨List.nil_sublist _, List.nodup_nil, by simp [alarms, held, empty],
    fun i e h => by simp [empty] at h⟩

namespace Sound
variable {b : Browser} {s : Stage} {due : List Ticket}

theorem each_set {i : Nat} {e : Entrance} (h : s.Sound due) (he : e.Sound) :
    ∀ (j : Nat) (e₁ : Entrance), (s.entrances.set i e)[j]? = some e₁ → e₁.Sound := by
  intro j e₁ hj
  rcases getElem?_set_cases hj with ⟨-, rfl⟩ | ⟨-, hj⟩
  · exact he
  · exact h.each j e₁ hj

theorem each_add {e : Entrance} (h : s.Sound due) (he : e.Sound) :
    ∀ (j : Nat) (e₁ : Entrance), (s.entrances ++ [e])[j]? = some e₁ → e₁.Sound := by
  intro j e₁ hj
  rcases getElem?_concat hj with hj | ⟨-, rfl⟩
  · exact h.each j e₁ hj
  · exact he

theorem add_still (h : s.Sound []) (t : Transition) : (s.add (.still t)).Sound [] where
  each := h.each_add (Entrance.still_sound t)
  queued := h.queued.add_idle rfl
  kept := h.kept.add rfl rfl

theorem mount (h : s.Sound []) (t : Transition) : (s.mount b t).1.Sound [] := by
  rcases mount_cases b s t with ⟨f, hmount⟩ | hmount | hmount | hmount
  · rw [hmount]
    exact h.add_still t
  · rw [hmount]
    exact h.add_still t
  · rw [hmount]
    have hrefused : { s with scheduler := s.scheduler.refuse }.Sound [] :=
      ⟨h.each, h.queued.of_eq rfl rfl, h.kept.of_eq rfl rfl⟩
    exact hrefused.add_still t
  · rw [hmount]
    have hkept : Kept (s.scheduler.grant s.entrances.length) s.entrances := h.kept.of_eq rfl rfl
    exact ⟨h.each_add (Entrance.starting_sound ..), (h.queued.add_asking rfl).of_eq rfl rfl,
      hkept.add_timed rfl⟩

theorem owner_of_due {t : Ticket} (h : s.Sound (t :: due)) :
    ∃ e, s.entrances[t.owner]? = some e ∧ e.frame = some t.id ∧ e.mounted = true ∧
      e.controller.isSettled = false ∧ e.callback = true := by
  obtain ⟨e, he, hf⟩ := h.queued.mem_due
  obtain ⟨hm, hn⟩ := (h.each _ e he).waits t.id hf
  exact ⟨e, he, hf, hm, hn, ((h.each _ e he).playing hm hn).2⟩

theorem deliver {t : Ticket} (h : s.Sound (t :: due)) (now : Float) :
    (s.deliver b now t.owner).1.Sound due := by
  obtain ⟨e, he, hf, hm, hn, hc⟩ := h.owner_of_due
  have hd : (e.draw now).Sound := Entrance.draw_sound (h.each _ e he) hm hn now
  have hkept (frame : Option Nat) :
      Kept s.scheduler (s.entrances.set t.owner { e.draw now with frame := frame }) :=
    h.kept.set he (by simp [Entrance.alarm]) fun _ _ => ⟨hm, hn⟩
  cases hs : (e.draw now).controller.isSettled with
  | true =>
    rw [deliver_of_settled he hc hs]
    exact ⟨h.each_set hd, h.queued.come rfl, hkept none⟩
  | false =>
    by_cases hq : s.scheduler.requests + 1 ∈ b.refused
    · rw [deliver_of_refused he hc hs hq]
      exact ⟨h.each_set hd, (h.queued.come rfl).of_eq rfl rfl, (hkept none).of_eq rfl rfl⟩
    · rw [deliver_of_granted he hc hs hq]
      exact ⟨h.each_set (Entrance.requested_sound hd hm hs _), h.queued.come_again rfl,
        (hkept _).of_eq rfl rfl⟩

theorem deliverAll {ts : List Ticket} (h : s.Sound (ts ++ due)) (now : Float) :
    (s.deliverAll b now ts).1.Sound due := by
  induction ts generalizing s with
  | nil => exact h
  | cons t ts ih => exact ih (h.deliver now)

theorem waiting_eq (h : s.Sound []) : waiting s.entrances = s.scheduler.frames := by
  simpa using h.queued.eq

theorem taken (h : s.Sound []) : s.taken.Sound s.scheduler.frames :=
  ⟨h.each, ⟨h.waiting_eq, h.queued.nodup, h.queued.le⟩, h.kept.of_eq rfl rfl⟩

theorem all_due (h : s.Sound []) : s.taken.Sound (s.scheduler.frames ++ []) := by
  rw [List.append_nil]
  exact h.taken

theorem frame (h : s.Sound []) (now : Float) : (s.frame b now).1.Sound [] :=
  h.all_due.deliverAll now

theorem fire {t : Timer} (h : s.Sound []) (ht : t ∈ s.scheduler.timers) :
    (s.fire t).1.Sound [] := by
  obtain ⟨e, he, hm, hid, -⟩ := h.kept.owner_of_mem ht
  cases hs : e.controller.isSettled with
  | true =>
    rw [fire_of_settled he hs]
    refine ⟨h.each, h.queued.of_eq rfl rfl, h.kept.dropped ht fun e₁ he₁ _ => ?_⟩
    obtain rfl : e = e₁ := Option.some.inj (he.symm.trans he₁)
    exact hs
  | false =>
    rw [fire_of_unsettled he hs]
    obtain ⟨hsound, hforced⟩ := Entrance.force_sound (h.each _ e he) hm hs
    have hkept : Kept s.scheduler (s.entrances.set t.owner e.force) :=
      h.kept.set he (by simp [Entrance.alarm]) fun _ hn => by simp [hforced] at hn
    have hqueued : Queued (s.scheduler.dropTimer t.id) s.entrances [] := h.queued.of_eq rfl rfl
    refine ⟨h.each_set hsound, hqueued.released he rfl, ?_⟩
    refine (hkept.dropped ht fun e₁ he₁ _ => ?_).of_eq (release_timers ..) (release_lastTimer ..)
    rcases getElem?_set_cases he₁ with ⟨-, rfl⟩ | ⟨hne, -⟩
    · exact hforced
    · exact absurd rfl hne

theorem takeDown {i : Nat} {e : Entrance} (h : s.Sound []) (he : s.entrances[i]? = some e)
    (hm : e.mounted = true) : (s.takeDown i e).1.Sound [] := by
  have hqueued : Queued (release s.scheduler i e).1 (s.entrances.set i e.leave) [] :=
    h.queued.released he rfl
  have hkept : Kept (release s.scheduler i e).1 s.entrances :=
    h.kept.of_eq (release_timers ..) (release_lastTimer ..)
  exact ⟨h.each_set (Entrance.leave_sound (h.each i e he)),
    hqueued.of_eq (clear_frames ..) (clear_lastFrame ..), hkept.cleared he hm⟩

theorem unmount (h : s.Sound []) (i : Nat) : (s.unmount i).1.Sound [] := by
  rcases unmount_cases s i with hunmount | ⟨e, he, hm, hunmount⟩
  · rw [hunmount]
    exact h
  · rw [hunmount]
    exact h.takeDown he hm

theorem id_eq {i : Nat} {e : Entrance} {t : Ticket} (h : s.Sound [])
    (he : s.entrances[i]? = some e) (ht : t ∈ s.scheduler.frames) (ho : t.owner = i) :
    e.frame = some t.id := by
  obtain ⟨e', he', hf⟩ := mem_waiting.mp (h.waiting_eq ▸ ht)
  obtain rfl : e = e' := Option.some.inj (he.symm.trans (ho ▸ he'))
  exact hf

theorem frames_split {i id : Nat} {e : Entrance} (h : s.Sound []) (he : s.entrances[i]? = some e)
    (hf : e.frame = some id) :
    ∃ ahead behind, s.scheduler.frames = ahead ++ ⟨id, i⟩ :: behind ∧
      (∀ t ∈ ahead, t.owner ≠ i) ∧ ∀ t ∈ behind, t.owner ≠ i := by
  have hmem : ⟨id, i⟩ ∈ s.scheduler.frames := h.waiting_eq ▸ mem_waiting.mpr ⟨e, he, hf⟩
  obtain ⟨ahead, behind, hsplit⟩ := List.append_of_mem hmem
  obtain ⟨hahead, hbehind⟩ := key_ne_of_nodup (hsplit ▸ h.waiting_eq ▸ h.queued.nodup)
  have hid : ∀ t ∈ s.scheduler.frames, t.owner = i → t.id = id := fun t ht ho =>
    Option.some.inj ((h.id_eq he ht ho).symm.trans hf)
  refine ⟨ahead, behind, hsplit, fun t ht ho => hahead t ht (hid t ?_ ho),
    fun t ht ho => hbehind t ht (hid t ?_ ho)⟩
  · rw [hsplit]
    exact List.mem_append_left _ ht
  · rw [hsplit]
    exact List.mem_append_right _ (List.mem_cons_of_mem _ ht)

theorem waits_iff {i : Nat} {e : Entrance} (h : s.Sound []) (he : s.entrances[i]? = some e) :
    (∃ t ∈ s.scheduler.frames, t.owner = i) ↔ e.frame.isSome = true := by
  constructor
  · rintro ⟨t, ht, ho⟩
    rw [h.id_eq he ht ho]
    rfl
  · intro hf
    obtain ⟨id, hid⟩ := Option.isSome_iff_exists.mp hf
    obtain ⟨ahead, behind, hsplit, -, -⟩ := h.frames_split he hid
    exact ⟨⟨id, i⟩, by simp [hsplit], rfl⟩

theorem owner_lt {t : Ticket} (h : s.Sound []) (ht : t ∈ s.scheduler.frames) :
    t.owner < s.entrances.length := by
  obtain ⟨e, he, -⟩ := mem_waiting.mp (h.waiting_eq ▸ ht)
  exact (List.getElem?_eq_some_iff.mp he).1

theorem step (h : s.Sound []) (step : Step) : (s.step b step).stage.Sound [] := by
  cases step with
  | frame now => exact h.frame now
  | timeout id =>
    rcases timeout_cases b s id with hstep | ⟨t, ht, -, hstep⟩
    · rw [hstep]
      exact h
    · rw [hstep]
      exact h.fire ht
  | unmount i => exact h.unmount i
  | mount t now =>
    have hclock : { s with clock := now }.Sound [] := ⟨h.each, h.queued, h.kept⟩
    exact hclock.mount t

theorem after (h : s.Sound []) (steps : List Step) : (s.after b steps).Sound [] := by
  induction steps generalizing s with
  | nil => exact h
  | cons step steps ih => exact ih (h.step step)

theorem mountAll (h : s.Sound []) (ts : List Transition) : (s.mountAll b ts).1.Sound [] := by
  induction ts generalizing s with
  | nil => exact h
  | cons t ts ih => exact ih (h.mount t)

end Sound

end Stage

end HeroPage
