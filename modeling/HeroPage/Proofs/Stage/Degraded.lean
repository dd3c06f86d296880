import HeroPage.Proofs.Stage.Arrival
import HeroPage.Proofs.Stage.Resting
set_option autoImplicit false

namespace HeroPage

namespace Stage

/-- An entrance that is mounted now does not play. -/
def Degrades (b : Browser) (s : Stage) (t : Transition) : Prop :=
  (∃ f, t.validate = .error f) ∨ b.window = false ∨ b.clock = false ∨ b.motion = .answered true ∨
    s.scheduler.requests + 1 ∈ b.refused

theorem admits_eq_ok_iff (b : Browser) (t : Transition) :
    admits b t = .ok () ↔ t.validate = .ok () ∧ b.window = true ∧ b.clock = true := by
  rw [← b.ready_eq_ok_iff]
  unfold admits
  cases t.validate with
  | error f => simp
  | ok u => cases b.ready <;> simp

theorem reducedMotion_eq_true_iff (b : Browser) :
    b.reducedMotion = true ↔ b.motion = .answered true := by
  unfold Browser.reducedMotion
  cases b.motion <;> simp

theorem not_degrades_iff {b : Browser} {s : Stage} {t : Transition} :
    ¬Degrades b s t ↔ admits b t = .ok () ∧ b.reducedMotion = false ∧
      s.scheduler.requests + 1 ∉ b.refused := by
  have hvalidate : (¬∃ f, t.validate = .error f) ↔ t.validate = .ok () := by
    cases t.validate <;> simp
  simp only [Degrades, not_or, hvalidate, Bool.not_eq_false, admits_eq_ok_iff, and_assoc,
    ← reducedMotion_eq_true_iff, Bool.not_eq_true]

theorem arrive_of_degrades {b : Browser} {s : Stage} {t : Transition} (h : Degrades b s t)
    (now : Float) : Entrance.arrive b t now (s.scheduler.offer b) = .still t := by
  unfold Entrance.arrive
  split
  · next ha hm hoffer =>
    refine absurd h (not_degrades_iff.mpr ⟨ha, hm, fun hq => ?_⟩)
    simp [Scheduler.offer, hq] at hoffer
  · rfl

theorem arrive_of_not_degrades {b : Browser} {s : Stage} {t : Transition} (h : ¬Degrades b s t)
    (now : Float) :
    Entrance.arrive b t now (s.scheduler.offer b) =
      .starting t (now / 1000) (s.scheduler.lastFrame + 1) (s.scheduler.lastTimer + 1) := by
  obtain ⟨ha, hm, hq⟩ := not_degrades_iff.mp h
  rw [Scheduler.offer, if_neg hq]
  exact (Entrance.arrive_of_admitted ha hm now _ _).1

/-- The browser is asked about motion if nothing speaks against playing before that. -/
theorem queried_mem_arrival_iff (b : Browser) (t : Transition) (offer : Option (Nat × Nat)) :
    .queried ∈ Entrance.arrival b t offer ↔ admits b t = .ok () := by
  unfold Entrance.arrival
  cases admits b t with
  | error f => simp
  | ok u =>
    cases b.reducedMotion with
    | true => simp
    | false => cases offer <;> simp

/-- Entrance `i` shows the target of `t` without having played, now and as long as it is on the page.
No frame and no timer is its own, and no run puts anything on record for it. -/
structure Degraded (b : Browser) (s : Stage) (i : Nat) (t : Transition) : Prop where
  shown : s.styles[i]? = some (some t.target.css)
  idle : ∀ ticket ∈ s.scheduler.frames, ticket.owner ≠ i
  untimed : ∀ timer ∈ s.scheduler.timers, timer.owner ≠ i
  stays : ∀ more, (s.after b more).isMounted i = true →
    (s.after b more).styles[i]? = some (some t.target.css)
  silent : ∀ more, own i (s.record b more) = []

/-- Entrance `i` shows the source of `t` and has one frame and one timer. -/
structure Playing (s : Stage) (i : Nat) (t : Transition) : Prop where
  shown : s.styles[i]? = some (some t.source.css)
  frame : ∃ id, s.scheduler.framesOf i = [⟨id, i⟩]
  timer : ∃ id, s.scheduler.timersOf i = [⟨id, i, settleMillis t⟩]

section
variable {b : Browser} {s : Stage} {i : Nat} {t : Transition}

theorem Sound.degraded (h : s.Sound []) (he : s.entrances[i]? = some (.still t)) :
    Degraded b s i t where
  shown := by
    rw [styles, List.getElem?_map, he]
    rfl
  idle := (h.over (b := b) he rfl).idle
  untimed timer ht ho := by
    have hp : s.scheduler.pending i = true := Scheduler.pending_iff.mpr ⟨timer, ht, ho⟩
    exact absurd (hp.symm.trans (h.kept.pending_of_none he rfl)) (by decide)
  stays more hm := by
    obtain ⟨e', he', -⟩ := exists_of_isMounted hm
    obtain ⟨-, hcontroller⟩ := h.settled_after he he' rfl
    have hover := (h.after more).over (b := b) he' (hcontroller ▸ rfl)
    rw [hcontroller] at hover
    exact hover.shown hm
  silent more := by
    rcases h.record_of_settled (b := b) he rfl more with hnone | ⟨id, hid, -⟩
    · exact hnone
    · exact absurd hid (by simp [Entrance.still])

theorem Sound.playing {now : Float} {frame timer : Nat} (h : s.Sound [])
    (he : s.entrances[i]? = some (.starting t now frame timer)) : Playing s i t where
  shown := by
    rw [styles, List.getElem?_map, he]
    rfl
  frame := ⟨frame, h.framesOf_eq he⟩
  timer := by
    have hp : s.scheduler.pending i = true :=
      Scheduler.pending_iff.mpr (h.kept.ticking i _ he rfl rfl)
    refine ⟨timer, ?_⟩
    rw [h.kept.timersOf_eq he, hp]
    rfl

end

/-- What mounting an entrance does, whatever has happened on the page before. -/
theorem degraded_or_playing (b : Browser) (clock : Float) (ts : List Transition) (steps : List Step)
    (t : Transition) (now : Float) :
    let s := reached b clock ts steps
    let r := s.step b (.mount t now)
    (Degrades b s t ∧ Degraded b r.stage s.entrances.length t ∨
      ¬Degrades b s t ∧ Playing r.stage s.entrances.length t) ∧
    ((∃ x ∈ r.trace, x.event = .queried) ↔
      t.validate = .ok () ∧ b.window = true ∧ b.clock = true) := by
  intro s r
  have h : r.stage.Sound [] := (reached_sound b clock ts steps).step (.mount t now)
  have hget : r.stage.entrances[s.entrances.length]? =
      some (.arrive b t now (s.scheduler.offer b)) :=
    getElem?_mount (s := { s with clock := now }) t
  have htrace : r.trace =
      (Entrance.arrival b t (s.scheduler.offer b)).map fun x => ⟨s.entrances.length, x⟩ :=
    mount_trace (s := { s with clock := now }) t
  constructor
  · by_cases hd : Degrades b s t
    · rw [arrive_of_degrades hd] at hget
      exact .inl ⟨hd, h.degraded hget⟩
    · rw [arrive_of_not_degrades hd] at hget
      exact .inr ⟨hd, h.playing hget⟩
  · rw [htrace, ← admits_eq_ok_iff, ← queried_mem_arrival_iff b t (s.scheduler.offer b)]
    simp

end Stage

end HeroPage
