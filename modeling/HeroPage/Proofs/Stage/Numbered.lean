import HeroPage.Proofs.Stage.Cue
import HeroPage.Proofs.Stage.Reached
set_option autoImplicit false

namespace HeroPage

def Event.answer? : Event → Option Bool
  | .requested _ => some true
  | .refused => some false
  | _ => none

def Event.granted? : Event → Option Nat
  | .requested id => some id
  | _ => none

def answers (events : List Event) : List Bool := events.filterMap Event.answer?

def granted (events : List Event) : List Nat := events.filterMap Event.granted?

@[simp] theorem answers_append (events more : List Event) :
    answers (events ++ more) = answers events ++ answers more := List.filterMap_append

@[simp] theorem granted_append (events more : List Event) :
    granted (events ++ more) = granted events ++ granted more := List.filterMap_append

namespace Stage

def events (trace : List Entry) : List Event := trace.map Entry.event

@[simp] theorem events_append (trace rest : List Entry) :
    events (trace ++ rest) = events trace ++ events rest := List.map_append

theorem own_sublist (i : Nat) (trace : List Entry) : (own i trace).Sublist (events trace) := by
  induction trace with
  | nil => exact List.Sublist.refl _
  | cons x trace ih =>
    by_cases hx : x.owner = i
    · simpa [own, events, hx] using ih
    · simpa [own, events, hx] using ih.cons x.event

/-- A part of a step that counts its requests. -/
structure Counts (s : Stage) (r : Stage × List Entry) : Prop where
  requests : r.1.scheduler.requests = s.scheduler.requests + (answers (events r.2)).length
  granted : ∃ n, granted (events r.2) = List.range' (s.scheduler.lastFrame + 1) n ∧
    r.1.scheduler.lastFrame = s.scheduler.lastFrame + n

namespace Counts
variable {b : Browser} {s : Stage}

theorem quiet {r : Stage × List Entry} (hq : r.1.scheduler.requests = s.scheduler.requests)
    (hl : r.1.scheduler.lastFrame = s.scheduler.lastFrame)
    (ha : ∀ x ∈ r.2, x.event.answer? = none) : Counts s r := by
  have hanswers : answers (events r.2) = [] := by simpa [answers, events] using ha
  have hgranted : HeroPage.granted (events r.2) = [] := by
    simp only [HeroPage.granted, events, List.filterMap_map, List.filterMap_eq_nil_iff]
    intro x hx
    have hx := ha x hx
    cases he : x.event <;> simp_all [Event.answer?, Event.granted?]
  exact ⟨by rw [hq, hanswers, List.length_nil, Nat.add_zero], 0, hgranted, hl⟩

theorem trans {r : Stage × List Entry} {t : Stage} {trace : List Entry} (h : Counts s r)
    (h' : Counts r.1 (t, trace)) : Counts s (t, r.2 ++ trace) := by
  obtain ⟨n, hn, hl⟩ := h.granted
  obtain ⟨m, hm, hl'⟩ := h'.granted
  refine ⟨?_, n + m, ?_, ?_⟩
  · rw [h'.requests, h.requests, events_append, answers_append, List.length_append, Nat.add_assoc]
  · rw [events_append, granted_append, hn, hm, hl, ← List.range'_append_1]
    congr 2
    omega
  · rw [hl', hl, Nat.add_assoc]

theorem lastFrame_eq {r : Stage × List Entry} (h : Counts s r) :
    r.1.scheduler.lastFrame =
      s.scheduler.lastFrame + (HeroPage.granted (events r.2)).length := by
  obtain ⟨n, hn, hl⟩ := h.granted
  rw [hn, List.length_range', hl]

theorem refused {r : Stage × List Entry} (hq : r.1.scheduler = s.scheduler.refuse)
    (ha : answers (events r.2) = [false]) (hg : HeroPage.granted (events r.2) = []) :
    Counts s r := by
  exact ⟨by rw [hq, ha]; rfl, 0, hg, by rw [hq]; rfl⟩

theorem grant {r : Stage × List Entry} (hq : r.1.scheduler.requests = s.scheduler.requests + 1)
    (hl : r.1.scheduler.lastFrame = s.scheduler.lastFrame + 1)
    (ha : answers (events r.2) = [true])
    (hg : HeroPage.granted (events r.2) = [s.scheduler.lastFrame + 1]) : Counts s r := by
  exact ⟨by rw [hq, ha]; rfl, 1, hg, hl⟩

theorem mount (t : Transition) : Counts s (s.mount b t) := by
  rcases mount_cases b s t with ⟨f, h⟩ | h | h | h
  · rw [h]
    exact quiet rfl rfl (by simp [Event.answer?])
  · rw [h]
    exact quiet rfl rfl (by simp [Event.answer?])
  · rw [h]
    exact refused rfl rfl rfl
  · rw [h]
    exact grant rfl rfl rfl rfl

theorem deliver (now : Float) (i : Nat) : Counts s (s.deliver b now i) := by
  rcases deliver_cases b s now i with h | ⟨e, -, h | h | h⟩
  · rw [h]
    exact quiet rfl rfl (by simp)
  · rw [h]
    exact quiet rfl rfl (by simp)
  · rw [h]
    exact refused rfl rfl rfl
  · rw [h]
    exact grant rfl rfl rfl rfl

theorem deliverAll (now : Float) (due : List Ticket) : Counts s (s.deliverAll b now due) := by
  induction due generalizing s with
  | nil => exact quiet rfl rfl (by simp [Stage.deliverAll])
  | cons t due ih => exact (deliver now t.owner).trans ih

theorem quiet_release {q : Scheduler} {i : Nat} {e : Entrance} {x : Entry}
    (h : x ∈ (release q i e).2) : x.event.answer? = none := by
  unfold release at h
  split at h
  · simp at h
  · obtain rfl := List.mem_singleton.mp h
    rfl

theorem quiet_clear {q : Scheduler} {i : Nat} {e : Entrance} {x : Entry}
    (h : x ∈ (clear q i e).2) : x.event.answer? = none := by
  unfold clear at h
  split at h
  · simp at h
  · split at h
    · obtain rfl := List.mem_singleton.mp h
      rfl
    · simp at h

theorem fire (t : Timer) : Counts s (s.fire t) := by
  rcases fire_cases s t with h | ⟨e, -, h⟩
  · rw [h]
    exact quiet rfl rfl (by simp)
  · rw [h]
    refine quiet (by simp [Scheduler.dropTimer]) (by simp [Scheduler.dropTimer]) fun x hx => ?_
    rcases List.mem_cons.mp hx with rfl | hx
    · rfl
    · exact quiet_release hx

theorem unmount (i : Nat) : Counts s (s.unmount i) := by
  rcases unmount_cases s i with h | ⟨e, -, -, h⟩
  · rw [h]
    exact quiet rfl rfl (by simp)
  · rw [h]
    refine quiet (by simp [takeDown]) (by simp [takeDown]) fun x hx => ?_
    rcases List.mem_append.mp hx with hx | hx
    · exact quiet_release hx
    · exact quiet_clear hx

theorem step (step : Step) : Counts s ((s.step b step).stage, (s.step b step).trace) := by
  cases step with
  | frame now =>
    have htaken := deliverAll (b := b) (s := s.taken) now s.scheduler.frames
    exact ⟨htaken.requests, htaken.granted⟩
  | timeout id =>
    rcases timeout_cases b s id with h | ⟨t, -, -, h⟩
    · rw [h]
      exact quiet rfl rfl (by simp)
    · rw [h]
      exact fire t
  | unmount i => exact unmount i
  | mount t now =>
    have hmount := mount (b := b) (s := { s with clock := now }) t
    exact ⟨hmount.requests, hmount.granted⟩

theorem after (steps : List Step) : Counts s (s.after b steps, s.record b steps) := by
  induction steps generalizing s with
  | nil => exact quiet rfl rfl (by simp)
  | cons step steps ih => exact (Counts.step step).trans ih

end Counts

theorem granted_nodup (b : Browser) (s : Stage) (steps : List Step) :
    (granted (events (s.record b steps))).Nodup := by
  obtain ⟨n, hn, -⟩ := (Counts.after (b := b) (s := s) steps).granted
  rw [hn]
  exact List.nodup_range'

end Stage

end HeroPage
