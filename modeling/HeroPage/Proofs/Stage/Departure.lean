import HeroPage.Proofs.Stage.Resting
set_option autoImplicit false

namespace HeroPage.Stage

section
variable {s : Stage} {i : Nat} {e : Entrance}

theorem Sound.release_frames (h : s.Sound []) (he : s.entrances[i]? = some e) :
    (release s.scheduler i e).1.frames = s.scheduler.frames.filter fun t => t.owner != i := by
  cases hf : e.frame with
  | none =>
    have hothers : ∀ t ∈ s.scheduler.frames, t.owner ≠ i := by
      rw [← Scheduler.framesOf_eq_nil_iff, h.framesOf_eq he, Entrance.ticket, hf]
      rfl
    simp only [release, hf]
    exact (List.filter_eq_self.mpr fun t ht => by simpa using hothers t ht).symm
  | some id =>
    simp only [release, hf, Scheduler.cancel]
    refine List.filter_congr fun t ht => ?_
    have howner := h.owner_iff he hf ht
    rw [Bool.eq_iff_iff, bne_iff_ne, bne_iff_ne, ne_eq, ne_eq, howner]

theorem Sound.release_trace (h : s.Sound []) (he : s.entrances[i]? = some e) :
    (release s.scheduler i e).2 =
      (s.scheduler.framesOf i).map fun t => ⟨i, .cancelled t.id⟩ := by
  rw [h.framesOf_eq he]
  cases hf : e.frame <;> simp [release, Entrance.ticket, hf]

variable {q : Scheduler} {es : List Entrance}

theorem Kept.clear_timers (h : Kept q es) (hi : es[i]? = some e) (hm : e.mounted = true) :
    (clear q i e).1.timers = q.timers.filter fun t => t.owner != i := by
  cases hid : e.timer with
  | none =>
    have hothers : ∀ t ∈ q.timers, t.owner ≠ i := fun t ht ho => by
      simp [h.id_eq hi ht ho] at hid
    rw [clear_of_none hid]
    exact (List.filter_eq_self.mpr fun t ht => by simpa using hothers t ht).symm
  | some id =>
    rw [clear_of_some hid, Scheduler.dropTimer]
    refine List.filter_congr fun t ht => ?_
    have howner : t.owner = i ↔ t.id = id :=
      ⟨fun ho => Option.some.inj ((h.id_eq hi ht ho).symm.trans hid),
        fun h' => h.owner_eq hi hm (h' ▸ hid) ht⟩
    rw [Bool.eq_iff_iff, bne_iff_ne, bne_iff_ne, ne_eq, ne_eq, howner]

theorem Kept.clear_trace (h : Kept q es) (hi : es[i]? = some e) (hm : e.mounted = true) :
    (clear q i e).2 = (q.timersOf i).map fun t => ⟨i, .timerCleared t.id⟩ := by
  rw [h.timersOf_eq hi]
  cases hid : e.timer with
  | none => simp [clear, hid, h.pending_of_none hi hid]
  | some id =>
    have hp := h.pending_eq hi hm hid
    cases hf : q.findTimer? id <;> simp [clear, hid, hf, hp, Entrance.alarm, hm]

end

/-- Entrance `i` is taken down from the stage `s` with the report `r`. -/
structure Leaves (b : Browser) (s : Stage) (i : Nat) (r : Report) : Prop where
  trace : r.trace =
    ((s.scheduler.framesOf i).map fun t => ⟨i, .cancelled t.id⟩) ++
      (s.scheduler.timersOf i).map fun t => ⟨i, .timerCleared t.id⟩
  one_frame : (s.scheduler.framesOf i).length ≤ 1
  one_timer : (s.scheduler.timersOf i).length ≤ 1
  gone : r.stage.styles[i]? = some none
  frames : r.stage.scheduler.frames = s.scheduler.frames.filter fun t => t.owner != i
  timers : r.stage.scheduler.timers = s.scheduler.timers.filter fun t => t.owner != i
  requests : r.stage.scheduler.requests = s.scheduler.requests
  clock : r.stage.clock = s.clock
  others : ∀ j, j ≠ i → r.stage.entrances[j]? = s.entrances[j]?
  /-- No step of any run that follows calls it or puts anything on record for it. -/
  silent : ∀ more step, heard i (r.stage.after b more) step = [] ∧
    fires i (r.stage.after b more) step = false ∧
    own i ((r.stage.after b more).step b step).trace = []

theorem Sound.heard_of_left {s : Stage} {i : Nat} {e : Entrance} (h : s.Sound [])
    (he : s.entrances[i]? = some e) (hm : e.mounted = false) (step : Step) :
    heard i s step = [] ∧ fires i s step = false := by
  cases step with
  | frame now =>
    refine ⟨?_, rfl⟩
    rw [h.heard_frame he, h.frame_of_left he hm]
    rfl
  | timeout id =>
    refine ⟨rfl, ?_⟩
    rw [Bool.eq_false_iff, ne_eq, h.fires_timeout he, h.pending_of_left he hm]
    simp
  | unmount j => exact ⟨rfl, rfl⟩
  | mount t now => exact ⟨rfl, rfl⟩

theorem Sound.leaves {b : Browser} {s : Stage} {i : Nat} {e : Entrance} (h : s.Sound [])
    (he : s.entrances[i]? = some e) (hm : e.mounted = true) :
    Leaves b s i (s.step b (.unmount i)) := by
  have hi := (List.getElem?_eq_some_iff.mp he).1
  have hstep : s.step b (.unmount i) =
      ⟨(s.takeDown i e).1, .done (s.isMounted i), (s.takeDown i e).2⟩ := by
    simp only [Stage.step, unmount_of_mounted he hm]
  have hkept : Kept (release s.scheduler i e).1 s.entrances :=
    h.kept.of_eq (release_timers ..) (release_lastTimer ..)
  have hsame : (release s.scheduler i e).1.timersOf i = s.scheduler.timersOf i := by
    simp only [Scheduler.timersOf, release_timers]
  have hleft : (s.step b (.unmount i)).stage.entrances[i]? = some e.leave := by
    rw [hstep]
    simp [Stage.takeDown, put, hi]
  rw [hstep] at hleft ⊢
  refine ⟨?_, h.framesOf_length_le he, h.kept.timersOf_length_le he, ?_, ?_, ?_, ?_, rfl, ?_, ?_⟩
  · rw [← h.release_trace he, ← hsame, ← hkept.clear_trace he hm]
    rfl
  · rw [styles, List.getElem?_map, hleft]
    rfl
  · rw [← h.release_frames he]
    exact clear_frames ..
  · have hcleared := hkept.clear_timers he hm
    rw [release_timers] at hcleared
    exact hcleared
  · exact (clear_requests ..).trans (release_requests ..)
  · exact fun j hj => List.getElem?_set_ne (Ne.symm hj)
  · intro more step
    have hsound : (s.takeDown i e).1.Sound [] := h.takeDown he hm
    have hafter := hsound.left_after (b := b) hleft rfl more
    obtain ⟨hheard, hfires⟩ := (hsound.after more).heard_of_left hafter rfl step
    exact ⟨hheard, hfires, (hsound.after more).own_of_left hafter rfl step⟩

theorem leaves_alone (b : Browser) (clock : Float) (ts : List Transition) (steps : List Step)
    (i : Nat) (hm : (reached b clock ts steps).isMounted i = true) :
    Leaves b (reached b clock ts steps) i ((reached b clock ts steps).step b (.unmount i)) := by
  obtain ⟨e, he, hmounted⟩ := exists_of_isMounted hm
  exact (reached_sound b clock ts steps).leaves he hmounted

theorem leaves_alone_running :
    (reached {} 0 [.textBlock, .logoCard] [.frame 100]).isMounted 0 = true ∧
      Leaves {} (reached {} 0 [.textBlock, .logoCard] [.frame 100]) 0
        ((reached {} 0 [.textBlock, .logoCard] [.frame 100]).step {} (.unmount 0)) := by
  have hm : (reached {} 0 [.textBlock, .logoCard] [.frame 100]).isMounted 0 = true := by
    decide +kernel
  exact ⟨hm, leaves_alone {} 0 [.textBlock, .logoCard] [.frame 100] 0 hm⟩

end HeroPage.Stage
