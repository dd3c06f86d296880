import HeroPage.Proofs.Stage.Cue
import HeroPage.Proofs.Stage.Reached
set_option autoImplicit false

namespace HeroPage

/-- The numbers of the frame and the timer that an entrance gets if it is mounted now. -/
def Scheduler.offer (q : Scheduler) (b : Browser) : Option (Nat × Nat) :=
  if q.requests + 1 ∈ b.refused then none else some (q.lastFrame + 1, q.lastTimer + 1)

namespace Entrance

def arrive (b : Browser) (t : Transition) (now : Float) (offer : Option (Nat × Nat)) : Entrance :=
  match Stage.admits b t, b.reducedMotion, offer with
  | .ok _, false, some (frame, timer) => starting t (now / 1000) frame timer
  | _, _, _ => still t

def arrival (b : Browser) (t : Transition) (offer : Option (Nat × Nat)) : List Event :=
  match Stage.admits b t with
  | .error f => [.logged (.skipped f)]
  | .ok _ =>
    if b.reducedMotion then [.queried, .logged .reducedMotion]
    else
      match offer with
      | none => [.queried, .refused, .logged (.skipped (.scheduler (.refused b.thrown)))]
      | some (frame, timer) => [.queried, .requested frame, .timerSet timer (settleMillis t)]

theorem arrive_cases (b : Browser) (t : Transition) (now : Float) (offer : Option (Nat × Nat)) :
    arrive b t now offer = still t ∨
      ∃ frame timer, arrive b t now offer = starting t (now / 1000) frame timer ∧
        arrival b t offer = [.queried, .requested frame, .timerSet timer (settleMillis t)] := by
  unfold arrive
  split
  · next _ _ _ frame timer ha hm =>
    exact .inr ⟨frame, timer, rfl, by simp [arrival, ha, hm]⟩
  · exact .inl rfl

theorem arrive_of_admitted {b : Browser} {t : Transition} (ha : Stage.admits b t = .ok ())
    (hm : b.reducedMotion = false) (now : Float) (frame timer : Nat) :
    arrive b t now (some (frame, timer)) = starting t (now / 1000) frame timer ∧
      arrival b t (some (frame, timer)) =
        [.queried, .requested frame, .timerSet timer (settleMillis t)] := by
  simp [arrive, arrival, ha, hm]

theorem still_isSettled (t : Transition) : (still t).controller.isSettled = true := rfl

end Entrance

namespace Stage

theorem admits_of_ready {b : Browser} {t : Transition} (ht : t.validate = .ok ())
    (hw : b.window = true) (hc : b.clock = true) : admits b t = .ok () := by
  simp only [admits, ht, b.ready_eq_ok_iff.mpr ⟨hw, hc⟩]

variable {b : Browser} {s : Stage}

theorem mount_entrances (t : Transition) :
    (s.mount b t).1.entrances = s.entrances ++ [.arrive b t s.clock (s.scheduler.offer b)] := by
  cases ha : admits b t with
  | error f => simp [mount_of_error ha, add, Entrance.arrive, ha]
  | ok _ =>
    cases hm : b.reducedMotion with
    | true => simp [mount_of_reducedMotion ha hm, add, Entrance.arrive, ha, hm]
    | false =>
      by_cases hq : s.scheduler.requests + 1 ∈ b.refused
      · simp [mount_of_refused ha hm hq, add, Entrance.arrive, ha, hm, Scheduler.offer, hq]
      · simp [mount_of_granted ha hm hq, add, Entrance.arrive, ha, hm, Scheduler.offer, hq]

theorem mount_trace (t : Transition) :
    (s.mount b t).2 =
      (Entrance.arrival b t (s.scheduler.offer b)).map fun x => ⟨s.entrances.length, x⟩ := by
  cases ha : admits b t with
  | error f => simp [mount_of_error ha, Entrance.arrival, ha]
  | ok _ =>
    cases hm : b.reducedMotion with
    | true => simp [mount_of_reducedMotion ha hm, Entrance.arrival, ha, hm]
    | false =>
      by_cases hq : s.scheduler.requests + 1 ∈ b.refused
      · simp [mount_of_refused ha hm hq, Entrance.arrival, ha, hm, Scheduler.offer, hq]
      · simp [mount_of_granted ha hm hq, Entrance.arrival, ha, hm, Scheduler.offer, hq]

theorem getElem?_mount (t : Transition) :
    (s.mount b t).1.entrances[s.entrances.length]? =
      some (.arrive b t s.clock (s.scheduler.offer b)) := by
  simp [mount_entrances]

theorem Sound.pending_mount (h : s.Sound []) (t : Transition) :
    (s.mount b t).1.scheduler.pending s.entrances.length =
      (Entrance.arrive b t s.clock (s.scheduler.offer b)).timer.isSome := by
  have hkept := (h.mount (b := b) t).kept
  have hget := getElem?_mount (b := b) (s := s) t
  rcases Entrance.arrive_cases b t s.clock (s.scheduler.offer b) with
    harrive | ⟨frame, timer, harrive, -⟩
  · rw [harrive] at hget ⊢
    exact hkept.pending_of_none hget rfl
  · rw [harrive] at hget ⊢
    exact Scheduler.pending_iff.mpr (hkept.ticking _ _ hget rfl rfl)

theorem own_mount (t : Transition) :
    own s.entrances.length (s.mount b t).2 = Entrance.arrival b t (s.scheduler.offer b) := by
  simp [mount_trace, own, List.filterMap_map]

namespace Sound

theorem silent {i : Nat} (h : s.Sound []) (step : Step)
    (hi : (s.step b step).stage.entrances.length ≤ i) : own i (s.step b step).trace = [] := by
  rw [length_step] at hi
  cases step with
  | frame now =>
    have hspares : Spares i s.taken (s.frame b now) := by
      refine Spares.deliverAll now fun t ht ho => ?_
      have hlt := h.owner_lt ht
      omega
    exact hspares.silent
  | timeout id =>
    rcases timeout_cases b s id with hstep | ⟨t, ht, -, hstep⟩
    · rw [hstep]
      rfl
    · rw [hstep]
      obtain ⟨e, he, -⟩ := h.kept.owner_of_mem ht
      have hlt := (List.getElem?_eq_some_iff.mp he).1
      exact (Spares.fire h ht (by omega)).silent
  | unmount j =>
    rcases unmount_cases s j with hunmount | ⟨e, he, hm, hunmount⟩
    · simp only [Stage.step, hunmount, own_nil]
    · have hlt := (List.getElem?_eq_some_iff.mp he).1
      simp only [Stage.step, hunmount]
      exact (Spares.takeDown h he hm (by omega)).silent
  | mount t now =>
    simp only [Step.mounted?, Option.toList_some, List.length_singleton] at hi
    refine own_eq_nil fun x hx => ?_
    rw [show (s.step b (.mount t now)).trace = ({ s with clock := now }.mount b t).2 from rfl,
      mount_trace] at hx
    obtain ⟨event, -, rfl⟩ := List.mem_map.mp hx
    simp only
    omega

theorem silent_record {i : Nat} (h : s.Sound []) (steps : List Step)
    (hi : (s.after b steps).entrances.length ≤ i) : own i (s.record b steps) = [] := by
  induction steps generalizing s with
  | nil => rfl
  | cons step steps ih =>
    have hle := length_le_after b (s.step b step).stage steps
    rw [record_cons, own_append, h.silent step (Nat.le_trans hle hi), ih (h.step step) hi]
    rfl

end Sound

theorem own_record (clock : Float) (pre : List Step) (t : Transition) (now : Float)
    (post : List Step) :
    own ((empty clock).after b pre).entrances.length
        ((empty clock).record b (pre ++ .mount t now :: post)) =
      Entrance.arrival b t (((empty clock).after b pre).scheduler.offer b) ++
        own ((empty clock).after b pre).entrances.length
          ((((empty clock).after b pre).step b (.mount t now)).stage.record b post) := by
  have hsilent := (empty_sound clock).silent_record (b := b) pre (Nat.le_refl _)
  have harrival := own_mount (b := b) (s := { (empty clock).after b pre with clock := now }) t
  rw [record_append, own_append, hsilent, List.nil_append, record_cons, own_append]
  exact congrArg (· ++ _) harrival

end Stage

end HeroPage
