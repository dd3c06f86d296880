import HeroPage.Proofs.Stage.Sound
set_option autoImplicit false

namespace HeroPage.Stage

/-- The stage that a page has reached, from its opening with the entrances of `ts`. -/
def reached (b : Browser) (clock : Float) (ts : List Transition) (steps : List Step) : Stage :=
  ((empty clock).mountAll b ts).1.after b steps

theorem reached_sound (b : Browser) (clock : Float) (ts : List Transition) (steps : List Step) :
    (reached b clock ts steps).Sound [] :=
  ((empty_sound clock).mountAll ts).after steps

theorem mount_clock (b : Browser) (s : Stage) (t : Transition) :
    (s.mount b t).1.clock = s.clock := by
  rcases mount_cases b s t with ⟨f, h⟩ | h | h | h <;> rw [h] <;> rfl

def opening (clock : Float) (ts : List Transition) : List Step := ts.map fun t => .mount t clock

def record (b : Browser) (s : Stage) (steps : List Step) : List Entry :=
  (s.run b steps).flatMap Report.trace

@[simp] theorem record_nil (b : Browser) (s : Stage) : s.record b [] = [] := rfl

@[simp] theorem record_cons (b : Browser) (s : Stage) (step : Step) (steps : List Step) :
    s.record b (step :: steps) = (s.step b step).trace ++ (s.step b step).stage.record b steps :=
  rfl

theorem record_append (b : Browser) (s : Stage) (steps more : List Step) :
    s.record b (steps ++ more) = s.record b steps ++ (s.after b steps).record b more := by
  induction steps generalizing s with
  | nil => rfl
  | cons step steps ih =>
    rw [List.cons_append, record_cons, record_cons, ih, List.append_assoc]
    rfl

theorem after_append_cons (b : Browser) (s : Stage) (pre : List Step) (step : Step)
    (post : List Step) :
    s.after b (pre ++ step :: post) = ((s.after b pre).step b step).stage.after b post := by
  rw [after_append]
  rfl

theorem mountAll_eq (b : Browser) (s : Stage) (ts : List Transition) :
    s.mountAll b ts = (s.after b (opening s.clock ts), s.record b (opening s.clock ts)) := by
  induction ts generalizing s with
  | nil => rfl
  | cons t ts ih =>
    have hrest := ih (s.mount b t).1
    rw [mount_clock] at hrest
    simp only [mountAll, hrest]
    rfl

theorem reached_eq_after (b : Browser) (clock : Float) (ts : List Transition)
    (steps : List Step) :
    reached b clock ts steps = (empty clock).after b (opening clock ts ++ steps) := by
  rw [after_append, reached, mountAll_eq]
  rfl

def Step.mounted? : Step → Option Transition
  | .mount t _ => some t
  | _ => none

def transitions (s : Stage) : List Transition := s.entrances.map fun e => e.controller.transition

section
variable (b : Browser) (s : Stage)

theorem transitions_put {q : Scheduler} {i : Nat} {e e' : Entrance}
    (he : s.entrances[i]? = some e) (ht : e'.controller.transition = e.controller.transition) :
    ({ s with scheduler := q }.put i e').transitions = s.transitions := by
  obtain ⟨hi, hei⟩ := List.getElem?_eq_some_iff.mp he
  have hlen : i < (s.entrances.map fun e => e.controller.transition).length := by simpa using hi
  have hget : e.controller.transition =
      (s.entrances.map fun e => e.controller.transition)[i] := by
    simp [hei]
  rw [transitions, put, List.map_set, ht, hget, List.set_getElem_self]
  rfl

theorem transitions_deliver (now : Float) (i : Nat) :
    (s.deliver b now i).1.transitions = s.transitions := by
  rcases deliver_cases b s now i with h | ⟨e, he, h | h | h⟩
  · rw [h]
  · rw [h]
    exact transitions_put s he (by simp)
  · rw [h]
    exact transitions_put s he (by simp)
  · rw [h]
    exact transitions_put s he (by simp)

theorem transitions_deliverAll (now : Float) (due : List Ticket) :
    (s.deliverAll b now due).1.transitions = s.transitions := by
  induction due generalizing s with
  | nil => rfl
  | cons t due ih => exact (ih _).trans (transitions_deliver b s now t.owner)

theorem transitions_fire (t : Timer) : (s.fire t).1.transitions = s.transitions := by
  rcases fire_cases s t with h | ⟨e, he, h⟩
  · rw [h]
    rfl
  · rw [h]
    exact transitions_put s he (by simp)

theorem transitions_unmount (i : Nat) : (s.unmount i).1.transitions = s.transitions := by
  rcases unmount_cases s i with h | ⟨e, he, -, h⟩
  · rw [h]
  · rw [h]
    exact transitions_put s he (by simp)

theorem transitions_mount (t : Transition) :
    (s.mount b t).1.transitions = s.transitions ++ [t] := by
  rcases mount_cases b s t with ⟨f, h⟩ | h | h | h <;> rw [h] <;>
    simp [transitions, add, Entrance.still, Entrance.starting, Controller.new]

theorem transitions_step (step : Step) :
    (s.step b step).stage.transitions = s.transitions ++ step.mounted?.toList := by
  cases step with
  | frame now =>
    simp only [Stage.step, frame, transitions_deliverAll, Step.mounted?, Option.toList_none,
      List.append_nil]
    rfl
  | timeout id =>
    rcases timeout_cases b s id with h | ⟨t, -, -, h⟩
    · simp [h, Step.mounted?]
    · simp [h, transitions_fire, Step.mounted?]
  | unmount i => simp [Stage.step, transitions_unmount, Step.mounted?]
  | mount t now => exact transitions_mount b { s with clock := now } t

theorem length_step (step : Step) :
    (s.step b step).stage.entrances.length =
      s.entrances.length + step.mounted?.toList.length := by
  simpa [transitions] using congrArg List.length (transitions_step b s step)

theorem transitions_after (steps : List Step) :
    (s.after b steps).transitions = s.transitions ++ steps.filterMap Step.mounted? := by
  induction steps generalizing s with
  | nil => simp [after]
  | cons step steps ih =>
    have hstep : (s.after b (step :: steps)).transitions =
        s.transitions ++ step.mounted?.toList ++ steps.filterMap Step.mounted? := by
      rw [← transitions_step, ← ih]
      rfl
    rw [hstep]
    cases hm : step.mounted? <;> simp [hm]

theorem length_le_after (steps : List Step) :
    s.entrances.length ≤ (s.after b steps).entrances.length := by
  have hlength := congrArg List.length (transitions_after b s steps)
  simp only [transitions, List.length_append, List.length_map] at hlength
  omega

end

theorem transitions_reached (b : Browser) (clock : Float) (ts : List Transition)
    (steps : List Step) :
    (reached b clock ts steps).transitions = ts ++ steps.filterMap Step.mounted? := by
  have hmap : (Step.mounted? ∘ fun t => Step.mount t clock) = some := rfl
  rw [reached_eq_after, transitions_after, opening, List.filterMap_append, List.filterMap_map,
    hmap, List.filterMap_some]
  rfl

end HeroPage.Stage
