import HeroPage.Proofs.Stage.Arrival
import HeroPage.Proofs.Stage.Numbered
import Mathlib.Data.List.Basic
set_option autoImplicit false

namespace HeroPage

/-- The place of a number among `ids`, from one. All other numbers come behind. -/
def rank (ids : List Nat) (id : Nat) : Nat :=
  if id ∈ ids then ids.idxOf id + 1 else ids.length + 1 + id

theorem rank_injective (ids : List Nat) : Function.Injective (rank ids) := by
  intro m n h
  unfold rank at h
  split at h
  · next hm =>
    have hlt := List.idxOf_lt_length_of_mem hm
    split at h
    · exact (List.idxOf_inj hm).mp (Nat.succ.inj h)
    · omega
  · split at h
    · next hn =>
      have hlt := List.idxOf_lt_length_of_mem hn
      omega
    · omega

theorem rank_append_cons {ids rest : List Nat} {id : Nat} (h : id ∉ ids) :
    rank (ids ++ id :: rest) id = ids.length + 1 := by
  simp [rank, List.idxOf_append_of_notMem h]

section
variable (frames timers : Nat → Nat)

def Event.renumber : Event → Event
  | .requested id => .requested (frames id)
  | .cancelled id => .cancelled (frames id)
  | .timerSet id millis => .timerSet (timers id) millis
  | .timerCleared id => .timerCleared (timers id)
  | x => x

theorem answers_renumber (events : List Event) :
    answers (events.map (Event.renumber frames timers)) = answers events := by
  rw [answers, answers, List.filterMap_map]
  refine List.filterMap_congr fun x _ => ?_
  cases x <;> rfl

theorem granted_renumber (events : List Event) :
    granted (events.map (Event.renumber frames timers)) = (granted events).map frames := by
  rw [granted, granted, List.filterMap_map, List.map_filterMap]
  refine List.filterMap_congr fun x _ => ?_
  cases x <;> rfl

def Cue.renumber : Cue → Cue
  | .frame now answer => .frame now (answer.map frames)
  | c => c

namespace Entrance

def renumber (e : Entrance) : Entrance :=
  { e with frame := e.frame.map frames, timer := e.timer.map timers }

@[simp] theorem renumber_controller (e : Entrance) :
    (e.renumber frames timers).controller = e.controller := rfl

@[simp] theorem renumber_frame (e : Entrance) :
    (e.renumber frames timers).frame = e.frame.map frames := rfl

@[simp] theorem renumber_timer (e : Entrance) :
    (e.renumber frames timers).timer = e.timer.map timers := rfl

@[simp] theorem renumber_mounted (e : Entrance) :
    (e.renumber frames timers).mounted = e.mounted := rfl

@[simp] theorem draw_renumber (e : Entrance) (now : Float) :
    (e.renumber frames timers).draw now = (e.draw now).renumber frames timers := rfl

theorem follow_renumber (e : Entrance) (c : Cue) :
    (e.renumber frames timers).follow (c.renumber frames) =
      (e.follow c).renumber frames timers := by
  cases c with
  | idle => rfl
  | frame now answer =>
    cases hd : (e.draw now).controller.isSettled with
    | true => simp [Cue.renumber, follow, hd]
    | false =>
      simp only [Cue.renumber, follow, draw_renumber, renumber_controller, hd,
        Bool.false_eq_true, ↓reduceIte]
      rfl
  | timeout =>
    cases hs : e.controller.isSettled with
    | true => simp [Cue.renumber, follow, hs]
    | false =>
      simp only [Cue.renumber, follow, renumber_controller, hs, Bool.false_eq_true, ↓reduceIte]
      rfl
  | unmount pending => rfl

theorem events_renumber (thrown : String) (e : Entrance) (c : Cue) :
    (e.renumber frames timers).events thrown (c.renumber frames) =
      (e.events thrown c).map (Event.renumber frames timers) := by
  cases c with
  | idle => rfl
  | frame now answer =>
    cases hd : (e.draw now).controller.isSettled with
    | true => simp [Cue.renumber, events, hd]
    | false => cases answer <;> simp [Cue.renumber, events, hd, Event.renumber]
  | timeout =>
    cases hs : e.controller.isSettled with
    | true => simp [Cue.renumber, events, hs]
    | false => cases hf : e.frame <;> simp [Cue.renumber, events, hs, hf, Event.renumber]
  | unmount pending =>
    cases hf : e.frame <;> cases ht : e.timer <;> cases pending <;>
      simp [Cue.renumber, events, hf, ht, Event.renumber]

theorem arrive_renumber (b : Browser) (t : Transition) (now : Float)
    (offer : Option (Nat × Nat)) :
    arrive b t now (offer.map (Prod.map frames timers)) =
      (arrive b t now offer).renumber frames timers := by
  unfold arrive
  cases Stage.admits b t with
  | error f => rfl
  | ok _ =>
    cases b.reducedMotion with
    | true => rfl
    | false => cases offer <;> rfl

theorem arrival_renumber (b : Browser) (t : Transition) (offer : Option (Nat × Nat)) :
    arrival b t (offer.map (Prod.map frames timers)) =
      (arrival b t offer).map (Event.renumber frames timers) := by
  unfold arrival
  cases Stage.admits b t with
  | error f => rfl
  | ok _ =>
    cases b.reducedMotion with
    | true => rfl
    | false => cases offer <;> rfl

end Entrance

end

end HeroPage
