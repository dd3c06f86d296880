import HeroPage.Proofs.Stage.Dealing
import HeroPage.Proofs.Stage.Reached
set_option autoImplicit false

namespace HeroPage

def Event.dealing? : Event → Option Dealing
  | .requested id => some ⟨.frame, .given, id⟩
  | .cancelled id => some ⟨.frame, .dropped, id⟩
  | .timerSet id _ => some ⟨.timer, .given, id⟩
  | .timerCleared id => some ⟨.timer, .dropped, id⟩
  | _ => none

namespace Stage

def dealings (trace : List Entry) : List Dealing := trace.filterMap fun x => x.event.dealing?

@[simp] theorem dealings_append (trace rest : List Entry) :
    dealings (trace ++ rest) = dealings trace ++ dealings rest := List.filterMap_append

/-- Whether a frame that is given to entrance `i` runs a callback. -/
def hears (s : Stage) (i : Nat) : Bool :=
  match s.entrances[i]? with
  | none => false
  | some e => e.callback

def givingOut (b : Browser) (now : Float) (s : Stage) : List Ticket → List Dealing
  | [] => []
  | t :: ts =>
    (if s.hears t.owner then [⟨.frame, .run, t.id⟩] else []) ++
      dealings (s.deliver b now t.owner).2 ++ (s.deliver b now t.owner).1.givingOut b now ts

def dealt (b : Browser) (s : Stage) : Step → List Dealing
  | .frame now => s.taken.givingOut b now s.scheduler.frames
  | .timeout id =>
    match s.scheduler.findTimer? id with
    | none => []
    | some t => ⟨.timer, .run, t.id⟩ :: dealings (s.fire t).2
  | .unmount i => dealings (s.unmount i).2
  | .mount t now => dealings ({ s with clock := now }.mount b t).2

def history (b : Browser) (s : Stage) : List Step → List Dealing
  | [] => []
  | step :: steps => s.dealt b step ++ (s.step b step).stage.history b steps

/-- The frames and timers that are open in a history are the ones of `q` and, while they are given
out, the frames of `due`. -/
structure Booked (q : Scheduler) (due : List Ticket) (h : List Dealing) : Prop where
  orderly : Dealing.Orderly h
  frames : Dealing.Account h .frame ((due ++ q.frames).map Ticket.id) q.lastFrame
  timers : Dealing.Account h .timer (q.timers.map Timer.id) q.lastTimer

namespace Booked
variable {q : Scheduler} {due : List Ticket} {h : List Dealing}

theorem empty : Booked {} [] [] := ⟨.nil, .nil .frame, .nil .timer⟩

theorem refuse (hb : Booked q due h) : Booked q.refuse due h := ⟨hb.orderly, hb.frames, hb.timers⟩

theorem grant (hb : Booked q due h) (i : Nat) :
    Booked (q.grant i) due (h ++ [⟨.frame, .given, q.lastFrame + 1⟩]) where
  orderly := hb.orderly.give hb.frames.fresh
  frames := by simpa [Scheduler.grant] using hb.frames.give
  timers := hb.timers.other (by decide)

theorem setTimer (hb : Booked q due h) (i millis : Nat) :
    Booked (q.setTimer i millis).1 due (h ++ [⟨.timer, .given, q.lastTimer + 1⟩]) where
  orderly := hb.orderly.give hb.timers.fresh
  frames := hb.frames.other (by decide)
  timers := by simpa [Scheduler.setTimer] using hb.timers.give

theorem run {t : Ticket} (hb : Booked q (t :: due) h) :
    Booked q due (h ++ [⟨.frame, .run, t.id⟩]) := by
  have hmem : t.id ∈ ((t :: due) ++ q.frames).map Ticket.id := by simp
  have hnodup := hb.orderly.unsettled_nodup .frame
  rw [hb.frames.eq] at hnodup
  have hrest : (((t :: due) ++ q.frames).map Ticket.id).filter (fun n => n != t.id) =
      (due ++ q.frames).map Ticket.id := by
    rw [List.filter_map]
    exact congrArg _ (filter_ne_of_nodup (l := []) hnodup)
  refine ⟨hb.orderly.settle (hb.frames.eq ▸ hmem) (by decide), ?_, hb.timers.other (by decide)⟩
  exact hrest ▸ hb.frames.settle hmem (by decide)

theorem cancel {id : Nat} (hb : Booked q [] h) (hid : id ∈ q.frames.map Ticket.id) :
    Booked (q.cancel id) [] (h ++ [⟨.frame, .dropped, id⟩]) where
  orderly := hb.orderly.settle (hb.frames.eq ▸ hid) (by decide)
  frames := by
    have hframes : Dealing.Account (h ++ [⟨.frame, .dropped, id⟩]) .frame
        ((q.frames.map Ticket.id).filter fun n => n != id) q.lastFrame :=
      hb.frames.settle hid (by decide)
    rwa [List.filter_map] at hframes
  timers := hb.timers.other (by decide)

theorem endTimer {t : Timer} {fate : Fate} (hb : Booked q due h) (ht : t ∈ q.timers)
    (hfate : fate ≠ .given) : Booked (q.dropTimer t.id) due (h ++ [⟨.timer, fate, t.id⟩]) where
  orderly := hb.orderly.settle (hb.timers.eq ▸ List.mem_map_of_mem ht) hfate
  frames := hb.frames.other (by decide)
  timers := by
    have htimers := hb.timers.settle (List.mem_map_of_mem ht) hfate
    rwa [List.filter_map] at htimers

theorem release {i : Nat} {e : Entrance} (hb : Booked q [] h)
    (he : ∀ id, e.frame = some id → id ∈ q.frames.map Ticket.id) :
    Booked (release q i e).1 [] (h ++ dealings (release q i e).2) := by
  cases hf : e.frame with
  | none => simpa [Stage.release, hf, dealings] using hb
  | some id => simpa [Stage.release, hf, dealings, Event.dealing?] using hb.cancel (he id hf)

theorem clear {i : Nat} {e : Entrance} (hb : Booked q due h) :
    Booked (clear q i e).1 due (h ++ dealings (clear q i e).2) := by
  cases ht : e.timer with
  | none => simpa [clear_of_none ht, dealings] using hb
  | some id =>
    cases hf : q.findTimer? id with
    | none => simpa [Stage.clear, ht, hf, dealings] using hb
    | some t =>
      obtain ⟨htm, rfl⟩ := Scheduler.findTimer?_some hf
      have hend := hb.endTimer (h := h) htm (Fate.noConfusion : Fate.dropped ≠ .given)
      simpa [Stage.clear, ht, hf, dealings, Event.dealing?] using hend

section
variable {b : Browser} {s : Stage}

theorem mount (hb : Booked s.scheduler [] h) (t : Transition) :
    Booked (s.mount b t).1.scheduler [] (h ++ dealings (s.mount b t).2) := by
  rcases mount_cases b s t with ⟨f, hmount⟩ | hmount | hmount | hmount
  · rw [hmount]
    simpa [dealings, Event.dealing?] using hb
  · rw [hmount]
    simpa [dealings, Event.dealing?] using hb
  · rw [hmount]
    simpa [dealings, Event.dealing?] using hb.refuse
  · rw [hmount]
    have htimed := (hb.grant s.entrances.length).setTimer s.entrances.length (settleMillis t)
    simpa [dealings, Event.dealing?, Scheduler.grant] using htimed

theorem deliver {t : Ticket} (hs : s.Sound (t :: due)) (hb : Booked s.scheduler (t :: due) h)
    (now : Float) :
    Booked (s.deliver b now t.owner).1.scheduler due
      (h ++ (⟨.frame, .run, t.id⟩ :: dealings (s.deliver b now t.owner).2)) := by
  obtain ⟨e, he, -, -, -, hc⟩ := hs.owner_of_due
  cases hd : (e.draw now).controller.isSettled with
  | true =>
    rw [deliver_of_settled he hc hd]
    exact hb.run
  | false =>
    by_cases hq : s.scheduler.requests + 1 ∈ b.refused
    · rw [deliver_of_refused he hc hd hq]
      exact hb.run.refuse
    · rw [deliver_of_granted he hc hd hq]
      simpa [dealings, Event.dealing?] using hb.run.grant t.owner

theorem deliverAll {ts : List Ticket} (hs : s.Sound (ts ++ due))
    (hb : Booked s.scheduler (ts ++ due) h) (now : Float) :
    Booked (s.deliverAll b now ts).1.scheduler due (h ++ s.givingOut b now ts) := by
  induction ts generalizing s h with
  | nil => simpa [Stage.deliverAll, givingOut] using hb
  | cons t ts ih =>
    obtain ⟨e, he, -, -, -, hc⟩ := hs.owner_of_due
    have hrest := ih (hs.deliver (b := b) now) (hb.deliver hs now)
    simpa [Stage.deliverAll, givingOut, hears, he, hc] using hrest

theorem frame (hs : s.Sound []) (hb : Booked s.scheduler [] h) (now : Float) :
    Booked (s.frame b now).1.scheduler [] (h ++ s.dealt b (.frame now)) := by
  have htaken : Booked s.taken.scheduler (s.scheduler.frames ++ []) h :=
    ⟨hb.orderly, by simpa [Stage.taken] using hb.frames, hb.timers⟩
  exact htaken.deliverAll hs.all_due now

theorem mem_frames {i id : Nat} {e : Entrance} (hs : s.Sound []) (he : s.entrances[i]? = some e)
    (hf : e.frame = some id) : id ∈ s.scheduler.frames.map Ticket.id := by
  obtain ⟨ahead, behind, hsplit, -, -⟩ := hs.frames_split he hf
  simp [hsplit]

theorem fire {t : Timer} (hs : s.Sound []) (hb : Booked s.scheduler [] h)
    (ht : t ∈ s.scheduler.timers) :
    Booked (s.fire t).1.scheduler [] (h ++ (⟨.timer, .run, t.id⟩ :: dealings (s.fire t).2)) := by
  have hdrop := hb.endTimer ht (Fate.noConfusion : Fate.run ≠ .given)
  rcases fire_cases s t with hfire | ⟨e, he, hfire⟩
  · rw [hfire]
    exact hdrop
  · rw [hfire]
    have hrelease := hdrop.release (i := t.owner) fun id hf => mem_frames hs he hf
    simpa [dealings, Event.dealing?] using hrelease

theorem unmount (hs : s.Sound []) (hb : Booked s.scheduler [] h) (i : Nat) :
    Booked (s.unmount i).1.scheduler [] (h ++ dealings (s.unmount i).2) := by
  rcases unmount_cases s i with hunmount | ⟨e, he, -, hunmount⟩
  · rw [hunmount]
    simpa [dealings] using hb
  · rw [hunmount]
    have hrelease := hb.release (i := i) fun id hf => mem_frames hs he hf
    simpa [takeDown] using hrelease.clear (i := i) (e := e)

theorem step (hs : s.Sound []) (hb : Booked s.scheduler [] h) (step : Step) :
    Booked (s.step b step).stage.scheduler [] (h ++ s.dealt b step) := by
  cases step with
  | frame now => exact hb.frame hs now
  | timeout id =>
    cases hf : s.scheduler.findTimer? id with
    | none => simpa [step_timeout_of_none hf, dealt, hf] using hb
    | some t =>
      simpa [step_timeout_of_some hf, dealt, hf] using
        hb.fire hs (Scheduler.findTimer?_some hf).1
  | unmount i => exact hb.unmount hs i
  | mount t now =>
    have hclock : Booked { s with clock := now }.scheduler [] h := hb
    exact hclock.mount t

theorem history (hs : s.Sound []) (hb : Booked s.scheduler [] h) (steps : List Step) :
    Booked (s.after b steps).scheduler [] (h ++ s.history b steps) := by
  induction steps generalizing s h with
  | nil => simpa [after, Stage.history] using hb
  | cons step steps ih =>
    have hrest := ih (hs.step (b := b) step) (hb.step hs step)
    rw [List.append_assoc] at hrest
    exact hrest

end

end Booked

end Stage

end HeroPage
