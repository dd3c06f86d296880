import HeroPage.Controller
import HeroPage.Stage.Event
set_option autoImplicit false

/-! The entrances of a page share one browser. An entrance that can play asks for a frame and sets a timer;
each frame draws and, until the entrance has settled, asks for the next; the timer draws the target if no
frame has. An entrance that cannot play shows its target at once and asks for nothing. -/

namespace HeroPage

structure Entrance where
  controller : Controller
  style : VisualState
  /-- The frame it waits for. -/
  frame : Option Nat
  /-- Whether its callback is still held for a frame to run. -/
  callback : Bool
  /-- The timer it has set, whether or not it has fired since. -/
  timer : Option Nat
  mounted : Bool

namespace Entrance

def still (t : Transition) : Entrance where
  controller := (Controller.new t).skip
  style := t.target
  frame := none
  callback := false
  timer := none
  mounted := true

def starting (t : Transition) (now : Float) (frame timer : Nat) : Entrance where
  controller := ((Controller.new t).attach now).1
  style := t.source
  frame := some frame
  callback := true
  timer := some timer
  mounted := true

/-- Draw the state of time `now`, in milliseconds. The frame that was waited for has come. -/
def draw (e : Entrance) (now : Float) : Entrance :=
  let c := e.controller.frame (now / 1000)
  { e with controller := c, style := c.current, frame := none }

def force (e : Entrance) : Entrance :=
  let c := e.controller.skip
  { e with controller := c, style := c.current, frame := none, callback := false }

def leave (e : Entrance) : Entrance :=
  { e with controller := e.controller.detach, frame := none, callback := false, mounted := false }

@[simp] theorem draw_frame (e : Entrance) (now : Float) : (e.draw now).frame = none := rfl

@[simp] theorem draw_timer (e : Entrance) (now : Float) : (e.draw now).timer = e.timer := rfl

@[simp] theorem draw_mounted (e : Entrance) (now : Float) : (e.draw now).mounted = e.mounted := rfl

@[simp] theorem draw_transition (e : Entrance) (now : Float) :
    (e.draw now).controller.transition = e.controller.transition :=
  Controller.frame_transition ..

@[simp] theorem force_frame (e : Entrance) : e.force.frame = none := rfl

@[simp] theorem force_timer (e : Entrance) : e.force.timer = e.timer := rfl

@[simp] theorem force_mounted (e : Entrance) : e.force.mounted = e.mounted := rfl

@[simp] theorem force_transition (e : Entrance) :
    e.force.controller.transition = e.controller.transition :=
  Controller.skip_transition ..

@[simp] theorem leave_frame (e : Entrance) : e.leave.frame = none := rfl

@[simp] theorem leave_mounted (e : Entrance) : e.leave.mounted = false := rfl

@[simp] theorem leave_transition (e : Entrance) :
    e.leave.controller.transition = e.controller.transition :=
  Controller.detach_transition ..

def css? (e : Entrance) : Option String := if e.mounted then some e.style.css else none

end Entrance

/-- How long after the end of its transition an entrance is forced to its target, in seconds. -/
def settleGrace : Float := 0.25

def longestDelay : Nat := UInt32.size - 1

/-- A delay rounded up to whole milliseconds, between zero and the longest. -/
def wholeMillis (x : Float) : Nat :=
  match Decimal.Double.ofFloat x with
  | .nan => 0
  | .infinite negative => if negative then 0 else longestDelay
  | .zero _ => 0
  | .finite negative b => if negative then 0 else min b.ceil longestDelay

def settleMillis (t : Transition) : Nat := wholeMillis ((t.total + settleGrace) * 1000)

structure Stage where
  clock : Float
  scheduler : Scheduler
  entrances : List Entrance

namespace Stage

def empty (clock : Float) : Stage := ⟨clock, {}, []⟩

def put (s : Stage) (i : Nat) (e : Entrance) : Stage :=
  { s with entrances := s.entrances.set i e }

def add (s : Stage) (e : Entrance) : Stage := { s with entrances := s.entrances ++ [e] }

@[simp] theorem put_scheduler (s : Stage) (i : Nat) (e : Entrance) :
    (s.put i e).scheduler = s.scheduler := rfl

@[simp] theorem add_scheduler (s : Stage) (e : Entrance) : (s.add e).scheduler = s.scheduler := rfl

/-- Whether an entrance can play, as far as that is known before it asks for a frame. -/
def admits (b : Browser) (t : Transition) : Except Fault Unit :=
  match t.validate with
  | .error f => .error (.timing f)
  | .ok _ =>
    match b.ready with
    | .error f => .error (.scheduler f)
    | .ok _ => .ok ()

def mount (b : Browser) (s : Stage) (t : Transition) : Stage × List Entry :=
  let i := s.entrances.length
  match admits b t with
  | .error f => (s.add (.still t), [⟨i, .logged (.skipped f)⟩])
  | .ok _ =>
    if b.reducedMotion then (s.add (.still t), [⟨i, .queried⟩, ⟨i, .logged .reducedMotion⟩])
    else
      match s.scheduler.request b i with
      | (q, none) =>
        ({ s with scheduler := q }.add (.still t),
          [⟨i, .queried⟩, ⟨i, .refused⟩,
            ⟨i, .logged (.skipped (.scheduler (.refused b.thrown)))⟩])
      | (q, some frame) =>
        let millis := settleMillis t
        let (q, timer) := q.setTimer i millis
        ({ s with scheduler := q }.add (.starting t (s.clock / 1000) frame timer),
          [⟨i, .queried⟩, ⟨i, .requested frame⟩, ⟨i, .timerSet timer millis⟩])

def mountAll (b : Browser) (s : Stage) : List Transition → Stage × List Entry
  | [] => (s, [])
  | t :: ts =>
    let (s, trace) := s.mount b t
    let (s, rest) := s.mountAll b ts
    (s, trace ++ rest)

/-- Give a frame with time `now`, in milliseconds, to the entrance `i` that waited for it. A
callback that is held no more is not run. -/
def deliver (b : Browser) (now : Float) (s : Stage) (i : Nat) : Stage × List Entry :=
  match s.entrances[i]? with
  | none => (s, [])
  | some e =>
    if !e.callback then (s, [])
    else
      let e := e.draw now
      if e.controller.isSettled then (s.put i e, [])
      else
        match s.scheduler.request b i with
        | (q, some frame) =>
          ({ s with scheduler := q }.put i { e with frame := some frame }, [⟨i, .requested frame⟩])
        | (q, none) =>
          ({ s with scheduler := q }.put i e, [⟨i, .refused⟩, ⟨i, .logged (.refused b.thrown)⟩])

def deliverAll (b : Browser) (now : Float) (s : Stage) : List Ticket → Stage × List Entry
  | [] => (s, [])
  | t :: ts =>
    let (s, trace) := s.deliver b now t.owner
    let (s, rest) := s.deliverAll b now ts
    (s, trace ++ rest)

def taken (s : Stage) : Stage := { s with scheduler := { s.scheduler with frames := [] } }

/-- One frame of the browser: requests made meanwhile wait for the next. -/
def frame (b : Browser) (s : Stage) (now : Float) : Stage × List Entry :=
  s.taken.deliverAll b now s.scheduler.frames

def release (q : Scheduler) (i : Nat) (e : Entrance) : Scheduler × List Entry :=
  match e.frame with
  | none => (q, [])
  | some id => (q.cancel id, [⟨i, .cancelled id⟩])

/-- Fire a timer that is pending: its entrance is forced to its target unless it has settled. -/
def fire (s : Stage) (t : Timer) : Stage × List Entry :=
  let s := { s with scheduler := s.scheduler.dropTimer t.id }
  match s.entrances[t.owner]? with
  | none => (s, [])
  | some e =>
    if e.controller.isSettled then (s, [])
    else
      let (q, released) := release s.scheduler t.owner e
      ({ s with scheduler := q }.put t.owner e.force,
        ⟨t.owner, .logged (.forced t.millis)⟩ :: released)

def clear (q : Scheduler) (i : Nat) (e : Entrance) : Scheduler × List Entry :=
  match e.timer with
  | none => (q, [])
  | some id =>
    if (q.findTimer? id).isSome then (q.dropTimer id, [⟨i, .timerCleared id⟩]) else (q, [])

def takeDown (s : Stage) (i : Nat) (e : Entrance) : Stage × List Entry :=
  let (q, released) := release s.scheduler i e
  let (q, cleared) := clear q i e
  ({ s with scheduler := q }.put i e.leave, released ++ cleared)

def unmount (s : Stage) (i : Nat) : Stage × List Entry :=
  match s.entrances[i]? with
  | none => (s, [])
  | some e => if e.mounted then s.takeDown i e else (s, [])

def unmountAll (s : Stage) : List Nat → Stage × List Entry
  | [] => (s, [])
  | i :: is =>
    let (s, trace) := s.unmount i
    let (s, rest) := s.unmountAll is
    (s, trace ++ rest)

def isMounted (s : Stage) (i : Nat) : Bool :=
  match s.entrances[i]? with
  | none => false
  | some e => e.mounted

def styles (s : Stage) : List (Option String) := s.entrances.map Entrance.css?

section
variable (q : Scheduler) (i : Nat) (e : Entrance)

@[simp] theorem release_timers : (release q i e).1.timers = q.timers := by
  unfold release
  split <;> rfl

@[simp] theorem release_lastTimer : (release q i e).1.lastTimer = q.lastTimer := by
  unfold release
  split <;> rfl

@[simp] theorem release_requests : (release q i e).1.requests = q.requests := by
  unfold release
  split <;> rfl

@[simp] theorem release_lastFrame : (release q i e).1.lastFrame = q.lastFrame := by
  unfold release
  split <;> rfl

@[simp] theorem clear_frames : (clear q i e).1.frames = q.frames := by
  unfold clear
  split
  · rfl
  · split <;> rfl

@[simp] theorem clear_lastFrame : (clear q i e).1.lastFrame = q.lastFrame := by
  unfold clear
  split
  · rfl
  · split <;> rfl

@[simp] theorem clear_requests : (clear q i e).1.requests = q.requests := by
  unfold clear
  split
  · rfl
  · split <;> rfl

variable {q i e}

theorem clear_of_none (h : e.timer = none) : clear q i e = (q, []) := by
  simp only [clear, h]

theorem clear_of_some {id : Nat} (h : e.timer = some id) : (clear q i e).1 = q.dropTimer id := by
  cases hf : q.findTimer? id with
  | none => simp [clear, h, hf, Scheduler.dropTimer_eq_self hf]
  | some t => simp [clear, h, hf]

end

section
variable {b : Browser} {s : Stage} {t : Transition}

theorem mount_of_error {f : Fault} (h : admits b t = .error f) :
    s.mount b t = (s.add (.still t), [⟨s.entrances.length, .logged (.skipped f)⟩]) := by
  simp only [mount, h]

theorem mount_of_reducedMotion (h : admits b t = .ok ()) (hm : b.reducedMotion = true) :
    s.mount b t = (s.add (.still t),
      [⟨s.entrances.length, .queried⟩, ⟨s.entrances.length, .logged .reducedMotion⟩]) := by
  simp only [mount, h, hm, ↓reduceIte]

theorem mount_of_refused (h : admits b t = .ok ()) (hm : b.reducedMotion = false)
    (hq : s.scheduler.requests + 1 ∈ b.refused) :
    s.mount b t = ({ s with scheduler := s.scheduler.refuse }.add (.still t),
      [⟨s.entrances.length, .queried⟩, ⟨s.entrances.length, .refused⟩,
        ⟨s.entrances.length, .logged (.skipped (.scheduler (.refused b.thrown)))⟩]) := by
  simp only [mount, h, hm, Scheduler.request_of_mem _ hq, Bool.false_eq_true, ↓reduceIte]

theorem mount_of_granted (h : admits b t = .ok ()) (hm : b.reducedMotion = false)
    (hq : s.scheduler.requests + 1 ∉ b.refused) :
    s.mount b t =
      ({ s with
          scheduler := ((s.scheduler.grant s.entrances.length).setTimer s.entrances.length
            (settleMillis t)).1 }.add
        (.starting t (s.clock / 1000) (s.scheduler.lastFrame + 1) (s.scheduler.lastTimer + 1)),
      [⟨s.entrances.length, .queried⟩,
        ⟨s.entrances.length, .requested (s.scheduler.lastFrame + 1)⟩,
        ⟨s.entrances.length, .timerSet (s.scheduler.lastTimer + 1) (settleMillis t)⟩]) := by
  simp only [mount, h, hm, Scheduler.request_of_not_mem _ hq, Bool.false_eq_true, ↓reduceIte]
  rfl

theorem mount_cases (b : Browser) (s : Stage) (t : Transition) :
    (∃ f, s.mount b t = (s.add (.still t), [⟨s.entrances.length, .logged (.skipped f)⟩])) ∨
      s.mount b t = (s.add (.still t),
        [⟨s.entrances.length, .queried⟩, ⟨s.entrances.length, .logged .reducedMotion⟩]) ∨
      s.mount b t = ({ s with scheduler := s.scheduler.refuse }.add (.still t),
        [⟨s.entrances.length, .queried⟩, ⟨s.entrances.length, .refused⟩,
          ⟨s.entrances.length, .logged (.skipped (.scheduler (.refused b.thrown)))⟩]) ∨
      s.mount b t =
        ({ s with
            scheduler := ((s.scheduler.grant s.entrances.length).setTimer s.entrances.length
              (settleMillis t)).1 }.add
          (.starting t (s.clock / 1000) (s.scheduler.lastFrame + 1) (s.scheduler.lastTimer + 1)),
        [⟨s.entrances.length, .queried⟩,
          ⟨s.entrances.length, .requested (s.scheduler.lastFrame + 1)⟩,
          ⟨s.entrances.length, .timerSet (s.scheduler.lastTimer + 1) (settleMillis t)⟩]) := by
  cases h : admits b t with
  | error f => exact .inl ⟨f, mount_of_error h⟩
  | ok _ =>
    right
    cases hm : b.reducedMotion with
    | true => exact .inl (mount_of_reducedMotion h hm)
    | false =>
      by_cases hq : s.scheduler.requests + 1 ∈ b.refused
      · exact .inr (.inl (mount_of_refused h hm hq))
      · exact .inr (.inr (mount_of_granted h hm hq))

end

section
variable {b : Browser} {s : Stage} {i : Nat} {e : Entrance} {now : Float}

theorem deliver_of_settled (he : s.entrances[i]? = some e) (hc : e.callback = true)
    (hs : (e.draw now).controller.isSettled = true) :
    s.deliver b now i = (s.put i (e.draw now), []) := by
  simp only [deliver, he, hc, hs, Bool.not_true, Bool.false_eq_true, ↓reduceIte]

theorem deliver_of_refused (he : s.entrances[i]? = some e) (hc : e.callback = true)
    (hs : (e.draw now).controller.isSettled = false)
    (hq : s.scheduler.requests + 1 ∈ b.refused) :
    s.deliver b now i = ({ s with scheduler := s.scheduler.refuse }.put i (e.draw now),
      [⟨i, .refused⟩, ⟨i, .logged (.refused b.thrown)⟩]) := by
  simp only [deliver, he, hc, hs, Scheduler.request_of_mem _ hq, Bool.not_true,
    Bool.false_eq_true, ↓reduceIte]

theorem deliver_of_granted (he : s.entrances[i]? = some e) (hc : e.callback = true)
    (hs : (e.draw now).controller.isSettled = false)
    (hq : s.scheduler.requests + 1 ∉ b.refused) :
    s.deliver b now i =
      ({ s with scheduler := s.scheduler.grant i }.put i
        { e.draw now with frame := some (s.scheduler.lastFrame + 1) },
      [⟨i, .requested (s.scheduler.lastFrame + 1)⟩]) := by
  simp only [deliver, he, hc, hs, Scheduler.request_of_not_mem _ hq, Bool.not_true,
    Bool.false_eq_true, ↓reduceIte]

theorem deliver_cases (b : Browser) (s : Stage) (now : Float) (i : Nat) :
    s.deliver b now i = (s, []) ∨
      ∃ e, s.entrances[i]? = some e ∧
        (s.deliver b now i = (s.put i (e.draw now), []) ∨
          s.deliver b now i = ({ s with scheduler := s.scheduler.refuse }.put i (e.draw now),
            [⟨i, .refused⟩, ⟨i, .logged (.refused b.thrown)⟩]) ∨
          s.deliver b now i =
            ({ s with scheduler := s.scheduler.grant i }.put i
              { e.draw now with frame := some (s.scheduler.lastFrame + 1) },
            [⟨i, .requested (s.scheduler.lastFrame + 1)⟩])) := by
  cases he : s.entrances[i]? with
  | none => exact .inl (by simp only [deliver, he])
  | some e =>
    cases hc : e.callback with
    | false => exact .inl (by simp only [deliver, he, hc, Bool.not_false, ↓reduceIte])
    | true =>
      refine .inr ⟨e, rfl, ?_⟩
      cases hs : (e.draw now).controller.isSettled with
      | true => exact .inl (deliver_of_settled he hc hs)
      | false =>
        by_cases hq : s.scheduler.requests + 1 ∈ b.refused
        · exact .inr (.inl (deliver_of_refused he hc hs hq))
        · exact .inr (.inr (deliver_of_granted he hc hs hq))

theorem fire_of_settled {t : Timer} (he : s.entrances[t.owner]? = some e)
    (hs : e.controller.isSettled = true) :
    s.fire t = ({ s with scheduler := s.scheduler.dropTimer t.id }, []) := by
  simp only [fire, he, hs, ↓reduceIte]

theorem fire_of_unsettled {t : Timer} (he : s.entrances[t.owner]? = some e)
    (hs : e.controller.isSettled = false) :
    s.fire t =
      ({ s with scheduler := (release (s.scheduler.dropTimer t.id) t.owner e).1 }.put t.owner
          e.force,
        ⟨t.owner, .logged (.forced t.millis)⟩ ::
          (release (s.scheduler.dropTimer t.id) t.owner e).2) := by
  simp only [fire, he, hs, Bool.false_eq_true, ↓reduceIte]

theorem fire_cases (s : Stage) (t : Timer) :
    s.fire t = ({ s with scheduler := s.scheduler.dropTimer t.id }, []) ∨
      ∃ e, s.entrances[t.owner]? = some e ∧
        s.fire t =
          ({ s with scheduler := (release (s.scheduler.dropTimer t.id) t.owner e).1 }.put t.owner
              e.force,
            ⟨t.owner, .logged (.forced t.millis)⟩ ::
              (release (s.scheduler.dropTimer t.id) t.owner e).2) := by
  cases he : s.entrances[t.owner]? with
  | none => exact .inl (by simp only [fire, he])
  | some e =>
    cases hs : e.controller.isSettled with
    | true => exact .inl (fire_of_settled he hs)
    | false => exact .inr ⟨e, rfl, fire_of_unsettled he hs⟩

theorem unmount_of_mounted (he : s.entrances[i]? = some e) (hm : e.mounted = true) :
    s.unmount i = s.takeDown i e := by
  simp only [unmount, he, hm, ↓reduceIte]

theorem isMounted_of_getElem? (he : s.entrances[i]? = some e) : s.isMounted i = e.mounted := by
  simp only [isMounted, he]

theorem exists_of_isMounted (h : s.isMounted i = true) :
    ∃ e, s.entrances[i]? = some e ∧ e.mounted = true := by
  unfold isMounted at h
  split at h
  · exact absurd h (by decide)
  · next e he => exact ⟨e, he, h⟩

theorem unmount_of_not_mounted (h : s.isMounted i = false) : s.unmount i = (s, []) := by
  unfold unmount
  split
  · rfl
  · next e he =>
    rw [isMounted_of_getElem? he] at h
    simp only [h, Bool.false_eq_true, ↓reduceIte]

theorem unmount_cases (s : Stage) (i : Nat) :
    s.unmount i = (s, []) ∨
      ∃ e, s.entrances[i]? = some e ∧ e.mounted = true ∧ s.unmount i = s.takeDown i e := by
  cases h : s.isMounted i with
  | false => exact .inl (unmount_of_not_mounted h)
  | true =>
    obtain ⟨e, he, hm⟩ := exists_of_isMounted h
    exact .inr ⟨e, he, hm, unmount_of_mounted he hm⟩

end

end Stage

end HeroPage
