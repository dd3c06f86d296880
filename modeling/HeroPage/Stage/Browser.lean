import HeroPage.Fault
set_option autoImplicit false

namespace HeroPage

inductive MotionAnswer where
  | none
  | answered (reduced : Bool)
  | thrown
  deriving DecidableEq

structure Browser where
  window : Bool := true
  clock : Bool := true
  motion : MotionAnswer := .none
  /-- Which requests for a frame are refused, counted from one. -/
  refused : List Nat := []
  thrown : String := "blocked"

namespace Browser

def motionQuery : String := "(prefers-reduced-motion: reduce)"

/-- Only a clear answer keeps an entrance from moving. -/
def reducedMotion (b : Browser) : Bool :=
  match b.motion with
  | .answered reduced => reduced
  | _ => false

def ready (b : Browser) : Except SchedulerFault Unit :=
  if !b.window then .error .noWindow
  else if !b.clock then .error .noClock
  else .ok ()

theorem ready_eq_ok_iff (b : Browser) : b.ready = .ok () ↔ b.window = true ∧ b.clock = true := by
  unfold ready
  cases b.window <;> cases b.clock <;> simp

end Browser

structure Ticket where
  id : Nat
  owner : Nat
  deriving DecidableEq

structure Timer where
  id : Nat
  owner : Nat
  millis : Nat
  deriving DecidableEq

/-- The frames and timers of a browser. Numbers are given out from one and never again. -/
structure Scheduler where
  /-- How many frames have been asked for, refused ones included. -/
  requests : Nat := 0
  lastFrame : Nat := 0
  lastTimer : Nat := 0
  /-- The frames that are waited for, in the order of their requests. -/
  frames : List Ticket := []
  /-- The timers that have neither fired nor been dropped. -/
  timers : List Timer := []
  deriving DecidableEq

namespace Scheduler

def refuse (q : Scheduler) : Scheduler := { q with requests := q.requests + 1 }

def grant (q : Scheduler) (owner : Nat) : Scheduler :=
  { q with
    requests := q.requests + 1
    lastFrame := q.lastFrame + 1
    frames := q.frames ++ [⟨q.lastFrame + 1, owner⟩] }

def request (q : Scheduler) (b : Browser) (owner : Nat) : Scheduler × Option Nat :=
  if q.requests + 1 ∈ b.refused then (q.refuse, none)
  else (q.grant owner, some (q.lastFrame + 1))

def cancel (q : Scheduler) (id : Nat) : Scheduler :=
  { q with frames := q.frames.filter fun t => t.id != id }

def setTimer (q : Scheduler) (owner millis : Nat) : Scheduler × Nat :=
  let id := q.lastTimer + 1
  ({ q with lastTimer := id, timers := q.timers ++ [⟨id, owner, millis⟩] }, id)

def findTimer? (q : Scheduler) (id : Nat) : Option Timer := q.timers.find? fun t => t.id == id

def dropTimer (q : Scheduler) (id : Nat) : Scheduler :=
  { q with timers := q.timers.filter fun t => t.id != id }

theorem request_of_mem {q : Scheduler} {b : Browser} (owner : Nat)
    (h : q.requests + 1 ∈ b.refused) : q.request b owner = (q.refuse, none) := by
  simp only [request, h, ↓reduceIte]

theorem request_of_not_mem {q : Scheduler} {b : Browser} (owner : Nat)
    (h : q.requests + 1 ∉ b.refused) :
    q.request b owner = (q.grant owner, some (q.lastFrame + 1)) := by
  simp only [request, h, ↓reduceIte]

theorem findTimer?_eq_none_iff {q : Scheduler} {id : Nat} :
    q.findTimer? id = none ↔ ∀ t ∈ q.timers, t.id ≠ id := by
  simp [findTimer?]

theorem findTimer?_some {q : Scheduler} {id : Nat} {t : Timer} (h : q.findTimer? id = some t) :
    t ∈ q.timers ∧ t.id = id :=
  ⟨List.mem_of_find?_eq_some h, by simpa using List.find?_some h⟩

theorem dropTimer_eq_self {q : Scheduler} {id : Nat} (h : q.findTimer? id = none) :
    q.dropTimer id = q := by
  have ht : q.timers.filter (fun t => t.id != id) = q.timers :=
    List.filter_eq_self.mpr fun t ht => by simpa using findTimer?_eq_none_iff.mp h t ht
  simp only [dropTimer, ht]

theorem mem_dropTimer_timers {q : Scheduler} {id : Nat} {t : Timer} :
    t ∈ (q.dropTimer id).timers ↔ t ∈ q.timers ∧ t.id ≠ id := by
  simp [dropTimer]

end Scheduler

end HeroPage
