import HeroPage.Transition
set_option autoImplicit false

/-! An entrance plays once. The first attachment starts it and later ones are ignored; a frame moves it to
the state of its time and settles it once the whole time has passed. It can be skipped to its target, and
it is abandoned if it is detached before it has settled. -/

namespace HeroPage

inductive Phase where
  | detached
  /-- Started at the given time, in seconds. -/
  | running (start : Float)
  | settled
  | abandoned

namespace Phase

def name : Phase → String
  | .detached => "Detached"
  | .running _ => "Running"
  | .settled => "Settled"
  | .abandoned => "Abandoned"

def isSettled : Phase → Bool
  | .settled => true
  | _ => false

end Phase

structure Controller where
  transition : Transition
  phase : Phase
  current : VisualState

namespace Controller

def new (t : Transition) : Controller := ⟨t, .detached, t.source⟩

def isSettled (c : Controller) : Bool := c.phase.isSettled

/-- The time since the start. A clock that went back, or that shows no number, has not moved; no
time is the positive zero. -/
def elapsed (start now : Float) : Float :=
  let d := now - start
  if 0 < d then d else 0

/-- Start at time `now`; the answer says whether this was the first attachment. -/
def attach (c : Controller) (now : Float) : Controller × Bool :=
  match c.phase with
  | .detached => ({ c with phase := .running now }, true)
  | _ => (c, false)

def frame (c : Controller) (now : Float) : Controller :=
  match c.phase with
  | .running start =>
    let e := elapsed start now
    if c.transition.total ≤ e then
      { c with phase := .settled, current := c.transition.target }
    else { c with current := c.transition.sample e }
  | _ => c

def skip (c : Controller) : Controller :=
  match c.phase with
  | .abandoned => c
  | _ => { c with phase := .settled, current := c.transition.target }

def detach (c : Controller) : Controller :=
  match c.phase with
  | .detached => { c with phase := .abandoned }
  | .running _ => { c with phase := .abandoned }
  | _ => c

theorem frame_of_running {c : Controller} {start : Float} (h : c.phase = .running start)
    (now : Float) :
    (c.frame now).phase = .settled ∧ (c.frame now).current = c.transition.target ∨
      (c.frame now).phase = .running start ∧
        (c.frame now).current = c.transition.sample (elapsed start now) := by
  simp only [frame, h]
  split
  · exact .inl ⟨rfl, rfl⟩
  · exact .inr ⟨rfl, rfl⟩

theorem frame_of_settled {c : Controller} (h : c.isSettled = true) (now : Float) :
    c.frame now = c := by
  unfold frame
  split
  · next hp => simp [isSettled, hp, Phase.isSettled] at h
  · rfl

@[simp] theorem attach_transition (c : Controller) (now : Float) :
    (c.attach now).1.transition = c.transition := by
  unfold attach
  split <;> rfl

@[simp] theorem frame_transition (c : Controller) (now : Float) :
    (c.frame now).transition = c.transition := by
  simp only [frame]
  split
  · split <;> rfl
  · rfl

@[simp] theorem skip_transition (c : Controller) : c.skip.transition = c.transition := by
  unfold skip
  split <;> rfl

@[simp] theorem detach_transition (c : Controller) : c.detach.transition = c.transition := by
  unfold detach
  split <;> rfl

@[simp] theorem detach_current (c : Controller) : c.detach.current = c.current := by
  unfold detach
  split <;> rfl

@[simp] theorem detach_isSettled (c : Controller) : c.detach.isSettled = c.isSettled := by
  unfold detach
  split <;> simp [isSettled, Phase.isSettled, *]

inductive Call where
  | attach (now : Float)
  | frame (now : Float)
  | skip
  | detach

inductive Reply where
  | started (first : Bool)
  | shown (state : VisualState)
  | done

def serve (c : Controller) : Call → Controller × Reply
  | .attach now => ((c.attach now).1, .started (c.attach now).2)
  | .frame now => (c.frame now, .shown (c.frame now).current)
  | .skip => (c.skip, .shown c.skip.current)
  | .detach => (c.detach, .done)

def run (c : Controller) : List Call → List (Controller × Reply)
  | [] => []
  | call :: calls => c.serve call :: (c.serve call).1.run calls

def after (c : Controller) (calls : List Call) : Controller :=
  calls.foldl (fun c call => (c.serve call).1) c

@[simp] theorem after_nil (c : Controller) : c.after [] = c := rfl

@[simp] theorem after_cons (c : Controller) (call : Call) (calls : List Call) :
    c.after (call :: calls) = (c.serve call).1.after calls := rfl

theorem after_append (c : Controller) (calls more : List Call) :
    c.after (calls ++ more) = (c.after calls).after more := List.foldl_append

theorem serve_transition (c : Controller) (call : Call) :
    (c.serve call).1.transition = c.transition := by
  cases call <;> simp [serve]

end Controller

end HeroPage
