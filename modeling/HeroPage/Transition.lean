import HeroPage.VisualState
import HeroPage.Easing
set_option autoImplicit false

/-! Any timing can be written down. `validate` accepts the timings that are finite and not negative and names
the duration first if both are unusable. -/

namespace HeroPage

structure Transition where
  source : VisualState
  target : VisualState
  duration : Float := 0
  delay : Float := 0
  easing : Easing := .standard

inductive Timing where
  | duration
  | delay
  deriving DecidableEq

def Timing.name : Timing → String
  | .duration => "duration"
  | .delay => "delay"

structure TimingFault where
  timing : Timing
  value : Float

def TimingFault.message (f : TimingFault) : String :=
  f.timing.name ++ " must be finite and non-negative, got " ++ Decimal.plain.text f.value

def usableTime (x : Float) : Bool := x.isFinite && !decide (x < 0)

namespace Transition

def between (a b : VisualState) : Transition := ⟨a, b, 0, 0, .standard⟩

def lasting (t : Transition) (d : Float) : Transition := { t with duration := d }

def delayed (t : Transition) (d : Float) : Transition := { t with delay := d }

def along (t : Transition) (e : Easing) : Transition := { t with easing := e }

def validate (t : Transition) : Except TimingFault Unit :=
  if !usableTime t.duration then .error ⟨.duration, t.duration⟩
  else if !usableTime t.delay then .error ⟨.delay, t.delay⟩
  else .ok ()

theorem validate_eq_ok_iff (t : Transition) :
    t.validate = .ok () ↔ usableTime t.duration = true ∧ usableTime t.delay = true := by
  unfold validate
  cases usableTime t.duration <;> cases usableTime t.delay <;> simp

def timed? (a b : VisualState) (duration delay : Float) : Except TimingFault Transition :=
  let t := ((between a b).lasting duration).delayed delay
  t.validate.map fun _ => t

def total (t : Transition) : Float := t.delay + t.duration

/-- The share of the duration that has passed, from 0 to 1. A time that is not a number has not
begun. -/
def progress (t : Transition) (elapsed : Float) : Float :=
  if elapsed.isNaN || decide (elapsed < t.delay) then 0
  else if t.duration ≤ 0 then 1
  else clampUnit ((elapsed - t.delay) / t.duration)

/-- The state after `elapsed` seconds. Full progress gives the last state itself and not a blend,
so no rounding is left at the end. -/
def sample (t : Transition) (elapsed : Float) : VisualState :=
  let p := t.progress elapsed
  if 1 ≤ p then t.target else t.source.blend t.target (t.easing.apply p)

def midway (t : Transition) : VisualState := t.sample (t.delay + t.duration * 0.5)

def textBlock : Transition := (between ⟨0, 20, 0⟩ .settled).lasting 0.5

def logoCard : Transition := ((between ⟨0, 0, -5⟩ .settled).lasting 1).delayed 0.3

end Transition

end HeroPage
