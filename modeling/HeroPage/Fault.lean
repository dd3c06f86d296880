import HeroPage.Transition
import HeroPage.Json.Stop
set_option autoImplicit false

namespace HeroPage

inductive SchedulerFault where
  | noWindow
  | noClock
  | refused (thrown : String)
  deriving DecidableEq

def refusal (thrown : String) : String :=
  "requestAnimationFrame failed: JsValue(" ++ Text.quoted thrown ++ ")"

def SchedulerFault.message : SchedulerFault → String
  | .noWindow => "no global window"
  | .noClock => "performance API unavailable"
  | .refused thrown => refusal thrown

inductive Fault where
  | content (e : Json.Error)
  | timing (e : TimingFault)
  | scheduler (e : SchedulerFault)

def Fault.message : Fault → String
  | .content e => "Config error: " ++ e.message
  | .timing e => "Animation error: " ++ e.message
  | .scheduler e => "Scheduler error: " ++ e.message

end HeroPage
