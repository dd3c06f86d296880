import HeroPage.Link
import HeroPage.Stage.Browser
set_option autoImplicit false

namespace HeroPage

inductive Notice where
  | skipped (f : Fault)
  | reducedMotion
  /-- An entrance was still under way when its timer fired. -/
  | forced (millis : Nat)
  | refused (thrown : String)
  | navigating (t : Target)

namespace Notice

def level : Notice → String
  | .skipped _ => "WARN"
  | .reducedMotion => "DEBUG"
  | .forced _ => "DEBUG"
  | .refused _ => "WARN"
  | .navigating _ => "INFO"

def text : Notice → String
  | .skipped f => "Entrance skipped: " ++ f.message
  | .reducedMotion => "Reduced motion requested, skipping entrance"
  | .forced millis => "Entrance forced to target after " ++ toString millis ++ "ms"
  | .refused thrown => refusal thrown
  | .navigating t => "🧭 Navigating to " ++ t.path

end Notice

inductive Event where
  | queried
  | requested (id : Nat)
  | refused
  | cancelled (id : Nat)
  | timerSet (id millis : Nat)
  | timerCleared (id : Nat)
  | logged (n : Notice)

def Event.line : Event → String
  | .queried => "match_media " ++ Browser.motionQuery
  | .requested id => "request " ++ toString id
  | .refused => "request failed"
  | .cancelled id => "cancel " ++ toString id
  | .timerSet id millis => "timeout " ++ toString id ++ " in " ++ toString millis ++ "ms"
  | .timerCleared id => "clear timeout " ++ toString id
  | .logged n => "log " ++ n.level ++ " " ++ n.text

def Router.activate (r : Router) (t : Target) : Router × Event :=
  (r.follow t, .logged (.navigating t))

structure Entry where
  owner : Nat
  event : Event

end HeroPage
