import HeroPage.Content
import HeroPage.Path
set_option autoImplicit false

/-! A route is shown at every path that has the names of its own, letter for letter. Only a plain click is
followed; one with another button or with a modifier key is left to the browser. -/

namespace HeroPage

inductive Target where
  | events
  | register
  deriving DecidableEq

namespace Target

def name : Target → String
  | .events => "Events"
  | .register => "Register"

def path : Target → String
  | .events => "/events"
  | .register => "/register"

end Target

inductive Route where
  | home
  | landing (target : Target)
  deriving DecidableEq

namespace Route

def all : List Route := [.home, .landing .events, .landing .register]

def path : Route → String
  | .home => "/"
  | .landing target => target.path

def ofPath? (p : Path) : Option Route := all.find? fun r => (Path.ofUrl r.path).names = p.names

theorem ofPath?_ofUrl (r : Route) : ofPath? (.ofUrl r.path) = some r := by
  rcases r with _ | _ | _ <;> decide +kernel

theorem ofPath?_eq_some_iff {p : Path} {r : Route} :
    ofPath? p = some r ↔ p.names = (Path.ofUrl r.path).names := by
  constructor
  · intro h
    have found := List.find?_some h
    exact (of_decide_eq_true found).symm
  · intro h
    rw [ofPath?, h]
    exact ofPath?_ofUrl r

end Route

inductive Emphasis where
  | primary
  | secondary
  deriving DecidableEq

namespace Emphasis

def name : Emphasis → String
  | .primary => "Primary"
  | .secondary => "Secondary"

def cssClass : Emphasis → String
  | .primary => "btn btn-primary"
  | .secondary => "btn btn-secondary"

end Emphasis

structure Link where
  label : String
  target : Target
  emphasis : Emphasis
  deriving DecidableEq

def Link.href (l : Link) : String := l.target.path

def Content.links (c : Content) : List Link :=
  [⟨c.primaryLabel, .events, .primary⟩, ⟨c.secondaryLabel, .register, .secondary⟩]

/-- The paths that have been asked for, first to last. -/
structure Router where
  requests : List String := []
  deriving DecidableEq

def Router.follow (r : Router) (t : Target) : Router := ⟨r.requests ++ [t.path]⟩

@[simp] theorem Router.requests_follow (r : Router) (t : Target) :
    (r.follow t).requests = r.requests ++ [t.path] := rfl

structure Click where
  button : Int
  ctrl : Bool
  command : Bool
  shift : Bool
  alt : Bool

def Click.isPlain (c : Click) : Bool :=
  c.button == 0 && !(c.ctrl || c.command || c.shift || c.alt)

end HeroPage
