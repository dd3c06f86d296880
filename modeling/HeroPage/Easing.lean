set_option autoImplicit false

namespace HeroPage

inductive Easing where
  | linear
  | easeOut
  deriving DecidableEq

def clampUnit (x : Float) : Float :=
  if x < 0 then 0 else if 1 < x then 1 else x

namespace Easing

def standard : Easing := .easeOut

def apply (e : Easing) (p : Float) : Float :=
  let p := clampUnit p
  match e with
  | .linear => p
  | .easeOut =>
    let q := 1 - p
    1 - q * q * q

end Easing

end HeroPage
