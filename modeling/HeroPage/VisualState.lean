import HeroPage.Decimal.Layout
set_option autoImplicit false

namespace HeroPage

structure VisualState where
  /-- From 0, invisible, to 1. -/
  opacity : Float
  /-- In pixels, downwards. -/
  offsetY : Float
  /-- In degrees. -/
  rotationDeg : Float

namespace VisualState

def settled : VisualState := ⟨1, 0, 0⟩

/-- The blend of two values: `a` at `t = 0`, `b` at `t = 1` as far as rounding allows. -/
def mix (a b t : Float) : Float := a + (b - a) * t

def blend (a b : VisualState) (t : Float) : VisualState where
  opacity := mix a.opacity b.opacity t
  offsetY := mix a.offsetY b.offsetY t
  rotationDeg := mix a.rotationDeg b.rotationDeg t

def css (s : VisualState) : String :=
  "opacity: " ++ Decimal.plain.text s.opacity ++
    "; transform: translateY(" ++ Decimal.plain.text s.offsetY ++
    "px) rotate(" ++ Decimal.plain.text s.rotationDeg ++ "deg);"

end VisualState

end HeroPage
