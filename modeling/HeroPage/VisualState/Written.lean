import HeroPage.VisualState
import HeroPage.Json.Document
import HeroPage.Json.Record
set_option autoImplicit false

namespace HeroPage.VisualState

def record : Json.Record Float VisualState where
  name := "struct VisualState"
  keys := ["opacity", "offsetY", "rotationDeg"]
  field := Json.floatReader
  make := fun get =>
    let need (key : String) : Except String Float :=
      match get key with
      | some x => .ok x
      | none => .error key
    do return ⟨← need "opacity", ← need "offsetY", ← need "rotationDeg"⟩

def read? (text : String) : Except Json.Error VisualState := Json.readDocument record.read text

def written (s : VisualState) : String :=
  String.ofList (Json.writeObject
    [("opacity", Decimal.json.characters (.ofFloat s.opacity)),
     ("offsetY", Decimal.json.characters (.ofFloat s.offsetY)),
     ("rotationDeg", Decimal.json.characters (.ofFloat s.rotationDeg))])

end HeroPage.VisualState
