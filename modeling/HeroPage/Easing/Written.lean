import HeroPage.Easing
import HeroPage.Json.Document
import HeroPage.Json.Variant
set_option autoImplicit false

namespace HeroPage.Easing

def key : Easing → String
  | .linear => "linear"
  | .easeOut => "easeOut"

def variants : List (String × Easing) := [(key .linear, .linear), (key .easeOut, .easeOut)]

def written (e : Easing) : String := String.ofList (Json.writeString e.key.toList)

def read? (text : String) : Except Json.Error Easing :=
  Json.readDocument (Json.readVariant variants) text

end HeroPage.Easing
