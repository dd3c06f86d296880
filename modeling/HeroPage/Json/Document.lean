import HeroPage.Json.Token
set_option autoImplicit false

namespace HeroPage.Json

def readDocument {ρ : Type} (read : List Char → Except Stop (ρ × List Char)) (text : String) :
    Except Error ρ :=
  let s := text.toList
  match read s with
  | .error e => .error (e.locate s)
  | .ok (x, r) =>
    match skipBlank r with
    | [] => .ok x
    | c :: t => .error ((Stop.past .trailingCharacters (c :: t)).locate s)

end HeroPage.Json
