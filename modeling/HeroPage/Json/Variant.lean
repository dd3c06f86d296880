import HeroPage.Json.Scalar
set_option autoImplicit false

namespace HeroPage.Json

section

variable {α : Type}

def readName (variants : List (String × α)) (s : List Char) : Except Stop (α × List Char) :=
  match readString s with
  | .error e => .error e
  | .ok (x, r) =>
    let name := String.ofList x
    match variants.lookup name with
    | some a => .ok (a, r)
    | none => .error (.here (.unknownVariant name (variants.map Prod.fst)) r)

/-- The rest of an object behind its key: nothing but a null. -/
def endVariant (s : List Char) : Except Stop (List Char) := do
  let s ← readColon s
  let s ← readNull s
  match skipBlank s with
  | [] => .error (.here .unfinishedObject [])
  | c :: r => if c = '}' then .ok r else .error (.here .expectedValue (c :: r))

def readTagged (variants : List (String × α)) (s : List Char) : Except Stop (α × List Char) :=
  match skipBlank s with
  | [] => .error (.past .unfinishedObject [])
  | c :: r =>
    if c = '"' then
      match readName variants r with
      | .error e => .error e
      | .ok (a, t) =>
        match endVariant t with
        | .error e => .error e
        | .ok u => .ok (a, u)
    else if c = '}' then .error (.past .expectedValue (c :: r))
    else .error (.past .expectedKey (c :: r))

def readVariant (variants : List (String × α)) (s : List Char) : Except Stop (α × List Char) :=
  match skipBlank s with
  | [] => .error (.past .unfinishedValue [])
  | c :: r =>
    if c = '"' then readName variants r
    else if c = '{' then readTagged variants r
    else .error (.past .expectedValue (c :: r))

end

end HeroPage.Json
