import HeroPage.Json.Text
import HeroPage.Json.Number
set_option autoImplicit false

/-! A value of another type than the wanted one is read to its end if it is a scalar, so that a mistake in its
text is reported before its type is. -/

namespace HeroPage.Json

/-- A reader takes at least one character if it succeeds. -/
structure Reader (α : Type) where
  read : List Char → Except Stop (α × List Char)
  progress : ∀ {s r : List Char} {a : α}, read s = .ok (a, r) → r.length < s.length

def mistypedWord (word : String) (found : Found) (wanted : String) (s : List Char) : Stop :=
  match readWord word.toList s with
  | .error e => e
  | .ok r => .here (.wrongType found wanted) r

def mistypedNumber (negative : Bool) (wanted : String) (s : List Char) : Stop :=
  match readNumber negative s with
  | .error e => e
  | .ok (n, r) => .here (.wrongType (.number n) wanted) r

def mistypedString (wanted : String) (s : List Char) : Stop :=
  match readString s with
  | .error e => e
  | .ok (x, r) => .here (.wrongType (.string (String.ofList x)) wanted) r

def mistyped (wanted : String) : List Char → Stop
  | [] => .past .unfinishedValue []
  | c :: s =>
    match c with
    | 'n' => mistypedWord "ull" .null wanted s
    | 't' => mistypedWord "rue" (.boolean true) wanted s
    | 'f' => mistypedWord "alse" (.boolean false) wanted s
    | '-' => mistypedNumber true wanted s
    | '"' => mistypedString wanted s
    | '[' => .here (.wrongType .sequence wanted) (c :: s)
    | '{' => .here (.wrongType .map wanted) (c :: s)
    | _ =>
      if c.isDigit then mistypedNumber false wanted (c :: s) else .past .expectedValue (c :: s)

def readText (s : List Char) : Except Stop (String × List Char) :=
  match skipBlank s with
  | [] => .error (.past .unfinishedValue [])
  | c :: r =>
    if c = '"' then
      match readString r with
      | .error e => .error e
      | .ok (x, t) => .ok (String.ofList x, t)
    else .error (mistyped "a string" (c :: r))

def readFloat (s : List Char) : Except Stop (Float × List Char) :=
  match skipBlank s with
  | [] => .error (.past .unfinishedValue [])
  | c :: r =>
    if c = '-' then
      match readNumber true r with
      | .error e => .error e
      | .ok (n, t) => .ok (n.toFloat, t)
    else if c.isDigit then
      match readNumber false (c :: r) with
      | .error e => .error e
      | .ok (n, t) => .ok (n.toFloat, t)
    else .error (mistyped "f64" (c :: r))

def readNull (s : List Char) : Except Stop (List Char) :=
  match skipBlank s with
  | [] => .error (.past .unfinishedValue [])
  | c :: r => if c = 'n' then readWord "ull".toList r else .error (mistyped "unit" (c :: r))

theorem readText_length {s r : List Char} {x : String} (h : readText s = .ok (x, r)) :
    r.length < s.length := by
  unfold readText at h
  split at h
  · cases h
  · next c t hs =>
    have := length_lt_of_skipBlank hs
    split at h
    · split at h
      · cases h
      · next hx =>
        have := readString_length hx
        cases h
        omega
    · cases h

theorem readFloat_length {s r : List Char} {x : Float} (h : readFloat s = .ok (x, r)) :
    r.length < s.length := by
  unfold readFloat at h
  split at h
  · cases h
  · next c t hs =>
    have := length_lt_of_skipBlank hs
    split at h
    · split at h
      · cases h
      · next hx =>
        have := readNumber_length hx
        cases h
        omega
    · split at h
      · split at h
        · cases h
        · next hx =>
          have := readNumber_length hx
          rw [List.length_cons] at this
          cases h
          omega
      · cases h

def textReader : Reader String := ⟨readText, readText_length⟩

def floatReader : Reader Float := ⟨readFloat, readFloat_length⟩

end HeroPage.Json
