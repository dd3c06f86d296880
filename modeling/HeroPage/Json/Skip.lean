import HeroPage.Json.Text
import HeroPage.Json.Number
set_option autoImplicit false

namespace HeroPage.Json

inductive Bracket where
  | list
  | object
  deriving DecidableEq

namespace Bracket

def opening? : Char → Option Bracket
  | '[' => some .list
  | '{' => some .object
  | _ => none

def closing : Bracket → Char
  | .list => ']'
  | .object => '}'

def unfinished : Bracket → Cause
  | .list => .unfinishedList
  | .object => .unfinishedObject

def unended : Bracket → Cause
  | .list => .expectedListEnd
  | .object => .expectedObjectEnd

end Bracket

def skipKey (s : List Char) : Except Stop (List Char) :=
  match skipBlank s with
  | [] => .error (.past .unfinishedObject [])
  | c :: r =>
    if c = '"' then
      match skipString r with
      | .error e => .error e
      | .ok t => readColon t
    else .error (.past .expectedKey (c :: r))

def Bracket.skipLabel : Bracket → List Char → Except Stop (List Char)
  | .list, s => .ok s
  | .object, s => skipKey s

def skipScalar : List Char → Except Stop (List Char)
  | [] => .error (.past .unfinishedValue [])
  | c :: s =>
    match c with
    | 'n' => readWord "ull".toList s
    | 't' => readWord "rue".toList s
    | 'f' => readWord "alse".toList s
    | '-' => skipNumber s
    | '"' => skipString s
    | _ => if c.isDigit then skipNumber (c :: s) else .error (.past .expectedValue (c :: s))

theorem skipKey_length {s r : List Char} (h : skipKey s = .ok r) : r.length < s.length := by
  unfold skipKey at h
  split at h
  · cases h
  · next c t hs =>
    have := length_lt_of_skipBlank hs
    split at h
    · split at h
      · cases h
      · next u hu =>
        have := skipString_length hu
        have := readColon_length h
        omega
    · cases h

theorem skipLabel_length {b : Bracket} {s r : List Char} (h : b.skipLabel s = .ok r) :
    r.length ≤ s.length := by
  cases b with
  | list => cases h; exact Nat.le_refl _
  | object => exact Nat.le_of_lt (skipKey_length h)

theorem skipScalar_length {s r : List Char} (h : skipScalar s = .ok r) : r.length < s.length := by
  cases s with
  | nil => cases h
  | cons c s =>
    dsimp only [skipScalar] at h
    rw [List.length_cons]
    split at h
    · exact Nat.lt_succ_of_le (readWord_length h)
    · exact Nat.lt_succ_of_le (readWord_length h)
    · exact Nat.lt_succ_of_le (readWord_length h)
    · exact Nat.lt_succ_of_lt (skipNumber_length h)
    · exact Nat.lt_succ_of_lt (skipString_length h)
    · split at h
      · exact skipNumber_length h
      · cases h

inductive Side where
  | before
  | behind
  deriving DecidableEq

/-- Pass a value and whatever closes the brackets that are open. -/
def skipFrom (side : Side) (enclosing : List Bracket) (s : List Char) : Except Stop (List Char) :=
  match side, enclosing with
  | .behind, [] => .ok s
  | .behind, b :: outer =>
    match _h : skipBlank s with
    | [] => .error (.past b.unfinished [])
    | c :: r =>
      if c = ',' then
        match _hl : b.skipLabel r with
        | .error e => .error e
        | .ok t => skipFrom .before (b :: outer) t
      else if c = b.closing then skipFrom .behind outer r
      else .error (.past b.unended (c :: r))
  | .before, enclosing =>
    match _h : skipBlank s with
    | [] => .error (.past .unfinishedValue [])
    | c :: r =>
      match Bracket.opening? c with
      | some b =>
        match _hb : skipBlank r with
        | [] => .error (.past b.unfinished [])
        | d :: t =>
          if d = b.closing then skipFrom .behind enclosing t
          else
            match _hl : b.skipLabel (d :: t) with
            | .error e => .error e
            | .ok u => skipFrom .before (b :: enclosing) u
      | none =>
        match _hs : skipScalar (c :: r) with
        | .error e => .error e
        | .ok t => skipFrom .behind enclosing t
  termination_by s.length
  decreasing_by
    · exact Nat.lt_of_le_of_lt (skipLabel_length _hl) (length_lt_of_skipBlank _h)
    · exact length_lt_of_skipBlank _h
    · exact Nat.lt_trans (length_lt_of_skipBlank _hb) (length_lt_of_skipBlank _h)
    · have := length_lt_of_skipBlank _h
      have := length_lt_of_skipBlank _hb
      have := skipLabel_length _hl
      rw [List.length_cons] at this
      omega
    · have := length_lt_of_skipBlank _h
      have := skipScalar_length _hs
      rw [List.length_cons] at this
      omega

def Side.least : Side → Nat
  | .before => 1
  | .behind => 0

theorem skipFrom_length {side : Side} {enclosing : List Bracket} {s r : List Char}
    (h : skipFrom side enclosing s = .ok r) : r.length + side.least ≤ s.length := by
  fun_induction skipFrom side enclosing s with
  | case1 s => cases h; exact Nat.le_refl _
  | case4 s b outer t u hl hs ih =>
    have := ih h
    have := skipLabel_length hl
    have := length_lt_of_skipBlank hs
    simp only [Side.least] at *
    omega
  | case5 s b outer t hs _ ih =>
    have := ih h
    have := length_lt_of_skipBlank hs
    simp only [Side.least] at *
    omega
  | case9 s enclosing c t hs b _ u ht ih =>
    have := ih h
    have := length_lt_of_skipBlank hs
    have := length_lt_of_skipBlank ht
    simp only [Side.least] at *
    omega
  | case11 s enclosing c t hs b _ d u ht _ v hl ih =>
    have := ih h
    have := length_lt_of_skipBlank hs
    have := length_lt_of_skipBlank ht
    have hv := skipLabel_length hl
    rw [List.length_cons] at hv
    simp only [Side.least] at *
    omega
  | case13 s enclosing c t hs _ u hu ih =>
    have := ih h
    have := length_lt_of_skipBlank hs
    have hv := skipScalar_length hu
    rw [List.length_cons] at hv
    simp only [Side.least] at *
    omega
  | _ => cases h

def skipValue (s : List Char) : Except Stop (List Char) := skipFrom .before [] s

theorem skipValue_length {s r : List Char} (h : skipValue s = .ok r) : r.length < s.length :=
  skipFrom_length h

end HeroPage.Json
