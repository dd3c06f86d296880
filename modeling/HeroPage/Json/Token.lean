import HeroPage.Json.Stop
set_option autoImplicit false

namespace HeroPage.Json

def isBlank (c : Char) : Bool := c == ' ' || c == '\n' || c == '\t' || c == '\r'

def skipBlank (s : List Char) : List Char := s.dropWhile isBlank

theorem skipBlank_length_le (s : List Char) : (skipBlank s).length ≤ s.length :=
  (List.dropWhile_sublist isBlank).length_le

theorem length_lt_of_skipBlank {s r : List Char} {c : Char} (h : skipBlank s = c :: r) :
    r.length < s.length := by
  have := skipBlank_length_le s
  rw [h, List.length_cons] at this
  omega

def readColon (s : List Char) : Except Stop (List Char) :=
  match skipBlank s with
  | [] => .error (.past .unfinishedObject [])
  | c :: r => if c = ':' then .ok r else .error (.past .expectedColon (c :: r))

theorem readColon_length {s r : List Char} (h : readColon s = .ok r) : r.length < s.length := by
  unfold readColon at h
  split at h
  · cases h
  · next c t hs =>
    split at h
    · cases h
      exact length_lt_of_skipBlank hs
    · cases h

def readWord : List Char → List Char → Except Stop (List Char)
  | [], s => .ok s
  | _ :: _, [] => .error (.past .unfinishedValue [])
  | w :: ws, c :: s => if c = w then readWord ws s else .error (.past .expectedWord (c :: s))

theorem readWord_eq_ok {w s r : List Char} (h : readWord w s = .ok r) : s = w ++ r := by
  induction w generalizing s with
  | nil => cases h; rfl
  | cons c w ih =>
    cases s with
    | nil => cases h
    | cons d s =>
      unfold readWord at h
      split at h
      · next e => rw [ih h, e]; rfl
      · cases h

theorem readWord_append (w r : List Char) : readWord w (w ++ r) = .ok r := by
  induction w with
  | nil => rfl
  | cons c w ih => rw [List.cons_append, readWord, if_pos rfl, ih]

theorem readWord_length {w s r : List Char} (h : readWord w s = .ok r) : r.length ≤ s.length := by
  rw [readWord_eq_ok h, List.length_append]
  omega

end HeroPage.Json
