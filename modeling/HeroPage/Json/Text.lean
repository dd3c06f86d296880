import HeroPage.Json.Token
set_option autoImplicit false

namespace HeroPage.Json

def hexDigit? (c : Char) : Option Nat :=
  if '0' ≤ c ∧ c ≤ '9' then some (c.toNat - 48)
  else if 'a' ≤ c ∧ c ≤ 'f' then some (c.toNat - 87)
  else if 'A' ≤ c ∧ c ≤ 'F' then some (c.toNat - 55)
  else none

def hexDigits? : List Char → Option (Nat × List Char)
  | a :: b :: c :: d :: r => do
    let a ← hexDigit? a
    let b ← hexDigit? b
    let c ← hexDigit? c
    let d ← hexDigit? d
    return (((a * 16 + b) * 16 + c) * 16 + d, r)
  | _ => none

/-- The four digits of an escape. Without them reading stops four bytes on, in front of whatever
stands there, or at the end of the text. -/
def readHex (s : List Char) : Except Stop (Nat × List Char) :=
  match hexDigits? s with
  | some found => .ok found
  | none =>
    if bytes s < 4 then .error ⟨.unfinishedString, 0⟩ else .error ⟨.invalidEscape, bytes s - 4⟩

theorem readHex_length {s r : List Char} {n : Nat} (h : readHex s = .ok (n, r)) :
    r.length < s.length := by
  unfold readHex at h
  split at h
  · next found hf =>
    cases h
    unfold hexDigits? at hf
    split at hf
    · simp only [Option.bind_eq_bind, Option.bind_eq_some_iff] at hf
      obtain ⟨_, _, _, _, _, _, _, _, hr⟩ := hf
      cases hr
      simp only [List.length_cons]
      omega
    · cases hf
  · split at h <;> cases h

def escaped? : Char → Option Char
  | '"' => some '"'
  | '\\' => some '\\'
  | '/' => some '/'
  | 'b' => some '\x08'
  | 'f' => some '\x0c'
  | 'n' => some '\n'
  | 'r' => some '\r'
  | 't' => some '\t'
  | _ => none

/-- The first half of a pair, after which the second half has to follow at once. -/
def isHighSurrogate (n : Nat) : Bool := decide (0xD800 ≤ n ∧ n < 0xDC00)

def isLowSurrogate (n : Nat) : Bool := decide (0xDC00 ≤ n ∧ n < 0xE000)

def surrogatePair (high low : Nat) : Nat := 0x10000 + (high - 0xD800) * 0x400 + (low - 0xDC00)

def readMark (mark : Char) : List Char → Except Stop (List Char)
  | [] => .error (.past .unfinishedString [])
  | c :: s => if c = mark then .ok s else .error (.past .unpairedSurrogate (c :: s))

def readLowSurrogate (high : Nat) (s : List Char) : Except Stop (Char × List Char) := do
  let s ← readMark '\\' s
  let s ← readMark 'u' s
  let (low, s) ← readHex s
  if isLowSurrogate low then .ok (Char.ofNat (surrogatePair high low), s)
  else .error (.here .loneSurrogate s)

/-- The character of an escape whose backslash has been read. -/
def readEscape : List Char → Except Stop (Char × List Char)
  | [] => .error (.past .unfinishedString [])
  | c :: s =>
    if c = 'u' then
      match readHex s with
      | .error e => .error e
      | .ok (n, r) =>
        if isLowSurrogate n then .error (.here .loneSurrogate r)
        else if isHighSurrogate n then readLowSurrogate n r
        else .ok (Char.ofNat n, r)
    else match escaped? c with
      | some x => .ok (x, s)
      | none => .error (.past .invalidEscape (c :: s))

theorem readMark_eq_ok {mark : Char} {s r : List Char} (h : readMark mark s = .ok r) :
    s = mark :: r := by
  cases s with
  | nil => cases h
  | cons c s =>
    rw [readMark] at h
    split at h
    · next e => cases h; rw [e]
    · cases h

theorem readLowSurrogate_length {n : Nat} {s r : List Char} {c : Char}
    (h : readLowSurrogate n s = .ok (c, r)) : r.length < s.length := by
  simp only [readLowSurrogate, bind, Except.bind] at h
  split at h
  · cases h
  · next t ht =>
    rw [readMark_eq_ok ht]
    split at h
    · cases h
    · next u hu =>
      rw [readMark_eq_ok hu]
      split at h
      · cases h
      · next hx =>
        split at h
        · rw [← (Prod.mk.inj (Except.ok.inj h)).2]
          exact Nat.lt_succ_of_lt (Nat.lt_succ_of_lt (readHex_length hx))
        · cases h

theorem readEscape_length {s r : List Char} {c : Char} (h : readEscape s = .ok (c, r)) :
    r.length < s.length := by
  cases s with
  | nil => cases h
  | cons b s =>
    rw [readEscape] at h
    rw [List.length_cons]
    split at h
    · split at h
      · cases h
      · next hx =>
        have := readHex_length hx
        split at h
        · cases h
        · split at h
          · have := readLowSurrogate_length h
            omega
          · cases h
            omega
    · split at h
      · cases h
        exact Nat.lt_succ_self _
      · cases h

def readString (s : List Char) : Except Stop (List Char × List Char) :=
  match s with
  | [] => .error (.past .unfinishedString [])
  | c :: r =>
    if c = '"' then .ok ([], r)
    else if c = '\\' then
      match _h : readEscape r with
      | .error e => .error e
      | .ok (x, t) =>
        match readString t with
        | .error e => .error e
        | .ok (xs, rest) => .ok (x :: xs, rest)
    else if c < ' ' then .error (.past .controlCharacter (c :: r))
    else
      match readString r with
      | .error e => .error e
      | .ok (xs, rest) => .ok (c :: xs, rest)
  termination_by s.length
  decreasing_by
    · have := readEscape_length _h
      simp only [List.length_cons]
      omega
    · simp only [List.length_cons]
      omega

theorem readString_length {s x r : List Char} (h : readString s = .ok (x, r)) :
    r.length < s.length := by
  fun_induction readString s generalizing x r with
  | case1 => cases h
  | case2 => cases h; exact Nat.lt_succ_self _
  | case3 => cases h
  | case4 => cases h
  | case5 s y t hy xs rest hr _ ih =>
    cases h
    have := ih hr
    have := readEscape_length hy
    rw [List.length_cons]
    omega
  | case6 => cases h
  | case7 => cases h
  | case8 c s _ _ _ xs rest hr ih =>
    cases h
    exact Nat.lt_succ_of_lt (ih hr)

def skipEscape : List Char → Except Stop (List Char)
  | [] => .error (.past .unfinishedString [])
  | c :: s =>
    if c = 'u' then
      match readHex s with
      | .error e => .error e
      | .ok (_, r) => .ok r
    else match escaped? c with
      | some _ => .ok s
      | none => .error (.past .invalidEscape (c :: s))

theorem skipEscape_length {s r : List Char} (h : skipEscape s = .ok r) : r.length < s.length := by
  cases s with
  | nil => cases h
  | cons c s =>
    rw [skipEscape] at h
    split at h
    · split at h
      · cases h
      · next hx =>
        cases h
        exact Nat.lt_succ_of_lt (readHex_length hx)
    · split at h
      · cases h
        exact Nat.lt_succ_self _
      · cases h

def skipString (s : List Char) : Except Stop (List Char) :=
  match s with
  | [] => .error (.past .unfinishedString [])
  | c :: r =>
    if c = '"' then .ok r
    else if c = '\\' then
      match _h : skipEscape r with
      | .error e => .error e
      | .ok t => skipString t
    else if c < ' ' then .error (.here .controlCharacter (c :: r))
    else skipString r
  termination_by s.length
  decreasing_by
    · have := skipEscape_length _h
      simp only [List.length_cons]
      omega
    · simp only [List.length_cons]
      omega

theorem skipString_length {s r : List Char} (h : skipString s = .ok r) : r.length < s.length := by
  fun_induction skipString s generalizing r with
  | case1 => cases h
  | case2 => cases h; exact Nat.lt_succ_self _
  | case3 => cases h
  | case4 s t hy _ ih =>
    have := ih h
    have := skipEscape_length hy
    rw [List.length_cons]
    omega
  | case5 => cases h
  | case6 c s _ _ _ ih => exact Nat.lt_succ_of_lt (ih h)

def hexDigit (n : Nat) : Char := Nat.digitChar n

def writeCharacter (c : Char) : List Char :=
  match c with
  | '"' => ['\\', '"']
  | '\\' => ['\\', '\\']
  | '\x08' => ['\\', 'b']
  | '\t' => ['\\', 't']
  | '\n' => ['\\', 'n']
  | '\x0c' => ['\\', 'f']
  | '\r' => ['\\', 'r']
  | c =>
    if c < ' ' then ['\\', 'u', '0', '0', hexDigit (c.toNat / 16), hexDigit (c.toNat % 16)]
    else [c]

def writeString (s : List Char) : List Char := '"' :: (s.flatMap writeCharacter ++ ['"'])

@[simp] theorem writeString_nil : writeString [] = ['"', '"'] := rfl

end HeroPage.Json
