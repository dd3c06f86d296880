import HeroPage.Json.Token
set_option autoImplicit false

/-! The digits of a number are collected in a significand of 64 bits; the point and the exponent move a power
of ten. From the first digit that does not fit, digits before the point only raise the power and digits
after it are dropped. The significand is rounded and then multiplied or divided once by a rounded power of
ten, which can miss the nearest double. -/

namespace HeroPage.Json

def digitValue (c : Char) : Nat := c.toNat - '0'.toNat

/-- Append digits to `a` as long as the result is at most `limit`; gives it and what is left. -/
def collect (limit a : Nat) : List Char → Nat × List Char
  | [] => (a, [])
  | c :: s =>
    if c.isDigit ∧ a * 10 + digitValue c ≤ limit then collect limit (a * 10 + digitValue c) s
    else (a, c :: s)

theorem collect_length_le (limit a : Nat) (s : List Char) :
    (collect limit a s).2.length ≤ s.length := by
  induction s generalizing a with
  | nil => exact Nat.le_refl 0
  | cons c s ih =>
    unfold collect
    split
    · exact Nat.le_succ_of_le (ih _)
    · exact Nat.le_refl _

def takeDigits (s : List Char) : List Char := s.takeWhile Char.isDigit

def dropDigits (s : List Char) : List Char := s.dropWhile Char.isDigit

theorem takeDigits_append_dropDigits (s : List Char) : takeDigits s ++ dropDigits s = s :=
  List.takeWhile_append_dropWhile

theorem dropDigits_length_le (s : List Char) : (dropDigits s).length ≤ s.length :=
  (List.dropWhile_sublist Char.isDigit).length_le

def significandLimit : Nat := UInt64.size - 1

def exponentLimit : Nat := Int32.size / 2 - 1

def powerOfTen (n : Nat) : Float := Float.ofScientific 1 false n

def greatestPower : Nat := 308

/-- Divide by `10 ^ n`, in steps of the greatest power. -/
def divideByPower (x : Float) (n : Nat) : Float :=
  if n ≤ greatestPower then x / powerOfTen n
  else if x == 0 then x
  else divideByPower (x / powerOfTen greatestPower) (n - greatestPower)
  termination_by n
  decreasing_by simp only [greatestPower] at *; omega

def scaled? (significand : Nat) (power : Int) : Option Float :=
  let x := (UInt64.ofNat significand).toFloat
  if power < 0 then some (divideByPower x power.natAbs)
  else if power.natAbs ≤ greatestPower then
    let y := x * powerOfTen power.natAbs
    if y.isInf then none else some y
  else if x == 0 then some x
  else none

def signed (negative : Bool) (x : Float) : Float := if negative then -x else x

def realNumber (negative : Bool) (significand : Nat) (power : Int) (s : List Char) :
    Except Stop (Number × List Char) :=
  match scaled? significand power with
  | some x => .ok (.real (signed negative x), s)
  | none => .error (.here .numberOutOfRange s)

/-- A number without point and exponent, in front of `s`. It is whole if it fits a signed or an
unsigned word; a negative zero is not. -/
def wholeNumber (negative : Bool) (n : Nat) (s : List Char) : Number × List Char :=
  if negative = false then (.whole n, s)
  else if 1 ≤ n ∧ n ≤ Int64.size / 2 then (.whole (-(n : Int)), s)
  else (.real (-(UInt64.ofNat n).toFloat), s)

def readSign : List Char → Bool × List Char
  | [] => (false, [])
  | c :: s => if c = '-' then (true, s) else if c = '+' then (false, s) else (false, c :: s)

theorem readSign_length_le (s : List Char) : (readSign s).2.length ≤ s.length := by
  cases s with
  | nil => exact Nat.le_refl 0
  | cons c s =>
    rw [readSign]
    split
    · exact Nat.le_succ _
    · split
      · exact Nat.le_succ _
      · exact Nat.le_refl _

/-- The exponent, after its letter. One beyond all bounds makes the number zero or too large. -/
def readExponent (negative : Bool) (significand : Nat) (power : Int) (s : List Char) :
    Except Stop (Number × List Char) :=
  let (down, s) := readSign s
  match s with
  | [] => .error (.past .unfinishedValue [])
  | c :: r =>
    if c.isDigit then
      let (e, t) := collect exponentLimit 0 (c :: r)
      if (takeDigits t).isEmpty then
        realNumber negative significand (if down then power - e else power + e) t
      else if significand = 0 ∨ down then .ok (.real (signed negative 0), dropDigits t)
      else .error (.past .numberOutOfRange t)
    else .error (.past .invalidNumber (c :: r))

def readPower (negative : Bool) (significand : Nat) (power : Int) :
    List Char → Except Stop (Number × List Char)
  | [] => realNumber negative significand power []
  | c :: s =>
    if c = 'e' ∨ c = 'E' then readExponent negative significand power s
    else realNumber negative significand power (c :: s)

def readFraction (negative : Bool) (significand : Nat) (power : Int) (s : List Char) :
    Except Stop (Number × List Char) :=
  if (takeDigits s).isEmpty then
    .error (.past (if s.isEmpty then .unfinishedValue else .invalidNumber) s)
  else
    let (n, t) := collect significandLimit significand s
    readPower negative n (power - (s.length - t.length : Nat)) (dropDigits t)

/-- What may follow the digits before the point: `dropped` of them did not fit. -/
def readTail (negative : Bool) (significand dropped : Nat) :
    List Char → Except Stop (Number × List Char)
  | [] =>
    if dropped = 0 then .ok (wholeNumber negative significand [])
    else realNumber negative significand dropped []
  | c :: s =>
    if c = '.' then readFraction negative significand dropped s
    else if c = 'e' ∨ c = 'E' then readExponent negative significand dropped s
    else if dropped = 0 then .ok (wholeNumber negative significand (c :: s))
    else realNumber negative significand dropped (c :: s)

def readNumber (negative : Bool) : List Char → Except Stop (Number × List Char)
  | [] => .error (.past .unfinishedValue [])
  | c :: s =>
    if c = '0' then
      if (takeDigits s).isEmpty then readTail negative 0 0 s
      else .error (.past .invalidNumber s)
    else if c.isDigit then
      let (n, t) := collect significandLimit 0 (c :: s)
      readTail negative n (takeDigits t).length (dropDigits t)
    else .error (.past .invalidNumber (c :: s))

theorem realNumber_rest {negative : Bool} {n : Nat} {power : Int} {s r : List Char} {x : Number}
    (h : realNumber negative n power s = .ok (x, r)) : r = s := by
  unfold realNumber at h
  split at h
  · cases h; rfl
  · cases h

theorem wholeNumber_rest (negative : Bool) (n : Nat) (s : List Char) :
    (wholeNumber negative n s).2 = s := by
  unfold wholeNumber
  split
  · rfl
  · split <;> rfl

theorem readExponent_length {negative : Bool} {n : Nat} {power : Int} {s r : List Char} {x : Number}
    (h : readExponent negative n power s = .ok (x, r)) : r.length ≤ s.length := by
  unfold readExponent at h
  have hs := readSign_length_le s
  revert h
  generalize readSign s = p at hs ⊢
  obtain ⟨down, t⟩ := p
  intro h
  cases t with
  | nil => cases h
  | cons c t =>
    simp only at h hs
    split at h
    · have hc := collect_length_le exponentLimit 0 (c :: t)
      have hd := dropDigits_length_le (collect exponentLimit 0 (c :: t)).2
      split at h
      · rw [realNumber_rest h]
        exact Nat.le_trans hc hs
      · split at h
        · cases h
          exact Nat.le_trans hd (Nat.le_trans hc hs)
        · cases h
    · cases h

theorem readPower_length {negative : Bool} {n : Nat} {power : Int} {s r : List Char} {x : Number}
    (h : readPower negative n power s = .ok (x, r)) : r.length ≤ s.length := by
  cases s with
  | nil => exact (realNumber_rest h).symm ▸ Nat.le_refl _
  | cons c s =>
    rw [readPower] at h
    split at h
    · exact Nat.le_succ_of_le (readExponent_length h)
    · exact (realNumber_rest h).symm ▸ Nat.le_refl _

theorem readFraction_length {negative : Bool} {n : Nat} {power : Int} {s r : List Char} {x : Number}
    (h : readFraction negative n power s = .ok (x, r)) : r.length ≤ s.length := by
  unfold readFraction at h
  split at h
  · cases h
  · exact Nat.le_trans (readPower_length h)
      (Nat.le_trans (dropDigits_length_le _) (collect_length_le significandLimit n s))

theorem readTail_length {negative : Bool} {n dropped : Nat} {s r : List Char} {x : Number}
    (h : readTail negative n dropped s = .ok (x, r)) : r.length ≤ s.length := by
  cases s with
  | nil =>
    rw [readTail] at h
    split at h
    · have := congrArg Prod.snd (Except.ok.inj h)
      rw [wholeNumber_rest] at this
      exact this ▸ Nat.le_refl _
    · exact (realNumber_rest h).symm ▸ Nat.le_refl _
  | cons c s =>
    rw [readTail] at h
    split at h
    · exact Nat.le_succ_of_le (readFraction_length h)
    · split at h
      · exact Nat.le_succ_of_le (readExponent_length h)
      · split at h
        · have := congrArg Prod.snd (Except.ok.inj h)
          rw [wholeNumber_rest] at this
          exact this ▸ Nat.le_refl _
        · exact (realNumber_rest h).symm ▸ Nat.le_refl _

theorem collect_digit {limit : Nat} {c : Char} (s : List Char) (hc : c.isDigit = true)
    (hl : digitValue c ≤ limit) : collect limit 0 (c :: s) = collect limit (digitValue c) s := by
  rw [collect, if_pos ⟨hc, by omega⟩, Nat.zero_mul, Nat.zero_add]

theorem digitValue_le {c : Char} (hc : c.isDigit = true) : digitValue c ≤ 9 := by
  simp only [Char.isDigit, Bool.and_eq_true, decide_eq_true_eq] at hc
  have h : c.val.toNat ≤ 57 := UInt32.le_iff_toNat_le.1 hc.2
  have h₀ : '0'.toNat = 48 := rfl
  rw [digitValue, h₀, Char.toNat]
  omega

theorem readNumber_length {negative : Bool} {s r : List Char} {x : Number}
    (h : readNumber negative s = .ok (x, r)) : r.length < s.length := by
  cases s with
  | nil => cases h
  | cons c s =>
    rw [readNumber] at h
    rw [List.length_cons]
    split at h
    · split at h
      · exact Nat.lt_succ_of_le (readTail_length h)
      · cases h
    · split at h
      · next hd =>
        have hl : digitValue c ≤ significandLimit :=
          Nat.le_trans (digitValue_le hd) (by decide)
        have hs := collect_length_le significandLimit (digitValue c) s
        rw [← collect_digit s hd hl] at hs
        exact Nat.lt_succ_of_le
          (Nat.le_trans (readTail_length h) (Nat.le_trans (dropDigits_length_le _) hs))
      · cases h

def Number.toFloat : Number → Float
  | .whole n => signed (decide (n < 0)) (UInt64.ofNat n.natAbs).toFloat
  | .real x => x

def skipDigits (s : List Char) : Except Stop (List Char) :=
  if (takeDigits s).isEmpty then .error (.past .invalidNumber s) else .ok (dropDigits s)

def skipExponent : List Char → Except Stop (List Char)
  | [] => .ok []
  | c :: s => if c = 'e' ∨ c = 'E' then skipDigits (readSign s).2 else .ok (c :: s)

def skipTail : List Char → Except Stop (List Char)
  | [] => .ok []
  | c :: s =>
    if c = '.' then
      match skipDigits s with
      | .error e => .error e
      | .ok r => skipExponent r
    else skipExponent (c :: s)

def skipNumber : List Char → Except Stop (List Char)
  | [] => .error (.past .invalidNumber [])
  | c :: s =>
    if c = '0' then
      if (takeDigits s).isEmpty then skipTail s else .error (.past .invalidNumber s)
    else if c.isDigit then skipTail (dropDigits s)
    else .error (.past .invalidNumber (c :: s))

theorem skipDigits_length {s r : List Char} (h : skipDigits s = .ok r) : r.length ≤ s.length := by
  unfold skipDigits at h
  split at h
  · cases h
  · cases h
    exact dropDigits_length_le s

theorem skipExponent_length {s r : List Char} (h : skipExponent s = .ok r) :
    r.length ≤ s.length := by
  cases s with
  | nil => cases h; exact Nat.le_refl _
  | cons c s =>
    rw [skipExponent] at h
    split at h
    · exact Nat.le_trans (skipDigits_length h) (Nat.le_succ_of_le (readSign_length_le s))
    · cases h
      exact Nat.le_refl _

theorem skipTail_length {s r : List Char} (h : skipTail s = .ok r) : r.length ≤ s.length := by
  cases s with
  | nil => cases h; exact Nat.le_refl _
  | cons c s =>
    rw [skipTail] at h
    split at h
    · split at h
      · cases h
      · next t ht =>
        exact Nat.le_trans (skipExponent_length h) (Nat.le_succ_of_le (skipDigits_length ht))
    · exact skipExponent_length h

theorem skipNumber_length {s r : List Char} (h : skipNumber s = .ok r) : r.length < s.length := by
  cases s with
  | nil => cases h
  | cons c s =>
    rw [skipNumber] at h
    rw [List.length_cons]
    split at h
    · split at h
      · exact Nat.lt_succ_of_le (skipTail_length h)
      · cases h
    · split at h
      · exact Nat.lt_succ_of_le (Nat.le_trans (skipTail_length h) (dropDigits_length_le s))
      · cases h

end HeroPage.Json
