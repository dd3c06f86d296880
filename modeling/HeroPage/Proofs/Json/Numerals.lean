import HeroPage.Proofs.Json.Numbers
set_option autoImplicit false

namespace HeroPage.Json

variable {s r d f : List Char} {c : Char} {negative : Bool} {n limit : Nat} {power : Int}

/-- What digits stand for. -/
def value (d : List Char) : Nat := Nat.ofDigitChars 10 d 0

theorem le_ofDigitChars (d : List Char) (a : Nat) : a ≤ Nat.ofDigitChars 10 d a := by
  rw [Nat.ofDigitChars_eq_ofDigitChars_zero]
  exact Nat.le_add_right_of_le (Nat.le_mul_of_pos_left a (Nat.pow_pos (by decide)))

theorem collect_append (hd : ∀ c ∈ d, c.isDigit = true) (hs : NoDigit s) {a : Nat}
    (hlimit : Nat.ofDigitChars 10 d a ≤ limit) :
    collect limit a (d ++ s) = (Nat.ofDigitChars 10 d a, s) := by
  induction d generalizing a with
  | nil =>
    rw [List.nil_append, Nat.ofDigitChars_nil]
    cases s with
    | nil => rfl
    | cons c s =>
      rw [collect, if_neg]
      rintro ⟨hc, -⟩
      rw [hs c rfl] at hc
      cases hc
  | cons c d ih =>
    have hstep : Nat.ofDigitChars 10 (c :: d) a = Nat.ofDigitChars 10 d (a * 10 + digitValue c) := by
      rw [Nat.ofDigitChars_cons, Nat.mul_comm]
      rfl
    rw [hstep] at hlimit ⊢
    have hfits := (le_ofDigitChars d _).trans hlimit
    rw [List.cons_append, collect, if_pos ⟨hd c List.mem_cons_self, hfits⟩]
    exact ih (fun b hb => hd b (List.mem_cons_of_mem c hb)) hlimit

/-- An exponent with its sign and without its letter. -/
def exponent (e : Int) : List Char := (if e < 0 then '-' else '+') :: Nat.toDigits 10 e.natAbs

theorem digits_toDigits (n : Nat) : Digits (Nat.toDigits 10 n) :=
  ⟨Nat.toDigits_ne_nil, fun _ hc => Nat.isDigit_of_mem_toDigits (by decide) (by decide) hc⟩

theorem readExponent_append {e : Int} (hr : NoDigit r) (he : e.natAbs ≤ exponentLimit) :
    readExponent negative n power (exponent e ++ r) = realNumber negative n (power + e) r := by
  have hdigits := digits_toDigits e.natAbs
  have hvalue : Nat.ofDigitChars 10 (Nat.toDigits 10 e.natAbs) 0 = e.natAbs := Nat.ofDigitChars_ten_toDigits
  have hcollect := collect_append hdigits.2 hr (hvalue.le.trans he)
  rw [hvalue] at hcollect
  have hpower : (if decide (e < 0) = true then power - e.natAbs else power + e.natAbs) = power + e := by
    by_cases hneg : e < 0
    · rw [if_pos (decide_eq_true hneg)]
      omega
    · rw [if_neg (Bool.eq_false_iff.mp (decide_eq_false hneg))]
      omega
  have hsign : readSign (exponent e ++ r) = (decide (e < 0), Nat.toDigits 10 e.natAbs ++ r) := by
    rw [exponent]
    by_cases hneg : e < 0
    · rw [if_pos hneg, decide_eq_true hneg]
      rfl
    · rw [if_neg hneg, decide_eq_false hneg]
      rfl
  obtain ⟨c, t, hct⟩ := List.exists_cons_of_ne_nil hdigits.1
  have hc : c.isDigit = true := hdigits.2 c (hct ▸ List.mem_cons_self)
  rw [hct, List.cons_append] at hcollect hsign
  rw [readExponent, hsign]
  simp only [hc, hcollect, takeDigits_isEmpty hr, hpower, if_true]

/-- A number with a point or an exponent, which stands for `n · 10 ^ power`. -/
inductive Scaled : List Char → Nat → Int → Prop where
  | fraction {d f : List Char} (hd : Leading d) (hf : Digits f) :
      Scaled (d ++ '.' :: f) (value (d ++ f)) (-f.length)
  | power {d : List Char} (hd : Leading d) {e : Int} (he : e.natAbs ≤ exponentLimit) :
      Scaled (d ++ 'e' :: exponent e) (value d) e
  | fractionPower {d f : List Char} (hd : Leading d) (hf : Digits f) {e : Int}
      (he : e.natAbs ≤ exponentLimit) :
      Scaled (d ++ '.' :: (f ++ 'e' :: exponent e)) (value (d ++ f)) (-f.length + e)

theorem Leading.head (h : Leading d) : ∃ c t, d = c :: t ∧ c.isDigit = true := by
  cases h with
  | zero => exact ⟨_, _, rfl, rfl⟩
  | digits hc _ _ => exact ⟨_, _, rfl, hc⟩

theorem Leading.isDigit (h : Leading d) : ∀ c ∈ d, c.isDigit = true := by
  cases h with
  | zero => exact List.forall_mem_singleton.mpr rfl
  | digits hc _ hs => exact List.forall_mem_cons.mpr ⟨hc, hs⟩

theorem Scaled.head {v : List Char} (h : Scaled v n power) : ∃ c t, v = c :: t ∧ c.isDigit = true := by
  cases h with
  | fraction hd _ | power hd _ | fractionPower hd _ _ =>
    obtain ⟨c, t, rfl, hc⟩ := hd.head
    exact ⟨c, _, rfl, hc⟩

theorem readPower_apart (hr : Apart r) : readPower negative n power r = realNumber negative n power r := by
  cases r with
  | nil => rfl
  | cons c r =>
    obtain ⟨-, -, he, hE⟩ := hr c rfl
    exact if_neg (not_or.mpr ⟨he, hE⟩)

theorem value_append (d f : List Char) : Nat.ofDigitChars 10 f (value d) = value (d ++ f) :=
  (Nat.ofDigitChars_append 0).symm

theorem value_le_append (d f : List Char) : value d ≤ value (d ++ f) :=
  value_append d f ▸ le_ofDigitChars f (value d)

theorem readFraction_append (hf : Digits f) (hs : NoDigit s)
    (hlimit : value (d ++ f) ≤ significandLimit) :
    readFraction negative (value d) power (f ++ s) =
      readPower negative (value (d ++ f)) (power - f.length) s := by
  have hcollect := collect_append hf.2 hs (a := value d) (value_append d f ▸ hlimit)
  have hsome : ¬(takeDigits (f ++ s)).isEmpty = true := by
    rw [takeDigits_append hf.2 hs, List.isEmpty_iff]
    exact hf.1
  have hlength : ((f ++ s).length - s.length : Nat) = f.length := by
    rw [List.length_append, Nat.add_sub_cancel]
  have hdrop : dropDigits s = s := dropDigits_append (d := []) (fun _ hc => absurd hc List.not_mem_nil) hs
  rw [readFraction, if_neg hsome, hcollect]
  dsimp only
  rw [hlength, hdrop, value_append]

theorem readNumber_leading (hd : Leading d) (hs : NoDigit s) (hlimit : value d ≤ significandLimit) :
    readNumber negative (d ++ s) = readTail negative (value d) 0 s := by
  cases hd with
  | zero =>
    rw [List.singleton_append, readNumber, if_pos rfl, if_pos (takeDigits_isEmpty hs)]
    rfl
  | @digits c d hc hzero hd =>
    have hall : ∀ b ∈ c :: d, b.isDigit = true := List.forall_mem_cons.mpr ⟨hc, hd⟩
    have hcollect := collect_append hall hs hlimit
    have hdrop : dropDigits s = s :=
      dropDigits_append (d := []) (fun _ hc => absurd hc List.not_mem_nil) hs
    have hnone := List.isEmpty_iff.mp (takeDigits_isEmpty hs)
    rw [List.cons_append] at hcollect ⊢
    rw [readNumber, if_neg hzero, if_pos hc, hcollect]
    dsimp only
    rw [hnone, hdrop]
    rfl

theorem readNumber_append {v : List Char} (hv : Scaled v n power) (hn : n ≤ significandLimit)
    (hr : Apart r) : readNumber negative (v ++ r) = realNumber negative n power r := by
  cases hv with
  | @fraction d f hd hf =>
    rw [List.append_assoc, List.cons_append,
      readNumber_leading hd (noDigit_cons (by decide) _) ((value_le_append d f).trans hn)]
    have hfraction : readFraction negative (value d) 0 (f ++ r) =
        readPower negative (value (d ++ f)) (0 - f.length) r := readFraction_append hf hr.noDigit hn
    rw [Int.zero_sub, readPower_apart hr] at hfraction
    exact hfraction
  | @power d hd _ he =>
    rw [List.append_assoc, List.cons_append, readNumber_leading hd (noDigit_cons (by decide) _) hn]
    have hexponent : readExponent negative (value d) 0 (exponent power ++ r) =
        realNumber negative (value d) (0 + power) r := readExponent_append hr.noDigit he
    rw [Int.zero_add] at hexponent
    exact hexponent
  | @fractionPower d f hd hf e he =>
    rw [List.append_assoc, List.cons_append, List.append_assoc, List.cons_append,
      readNumber_leading hd (noDigit_cons (by decide) _) ((value_le_append d f).trans hn)]
    have hfraction : readFraction negative (value d) 0 (f ++ 'e' :: (exponent e ++ r)) =
        readPower negative (value (d ++ f)) (0 - f.length) ('e' :: (exponent e ++ r)) :=
      readFraction_append hf (noDigit_cons (by decide) _) hn
    rw [Int.zero_sub] at hfraction
    exact hfraction.trans (readExponent_append hr.noDigit he)

end HeroPage.Json
