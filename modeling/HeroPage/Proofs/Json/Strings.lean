import HeroPage.Proofs.Json.Grammar
import HeroPage.Json.Scalar
import Mathlib.Data.List.TakeWhile
import Mathlib.Tactic.IntervalCases
set_option autoImplicit false

namespace HeroPage.Json

variable {s r : List Char} {c : Char}

theorem Blanks.append {w w' : List Char} (h : Blanks w) (h' : Blanks w') : Blanks (w ++ w') := by
  intro c hc
  rcases List.mem_append.mp hc with hc | hc
  · exact h c hc
  · exact h' c hc

theorem blanks_nil : Blanks [] := fun _ hc => absurd hc List.not_mem_nil

theorem skipBlank_append {w : List Char} (hw : Blanks w) (s : List Char) :
    skipBlank (w ++ s) = skipBlank s := List.dropWhile_append_of_pos hw

theorem skipBlank_cons (h : isBlank c = false) (s : List Char) : skipBlank (c :: s) = c :: s :=
  List.dropWhile_cons_of_neg (Bool.eq_false_iff.mp h)

theorem skipBlank_append_cons {w : List Char} (hw : Blanks w) (hc : isBlank c = false)
    (r : List Char) : skipBlank (w ++ c :: r) = c :: r := by
  rw [skipBlank_append hw, skipBlank_cons hc]

theorem skipBlank_split (s : List Char) : ∃ w, Blanks w ∧ s = w ++ skipBlank s :=
  ⟨s.takeWhile isBlank, fun _ hc => List.mem_takeWhile_imp hc, List.takeWhile_append_dropWhile.symm⟩

theorem isBlank_of_skipBlank (h : skipBlank s = c :: r) : isBlank c = false := by
  have hne : s.dropWhile isBlank ≠ [] := by
    change skipBlank s ≠ []
    rw [h]
    exact List.cons_ne_nil c r
  have hhead := List.head_dropWhile_not isBlank hne
  have hc : (s.dropWhile isBlank).head hne = c := by
    have heq : s.dropWhile isBlank = c :: r := h
    simp [heq]
  rwa [hc] at hhead

theorem skipBlank_eq_cons_iff :
    skipBlank s = c :: r ↔ isBlank c = false ∧ ∃ w, Blanks w ∧ s = w ++ c :: r := by
  constructor
  · intro h
    obtain ⟨w, hw, hs⟩ := skipBlank_split s
    rw [h] at hs
    exact ⟨isBlank_of_skipBlank h, w, hw, hs⟩
  · rintro ⟨hc, w, hw, rfl⟩
    exact skipBlank_append_cons hw hc r

theorem readColon_eq_ok_iff : readColon s = .ok r ↔ ∃ w, Blanks w ∧ s = w ++ ':' :: r := by
  constructor
  · intro h
    unfold readColon at h
    split at h
    · cases h
    · next c t hs =>
      split at h
      · next hc =>
        cases h
        obtain ⟨-, w, hw, rfl⟩ := skipBlank_eq_cons_iff.mp hs
        exact ⟨w, hw, hc ▸ rfl⟩
      · cases h
  · rintro ⟨w, hw, rfl⟩
    rw [readColon, skipBlank_append_cons hw rfl]
    rfl

theorem toNat_le_of_le {a b : Char} (h : a ≤ b) : a.toNat ≤ b.toNat := UInt32.le_iff_toNat_le.mp h

theorem eq_ofNat_of_between {a b : Char} (h : a ≤ c) (h' : c ≤ b) :
    ∃ k, k ≤ b.toNat - a.toNat ∧ c = Char.ofNat (a.toNat + k) ∧ c.toNat = a.toNat + k := by
  have hle := toNat_le_of_le h
  have hle' := toNat_le_of_le h'
  have hsum : a.toNat + (c.toNat - a.toNat) = c.toNat := Nat.add_sub_cancel' hle
  exact ⟨c.toNat - a.toNat, by omega, by rw [hsum, Char.ofNat_toNat], hsum.symm⟩

theorem isHexDigit_of_hexDigit? {n : Nat} (h : hexDigit? c = some n) : IsHexDigit c n := by
  unfold hexDigit? at h
  split at h
  · next hrange =>
    obtain ⟨k, hk, hc, hk'⟩ := eq_ofNat_of_between hrange.1 hrange.2
    have hn : n = k := by rw [← Option.some.inj h, hk']; exact Nat.add_sub_cancel_left 48 k
    subst hn hc
    change n ≤ 9 at hk
    interval_cases n <;> exact .inl rfl
  · split at h
    · next hrange =>
      obtain ⟨k, hk, hc, hk'⟩ := eq_ofNat_of_between hrange.1 hrange.2
      have hn : n = 10 + k := by
        rw [← Option.some.inj h, hk']
        change 97 + k - 87 = _
        omega
      subst hn hc
      change k ≤ 5 at hk
      interval_cases k <;> exact .inl rfl
    · split at h
      · next hrange =>
        obtain ⟨k, hk, hc, hk'⟩ := eq_ofNat_of_between hrange.1 hrange.2
        have hn : n = 10 + k := by
          rw [← Option.some.inj h, hk']
          change 65 + k - 55 = _
          omega
        subst hn hc
        change k ≤ 5 at hk
        interval_cases k <;> exact .inr rfl
      · cases h

theorem IsHexDigit.lt {n : Nat} (h : IsHexDigit c n) : n < 16 := by
  rcases h with h | h <;> exact (List.getElem?_eq_some_iff.mp h).1

theorem hexDigit?_eq_some_iff {n : Nat} : hexDigit? c = some n ↔ IsHexDigit c n := by
  refine ⟨isHexDigit_of_hexDigit?, fun h => ?_⟩
  have hn := h.lt
  rcases h with h | h <;> interval_cases n <;> (cases h; rfl)

theorem Hex.lt {d : List Char} {n : Nat} (h : Hex d n) : n < 0x10000 := by
  obtain ⟨ha, hb, hc, hd⟩ := h
  have := ha.lt
  have := hb.lt
  have := hc.lt
  have := hd.lt
  omega

theorem hexDigits?_eq_some_iff {n : Nat} :
    hexDigits? s = some (n, r) ↔ ∃ d, Hex d n ∧ s = d ++ r := by
  constructor
  · intro h
    unfold hexDigits? at h
    split at h
    · next a b c d t =>
      simp only [Option.bind_eq_bind, Option.bind_eq_some_iff] at h
      obtain ⟨i, ha, j, hb, k, hc, l, hd, heq⟩ := h
      cases heq
      exact ⟨[a, b, c, d], .digits (hexDigit?_eq_some_iff.mp ha) (hexDigit?_eq_some_iff.mp hb)
        (hexDigit?_eq_some_iff.mp hc) (hexDigit?_eq_some_iff.mp hd), rfl⟩
    · cases h
  · rintro ⟨d, ⟨ha, hb, hc, hd⟩, rfl⟩
    simp only [List.cons_append, List.nil_append, hexDigits?, hexDigit?_eq_some_iff.mpr ha,
      hexDigit?_eq_some_iff.mpr hb, hexDigit?_eq_some_iff.mpr hc, hexDigit?_eq_some_iff.mpr hd]
    rfl

theorem readHex_eq_ok_iff {n : Nat} : readHex s = .ok (n, r) ↔ ∃ d, Hex d n ∧ s = d ++ r := by
  rw [← hexDigits?_eq_some_iff]
  unfold readHex
  split
  · next found hs => rw [hs, Option.some.injEq, Except.ok.injEq]
  · next hs => rw [hs]; split <;> simp

theorem escaped?_eq_some_iff {x : Char} : escaped? c = some x ↔ (c, x) ∈ letters := by
  constructor
  · intro h
    unfold escaped? at h
    split at h <;> first | cases h; decide | cases h
  · intro h
    simp only [letters, List.mem_cons, Prod.mk.injEq, List.not_mem_nil, or_false] at h
    rcases h with ⟨rfl, rfl⟩ | ⟨rfl, rfl⟩ | ⟨rfl, rfl⟩ | ⟨rfl, rfl⟩ | ⟨rfl, rfl⟩ | ⟨rfl, rfl⟩ |
      ⟨rfl, rfl⟩ | ⟨rfl, rfl⟩ <;> rfl

theorem ne_u_of_mem_letters {x : Char} (h : (c, x) ∈ letters) : c ≠ 'u' := by
  rintro rfl
  have hsome := escaped?_eq_some_iff.mpr h
  cases hsome

theorem readMark_cons (mark : Char) (r : List Char) : readMark mark (mark :: r) = .ok r := if_pos rfl

theorem toNat_ofNat {n : Nat} (h : n < 0xD800 ∨ 0xDFFF < n ∧ n < 0x110000) :
    (Char.ofNat n).toNat = n := by
  have hvalid : n.isValidChar := h
  rw [Char.ofNat, dif_pos hvalid]
  rfl

theorem readLowSurrogate_eq_ok_iff {n : Nat} :
    readLowSurrogate n s = .ok (c, r) ↔ ∃ d low, Hex d low ∧ isLowSurrogate low = true ∧
      c = Char.ofNat (surrogatePair n low) ∧ s = '\\' :: 'u' :: (d ++ r) := by
  constructor
  · intro h
    simp only [readLowSurrogate, bind, Except.bind] at h
    split at h
    · cases h
    · next t ht =>
      split at h
      · cases h
      · next u hu =>
        split at h
        · cases h
        · next found hx =>
          obtain ⟨low, v⟩ := found
          split at h
          · next hlow =>
            obtain ⟨hc, rfl⟩ := Prod.mk.inj (Except.ok.inj h)
            obtain ⟨d, hd, rfl⟩ := readHex_eq_ok_iff.mp hx
            rw [readMark_eq_ok ht, readMark_eq_ok hu]
            exact ⟨d, low, hd, hlow, hc.symm, rfl⟩
          · cases h
  · rintro ⟨d, low, hd, hlow, hc, rfl⟩
    have hx : readHex (d ++ r) = .ok (low, r) := readHex_eq_ok_iff.mpr ⟨d, hd, rfl⟩
    simp only [readLowSurrogate, bind, Except.bind, readMark_cons, hx, hlow, if_true, hc]

theorem readEscape_unit {n : Nat} (h : readHex s = .ok (n, r)) :
    readEscape ('u' :: s) = if isLowSurrogate n then .error (.here .loneSurrogate r)
      else if isHighSurrogate n then readLowSurrogate n r else .ok (Char.ofNat n, r) := by
  rw [readEscape, if_pos rfl, h]

theorem readEscape_letter (h : c ≠ 'u') (s : List Char) :
    readEscape (c :: s) = match escaped? c with
      | some x => .ok (x, s)
      | none => .error (.past .invalidEscape (c :: s)) := by
  exact if_neg h

theorem isLowSurrogate_iff {n : Nat} : isLowSurrogate n = true ↔ 0xDC00 ≤ n ∧ n < 0xE000 := by
  rw [isLowSurrogate, decide_eq_true_iff]

theorem isHighSurrogate_iff {n : Nat} : isHighSurrogate n = true ↔ 0xD800 ≤ n ∧ n < 0xDC00 := by
  rw [isHighSurrogate, decide_eq_true_iff]

/-- The character of a pair has the units that the pair consists of. -/
theorem units_surrogatePair {high low : Nat} (h : isHighSurrogate high = true)
    (h' : isLowSurrogate low = true) {c : Char} (hc : c = Char.ofNat (surrogatePair high low)) :
    0x10000 ≤ c.toNat ∧ highUnit c = high ∧ lowUnit c = low := by
  rw [isHighSurrogate_iff] at h
  rw [isLowSurrogate_iff] at h'
  have hpair : surrogatePair high low = 0x10000 + (high - 0xD800) * 0x400 + (low - 0xDC00) := rfl
  have hnat : c.toNat = surrogatePair high low := by
    rw [hc]
    exact toNat_ofNat (by omega)
  rw [highUnit, lowUnit]
  omega

theorem toNat_not_surrogate (c : Char) : c.toNat < 0xD800 ∨ 0xDFFF < c.toNat ∧ c.toNat < 0x110000 :=
  c.valid

theorem surrogatePair_units {c : Char} (h : 0x10000 ≤ c.toNat) :
    isHighSurrogate (highUnit c) = true ∧ isLowSurrogate (lowUnit c) = true ∧
      surrogatePair (highUnit c) (lowUnit c) = c.toNat := by
  have hvalid := toNat_not_surrogate c
  have hfirst : highUnit c = 0xD800 + (c.toNat - 0x10000) / 0x400 := rfl
  have hsecond : lowUnit c = 0xDC00 + (c.toNat - 0x10000) % 0x400 := rfl
  have hpair : surrogatePair (highUnit c) (lowUnit c) =
      0x10000 + (highUnit c - 0xD800) * 0x400 + (lowUnit c - 0xDC00) := rfl
  rw [isHighSurrogate_iff, isLowSurrogate_iff, hpair]
  omega

theorem escape_of_readEscape (h : readEscape s = .ok (c, r)) : ∃ e, Escape e c ∧ s = e ++ r := by
  cases s with
  | nil => cases h
  | cons b s =>
    by_cases hb : b = 'u'
    · subst hb
      cases hx : readHex s with
      | error e => rw [readEscape, if_pos rfl, hx] at h; cases h
      | ok found =>
        obtain ⟨n, t⟩ := found
        obtain ⟨d, hd, rfl⟩ := readHex_eq_ok_iff.mp hx
        rw [readEscape_unit hx] at h
        split at h
        · cases h
        · next hlow =>
          split at h
          · next hhigh =>
            obtain ⟨d', low, hd', hlow', hc, rfl⟩ := readLowSurrogate_eq_ok_iff.mp h
            obtain ⟨hlarge, rfl, rfl⟩ := units_surrogatePair hhigh hlow' hc
            refine ⟨_, .pair hlarge hd hd', ?_⟩
            simp
          · next hhigh =>
            cases h
            have hn : (Char.ofNat n).toNat = n := by
              have := hd.lt
              rw [isLowSurrogate_iff] at hlow
              rw [isHighSurrogate_iff] at hhigh
              exact toNat_ofNat (by omega)
            exact ⟨'u' :: d, .unit (hn.symm ▸ hd), rfl⟩
    · rw [readEscape_letter hb] at h
      split at h
      · next x hx =>
        cases h
        exact ⟨[b], .letter (escaped?_eq_some_iff.mp hx), rfl⟩
      · cases h

theorem readEscape_append {e : List Char} (h : Escape e c) (r : List Char) :
    readEscape (e ++ r) = .ok (c, r) := by
  have hvalid := toNat_not_surrogate c
  cases h with
  | letter h =>
    rw [List.singleton_append, readEscape_letter (ne_u_of_mem_letters h), escaped?_eq_some_iff.mpr h]
  | @unit d _ h =>
    have hx : readHex (d ++ r) = .ok (c.toNat, r) := readHex_eq_ok_iff.mpr ⟨d, h, rfl⟩
    have hlow : isLowSurrogate c.toNat ≠ true := by rw [Ne, isLowSurrogate_iff]; omega
    have hhigh : isHighSurrogate c.toNat ≠ true := by rw [Ne, isHighSurrogate_iff]; omega
    rw [List.cons_append, readEscape_unit hx, if_neg hlow, if_neg hhigh, Char.ofNat_toNat]
  | @pair d d' _ hc h h' =>
    have hx : readHex (d ++ ('\\' :: 'u' :: (d' ++ r))) = .ok (_, '\\' :: 'u' :: (d' ++ r)) :=
      readHex_eq_ok_iff.mpr ⟨d, h, rfl⟩
    obtain ⟨hhigh, hlow, hpair⟩ := surrogatePair_units hc
    have hfirst : isLowSurrogate (highUnit c) ≠ true := by
      rw [isHighSurrogate_iff] at hhigh
      rw [Ne, isLowSurrogate_iff]
      omega
    have hchar : c = Char.ofNat (surrogatePair (highUnit c) (lowUnit c)) := by
      rw [hpair, Char.ofNat_toNat]
    have happend : ('u' :: (d ++ '\\' :: 'u' :: d')) ++ r = 'u' :: (d ++ ('\\' :: 'u' :: (d' ++ r))) := by
      simp
    rw [happend, readEscape_unit hx, if_neg hfirst, if_pos hhigh]
    exact readLowSurrogate_eq_ok_iff.mpr ⟨d', _, h', hlow, hchar, rfl⟩

theorem readString_append {x : List Char} (h : Spells s x) (r : List Char) :
    readString (s ++ '"' :: r) = .ok (x, r) := by
  induction h with
  | nil => rw [List.nil_append, readString, if_pos rfl]
  | plain hc _ ih =>
    rw [List.cons_append, readString, if_neg hc.2.1, if_neg hc.2.2, if_neg (Char.not_lt.mpr hc.1), ih]
  | @escape e s x c he _ ih =>
    have hescape : readEscape (e ++ (s ++ '"' :: r)) = .ok (c, s ++ '"' :: r) := readEscape_append he _
    rw [List.cons_append, List.append_assoc, readString, if_neg (by decide), if_pos rfl]
    split
    · next hr => rw [hescape] at hr; cases hr
    · next y t hr =>
      rw [hescape] at hr
      cases hr
      rw [ih]

theorem spells_of_readString {x : List Char} (h : readString s = .ok (x, r)) :
    ∃ b, Spells b x ∧ s = b ++ '"' :: r := by
  fun_induction readString s generalizing x r with
  | case1 => cases h
  | case2 => cases h; exact ⟨[], .nil, rfl⟩
  | case3 => cases h
  | case4 => cases h
  | case5 s y t hy xs rest hr _ ih =>
    cases h
    obtain ⟨b, hb, rfl⟩ := ih hr
    obtain ⟨e, he, rfl⟩ := escape_of_readEscape hy
    refine ⟨'\\' :: (e ++ b), .escape he hb, ?_⟩
    rw [List.cons_append, List.append_assoc]
  | case6 => cases h
  | case7 => cases h
  | case8 c s hquote hback hcontrol xs rest hr ih =>
    cases h
    obtain ⟨b, hb, rfl⟩ := ih hr
    exact ⟨c :: b, .plain ⟨Char.not_lt.mp hcontrol, hquote, hback⟩ hb, rfl⟩

theorem readText_eq_ok_iff {x : String} :
    readText s = .ok (x, r) ↔ ∃ w v, Blanks w ∧ Quoted v x ∧ s = w ++ (v ++ r) := by
  constructor
  · intro h
    unfold readText at h
    split at h
    · cases h
    · next c t hs =>
      obtain ⟨-, w, hw, rfl⟩ := skipBlank_eq_cons_iff.mp hs
      split at h
      · next hc =>
        split at h
        · cases h
        · next y u hy =>
          cases h
          obtain ⟨b, hb, rfl⟩ := spells_of_readString hy
          refine ⟨w, _, hw, .intro hb, ?_⟩
          simp [hc]
      · cases h
  · rintro ⟨w, v, hw, ⟨hb⟩, rfl⟩
    have hread := readString_append hb r
    rw [readText, skipBlank_append hw, List.cons_append, skipBlank_cons rfl]
    simp only [List.append_assoc, List.singleton_append, hread, if_true]

theorem skipEscape_eq_ok_iff : skipEscape s = .ok r ↔ ∃ e, LooseEscape e ∧ s = e ++ r := by
  constructor
  · intro h
    cases s with
    | nil => cases h
    | cons b s =>
      rw [skipEscape] at h
      split at h
      · next hb =>
        subst hb
        split at h
        · cases h
        · next n t hx =>
          cases h
          obtain ⟨d, hd, rfl⟩ := readHex_eq_ok_iff.mp hx
          exact ⟨'u' :: d, .unit hd, rfl⟩
      · split at h
        · next x hx =>
          cases h
          exact ⟨[b], .letter (escaped?_eq_some_iff.mp hx), rfl⟩
        · cases h
  · rintro ⟨e, he, rfl⟩
    cases he with
    | letter h =>
      rw [List.singleton_append, skipEscape, if_neg (ne_u_of_mem_letters h),
        escaped?_eq_some_iff.mpr h]
    | @unit d n h =>
      have hx : readHex (d ++ r) = .ok (n, r) := readHex_eq_ok_iff.mpr ⟨d, h, rfl⟩
      rw [List.cons_append, skipEscape, if_pos rfl, hx]

theorem skipString_append (h : Loose s) (r : List Char) : skipString (s ++ '"' :: r) = .ok r := by
  induction h with
  | nil => rw [List.nil_append, skipString, if_pos rfl]
  | plain hc _ ih =>
    rw [List.cons_append, skipString, if_neg hc.2.1, if_neg hc.2.2, if_neg (Char.not_lt.mpr hc.1), ih]
  | @escape e s he _ ih =>
    have hescape : skipEscape (e ++ (s ++ '"' :: r)) = .ok (s ++ '"' :: r) :=
      skipEscape_eq_ok_iff.mpr ⟨e, he, rfl⟩
    rw [List.cons_append, List.append_assoc, skipString, if_neg (by decide), if_pos rfl]
    split
    · next hr => rw [hescape] at hr; cases hr
    · next t hr =>
      rw [hescape] at hr
      cases hr
      exact ih

theorem loose_of_skipString (h : skipString s = .ok r) : ∃ b, Loose b ∧ s = b ++ '"' :: r := by
  fun_induction skipString s generalizing r with
  | case1 => cases h
  | case2 => cases h; exact ⟨[], .nil, rfl⟩
  | case3 => cases h
  | case4 s t hy _ ih =>
    obtain ⟨b, hb, rfl⟩ := ih h
    obtain ⟨e, he, rfl⟩ := skipEscape_eq_ok_iff.mp hy
    refine ⟨'\\' :: (e ++ b), .escape he hb, ?_⟩
    rw [List.cons_append, List.append_assoc]
  | case5 => cases h
  | case6 c s hquote hback hcontrol ih =>
    obtain ⟨b, hb, rfl⟩ := ih h
    exact ⟨c :: b, .plain ⟨Char.not_lt.mp hcontrol, hquote, hback⟩ hb, rfl⟩

end HeroPage.Json
