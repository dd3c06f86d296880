import HeroPage.Proofs.Json.Grammar
import Mathlib.Data.List.TakeWhile
set_option autoImplicit false

namespace HeroPage.Json

variable {s r d : List Char} {c : Char}

def NoDigit (s : List Char) : Prop := ∀ c ∈ s.head?, c.isDigit = false

/-- No number goes on with `s`. -/
def Apart (s : List Char) : Prop :=
  ∀ c ∈ s.head?, c.isDigit = false ∧ c ≠ '.' ∧ c ≠ 'e' ∧ c ≠ 'E'

theorem apart_cons (h : c.isDigit = false ∧ c ≠ '.' ∧ c ≠ 'e' ∧ c ≠ 'E') (s : List Char) :
    Apart (c :: s) := by
  intro b hb
  cases hb
  exact h

theorem Apart.noDigit (h : Apart s) : NoDigit s := fun c hc => (h c hc).1

theorem noDigit_cons (h : c.isDigit = false) (s : List Char) : NoDigit (c :: s) := by
  intro b hb
  cases hb
  exact h

theorem isDigit_of_mem_takeDigits (h : c ∈ takeDigits s) : c.isDigit = true :=
  List.mem_takeWhile_imp h

theorem takeDigits_append (hd : ∀ c ∈ d, c.isDigit = true) (hs : NoDigit s) :
    takeDigits (d ++ s) = d := by
  have hnone : s.takeWhile Char.isDigit = [] := by
    cases s with
    | nil => rfl
    | cons c s => exact List.takeWhile_cons_of_neg (Bool.eq_false_iff.mp (hs c rfl))
  rw [takeDigits, List.takeWhile_append_of_pos hd, hnone, List.append_nil]

theorem dropDigits_append (hd : ∀ c ∈ d, c.isDigit = true) (hs : NoDigit s) :
    dropDigits (d ++ s) = s := by
  have hall := takeDigits_append_dropDigits (d ++ s)
  rw [takeDigits_append hd hs] at hall
  exact List.append_cancel_left hall

theorem takeDigits_isEmpty (h : NoDigit s) : (takeDigits s).isEmpty = true := by
  have hnone := takeDigits_append (d := []) (fun _ hc => absurd hc List.not_mem_nil) h
  rw [List.nil_append] at hnone
  rw [hnone]
  rfl

theorem digits_of_skipDigits (h : skipDigits s = .ok r) : ∃ d, Digits d ∧ s = d ++ r := by
  unfold skipDigits at h
  split at h
  · cases h
  · next hsome =>
    cases h
    refine ⟨takeDigits s, ⟨?_, fun c => isDigit_of_mem_takeDigits⟩,
      (takeDigits_append_dropDigits s).symm⟩
    intro hnil
    rw [hnil] at hsome
    exact hsome rfl

theorem skipDigits_append (hd : Digits d) (hr : NoDigit r) : skipDigits (d ++ r) = .ok r := by
  have hsome : ¬(takeDigits (d ++ r)).isEmpty = true := by
    rw [takeDigits_append hd.2 hr, List.isEmpty_iff]
    exact hd.1
  rw [skipDigits, if_neg hsome, dropDigits_append hd.2 hr]

theorem exists_sign (s : List Char) :
    ∃ sign, (sign = [] ∨ sign = ['+'] ∨ sign = ['-']) ∧ s = sign ++ (readSign s).2 := by
  cases s with
  | nil => exact ⟨[], .inl rfl, rfl⟩
  | cons c s =>
    rw [readSign]
    split
    · next h => exact ⟨['-'], .inr (.inr rfl), h ▸ rfl⟩
    · split
      · next h => exact ⟨['+'], .inr (.inl rfl), h ▸ rfl⟩
      · exact ⟨[], .inl rfl, rfl⟩

theorem isDigit_ne (h : c.isDigit = true) : c ≠ '-' ∧ c ≠ '+' := by
  refine ⟨?_, ?_⟩ <;> (rintro rfl; exact absurd h (by decide))

theorem readSign_append {sign : List Char} (hsign : sign = [] ∨ sign = ['+'] ∨ sign = ['-'])
    (hd : Digits d) (r : List Char) : (readSign (sign ++ (d ++ r))).2 = d ++ r := by
  obtain ⟨hne, hall⟩ := hd
  cases d with
  | nil => exact absurd rfl hne
  | cons c d =>
    obtain ⟨hminus, hplus⟩ := isDigit_ne (hall c List.mem_cons_self)
    rcases hsign with rfl | rfl | rfl
    · rw [List.nil_append, List.cons_append, readSign, if_neg hminus, if_neg hplus]
    · rfl
    · rfl

theorem exponent_of_skipExponent (h : skipExponent s = .ok r) : ∃ e, Exponent e ∧ s = e ++ r := by
  cases s with
  | nil => cases h; exact ⟨[], .none, rfl⟩
  | cons c s =>
    rw [skipExponent] at h
    split at h
    · next hc =>
      obtain ⟨sign, hsign, hs⟩ := exists_sign s
      obtain ⟨d, hd, hrest⟩ := digits_of_skipDigits h
      refine ⟨c :: (sign ++ d), .power hc hsign hd, ?_⟩
      rw [List.cons_append, List.append_assoc, ← hrest, ← hs]
    · cases h
      exact ⟨[], .none, rfl⟩

theorem skipExponent_append {e : List Char} (he : Exponent e) (hr : Apart r) :
    skipExponent (e ++ r) = .ok r := by
  cases he with
  | none =>
    cases r with
    | nil => rfl
    | cons c r =>
      obtain ⟨-, -, he, hE⟩ := hr c rfl
      exact if_neg (not_or.mpr ⟨he, hE⟩)
  | @power c sign d hc hsign hd =>
    rw [List.cons_append, List.append_assoc, skipExponent, if_pos hc, readSign_append hsign hd]
    exact skipDigits_append hd hr.noDigit

theorem tail_of_skipTail (h : skipTail s = .ok r) :
    ∃ f e, Fraction f ∧ Exponent e ∧ s = f ++ (e ++ r) := by
  cases s with
  | nil => cases h; exact ⟨[], [], .none, .none, rfl⟩
  | cons c s =>
    rw [skipTail] at h
    split at h
    · next hc =>
      subst hc
      split at h
      · cases h
      · next t ht =>
        obtain ⟨d, hd, rfl⟩ := digits_of_skipDigits ht
        obtain ⟨e, he, rfl⟩ := exponent_of_skipExponent h
        exact ⟨'.' :: d, e, .point hd, he, rfl⟩
    · obtain ⟨e, he, hs⟩ := exponent_of_skipExponent h
      exact ⟨[], e, .none, he, hs⟩

theorem Exponent.head {e : List Char} (he : Exponent e) (hr : Apart r) :
    ∀ c ∈ (e ++ r).head?, c.isDigit = false ∧ c ≠ '.' := by
  cases he with
  | none => exact fun c hc => ⟨(hr c hc).1, (hr c hc).2.1⟩
  | power hc _ _ =>
    intro b hb
    cases hb
    rcases hc with rfl | rfl <;> decide

theorem skipTail_append {f e : List Char} (hf : Fraction f) (he : Exponent e) (hr : Apart r) :
    skipTail (f ++ (e ++ r)) = .ok r := by
  have hhead := he.head hr
  have hexponent := skipExponent_append he hr
  cases hf with
  | none =>
    rw [List.nil_append]
    generalize e ++ r = t at hhead hexponent ⊢
    cases t with
    | nil => exact hexponent
    | cons c t =>
      rw [skipTail, if_neg (hhead c rfl).2]
      exact hexponent
  | @point d hd =>
    have hskip : skipDigits (d ++ (e ++ r)) = .ok (e ++ r) :=
      skipDigits_append hd fun c hc => (hhead c hc).1
    rw [List.cons_append, skipTail, if_pos rfl, hskip]
    exact hexponent

theorem noDigit_tail {f e : List Char} (hf : Fraction f) (he : Exponent e) (hr : Apart r) :
    NoDigit (f ++ (e ++ r)) := by
  cases hf with
  | none => exact fun c hc => (he.head hr c hc).1
  | point _ => exact noDigit_cons (by decide) _

theorem unsigned_of_skipNumber (h : skipNumber s = .ok r) : ∃ n, Unsigned n ∧ s = n ++ r := by
  cases s with
  | nil => cases h
  | cons c s =>
    rw [skipNumber] at h
    split at h
    · next hc =>
      subst hc
      split at h
      · obtain ⟨f, e, hf, he, rfl⟩ := tail_of_skipTail h
        refine ⟨_, .intro .zero hf he, ?_⟩
        simp
      · cases h
    · next hzero =>
      split at h
      · next hc =>
        obtain ⟨f, e, hf, he, hs⟩ := tail_of_skipTail h
        refine ⟨_, .intro (.digits hc hzero fun d => isDigit_of_mem_takeDigits (s := s)) hf he, ?_⟩
        rw [List.cons_append, List.cons_append, List.append_assoc, List.append_assoc, ← hs,
          takeDigits_append_dropDigits]
      · cases h

theorem skipNumber_append {n : List Char} (hn : Unsigned n) (hr : Apart r) :
    skipNumber (n ++ r) = .ok r := by
  obtain ⟨hs, hf, he⟩ := hn
  have hnone := noDigit_tail hf he hr
  have htail := skipTail_append hf he hr
  rw [List.append_assoc, List.append_assoc]
  cases hs with
  | zero =>
    rw [List.singleton_append, skipNumber, if_pos rfl, if_pos (takeDigits_isEmpty hnone)]
    exact htail
  | digits hc hzero hs =>
    rw [List.cons_append, skipNumber, if_neg hzero, if_pos hc, dropDigits_append hs hnone]
    exact htail

theorem Unsigned.head {n : List Char} (hn : Unsigned n) :
    ∃ c t, n = c :: t ∧ c.isDigit = true := by
  obtain ⟨hs, -, -⟩ := hn
  cases hs with
  | zero => exact ⟨_, _, rfl, rfl⟩
  | digits hc _ _ => exact ⟨_, _, rfl, hc⟩

end HeroPage.Json
