import HeroPage.Proofs.Json.Strings
import HeroPage.Proofs.Json.Numbers
set_option autoImplicit false

/-! What is still to pass closes the open brackets one by one: that is the invariant of the way forth
(`passed_of_skipFrom`). The way back is by induction on the grammar (`Spelt.passes`). -/

namespace HeroPage.Json

variable {s r t w v : List Char} {c : Char} {b : Bracket}

theorem isDigit_head (h : c.isDigit = true) :
    isBlank c = false ∧ Bracket.opening? c = none ∧ ∀ b : Bracket, c ≠ b.closing := by
  refine ⟨?_, ?_, ?_⟩
  · simp only [isBlank, Bool.or_eq_false_iff, beq_eq_false_iff_ne]
    refine ⟨⟨⟨?_, ?_⟩, ?_⟩, ?_⟩ <;> (rintro rfl; exact absurd h (by decide))
  · unfold Bracket.opening?
    split
    · exact absurd h (by decide)
    · exact absurd h (by decide)
    · rfl
  · intro b hb
    subst hb
    cases b <;> exact absurd h (by decide)

theorem Scalar.head (h : Scalar v) :
    ∃ c t, v = c :: t ∧ isBlank c = false ∧ Bracket.opening? c = none ∧
      ∀ b : Bracket, c ≠ b.closing := by
  cases h with
  | null => exact ⟨_, _, rfl, rfl, rfl, by intro b; cases b <;> decide⟩
  | yes => exact ⟨_, _, rfl, rfl, rfl, by intro b; cases b <;> decide⟩
  | no => exact ⟨_, _, rfl, rfl, rfl, by intro b; cases b <;> decide⟩
  | number h =>
    obtain ⟨c, t, rfl, hc⟩ := h.head
    exact ⟨c, t, rfl, isDigit_head hc⟩
  | negative h => exact ⟨_, _, rfl, rfl, rfl, by intro b; cases b <;> decide⟩
  | string h => exact ⟨_, _, rfl, rfl, rfl, by intro b; cases b <;> decide⟩

theorem scalar_of_skipScalar (h : skipScalar s = .ok r) : ∃ v, Scalar v ∧ s = v ++ r := by
  cases s with
  | nil => cases h
  | cons c s =>
    dsimp only [skipScalar] at h
    split at h
    · exact ⟨_, .null, congrArg _ (readWord_eq_ok h)⟩
    · exact ⟨_, .yes, congrArg _ (readWord_eq_ok h)⟩
    · exact ⟨_, .no, congrArg _ (readWord_eq_ok h)⟩
    · obtain ⟨n, hn, rfl⟩ := unsigned_of_skipNumber h
      exact ⟨_, .negative hn, rfl⟩
    · obtain ⟨k, hk, rfl⟩ := loose_of_skipString h
      refine ⟨_, .string hk, ?_⟩
      rw [List.cons_append, List.append_assoc, List.singleton_append]
    · split at h
      · obtain ⟨n, hn, hs⟩ := unsigned_of_skipNumber h
        exact ⟨n, .number hn, hs⟩
      · cases h

theorem skipScalar_digit (h : c.isDigit = true) (s : List Char) :
    skipScalar (c :: s) = skipNumber (c :: s) := by
  dsimp only [skipScalar]
  split
  · exact absurd h (by decide)
  · exact absurd h (by decide)
  · exact absurd h (by decide)
  · exact absurd h (by decide)
  · exact absurd h (by decide)
  · rw [if_pos h]

theorem skipScalar_append (h : Scalar v) (hr : Apart r) : skipScalar (v ++ r) = .ok r := by
  cases h with
  | null => exact readWord_append _ r
  | yes => exact readWord_append _ r
  | no => exact readWord_append _ r
  | number h =>
    have hskip := skipNumber_append h hr
    obtain ⟨c, t, rfl, hc⟩ := h.head
    rw [List.cons_append, skipScalar_digit hc]
    exact hskip
  | negative h => exact skipNumber_append h hr
  | string h =>
    rw [List.cons_append, List.append_assoc]
    exact skipString_append h r

theorem skipKey_eq_ok_iff :
    skipKey s = .ok r ↔ ∃ l, Label .object l ∧ s = l ++ r := by
  constructor
  · intro h
    unfold skipKey at h
    split at h
    · cases h
    · next c t hs =>
      obtain ⟨-, w, hw, rfl⟩ := skipBlank_eq_cons_iff.mp hs
      split at h
      · next hc =>
        subst hc
        split at h
        · cases h
        · next u hu =>
          obtain ⟨k, hk, rfl⟩ := loose_of_skipString hu
          obtain ⟨w', hw', rfl⟩ := readColon_eq_ok_iff.mp h
          refine ⟨_, .object hw hk hw', ?_⟩
          simp
      · cases h
  · rintro ⟨l, hl, rfl⟩
    cases hl with
    | @object w k w' hw hk hw' =>
      have hcolon : readColon (w' ++ ':' :: r) = .ok r := readColon_eq_ok_iff.mpr ⟨w', hw', rfl⟩
      have hshape : (w ++ '"' :: (k ++ '"' :: (w' ++ [':']))) ++ r =
          w ++ '"' :: (k ++ '"' :: (w' ++ ':' :: r)) := by simp
      rw [hshape, skipKey, skipBlank_append_cons hw rfl]
      simp only [skipString_append hk, hcolon, if_true]

theorem skipLabel_eq_ok_iff : b.skipLabel s = .ok r ↔ ∃ l, Label b l ∧ s = l ++ r := by
  cases b with
  | list =>
    constructor
    · intro h
      cases h
      exact ⟨[], .list, rfl⟩
    · rintro ⟨l, hl, rfl⟩
      cases hl
      rfl
  | object => exact skipKey_eq_ok_iff

/-- Blanks in front of a label belong to it, or to the blanks behind it. -/
theorem Label.blanks {l w' : List Char} (hl : Label b l) (hw : Blanks w) (hw' : Blanks w') :
    ∃ l' w'', Label b l' ∧ Blanks w'' ∧ w ++ (l ++ w') = l' ++ w'' := by
  cases hl with
  | list => exact ⟨[], w ++ w', .list, hw.append hw', rfl⟩
  | object hv hk hv' =>
    refine ⟨_, w', .object (hw.append hv) hk hv', hw', ?_⟩
    simp only [List.append_assoc, List.cons_append]

theorem opening?_opening (b : Bracket) : Bracket.opening? b.opening = some b := by
  cases b <;> rfl

theorem opening_of_opening? (h : Bracket.opening? c = some b) : c = b.opening := by
  unfold Bracket.opening? at h
  split at h <;> cases h <;> rfl

theorem isBlank_opening (b : Bracket) : isBlank b.opening = false := by
  cases b <;> rfl

theorem isBlank_closing (b : Bracket) : isBlank b.closing = false := by
  cases b <;> rfl

theorem closing_ne_comma (b : Bracket) : b.closing ≠ ',' := by
  cases b <;> decide

/-- What closes the brackets that are open behind a value. -/
inductive Closes : List Bracket → List Char → Prop where
  | nil : Closes [] []
  | cons {b : Bracket} {outer : List Bracket} {s t : List Char} (hs : Spelt (.rest b false) s)
      (ht : Closes outer t) : Closes (b :: outer) (s ++ t)

/-- What has been passed of `s` if `r` is left. -/
def Passed (enclosing : List Bracket) (s r : List Char) : Side → Prop
  | .behind => ∃ t, Closes enclosing t ∧ s = t ++ r
  | .before => ∃ w v t, Blanks w ∧ Spelt .value v ∧ Closes enclosing t ∧ s = w ++ (v ++ (t ++ r))

theorem passed_of_skipFrom {side : Side} {enclosing : List Bracket}
    (h : skipFrom side enclosing s = .ok r) :
    Passed enclosing s r side := by
  fun_induction skipFrom side enclosing s with
  | case1 s => cases h; exact ⟨[], .nil, rfl⟩
  | case4 s b outer t u hl hs ih =>
    obtain ⟨-, w', hw', rfl⟩ := skipBlank_eq_cons_iff.mp hs
    obtain ⟨l, hlabel, rfl⟩ := skipLabel_eq_ok_iff.mp hl
    obtain ⟨w, v, _, hw, hv, hopen, rfl⟩ := ih h
    obtain _ | ⟨hrest, hcloses⟩ := hopen
    refine ⟨_, .cons (.item (.next hw') hlabel hw hv hrest) hcloses, ?_⟩
    simp only [List.append_assoc, List.cons_append, List.nil_append]
  | case5 s b outer t hs _ ih =>
    obtain ⟨-, w', hw', rfl⟩ := skipBlank_eq_cons_iff.mp hs
    obtain ⟨u, hcloses, rfl⟩ := ih h
    refine ⟨_, .cons (.close hw') hcloses, ?_⟩
    simp only [List.append_assoc, List.cons_append, List.nil_append]
  | case9 s enclosing c t hs b hb u ht ih =>
    obtain ⟨-, w, hw, rfl⟩ := skipBlank_eq_cons_iff.mp hs
    obtain ⟨-, w', hw', rfl⟩ := skipBlank_eq_cons_iff.mp ht
    obtain ⟨x, hcloses, rfl⟩ := ih h
    have hv : Spelt .value (b.opening :: (w' ++ [b.closing])) := .bracket (.close hw')
    refine ⟨w, _, x, hw, hv, hcloses, ?_⟩
    simp only [opening_of_opening? hb, List.append_assoc, List.cons_append, List.nil_append]
  | case11 s enclosing c t hs b hb d u ht _ x hl ih =>
    obtain ⟨-, w, hw, rfl⟩ := skipBlank_eq_cons_iff.mp hs
    obtain ⟨-, w', hw', rfl⟩ := skipBlank_eq_cons_iff.mp ht
    obtain ⟨l, hlabel, hx⟩ := skipLabel_eq_ok_iff.mp hl
    obtain ⟨w'', v, _, hw'', hv, hopen, rfl⟩ := ih h
    obtain _ | ⟨hrest, hcloses⟩ := hopen
    obtain ⟨l', v', hlabel', hv', heq⟩ := hlabel.blanks hw' hw''
    refine ⟨w, _, _, hw, .bracket (.item .first hlabel' hv' hv hrest), hcloses, ?_⟩
    simp only [opening_of_opening? hb, hx, List.append_assoc, List.cons_append, List.nil_append]
    rw [← List.append_assoc l' v', ← heq]
    simp only [List.append_assoc]
  | case13 s enclosing c t hs _ u hu ih =>
    obtain ⟨-, w, hw, rfl⟩ := skipBlank_eq_cons_iff.mp hs
    obtain ⟨v, hv, hx⟩ := scalar_of_skipScalar hu
    obtain ⟨x, hcloses, rfl⟩ := ih h
    exact ⟨w, v, x, hw, .scalar hv, hcloses, congrArg _ hx⟩
  | _ => cases h

theorem skipFrom_behind_nil (s : List Char) : skipFrom .behind [] s = .ok s := by
  rw [skipFrom]

section

variable (enclosing : List Bracket)

theorem skipFrom_comma (hw : Blanks w) (hl : b.skipLabel r = .ok t) :
    skipFrom .behind (b :: enclosing) (w ++ ',' :: r) = skipFrom .before (b :: enclosing) t := by
  have hs : skipBlank (w ++ ',' :: r) = ',' :: r := skipBlank_append_cons hw rfl r
  rw [skipFrom]
  split
  · next h => rw [hs] at h; cases h
  · next h =>
    rw [hs] at h
    cases h
    rw [if_pos rfl]
    split
    · next h => rw [hl] at h; cases h
    · next h => rw [hl] at h; cases h; rfl

theorem skipFrom_closing (hw : Blanks w) (r : List Char) :
    skipFrom .behind (b :: enclosing) (w ++ b.closing :: r) = skipFrom .behind enclosing r := by
  have hs := skipBlank_append_cons hw (isBlank_closing b) r
  rw [skipFrom]
  split
  · next h => rw [hs] at h; cases h
  · next h =>
    rw [hs] at h
    cases h
    rw [if_neg (closing_ne_comma b), if_pos rfl]

theorem skipFrom_empty {w' : List Char} (hw : Blanks w) (hw' : Blanks w') (r : List Char) :
    skipFrom .before enclosing (w ++ b.opening :: (w' ++ b.closing :: r)) =
      skipFrom .behind enclosing r := by
  have hs := skipBlank_append_cons hw (isBlank_opening b) (w' ++ b.closing :: r)
  have hs' := skipBlank_append_cons hw' (isBlank_closing b) r
  rw [skipFrom]
  split
  · next h => rw [hs] at h; cases h
  · next h =>
    rw [hs] at h
    cases h
    split
    · next h =>
      rw [opening?_opening] at h
      cases h
      split
      · next h => rw [hs'] at h; cases h
      · next h => rw [hs'] at h; cases h; rw [if_pos rfl]
    · next h => rw [opening?_opening] at h; cases h

theorem skipFrom_opening {d : Char} {u : List Char} (hw : Blanks w) (hd : skipBlank r = d :: t)
    (hne : d ≠ b.closing) (hl : b.skipLabel (d :: t) = .ok u) :
    skipFrom .before enclosing (w ++ b.opening :: r) = skipFrom .before (b :: enclosing) u := by
  have hs := skipBlank_append_cons hw (isBlank_opening b) r
  rw [skipFrom]
  split
  · next h => rw [hs] at h; cases h
  · next h =>
    rw [hs] at h
    cases h
    split
    · next h =>
      rw [opening?_opening] at h
      cases h
      split
      · next h => rw [hd] at h; cases h
      · next h =>
        rw [hd] at h
        cases h
        rw [if_neg hne]
        split
        · next h => rw [hl] at h; cases h
        · next h => rw [hl] at h; cases h; rfl
    · next h => rw [opening?_opening] at h; cases h

theorem skipFrom_scalar (hw : Blanks w) (hv : Scalar v) (hr : Apart r) :
    skipFrom .before enclosing (w ++ (v ++ r)) = skipFrom .behind enclosing r := by
  have hscalar := skipScalar_append hv hr
  obtain ⟨c, t, rfl, hblank, hopening, -⟩ := hv.head
  rw [List.cons_append] at hscalar ⊢
  have hs := skipBlank_append_cons hw hblank (t ++ r)
  rw [skipFrom]
  split
  · next h => rw [hs] at h; cases h
  · next h =>
    rw [hs] at h
    cases h
    split
    · next h => rw [hopening] at h; cases h
    · split
      · next h => rw [hscalar] at h; cases h
      · next h => rw [hscalar] at h; cases h; rfl

end

def Passes : Part → List Char → Prop
  | .value, v => ∀ enclosing w r, Blanks w → Apart r →
    skipFrom .before enclosing (w ++ (v ++ r)) = skipFrom .behind enclosing r
  | .rest b true, s => ∀ enclosing w r, Blanks w →
    skipFrom .before enclosing (w ++ b.opening :: (s ++ r)) = skipFrom .behind enclosing r
  | .rest b false, s => ∀ enclosing r,
    skipFrom .behind (b :: enclosing) (s ++ r) = skipFrom .behind enclosing r

theorem Spelt.head (h : Spelt .value v) :
    ∃ c t, v = c :: t ∧ isBlank c = false ∧ ∀ b : Bracket, c ≠ b.closing := by
  cases h with
  | scalar h =>
    obtain ⟨c, t, rfl, hblank, -, hne⟩ := h.head
    exact ⟨c, t, rfl, hblank, hne⟩
  | @bracket b s h =>
    refine ⟨_, _, rfl, isBlank_opening b, fun b' => ?_⟩
    cases b <;> cases b' <;> decide

theorem isBlank_apart (h : isBlank c = true) : c.isDigit = false ∧ c ≠ '.' ∧ c ≠ 'e' ∧ c ≠ 'E' := by
  simp only [isBlank, Bool.or_eq_true, beq_iff_eq] at h
  rcases h with ((rfl | rfl) | rfl) | rfl <;> decide

theorem apart_blanks (hw : Blanks w) (hr : Apart r) : Apart (w ++ r) := by
  cases w with
  | nil => exact hr
  | cons c w => exact apart_cons (isBlank_apart (hw c List.mem_cons_self)) _

theorem apart_closing (b : Bracket) (s : List Char) : Apart (b.closing :: s) :=
  apart_cons (by cases b <;> decide) s

theorem Lead.apart {p : List Char} (hp : Lead false p) (r : List Char) : Apart (p ++ r) := by
  cases hp with
  | next hw =>
    rw [List.append_assoc]
    exact apart_blanks hw (apart_cons (by decide) r)

theorem Spelt.apart (h : Spelt (.rest b false) s) (r : List Char) : Apart (s ++ r) := by
  cases h with
  | close hw =>
    rw [List.append_assoc]
    exact apart_blanks hw (apart_closing b _)
  | item hp _ _ _ _ =>
    rw [List.append_assoc]
    exact hp.apart _

theorem Label.opening {l : List Char} (hl : Label b l) (hw : Blanks w) (hv : Spelt .value v)
    (r : List Char) : ∃ d t w', skipBlank (l ++ (w ++ (v ++ r))) = d :: t ∧ d ≠ b.closing ∧
      Blanks w' ∧ b.skipLabel (d :: t) = .ok (w' ++ (v ++ r)) := by
  cases hl with
  | list =>
    obtain ⟨c, t, rfl, hblank, hne⟩ := hv.head
    exact ⟨c, t ++ r, [], skipBlank_append_cons hw hblank (t ++ r), hne .list, blanks_nil, rfl⟩
  | @object u k u' hu hk hu' =>
    refine ⟨'"', k ++ '"' :: (u' ++ ':' :: (w ++ (v ++ r))), w, ?_, by decide, hw, ?_⟩
    · refine skipBlank_eq_cons_iff.mpr ⟨rfl, u, hu, ?_⟩
      simp only [List.append_assoc, List.cons_append, List.nil_append]
    · refine skipLabel_eq_ok_iff.mpr ⟨_, .object blanks_nil hk hu', ?_⟩
      simp only [List.append_assoc, List.cons_append, List.nil_append]

theorem Spelt.passes {part : Part} (h : Spelt part s) : Passes part s := by
  induction h with
  | scalar h => exact fun enclosing w r hw hr => skipFrom_scalar enclosing hw h hr
  | bracket h ih => exact fun enclosing w r hw _ => ih enclosing w r hw
  | @close b first w hw =>
    cases first with
    | true =>
      intro enclosing w' r hw'
      rw [List.append_assoc, List.singleton_append]
      exact skipFrom_empty enclosing hw' hw r
    | false =>
      intro enclosing r
      rw [List.append_assoc, List.singleton_append]
      exact skipFrom_closing enclosing hw r
  | @item b first p l w v s hp hl hw hv hs ihv ihs =>
    cases hp with
    | first =>
      intro enclosing w' r hw'
      obtain ⟨d, t, u, hd, hne, hu, hlabel⟩ := hl.opening hw hv (s ++ r)
      have hstep := skipFrom_opening enclosing hw' hd hne hlabel
      simp only [List.append_assoc, List.nil_append]
      rw [hstep, ihv (b :: enclosing) u (s ++ r) hu (hs.apart r), ihs]
    | @next w' hw' =>
      intro enclosing r
      have hlabel : b.skipLabel (l ++ (w ++ (v ++ (s ++ r)))) = .ok (w ++ (v ++ (s ++ r))) :=
        skipLabel_eq_ok_iff.mpr ⟨l, hl, rfl⟩
      have hstep := skipFrom_comma enclosing hw' hlabel
      simp only [List.append_assoc, List.cons_append, List.nil_append]
      rw [hstep, ihv (b :: enclosing) w (s ++ r) hw (hs.apart r), ihs]

theorem value_of_skipValue (h : skipValue s = .ok r) :
    ∃ w v, Blanks w ∧ Spelt .value v ∧ s = w ++ (v ++ r) := by
  obtain ⟨w, v, _, hw, hv, ⟨⟩, rfl⟩ := passed_of_skipFrom h
  exact ⟨w, v, hw, hv, rfl⟩

theorem skipValue_append (hw : Blanks w) (hv : Spelt .value v) (hr : Apart r) :
    skipValue (w ++ (v ++ r)) = .ok r :=
  (hv.passes [] w r hw hr).trans (skipFrom_behind_nil r)

end HeroPage.Json
