import HeroPage.Proofs.Decimal.Positional
import HeroPage.Proofs.Transition.Ends
set_option autoImplicit false

namespace HeroPage.VisualState

open Decimal (plain Positional Double)

variable {s s' : VisualState} {c : Char} {u v t r r' : List Char}

def Numeric (s : VisualState) : Prop := Each (fun x _ => x.isNaN = false) s s

instance (s : VisualState) : Decidable s.Numeric := inferInstanceAs (Decidable (Each _ s s))

theorem notMem_characters (hc : c = ';' ∨ c = 'p') (x : Float) : c ∉ plain.characters (.ofFloat x) := by
  by_cases hfinite : x.isFinite = true
  · obtain ⟨p, hp, -⟩ := Decimal.exists_positional hfinite
    have hnone : ¬(c.isDigit = true ∨ c = '-' ∨ c = '.') := by rcases hc with rfl | rfl <;> decide
    exact hp ▸ fun hmem => hnone (p.mem_characters hmem)
  · have hnan : c ∉ plain.nan := by rcases hc with rfl | rfl <;> decide
    have hinfinite : ∀ n, c ∉ plain.infinite n := by rcases hc with rfl | rfl <;> decide
    rw [Decimal.isFinite_iff_ofFloat] at hfinite
    cases hx : Double.ofFloat x with
    | nan => exact hnan
    | infinite n => exact hinfinite n
    | zero n => exact absurd (.inl ⟨n, hx⟩) hfinite
    | finite n b => exact absurd (.inr ⟨n, b, hx⟩) hfinite

theorem text_eq_of_append_eq (hu : c ∉ u) (hv : c ∉ v) (h : u ++ (c :: t ++ r) = v ++ (c :: t ++ r')) :
    u = v ∧ r = r' := by
  have hlength := congrArg (List.idxOf c) h
  rw [List.cons_append, List.cons_append, List.idxOf_append_of_notMem hu, List.idxOf_append_of_notMem hv,
    List.idxOf_cons_self, List.idxOf_cons_self] at hlength
  obtain ⟨huv, hrest⟩ := List.append_inj h hlength
  exact ⟨huv, List.append_cancel_left hrest⟩

theorem css_toList (s : VisualState) : s.css.toList =
    "opacity: ".toList ++ (plain.characters (.ofFloat s.opacity) ++
      ("; transform: translateY(".toList ++ (plain.characters (.ofFloat s.offsetY) ++
        ("px) rotate(".toList ++ (plain.characters (.ofFloat s.rotationDeg) ++ "deg);".toList))))) := by
  simp only [css, Decimal.Layout.text, String.toList_append, String.toList_ofList, List.append_assoc]

theorem texts_of_css_eq (h : s.css = s'.css) :
    Each (fun x y => plain.characters (.ofFloat x) = plain.characters (.ofFloat y)) s s' := by
  have htext := congrArg String.toList h
  rw [css_toList, css_toList] at htext
  obtain ⟨hopacity, hrest⟩ := text_eq_of_append_eq (notMem_characters (.inl rfl) _)
    (notMem_characters (.inl rfl) _) (List.append_cancel_left htext)
  obtain ⟨hoffsetY, hrest⟩ := text_eq_of_append_eq (notMem_characters (.inr rfl) _)
    (notMem_characters (.inr rfl) _) hrest
  exact ⟨hopacity, hoffsetY, List.append_cancel_right hrest⟩

/-- A finite state is read back from its style, and no two states without a NaN have the same style. -/
theorem css_faithful (s : VisualState) :
    (s.Finite → ∃ a b c : Positional,
      s.css = "opacity: " ++ a.text ++ "; transform: translateY(" ++ b.text ++
        "px) rotate(" ++ c.text ++ "deg);" ∧
      a.Reads s.opacity ∧ b.Reads s.offsetY ∧ c.Reads s.rotationDeg) ∧
    ∀ s' : VisualState, s.Numeric → s'.Numeric → s.css = s'.css → s = s' := by
  constructor
  · intro hfinite
    obtain ⟨a, ha, hopacity⟩ := Decimal.exists_positional hfinite.opacity
    obtain ⟨b, hb, hoffsetY⟩ := Decimal.exists_positional hfinite.offsetY
    obtain ⟨c, hc, hrotation⟩ := Decimal.exists_positional hfinite.rotationDeg
    refine ⟨a, b, c, ?_, hopacity, hoffsetY, hrotation⟩
    simp only [css, Decimal.Layout.text, Positional.text, ha, hb, hc]
  · intro s' hs hs' hcss
    obtain ⟨hopacity, hoffsetY, hrotation⟩ := texts_of_css_eq hcss
    obtain ⟨o, y, r⟩ := s
    obtain ⟨o', y', r'⟩ := s'
    cases Decimal.eq_of_characters_eq hs.opacity hs'.opacity hopacity
    cases Decimal.eq_of_characters_eq hs.offsetY hs'.offsetY hoffsetY
    cases Decimal.eq_of_characters_eq hs.rotationDeg hs'.rotationDeg hrotation
    rfl

def extreme : VisualState := ⟨5e-324, -0.0, 1.7e308⟩

theorem css_faithful_extreme :
    (extreme.Finite ∧ ∃ a b c : Positional,
      extreme.css = "opacity: " ++ a.text ++ "; transform: translateY(" ++ b.text ++
        "px) rotate(" ++ c.text ++ "deg);" ∧
      a.Reads extreme.opacity ∧ b.Reads extreme.offsetY ∧ c.Reads extreme.rotationDeg) ∧
    let s : VisualState := ⟨1, -0.0, 1 / 0⟩
    let s' : VisualState := ⟨1, 0 * -1, 1.7e308 * 10⟩
    (s.Numeric ∧ s'.Numeric ∧ s.css = s'.css) ∧ s = s' := by
  have hfinite : extreme.Finite := by decide +kernel
  refine ⟨⟨hfinite, (css_faithful extreme).1 hfinite⟩, ?_⟩
  intro s s'
  have hnumeric : s.Numeric := by decide +kernel
  have hnumeric' : s'.Numeric := by decide +kernel
  have hcss : s.css = s'.css := by decide +kernel
  exact ⟨⟨hnumeric, hnumeric', hcss⟩, (css_faithful s).2 s' hnumeric hnumeric' hcss⟩

end HeroPage.VisualState
