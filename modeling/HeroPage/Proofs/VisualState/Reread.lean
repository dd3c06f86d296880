import HeroPage.Proofs.Decimal.Reread
import HeroPage.Proofs.Transition.Ends
import HeroPage.VisualState.Written
set_option autoImplicit false

namespace HeroPage.VisualState

open Decimal (Reread)

def reread? (s : VisualState) : Option VisualState := do
  return ⟨← Decimal.reread? s.opacity, ← Decimal.reread? s.offsetY, ← Decimal.reread? s.rotationDeg⟩

/-- The keys of a state, with the texts behind them and what the texts give. -/
def members (s : VisualState) : List (String × List Char × Option Float) :=
  [("opacity", s.opacity), ("offsetY", s.offsetY), ("rotationDeg", s.rotationDeg)].map fun m =>
    (m.1, Decimal.json.characters (.ofFloat m.2), Decimal.reread? m.2)

theorem members_keys (s : VisualState) : s.members.map Prod.fst = record.keys := rfl

theorem members_give {s : VisualState} {m : String × List Char × Option Float} (hm : m ∈ s.members) :
    m.1 ∈ record.keys ∧ record.field.Gives m.2.1 m.2.2 := by
  refine ⟨s.members_keys ▸ List.mem_map_of_mem hm, ?_⟩
  obtain ⟨p, -, rfl⟩ := List.mem_map.mp hm
  exact Decimal.gives_characters p.2

theorem make_members (s : VisualState) :
    ((Json.allGiven (s.members.map fun m => (m.1, m.2.2))).bind fun given =>
      (record.make fun k => given.lookup k).toOption) = s.reread? := by
  simp only [members, reread?, List.map_cons, List.map_nil]
  generalize Decimal.reread? s.opacity = a
  generalize Decimal.reread? s.offsetY = b
  generalize Decimal.reread? s.rotationDeg = c
  cases a <;> cases b <;> cases c <;> rfl

theorem read?_written_toOption (s : VisualState) : (read? s.written).toOption = s.reread? := by
  have hnodup : (s.members.map Prod.fst).Nodup := by
    rw [members_keys]
    decide
  have htext : s.written.toList = Json.writeObject (s.members.map fun m => (m.1, m.2.1)) :=
    String.toList_ofList
  have hread := record.read_writeObject (fun m hm => members_give hm) hnodup []
  rw [List.append_nil, make_members, ← htext] at hread
  exact Json.readDocument_toOption hread

theorem read?_written_eq_ok {s s' : VisualState} (h : s.reread? = some s') : read? s.written = .ok s' := by
  have hread := s.read?_written_toOption
  rw [h] at hread
  cases hok : read? s.written with
  | error e => rw [hok] at hread; cases hread
  | ok t => rw [hok] at hread; cases hread; rfl

theorem reread?_of_finite {s : VisualState} (h : s.Finite) : ∃ s', s.reread? = some s' ∧ Each Reread s s' := by
  obtain ⟨x, hx⟩ := Decimal.exists_reread h.opacity
  obtain ⟨y, hy⟩ := Decimal.exists_reread h.offsetY
  obtain ⟨z, hz⟩ := Decimal.exists_reread h.rotationDeg
  refine ⟨⟨x, y, z⟩, ?_, hx, hy, hz⟩
  rw [reread?, hx.reread, hy.reread, hz.reread]
  rfl

theorem finite_of_reread? {s s' : VisualState} (h : s.reread? = some s') : s.Finite := by
  simp only [reread?, Option.bind_eq_bind, Option.bind_eq_some_iff] at h
  obtain ⟨x, hx, y, hy, z, hz, -⟩ := h
  exact ⟨Decimal.isFinite_of_reread? hx, Decimal.isFinite_of_reread? hy, Decimal.isFinite_of_reread? hz⟩

/-- A finite state comes back as exactly as its components do, and no other state comes back. -/
theorem reread_or_refused (s : VisualState) :
    (s.Finite ∧ ∃ s', read? s.written = .ok s' ∧ Each Reread s s') ∨
      (¬s.Finite ∧ ∃ e, read? s.written = .error e) := by
  by_cases hfinite : s.Finite
  · obtain ⟨s', hs', heach⟩ := reread?_of_finite hfinite
    exact .inl ⟨hfinite, s', read?_written_eq_ok hs', heach⟩
  · refine .inr ⟨hfinite, ?_⟩
    have hread := s.read?_written_toOption
    cases h : read? s.written with
    | error e => exact ⟨e, rfl⟩
    | ok s' =>
      rw [h] at hread
      exact absurd (finite_of_reread? hread.symm) hfinite

def nearlyOpaque : VisualState := ⟨0.9999999999999999, 0, 0⟩

/-- The significand of sixteen digits is rounded before it is divided. -/
theorem nearlyOpaque_comes_back_settled :
    nearlyOpaque.Finite ∧ nearlyOpaque.opacity ≠ settled.opacity ∧
      read? nearlyOpaque.written = .ok settled := by
  have hopacity : Decimal.reread? nearlyOpaque.opacity = some settled.opacity := by decide +kernel
  have hoffsetY : Decimal.reread? nearlyOpaque.offsetY = some settled.offsetY := by decide +kernel
  have hrotation : Decimal.reread? nearlyOpaque.rotationDeg = some settled.rotationDeg := by
    decide +kernel
  have hreread : nearlyOpaque.reread? = some settled := by
    rw [reread?, hopacity, hoffsetY, hrotation]
    rfl
  exact ⟨by decide +kernel, by decide +kernel, read?_written_eq_ok hreread⟩

end HeroPage.VisualState
