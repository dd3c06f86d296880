import HeroPage.Proofs.Stage.Degraded
set_option autoImplicit false

namespace HeroPage

/-- Whether the browser keeps an entrance from playing whose request for a frame is its `n`th. -/
def Browser.declines (b : Browser) (n : Nat) : Bool :=
  !b.window || !b.clock || b.reducedMotion || decide (n ∈ b.refused)

def Browser.opens (b : Browser) (t : Transition) (n : Nat) : VisualState :=
  if b.declines n then t.target else t.source

theorem Browser.exists_declines {m n : Nat} (h : m ≠ n) (x y : Bool) :
    ∃ b : Browser, b.declines m = x ∧ b.declines n = y := by
  cases x with
  | false =>
    cases y with
    | false => exact ⟨{}, rfl, rfl⟩
    | true => exact ⟨{ refused := [n] }, by simp [declines, reducedMotion, h], by simp [declines]⟩
  | true =>
    cases y with
    | false => exact ⟨{ refused := [m] }, by simp [declines], by simp [declines, reducedMotion, h.symm]⟩
    | true => exact ⟨{ window := false }, rfl, rfl⟩

namespace Stage

variable {b : Browser} {s : Stage} {t : Transition}

theorem degrades_iff (ht : t.validate = .ok ()) :
    Degrades b s t ↔ b.declines (s.scheduler.requests + 1) = true := by
  simp only [Degrades, ht, Browser.declines, ← reducedMotion_eq_true_iff, Bool.or_eq_true,
    Bool.not_eq_true', decide_eq_true_iff, or_assoc]
  simp

theorem arrive_style (ht : t.validate = .ok ()) (now : Float) :
    (Entrance.arrive b t now (s.scheduler.offer b)).style = b.opens t (s.scheduler.requests + 1) := by
  by_cases hd : Degrades b s t
  · rw [arrive_of_degrades hd, Browser.opens, if_pos ((degrades_iff ht).mp hd)]
    rfl
  · rw [arrive_of_not_degrades hd, Browser.opens, if_neg fun h => hd ((degrades_iff ht).mpr h)]
    rfl

/-- Either the entrance asks for a frame, or no entrance can play. -/
theorem declines_mount (ht : t.validate = .ok ()) (n : Nat) :
    b.declines ((s.mount b t).1.scheduler.requests + n) =
      b.declines (s.scheduler.requests + 1 + n) := by
  cases ha : admits b t with
  | error f =>
    -- no request is made, but then the browser lacks what every entrance needs and declines them all
    have hlacks : b.window = false ∨ b.clock = false := by
      by_contra hready
      rw [not_or, Bool.not_eq_false, Bool.not_eq_false] at hready
      rw [admits_of_ready ht hready.1 hready.2] at ha
      cases ha
    rcases hlacks with h | h <;> simp [Browser.declines, h]
  | ok _ =>
    cases hm : b.reducedMotion with
    | true => simp [Browser.declines, hm]
    | false =>
      by_cases hq : s.scheduler.requests + 1 ∈ b.refused
      · rw [mount_of_refused ha hm hq]
        rfl
      · rw [mount_of_granted ha hm hq]
        rfl

theorem mountAll_styles (ts : List Transition) (hts : ∀ t ∈ ts, t.validate = .ok ()) (s : Stage) :
    (s.mountAll b ts).1.entrances.map Entrance.style =
      s.entrances.map Entrance.style ++
        ts.mapIdx fun i t => b.opens t (s.scheduler.requests + 1 + i) := by
  induction ts generalizing s with
  | nil => simp [mountAll]
  | cons t ts ih =>
    have ht := hts t List.mem_cons_self
    have hrest := ih (fun u hu => hts u (List.mem_cons_of_mem t hu)) (s.mount b t).1
    have hopens : ∀ u i, b.opens u ((s.mount b t).1.scheduler.requests + 1 + i) =
        b.opens u (s.scheduler.requests + 1 + (i + 1)) := by
      intro u i
      rw [Browser.opens, Browser.opens, Nat.add_assoc, declines_mount ht, Nat.add_comm 1 i]
    simp only [hopens] at hrest
    calc (s.mountAll b (t :: ts)).1.entrances.map Entrance.style
        = ((s.mount b t).1.mountAll b ts).1.entrances.map Entrance.style := rfl
      _ = _ := hrest
      _ = _ := by
        rw [mount_entrances, List.map_append, List.map_singleton, arrive_style ht, List.append_assoc,
          List.mapIdx_cons]
        rfl

end Stage

end HeroPage
