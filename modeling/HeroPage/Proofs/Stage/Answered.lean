import HeroPage.Proofs.Stage.Arrival
import HeroPage.Proofs.Stage.Numbered
import Mathlib.Data.List.Induction
set_option autoImplicit false

namespace HeroPage

def latest (events : List Event) : Option Bool := (answers events).getLast?

theorem latest_append (events more : List Event) :
    latest (events ++ more) = (latest more).or (latest events) := by
  rw [latest, answers_append, List.getLast?_append]
  rfl

namespace Stage

/-- Whether entrance `i` is on the page, has not settled and was granted its latest request. -/
def awaits (s : Stage) (record : List Entry) (i : Nat) : Bool :=
  match s.entrances[i]? with
  | none => false
  | some e =>
    e.mounted && !e.controller.isSettled && decide (latest (own i record) = some true)

/-- Each entrance under way waits for a frame just if its latest request was granted. -/
def Answered (s : Stage) (record : List Entry) : Prop :=
  ∀ (i : Nat) (e : Entrance), s.entrances[i]? = some e → e.mounted = true →
    e.controller.isSettled = false → (e.frame.isSome = true ↔ latest (own i record) = some true)

end Stage

namespace Entrance

theorem follow_frame {e : Entrance} {c : Cue} (thrown : String) (h : e.Sound)
    (hm : (e.follow c).mounted = true) (hs : (e.follow c).controller.isSettled = false) :
    e.mounted = true ∧ e.controller.isSettled = false ∧
      ((e.follow c).frame = e.frame ∧ e.events thrown c = [] ∨
        latest (e.events thrown c) = some (e.follow c).frame.isSome) := by
  cases c with
  | idle => exact ⟨hm, hs, .inl ⟨rfl, rfl⟩⟩
  | frame now answer =>
    cases hd : (e.draw now).controller.isSettled with
    | true => simp [follow, hd] at hs
    | false =>
      simp only [follow, hd, Bool.false_eq_true, ↓reduceIte, draw_mounted] at hm
      have hn : e.controller.isSettled = false := by
        cases he : e.controller.isSettled with
        | false => rfl
        | true =>
          rw [draw, Controller.frame_of_settled he] at hd
          exact absurd (hd.symm.trans he) (by decide)
      refine ⟨hm, hn, .inr ?_⟩
      simp only [follow, events, hd, Bool.false_eq_true, ↓reduceIte]
      cases answer <;> rfl
  | timeout =>
    cases hd : e.controller.isSettled with
    | true => simp [follow, hd] at hs
    | false =>
      simp only [follow, hd, Bool.false_eq_true, ↓reduceIte] at hm hs
      rw [(force_sound h hm hd).2] at hs
      exact absurd hs (by decide)
  | unmount pending => simp [follow] at hm

end Entrance

namespace Stage

theorem getElem?_step {b : Browser} {s : Stage} {step : Step} {i : Nat} {e : Entrance}
    (he : (s.step b step).stage.entrances[i]? = some e) (hi : s.entrances.length ≤ i) :
    ∃ t now, step = .mount t now ∧ i = s.entrances.length ∧
      e = .arrive b t now (s.scheduler.offer b) := by
  have hlt := (List.getElem?_eq_some_iff.mp he).1
  rw [length_step] at hlt
  cases step with
  | mount t now =>
    simp only [Step.mounted?, Option.toList_some, List.length_singleton] at hlt
    have hlast : i = s.entrances.length := by omega
    subst hlast
    refine ⟨t, now, rfl, rfl, ?_⟩
    have hget : (({ s with clock := now }.mount b t).1.entrances)[s.entrances.length]? = some e :=
      he
    rw [mount_entrances] at hget
    simpa using hget.symm
  | _ =>
    simp only [Step.mounted?, Option.toList_none, List.length_nil] at hlt
    omega

namespace Answered
variable {b : Browser} {s : Stage} {r : List Entry}

theorem empty (clock : Float) : Answered (empty clock) [] := by
  intro i e he
  simp [Stage.empty] at he

theorem step (h : s.Answered r) (hs : s.Sound []) (step : Step) :
    (s.step b step).stage.Answered (r ++ (s.step b step).trace) := by
  intro i e' he' hm hn
  by_cases hi : i < s.entrances.length
  · have he := List.getElem?_eq_getElem hi
    generalize s.entrances[i] = e at he
    have hf := hs.follows (b := b) he step
    obtain rfl : e.follow (s.cue b i e step) = e' := Option.some.inj (hf.entrance.symm.trans he')
    have hbefore := h i e he
    obtain ⟨hm, hn, ⟨hframe, hnone⟩ | hlatest⟩ :=
      Entrance.follow_frame b.thrown (hs.each i e he) hm hn
    · rw [own_append, hf.events, hnone, List.append_nil, hframe]
      exact hbefore hm hn
    · rw [own_append, hf.events, latest_append, hlatest]
      simp
  · obtain ⟨t, now, rfl, rfl, rfl⟩ := getElem?_step he' (Nat.le_of_not_lt hi)
    have htrace : own s.entrances.length (s.step b (.mount t now)).trace =
        Entrance.arrival b t (s.scheduler.offer b) :=
      own_mount (s := { s with clock := now }) t
    rcases Entrance.arrive_cases b t now (s.scheduler.offer b) with
      harrive | ⟨frame, timer, harrive, harrival⟩
    · rw [harrive, Entrance.still_isSettled] at hn
      exact absurd hn (by decide)
    · rw [own_append, htrace, latest_append, harrival, harrive]
      exact iff_of_true rfl rfl

theorem after (h : s.Answered r) (hs : s.Sound []) (steps : List Step) :
    (s.after b steps).Answered (r ++ s.record b steps) := by
  induction steps generalizing s r with
  | nil => simpa [Stage.after] using h
  | cons step steps ih =>
    have hrest := ih (h.step (b := b) hs step) (hs.step step)
    rw [List.append_assoc] at hrest
    exact hrest

theorem frame_isSome (h : s.Answered r) (hs : s.Sound []) (i : Nat) :
    (s.entrances[i]?.bind Entrance.frame).isSome = s.awaits r i := by
  rw [awaits]
  cases he : s.entrances[i]? with
  | none => rfl
  | some e =>
    rw [Bool.eq_iff_iff, Option.bind_some]
    simp only [Bool.and_eq_true, Bool.not_eq_true', decide_eq_true_eq]
    constructor
    · intro hf
      obtain ⟨id, hid⟩ := Option.isSome_iff_exists.mp hf
      obtain ⟨hm, hn⟩ := (hs.each i e he).waits id hid
      exact ⟨⟨hm, hn⟩, (h i e he hm hn).mp hf⟩
    · rintro ⟨⟨hm, hn⟩, hlatest⟩
      exact (h i e he hm hn).mpr hlatest

end Answered

/-- What the entrances wait for stands in the order in which they were mounted. -/
theorem owners_waiting (es : List Entrance) :
    (waiting es).map Ticket.owner =
      (List.range es.length).filter fun i => (es[i]?.bind Entrance.frame).isSome := by
  induction es using List.reverseRecOn with
  | nil => rfl
  | append_singleton es e ih =>
    have hbefore : (List.range es.length).filter
          (fun i => ((es ++ [e])[i]?.bind Entrance.frame).isSome) =
        (List.range es.length).filter fun i => (es[i]?.bind Entrance.frame).isSome := by
      refine List.filter_congr fun i hi => ?_
      rw [List.getElem?_append_left (List.mem_range.mp hi)]
    rw [waiting, held_append_singleton, List.map_append, ← waiting, ih, List.length_append,
      List.length_singleton, List.range_succ, List.filter_append, hbefore]
    cases hf : e.frame <;> simp [Entrance.ticket, hf]

theorem Answered.owners {s : Stage} {r : List Entry} (h : s.Answered r) (hs : s.Sound []) :
    s.scheduler.frames.map Ticket.owner = (List.range s.entrances.length).filter (s.awaits r) := by
  rw [← hs.waiting_eq, owners_waiting]
  exact List.filter_congr fun i _ => h.frame_isSome hs i

end Stage

end HeroPage
