import HeroPage.Proofs.Stage.Cue
set_option autoImplicit false

namespace HeroPage

namespace Scheduler

def framesOf (q : Scheduler) (i : Nat) : List Ticket := q.frames.filter fun t => t.owner == i

def timersOf (q : Scheduler) (i : Nat) : List Timer := q.timers.filter fun t => t.owner == i

theorem framesOf_eq_nil_iff {q : Scheduler} {i : Nat} :
    q.framesOf i = [] ↔ ∀ t ∈ q.frames, t.owner ≠ i := by
  simp [framesOf]

theorem timersOf_eq_nil_iff {q : Scheduler} {i : Nat} :
    q.timersOf i = [] ↔ q.pending i = false := by
  simp [timersOf, pending]

end Scheduler

namespace Stage

theorem filter_eq_singleton {α : Type} {key : α → Nat} {p : α → Bool} {xs : List α} {x : α}
    (hn : (xs.map key).Nodup) (hx : x ∈ xs) (hp : ∀ y ∈ xs, p y = true ↔ key y = key x) :
    xs.filter p = [x] := by
  obtain ⟨l, r, rfl⟩ := List.append_of_mem hx
  obtain ⟨hl, hr⟩ := key_ne_of_nodup hn
  have hleft : l.filter p = [] :=
    List.filter_eq_nil_iff.mpr fun y hy h => hl y hy ((hp y (by simp [hy])).mp h)
  have hright : r.filter p = [] :=
    List.filter_eq_nil_iff.mpr fun y hy h => hr y hy ((hp y (by simp [hy])).mp h)
  rw [List.filter_append, List.filter_cons_of_pos ((hp x hx).mpr rfl), hleft, hright]
  rfl

section
variable {s : Stage} {q : Scheduler} {es : List Entrance} {i : Nat} {e : Entrance}

theorem Sound.nodup_frames (h : s.Sound []) : (s.scheduler.frames.map Ticket.id).Nodup :=
  h.waiting_eq ▸ h.queued.nodup

theorem Sound.owner_iff (h : s.Sound []) (he : s.entrances[i]? = some e) {id : Nat}
    (hf : e.frame = some id) {t : Ticket} (ht : t ∈ s.scheduler.frames) :
    t.owner = i ↔ t.id = id := by
  constructor
  · intro ho
    exact Option.some.inj ((h.id_eq he ht ho).symm.trans hf)
  · intro hid
    have hmem : ⟨id, i⟩ ∈ s.scheduler.frames := h.waiting_eq ▸ mem_waiting.mpr ⟨e, he, hf⟩
    rw [List.inj_on_of_nodup_map h.nodup_frames ht hmem hid]

theorem Sound.framesOf_eq (h : s.Sound []) (he : s.entrances[i]? = some e) :
    s.scheduler.framesOf i = (e.ticket i).toList := by
  cases hf : e.frame with
  | none =>
    have hnone : ∀ t ∈ s.scheduler.frames, t.owner ≠ i := fun t ht ho => by
      simp [h.id_eq he ht ho] at hf
    rw [Scheduler.framesOf_eq_nil_iff.mpr hnone, Entrance.ticket, hf]
    rfl
  | some id =>
    have hmem : ⟨id, i⟩ ∈ s.scheduler.frames := h.waiting_eq ▸ mem_waiting.mpr ⟨e, he, hf⟩
    have hpick := filter_eq_singleton (p := fun t => t.owner == i) h.nodup_frames hmem
      fun t ht => by rw [beq_iff_eq, h.owner_iff he hf ht]
    rw [Scheduler.framesOf, hpick, Entrance.ticket, hf]
    rfl

theorem Kept.timersOf_eq (h : Kept q es) (hi : es[i]? = some e) :
    q.timersOf i = if q.pending i then (e.alarm i).toList else [] := by
  cases hp : q.pending i with
  | false => exact Scheduler.timersOf_eq_nil_iff.mpr hp
  | true =>
    obtain ⟨t, ht, rfl⟩ := Scheduler.pending_iff.mp hp
    obtain ⟨e', he', hm, hid, hmillis⟩ := h.owner_of_mem ht
    obtain rfl : e = e' := Option.some.inj (hi.symm.trans he')
    have hpick := filter_eq_singleton (p := fun u => u.owner == t.owner)
      (h.nodup.sublist (h.sub.map Timer.id)) ht fun u hu => by
        rw [beq_iff_eq]
        exact ⟨fun ho => Option.some.inj ((h.id_eq hi hu ho).symm.trans hid),
          fun h' => congrArg Timer.owner (h.unique hu ht h')⟩
    rw [Scheduler.timersOf, hpick, Entrance.alarm_eq_some_iff.mpr ⟨hm, hid, rfl, hmillis⟩]
    rfl

theorem Sound.framesOf_length_le (h : s.Sound []) (he : s.entrances[i]? = some e) :
    (s.scheduler.framesOf i).length ≤ 1 := by
  rw [h.framesOf_eq he]
  cases e.ticket i <;> simp

theorem Kept.timersOf_length_le (h : Kept q es) (hi : es[i]? = some e) :
    (q.timersOf i).length ≤ 1 := by
  rw [h.timersOf_eq hi]
  split
  · cases e.alarm i <;> simp
  · exact Nat.zero_le 1

end

end Stage

end HeroPage
