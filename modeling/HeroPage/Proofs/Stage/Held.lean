import HeroPage.Stage.Run
import Mathlib.Data.List.Nodup
set_option autoImplicit false

namespace HeroPage

namespace Stage

theorem getElem?_concat {es : List Entrance} {e e' : Entrance} {i : Nat}
    (h : (es ++ [e])[i]? = some e') : es[i]? = some e' ∨ i = es.length ∧ e' = e := by
  rw [List.getElem?_append] at h
  split at h
  · exact .inl h
  · right
    obtain ⟨hi, he⟩ := List.getElem?_eq_some_iff.mp h
    simp only [List.length_singleton] at hi
    exact ⟨by omega, by simpa using he.symm⟩

theorem getElem?_set_cases {es : List Entrance} {e e' : Entrance} {i j : Nat}
    (h : (es.set i e)[j]? = some e') : j = i ∧ e' = e ∨ j ≠ i ∧ es[j]? = some e' := by
  rw [List.getElem?_set] at h
  by_cases hij : i = j
  · simp only [hij, ↓reduceIte, Option.ite_none_right_eq_some, Option.some.injEq] at h
    exact .inl ⟨hij.symm, h.2.symm⟩
  · simp only [hij, ↓reduceIte] at h
    exact .inr ⟨Ne.symm hij, h⟩

/-- What the entrances hold of one kind. The second argument of `f` is the number of an entrance. -/
def held {α : Type} (f : Entrance → Nat → Option α) (es : List Entrance) : List α :=
  es.zipIdx.filterMap fun p => f p.1 p.2

section
variable {α : Type} (f : Entrance → Nat → Option α)

theorem held_append_singleton (es : List Entrance) (e : Entrance) :
    held f (es ++ [e]) = held f es ++ (f e es.length).toList := by
  cases h : f e es.length <;> simp [held, List.zipIdx_append, h]

theorem mem_held {es : List Entrance} {x : α} :
    x ∈ held f es ↔ ∃ i e, es[i]? = some e ∧ f e i = some x := by
  simp only [held, List.mem_filterMap, Prod.exists, List.mem_zipIdx_iff_getElem?]
  exact ⟨fun ⟨e, i, h⟩ => ⟨i, e, h⟩, fun ⟨i, e, h⟩ => ⟨e, i, h⟩⟩

theorem held_set {es : List Entrance} {i : Nat} {e : Entrance} (h : es[i]? = some e) :
    ∃ l r, held f es = l ++ (f e i).toList ++ r ∧
      ∀ e', held f (es.set i e') = l ++ (f e' i).toList ++ r := by
  obtain ⟨hi, he⟩ := List.getElem?_eq_some_iff.mp h
  have hsplit : es = es.take i ++ e :: es.drop (i + 1) := by
    rw [← he, List.getElem_cons_drop, List.take_append_drop]
  have hlen : (es.take i).length = i := List.length_take_of_le (Nat.le_of_lt hi)
  have hset (e' : Entrance) : es.set i e' = es.take i ++ e' :: es.drop (i + 1) := by
    rw [List.set_eq_take_append_cons_drop, if_pos hi]
  have key (e' : Entrance) : held f (es.take i ++ e' :: es.drop (i + 1)) =
      held f (es.take i) ++ (f e' i).toList ++
        ((es.drop (i + 1)).zipIdx (i + 1)).filterMap fun p => f p.1 p.2 := by
    cases hf : f e' i <;>
      simp [held, List.zipIdx_append, hlen, hf, List.zipIdx_cons]
  refine ⟨_, _, ?_, fun e' => (hset e').symm ▸ key e'⟩
  rw [← key e, ← hsplit]

theorem held_set_eq {es : List Entrance} {i : Nat} {e e' : Entrance} (h : es[i]? = some e)
    (he : f e' i = f e i) : held f (es.set i e') = held f es := by
  obtain ⟨l, r, hes, hset⟩ := held_set f h
  rw [hset, he, hes]

theorem held_set_of_eq {es : List Entrance} {i : Nat} {e : Entrance} {x : α} {l r : List α}
    (hi : es[i]? = some e) (hx : f e i = some x) (h : held f es = l ++ x :: r)
    (hl : x ∉ l) (hr : x ∉ r) (e' : Entrance) :
    held f (es.set i e') = l ++ (f e' i).toList ++ r := by
  obtain ⟨l', r', hes, hset⟩ := held_set f hi
  have heq : l ++ x :: r = l' ++ x :: r' := by
    rw [← h, hes, hx]
    simp
  obtain ⟨rfl, -, rfl⟩ := (List.append_cons_inj_of_notMem hl hr).mp heq
  exact hset e'

end

end Stage

namespace Entrance

def ticket (e : Entrance) (i : Nat) : Option Ticket := e.frame.map fun id => ⟨id, i⟩

/-- The timer that the entrance with number `i` has set, as long as it is on the page. -/
def alarm (e : Entrance) (i : Nat) : Option Timer :=
  if e.mounted then e.timer.map fun id => ⟨id, i, settleMillis e.controller.transition⟩ else none

theorem ticket_eq_some_iff {e : Entrance} {i : Nat} {t : Ticket} :
    e.ticket i = some t ↔ e.frame = some t.id ∧ t.owner = i := by
  cases t
  simp only [ticket, Option.map_eq_some_iff, Ticket.mk.injEq]
  grind

theorem alarm_eq_some_iff {e : Entrance} {i : Nat} {t : Timer} :
    e.alarm i = some t ↔ e.mounted = true ∧ e.timer = some t.id ∧ t.owner = i ∧
      t.millis = settleMillis e.controller.transition := by
  cases t
  simp only [alarm, Option.ite_none_right_eq_some, Option.map_eq_some_iff, Timer.mk.injEq]
  grind

end Entrance

namespace Stage

def waiting (es : List Entrance) : List Ticket := held Entrance.ticket es

def alarms (es : List Entrance) : List Timer := held Entrance.alarm es

theorem mem_waiting {es : List Entrance} {t : Ticket} :
    t ∈ waiting es ↔ ∃ e, es[t.owner]? = some e ∧ e.frame = some t.id := by
  simp only [waiting, mem_held, Entrance.ticket_eq_some_iff]
  grind

theorem mem_alarms {es : List Entrance} {t : Timer} :
    t ∈ alarms es ↔ ∃ e, es[t.owner]? = some e ∧ e.mounted = true ∧ e.timer = some t.id ∧
      t.millis = settleMillis e.controller.transition := by
  simp only [alarms, mem_held, Entrance.alarm_eq_some_iff]
  grind

section
variable {α : Type} {key : α → Nat} {l r : List α} {x : α}

theorem key_ne_of_nodup (h : ((l ++ x :: r).map key).Nodup) :
    (∀ y ∈ l, key y ≠ key x) ∧ ∀ y ∈ r, key y ≠ key x := by
  rw [List.map_append, List.map_cons, List.nodup_append, List.nodup_cons] at h
  constructor
  · intro y hy
    exact h.2.2 (key y) (List.mem_map_of_mem hy) (key x) List.mem_cons_self
  · intro y hy he
    exact h.2.1.1 (he ▸ List.mem_map_of_mem hy)

theorem filter_ne_of_nodup (h : ((l ++ x :: r).map key).Nodup) :
    (l ++ x :: r).filter (fun y => key y != key x) = l ++ r := by
  obtain ⟨hl, hr⟩ := key_ne_of_nodup h
  rw [List.filter_append, List.filter_cons_of_neg (by simp),
    List.filter_eq_self.mpr (by simpa using hl), List.filter_eq_self.mpr (by simpa using hr)]

end

end Stage

end HeroPage
