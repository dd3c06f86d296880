import HeroPage.Proofs.Stage.Held
set_option autoImplicit false

namespace HeroPage.Stage

/-- The timers of `q` belong to entrances on the page, and each of these that is under way has
one. -/
structure Kept (q : Scheduler) (es : List Entrance) : Prop where
  sub : q.timers.Sublist (alarms es)
  nodup : ((alarms es).map Timer.id).Nodup
  le : ∀ t ∈ alarms es, t.id ≤ q.lastTimer
  ticking : ∀ i e, es[i]? = some e → e.mounted = true → e.controller.isSettled = false →
    ∃ t ∈ q.timers, t.owner = i

namespace Kept
variable {q : Scheduler} {es : List Entrance}

theorem unique (h : Kept q es) {t u : Timer} (ht : t ∈ q.timers) (hu : u ∈ q.timers)
    (hid : t.id = u.id) : t = u :=
  List.inj_on_of_nodup_map (h.nodup.sublist (h.sub.map Timer.id)) ht hu hid

theorem owner_of_mem (h : Kept q es) {t : Timer} (ht : t ∈ q.timers) :
    ∃ e, es[t.owner]? = some e ∧ e.mounted = true ∧ e.timer = some t.id ∧
      t.millis = settleMillis e.controller.transition :=
  mem_alarms.mp (h.sub.subset ht)

theorem id_eq {i : Nat} {e : Entrance} {t : Timer} (h : Kept q es) (hi : es[i]? = some e)
    (ht : t ∈ q.timers) (ho : t.owner = i) : e.timer = some t.id := by
  obtain ⟨e', he', -, hid, -⟩ := h.owner_of_mem ht
  obtain rfl : e = e' := Option.some.inj (hi.symm.trans (ho ▸ he'))
  exact hid

theorem owner_eq {i : Nat} {e : Entrance} {t : Timer} (h : Kept q es) (hi : es[i]? = some e)
    (hm : e.mounted = true) (he : e.timer = some t.id) (ht : t ∈ q.timers) : t.owner = i := by
  have hx : ⟨t.id, i, settleMillis e.controller.transition⟩ ∈ alarms es :=
    mem_alarms.mpr ⟨e, hi, hm, he, rfl⟩
  rw [List.inj_on_of_nodup_map h.nodup (h.sub.subset ht) hx rfl]

theorem findTimer?_of_mem (h : Kept q es) {t : Timer} (ht : t ∈ q.timers) :
    q.findTimer? t.id = some t := by
  cases hf : q.findTimer? t.id with
  | none =>
    exact absurd rfl (Scheduler.findTimer?_eq_none_iff.mp hf t ht)
  | some u =>
    obtain ⟨hu, hid⟩ := Scheduler.findTimer?_some hf
    rw [h.unique hu ht hid]

theorem set {i : Nat} {e e' : Entrance} (h : Kept q es) (hi : es[i]? = some e)
    (ha : e'.alarm i = e.alarm i)
    (hn : e'.mounted = true → e'.controller.isSettled = false →
      e.mounted = true ∧ e.controller.isSettled = false) : Kept q (es.set i e') := by
  have hset : alarms (es.set i e') = alarms es := held_set_eq Entrance.alarm hi ha
  refine ⟨hset ▸ h.sub, hset ▸ h.nodup, hset ▸ h.le, fun j e₁ hj hm hs => ?_⟩
  rcases getElem?_set_cases hj with ⟨rfl, rfl⟩ | ⟨-, hj⟩
  · exact h.ticking j e hi (hn hm hs).1 (hn hm hs).2
  · exact h.ticking j e₁ hj hm hs

theorem dropped {t : Timer} (h : Kept q es) (ht : t ∈ q.timers)
    (hs : ∀ e, es[t.owner]? = some e → e.mounted = true → e.controller.isSettled = true) :
    Kept (q.dropTimer t.id) es := by
  refine ⟨List.filter_sublist.trans h.sub, h.nodup, h.le, fun i e hi hm hn => ?_⟩
  obtain ⟨u, hu, rfl⟩ := h.ticking i e hi hm hn
  refine ⟨u, Scheduler.mem_dropTimer_timers.mpr ⟨hu, fun hid => ?_⟩, rfl⟩
  obtain rfl := h.unique hu ht hid
  rw [hs e hi hm] at hn
  exact absurd hn (by decide)

theorem add {e : Entrance} (h : Kept q es) (ha : e.alarm es.length = none)
    (hs : e.controller.isSettled = true) : Kept q (es ++ [e]) := by
  have hset : alarms (es ++ [e]) = alarms es := by
    simp [alarms, held_append_singleton, ha]
  refine ⟨hset ▸ h.sub, hset ▸ h.nodup, hset ▸ h.le, fun i e₁ hi hm hn => ?_⟩
  rcases getElem?_concat hi with hi | ⟨-, rfl⟩
  · exact h.ticking i e₁ hi hm hn
  · simp [hs] at hn

theorem add_timed {e : Entrance} {millis : Nat} (h : Kept q es)
    (ha : e.alarm es.length = some ⟨q.lastTimer + 1, es.length, millis⟩) :
    Kept (q.setTimer es.length millis).1 (es ++ [e]) := by
  have hset : alarms (es ++ [e]) = alarms es ++ [⟨q.lastTimer + 1, es.length, millis⟩] := by
    simp [alarms, held_append_singleton, ha]
  have hn := h.nodup
  have hle := h.le
  refine ⟨?_, ?_, ?_, fun i e₁ hi hm hs => ?_⟩
  · rw [hset]
    exact List.Sublist.append_right h.sub _
  · rw [hset]
    grind
  · rw [hset]
    simp only [Scheduler.setTimer]
    grind
  · simp only [Scheduler.setTimer, List.mem_append, List.mem_singleton]
    rcases getElem?_concat hi with hi | ⟨rfl, -⟩
    · obtain ⟨t, ht, ho⟩ := h.ticking i e₁ hi hm hs
      exact ⟨t, .inl ht, ho⟩
    · exact ⟨_, .inr rfl, rfl⟩

theorem cleared {i : Nat} {e : Entrance} (h : Kept q es) (hi : es[i]? = some e)
    (hm : e.mounted = true) : Kept (clear q i e).1 (es.set i e.leave) := by
  obtain ⟨l, r, hw, hset⟩ := held_set Entrance.alarm hi
  replace hset : alarms (es.set i e.leave) = l ++ r := by
    rw [alarms, hset]
    simp [Entrance.alarm]
  have hothers : ∀ j e₁, (es.set i e.leave)[j]? = some e₁ → e₁.mounted = true →
      j ≠ i ∧ es[j]? = some e₁ := by
    intro j e₁ hj hm₁
    rcases getElem?_set_cases hj with ⟨-, rfl⟩ | hj
    · simp at hm₁
    · exact hj
  cases ht : e.timer with
  | none =>
    have ha : alarms (es.set i e.leave) = alarms es := by
      rw [hset, alarms, hw]
      simp [Entrance.alarm, ht]
    rw [clear_of_none ht]
    refine ⟨ha ▸ h.sub, ha ▸ h.nodup, ha ▸ h.le, fun j e₁ hj hm₁ hs => ?_⟩
    exact h.ticking j e₁ (hothers j e₁ hj hm₁).2 hm₁ hs
  | some id =>
    let x : Timer := ⟨id, i, settleMillis e.controller.transition⟩
    have hx : e.alarm i = some x := Entrance.alarm_eq_some_iff.mpr ⟨hm, ht, rfl, rfl⟩
    replace hw : alarms es = l ++ x :: r := by
      rw [alarms, hw, hx]
      simp
    have hsub : (l ++ r).Sublist (alarms es) := by
      rw [hw]
      exact List.Sublist.append_left (List.sublist_cons_self _ _) l
    rw [clear_of_some ht]
    refine ⟨?_, ?_, ?_, fun j e₁ hj hm₁ hs => ?_⟩
    · have hfilter := filter_ne_of_nodup (hw ▸ h.nodup)
      rw [hset, ← hfilter, ← hw]
      exact h.sub.filter _
    · rw [hset]
      exact h.nodup.sublist (hsub.map Timer.id)
    · rw [hset]
      exact fun t ht => h.le t (hsub.subset ht)
    · obtain ⟨hij, hj⟩ := hothers j e₁ hj hm₁
      obtain ⟨t, htm, rfl⟩ := h.ticking j e₁ hj hm₁ hs
      refine ⟨t, Scheduler.mem_dropTimer_timers.mpr ⟨htm, fun hid => hij ?_⟩, rfl⟩
      exact h.owner_eq hi hm (hid ▸ ht) htm

theorem of_eq {q' : Scheduler} (h : Kept q es) (ht : q'.timers = q.timers)
    (hl : q'.lastTimer = q.lastTimer) : Kept q' es :=
  ⟨ht ▸ h.sub, h.nodup, hl ▸ h.le, ht ▸ h.ticking⟩

end Kept

end HeroPage.Stage
