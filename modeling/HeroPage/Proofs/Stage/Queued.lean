import HeroPage.Proofs.Stage.Held
set_option autoImplicit false

namespace HeroPage.Stage

/-- The frames of `q` and the ones of `due`, which are being given out, are the ones that the
entrances wait for. -/
structure Queued (q : Scheduler) (es : List Entrance) (due : List Ticket) : Prop where
  eq : waiting es = q.frames ++ due
  nodup : ((waiting es).map Ticket.id).Nodup
  le : ∀ t ∈ waiting es, t.id ≤ q.lastFrame

namespace Queued
variable {q : Scheduler} {es : List Entrance} {due : List Ticket}

theorem mem_due {t : Ticket} (h : Queued q es (t :: due)) :
    ∃ e, es[t.owner]? = some e ∧ e.frame = some t.id := by
  rw [← mem_waiting, h.eq]
  simp

theorem set_due {t : Ticket} (h : Queued q es (t :: due)) (e' : Entrance) :
    waiting (es.set t.owner e') = q.frames ++ (e'.ticket t.owner).toList ++ due := by
  obtain ⟨e, he, hf⟩ := h.mem_due
  obtain ⟨hl, hr⟩ := key_ne_of_nodup (h.eq ▸ h.nodup)
  exact held_set_of_eq Entrance.ticket he (Entrance.ticket_eq_some_iff.mpr ⟨hf, rfl⟩) h.eq
    (fun hm => hl t hm rfl) (fun hm => hr t hm rfl) e'

theorem nodup_due {t : Ticket} (h : Queued q es (t :: due)) :
    ((q.frames ++ due).map Ticket.id).Nodup := by
  refine h.nodup.sublist ?_
  rw [h.eq]
  exact (List.Sublist.append_left (List.sublist_cons_self t due) q.frames).map Ticket.id

theorem le_due {t : Ticket} (h : Queued q es (t :: due)) :
    ∀ u ∈ q.frames ++ due, u.id ≤ q.lastFrame := by
  intro u hu
  refine h.le u ?_
  rw [h.eq]
  exact (List.Sublist.append_left (List.sublist_cons_self t due) q.frames).subset hu

theorem come {t : Ticket} {e' : Entrance} (h : Queued q es (t :: due)) (he : e'.frame = none) :
    Queued q (es.set t.owner e') due := by
  have hset : waiting (es.set t.owner e') = q.frames ++ due := by
    simp [h.set_due, Entrance.ticket, he]
  exact ⟨hset, hset ▸ h.nodup_due, hset ▸ h.le_due⟩

theorem come_again {t : Ticket} {e' : Entrance} (h : Queued q es (t :: due))
    (he : e'.frame = some (q.lastFrame + 1)) :
    Queued (q.grant t.owner) (es.set t.owner e') due := by
  have hset : waiting (es.set t.owner e') = (q.grant t.owner).frames ++ due := by
    simp [h.set_due, Entrance.ticket, he, Scheduler.grant]
  have hn := h.nodup_due
  have hle := h.le_due
  refine ⟨hset, ?_, ?_⟩
  · rw [hset, Scheduler.grant]
    grind
  · rw [hset, Scheduler.grant]
    grind

theorem set_idle {i : Nat} {e e' : Entrance} (h : Queued q es due) (hi : es[i]? = some e)
    (he : e.frame = none) (he' : e'.frame = none) : Queued q (es.set i e') due := by
  have hset : waiting (es.set i e') = waiting es :=
    held_set_eq Entrance.ticket hi (by simp [Entrance.ticket, he, he'])
  exact ⟨hset.trans h.eq, hset ▸ h.nodup, hset ▸ h.le⟩

theorem released {i : Nat} {e e' : Entrance} (h : Queued q es []) (hi : es[i]? = some e)
    (he' : e'.frame = none) : Queued (release q i e).1 (es.set i e') [] := by
  unfold release
  split
  · next hf => exact h.set_idle hi hf he'
  · next id hf =>
    -- the entrance's frame is taken out of the queue at the place where it stands
    have hx : e.ticket i = some ⟨id, i⟩ := Entrance.ticket_eq_some_iff.mpr ⟨hf, rfl⟩
    obtain ⟨l, r, hw, hset⟩ := held_set Entrance.ticket hi
    replace hset : waiting (es.set i e') = l ++ r := by
      rw [waiting, hset]
      simp [Entrance.ticket, he']
    replace hw : waiting es = l ++ ⟨id, i⟩ :: r := by
      rw [waiting, hw, hx]
      simp
    have hq : (q.cancel id).frames = l ++ r := by
      rw [Scheduler.cancel, ← List.append_nil q.frames, ← h.eq, hw]
      exact filter_ne_of_nodup (hw ▸ h.nodup)
    have hsub : (l ++ r).Sublist (waiting es) := by
      rw [hw]
      exact List.Sublist.append_left (List.sublist_cons_self _ _) l
    refine ⟨by rw [hset, hq, List.append_nil], ?_, ?_⟩
    · rw [hset]
      exact h.nodup.sublist (hsub.map Ticket.id)
    · rw [hset]
      exact fun t ht => h.le t (hsub.subset ht)

theorem add_idle {e : Entrance} (h : Queued q es due) (he : e.frame = none) :
    Queued q (es ++ [e]) due := by
  have hset : waiting (es ++ [e]) = waiting es := by
    simp [waiting, held_append_singleton, Entrance.ticket, he]
  exact ⟨hset.trans h.eq, hset ▸ h.nodup, hset ▸ h.le⟩

theorem add_asking {e : Entrance} (h : Queued q es []) (he : e.frame = some (q.lastFrame + 1)) :
    Queued (q.grant es.length) (es ++ [e]) [] := by
  have hset : waiting (es ++ [e]) = waiting es ++ [⟨q.lastFrame + 1, es.length⟩] := by
    simp [waiting, held_append_singleton, Entrance.ticket, he]
  have hn := h.nodup
  have hle := h.le
  refine ⟨?_, ?_, ?_⟩
  · rw [hset, h.eq, Scheduler.grant]
    simp
  · rw [hset]
    grind
  · rw [hset, Scheduler.grant]
    grind

theorem of_eq {q' : Scheduler} (h : Queued q es due) (hf : q'.frames = q.frames)
    (hl : q'.lastFrame = q.lastFrame) : Queued q' es due :=
  ⟨hf ▸ h.eq, h.nodup, hl ▸ h.le⟩

end Queued

end HeroPage.Stage
