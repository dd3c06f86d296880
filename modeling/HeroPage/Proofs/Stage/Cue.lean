import HeroPage.Proofs.Stage.Sound
set_option autoImplicit false

/-! Each step is at most one cue to an entrance: its frame comes, its timer fires, it leaves the page. What it
does then depends on itself and on the answer to its own request alone (`Sound.follows`). -/

namespace HeroPage

/-- What a step is to one entrance. -/
inductive Cue where
  | idle
  /-- The frame that it waited for, with the answer to the request for a further one. -/
  | frame (now : Float) (answer : Option Nat)
  | timeout
  /-- It leaves the page, while its timer is pending or not. -/
  | unmount (pending : Bool)

def Cue.keepsTimer : Cue → Bool
  | .timeout => false
  | .unmount _ => false
  | _ => true

namespace Entrance

def follow (e : Entrance) : Cue → Entrance
  | .idle => e
  | .frame now answer =>
    if (e.draw now).controller.isSettled then e.draw now
    else { e.draw now with frame := answer }
  | .timeout => if e.controller.isSettled then e else e.force
  | .unmount _ => e.leave

@[simp] theorem follow_timer (e : Entrance) (c : Cue) : (e.follow c).timer = e.timer := by
  cases c with
  | frame now answer =>
    simp only [follow]
    split <;> rfl
  | timeout =>
    simp only [follow]
    split <;> rfl
  | _ => rfl

def events (thrown : String) (e : Entrance) : Cue → List Event
  | .idle => []
  | .frame now answer =>
    if (e.draw now).controller.isSettled then []
    else
      match answer with
      | some id => [.requested id]
      | none => [.refused, .logged (.refused thrown)]
  | .timeout =>
    if e.controller.isSettled then []
    else
      .logged (.forced (settleMillis e.controller.transition)) :: e.frame.toList.map .cancelled
  | .unmount pending =>
    e.frame.toList.map .cancelled ++ if pending then e.timer.toList.map .timerCleared else []

end Entrance

namespace Scheduler

def pending (q : Scheduler) (i : Nat) : Bool := q.timers.any fun t => t.owner == i

theorem pending_iff {q : Scheduler} {i : Nat} :
    q.pending i = true ↔ ∃ t ∈ q.timers, t.owner = i := by
  simp [pending]

theorem pending_dropTimer {q : Scheduler} {i id : Nat}
    (h : ∀ t ∈ q.timers, t.owner = i → t.id ≠ id) : (q.dropTimer id).pending i = q.pending i := by
  rw [Bool.eq_iff_iff, pending_iff, pending_iff]
  simp only [mem_dropTimer_timers]
  exact ⟨fun ⟨t, ht, ho⟩ => ⟨t, ht.1, ho⟩, fun ⟨t, ht, ho⟩ => ⟨t, ⟨ht, h t ht ho⟩, ho⟩⟩

end Scheduler

namespace Stage

def own (i : Nat) (trace : List Entry) : List Event :=
  trace.filterMap fun x => if x.owner = i then some x.event else none

@[simp] theorem own_nil (i : Nat) : own i [] = [] := rfl

@[simp] theorem own_append (i : Nat) (trace rest : List Entry) :
    own i (trace ++ rest) = own i trace ++ own i rest := List.filterMap_append

@[simp] theorem own_cons_self (i : Nat) (x : Event) (trace : List Entry) :
    own i (⟨i, x⟩ :: trace) = x :: own i trace := by
  simp [own]

theorem own_eq_nil {i : Nat} {trace : List Entry} (h : ∀ x ∈ trace, x.owner ≠ i) :
    own i trace = [] := by
  simpa [own] using h

/-- The answer to entrance `i` if it asks for a further frame, none if it has settled. -/
def reply (b : Browser) (s : Stage) (now : Float) (i : Nat) (e : Entrance) : Option Nat :=
  if (e.draw now).controller.isSettled then none else (s.scheduler.request b i).2

/-- The answer that it gets while frames are given out: those ahead of it ask first. -/
def answer (b : Browser) (s : Stage) (now : Float) (i : Nat) (e : Entrance) : Option Nat :=
  let ahead := s.scheduler.frames.takeWhile fun t => t.owner != i
  (s.taken.deliverAll b now ahead).1.reply b now i e

def cue (b : Browser) (s : Stage) (i : Nat) (e : Entrance) : Step → Cue
  | .frame now => if e.frame.isSome then .frame now (s.answer b now i e) else .idle
  | .timeout id => if s.scheduler.pending i ∧ e.timer = some id then .timeout else .idle
  | .unmount j => if j = i ∧ e.mounted then .unmount (s.scheduler.pending i) else .idle
  | .mount _ _ => .idle

theorem owner_of_release {q : Scheduler} {i : Nat} {e : Entrance} {x : Entry}
    (h : x ∈ (release q i e).2) : x.owner = i := by
  unfold release at h
  split at h
  · simp at h
  · simp only [List.mem_singleton] at h
    rw [h]

theorem owner_of_clear {q : Scheduler} {i : Nat} {e : Entrance} {x : Entry}
    (h : x ∈ (clear q i e).2) : x.owner = i := by
  unfold clear at h
  split at h
  · simp at h
  · split at h
    · simp only [List.mem_singleton] at h
      rw [h]
    · simp at h

namespace Kept
variable {q : Scheduler} {es : List Entrance} {i id : Nat} {e : Entrance}

theorem pending_eq (h : Kept q es) (hi : es[i]? = some e) (hm : e.mounted = true)
    (ht : e.timer = some id) : q.pending i = (q.findTimer? id).isSome := by
  rw [Bool.eq_iff_iff, Scheduler.pending_iff, Option.isSome_iff_exists]
  constructor
  · rintro ⟨t, htm, ho⟩
    obtain rfl : t.id = id := Option.some.inj ((h.id_eq hi htm ho).symm.trans ht)
    exact ⟨t, h.findTimer?_of_mem htm⟩
  · rintro ⟨t, hf⟩
    obtain ⟨htm, rfl⟩ := Scheduler.findTimer?_some hf
    exact ⟨t, htm, h.owner_eq hi hm ht htm⟩

theorem pending_of_none (h : Kept q es) (hi : es[i]? = some e) (ht : e.timer = none) :
    q.pending i = false := by
  rw [Bool.eq_false_iff, ne_eq, Scheduler.pending_iff]
  rintro ⟨t, htm, ho⟩
  simp [h.id_eq hi htm ho] at ht

theorem pending_dropped (h : Kept q es) (hi : es[i]? = some e) (ht : e.timer = some id) :
    (q.dropTimer id).pending i = false := by
  rw [Bool.eq_false_iff, ne_eq, Scheduler.pending_iff]
  rintro ⟨t, htm, ho⟩
  obtain ⟨htm, hne⟩ := Scheduler.mem_dropTimer_timers.mp htm
  exact hne (Option.some.inj ((h.id_eq hi htm ho).symm.trans ht))

end Kept

/-- A part of a step that leaves entrance `i` alone. -/
structure Spares (i : Nat) (s : Stage) (r : Stage × List Entry) : Prop where
  entrance : r.1.entrances[i]? = s.entrances[i]?
  silent : own i r.2 = []
  pending : r.1.scheduler.pending i = s.scheduler.pending i

namespace Spares
variable {b : Browser} {s : Stage} {i j : Nat}

theorem refl (i : Nat) (s : Stage) : Spares i s (s, []) := ⟨rfl, rfl, rfl⟩

theorem trans {r : Stage × List Entry} {t : Stage} {trace : List Entry} (h : Spares i s r)
    (h' : Spares i r.1 (t, trace)) : Spares i s (t, r.2 ++ trace) :=
  ⟨h'.entrance.trans h.entrance, by simp [h.silent, h'.silent], h'.pending.trans h.pending⟩

theorem put {q : Scheduler} {e : Entrance} {trace : List Entry} (hij : j ≠ i)
    (ht : q.timers = s.scheduler.timers) (htrace : ∀ x ∈ trace, x.owner = j) :
    Spares i s ({ s with scheduler := q }.put j e, trace) where
  entrance := List.getElem?_set_ne hij
  silent := own_eq_nil fun x hx => by rw [htrace x hx]; exact hij
  pending := by simp only [Stage.put, Scheduler.pending, ht]

theorem deliver (now : Float) (hij : j ≠ i) : Spares i s (s.deliver b now j) := by
  rcases deliver_cases b s now j with h | ⟨e, -, h | h | h⟩
  · rw [h]
    exact refl i s
  · rw [h]
    exact put hij rfl (by simp)
  · rw [h]
    exact put hij rfl (by simp)
  · rw [h]
    exact put hij rfl (by simp)

theorem deliverAll (now : Float) {due : List Ticket} (h : ∀ t ∈ due, t.owner ≠ i) :
    Spares i s (s.deliverAll b now due) := by
  induction due generalizing s with
  | nil => exact refl i s
  | cons t due ih =>
    rw [List.forall_mem_cons] at h
    exact (deliver now h.1).trans (ih h.2)

theorem fire {t : Timer} (h : s.Sound []) (ht : t ∈ s.scheduler.timers) (hti : t.owner ≠ i) :
    Spares i s (s.fire t) := by
  have hdrop : (s.scheduler.dropTimer t.id).pending i = s.scheduler.pending i :=
    Scheduler.pending_dropTimer fun u hu ho hid => hti (h.kept.unique hu ht hid ▸ ho)
  rcases fire_cases s t with hfire | ⟨e, -, hfire⟩
  · rw [hfire]
    exact ⟨rfl, rfl, hdrop⟩
  · rw [hfire]
    refine ⟨List.getElem?_set_ne hti, own_eq_nil fun x hx => ?_, ?_⟩
    · rcases List.mem_cons.mp hx with rfl | hx
      · exact hti
      · rw [owner_of_release hx]
        exact hti
    · simpa [Stage.put, Scheduler.pending] using hdrop

theorem takeDown {e : Entrance} (h : s.Sound []) (he : s.entrances[j]? = some e)
    (hm : e.mounted = true) (hij : j ≠ i) : Spares i s (s.takeDown j e) := by
  refine ⟨List.getElem?_set_ne hij, own_eq_nil fun x hx => ?_, ?_⟩
  · rcases List.mem_append.mp hx with hx | hx
    · rw [owner_of_release hx]
      exact hij
    · rw [owner_of_clear hx]
      exact hij
  · have hrelease : (release s.scheduler j e).1.pending i = s.scheduler.pending i := by
      simp [Scheduler.pending]
    cases ht : e.timer with
    | none => simpa [Stage.takeDown, Stage.put, clear_of_none ht] using hrelease
    | some id =>
      simp only [Stage.takeDown, Stage.put, clear_of_some ht]
      rw [Scheduler.pending_dropTimer, hrelease]
      intro t htm ho hid
      rw [release_timers] at htm
      exact hij ((h.kept.owner_eq he hm (hid ▸ ht) htm).symm.trans ho)

theorem add {q : Scheduler} {e : Entrance} {trace : List Entry} (hi : i < s.entrances.length)
    (hq : q.pending i = s.scheduler.pending i)
    (htrace : ∀ x ∈ trace, x.owner = s.entrances.length) :
    Spares i s ({ s with scheduler := q }.add e, trace) where
  entrance := List.getElem?_append_left hi
  silent := own_eq_nil fun x hx => by rw [htrace x hx]; exact Nat.ne_of_gt hi
  pending := hq

theorem mount (hi : i < s.entrances.length) (t : Transition) : Spares i s (s.mount b t) := by
  rcases mount_cases b s t with ⟨f, h⟩ | h | h | h
  · rw [h]
    exact add hi rfl (by simp)
  · rw [h]
    exact add hi rfl (by simp)
  · rw [h]
    exact add hi rfl (by simp)
  · rw [h]
    have hne : s.entrances.length ≠ i := Nat.ne_of_gt hi
    exact add hi (by simp [Scheduler.pending, Scheduler.setTimer, Scheduler.grant, hne]) (by simp)

end Spares

structure Follows (b : Browser) (i : Nat) (e : Entrance) (s : Stage) (c : Cue)
    (r : Stage × List Entry) : Prop where
  entrance : r.1.entrances[i]? = some (e.follow c)
  events : own i r.2 = e.events b.thrown c
  pending : r.1.scheduler.pending i = (s.scheduler.pending i && c.keepsTimer)

namespace Follows
variable {b : Browser} {s : Stage} {i : Nat} {e : Entrance}

theorem idle {r : Stage × List Entry} (he : s.entrances[i]? = some e) (h : Spares i s r) :
    Follows b i e s .idle r :=
  ⟨h.entrance.trans he, h.silent, by simp [h.pending, Cue.keepsTimer]⟩

theorem deliver {due : List Ticket} {t : Ticket} (h : s.Sound (t :: due))
    (he : s.entrances[t.owner]? = some e) (now : Float) :
    Follows b t.owner e s (.frame now (s.reply b now t.owner e)) (s.deliver b now t.owner) := by
  obtain ⟨e₀, he₀, -, -, -, hc⟩ := h.owner_of_due
  obtain rfl : e₀ = e := Option.some.inj (he₀.symm.trans he)
  have hi := (List.getElem?_eq_some_iff.mp he).1
  cases hs : (e₀.draw now).controller.isSettled with
  | true =>
    rw [deliver_of_settled he hc hs]
    exact ⟨by simp [put, hi, Entrance.follow, hs], by simp [Entrance.events, hs],
      by simp [put, Cue.keepsTimer]⟩
  | false =>
    by_cases hq : s.scheduler.requests + 1 ∈ b.refused
    · rw [deliver_of_refused he hc hs hq, reply, Scheduler.request_of_mem _ hq]
      refine ⟨?_, by simp [Entrance.events, hs],
        by simp [put, Cue.keepsTimer, Scheduler.pending, Scheduler.refuse]⟩
      simp only [put, List.getElem?_set_self hi, Entrance.follow, hs, Bool.false_eq_true,
        ↓reduceIte]
      rfl
    · rw [deliver_of_granted he hc hs hq, reply, Scheduler.request_of_not_mem _ hq]
      exact ⟨by simp [put, hi, Entrance.follow, hs], by simp [Entrance.events, hs],
        by simp [put, Cue.keepsTimer, Scheduler.pending, Scheduler.grant]⟩

theorem between {c : Cue} {r : Stage × List Entry} {r' r'' : Stage × List Entry}
    (h : Spares i s r) (h' : Follows b i e r.1 c r') (h'' : Spares i r'.1 r'') :
    Follows b i e s c (r''.1, r.2 ++ (r'.2 ++ r''.2)) :=
  ⟨h''.entrance.trans h'.entrance, by simp [h.silent, h'.events, h''.silent],
    by rw [h''.pending, h'.pending, h.pending]⟩

theorem frame (h : s.Sound []) (he : s.entrances[i]? = some e) (now : Float) :
    Follows b i e s (s.cue b i e (.frame now)) (s.frame b now) := by
  cases hf : e.frame with
  | none =>
    have hspares : Spares i s.taken (s.frame b now) :=
      Spares.deliverAll now fun t ht ho => by simp [h.id_eq he ht ho] at hf
    simp only [cue, hf, Option.isSome_none, Bool.false_eq_true, ↓reduceIte]
    exact idle he ⟨hspares.entrance, hspares.silent, hspares.pending⟩
  | some id =>
    obtain ⟨ahead, behind, hsplit, hahead, hbehind⟩ := h.frames_split he hf
    -- the entrance hears of the frame between those who stand before it and those behind it
    let r := s.taken.deliverAll b now ahead
    have hbefore : Spares i s.taken r := Spares.deliverAll now hahead
    have hdue : r.1.Sound (⟨id, i⟩ :: behind) := (hsplit ▸ h.taken).deliverAll now
    have hself : Follows b i e r.1 (.frame now (r.1.reply b now i e))
        (r.1.deliver b now i) := deliver hdue (hbefore.entrance.trans he) now
    have hafter : Spares i (r.1.deliver b now i).1
        ((r.1.deliver b now i).1.deliverAll b now behind) := Spares.deliverAll now hbehind
    have hfollows := between hbefore hself hafter
    have hcue : s.cue b i e (.frame now) = .frame now (r.1.reply b now i e) := by
      have htake : s.scheduler.frames.takeWhile (fun t => t.owner != i) = ahead := by
        rw [hsplit, List.takeWhile_append_of_pos (by simpa using hahead)]
        simp
      simp [cue, answer, hf, htake, r]
    rw [hcue, Stage.frame, hsplit, deliverAll_append]
    exact ⟨hfollows.entrance, hfollows.events, hfollows.pending⟩

theorem fire {t : Timer} (h : s.Sound []) (ht : t ∈ s.scheduler.timers)
    (he : s.entrances[t.owner]? = some e) : Follows b t.owner e s .timeout (s.fire t) := by
  have hi := (List.getElem?_eq_some_iff.mp he).1
  obtain ⟨e₀, he₀, hm, hid, hmillis⟩ := h.kept.owner_of_mem ht
  obtain rfl : e₀ = e := Option.some.inj (he₀.symm.trans he)
  have hgone : (s.scheduler.dropTimer t.id).pending t.owner = false :=
    h.kept.pending_dropped he₀ hid
  cases hs : e₀.controller.isSettled with
  | true =>
    rw [fire_of_settled he hs]
    exact ⟨by simp [Entrance.follow, hs, he], by simp [Entrance.events, hs],
      by simp [Cue.keepsTimer, hgone]⟩
  | false =>
    rw [fire_of_unsettled he hs]
    refine ⟨by simp [put, hi, Entrance.follow, hs], ?_, ?_⟩
    · cases hf : e₀.frame <;> simp [Entrance.events, hs, release, hf, hmillis]
    · simpa [put, Scheduler.pending, Cue.keepsTimer] using hgone

theorem takeDown (h : s.Sound []) (he : s.entrances[i]? = some e) (hm : e.mounted = true) :
    Follows b i e s (.unmount (s.scheduler.pending i)) (s.takeDown i e) := by
  have hi := (List.getElem?_eq_some_iff.mp he).1
  have hkept : Kept (release s.scheduler i e).1 s.entrances :=
    h.kept.of_eq (release_timers ..) (release_lastTimer ..)
  have hpending : (release s.scheduler i e).1.pending i = s.scheduler.pending i := by
    simp [Scheduler.pending]
  have hreleased : own i (release s.scheduler i e).2 = e.frame.toList.map .cancelled := by
    cases hf : e.frame <;> simp [release, hf]
  have hfollow : (s.takeDown i e).1.entrances[i]? = some (e.follow (.unmount true)) := by
    simp [Stage.takeDown, put, hi, Entrance.follow]
  cases ht : e.timer with
  | none =>
    have hnone := hkept.pending_of_none he ht
    refine ⟨hfollow, ?_, ?_⟩
    · simp [Stage.takeDown, clear_of_none ht, hreleased, Entrance.events, ht]
    · simpa [Stage.takeDown, put, clear_of_none ht, Cue.keepsTimer] using hnone
  | some id =>
    have heq := hkept.pending_eq he hm ht
    refine ⟨hfollow, ?_, ?_⟩
    · rw [hpending] at heq
      simp only [Stage.takeDown, own_append, hreleased, Entrance.events, ht, heq]
      cases hf : (release s.scheduler i e).1.findTimer? id <;> simp [clear, ht, hf]
    · simpa [Stage.takeDown, put, clear_of_some ht, Cue.keepsTimer] using
        hkept.pending_dropped he ht

end Follows

theorem Sound.follows {b : Browser} {s : Stage} {i : Nat} {e : Entrance} (h : s.Sound [])
    (he : s.entrances[i]? = some e) (step : Step) :
    Follows b i e s (s.cue b i e step) ((s.step b step).stage, (s.step b step).trace) := by
  cases step with
  | frame now => exact Follows.frame h he now
  | timeout id =>
    cases hf : s.scheduler.findTimer? id with
    | none =>
      rw [step_timeout_of_none hf]
      have hcue : s.cue b i e (.timeout id) = .idle := by
        simp only [cue, ite_eq_right_iff]
        rintro ⟨hp, ht⟩
        obtain ⟨t, htm, ho⟩ := Scheduler.pending_iff.mp hp
        have hid := Option.some.inj ((h.kept.id_eq he htm ho).symm.trans ht)
        exact absurd hid (Scheduler.findTimer?_eq_none_iff.mp hf t htm)
      rw [hcue]
      exact .idle he (.refl i s)
    | some t =>
      rw [step_timeout_of_some hf]
      obtain ⟨htm, rfl⟩ := Scheduler.findTimer?_some hf
      by_cases ho : t.owner = i
      · subst ho
        have hcue : s.cue b t.owner e (.timeout t.id) = .timeout := by
          simp [cue, Scheduler.pending_iff.mpr ⟨t, htm, rfl⟩, h.kept.id_eq he htm rfl]
        rw [hcue]
        exact Follows.fire h htm he
      · have hcue : s.cue b i e (.timeout t.id) = .idle := by
          simp only [cue, ite_eq_right_iff]
          rintro ⟨hp, ht⟩
          obtain ⟨u, hum, huo⟩ := Scheduler.pending_iff.mp hp
          have hid := Option.some.inj ((h.kept.id_eq he hum huo).symm.trans ht)
          exact absurd ((h.kept.unique hum htm hid) ▸ huo) ho
        rw [hcue]
        exact .idle he (.fire h htm ho)
  | unmount j =>
    by_cases hm : s.isMounted j = true
    · obtain ⟨e', he', hm'⟩ := exists_of_isMounted hm
      simp only [Stage.step, unmount_of_mounted he' hm']
      by_cases hj : j = i
      · subst hj
        obtain rfl : e = e' := Option.some.inj (he.symm.trans he')
        have hcue : s.cue b j e (.unmount j) = .unmount (s.scheduler.pending j) := by
          simp [cue, hm']
        rw [hcue]
        exact Follows.takeDown h he hm'
      · have hcue : s.cue b i e (.unmount j) = .idle := by simp [cue, hj]
        rw [hcue]
        exact .idle he (.takeDown h he' hm' hj)
    · have hcue : s.cue b i e (.unmount j) = .idle := by
        simp only [cue, ite_eq_right_iff]
        rintro ⟨rfl, hm'⟩
        exact absurd ((isMounted_of_getElem? he).trans hm') hm
      simp only [Stage.step, unmount_of_not_mounted (by simpa using hm), hcue]
      exact .idle he (.refl i s)
  | mount t now =>
    have hclock := Spares.mount (b := b) (s := { s with clock := now })
      (List.getElem?_eq_some_iff.mp he).1 t
    exact .idle he ⟨hclock.entrance, hclock.silent, hclock.pending⟩

end Stage

end HeroPage
