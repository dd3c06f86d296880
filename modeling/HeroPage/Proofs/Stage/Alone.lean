import HeroPage.Proofs.Stage.Renumber
set_option autoImplicit false

/-! What an entrance shows and puts on record in a run is what it does in the run without any other, if the
browser answers its requests there as it does here; only the numbers of its frames and its timer are
others. The two runs are related step by step (`Mirrors`). -/

namespace HeroPage

/-- The browser that answers the requests of one entrance as they are answered in `events`. -/
def Browser.alone (b : Browser) (events : List Event) : Browser :=
  { b with
    refused := (answers events).zipIdx.filterMap fun p => if p.1 then none else some (p.2 + 1) }

theorem Browser.mem_alone_refused {b : Browser} {events : List Event} {k : Nat} :
    k + 1 ∈ (b.alone events).refused ↔ (answers events)[k]? = some false := by
  simp only [alone, List.mem_filterMap, Prod.exists, List.mem_zipIdx_iff_getElem?]
  constructor
  · rintro ⟨answer, n, hget, hite⟩
    cases answer with
    | true => simp at hite
    | false =>
      simp only [Bool.false_eq_true, ↓reduceIte, Option.some.injEq, Nat.add_right_cancel_iff]
        at hite
      exact hite ▸ hget
  · intro hget
    exact ⟨false, k, hget, rfl⟩

theorem answers_getElem? {full past more : List Event} {x : Event} {answer : Bool}
    (h : past ++ x :: more <+: full) (hx : x.answer? = some answer) :
    (answers full)[(answers past).length]? = some answer := by
  obtain ⟨rest, rfl⟩ := h
  simp [answers, hx]

theorem rank_granted {full past more : List Event} {id : Nat} (hn : (granted full).Nodup)
    (h : past ++ .requested id :: more <+: full) :
    rank (granted full) id = (granted past).length + 1 := by
  obtain ⟨rest, rfl⟩ := h
  have hsplit : granted (past ++ .requested id :: more ++ rest) =
      granted past ++ id :: granted (more ++ rest) := by
    simp [granted, Event.granted?]
  rw [hsplit] at hn ⊢
  exact rank_append_cons fun hmem => (List.nodup_append.mp hn).2.2 id hmem id (by simp) rfl

namespace Stage

/-- A step as it is in the run that the entrance with number `i` and the given timer has for itself
alone, if the entrance hears of it at all. -/
def Step.alone? (i : Nat) (timer : Option Nat) : Step → Option Step
  | .frame now => some (.frame now)
  | .timeout id => if timer = some id then some (.timeout 1) else none
  | .unmount j => if j = i then some (.unmount 0) else none
  | .mount _ _ => none

theorem Step.mounted?_of_alone? {i : Nat} {timer : Option Nat} {step step' : Step}
    (h : step.alone? i timer = some step') : step'.mounted? = none := by
  cases step with
  | frame now =>
    obtain rfl := Option.some.inj h
    rfl
  | timeout id =>
    simp only [alone?, Option.ite_none_right_eq_some, Option.some.injEq] at h
    rw [← h.2]
    rfl
  | unmount j =>
    simp only [alone?, Option.ite_none_right_eq_some, Option.some.injEq] at h
    rw [← h.2]
    rfl
  | mount t now => exact absurd h (by simp [alone?])

theorem events_eq_own {trace : List Entry} (h : ∀ i, 1 ≤ i → own i trace = []) :
    events trace = own 0 trace := by
  induction trace with
  | nil => rfl
  | cons x trace ih =>
    have hx : x.owner = 0 := by
      by_contra hne
      have hown := h x.owner (by omega)
      simp [own] at hown
    have hrest : ∀ i, 1 ≤ i → own i trace = [] := by
      intro i hi
      have hown := h i hi
      rw [show x :: trace = [x] ++ trace from rfl, own_append, List.append_eq_nil_iff] at hown
      exact hown.2
    simpa [events, own, hx] using ih hrest

theorem own_eq_events {b : Browser} {s : Stage} {e : Entrance} {step : Step} (h : s.Sound [])
    (he : (s.step b step).stage.entrances = [e]) :
    own 0 (s.step b step).trace = events (s.step b step).trace := by
  refine (events_eq_own fun i hi => h.silent step ?_).symm
  simpa [he] using hi

/-- The stage `s'` has one entrance, and that is `e`, which is entrance `i` on `s`, under other
numbers. So far `e` has put `past` on record; in the end it is `full`. -/
structure Mirrors (full : List Event) (timer : Option Nat) (i : Nat) (past : List Event)
    (s : Stage) (e : Entrance) (s' : Stage) : Prop where
  sound : s.Sound []
  alone : s'.Sound []
  entrance : s.entrances[i]? = some e
  entrances : s'.entrances = [e.renumber (rank (granted full)) (rank timer.toList)]
  timer : e.timer = timer
  pending : s'.scheduler.pending 0 = s.scheduler.pending i
  requests : s'.scheduler.requests = (answers past).length
  lastFrame : s'.scheduler.lastFrame = (granted past).length

namespace Mirrors
variable {b : Browser} {full past : List Event} {timer : Option Nat} {i : Nat} {s s' : Stage}
  {e : Entrance}

theorem entrance' (h : Mirrors full timer i past s e s') :
    s'.entrances[0]? = some (e.renumber (rank (granted full)) (rank timer.toList)) := by
  simp [h.entrances]

theorem takeWhile_frames (h : Mirrors full timer i past s e s') :
    s'.scheduler.frames.takeWhile (fun t => t.owner != 0) = [] := by
  have howner : ∀ t ∈ s'.scheduler.frames, t.owner = 0 := by
    intro t ht
    have hlt := h.alone.owner_lt ht
    rw [h.entrances, List.length_singleton] at hlt
    omega
  cases hf : s'.scheduler.frames with
  | nil => rfl
  | cons t ts => simp [howner t (by simp [hf])]

theorem answer_eq (h : Mirrors full timer i past s e s') (hn : (granted full).Nodup)
    {now : Float} (hf : e.frame.isSome = true)
    (hfull : past ++ own i (s.step b (.frame now)).trace <+: full) :
    s'.answer (b.alone full) now 0 (e.renumber (rank (granted full)) (rank timer.toList)) =
      (s.answer b now i e).map (rank (granted full)) := by
  have hevents := (h.sound.follows (b := b) h.entrance (.frame now)).events
  simp only [cue, hf, ↓reduceIte] at hevents
  rw [hevents] at hfull
  rw [answer, h.takeWhile_frames]
  cases hd : (e.draw now).controller.isSettled with
  | true => simp [answer, reply, hd]
  | false =>
    simp only [deliverAll, reply, Entrance.draw_renumber, Entrance.renumber_controller, hd,
      Bool.false_eq_true, ↓reduceIte]
    -- what is on record so far counts the requests, so the next answer in `full` is this one
    cases ha : s.answer b now i e with
    | none =>
      simp only [ha, Entrance.events, hd, Bool.false_eq_true, ↓reduceIte] at hfull
      have hrefused : s'.taken.scheduler.requests + 1 ∈ (b.alone full).refused := by
        rw [Browser.mem_alone_refused, taken, h.requests]
        exact answers_getElem? hfull rfl
      rw [Scheduler.request_of_mem _ hrefused]
      rfl
    | some id =>
      simp only [ha, Entrance.events, hd, Bool.false_eq_true, ↓reduceIte] at hfull
      have hgranted : s'.taken.scheduler.requests + 1 ∉ (b.alone full).refused := by
        rw [Browser.mem_alone_refused, taken, h.requests, answers_getElem? hfull rfl]
        decide
      rw [Scheduler.request_of_not_mem _ hgranted, taken, h.lastFrame, Option.map_some,
        rank_granted hn hfull]

theorem cue_eq (h : Mirrors full timer i past s e s') (hn : (granted full).Nodup)
    {step step' : Step} (hstep : step.alone? i timer = some step')
    (hfull : past ++ own i (s.step b step).trace <+: full) :
    s'.cue (b.alone full) 0 (e.renumber (rank (granted full)) (rank timer.toList)) step' =
      (s.cue b i e step).renumber (rank (granted full)) := by
  cases step with
  | frame now =>
    obtain rfl := Option.some.inj hstep
    by_cases hf : e.frame.isSome = true
    · simp [cue, hf, h.answer_eq hn hf hfull, Cue.renumber]
    · simp [cue, hf, Cue.renumber]
  | timeout id =>
    simp only [Step.alone?, Option.ite_none_right_eq_some, Option.some.injEq] at hstep
    obtain ⟨htimer, rfl⟩ := hstep
    have hrank : rank [id] id = 1 := by simp [rank]
    cases hp : s.scheduler.pending i <;>
      simp [cue, h.pending, h.timer, htimer, hp, hrank, Cue.renumber]
  | unmount j =>
    simp only [Step.alone?, Option.ite_none_right_eq_some, Option.some.injEq] at hstep
    obtain ⟨rfl, rfl⟩ := hstep
    cases hm : e.mounted <;> simp [cue, h.pending, hm, Cue.renumber]
  | mount t now => exact absurd hstep (by simp [Step.alone?])

theorem cue_idle (h : Mirrors full timer i past s e s') {step : Step}
    (hstep : step.alone? i timer = none) : s.cue b i e step = .idle := by
  cases step with
  | frame now => exact absurd hstep (by simp [Step.alone?])
  | timeout id =>
    simp only [Step.alone?, ite_eq_right_iff, reduceCtorEq, imp_false] at hstep
    simp [cue, h.timer, hstep]
  | unmount j =>
    simp only [Step.alone?, ite_eq_right_iff, reduceCtorEq, imp_false] at hstep
    simp [cue, hstep]
  | mount t now => rfl

theorem step (h : Mirrors full timer i past s e s') (hn : (granted full).Nodup)
    {step step' : Step} (hstep : step.alone? i timer = some step')
    (hfull : past ++ own i (s.step b step).trace <+: full) :
    Mirrors full timer i (past ++ own i (s.step b step).trace) (s.step b step).stage
        (e.follow (s.cue b i e step)) (s'.step (b.alone full) step').stage ∧
      events (s'.step (b.alone full) step').trace =
        (own i (s.step b step).trace).map
          (Event.renumber (rank (granted full)) (rank timer.toList)) := by
  have hf := h.sound.follows (b := b) h.entrance step
  have hf' := h.alone.follows (b := b.alone full) h.entrance' step'
  rw [h.cue_eq hn hstep hfull] at hf'
  have hentrances : (s'.step (b.alone full) step').stage.entrances =
      [(e.follow (s.cue b i e step)).renumber (rank (granted full)) (rank timer.toList)] := by
    have hlength := length_step (b.alone full) s' step'
    rw [h.entrances, Step.mounted?_of_alone? hstep] at hlength
    obtain ⟨x, hx⟩ := List.length_eq_one_iff.mp hlength
    have hget := hf'.entrance
    simp only [hx, List.getElem?_cons_zero, Option.some.injEq, Entrance.follow_renumber] at hget
    rw [hx, hget]
  have hevents : events (s'.step (b.alone full) step').trace =
      (own i (s.step b step).trace).map
        (Event.renumber (rank (granted full)) (rank timer.toList)) := by
    rw [← own_eq_events h.alone hentrances, hf'.events, hf.events]
    exact Entrance.events_renumber _ _ b.thrown e _
  have hcounts := Counts.step (b := b.alone full) (s := s') step'
  refine ⟨⟨h.sound.step step, h.alone.step step', hf.entrance, hentrances, ?_, ?_, ?_, ?_⟩, hevents⟩
  · rw [Entrance.follow_timer, h.timer]
  · rw [hf'.pending, hf.pending, h.pending]
    cases s.cue b i e step <;> rfl
  · rw [hcounts.requests, hevents, answers_renumber, h.requests, answers_append, List.length_append]
  · rw [hcounts.lastFrame_eq, hevents, granted_renumber, List.length_map, h.lastFrame,
      granted_append, List.length_append]

theorem skip (h : Mirrors full timer i past s e s') {step : Step}
    (hstep : step.alone? i timer = none) :
    own i (s.step b step).trace = [] ∧ Mirrors full timer i past (s.step b step).stage e s' := by
  have hf := h.sound.follows (b := b) h.entrance step
  rw [h.cue_idle hstep] at hf
  refine ⟨hf.events, h.sound.step step, h.alone, hf.entrance, h.entrances, h.timer, ?_, h.requests,
    h.lastFrame⟩
  rw [hf.pending, h.pending]
  exact (Bool.and_true _).symm

theorem after (h : Mirrors full timer i past s e s') (hn : (granted full).Nodup)
    (steps : List Step) (hfull : past ++ own i (s.record b steps) <+: full) :
    (∃ e', Mirrors full timer i (past ++ own i (s.record b steps)) (s.after b steps) e'
        (s'.after (b.alone full) (steps.filterMap (Step.alone? i timer)))) ∧
      events (s'.record (b.alone full) (steps.filterMap (Step.alone? i timer))) =
        (own i (s.record b steps)).map
          (Event.renumber (rank (granted full)) (rank timer.toList)) := by
  induction steps generalizing past s e s' with
  | nil => exact ⟨⟨e, by simpa [Stage.after] using h⟩, rfl⟩
  | cons step steps ih =>
    rw [record_cons, own_append, ← List.append_assoc] at hfull ⊢
    cases hstep : step.alone? i timer with
    | none =>
      obtain ⟨hown, hskip⟩ := h.skip (b := b) hstep
      rw [hown, List.append_nil] at hfull ⊢
      rw [List.filterMap_cons_none hstep]
      exact ih hskip hfull
    | some step' =>
      have hnow : past ++ own i (s.step b step).trace <+: full :=
        (List.prefix_append _ _).trans hfull
      obtain ⟨hmirrors, hevents⟩ := h.step hn hstep hnow
      obtain ⟨hafter, hrecord⟩ := ih hmirrors hfull
      rw [List.filterMap_cons_some hstep]
      refine ⟨hafter, ?_⟩
      rw [record_cons, events_append, hevents, hrecord, List.map_append]

end Mirrors

section
variable {b : Browser} {full : List Event} {t : Transition} {now : Float}
  {offer : Option (Nat × Nat)}

theorem offer_alone (ha : admits b t = .ok ()) (hm : b.reducedMotion = false)
    (hn : (granted full).Nodup) (hfull : Entrance.arrival b t offer <+: full) :
    ({} : Scheduler).offer (b.alone full) =
      offer.map (Prod.map (rank (granted full))
        (rank (Entrance.arrive b t now offer).timer.toList)) := by
  cases offer with
  | none =>
    have hprefix : [.queried] ++ .refused ::
        [.logged (.skipped (.scheduler (.refused b.thrown)))] <+: full := by
      simpa [Entrance.arrival, ha, hm] using hfull
    have hrefused : 0 + 1 ∈ (b.alone full).refused :=
      Browser.mem_alone_refused.mpr (answers_getElem? hprefix rfl)
    exact if_pos hrefused
  | some offer =>
    obtain ⟨frame, timer⟩ := offer
    have hprefix : [.queried] ++ .requested frame :: [.timerSet timer (settleMillis t)] <+:
        full := by
      simpa [Entrance.arrival, ha, hm] using hfull
    have hgranted : 0 + 1 ∉ (b.alone full).refused := by
      have hanswer : (answers full)[0]? = some true := answers_getElem? hprefix rfl
      rw [Browser.mem_alone_refused, hanswer]
      decide
    have hframe : rank (granted full) frame = 0 + 1 := rank_granted hn hprefix
    have htimer :
        rank (Entrance.arrive b t now (some (frame, timer))).timer.toList timer = 0 + 1 := by
      simp [Entrance.arrive, ha, hm, Entrance.starting, rank]
    rw [Option.map_some, Prod.map_apply, hframe, htimer]
    exact if_neg hgranted

theorem arrive_alone (hn : (granted full).Nodup) (hfull : Entrance.arrival b t offer <+: full) :
    Entrance.arrive (b.alone full) t now (({} : Scheduler).offer (b.alone full)) =
        (Entrance.arrive b t now offer).renumber (rank (granted full))
          (rank (Entrance.arrive b t now offer).timer.toList) ∧
      Entrance.arrival (b.alone full) t (({} : Scheduler).offer (b.alone full)) =
        (Entrance.arrival b t offer).map (Event.renumber (rank (granted full))
          (rank (Entrance.arrive b t now offer).timer.toList)) := by
  rw [← Entrance.arrive_renumber, ← Entrance.arrival_renumber]
  have hadmits : admits (b.alone full) t = admits b t := rfl
  have hmotion : (b.alone full).reducedMotion = b.reducedMotion := rfl
  cases ha : admits b t with
  | error f => simp [Entrance.arrive, Entrance.arrival, hadmits, ha]
  | ok _ =>
    cases hm : b.reducedMotion with
    | true => simp [Entrance.arrive, Entrance.arrival, hadmits, hmotion, ha, hm]
    | false =>
      rw [offer_alone ha hm hn hfull]
      exact ⟨rfl, rfl⟩

end

theorem Sound.mirrors {b : Browser} {full : List Event} {s : Stage} (h : s.Sound [])
    (t : Transition) (now : Float) (hn : (granted full).Nodup)
    (hfull : Entrance.arrival b t (s.scheduler.offer b) <+: full) :
    let e := Entrance.arrive b t now (s.scheduler.offer b)
    Mirrors full e.timer s.entrances.length (Entrance.arrival b t (s.scheduler.offer b))
        (s.step b (.mount t now)).stage e ((empty now).step (b.alone full) (.mount t now)).stage ∧
      events ((empty now).step (b.alone full) (.mount t now)).trace =
        (Entrance.arrival b t (s.scheduler.offer b)).map
          (Event.renumber (rank (granted full)) (rank e.timer.toList)) := by
  intro e
  have hclock : { s with clock := now }.Sound [] := ⟨h.each, h.queued, h.kept⟩
  obtain ⟨harrive, harrival⟩ : _ ∧ _ := arrive_alone (b := b) (t := t) hn hfull
  have hempty := empty_sound now
  have hentrances : ((empty now).step (b.alone full) (.mount t now)).stage.entrances =
      [e.renumber (rank (granted full)) (rank e.timer.toList)] := by
    rw [← harrive]
    exact mount_entrances (s := empty now) t
  have hevents : events ((empty now).step (b.alone full) (.mount t now)).trace =
      (Entrance.arrival b t (s.scheduler.offer b)).map
        (Event.renumber (rank (granted full)) (rank e.timer.toList)) := by
    rw [← own_eq_events hempty hentrances, ← harrival]
    exact own_mount (s := empty now) t
  have hpending : ((empty now).step (b.alone full) (.mount t now)).stage.scheduler.pending 0 =
      (s.step b (.mount t now)).stage.scheduler.pending s.entrances.length := by
    calc
      _ = (Entrance.arrive (b.alone full) t now
            (({} : Scheduler).offer (b.alone full))).timer.isSome := hempty.pending_mount t
      _ = e.timer.isSome := by rw [harrive, Entrance.renumber_timer, Option.isSome_map]
      _ = _ := (hclock.pending_mount t).symm
  have hcounts := Counts.step (b := b.alone full) (s := empty now) (.mount t now)
  refine ⟨⟨h.step _, hempty.step _, getElem?_mount (s := { s with clock := now }) t, hentrances,
    rfl, hpending, ?_, ?_⟩, hevents⟩
  · rw [hcounts.requests, hevents, answers_renumber]
    exact Nat.zero_add _
  · rw [hcounts.lastFrame_eq, hevents, granted_renumber, List.length_map]
    exact Nat.zero_add _

/-- The steps of the run that the entrance mounted under number `i` has for itself alone. -/
def aloneSteps (i : Nat) (timer : Option Nat) (t : Transition) (now : Float) (steps : List Step) :
    List Step :=
  .mount t now :: steps.filterMap (Step.alone? i timer)

/-- Of a run in which an entrance is mounted between the steps of `pre` and `post`. -/
theorem same_alone (b : Browser) (clock : Float) (pre : List Step) (t : Transition) (now : Float)
    (post : List Step) :
    let i := ((empty clock).after b pre).entrances.length
    let timer := ((empty clock).after b (pre ++ [.mount t now])).entrances[i]?.bind Entrance.timer
    let alone := b.alone (own i ((empty clock).record b (pre ++ .mount t now :: post)))
    ∃ frames timers : Nat → Nat, frames.Injective ∧ timers.Injective ∧
      ∀ past future, post = past ++ future →
        ((empty now).after alone (aloneSteps i timer t now past)).styles[0]? =
            ((empty clock).after b (pre ++ .mount t now :: past)).styles[i]? ∧
          events ((empty now).record alone (aloneSteps i timer t now past)) =
            (own i ((empty clock).record b (pre ++ .mount t now :: past))).map
              (Event.renumber frames timers) := by
  intro i timer alone
  let s := (empty clock).after b pre
  let s₁ := (s.step b (.mount t now)).stage
  let arrival := Entrance.arrival b t (s.scheduler.offer b)
  let full := own i ((empty clock).record b (pre ++ .mount t now :: post))
  have h : s.Sound [] := (empty_sound clock).after pre
  have hrecord (steps : List Step) :
      own i ((empty clock).record b (pre ++ .mount t now :: steps)) =
        arrival ++ own i (s₁.record b steps) := own_record clock pre t now steps
  have hn : (granted full).Nodup :=
    (granted_nodup b (empty clock) _).sublist ((own_sublist i _).filterMap _)
  have hstart : arrival <+: full := ⟨own i (s₁.record b post), (hrecord post).symm⟩
  have htimer : timer = (Entrance.arrive b t now (s.scheduler.offer b)).timer := by
    have hget := getElem?_mount (b := b) (s := { s with clock := now }) t
    simp only [timer, after_append_cons]
    exact congrArg (fun e? => e?.bind Entrance.timer) hget
  obtain ⟨hmirrors, hevents⟩ := h.mirrors t now hn hstart
  rw [← htimer] at hmirrors hevents
  refine ⟨rank (granted full), rank timer.toList, rank_injective _, rank_injective _,
    fun past future hpost => ?_⟩
  have hfull : arrival ++ own i (s₁.record b past) <+: full := by
    refine ⟨own i ((s₁.after b past).record b future), ?_⟩
    rw [List.append_assoc, ← own_append, ← record_append, ← hpost]
    exact (hrecord post).symm
  obtain ⟨⟨e, hend⟩, hrest⟩ := hmirrors.after hn past hfull
  constructor
  · rw [after_append_cons, styles, styles, List.getElem?_map, List.getElem?_map, hend.entrance]
    exact congrArg (fun es => (es[0]?).map Entrance.css?) hend.entrances
  · rw [hrecord, List.map_append, aloneSteps, record_cons, events_append, hevents, hrest]

end Stage

end HeroPage
