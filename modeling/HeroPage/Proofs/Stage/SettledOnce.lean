import HeroPage.Proofs.Stage.Answered
import HeroPage.Proofs.Stage.Booked
set_option autoImplicit false

namespace HeroPage.Stage

theorem fate_of_mem_dealings {trace : List Entry} {d : Dealing} (h : d ∈ dealings trace) :
    d.fate ≠ .run := by
  obtain ⟨x, -, hx⟩ := List.mem_filterMap.mp h
  cases he : x.event <;> simp only [he, Event.dealing?, Option.some.injEq, reduceCtorEq] at hx <;>
    simp [← hx]

theorem filter_dealings (trace : List Entry) :
    (dealings trace).filter (fun d => d.fate ≠ .run) = dealings trace :=
  List.filter_eq_self.mpr fun d hd => by simpa using fate_of_mem_dealings hd

theorem filter_run_dealings (trace : List Entry) :
    (dealings trace).filter (fun d => d.fate = .run) = [] :=
  List.filter_eq_nil_iff.mpr fun d hd => by simpa using fate_of_mem_dealings hd

section
variable (b : Browser) (s : Stage)

theorem filter_givingOut (now : Float) (ts : List Ticket) :
    (s.givingOut b now ts).filter (fun d => d.fate ≠ .run) =
      dealings (s.deliverAll b now ts).2 := by
  induction ts generalizing s with
  | nil => rfl
  | cons t ts ih =>
    simp only [givingOut, List.filter_append, ih, filter_dealings, deliverAll, dealings_append]
    split <;> simp

theorem filter_dealt (step : Step) :
    (s.dealt b step).filter (fun d => d.fate ≠ .run) = dealings (s.step b step).trace := by
  cases step with
  | frame now => exact filter_givingOut b s.taken now s.scheduler.frames
  | timeout id =>
    cases hf : s.scheduler.findTimer? id with
    | none => simp [dealt, hf, step_timeout_of_none hf, dealings]
    | some t =>
      rw [step_timeout_of_some hf, ← filter_dealings]
      simp [dealt, hf]
  | unmount i => exact filter_dealings _
  | mount t now => exact filter_dealings _

theorem filter_history (steps : List Step) :
    (s.history b steps).filter (fun d => d.fate ≠ .run) = dealings (s.record b steps) := by
  induction steps generalizing s with
  | nil => rfl
  | cons step steps ih =>
    rw [history, List.filter_append, filter_dealt, ih, record_cons, dealings_append]

end

theorem Sound.runs {b : Browser} {s : Stage} {ts due : List Ticket} (h : s.Sound (ts ++ due))
    (now : Float) :
    (s.givingOut b now ts).filter (fun d => d.fate = .run) =
      ts.map fun t => ⟨.frame, .run, t.id⟩ := by
  induction ts generalizing s with
  | nil => rfl
  | cons t ts ih =>
    obtain ⟨e, he, -, -, -, hc⟩ := h.owner_of_due
    have hrest := ih (h.deliver (b := b) now)
    simp [givingOut, hears, he, hc, filter_run_dealings, hrest]

/-- What becomes of the frames and the timers of a stage that is reached with the given record and
history. -/
structure SettlesOnce (b : Browser) (s : Stage) (record : List Entry) (history : List Dealing) :
    Prop where
  /-- At each moment, a number that has been given out is pending, run or given back. -/
  once : ∀ past future, history = past ++ future → ∀ kind id,
    past.count ⟨kind, .given, id⟩ ≤ 1 ∧
      (Dealing.unsettled kind past).count id + past.count ⟨kind, .run, id⟩ +
        past.count ⟨kind, .dropped, id⟩ = past.count ⟨kind, .given, id⟩
  pending : ∀ past d future, history = past ++ d :: future → d.fate ≠ .given →
    d.id ∈ Dealing.unsettled d.kind past
  frames : s.scheduler.frames.map Ticket.id = Dealing.unsettled .frame history
  timers : s.scheduler.timers.map Timer.id = Dealing.unsettled .timer history
  owners : s.scheduler.frames.map Ticket.owner =
    (List.range s.entrances.length).filter (s.awaits record)
  runs : ∀ now, (s.dealt b (.frame now)).filter (fun d => d.fate = .run) =
    s.scheduler.frames.map fun t => ⟨.frame, .run, t.id⟩
  recorded : history.filter (fun d => d.fate ≠ .run) = dealings record

theorem settled_once (b : Browser) (clock : Float) (ts : List Transition) (steps : List Step) :
    SettlesOnce b (reached b clock ts steps)
      ((empty clock).record b (opening clock ts ++ steps))
      ((empty clock).history b (opening clock ts ++ steps)) := by
  have hempty := empty_sound clock
  have hbooked := Booked.empty.history (b := b) hempty (opening clock ts ++ steps)
  have hanswered := (Answered.empty clock).after (b := b) hempty (opening clock ts ++ steps)
  have hsound := hempty.after (b := b) (opening clock ts ++ steps)
  rw [List.nil_append] at hbooked hanswered
  rw [reached_eq_after]
  refine ⟨fun past future hsplit kind id => ?_, fun past d future hsplit hfate => ?_, ?_, ?_, ?_,
    fun now => ?_, ?_⟩
  · have hpast : Dealing.Orderly past := (hsplit ▸ hbooked.orderly).of_append
    exact hpast.count kind id
  · exact (hsplit ▸ hbooked.orderly).mem_of_settled hfate
  · exact hbooked.frames.eq.symm
  · exact hbooked.timers.eq.symm
  · exact hanswered.owners hsound
  · exact hsound.all_due.runs now
  · exact filter_history b _ _

end HeroPage.Stage
