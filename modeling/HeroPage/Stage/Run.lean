import HeroPage.Stage.Basic
set_option autoImplicit false

namespace HeroPage.Stage

inductive Step where
  /-- A frame of the browser at the given time, in milliseconds. -/
  | frame (now : Float)
  | timeout (id : Nat)
  | unmount (i : Nat)
  /-- One more entrance, at the given time. -/
  | mount (t : Transition) (now : Float)

/-- What a step has done: frames are counted, all else is done or not. -/
inductive Outcome where
  | frames (n : Nat)
  | done (yes : Bool)
  deriving DecidableEq

structure Report where
  stage : Stage
  outcome : Outcome
  trace : List Entry

def step (b : Browser) (s : Stage) : Step → Report
  | .frame now =>
    let (t, trace) := s.frame b now
    ⟨t, .frames s.scheduler.frames.length, trace⟩
  | .timeout id =>
    match s.scheduler.findTimer? id with
    | none => ⟨s, .done false, []⟩
    | some timer =>
      let (t, trace) := s.fire timer
      ⟨t, .done true, trace⟩
  | .unmount i =>
    let (t, trace) := s.unmount i
    ⟨t, .done (s.isMounted i), trace⟩
  | .mount t now =>
    let (t, trace) := { s with clock := now }.mount b t
    ⟨t, .done true, trace⟩

def run (b : Browser) (s : Stage) : List Step → List Report
  | [] => []
  | step :: steps => s.step b step :: run b (s.step b step).stage steps

def after (b : Browser) (s : Stage) (steps : List Step) : Stage :=
  steps.foldl (fun s step => (s.step b step).stage) s

theorem deliverAll_append (b : Browser) (now : Float) (s : Stage) (ts us : List Ticket) :
    s.deliverAll b now (ts ++ us) =
      (((s.deliverAll b now ts).1.deliverAll b now us).1,
        (s.deliverAll b now ts).2 ++ ((s.deliverAll b now ts).1.deliverAll b now us).2) := by
  induction ts generalizing s with
  | nil => rfl
  | cons t ts ih => simp [deliverAll, ih]

theorem step_timeout_of_none {b : Browser} {s : Stage} {id : Nat}
    (h : s.scheduler.findTimer? id = none) : s.step b (.timeout id) = ⟨s, .done false, []⟩ := by
  simp only [step, h]

theorem step_timeout_of_some {b : Browser} {s : Stage} {id : Nat} {t : Timer}
    (h : s.scheduler.findTimer? id = some t) :
    s.step b (.timeout id) = ⟨(s.fire t).1, .done true, (s.fire t).2⟩ := by
  simp only [step, h]

theorem timeout_cases (b : Browser) (s : Stage) (id : Nat) :
    s.step b (.timeout id) = ⟨s, .done false, []⟩ ∨
      ∃ t ∈ s.scheduler.timers, t.id = id ∧
        s.step b (.timeout id) = ⟨(s.fire t).1, .done true, (s.fire t).2⟩ := by
  cases hf : s.scheduler.findTimer? id with
  | none => exact .inl (step_timeout_of_none hf)
  | some t =>
    obtain ⟨ht, hid⟩ := Scheduler.findTimer?_some hf
    exact .inr ⟨t, ht, hid, step_timeout_of_some hf⟩

theorem after_append (b : Browser) (s : Stage) (steps more : List Step) :
    s.after b (steps ++ more) = (s.after b steps).after b more := List.foldl_append

end HeroPage.Stage
