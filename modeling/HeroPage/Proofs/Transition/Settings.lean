import HeroPage.Fault
import HeroPage.Proofs.Transition.Ends
set_option autoImplicit false

namespace HeroPage.Transition

inductive Setting where
  | lasting (d : Float)
  | delayed (d : Float)
  | along (e : Easing)

namespace Setting

def duration? : Setting → Option Float
  | .lasting d => some d
  | _ => none

def delay? : Setting → Option Float
  | .delayed d => some d
  | _ => none

def easing? : Setting → Option Easing
  | .along e => some e
  | _ => none

end Setting

def set (t : Transition) : Setting → Transition
  | .lasting d => t.lasting d
  | .delayed d => t.delayed d
  | .along e => t.along e

def setAll (t : Transition) (settings : List Setting) : Transition := settings.foldl set t

/-- The last value among `settings` that `value?` reads, and `default` if it reads none. -/
def lastGiven {α : Type} (value? : Setting → Option α) (settings : List Setting) (default : α) : α :=
  (settings.filterMap value?).getLast?.getD default

section
variable {α : Type} {value? : Setting → Option α} {value : Transition → α}

theorem lastGiven_cons (s : Setting) (settings : List Setting) (default : α) :
    lastGiven value? (s :: settings) default = lastGiven value? settings ((value? s).getD default) := by
  unfold lastGiven
  cases hs : value? s with
  | none => rw [List.filterMap_cons_none hs]; rfl
  | some v =>
    rw [List.filterMap_cons_some hs, List.getLast?_cons]
    rfl

theorem value_setAll (hset : ∀ t s, value (t.set s) = (value? s).getD (value t)) (t : Transition)
    (settings : List Setting) : value (t.setAll settings) = lastGiven value? settings (value t) := by
  induction settings generalizing t with
  | nil => rfl
  | cons s settings ih =>
    calc value (t.setAll (s :: settings)) = value ((t.set s).setAll settings) := rfl
      _ = lastGiven value? settings (value (t.set s)) := ih (t.set s)
      _ = lastGiven value? settings ((value? s).getD (value t)) := by rw [hset]
      _ = lastGiven value? (s :: settings) (value t) := (lastGiven_cons s settings (value t)).symm

theorem value_setAll_eq (hset : ∀ t s, value (t.set s) = value t) (t : Transition)
    (settings : List Setting) : value (t.setAll settings) = value t := by
  induction settings generalizing t with
  | nil => rfl
  | cons s settings ih => exact (ih (t.set s)).trans (hset t s)

end

theorem setAll_eq (t : Transition) (settings : List Setting) :
    t.setAll settings =
      { t with
        duration := lastGiven Setting.duration? settings t.duration
        delay := lastGiven Setting.delay? settings t.delay
        easing := lastGiven Setting.easing? settings t.easing } := by
  have hsource : (t.setAll settings).source = t.source :=
    value_setAll_eq (fun _ s => by cases s <;> rfl) t settings
  have htarget : (t.setAll settings).target = t.target :=
    value_setAll_eq (fun _ s => by cases s <;> rfl) t settings
  have hduration : (t.setAll settings).duration = lastGiven Setting.duration? settings t.duration :=
    value_setAll (fun _ s => by cases s <;> rfl) t settings
  have hdelay : (t.setAll settings).delay = lastGiven Setting.delay? settings t.delay :=
    value_setAll (fun _ s => by cases s <;> rfl) t settings
  have heasing : (t.setAll settings).easing = lastGiven Setting.easing? settings t.easing :=
    value_setAll (fun _ s => by cases s <;> rfl) t settings
  rw [← hsource, ← htarget, ← hduration, ← hdelay, ← heasing]

/-- A time that a transition can have. A negative zero is one. -/
def Usable (x : Float) : Prop := x.isFinite = true ∧ 0 ≤ x

theorem usable_iff (x : Float) : Usable x ↔ usableTime x = true := by
  rw [usableTime_iff, Usable]
  refine and_congr_right fun hfinite => ?_
  rw [Binary64.le_iff, Binary64.real_zero, and_iff_right Binary64.isNaN_zero,
    and_iff_right (Binary64.isNaN_of_isFinite hfinite)]

variable (t : Transition)

theorem validate_cases :
    ¬Usable t.duration ∧ t.validate = .error ⟨.duration, t.duration⟩ ∨
      (Usable t.duration ∧ ¬Usable t.delay) ∧ t.validate = .error ⟨.delay, t.delay⟩ ∨
      (Usable t.duration ∧ Usable t.delay) ∧ t.validate = .ok () := by
  simp only [usable_iff, validate]
  cases usableTime t.duration with
  | false => exact .inl ⟨Bool.noConfusion, rfl⟩
  | true =>
    cases usableTime t.delay with
    | false => exact .inr (.inl ⟨⟨rfl, Bool.noConfusion⟩, rfl⟩)
    | true => exact .inr (.inr ⟨⟨rfl, rfl⟩, rfl⟩)

theorem timed?_eq (a b : VisualState) :
    timed? a b t.duration t.delay = t.validate.map fun _ => ⟨a, b, t.duration, t.delay, .standard⟩ :=
  rfl

def report? {α : Type} : Except TimingFault α → Option String
  | .ok _ => none
  | .error f => some (Fault.timing f).message

theorem report?_map {α β : Type} (r : Except TimingFault α) (f : α → β) :
    report? (r.map f) = report? r := by
  cases r <;> rfl

def complaint (timing : Timing) (x : Float) : String :=
  "Animation error: " ++ timing.name ++ " must be finite and non-negative, got " ++ Decimal.plain.text x

theorem message_timing (timing : Timing) (x : Float) :
    (Fault.timing ⟨timing, x⟩).message = complaint timing x := by
  unfold Fault.message TimingFault.message complaint
  dsimp only
  rw [← String.append_assoc, ← String.append_assoc]

theorem report?_error {α : Type} (timing : Timing) (x : Float) :
    report? (.error ⟨timing, x⟩ : Except TimingFault α) = some (complaint timing x) :=
  congrArg some (message_timing timing x)

theorem report?_validate_eq_some_iff (text : String) :
    report? t.validate = some text ↔
      ¬Usable t.duration ∧ text = complaint .duration t.duration ∨
        (Usable t.duration ∧ ¬Usable t.delay) ∧ text = complaint .delay t.delay := by
  rcases t.validate_cases with ⟨hduration, h⟩ | ⟨⟨hduration, hdelay⟩, h⟩ | ⟨⟨hduration, hdelay⟩, h⟩
  · rw [h, report?_error]
    simp [hduration, eq_comm]
  · rw [h, report?_error]
    simp [hduration, hdelay, eq_comm]
  · simp [h, hduration, hdelay, report?]

/-- A transition that is built by any settings, against one that is given both times at once. -/
theorem setAll_checked (a b : VisualState) (settings : List Setting) :
    let t := (between a b).setAll settings
    (t.source = a ∧ t.target = b ∧
      t.duration = lastGiven Setting.duration? settings 0 ∧
      t.delay = lastGiven Setting.delay? settings 0 ∧
      t.easing = lastGiven Setting.easing? settings .easeOut) ∧
    (t.validate = .ok () ↔ ∃ t', timed? a b t.duration t.delay = .ok t') ∧
    report? t.validate = report? (timed? a b t.duration t.delay) ∧
    ∀ text, report? t.validate = some text ↔
      ¬Usable t.duration ∧ text = complaint .duration t.duration ∨
        (Usable t.duration ∧ ¬Usable t.delay) ∧ text = complaint .delay t.delay := by
  intro t
  have ht : t = _ := setAll_eq (between a b) settings
  refine ⟨?_, ?_, ?_, t.report?_validate_eq_some_iff⟩
  · rw [ht]
    exact ⟨rfl, rfl, rfl, rfl, rfl⟩
  · rw [timed?_eq]
    cases t.validate with
    | error f => simp [Except.map]
    | ok u => simp [Except.map]
  · rw [timed?_eq, report?_map]

end HeroPage.Transition
