import HeroPage.Proofs.Controller.Frames
set_option autoImplicit false

namespace HeroPage.Controller

theorem attach_of_opened {c : Controller} (h : c.phase ≠ .detached) (now : Float) :
    c.attach now = (c, false) := by
  unfold attach
  split
  · next hdetached => exact absurd hdetached h
  · rfl

theorem serve_opened {c : Controller} (h : c.phase ≠ .detached) (call : Call) :
    (c.serve call).1.phase ≠ .detached := by
  obtain ⟨t, phase, shown⟩ := c
  cases phase with
  | detached => exact absurd rfl h
  | running start =>
    cases call with
    | attach now => exact h
    | frame now =>
      rw [serve, frame_running]
      split
      · exact Phase.noConfusion
      · exact Phase.noConfusion
    | skip => exact Phase.noConfusion
    | detach => exact Phase.noConfusion
  | settled => cases call <;> exact Phase.noConfusion
  | abandoned => cases call <;> exact Phase.noConfusion

/-- A step of a run: a call of its own, or an attachment that a re-render adds to it. -/
inductive Step where
  | own (call : Call)
  | again (now : Float)

namespace Step

def call : Step → Call
  | .own call => call
  | .again now => .attach now

def own? : Step → Option Call
  | .own call => some call
  | .again _ => none

def opens : Step → Bool
  | .own call => !call.isFrame
  | .again _ => false

end Step

/-- What an entrance is after each step, and what it answers. -/
def runSteps (c : Controller) (steps : List Step) : List (Step × Controller × Reply) :=
  steps.zip (c.run (steps.map Step.call))

/-- The added attachments are refused, and the other steps go as they do without them. -/
structure Unmoved (c : Controller) (steps : List Step) : Prop where
  refused : ∀ x ∈ c.runSteps steps, x.1.own? = none → x.2.2 = .started false
  kept : (c.runSteps steps).filterMap (fun x => x.1.own?.map fun _ => x.2) =
    c.run (steps.filterMap Step.own?)

namespace Unmoved

variable {c : Controller} {steps : List Step}

theorem nil (c : Controller) : c.Unmoved [] := ⟨fun _ h => absurd h List.not_mem_nil, rfl⟩

theorem own {call : Call} (h : (c.serve call).1.Unmoved steps) : c.Unmoved (.own call :: steps) where
  refused := List.forall_mem_cons.mpr ⟨fun hnone => absurd hnone (Option.some_ne_none call), h.refused⟩
  kept := congrArg (c.serve call :: ·) h.kept

theorem again {now : Float} (hopened : c.phase ≠ .detached) (h : c.Unmoved steps) :
    c.Unmoved (.again now :: steps) := by
  have hserve : c.serve (.attach now) = (c, .started false) := by rw [serve, attach_of_opened hopened]
  have hrun : c.runSteps (.again now :: steps) = (.again now, c, .started false) :: c.runSteps steps := by
    simp only [runSteps, List.map_cons, Step.call, run, hserve, List.zip_cons_cons]
  refine ⟨?_, ?_⟩
  · rw [hrun]
    exact List.forall_mem_cons.mpr ⟨fun _ => rfl, h.refused⟩
  · rw [hrun]
    exact h.kept

theorem of_opened (h : c.phase ≠ .detached) (steps : List Step) : c.Unmoved steps := by
  induction steps generalizing c with
  | nil => exact nil c
  | cons step steps ih =>
    cases step with
    | own call => exact own (ih (serve_opened h call))
    | again now => exact again h (ih h)

end Unmoved

/-- Attachments that are added anywhere behind the call that opens an entrance are refused, and no other
call notices them. -/
theorem rerenders_ignored (t : Transition) (steps : List Step)
    (h : ∀ step ∈ steps.takeWhile fun step => !step.opens, step.own?.isSome = true) :
    (new t).Unmoved steps := by
  induction steps with
  | nil => exact .nil _
  | cons step steps ih =>
    cases step with
    | again now => exact absurd (h (.again now) List.mem_cons_self) Bool.false_ne_true
    | own call =>
      refine .own ?_
      cases call with
      | frame now => exact ih fun step hmem => h step (List.mem_cons_of_mem _ hmem)
      | attach now => exact .of_opened Phase.noConfusion steps
      | skip => exact .of_opened Phase.noConfusion steps
      | detach => exact .of_opened Phase.noConfusion steps

theorem rerenders_ignored_textBlock :
    let steps : List Step := [.own (.frame 1), .own (.attach 2), .own (.frame 2.3), .again 2.3,
      .own (.frame 2.4), .own (.frame 3), .again 3, .own (.frame 3.1), .own .detach, .again 4, .again 5]
    (∀ step ∈ steps.takeWhile fun step => !step.opens, step.own?.isSome = true) ∧
      (new .textBlock).Unmoved steps := by
  intro steps
  have hown : ∀ step ∈ steps.takeWhile fun step => !step.opens, step.own?.isSome = true := by
    decide
  exact ⟨hown, rerenders_ignored .textBlock steps hown⟩

variable {t : Transition} {times kept : List Float} {last : Float}

/-- If an earlier frame has settled the entrance, then so would the last one have. -/
theorem after_frames_last (start : Float) (shown : VisualState)
    (hsorted : (times ++ [last]).Pairwise (· ≤ ·)) :
    (⟨t, .running start, shown⟩ : Controller).after ((times ++ [last]).map .frame) =
      (⟨t, .running start, shown⟩ : Controller).frame last := by
  rw [List.map_append, after_append]
  change ((⟨t, .running start, shown⟩ : Controller).after (times.map .frame)).frame last = _
  rw [frame_running]
  rcases after_frames t start shown times with ⟨⟨now, hmem, hover⟩, hafter⟩ | ⟨-, shown', hafter⟩
  · have hle : now ≤ last := (List.pairwise_append.mp hsorted).2.2 now hmem last List.mem_cons_self
    rw [hafter, if_pos (Binary64.le_chain hover (elapsed_mono start hle))]
    rfl
  · rw [hafter, frame_running]

/-- Frames of an entrance that has just been attached, all of them and only some with the last. -/
theorem dropped_frames_ignored (t : Transition) (start : Float)
    (hsorted : (times ++ [last]).Pairwise (· ≤ ·)) (hkept : kept.Sublist times) :
    ((new t).attach start).1.after ((kept ++ [last]).map .frame) =
      ((new t).attach start).1.after ((times ++ [last]).map .frame) := by
  change (⟨t, .running start, t.source⟩ : Controller).after _ =
    (⟨t, .running start, t.source⟩ : Controller).after _
  rw [after_frames_last start t.source hsorted,
    after_frames_last start t.source (hsorted.sublist (hkept.append_right [last]))]

theorem dropped_frames_ignored_textBlock :
    let times : List Float := [10.25, 10.5]
    ((times ++ [10.75]).Pairwise (· ≤ ·) ∧ [10.25].Sublist times) ∧
      ((new .textBlock).attach 10).1.after (([10.25] ++ [10.75]).map .frame) =
        ((new .textBlock).attach 10).1.after ((times ++ [10.75]).map .frame) := by
  intro times
  have hsorted : (times ++ [10.75]).Pairwise (· ≤ ·) := by decide +kernel
  have hkept : [10.25].Sublist times := .cons_cons 10.25 (.cons 10.5 .slnil)
  exact ⟨⟨hsorted, hkept⟩, dropped_frames_ignored .textBlock 10 hsorted hkept⟩

end HeroPage.Controller
