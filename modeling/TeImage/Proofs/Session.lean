/-
Sessions in which steps fail. A step that fails leaves the image as it was, so a session answers
its other steps just as if the failed ones had never been taken, and it ends with the same image.
A sink that records its calls sees none from a load that fails.
-/
import Mathlib.Tactic
import TeImage.Proofs.Load.Run
import TeImage.Session

namespace TeImage

/-! ## One step -/

namespace Step

/-- A step that runs by a plan and then answers `done` leaves the image alone if it fails. -/
theorem image_of_planned_error {x : LoadM Image Unit} {plan : Except LoadError (List Registration)}
    (hx : LoadM.Follows x plan) {i j : Image} {e : LoadError}
    (h : ((do x; return .done : LoadM Image Answer).runOn i).value = (.error e, j)) : j = i := by
  cases plan with
  | error e' =>
    rw [LoadM.value_runOn_bind_error (hx i)] at h
    cases h
    rfl
  | ok rs =>
    rw [LoadM.value_runOn_bind_ok (hx i)] at h
    cases h

/-- A step that fails leaves the image as it was. -/
theorem image_of_error {step : Step} {i j : Image} {e : LoadError}
    (h : (step.run.runOn i).value = (.error e, j)) : j = i := by
  cases step with
  | load data source => exact image_of_planned_error (loadInto_follows data source) h
  | annotate hd length source =>
    exact image_of_planned_error (annotate_follows hd length source) h
  | register r => exact image_of_planned_error (LoadM.follows_register r) h
  | typeSize name => cases h
  | typeNamed name => cases h
  | symbolNamed name => cases h
  | entrySignature => cases h
  | dump => cases h

end Step

/-! ## Whole sessions -/

/-- The image behind the last step. -/
def imageAfter (steps : List Step) (i : Image) : Image :=
  ((runSession steps i).value.getLast?.map (·.2)).getD i

/-- The steps that do not fail where they stand. -/
def succeeding (steps : List Step) (i : Image) : List Step :=
  ((steps.zip (runSession steps i).value).filter (·.2.1.isOk)).map (·.1)

theorem value_runSession_cons (step : Step) (steps : List Step) (i : Image) :
    (runSession (step :: steps) i).value =
      (step.run.runOn i).value :: (runSession steps (step.run.runOn i).value.2).value := rfl

theorem imageAfter_cons (step : Step) (steps : List Step) (i : Image) :
    imageAfter (step :: steps) i = imageAfter steps (step.run.runOn i).value.2 := by
  unfold imageAfter
  rw [value_runSession_cons, List.getLast?_cons]
  cases (runSession steps (step.run.runOn i).value.2).value.getLast? <;> rfl

theorem succeeding_cons_ok {step : Step} {i j : Image} {a : Answer}
    (h : (step.run.runOn i).value = (.ok a, j)) (steps : List Step) :
    succeeding (step :: steps) i = step :: succeeding steps j := by
  unfold succeeding
  rw [value_runSession_cons, h]
  rfl

theorem succeeding_cons_error {step : Step} {i j : Image} {e : LoadError}
    (h : (step.run.runOn i).value = (.error e, j)) (steps : List Step) :
    succeeding (step :: steps) i = succeeding steps i := by
  obtain rfl := Step.image_of_error h
  unfold succeeding
  rw [value_runSession_cons, h]
  rfl

/-- Behind a failed step stands the image that was there before it. -/
theorem image_behind_error (steps : List Step) (i : Image) (k : Nat) (e : LoadError) (j : Image)
    (h : (runSession steps i).value[k]? = some (.error e, j)) : j = imageAfter (steps.take k) i := by
  induction steps generalizing i k with
  | nil => cases h
  | cons step steps ih =>
    rw [value_runSession_cons] at h
    cases k with
    | zero => exact Step.image_of_error (Option.some.inj h)
    | succ k =>
      rw [List.take_succ_cons, imageAfter_cons]
      exact ih _ k h

/-- The steps that do not fail give the same answers and images when they are taken alone. -/
theorem runSession_succeeding (steps : List Step) (i : Image) :
    (runSession (succeeding steps i) i).value = (runSession steps i).value.filter (·.1.isOk) := by
  induction steps generalizing i with
  | nil => rfl
  | cons step steps ih =>
    rcases h : (step.run.runOn i).value with ⟨e | a, j⟩
    -- the session goes on from the image that the failed step found
    · rw [succeeding_cons_error h, ih, value_runSession_cons, h, Step.image_of_error h]
      rfl
    · rw [succeeding_cons_ok h, value_runSession_cons, h, value_runSession_cons, h, ih]
      rfl

theorem imageAfter_succeeding (steps : List Step) (i : Image) :
    imageAfter (succeeding steps i) i = imageAfter steps i := by
  induction steps generalizing i with
  | nil => rfl
  | cons step steps ih =>
    rcases h : (step.run.runOn i).value with ⟨e | a, j⟩
    · rw [succeeding_cons_error h, ih, imageAfter_cons, h, Step.image_of_error h]
    · rw [succeeding_cons_ok h, imageAfter_cons, imageAfter_cons, h, ih]

/-- A failed step is invisible: the image behind it is the one before it, the other steps have the
same answers and images without it, and a load that fails has called no sink. -/
theorem failures_invisible (steps : List Step) (i : Image) :
    (∀ k e j, (runSession steps i).value[k]? = some (.error e, j) →
      j = imageAfter (steps.take k) i) ∧
    (runSession (succeeding steps i) i).value = (runSession steps i).value.filter (·.1.isOk) ∧
    imageAfter (succeeding steps i) i = imageAfter steps i ∧
    ∀ (data : Bytes) (source : TypeSource) (calls calls' : CallLog) (e : LoadError),
      ((loadInto data source).runOn calls).value = (.error e, calls') → calls' = calls :=
  ⟨image_behind_error steps i, runSession_succeeding steps i, imageAfter_succeeding steps i,
    fun data source _ _ _ h => (loadInto_follows data source).state_of_error h⟩

/-- A load of nothing between two registrations. -/
theorem failures_invisible_empty_load :
    ∃ j, (runSession [.register (.entryPoint 7), .load [] .empty, .dump] .empty).value[1]? =
        some (.error .notTerse, j) ∧
      j = imageAfter [.register (.entryPoint 7)] .empty ∧
      ((loadInto [] .empty).runOn (⟨[]⟩ : CallLog)).value = (.error .notTerse, ⟨[]⟩) :=
  ⟨_, rfl, (failures_invisible [.register (.entryPoint 7), .load [] .empty, .dump] .empty).1 1
    .notTerse _ rfl, rfl⟩

end TeImage
