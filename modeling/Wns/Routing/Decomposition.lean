import Wns.Routing.RouteTask
import Wns.Telemetry.Event

/-!
# Decomposition

What `routeTask` decides against what `selectWorker` decides: the stages of a mixed task are
single decisions about the task in the class of each purpose, and the decision about the task
is read off its stages.

* `normalizeTask_congr`: a task is read through its properties alone.
* `stages_eq`: the stages of a mixed task.
* `decomposition_refines`: decisions, stages, and the words that telemetry keeps of them.
-/

namespace Wns.Routing

open Ecma Telemetry

/-! ## Decisions as values -/

instance : JsEnum SelectAction where
  values := [.reconcile, .hold, .noWorker, .select]
  text
    | .reconcile => "reconcile"
    | .hold => "hold"
    | .noWorker => "no_worker"
    | .select => "select"
  complete := by rintro ⟨⟩ <;> simp
  injective := by rintro ⟨⟩ ⟨⟩ <;> simp

instance : JsEnum RouteAction where
  values := [.reconcile, .hold, .noWorker, .route, .decompose]
  text
    | .reconcile => "reconcile"
    | .hold => "hold"
    | .noWorker => "no_worker"
    | .route => "route"
    | .decompose => "decompose"
  complete := by rintro ⟨⟩ <;> simp
  injective := by rintro ⟨⟩ ⟨⟩ <;> simp

/-- The reason of an entry of `rejected`. -/
def Rejection.reason : Rejection → JsString
  | .capabilityMismatch _ => "capability_mismatch"
  | .previousAttemptFailed => "previous_attempt_failed"
  | .unavailable => "unavailable"
  | .budgetExhausted => "budget_exhausted"

/-- An entry of `rejected`; only a mismatch lists what is missing. -/
def rejectedProps (entry : Worker × Rejection) : Props :=
  [(js "worker", ofEnum entry.1), (js "reason", .str entry.2.reason)] ++
    match entry.2 with
    | .capabilityMismatch missing => [(js "missing", .arr (missing.map ofEnum))]
    | _ => []

/-- A worker or `null`. -/
def workerOrNull (worker : Option Worker) : JsValue := (worker.map ofEnum).getD .null

/-- The fields that a decision shares with its stages. -/
def outcomeProps (worker : Option Worker) (fallbackChain : List Worker) (reason : RoutingReason)
    (rejected : List (Worker × Rejection)) : Props :=
  [("worker", workerOrNull worker),
    ("fallback_chain", .arr (fallbackChain.map ofEnum)),
    ("reason", ofEnum reason),
    ("rejected", .arr (rejected.map fun entry => .obj (rejectedProps entry)))]

def RoutingStage.props (stage : RoutingStage) : Props :=
  [(js "stage_id", .nat stage.stageId), (js "purpose", ofEnum stage.purpose),
    (js "task_class", ofEnum stage.taskClass), (js "action", ofEnum stage.action)] ++
    outcomeProps stage.worker stage.fallbackChain stage.reason stage.rejected

/-- The value that `routeTask` returns. -/
def RoutingDecision.props (decision : RoutingDecision) : Props :=
  (js "action", ofEnum decision.action) ::
    outcomeProps decision.worker decision.fallbackChain decision.reason decision.rejected ++
    [(js "stages", .arr (decision.stages.map fun stage => .obj stage.props))]

/-! ## The stages of a task -/

/-- The purposes that a mixed task requests, as it lists them. -/
def RequestedStages (task : Props) (purposes : List StagePurpose) : Prop :=
  prop task "stages_requested" = .undefined ∧ purposes = [.evidenceAcquisition, .expertReview] ∨
    prop task "stages_requested" = .arr (purposes.map ofEnum)

/-- The same task but for its class. -/
structure Reclassed (task : Props) (taskClass : TaskClass) (task' : Props) : Prop where
  taskClass : prop task' "task_class" = ofEnum taskClass
  others : ∀ name, name ≠ js "task_class" → prop task' name = prop task name

theorem reclassed_defineProp (task : Props) (taskClass : TaskClass) :
    Reclassed task taskClass (defineProp task "task_class" (ofEnum taskClass)) where
  taskClass := by rw [prop_defineProp, if_pos rfl]
  others name hname := by rw [prop_defineProp, if_neg hname]

/-- A task is read through its properties alone. -/
theorem normalizeTask_congr {ps qs : Props} (h : ∀ name, prop ps name = prop qs name) :
    normalizeTask (.obj ps) = normalizeTask (.obj qs) := by
  simp only [normalizeTask, requireObject, plainObject, ok_bind, stagesRequested,
    requiredCapabilities, h, reduceCtorEq, if_false]

theorem Reclassed.selectWorker_eq {ps qs : Props} {purpose : StagePurpose}
    (h : Reclassed ps purpose.taskClass qs) (state policy : JsValue) :
    selectWorker (.obj qs) state policy =
      selectWorker (stageTask (.obj ps) purpose) state policy := by
  have hstage := reclassed_defineProp ps purpose.taskClass
  have hprop : ∀ name, prop qs name = prop (defineProp ps "task_class" (ofEnum purpose.taskClass))
      name := by
    intro name
    by_cases hname : name = js "task_class"
    · rw [hname, h.taskClass, hstage.taskClass]
    · rw [h.others name hname, hstage.others name hname]
  rw [selectWorker, selectWorker, stageTask, normalizeTask_congr hprop]

theorem requestedStages_of_ok {task : Props} {stages : List StagePurpose}
    (h : stagesRequested task .mixed = .ok stages) :
    ∃ purposes, RequestedStages task purposes ∧ stages = purposes.eraseDups := by
  rw [stagesRequested, if_neg (not_not.mpr rfl)] at h
  split at h
  · next hundefined =>
    obtain rfl := Except.ok.inj h
    exact ⟨_, .inl ⟨hundefined, rfl⟩, by decide⟩
  · next v vs hitems =>
    obtain ⟨purposes, hpurposes, rfl⟩ := enumSet_eq_ok.mp h
    exact ⟨purposes, .inr (hitems.trans (congrArg JsValue.arr hpurposes)), rfl⟩
  · simp at h

/-- A stage is what `selectWorker` decides about the task in the class of its purpose. -/
def RoutingStage.Decided (stage : RoutingStage) (task state policy : JsValue) : Prop :=
  ∃ selection, selectWorker (stageTask task stage.purpose) state policy = .ok selection ∧
    stage = routingStage stage.stageId stage.purpose stage.purpose.taskClass selection

/-- The stages that a list of purposes makes, one for each and numbered from one. -/
theorem stages_eq {task state policy : JsValue} {purposes : List StagePurpose}
    {stages : List RoutingStage}
    (h : (purposes.zipIdx.mapM fun (purpose, index) => do
      let selection ← selectWorker (stageTask task purpose) state policy
      pure (routingStage (index + 1) purpose purpose.taskClass selection)) = .ok stages) :
    stages.map RoutingStage.purpose = purposes ∧
      stages.map RoutingStage.stageId = List.range' 1 stages.length ∧
      ∀ stage ∈ stages, stage.Decided task state policy := by
  have hstages : List.Forall₂ (fun (stage : RoutingStage) (item : StagePurpose × ℕ) =>
      stage.Decided task state policy ∧ stage.purpose = item.1 ∧ stage.stageId = item.2 + 1)
      stages purposes.zipIdx := by
    refine (forall₂_of_mapM h).flip.imp fun stage item hstage => ?_
    obtain ⟨selection, hselection, hstage⟩ := bind_eq_ok.mp hstage
    obtain rfl := pure_eq_ok.mp hstage
    exact ⟨⟨selection, hselection, rfl⟩, rfl, rfl⟩
  obtain ⟨hdecided, hstages⟩ := (List.forall₂_and_left _ _).mp hstages
  have hpurposes : stages.map RoutingStage.purpose = purposes.zipIdx.map Prod.fst := by
    rw [← List.forall₂_eq_eq_eq, List.forall₂_map_left_iff, List.forall₂_map_right_iff]
    exact hstages.imp fun _ _ h => h.1
  have hids : stages.map RoutingStage.stageId = (purposes.zipIdx.map Prod.snd).map (· + 1) := by
    rw [← List.forall₂_eq_eq_eq, List.forall₂_map_left_iff, List.map_map,
      List.forall₂_map_right_iff]
    exact hstages.imp fun _ _ h => h.2
  refine ⟨hpurposes.trans (List.zipIdx_map_fst 0 purposes), ?_, hdecided⟩
  rw [hids, List.zipIdx_map_snd, hstages.length_eq, List.length_zipIdx]
  simp only [Nat.add_comm _ 1]
  exact List.map_add_range' 0 _ _

/-! ## The decision -/

/-- The fields in which a decision repeats a stage. -/
def outcomeFields : List JsString := ["action", "worker", "fallback_chain", "reason", "rejected"]

/-- Where a stage does not select, the action of the decision has the same name. -/
theorem ofEnum_routed {action : SelectAction} (h : action ≠ .select) :
    ofEnum action.routed = ofEnum action := by
  cases action with
  | select => exact absurd rfl h
  | _ => rfl

/-- A decision that is made of a stage that does not select shows what the stage does. -/
theorem prop_blocked {stage : RoutingStage} {stages : List RoutingStage}
    (h : stage.action ≠ .select) {field : JsString} (hfield : field ∈ outcomeFields) :
    prop (RoutingDecision.props ⟨stage.action.routed, stage.worker, stage.fallbackChain,
      stage.reason, stage.rejected, stages⟩) field = prop stage.props field := by
  simp only [outcomeFields, List.mem_cons, List.not_mem_nil, or_false] at hfield
  obtain rfl | rfl | rfl | rfl | rfl := hfield
  · simpa [RoutingDecision.props, RoutingStage.props] using ofEnum_routed h
  all_goals simp [RoutingDecision.props, RoutingStage.props, outcomeProps]

/-- An event keeps the value that it is given in a field. -/
def Keeps (field : JsString) (v : JsValue) : Prop :=
  ∀ ps, prop ps field = v → prop (normalizeTelemetryEvent (.obj ps)).props field = v

theorem keeps_routingReason (reason : RoutingReason) : Keeps "routing_reason" (ofEnum reason) := by
  intro ps h
  have hnormalized : (normalizeTelemetryEvent (.obj ps)).routingReason = some reason :=
    normalizeEnum_eq_some.mpr h
  simp [TelemetryEvent.props, hnormalized, knownText, ofEnum]

theorem keeps_taskClass (taskClass : TaskClass) : Keeps "task_class" (ofEnum taskClass) := by
  intro ps h
  have hnormalized : (normalizeTelemetryEvent (.obj ps)).taskClass = some taskClass :=
    normalizeEnum_eq_some.mpr h
  simp [TelemetryEvent.props, hnormalized, knownText, ofEnum]

theorem keeps_stagePurpose (purpose : StagePurpose) : Keeps "stage_purpose" (ofEnum purpose) := by
  intro ps h
  have hnormalized : (normalizeTelemetryEvent (.obj ps)).stagePurpose = some purpose :=
    normalizeEnum_eq_some.mpr h
  simp [TelemetryEvent.props, hnormalized]

/-- The stages of a mixed task: one for each purpose that it requests, in the order of their
    first occurrence, each decided as the same task in the class of the purpose. -/
structure Staged (task : Props) (state policy : JsValue) (stages : List RoutingStage) : Prop where
  purposes : ∃ purposes, RequestedStages task purposes ∧
    stages.map RoutingStage.purpose = purposes.eraseDups
  numbered : stages.map RoutingStage.stageId = List.range' 1 stages.length
  decided : ∀ stage ∈ stages, ∀ task', Reclassed task stage.purpose.taskClass task' →
    ∃ selection, selectWorker (.obj task') state policy = .ok selection ∧
      stage = routingStage stage.stageId stage.purpose stage.purpose.taskClass selection

/-- How a decision follows from what `selectWorker` decides. -/
structure Refines (task state policy : JsValue) (normalizedTask : NormalizedTask)
    (decision : RoutingDecision) : Prop where
  single : normalizedTask.taskClass ≠ .mixed →
    ∃ selection, selectWorker task state policy = .ok selection ∧
      decision.stages = [routingStage 1 normalizedTask.taskClass.stagePurpose
        normalizedTask.taskClass selection]
  mixed : normalizedTask.taskClass = .mixed →
    ∃ ps, task = .obj ps ∧ Staged ps state policy decision.stages
  /-- A mixed task is decomposed, another one routed, iff every stage selects. -/
  selects : decision.action = (if normalizedTask.taskClass = .mixed then .decompose else .route) ↔
    ∀ stage ∈ decision.stages, stage.action = .select
  /-- Otherwise the decision is that of the first stage that does not select. -/
  blocked : ∀ stage, decision.stages.find? (fun stage => stage.action ≠ .select) = some stage →
    ∀ field ∈ outcomeFields, prop decision.props field = prop stage.props field

/-- Telemetry keeps the reason of a decision, and the words of its stages. -/
structure Kept (decision : RoutingDecision) : Prop where
  reason : Keeps "routing_reason" (prop decision.props "reason")
  stages : ∀ stage ∈ decision.stages, Keeps "routing_reason" (prop stage.props "reason") ∧
    Keeps "task_class" (prop stage.props "task_class") ∧
    Keeps "stage_purpose" (prop stage.props "purpose")

theorem kept (decision : RoutingDecision) : Kept decision where
  reason := by
    simpa [RoutingDecision.props, outcomeProps] using keeps_routingReason decision.reason
  stages stage _ := by
    refine ⟨?_, ?_, ?_⟩
    · simpa [RoutingStage.props, outcomeProps] using keeps_routingReason stage.reason
    · simpa [RoutingStage.props] using keeps_taskClass stage.taskClass
    · simpa [RoutingStage.props] using keeps_stagePurpose stage.purpose

/-- The decision about a task that is not mixed is that of its only stage. -/
theorem refines_single {task state policy : JsValue} {normalizedTask : NormalizedTask}
    {selection : Selection} (hselection : selectWorker task state policy = .ok selection)
    (hmixed : normalizedTask.taskClass ≠ .mixed) :
    Refines task state policy normalizedTask
      ⟨selection.action.routed, selection.worker, selection.fallbackChain, selection.reason,
        selection.rejected.getD [], [routingStage 1 normalizedTask.taskClass.stagePurpose
          normalizedTask.taskClass selection]⟩ where
  single _ := ⟨selection, hselection, rfl⟩
  mixed h := absurd h hmixed
  selects := by
    rw [if_neg hmixed, SelectAction.routed_eq_route]
    simp [routingStage]
  blocked stage hstage field hfield := by
    have hne : stage.action ≠ .select := by simpa using List.find?_some hstage
    obtain rfl := List.mem_singleton.mp (List.mem_of_find?_eq_some hstage)
    exact prop_blocked hne hfield

/-- A mixed task is decided by its stages. -/
theorem refines_mixed {task state policy : JsValue} {ps : Props} {normalizedTask : NormalizedTask}
    {decision : RoutingDecision} (hmixed : normalizedTask.taskClass = .mixed)
    (htask : task = .obj ps) (hstaged : Staged ps state policy decision.stages)
    (hselects : decision.action = .decompose ↔ ∀ stage ∈ decision.stages, stage.action = .select)
    (hblocked : ∀ stage, decision.stages.find? (fun stage => stage.action ≠ .select) =
      some stage → ∀ field ∈ outcomeFields, prop decision.props field = prop stage.props field) :
    Refines task state policy normalizedTask decision where
  single h := absurd hmixed h
  mixed _ := ⟨ps, htask, hstaged⟩
  selects := by rwa [if_pos hmixed]
  blocked := hblocked

/-- **Routing refines the selection of a single worker,** and telemetry knows its words. -/
theorem decomposition_refines {task state policy : JsValue} {decision : RoutingDecision}
    (h : routeTask task state policy = .ok decision) :
    ∃ normalizedTask, normalizeTask task = .ok normalizedTask ∧
      Refines task state policy normalizedTask decision ∧ Kept decision := by
  obtain ⟨normalizedTask, ht, h⟩ := bind_eq_ok.mp h
  refine ⟨normalizedTask, ht, ?_, kept decision⟩
  split_ifs at h with hmixed
  · obtain ⟨selection, hselection, h⟩ := bind_eq_ok.mp h
    obtain rfl := pure_eq_ok.mp h
    exact refines_single hselection hmixed
  · have hmixed := not_not.mp hmixed
    obtain ⟨ps, rfl, hread⟩ := obj_of_mixed ht hmixed
    have hrequested := hread.stagesRequested
    rw [hmixed] at hrequested
    obtain ⟨stages, hstages, h⟩ := bind_eq_ok.mp h
    obtain ⟨hpurposes, hnumbered, hdecided⟩ := stages_eq hstages
    have hstaged : Staged ps state policy stages :=
      { purposes := by
          obtain ⟨purposes, hpurposes', heq⟩ := requestedStages_of_ok hrequested
          exact ⟨purposes, hpurposes', hpurposes.trans heq⟩
        numbered := hnumbered
        decided := fun stage hstage task' htask' => by
          rw [htask'.selectWorker_eq]
          exact hdecided stage hstage }
    split at h
    · next blocked hblocked =>
      obtain rfl := pure_eq_ok.mp h
      have hne : blocked.action ≠ .select := by simpa using List.find?_some hblocked
      refine refines_mixed hmixed rfl hstaged (iff_of_false ?_ fun hall => ?_) ?_
      · exact SelectAction.routed_ne_decompose _
      · exact hne (hall blocked (List.mem_of_find?_eq_some hblocked))
      · intro stage hstage field hfield
        obtain rfl := Option.some.inj (hblocked.symm.trans hstage)
        exact prop_blocked hne hfield
    · next hnone =>
      obtain rfl := pure_eq_ok.mp h
      refine refines_mixed hmixed rfl hstaged (iff_of_true rfl fun stage hstage => ?_) ?_
      · simpa using List.find?_eq_none.mp hnone stage hstage
      · intro stage hstage
        rw [hnone] at hstage
        cases hstage

/-- A mixed task that requests a stage twice, and one that only Pi can take. -/
def repeatedStages : JsValue :=
  .obj [("task_class", .str "mixed"), ("stages_requested", .arr [.str "expert_review",
    .str "extension_capability", .str "expert_review"])]

/-- Pi is not available. -/
def piUnavailable : JsValue :=
  .obj [("workers", .obj [("pi", .obj [("availability", .str "unavailable")])])]

theorem decomposition_refines_repeatedStages :
    ∃ decision, (decision.action = .noWorker ∧ decision.stages.length = 2) ∧
      ∃ normalizedTask, normalizeTask repeatedStages = .ok normalizedTask ∧
        Refines repeatedStages piUnavailable .undefined normalizedTask decision ∧ Kept decision :=
  ⟨_, ⟨rfl, rfl⟩, @decomposition_refines repeatedStages piUnavailable .undefined _ rfl⟩

/-- A task for a worker that enforces reading only. -/
def readOnlyTask : JsValue := .obj [("enforce_read_only", .bool true)]

/-- A task that is not mixed is routed, not decomposed, and the reason for which a worker is
    rejected is not a routing reason. -/
theorem readOnlyTask_routed :
    ∃ decision, routeTask readOnlyTask .undefined .undefined = .ok decision ∧
      (∀ stage ∈ decision.stages, stage.action = .select) ∧ decision.action ≠ .decompose ∧
      ∃ entry ∈ decision.rejected,
        ¬ Keeps "routing_reason" (prop (rejectedProps entry) "reason") := by
  refine ⟨_, rfl, by decide, by decide, (.claude, .capabilityMismatch [.enforcedReadOnly]),
    by decide, fun h => ?_⟩
  have hkept := h [("routing_reason", .str "capability_mismatch")] rfl
  revert hkept
  decide

end Wns.Routing
