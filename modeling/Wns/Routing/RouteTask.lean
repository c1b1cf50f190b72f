import Wns.Routing.Contract

/-!
# Routing a task in stages

Model of `routeTask` (`supervisor-policy/policy.mjs`, lines 399–457). A task of the class
`mixed` is split into stages, which are routed one by one against the same state; the first
stage that is not routed blocks the task.

* `normalizeTask_stageTask`: a stage requires all that its task requires.
* `routeTask_selected`: what a routed task says about the state and the workers.
-/

namespace Wns.Routing

open Ecma

/-- `STAGE_TASK_CLASS`. -/
def StagePurpose.taskClass : StagePurpose → TaskClass
  | .evidenceAcquisition => .evidenceGathering
  | .expertReview => .expertReview
  | .extensionCapability => .extensionCapability
  | .engineeringExecution => .generalEngineering

/-- `TASK_CLASS_STAGE_PURPOSE`. -/
def TaskClass.stagePurpose : TaskClass → StagePurpose
  | .evidenceGathering => .evidenceAcquisition
  | .expertReview => .expertReview
  | .extensionCapability => .extensionCapability
  | .generalEngineering => .engineeringExecution
  | .mixed => .engineeringExecution

structure RoutingStage where
  stageId : ℕ
  purpose : StagePurpose
  taskClass : TaskClass
  action : SelectAction
  worker : Option Worker
  fallbackChain : List Worker
  reason : RoutingReason
  rejected : List (Worker × Rejection)
  deriving DecidableEq

/-- The action of a `RoutingDecision`. -/
inductive RouteAction
  | reconcile | hold | noWorker | route | decompose
  deriving DecidableEq

/-- `action === "select" ? "route" : action`. -/
def SelectAction.routed : SelectAction → RouteAction
  | .reconcile => .reconcile
  | .hold => .hold
  | .noWorker => .noWorker
  | .select => .route

structure RoutingDecision where
  action : RouteAction
  worker : Option Worker
  fallbackChain : List Worker
  reason : RoutingReason
  rejected : List (Worker × Rejection)
  stages : List RoutingStage
  deriving DecidableEq

/-- The stage that a selection makes. -/
def routingStage (stageId : ℕ) (purpose : StagePurpose) (taskClass : TaskClass)
    (selection : Selection) : RoutingStage where
  stageId
  purpose
  taskClass
  action := selection.action
  worker := selection.worker
  fallbackChain := selection.fallbackChain
  reason := selection.reason
  rejected := selection.rejected.getD []

/-- `{ ...task, task_class: STAGE_TASK_CLASS[purpose] }`, a copy of the task but for its
    class. -/
def stageTask (task : JsValue) (purpose : StagePurpose) : JsValue :=
  match task with
  | .obj ps => .obj (defineProp ps "task_class" (ofEnum purpose.taskClass))
  | _ => .obj [(js "task_class", ofEnum purpose.taskClass)]

/-- `routeTask({ task, state, policy })`. -/
def routeTask (task state policy : JsValue) : Throws RoutingDecision := do
  let normalizedTask ← normalizeTask task
  if normalizedTask.taskClass ≠ .mixed then do
    let selection ← selectWorker task state policy
    let stage := routingStage 1 normalizedTask.taskClass.stagePurpose normalizedTask.taskClass
      selection
    pure ⟨selection.action.routed, selection.worker, selection.fallbackChain, selection.reason,
      selection.rejected.getD [], [stage]⟩
  else do
    let stages ← normalizedTask.stagesRequested.zipIdx.mapM fun (purpose, index) => do
      let selection ← selectWorker (stageTask task purpose) state policy
      pure (routingStage (index + 1) purpose purpose.taskClass selection)
    match stages.find? fun stage => stage.action ≠ .select with
    | some blocked =>
      pure ⟨blocked.action.routed, blocked.worker, blocked.fallbackChain, blocked.reason,
        blocked.rejected, stages⟩
    | none => pure ⟨.decompose, none, [], .mixedTaskDecomposed, [], stages⟩

/-! ## The stages of a task -/

/-- What a stage of a mixed task asks for. -/
def NormalizedTask.forStage (task : NormalizedTask) (purpose : StagePurpose) : NormalizedTask :=
  { task with
    taskClass := purpose.taskClass
    requiresExtensionCapability :=
      task.requiresExtensionCapability || purpose.taskClass = .extensionCapability
    stagesRequested := [] }

/-- A stage requires all that its task does. -/
theorem required_subset_forStage (task : NormalizedTask) (purpose : StagePurpose) :
    task.required ⊆ (task.forStage purpose).required := by
  intro capability hc
  simp only [NormalizedTask.required, List.mem_append] at hc ⊢
  -- only the requirement of an extension depends on the class
  refine hc.imp_left fun hc => hc.imp_left fun hc => hc.imp_right fun hc => ?_
  split_ifs at hc with hextension
  · have hstage : (task.forStage purpose).requiresExtensionCapability = true :=
      Bool.or_eq_true_iff.mpr (.inl hextension)
    rwa [if_pos hstage]
  · cases hc

/-- A mixed task is an object, which requests its stages. -/
theorem obj_of_mixed {task : JsValue} {normalizedTask : NormalizedTask}
    (h : normalizeTask task = .ok normalizedTask) (hmixed : normalizedTask.taskClass = .mixed) :
    ∃ ps, task = .obj ps ∧ TaskRead ps normalizedTask := by
  obtain ⟨ps, htask, hread⟩ := normalizeTask_eq_ok.mp h
  rw [TaskProps] at htask
  split_ifs at htask with hu
  · -- a task that is left out is not mixed
    obtain rfl := JsValue.obj.inj htask
    have hclass := hread.taskClass
    rw [hmixed] at hclass
    cases hclass
  · exact ⟨ps, htask, hread⟩

/-- The stages of a mixed task are accepted. -/
theorem normalizeTask_stageTask {task : JsValue} {normalizedTask : NormalizedTask}
    (h : normalizeTask task = .ok normalizedTask) (hmixed : normalizedTask.taskClass = .mixed)
    (purpose : StagePurpose) :
    normalizeTask (stageTask task purpose) = .ok (normalizedTask.forStage purpose) := by
  obtain ⟨ps, rfl, hread⟩ := obj_of_mixed h hmixed
  set qs := defineProp ps "task_class" (ofEnum purpose.taskClass) with hqs
  have hprop : ∀ k : String, k ≠ "task_class" → prop qs k = prop ps k := by
    intro k hk
    rw [hqs, prop_defineProp, if_neg fun h => hk (js_inj.mp h)]
  have hclass : prop qs "task_class" = ofEnum purpose.taskClass := by
    rw [hqs, prop_defineProp, if_pos rfl]
  refine normalizeTask_eq_ok.mpr ⟨qs, if_neg (by simp [stageTask]), ?_⟩
  constructor
  case taskClass => exact enumOr_eq_ok.mpr (.inr hclass)
  case mode => exact hprop "mode" (by decide) ▸ hread.mode
  case riskClass => exact hprop "risk_class" (by decide) ▸ hread.riskClass
  case stagesRequested => exact if_pos (by cases purpose <;> simp [StagePurpose.taskClass,
    NormalizedTask.forStage])
  case requiredCapabilities =>
    rw [requiredCapabilities, hprop _ (by decide)]
    exact hread.requiredCapabilities
  case scope => exact hprop "scope" (by decide) ▸ hread.scope
  case evidenceReady => exact hprop "evidence_ready" (by decide) ▸ hread.evidenceReady
  case enforceReadOnly => exact hprop "enforce_read_only" (by decide) ▸ hread.enforceReadOnly
  case boundedMutationScope =>
    exact hprop "bounded_mutation_scope" (by decide) ▸ hread.boundedMutationScope
  case requiresModelOverride =>
    exact hprop "requires_model_override" (by decide) ▸ hread.requiresModelOverride
  case requiresProviderOverride =>
    exact hprop "requires_provider_override" (by decide) ▸ hread.requiresProviderOverride
  case requiresQuotaProbe =>
    exact hprop "requires_quota_probe" (by decide) ▸ hread.requiresQuotaProbe
  case requiresNativeThreadInventory =>
    exact hprop "requires_native_thread_inventory" (by decide) ▸ hread.requiresNativeThreadInventory
  case requiresExtensionCapability =>
    rw [hprop "requires_extension_capability" (by decide)]
    simp [NormalizedTask.forStage, hread.requiresExtensionCapability, hmixed]

/-- A mixed task has a stage. -/
theorem stagesRequested_ne_nil {value : Props} {stages : List StagePurpose}
    (h : stagesRequested value .mixed = .ok stages) : stages ≠ [] := by
  rw [stagesRequested, if_neg (not_not.mpr rfl)] at h
  split at h
  · simp at h
    simp [← h]
  · obtain ⟨purposes, hitems, rfl⟩ := enumSet_eq_ok.mp h
    cases purposes with
    | nil => cases hitems
    | cons purpose purposes =>
      rw [List.eraseDups_cons]
      exact List.cons_ne_nil _ _
  · simp at h

theorem stages_of_mixed {task : JsValue} {normalizedTask : NormalizedTask}
    (h : normalizeTask task = .ok normalizedTask) (hmixed : normalizedTask.taskClass = .mixed) :
    normalizedTask.stagesRequested ≠ [] := by
  obtain ⟨ps, -, hread⟩ := obj_of_mixed h hmixed
  have hstages := hread.stagesRequested
  rw [hmixed] at hstages
  exact stagesRequested_ne_nil hstages

/-! ## What is routed -/

/-- A run of a worker is active. -/
def NormalizedState.RunActive (state : NormalizedState) : Prop :=
  state.activeWorker ≠ none ∧ state.activeTerminal = false

theorem idle_iff {state : NormalizedState} :
    state.activeWorker = none ∨ state.activeTerminal = true ↔ ¬ state.RunActive := by
  rw [NormalizedState.RunActive, not_and_or, not_not, Bool.not_eq_false]

/-- A worker is selected iff no run is active and somebody is eligible. -/
theorem selectNormalized_select {task : NormalizedTask} {state : NormalizedState}
    {preferred : Option Worker} :
    (selectNormalized task state preferred).action = .select ↔
      ¬ state.RunActive ∧ ∃ worker, Eligible task state state.pressure worker := by
  by_cases hactive : state.RunActive
  · refine iff_of_false (fun h => ?_) fun h => h.1 hactive
    obtain ⟨worker, hworker⟩ := Option.ne_none_iff_exists'.mp hactive.1
    rw [selectNormalized, hworker, hactive.2] at h
    simp only at h
    split_ifs at h
  · have hno := (selectNormalized_contract task state preferred (idle_iff.mpr hactive)).noWorker
    have hidle : (selectNormalized task state preferred).action = .noWorker ∨
        (selectNormalized task state preferred).action = .select := by
      unfold selectNormalized
      split
      · next worker hworker hterminal => simp [NormalizedState.RunActive, hworker, hterminal]
          at hactive
      · split
        split <;> simp
    simp only [hactive, not_false_eq_true, true_and]
    constructor
    · intro h
      by_contra hnone
      rw [hno.mpr (not_exists.mp hnone)] at h
      cases h
    · intro ⟨worker, heligible⟩
      exact hidle.resolve_left fun h => hno.mp h worker heligible

theorem selectWorker_eq_ok {task state policy : JsValue} {selection : Selection} :
    selectWorker task state policy = .ok selection ↔
      ∃ normalizedTask normalizedState preferred, normalizeTask task = .ok normalizedTask ∧
        normalizeState state = .ok normalizedState ∧ normalizePolicy policy = .ok preferred ∧
        selectNormalized normalizedTask normalizedState preferred = selection := by
  simp only [selectWorker, bind_eq_ok, pure_eq_ok]
  constructor
  · rintro ⟨t, ht, s, hs, p, hp, h⟩
    exact ⟨t, s, p, ht, hs, hp, h⟩
  · rintro ⟨t, s, p, ht, hs, hp, h⟩
    exact ⟨t, ht, s, hs, p, hp, h⟩

/-- A task that is eligible for a stage is eligible for the task. -/
theorem Eligible.of_forStage {task : NormalizedTask} {state : NormalizedState}
    {pressure : Worker → Pressure} {purpose : StagePurpose} {worker : Worker}
    (h : Eligible (task.forStage purpose) state pressure worker) :
    Eligible task state pressure worker :=
  ⟨fun capability hc => h.capable capability (required_subset_forStage task purpose hc),
    h.notFailed, h.notUnavailable, h.notExhausted⟩

theorem SelectAction.routed_eq_route {action : SelectAction} :
    action.routed = .route ↔ action = .select := by
  cases action <;> simp [SelectAction.routed]

theorem SelectAction.routed_ne_decompose (action : SelectAction) :
    action.routed ≠ .decompose := by
  cases action <;> simp [SelectAction.routed]

/-- A task is routed or decomposed only if no run is active and somebody is eligible. -/
theorem routeTask_selected {task state policy : JsValue} {decision : RoutingDecision}
    (h : routeTask task state policy = .ok decision)
    (hd : decision.action = .route ∨ decision.action = .decompose) :
    ∃ normalizedTask normalizedState preferred, normalizeTask task = .ok normalizedTask ∧
      normalizeState state = .ok normalizedState ∧ normalizePolicy policy = .ok preferred ∧
      ¬ normalizedState.RunActive ∧
      ∃ worker, Eligible normalizedTask normalizedState normalizedState.pressure worker := by
  obtain ⟨t, ht, h⟩ := bind_eq_ok.mp h
  split_ifs at h with hmixed
  · obtain ⟨selection, hselection, h⟩ := bind_eq_ok.mp h
    obtain rfl := pure_eq_ok.mp h
    obtain ⟨t', s, p, ht', hs, hp, rfl⟩ := selectWorker_eq_ok.mp hselection
    obtain rfl := Except.ok.inj (ht.symm.trans ht')
    have hselect := SelectAction.routed_eq_route.mp
      (hd.resolve_right (SelectAction.routed_ne_decompose _))
    exact ⟨t, s, p, ht, hs, hp, selectNormalized_select.mp hselect⟩
  · have hmixed := not_not.mp hmixed
    obtain ⟨stages, hstages, h⟩ := bind_eq_ok.mp h
    split at h
    · -- the blocking stage is not routed
      next blocked hblocked =>
      obtain rfl := pure_eq_ok.mp h
      have hne : blocked.action ≠ .select := by simpa using List.find?_some hblocked
      exact (hd.elim (fun h => hne (SelectAction.routed_eq_route.mp h))
        (SelectAction.routed_ne_decompose _)).elim
    · next hnone =>
      -- every stage is routed, and there is a first one
      obtain ⟨⟨purpose, index⟩, hfirst⟩ := List.exists_mem_of_ne_nil _
        (mt List.zipIdx_eq_nil_iff.mp (stages_of_mixed ht hmixed))
      obtain ⟨stage, hstage, hfirst⟩ := exists_of_mapM hstages hfirst
      have hselect : stage.action = .select := by
        simpa using List.find?_eq_none.mp hnone stage hstage
      obtain ⟨selection, hselection, hfirst⟩ := bind_eq_ok.mp hfirst
      obtain rfl := pure_eq_ok.mp hfirst
      obtain ⟨t', s, p, ht', hs, hp, rfl⟩ := selectWorker_eq_ok.mp hselection
      obtain rfl := Except.ok.inj ((normalizeTask_stageTask ht hmixed purpose).symm.trans ht')
      obtain ⟨hidle, worker, heligible⟩ := selectNormalized_select.mp hselect
      exact ⟨t, s, p, ht, hs, hp, hidle, worker, heligible.of_forStage⟩

end Wns.Routing
