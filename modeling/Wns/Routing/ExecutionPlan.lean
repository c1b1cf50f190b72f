import Wns.Routing.RouteTask

/-!
# Execution plans

Model of `supervisor-policy/execution-plan.mjs`, with `evaluateRecallPolicy` of
`supervisor-policy/memory-policy.mjs`. `selectWorker`, `routeTask` and `buildExecutionPlan`
share one gate: the state of the active run.

* `buildExecutionPlan_allowed`: execution is allowed only where a worker is selected.
* `unknownAck_blocks`: an unknown acknowledgement blocks the three of them iff the input is
  malformed, a run is active or nobody is eligible.
-/

namespace Wns.Routing

open Ecma

/-! ## Recall -/

/-- `RECALL_REASONS`. -/
def recallReasons : List JsString :=
  ["user_requested", "continues_prior_work", "multi_step_project_work",
    "architecture_or_business_rule_sensitive", "cross_worker_handoff",
    "prior_root_cause_or_sop_likely_relevant"]

inductive RecallAction
  | skipRecall | recall
  deriving DecidableEq

structure RecallDecision where
  action : RecallAction
  reasons : List JsString
  authority : JsString
  constraints : Option (List JsString)
  deriving DecidableEq

/-- A decision to skip the recall. -/
def skipRecall (reason : JsString) : RecallDecision := ⟨.skipRecall, [reason], "advisory", none⟩

/-- `evaluateRecallPolicy(input)`. -/
def evaluateRecallPolicy (input : JsValue) : Throws RecallDecision := do
  let value ← requireObject (if input = .undefined then .obj [] else input) "recall input"
  let projectScoped :=
    prop value "project_scoped" = .undefined || bool (prop value "project_scoped")
  let freshRun := prop value "fresh_run" = .undefined || bool (prop value "fresh_run")
  if projectScoped = false then pure (skipRecall "not_project_scoped")
  else if freshRun = false then pure (skipRecall "native_session_history_already_active")
  else
    let reasons := recallReasons.filter fun reason => bool (prop value reason)
    if reasons.length = 0 then pure (skipRecall "simple_fresh_task_without_memory_trigger")
    else
      pure
        { action := .recall
          reasons
          authority := "advisory"
          constraints := some ["must_not_override_current_task",
            "must_not_override_project_contract", "must_not_override_security_policy",
            "inject_only_bounded_relevant_context"] }

/-! ## Plans -/

/-- `optionalBoolean(value, fallback, label)`. -/
def optionalBoolean (value : JsValue) (fallback : Bool) (label : JsString) : Throws Bool :=
  match value with
  | .undefined => .ok fallback
  | .bool b => .ok b
  | _ => throwType (label ++ " must be boolean")

/-- A non-empty string. -/
def nonEmptyText (message : JsString) : JsValue → Throws JsString
  | .str s => if s = [] then throwType message else .ok s
  | _ => throwType message

/-- `stringArray(value, label)`. -/
def stringArray (value : JsValue) (label : JsString) : Throws (List JsString) :=
  match value with
  | .undefined => .ok []
  | .arr items => do
    let texts ← items.mapM (nonEmptyText (label ++ " must be an array of non-empty strings"))
    pure texts.eraseDups
  | _ => throwType (label ++ " must be an array of non-empty strings")

/-- `CONTEXT_AUTHORITY`. -/
def contextAuthority : List JsString :=
  ["security_hard_runtime", "task_and_project_contract", "verified_current_evidence",
    "skill_procedure", "advisory_memory", "historical_raw_context"]

inductive PlanBlocker
  | projectContractMissing | taskProjectContractConflict
  deriving DecidableEq

structure PlanContext where
  projectContractMode : JsString
  projectContractAuthority : JsString
  nativeSessionHistory : JsString
  skillsOwner : JsString
  skillsDiscovery : JsString
  supervisorRouter : Bool
  advisoryMemory : RecallDecision
  memoryTransportRequired : Bool
  evidence : List JsString
  authority : List JsString

inductive PlanAction
  | reconcile | hold | noWorker | ready | blocked
  deriving DecidableEq

/-- What `buildExecutionPlan` returns. The reason is that of a selection without a worker,
    and only a plan with a worker has blockers and a context. -/
structure ExecutionPlan where
  action : PlanAction
  worker : Option Worker
  fallbackChain : List Worker
  reason : Option RoutingReason
  workerSelection : Selection
  executionAllowed : Bool
  blockers : Option (List PlanBlocker)
  context : Option PlanContext
  executionBoundary : Option JsString

/-- The plan of a selection without a worker. -/
def heldPlan (action : PlanAction) (selection : Selection) : ExecutionPlan where
  action
  worker := selection.worker
  fallbackChain := selection.fallbackChain
  reason := some selection.reason
  workerSelection := selection
  executionAllowed := false
  blockers := none
  context := none
  executionBoundary := none

/-- The plan of a selection with a worker. -/
def composePlan (selection : Selection) (context : Props) : Throws ExecutionPlan := do
  let projectContractPresent ← optionalBoolean (prop context "project_contract_present") true
    "context.project_contract_present"
  let nativeSessionActive ← optionalBoolean (prop context "native_session_active") false
    "context.native_session_active"
  let taskContractConflict ← optionalBoolean (prop context "task_contract_conflict") false
    "context.task_contract_conflict"
  let evidence ← stringArray (prop context "evidence") "context.evidence"
  let blockers :=
    (if projectContractPresent then [] else [PlanBlocker.projectContractMissing]) ++
    (if taskContractConflict then [PlanBlocker.taskProjectContractConflict] else [])
  let memoryInput ← requireObject (coalesce (prop context "memory_recall") (.obj []))
    "context.memory_recall"
  let memory ← evaluateRecallPolicy (.obj (defineProp (defineProp memoryInput "project_scoped"
    (coalesce (prop memoryInput "project_scoped") (.bool true))) "fresh_run"
    (coalesce (prop memoryInput "fresh_run") (.bool !nativeSessionActive))))
  pure
    { action := if blockers.length = 0 then .ready else .blocked
      executionAllowed := blockers.length = 0
      blockers := some blockers
      worker := selection.worker
      fallbackChain := selection.fallbackChain
      reason := none
      workerSelection := selection
      context := some
        { projectContractMode := if projectContractPresent then "native" else "missing"
          projectContractAuthority := "project"
          nativeSessionHistory := if nativeSessionActive then "native_active" else "native_new"
          skillsOwner := "native_worker"
          skillsDiscovery := "native_agent_skills"
          supervisorRouter := false
          advisoryMemory := memory
          memoryTransportRequired := memory.action = .recall
          evidence
          authority := contextAuthority }
      executionBoundary := some "caller_invokes_selected_worker_bridge" }

/-- `buildExecutionPlan({ task, state, policy, context })`. -/
def buildExecutionPlan (task state policy context : JsValue) : Throws ExecutionPlan := do
  let context ← requireObject (if context = .undefined then .obj [] else context) "context"
  let selection ← selectWorker task state policy
  match selection.action with
  | .reconcile => pure (heldPlan .reconcile selection)
  | .hold => pure (heldPlan .hold selection)
  | .noWorker => pure (heldPlan .noWorker selection)
  | .select => composePlan selection context

/-! ## Unknown acknowledgements -/

/-- Execution is allowed only where a worker is selected. -/
theorem buildExecutionPlan_allowed {task state policy context : JsValue} {plan : ExecutionPlan}
    (h : buildExecutionPlan task state policy context = .ok plan)
    (hallowed : plan.executionAllowed = true) :
    ∃ selection, selectWorker task state policy = .ok selection ∧ selection.action = .select := by
  obtain ⟨context, -, h⟩ := bind_eq_ok.mp h
  obtain ⟨selection, hselection, h⟩ := bind_eq_ok.mp h
  refine ⟨selection, hselection, ?_⟩
  cases haction : selection.action with
  | select => rfl
  | reconcile | hold | noWorker =>
    rw [haction] at h
    obtain rfl := pure_eq_ok.mp h
    cases hallowed

theorem mutationAck_unknown {value : Props} {state : NormalizedState}
    (hack : prop value "mutation_ack" = .str "unknown")
    (h : normalizeState (.obj value) = .ok state) : state.mutationAck = some .unknown := by
  obtain ⟨ps, hps, h⟩ := bind_eq_ok.mp h
  obtain ⟨claude, -, h⟩ := bind_eq_ok.mp h
  obtain ⟨codex, -, h⟩ := bind_eq_ok.mp h
  obtain ⟨pi, -, h⟩ := bind_eq_ok.mp h
  obtain ⟨activeWorker, -, h⟩ := bind_eq_ok.mp h
  obtain ⟨ack, hmutation, h⟩ := bind_eq_ok.mp h
  obtain ⟨failedWorkers, -, h⟩ := bind_eq_ok.mp h
  obtain rfl := pure_eq_ok.mp h
  rw [if_neg (by simp), requireObject, plainObject_eq_ok, JsValue.obj.injEq] at hps
  rw [← hps, hack] at hmutation
  exact (Except.ok.inj hmutation).symm

/-- The input is accepted, no run is active, and somebody is eligible. -/
def Startable (task state policy : JsValue) : Prop :=
  ∃ normalizedTask normalizedState preferred, normalizeTask task = .ok normalizedTask ∧
    normalizeState state = .ok normalizedState ∧ normalizePolicy policy = .ok preferred ∧
    ¬ normalizedState.RunActive ∧
    ∃ worker, Eligible normalizedTask normalizedState normalizedState.pressure worker

theorem startable_iff {task state policy : JsValue} :
    Startable task state policy ↔
      ∃ selection, selectWorker task state policy = .ok selection ∧
        selection.action = .select := by
  constructor
  · intro ⟨t, s, p, ht, hs, hp, hselect⟩
    exact ⟨_, selectWorker_eq_ok.mpr ⟨t, s, p, ht, hs, hp, rfl⟩,
      selectNormalized_select.mpr hselect⟩
  · intro ⟨selection, hselection, hselect⟩
    obtain ⟨t, s, p, ht, hs, hp, rfl⟩ := selectWorker_eq_ok.mp hselection
    exact ⟨t, s, p, ht, hs, hp, selectNormalized_select.mp hselect⟩

/-- **An unknown acknowledgement.** Under it an active run is reconciled, and the three entry
    points start nothing iff the input is malformed, a run is active or nobody is eligible. -/
theorem unknownAck_blocks {task policy context : JsValue} {value : Props}
    (hack : prop value "mutation_ack" = .str "unknown") :
    (∀ normalizedTask normalizedState preferred, normalizeTask task = .ok normalizedTask →
      normalizeState (.obj value) = .ok normalizedState → normalizePolicy policy = .ok preferred →
      normalizedState.RunActive → ∃ selection, selectWorker task (.obj value) policy =
        .ok selection ∧ selection.action = .reconcile) ∧
    (((∀ selection, selectWorker task (.obj value) policy = .ok selection →
        selection.action ≠ .select) ∧
      (∀ decision, routeTask task (.obj value) policy = .ok decision →
        decision.action ≠ .route ∧ decision.action ≠ .decompose) ∧
      ∀ plan, buildExecutionPlan task (.obj value) policy context = .ok plan →
        plan.executionAllowed = false) ↔
      ¬ Startable task (.obj value) policy) := by
  constructor
  · rintro t s p ht hs hp ⟨hworker, hterminal⟩
    obtain ⟨worker, hworker⟩ := Option.ne_none_iff_exists'.mp hworker
    refine ⟨_, selectWorker_eq_ok.mpr ⟨t, s, p, ht, hs, hp, rfl⟩, ?_⟩
    rw [selectNormalized, hworker, hterminal]
    simp only
    rw [if_pos (mutationAck_unknown hack hs)]
  · constructor
    · rintro ⟨hselect, _, _⟩ hstart
      obtain ⟨selection, hselection, haction⟩ := startable_iff.mp hstart
      exact hselect selection hselection haction
    · intro hstart
      refine ⟨fun selection hselection haction => ?_, fun decision hdecision => ?_,
        fun plan hplan => ?_⟩
      · exact hstart (startable_iff.mpr ⟨selection, hselection, haction⟩)
      · rw [← not_or]
        exact fun haction => hstart (routeTask_selected hdecision haction)
      · by_contra hallowed
        rw [Bool.not_eq_false] at hallowed
        exact hstart (startable_iff.mpr (buildExecutionPlan_allowed hplan hallowed))

/-- The acknowledgement of a start is unknown, and no worker is recorded as active yet. -/
def unconfirmedStart : Props := [("mutation_ack", .str "unknown")]

/-- A second worker is started while the first start is unconfirmed. -/
theorem unknownAck_starts :
    prop unconfirmedStart "mutation_ack" = .str "unknown" ∧
      (∃ selection, selectWorker .undefined (.obj unconfirmedStart) .undefined = .ok selection ∧
        selection.action = .select) ∧
      (∃ decision, routeTask .undefined (.obj unconfirmedStart) .undefined = .ok decision ∧
        decision.action = .route) ∧
      ∃ plan, buildExecutionPlan .undefined (.obj unconfirmedStart) .undefined .undefined =
        .ok plan ∧ plan.executionAllowed = true :=
  ⟨rfl, ⟨_, rfl, by decide⟩, ⟨_, rfl, by decide⟩, _, rfl, rfl⟩

theorem unknownAck_blocks_unconfirmedStart :
    ((∀ selection, selectWorker .undefined (.obj unconfirmedStart) .undefined = .ok selection →
        selection.action ≠ .select) ∧
      (∀ decision, routeTask .undefined (.obj unconfirmedStart) .undefined = .ok decision →
        decision.action ≠ .route ∧ decision.action ≠ .decompose) ∧
      ∀ plan, buildExecutionPlan .undefined (.obj unconfirmedStart) .undefined .undefined =
        .ok plan → plan.executionAllowed = false) ↔
      ¬ Startable .undefined (.obj unconfirmedStart) .undefined :=
  (@unknownAck_blocks .undefined .undefined .undefined unconfirmedStart rfl).2

end Wns.Routing
