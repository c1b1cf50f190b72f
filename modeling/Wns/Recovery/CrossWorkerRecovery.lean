import Wns.Recovery.SameWorkerRespawn
import Wns.Routing.Policy

/-!
# Cross-worker recovery

Model of `supervisor-policy/cross-worker-recovery.mjs`. The target worker is the one
that `selectWorker` picks once the source worker counts as failed.

* `planCrossWorkerRecovery_planned`: what an issued plan records.
* `acknowledgeCrossWorkerRecovery_ok`: an acknowledgement returns the checkpoint as it
  is, or advances it from the revision of the plan.
-/

namespace Wns.Recovery

open Ecma Routing

/-- `CROSS_WORKER_REASONS`. -/
inductive CrossWorkerReason
  | eligible | taskNotOpen | classificationIneligible | unsafeToResume | approvalBlocked
  | budgetExhausted | sourceWorkerMissing | sourceSessionMissing | sourceWorkerUnsupported
  | targetUnavailable
  deriving DecidableEq

instance : JsEnum CrossWorkerReason where
  values :=
    [.eligible, .taskNotOpen, .classificationIneligible, .unsafeToResume, .approvalBlocked,
      .budgetExhausted, .sourceWorkerMissing, .sourceSessionMissing, .sourceWorkerUnsupported,
      .targetUnavailable]
  text
    | .eligible => "cross_worker_recovery_eligible"
    | .taskNotOpen => "task_not_open"
    | .classificationIneligible => "cross_worker_classification_ineligible"
    | .unsafeToResume => "checkpoint_not_safe_to_resume"
    | .approvalBlocked => "approval_blocks_reroute"
    | .budgetExhausted => "reroute_budget_exhausted"
    | .sourceWorkerMissing => "source_worker_missing"
    | .sourceSessionMissing => "source_session_missing"
    | .sourceWorkerUnsupported => "source_worker_unsupported"
    | .targetUnavailable => "no_supported_target_worker"
  complete := by rintro ⟨⟩ <;> simp
  injective := by rintro ⟨⟩ ⟨⟩ <;> simp

/-- Whether a termination result allows a reroute. -/
def rerouteEligible (result : TerminationResult) : Prop :=
  result.classification.1 = js "retry_or_reroute_candidate" ∧
  result.reasonCode.1 = js "tool_runtime_failure" ∧ result.crossWorkerRerouteEligible = true

instance : DecidablePred rerouteEligible := fun _ =>
  inferInstanceAs (Decidable (_ ∧ _ ∧ _))

/-- A cross-worker recovery plan. -/
structure CrossWorkerPlan extends PlanBody where
  targetWorkerId : Worker

/-- The properties of a cross-worker plan. -/
def CrossWorkerPlan.props (p : CrossWorkerPlan) : Props :=
  ("planned", .bool true) :: ("reason_code", ofEnum CrossWorkerReason.eligible) ::
    ("plan_version", .nat 1) :: ("action", .str "spawn_cross_worker") ::
    (p.source ++ (js "target_worker_id", ofEnum p.targetWorkerId) :: p.rest)

def CrossWorkerPlan.toValue (p : CrossWorkerPlan) : JsValue := .obj p.props

theorem CrossWorkerPlan.carried (p : CrossWorkerPlan) : p.CarriedBy p.props := by
  constructor <;> simp [CrossWorkerPlan.props, PlanBody.source, PlanBody.rest]

/-- `{ ...worker_state, active_worker: null, …, failed_workers }`. -/
def recoveryState (workerState : Props) (failedWorkers : List JsValue) : JsValue :=
  .obj (defineProp (defineProp (defineProp (defineProp (defineProp (spread [] workerState)
    "active_worker" .null) "active_terminal" (.bool true)) "pending_hitl" (.bool false))
    "mutation_ack" .null) "failed_workers" (.arr failedWorkers))

section

variable (sha256 : List UInt8 → JsString)

/-- The tuple that `claimKey` of a reroute hashes. -/
def crossWorkerTuple (state : TaskCheckpoint) (targetWorker after : JsValue) : List JsValue :=
  [.nat 1, ofString state.task.id, .nat state.revision.1,
    ofNullable state.lastExecution.workerId, ofNullable state.lastExecution.nativeSessionId,
    targetWorker, after]

/-- `planCrossWorkerRecovery({ checkpoint, termination_result, task, worker_state,
    routing_policy, policy })`. -/
def planCrossWorkerRecovery
    (checkpoint terminationResult task workerState routingPolicy policy : JsValue) :
    Throws (PlanResult CrossWorkerReason CrossWorkerPlan) := do
  let state ← validateTaskCheckpoint checkpoint
  let result ← normalizeTerminationResult terminationResult
  let limit ← normalizeLimitOf "max_reroute_count" policy
  let task ← object task "task"
  let workerState ← object workerState "worker_state"
  let routingPolicy ← object (if routingPolicy = .undefined then .obj [] else routingPolicy)
    "routing_policy"
  if state.task.status ≠ .open then pure (.rejected .taskNotOpen)
  else if approvalBlocks state then pure (.rejected .approvalBlocked)
  else if ¬ rerouteEligible result then pure (.rejected .classificationIneligible)
  else if state.continuation.safeToResume = false then pure (.rejected .unsafeToResume)
  else if limit.1 ≤ state.continuation.retryCount.1 then pure (.rejected .budgetExhausted)
  else
    match state.lastExecution.workerId, state.lastExecution.nativeSessionId with
    | none, _ => pure (.rejected .sourceWorkerMissing)
    | some _, none => pure (.rejected .sourceSessionMissing)
    | some source, some session =>
      if ofString source ∉ workerValues then
        pure (.rejected .sourceWorkerUnsupported)
      else do
        let previous ← iterate (coalesce (prop workerState "failed_workers") (.arr []))
        let failedWorkers := (previous ++ [ofString source]).eraseDups
        let selection ← selectWorker (.obj task) (recoveryState workerState failedWorkers)
          (.obj routingPolicy)
        match selection.action, selection.worker with
        | .select, some target =>
          if ofEnum target = ofString source then pure (.rejected .targetUnavailable)
          else
            let after := JsValue.nat (state.continuation.retryCount.1 + 1)
            let key := tupleKey sha256 (crossWorkerTuple state (ofEnum target) after)
            pure (.planned ⟨planBody state source session key limit, target⟩)
        | _, _ => pure (.rejected .targetUnavailable)

/-- `acknowledgeCrossWorkerRecovery({ checkpoint, plan, new_native_session_id })`. -/
def acknowledgeCrossWorkerRecovery (checkpoint plan newNativeSessionId : JsValue) :
    Throws TaskCheckpoint := do
  let state ← validateTaskCheckpoint checkpoint
  let plan ← object plan "plan"
  let newSession ← string newNativeSessionId "new_native_session_id"
  let _ ← require (prop plan "planned" = .bool true ∧ prop plan "plan_version" = .nat 1 ∧
    prop plan "action" = .str "spawn_cross_worker")
    "plan is not an ASR-5 cross-worker recovery plan"
  let target := prop plan "target_worker_id"
  let _ ← require (¬ strictEq (prop plan "source_worker_id") target)
    "target worker must differ from source worker"
  let _ ← require (target ∈ workerValues) "target worker is unsupported"
  let _ ← require (ofString newSession ≠ prop plan "source_native_session_id")
    "new_native_session_id must differ from source_native_session_id"
  let worker := ofNullable state.lastExecution.workerId
  let session := ofNullable state.lastExecution.nativeSessionId
  let retryCount := JsValue.nat state.continuation.retryCount.1
  let successor ← addOne (prop plan "checkpoint_revision")
  if .nat state.revision.1 = successor ∧ worker = target ∧ session = ofString newSession ∧
      retryCount = prop plan "retry_count_after" then
    pure state
  else do
    let _ ← require (.nat state.revision.1 = prop plan "checkpoint_revision")
      "acknowledgement checkpoint revision does not match plan"
    let _ ← require (ofString state.task.id = prop plan "task_id" ∧
      worker = prop plan "source_worker_id" ∧ session = prop plan "source_native_session_id" ∧
      retryCount = prop plan "retry_count_before")
      "acknowledgement checkpoint does not match plan source"
    let after := prop plan "retry_count_after"
    let _ ← require
      (prop plan "claim_key" = .str (tupleKey sha256 (crossWorkerTuple state target after)))
      "cross-worker recovery plan transition is invalid"
    let successor ← addOne (prop plan "retry_count_before")
    let _ ← require (strictEq after successor) "cross-worker recovery plan transition is invalid"
    -- `retry_count_after` is the counter above by now
    let exceeded ← exceeds (state.continuation.retryCount.1 + 1) (prop plan "retry_limit")
    let _ ← require (exceeded = false) "cross-worker recovery plan transition is invalid"
    updateTaskCheckpoint state.toValue (acknowledgement state target newSession after)

variable {sha256 : List UInt8 → JsString}

/-- `target` is what `selectWorker` picks among the given workers once `source` counts as
    failed. -/
def SelectsTarget (task workerState routingPolicy : JsValue) (source : TrimmedString)
    (target : Worker) : Prop :=
  ∃ raw previous selection, workerState = .obj raw ∧
    iterate (coalesce (prop raw "failed_workers") (.arr [])) = .ok previous ∧
    selectWorker task (recoveryState raw (previous ++ [ofString source]).eraseDups)
      (if routingPolicy = .undefined then .obj [] else routingPolicy) = .ok selection ∧
    selection.action = .select ∧ selection.worker = some target

/-- When a reroute is planned, and what the plan is. -/
theorem planCrossWorkerRecovery_planned
    {checkpoint terminationResult task workerState routingPolicy policy : JsValue}
    {p : CrossWorkerPlan} (h : planCrossWorkerRecovery sha256 checkpoint terminationResult task
      workerState routingPolicy policy = .ok (.planned p)) :
    ∃ state result limit source session target, validateTaskCheckpoint checkpoint = .ok state ∧
      normalizeTerminationResult terminationResult = .ok result ∧
      normalizeLimitOf "max_reroute_count" policy = .ok limit ∧
      state.task.status = .open ∧ rerouteEligible result ∧
      state.continuation.safeToResume = true ∧ ¬ approvalBlocks state ∧
      state.continuation.retryCount.1 < limit.1 ∧ state.lastExecution.workerId = some source ∧
      state.lastExecution.nativeSessionId = some session ∧ ofEnum target ≠ ofString source ∧
      SelectsTarget task workerState routingPolicy source target ∧
      p = ⟨planBody state source session (tupleKey sha256 (crossWorkerTuple state (ofEnum target)
        (.nat (state.continuation.retryCount.1 + 1)))) limit, target⟩ := by
  simp only [planCrossWorkerRecovery, bind_eq_ok, object_eq_ok] at h
  obtain ⟨state, hstate, result, hresult, limit, hlimit, task, rfl, raw, rfl, routing, hrouting,
    h⟩ := h
  split_ifs at h with h1 h2 h3 h4 h5 <;> try (simp at h; done)
  split at h <;> try (simp at h; done)
  next source session hsource hsession =>
  split_ifs at h with h6 <;> try (simp at h; done)
  obtain ⟨previous, hprevious, h⟩ := bind_eq_ok.mp h
  obtain ⟨selection, hselection, h⟩ := bind_eq_ok.mp h
  split at h
  · next target haction htarget =>
    split_ifs at h with h7
    · simp at h
    · simp only [pure_eq_ok, PlanResult.planned.injEq] at h
      exact ⟨state, result, limit, source, session, target, hstate, hresult, hlimit,
        by simpa using h1, h3, by simpa using h4, h2, by omega, hsource, hsession, h7,
        ⟨raw, previous, selection, rfl, hprevious, hrouting ▸ hselection, haction, htarget⟩,
        h.symm⟩
  · simp at h

/-- A plan that is acknowledged is an object. -/
theorem exists_props_of_acknowledgeCrossWorkerRecovery
    {checkpoint plan newNativeSessionId : JsValue} {d : TaskCheckpoint}
    (h : acknowledgeCrossWorkerRecovery sha256 checkpoint plan newNativeSessionId = .ok d) :
    ∃ ps, plan = .obj ps := by
  obtain ⟨_, _, h⟩ := bind_eq_ok.mp h
  obtain ⟨ps, hps, _⟩ := bind_eq_ok.mp h
  exact ⟨ps, object_eq_ok.mp hps⟩

/-- An acknowledgement returns the checkpoint as it is, one revision after the plan, or
    advances it to the planned successor, from the revision of the plan. -/
theorem acknowledgeCrossWorkerRecovery_ok {c d : TaskCheckpoint} {ps : Props}
    {newNativeSessionId : JsValue}
    (h : acknowledgeCrossWorkerRecovery sha256 c.toValue (.obj ps) newNativeSessionId = .ok d) :
    d = c ∧ addOne (prop ps "checkpoint_revision") = .ok (.nat c.revision.1) ∨
    prop ps "checkpoint_revision" = .nat c.revision.1 ∧
      d.revision.1 = c.revision.1 + 1 ∧
      d.continuation.retryCount.1 = c.continuation.retryCount.1 + 1 ∧
      ∃ session, newNativeSessionId = ofString session ∧
        d = { c with
          revision := d.revision
          lastExecution := ⟨d.lastExecution.workerId, some session, .running⟩
          continuation := { c.continuation with retryCount := d.continuation.retryCount } } := by
  simp only [acknowledgeCrossWorkerRecovery, bind_eq_ok, validateTaskCheckpoint_toValue,
    Except.ok.injEq, string_eq_ok, object_eq_ok, JsValue.obj.injEq, require_eq_ok, exists_pLift]
    at h
  obtain ⟨c, rfl, ps, rfl, session, hsession, -, -, -, -, -, -, -, -, successor, hsuccessor, h⟩ := h
  split_ifs at h with hdup
  · exact .inl ⟨(pure_eq_ok.mp h).symm, hdup.1 ▸ hsuccessor⟩
  · simp only [bind_eq_ok, require_eq_ok, exists_pLift] at h
    obtain ⟨hrev, -, hsource, -, hkey, -, after, hafter, heq, -, exceeded, -, -, -, h⟩ := h
    obtain ⟨hrev', hretry, hworker, hd⟩ := acknowledgement_eq_ok h
    rw [← hsource.2.2.2, addOne_nat, Except.ok.injEq] at hafter
    rw [eq_of_strictEq heq, ← hafter, JsValue.nat_inj] at hretry
    exact .inr ⟨hrev.symm, hrev', hretry.symm, session, hsession, hd⟩

end

end Wns.Recovery
