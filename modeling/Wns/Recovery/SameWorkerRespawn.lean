import Wns.Recovery.Plan

/-!
# Same-worker respawn

Model of `supervisor-policy/same-worker-respawn.mjs`. The plan that is acknowledged is
whatever the host hands back, so `acknowledgeSameWorkerRespawn` takes a value.

* `planSameWorkerRespawn_planned`: what an issued plan records.
* `acknowledgeSameWorkerRespawn_ok`: an acknowledgement returns the checkpoint as it
  is, or advances it from the revision of the plan.
-/

namespace Wns.Recovery

open Ecma

/-- `RESPAWN_PLAN_REASONS`. -/
inductive RespawnReason
  | eligible | taskNotOpen | classificationIneligible | unsafeToResume | approvalBlocked
  | retryBudgetExhausted | sourceWorkerMissing | sourceSessionMissing
  deriving DecidableEq

instance : JsEnum RespawnReason where
  values :=
    [.eligible, .taskNotOpen, .classificationIneligible, .unsafeToResume, .approvalBlocked,
      .retryBudgetExhausted, .sourceWorkerMissing, .sourceSessionMissing]
  text
    | .eligible => "same_worker_respawn_eligible"
    | .taskNotOpen => "task_not_open"
    | .classificationIneligible => "termination_classification_ineligible"
    | .unsafeToResume => "checkpoint_not_safe_to_resume"
    | .approvalBlocked => "approval_blocks_respawn"
    | .retryBudgetExhausted => "retry_budget_exhausted"
    | .sourceWorkerMissing => "source_worker_missing"
    | .sourceSessionMissing => "source_session_missing"
  complete := by rintro ⟨⟩ <;> simp
  injective := by rintro ⟨⟩ ⟨⟩ <;> simp

/-- `ELIGIBLE_REASONS`. -/
def eligibleReasons : List JsString :=
  ["session_interrupted", "session_timeout", "runtime_timeout", "context_exhausted",
    "transient_provider_error", "model_stall"]

/-- Whether a termination result allows a respawn. -/
def respawnEligible (result : TerminationResult) : Prop :=
  (result.classification.1 = js "resumable" ∨
    result.classification.1 = js "retry_same_worker_candidate") ∧
  result.reasonCode.1 ∈ eligibleReasons ∧
  (result.automaticResumeEligible = true ∨ result.sameWorkerRetryEligible = true)

instance : DecidablePred respawnEligible := fun _ =>
  inferInstanceAs (Decidable (_ ∧ _ ∧ _))

/-- Approval is pending or rejected. -/
def approvalBlocks (state : TaskCheckpoint) : Prop :=
  state.constraints.approval.status = .pending ∨ state.constraints.approval.status = .rejected

instance : DecidablePred approvalBlocks := fun _ => inferInstanceAs (Decidable (_ ∨ _))

/-- A same-worker respawn plan. -/
abbrev RespawnPlan := PlanBody

/-- The properties of a respawn plan. -/
def RespawnPlan.props (p : RespawnPlan) : Props :=
  ("planned", .bool true) :: ("reason_code", ofEnum RespawnReason.eligible) ::
    ("plan_version", .nat 1) :: ("action", .str "spawn_same_worker") :: (p.source ++ p.rest)

def RespawnPlan.toValue (p : RespawnPlan) : JsValue := .obj (RespawnPlan.props p)

theorem RespawnPlan.carried (p : RespawnPlan) : p.CarriedBy (RespawnPlan.props p) := by
  constructor <;> simp [RespawnPlan.props, PlanBody.source, PlanBody.rest]

section

variable (sha256 : List UInt8 → JsString)

/-- The tuple that `claimKey` of a respawn hashes. -/
def respawnTuple (taskId : TrimmedString) (revision : SafeNat)
    (worker session : Option TrimmedString) (retryAfter : JsValue) : List JsValue :=
  [.nat 1, ofString taskId, .nat revision.1, ofNullable worker, ofNullable session, retryAfter]

/-- `planSameWorkerRespawn({ checkpoint, termination_result, policy })`. -/
def planSameWorkerRespawn (checkpoint terminationResult policy : JsValue) :
    Throws (PlanResult RespawnReason RespawnPlan) := do
  let state ← validateTaskCheckpoint checkpoint
  let result ← normalizeTerminationResult terminationResult
  let limit ← normalizeLimitOf "max_retry_count" policy
  if state.task.status ≠ .open then pure (.rejected .taskNotOpen)
  else if ¬ respawnEligible result then pure (.rejected .classificationIneligible)
  else if state.continuation.safeToResume = false then pure (.rejected .unsafeToResume)
  else if approvalBlocks state then pure (.rejected .approvalBlocked)
  else if limit.1 ≤ state.continuation.retryCount.1 then pure (.rejected .retryBudgetExhausted)
  else
    match state.lastExecution.workerId, state.lastExecution.nativeSessionId with
    | none, _ => pure (.rejected .sourceWorkerMissing)
    | some _, none => pure (.rejected .sourceSessionMissing)
    | some worker, some session =>
      let key := tupleKey sha256 (respawnTuple state.task.id state.revision worker session
        (.nat (state.continuation.retryCount.1 + 1)))
      pure (.planned (planBody state worker session key limit))

/-- `acknowledgeSameWorkerRespawn({ checkpoint, plan, new_native_session_id })`. -/
def acknowledgeSameWorkerRespawn (checkpoint plan newNativeSessionId : JsValue) :
    Throws TaskCheckpoint := do
  let state ← validateTaskCheckpoint checkpoint
  let newSessionId ← string newNativeSessionId "new_native_session_id"
  let plan ← object plan "plan"
  let _ ← require (prop plan "planned" = .bool true ∧
    prop plan "action" = .str "spawn_same_worker" ∧ prop plan "plan_version" = .nat 1)
    "plan is not an ASR-3 same-worker respawn plan"
  let _ ← require (ofString newSessionId ≠ prop plan "source_native_session_id")
    "new_native_session_id must differ from source_native_session_id"
  let worker := ofNullable state.lastExecution.workerId
  let session := ofNullable state.lastExecution.nativeSessionId
  let retryCount := JsValue.nat state.continuation.retryCount.1
  let successor ← addOne (prop plan "checkpoint_revision")
  if .nat state.revision.1 = successor ∧ session = ofString newSessionId ∧
      worker = prop plan "source_worker_id" ∧ retryCount = prop plan "retry_count_after" then
    pure state
  else do
    let _ ← require (.nat state.revision.1 = prop plan "checkpoint_revision")
      "acknowledgement checkpoint revision does not match plan"
    let _ ← require (ofString state.task.id = prop plan "task_id" ∧
      worker = prop plan "source_worker_id" ∧ session = prop plan "source_native_session_id" ∧
      retryCount = prop plan "retry_count_before")
      "acknowledgement checkpoint does not match plan source"
    let retryAfter := prop plan "retry_count_after"
    let expectedKey := tupleKey sha256 (respawnTuple state.task.id state.revision
      state.lastExecution.workerId state.lastExecution.nativeSessionId retryAfter)
    let _ ← require (prop plan "claim_key" = .str expectedKey)
      "respawn plan transition is invalid"
    let after ← addOne (prop plan "retry_count_before")
    let _ ← require (strictEq retryAfter after) "respawn plan transition is invalid"
    -- `retry_count_after` is the counter above by now
    let exceeded ← exceeds (state.continuation.retryCount.1 + 1) (prop plan "retry_limit")
    let _ ← require (exceeded = false) "respawn plan transition is invalid"
    updateTaskCheckpoint state.toValue
      (acknowledgement state (prop plan "source_worker_id") newSessionId retryAfter)

variable {sha256 : List UInt8 → JsString}

/-- When a respawn is planned, and what the plan is. -/
theorem planSameWorkerRespawn_planned {checkpoint terminationResult policy : JsValue}
    {p : RespawnPlan} :
    planSameWorkerRespawn sha256 checkpoint terminationResult policy = .ok (.planned p) ↔
      ∃ state result limit worker session, validateTaskCheckpoint checkpoint = .ok state ∧
        normalizeTerminationResult terminationResult = .ok result ∧
        normalizeLimitOf "max_retry_count" policy = .ok limit ∧
        state.task.status = .open ∧ respawnEligible result ∧
        state.continuation.safeToResume = true ∧ ¬ approvalBlocks state ∧
        state.continuation.retryCount.1 < limit.1 ∧ state.lastExecution.workerId = some worker ∧
        state.lastExecution.nativeSessionId = some session ∧
        p = planBody state worker session (tupleKey sha256 (respawnTuple state.task.id
          state.revision worker session (.nat (state.continuation.retryCount.1 + 1)))) limit := by
  simp only [planSameWorkerRespawn, bind_eq_ok]
  constructor
  · rintro ⟨state, hstate, result, hresult, limit, hlimit, h⟩
    split_ifs at h with h1 h2 h3 h4 h5 <;> try simp at h
    split at h <;> simp at h
    next worker session hworker hsession =>
    exact ⟨state, result, limit, worker, session, hstate, hresult, hlimit, by simpa using h1,
      by simpa using h2, by simpa using h3, h4, by omega, hworker, hsession, h.symm⟩
  · rintro ⟨state, result, limit, worker, session, hstate, hresult, hlimit, h1, h2, h3, h4, h5,
      hworker, hsession, rfl⟩
    refine ⟨state, hstate, result, hresult, limit, hlimit, ?_⟩
    simp only [h1, h2, h3, h4, Nat.not_le.mpr h5, hworker, hsession, ne_eq, not_true_eq_false,
      if_false, Bool.true_eq_false]
    rfl

/-- A plan that is acknowledged is an object. -/
theorem exists_props_of_acknowledgeSameWorkerRespawn {checkpoint plan newNativeSessionId : JsValue}
    {d : TaskCheckpoint}
    (h : acknowledgeSameWorkerRespawn sha256 checkpoint plan newNativeSessionId = .ok d) :
    ∃ ps, plan = .obj ps := by
  obtain ⟨_, _, h⟩ := bind_eq_ok.mp h
  obtain ⟨_, _, h⟩ := bind_eq_ok.mp h
  obtain ⟨ps, hps, _⟩ := bind_eq_ok.mp h
  exact ⟨ps, object_eq_ok.mp hps⟩

/-- An acknowledgement returns the checkpoint as it is, one revision after the plan, or
    advances it to the planned successor, from the revision of the plan. -/
theorem acknowledgeSameWorkerRespawn_ok {c d : TaskCheckpoint} {ps : Props}
    {newNativeSessionId : JsValue}
    (h : acknowledgeSameWorkerRespawn sha256 c.toValue (.obj ps) newNativeSessionId = .ok d) :
    d = c ∧ addOne (prop ps "checkpoint_revision") = .ok (.nat c.revision.1) ∨
    prop ps "checkpoint_revision" = .nat c.revision.1 ∧
      d.revision.1 = c.revision.1 + 1 ∧
      d.continuation.retryCount.1 = c.continuation.retryCount.1 + 1 ∧
      ∃ session, newNativeSessionId = ofString session ∧
        d = { c with
          revision := d.revision
          lastExecution := ⟨c.lastExecution.workerId, some session, .running⟩
          continuation := { c.continuation with retryCount := d.continuation.retryCount } } := by
  simp only [acknowledgeSameWorkerRespawn, bind_eq_ok, validateTaskCheckpoint_toValue,
    Except.ok.injEq, string_eq_ok, object_eq_ok, JsValue.obj.injEq, require_eq_ok, exists_pLift]
    at h
  obtain ⟨c, rfl, session, hsession, ps, rfl, -, -, -, -, successor, hsuccessor, h⟩ := h
  split_ifs at h with hdup
  · exact .inl ⟨(pure_eq_ok.mp h).symm, hdup.1 ▸ hsuccessor⟩
  · simp only [bind_eq_ok, require_eq_ok, exists_pLift] at h
    obtain ⟨hrev, -, hsource, -, hkey, -, after, hafter, heq, -, exceeded, -, -, -, h⟩ := h
    obtain ⟨hrev', hretry, hworker, hd⟩ := acknowledgement_eq_ok h
    rw [← hsource.2.2.2, addOne_nat, Except.ok.injEq] at hafter
    rw [eq_of_strictEq heq, ← hafter, JsValue.nat_inj] at hretry
    rw [← hsource.2.1, ofNullable_inj] at hworker
    rw [← hworker] at hd
    exact .inr ⟨hrev.symm, hrev', hretry.symm, session, hsession, hd⟩

/-- Acknowledging an issued plan on the checkpoint it was issued from installs the new
    session. -/
theorem acknowledgeSameWorkerRespawn_planned {c : TaskCheckpoint}
    {worker session newSession : TrimmedString} {limit : SafeNat}
    (hworker : c.lastExecution.workerId = some worker)
    (hsession : c.lastExecution.nativeSessionId = some session)
    (hlimit : c.continuation.retryCount.1 < limit.1) (hnew : newSession ≠ session)
    (hrev : c.revision.1 + 1 ≤ maxSafeInteger) :
    acknowledgeSameWorkerRespawn sha256 c.toValue (RespawnPlan.toValue (planBody c worker session
        (tupleKey sha256 (respawnTuple c.task.id c.revision worker session
          (.nat (c.continuation.retryCount.1 + 1)))) limit)) (ofString newSession) =
      .ok (resumed c worker newSession hrev (by have := limit.2; omega)) := by
  set p := planBody c worker session _ limit with hp
  have hcarried := RespawnPlan.carried p
  have hspawn : prop (RespawnPlan.props p) "planned" = .bool true ∧
      prop (RespawnPlan.props p) "action" = .str "spawn_same_worker" ∧
      prop (RespawnPlan.props p) "plan_version" = .nat 1 := by
    simp [RespawnPlan.props]
  simp only [acknowledgeSameWorkerRespawn, RespawnPlan.toValue, bind_eq_ok,
    validateTaskCheckpoint_toValue, Except.ok.injEq, string_eq_ok, object_eq_ok,
    JsValue.obj.injEq, require_eq_ok, exists_pLift, exists_eq_left', exists_prop, and_self_left,
    hspawn, hcarried.sourceNativeSessionId, hcarried.checkpointRevision, hcarried.sourceWorkerId,
    hcarried.retryCountAfter, hcarried.retryCountBefore, hcarried.retryLimit, addOne_nat,
    exceeds_nat, ne_eq, ofString_inj, true_and]
  refine ⟨hnew, ?_⟩
  rw [if_neg (by simp [hp, planBody])]
  simp only [bind_eq_ok, require_eq_ok, exists_pLift, exists_prop, and_self_left,
    Except.ok.injEq, exists_eq_left', hcarried.sourceNativeSessionId,
    hcarried.checkpointRevision, hcarried.sourceWorkerId, hcarried.retryCountAfter,
    hcarried.retryCountBefore, hcarried.taskId, hcarried.claimKey, hworker, hsession]
  refine ⟨rfl, ⟨rfl, rfl, rfl, rfl⟩, rfl, by simp [hp, planBody], ?_, ?_⟩
  · simp only [hp, planBody, decide_eq_false_iff_not]
    omega
  · exact acknowledgement_resumed c worker newSession hrev _

end

/-! ## An interrupted session -/

/-- The classification of an interrupted session. -/
def interruption : TerminationResult where
  classification := ⟨"resumable", by decide⟩
  reasonCode := ⟨"session_interrupted", by decide⟩
  disposition := ⟨"resume_from_checkpoint", by decide⟩
  sameWorkerRetryEligible := false
  crossWorkerRerouteEligible := false
  automaticResumeEligible := true

def interruptionValue : JsValue :=
  .obj [("classification", .str "resumable"), ("reason_code", .str "session_interrupted"),
    ("disposition", .str "resume_from_checkpoint"), ("same_worker_retry_eligible", .bool false),
    ("cross_worker_reroute_eligible", .bool false), ("automatic_resume_eligible", .bool true)]

/-- A policy of two retries. -/
def twoRetries : JsValue := .obj [("max_retry_count", .nat 2)]

theorem normalizeTerminationResult_interruption :
    normalizeTerminationResult interruptionValue = .ok interruption := rfl

theorem normalizeLimitOf_twoRetries :
    normalizeLimitOf "max_retry_count" twoRetries = .ok ⟨2, by decide⟩ := rfl

/-- The SHA-256 digest of the claim of `interruptedPlan`. -/
def interruptedDigest : JsString :=
  "f7a1e3d0a7c6d5f9ad4a4d1a5f4804e54c081b54962aa8181ec125817af60ed7"

/-- The plan to resume the interrupted session. -/
def interruptedPlan : RespawnPlan :=
  planBody interruptedCheckpoint (checked "codex") (checked "session-old")
    ("sha256:" ++ interruptedDigest) (checked 2)

theorem planSameWorkerRespawn_interrupted :
    planSameWorkerRespawn (fun _ => interruptedDigest) interruptedCheckpoint.toValue
      interruptionValue twoRetries = .ok (.planned interruptedPlan) :=
  planSameWorkerRespawn_planned.mpr ⟨interruptedCheckpoint, interruption, ⟨2, by decide⟩, _, _,
    validateTaskCheckpoint_toValue _, rfl, rfl, rfl, by decide, rfl, by decide, by decide, rfl, rfl,
    rfl⟩

/-- The interrupted checkpoint once its session has been replaced. -/
def resumedCheckpoint : TaskCheckpoint :=
  resumed interruptedCheckpoint (checked "codex") (checked "session-new") (by decide) (by decide)

theorem acknowledgeSameWorkerRespawn_interrupted :
    acknowledgeSameWorkerRespawn (fun _ => interruptedDigest) interruptedCheckpoint.toValue
      (RespawnPlan.toValue interruptedPlan) (ofString ⟨"session-new", by decide⟩) =
      .ok resumedCheckpoint :=
  acknowledgeSameWorkerRespawn_planned rfl rfl (by decide) (by decide) (by decide)

end Wns.Recovery
