import Wns.Checkpoint.Codec
import Wns.Ecma.Coerce
import Wns.Ecma.Digest

/-!
# Recovery plans

What `supervisor-policy/same-worker-respawn.mjs` and
`supervisor-policy/cross-worker-recovery.mjs` share: the termination result and the
retry limit they read, the claim key, and the sections of a checkpoint that a plan
carries along. SHA-256 is a parameter, the hexadecimal digest of a byte string.

* `jsonEq_of_claimMessage`: what is hashed for a claim key determines the tuple.
* `acknowledgement_eq_ok`: an acknowledgement changes the revision, the last execution
  and the retry count, and nothing else.
-/

namespace Wns.Recovery

open Ecma

/-! ## Inputs -/

structure TerminationResult where
  classification : TrimmedString
  reasonCode : TrimmedString
  disposition : TrimmedString
  sameWorkerRetryEligible : Bool
  crossWorkerRerouteEligible : Bool
  automaticResumeEligible : Bool

/-- `normalizeTerminationResult(value)`. -/
def normalizeTerminationResult (value : JsValue) : Throws TerminationResult := do
  let result ← object value "termination_result"
  exactKeys result ["classification", "reason_code", "disposition", "same_worker_retry_eligible",
    "cross_worker_reroute_eligible", "automatic_resume_eligible"] "termination_result"
  let flag (key : JsString) : Throws Bool :=
    boolean ("termination_result." ++ key ++ " must be a boolean") (prop result key)
  let classification ← string (prop result "classification") "termination_result.classification"
  let reasonCode ← string (prop result "reason_code") "termination_result.reason_code"
  let disposition ← string (prop result "disposition") "termination_result.disposition"
  let sameWorker ← flag "same_worker_retry_eligible"
  let crossWorker ← flag "cross_worker_reroute_eligible"
  let automatic ← flag "automatic_resume_eligible"
  pure ⟨classification, reasonCode, disposition, sameWorker, crossWorker, automatic⟩

/-- The limit that a policy with the one key `key` sets. -/
def normalizeLimitOf (key : JsString) (policy : JsValue) : Throws SafeNat := do
  let value ← object policy "policy"
  exactKeys value [key] "policy"
  safeInteger (prop value key) ("policy." ++ key)

/-! ## Plans -/

/-- The answer of a planner. -/
inductive PlanResult (ρ π : Type)
  | rejected (reason : ρ)
  | planned (plan : π)

/-- What a plan records of the checkpoint it was issued from. -/
structure PlanBody where
  claimKey : JsString
  taskId : TrimmedString
  checkpointRevision : SafeNat
  sourceWorkerId : TrimmedString
  sourceNativeSessionId : TrimmedString
  nextAction : NextAction
  resumeCursor : TrimmedString
  retryCountBefore : SafeNat
  retryCountAfter : ℕ
  retryLimit : SafeNat
  workspace : Workspace
  gates : Gates
  constraints : Constraints
  evidenceRefs : References
  receiptRefs : References
  handoffRefs : References
  semanticProgress : SemanticProgress

/-- The properties of a plan from `claim_key` to `source_native_session_id`. -/
def PlanBody.source (p : PlanBody) : Props :=
  [("claim_key", .str p.claimKey), ("task_id", ofString p.taskId),
    ("checkpoint_revision", .nat p.checkpointRevision.1),
    ("source_worker_id", ofString p.sourceWorkerId),
    ("source_native_session_id", ofString p.sourceNativeSessionId)]

/-- The properties of a plan from `target_native_session_id` on. -/
def PlanBody.rest (p : PlanBody) : Props :=
  [("target_native_session_id", .null), ("next_action", p.nextAction.toValue),
    ("resume_cursor", ofString p.resumeCursor),
    ("retry_count_before", .nat p.retryCountBefore.1),
    ("retry_count_after", .nat p.retryCountAfter),
    ("retry_limit", .nat p.retryLimit.1), ("workspace", p.workspace.toValue),
    ("gates", p.gates.toValue), ("constraints", p.constraints.toValue),
    ("evidence_refs", ofReferences p.evidenceRefs), ("receipt_refs", ofReferences p.receiptRefs),
    ("handoff_refs", ofReferences p.handoffRefs),
    ("semantic_progress", p.semanticProgress.toValue)]

/-- The plan body issued from `state`. -/
def planBody (state : TaskCheckpoint) (worker session : TrimmedString) (claimKey : JsString)
    (limit : SafeNat) : PlanBody where
  claimKey
  taskId := state.task.id
  checkpointRevision := state.revision
  sourceWorkerId := worker
  sourceNativeSessionId := session
  nextAction := state.continuation.nextAction
  resumeCursor := state.continuation.resumeCursor
  retryCountBefore := state.continuation.retryCount
  retryCountAfter := state.continuation.retryCount.1 + 1
  retryLimit := limit
  workspace := state.workspace
  gates := state.gates
  constraints := state.constraints
  evidenceRefs := state.evidenceRefs
  receiptRefs := state.receiptRefs
  handoffRefs := state.handoffRefs
  semanticProgress := state.semanticProgress

/-- What is read of the properties of a plan, by the acknowledgement and by the preflight. -/
structure PlanBody.CarriedBy (p : PlanBody) (plan : Props) : Prop where
  claimKey : prop plan "claim_key" = .str p.claimKey
  taskId : prop plan "task_id" = ofString p.taskId
  checkpointRevision : prop plan "checkpoint_revision" = .nat p.checkpointRevision.1
  sourceWorkerId : prop plan "source_worker_id" = ofString p.sourceWorkerId
  sourceNativeSessionId :
    prop plan "source_native_session_id" = ofString p.sourceNativeSessionId
  targetNativeSessionId : prop plan "target_native_session_id" = .null
  nextAction : prop plan "next_action" = p.nextAction.toValue
  retryCountBefore : prop plan "retry_count_before" = .nat p.retryCountBefore.1
  retryCountAfter : prop plan "retry_count_after" = .nat p.retryCountAfter
  retryLimit : prop plan "retry_limit" = .nat p.retryLimit.1
  workspace : prop plan "workspace" = p.workspace.toValue
  gates : prop plan "gates" = p.gates.toValue
  evidenceRefs : prop plan "evidence_refs" = ofReferences p.evidenceRefs
  receiptRefs : prop plan "receipt_refs" = ofReferences p.receiptRefs
  handoffRefs : prop plan "handoff_refs" = ofReferences p.handoffRefs

/-- The properties that an acknowledgement changes. -/
def acknowledgement (state : TaskCheckpoint) (worker : JsValue) (session : TrimmedString)
    (retryCount : JsValue) : JsValue :=
  .obj [("last_execution", .obj [("worker_id", worker), ("native_session_id", ofString session),
      ("native_status", ofEnum NativeStatus.running)]),
    ("continuation", .obj (defineProp state.continuation.props "retry_count" retryCount))]

/-! ## Claim keys -/

section ClaimKey

variable (sha256 : List UInt8 → JsString)

/-- The bytes that are hashed for the tuple `tuple`. -/
def claimMessage (tuple : List JsValue) : List UInt8 := utf8 (jsonText (.arr tuple))

/-- The claim key of a tuple. -/
def tupleKey (tuple : List JsValue) : JsString := "sha256:" ++ sha256 (claimMessage tuple)

theorem tupleKey_inj {s t : List JsValue} :
    tupleKey sha256 s = tupleKey sha256 t ↔ sha256 (claimMessage s) = sha256 (claimMessage t) :=
  List.append_right_inj _

end ClaimKey

/-- Equal messages come from tuples of equal values. -/
theorem jsonEq_of_claimMessage {s t : List JsValue} (hs : ∀ v ∈ s, IsJson v)
    (ht : ∀ v ∈ t, IsJson v) (h : claimMessage s = claimMessage t) :
    List.Forall₂ JsonEq s t := by
  have hs := isJson_arr.mpr hs
  have ht := isJson_arr.mpr ht
  obtain ⟨_, hv, h⟩ := jsonEq_arr.mp
    (jsonEq_of_jsonText hs ht (utf8_injOn (isText_jsonText hs) (isText_jsonText ht) h))
  exact JsValue.arr.inj hv ▸ h

/-- An acknowledgement changes the revision, the last execution and the retry count. -/
theorem acknowledgement_eq_ok {state d : TaskCheckpoint} {worker retryCount : JsValue}
    {session : TrimmedString}
    (h : updateTaskCheckpoint state.toValue (acknowledgement state worker session retryCount) =
      .ok d) :
    d.revision.1 = state.revision.1 + 1 ∧ retryCount = .nat d.continuation.retryCount.1 ∧
      worker = ofNullable d.lastExecution.workerId ∧
      d = { state with
        revision := d.revision
        lastExecution := ⟨d.lastExecution.workerId, some session, .running⟩
        continuation := { state.continuation with retryCount := d.continuation.retryCount } } := by
  obtain ⟨c, hc, patch, hpatch, -, hd⟩ := updateTaskCheckpoint_eq_ok.mp h
  rw [validateTaskCheckpoint_toValue, Except.ok.injEq] at hc
  subst hc
  obtain rfl := JsValue.obj.inj hpatch
  have hrev := hd.revision
  have hexec := hd.lastExecution
  have hcont := hd.continuation
  rw [state.prop_next_revision] at hrev
  rw [state.prop_next _ (by simp) (by simp)] at hexec hcont
  simp only [spread, List.foldl_cons, List.foldl_nil, prop_defineProp, js_inj, if_true]
    at hexec hcont
  simp only [String.reduceEq, if_false] at hexec
  obtain ⟨ps, hps, -, hworker, hsession, hstatus⟩ := LastExecution.jsonEq_iff.mp hexec
  obtain rfl := JsValue.obj.inj hps
  simp at hworker hsession hstatus
  obtain ⟨hretry, hcont⟩ := Continuation.eq_of_retryCount hcont
  have hsession' : d.lastExecution.nativeSessionId = some session := by
    rw [← ofNullable_inj, ← hsession]
    rfl
  refine ⟨(JsValue.nat_inj.mp hrev).symm, hretry, hworker, ?_⟩
  rw [hd.eq_of_patch]
  simp only
  rw [← hcont]
  congr 1
  rw [← hsession', ofEnum_inj.mp hstatus]

/-- The checkpoint after a session of `worker` has taken over. -/
def resumed (state : TaskCheckpoint) (worker session : TrimmedString)
    (hrev : state.revision.1 + 1 ≤ maxSafeInteger)
    (hretry : state.continuation.retryCount.1 + 1 ≤ maxSafeInteger) : TaskCheckpoint :=
  { state with
    revision := ⟨state.revision.1 + 1, hrev⟩
    lastExecution := ⟨some worker, some session, .running⟩
    continuation :=
      { state.continuation with retryCount := ⟨state.continuation.retryCount.1 + 1, hretry⟩ } }

/-- An acknowledgement that names the next retry count succeeds. -/
theorem acknowledgement_resumed (state : TaskCheckpoint) (worker session : TrimmedString)
    (hrev : state.revision.1 + 1 ≤ maxSafeInteger)
    (hretry : state.continuation.retryCount.1 + 1 ≤ maxSafeInteger) :
    updateTaskCheckpoint state.toValue (acknowledgement state (ofString worker) session
      (.nat (state.continuation.retryCount.1 + 1))) =
      .ok (resumed state worker session hrev hretry) := by
  refine updateTaskCheckpoint_eq_ok.mpr ⟨state, validateTaskCheckpoint_toValue _, _, rfl, ?_, ?_⟩
  · simp [updatableKeys]
  · refine .of_jsonEq ?_
    have hprops : state.next [("last_execution", .obj [("worker_id", ofString worker),
        ("native_session_id", ofString session), ("native_status", ofEnum NativeStatus.running)]),
        ("continuation", .obj (defineProp state.continuation.props "retry_count"
          (.nat (state.continuation.retryCount.1 + 1))))] =
        (resumed state worker session hrev hretry).props := by
      simp [TaskCheckpoint.next, TaskCheckpoint.props, spread, defineProp, resumed,
        Continuation.props, Continuation.toValue, LastExecution.toValue]
    rw [hprops]
    exact .refl _

end Wns.Recovery
