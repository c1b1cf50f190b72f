import Wns.Recovery.CrossWorkerRecovery
import Wns.Routing.Contract

/-!
# Session termination

Model of `supervisor-policy/session-termination.mjs`, and what its classification means to
the two planners.

* `planSameWorkerRespawn_iff`: when a respawn is planned.
* `planCrossWorkerRecovery_selects`: whom a reroute is planned to.
* `not_both_planned`: no termination result is planned for by both.
* `eligibility`: the three together, with the evidence that neither plans for.
-/

namespace Wns.Recovery

open Ecma Routing

/-! ## Enumerations -/

/-- `TERMINATION_SIGNALS`. -/
inductive TerminationSignal
  | normalCompletion | interrupted | sessionTimeout | runtimeTimeout | contextExhausted
  | transientProviderError | modelStall | toolRuntimeFailure | safetyBlock | terminalTaskFailure
  | unknown
  deriving DecidableEq

instance : JsEnum TerminationSignal where
  values :=
    [.normalCompletion, .interrupted, .sessionTimeout, .runtimeTimeout, .contextExhausted,
      .transientProviderError, .modelStall, .toolRuntimeFailure, .safetyBlock,
      .terminalTaskFailure, .unknown]
  text
    | .normalCompletion => "normal_completion"
    | .interrupted => "interrupted"
    | .sessionTimeout => "session_timeout"
    | .runtimeTimeout => "runtime_timeout"
    | .contextExhausted => "context_exhausted"
    | .transientProviderError => "transient_provider_error"
    | .modelStall => "model_stall"
    | .toolRuntimeFailure => "tool_runtime_failure"
    | .safetyBlock => "safety_block"
    | .terminalTaskFailure => "terminal_task_failure"
    | .unknown => "unknown"
  complete := by rintro ⟨⟩ <;> simp
  injective := by rintro ⟨⟩ ⟨⟩ <;> simp

/-- `TERMINATION_CLASSIFICATIONS`. -/
inductive TerminationClassification
  | terminal | continueNextPhase | resumable | retryCandidate | recoveryCandidate | humanRequired
  | reviewRequired
  deriving DecidableEq

instance : JsEnum TerminationClassification where
  values :=
    [.terminal, .continueNextPhase, .resumable, .retryCandidate, .recoveryCandidate,
      .humanRequired, .reviewRequired]
  text
    | .terminal => "terminal"
    | .continueNextPhase => "continue_next_phase"
    | .resumable => "resumable"
    | .retryCandidate => "retry_same_worker_candidate"
    | .recoveryCandidate => "retry_or_reroute_candidate"
    | .humanRequired => "human_required"
    | .reviewRequired => "review_required"
  complete := by rintro ⟨⟩ <;> simp
  injective := by rintro ⟨⟩ ⟨⟩ <;> simp

/-- `TERMINATION_DISPOSITIONS`. -/
inductive TerminationDisposition
  | stop | continueNextPhase | resumeFromCheckpoint | considerSameWorkerRetry
  | considerRetryOrReroute | humanRequired | reviewRequired | escalateFailed
  deriving DecidableEq

instance : JsEnum TerminationDisposition where
  values :=
    [.stop, .continueNextPhase, .resumeFromCheckpoint, .considerSameWorkerRetry,
      .considerRetryOrReroute, .humanRequired, .reviewRequired, .escalateFailed]
  text
    | .stop => "stop"
    | .continueNextPhase => "continue_next_phase"
    | .resumeFromCheckpoint => "resume_from_checkpoint"
    | .considerSameWorkerRetry => "consider_same_worker_retry"
    | .considerRetryOrReroute => "consider_retry_or_reroute"
    | .humanRequired => "human_required"
    | .reviewRequired => "review_required"
    | .escalateFailed => "escalate_failed"
  complete := by rintro ⟨⟩ <;> simp
  injective := by rintro ⟨⟩ ⟨⟩ <;> simp

/-- `TERMINATION_REASONS`. -/
inductive TerminationReason
  | taskCompleted | taskCancelled | approvalPending | approvalRejected | safetyBlock
  | contradictoryEvidence | unknownEvidence | normalCompletionOpenTask | sessionInterrupted
  | sessionTimeout | runtimeTimeout | contextExhausted | transientProviderError | modelStall
  | toolRuntimeFailure | terminalTaskFailure
  deriving DecidableEq

instance : JsEnum TerminationReason where
  values :=
    [.taskCompleted, .taskCancelled, .approvalPending, .approvalRejected, .safetyBlock,
      .contradictoryEvidence, .unknownEvidence, .normalCompletionOpenTask, .sessionInterrupted,
      .sessionTimeout, .runtimeTimeout, .contextExhausted, .transientProviderError, .modelStall,
      .toolRuntimeFailure, .terminalTaskFailure]
  text
    | .taskCompleted => "task_already_completed"
    | .taskCancelled => "task_already_cancelled"
    | .approvalPending => "approval_pending"
    | .approvalRejected => "approval_rejected"
    | .safetyBlock => "safety_block"
    | .contradictoryEvidence => "contradictory_termination_evidence"
    | .unknownEvidence => "termination_evidence_unknown"
    | .normalCompletionOpenTask => "normal_completion_open_task"
    | .sessionInterrupted => "session_interrupted"
    | .sessionTimeout => "session_timeout"
    | .runtimeTimeout => "runtime_timeout"
    | .contextExhausted => "context_exhausted"
    | .transientProviderError => "transient_provider_error"
    | .modelStall => "model_stall"
    | .toolRuntimeFailure => "tool_runtime_failure"
    | .terminalTaskFailure => "terminal_task_failure"
  complete := by rintro ⟨⟩ <;> simp
  injective := by rintro ⟨⟩ ⟨⟩ <;> simp

/-! ## Classification -/

/-- One item of `evidence.signals`. -/
def terminationSignal (signal : JsValue) (label : JsString) : Throws TerminationSignal :=
  enumMember (label ++ " has an invalid value") signal

/-- `normalizeEvidence(evidence)`. -/
def normalizeEvidence (evidence : JsValue) : Throws (List TerminationSignal) := do
  let source ← plainObject "termination_evidence must be a plain object" evidence
  match (ownKeys source).find? fun key => key ≠ js "signals" with
  | some key => throwType ("termination_evidence has an unknown key: " ++ key)
  | none =>
    let items ← array "termination_evidence.signals must be an array" (prop source "signals")
    let signals ← mapItems terminationSignal "termination_evidence.signals" 0 items
    let _ ← require signals.Nodup "termination_evidence.signals must not contain duplicates"
    pure signals

/-- `result(classification, reasonCode, disposition, sameWorker, reroute, automaticResume)`. -/
def result (classification : TerminationClassification) (reasonCode : TerminationReason)
    (disposition : TerminationDisposition) (sameWorker reroute automaticResume : Bool) : JsValue :=
  .obj [("classification", ofEnum classification), ("reason_code", ofEnum reasonCode),
    ("disposition", ofEnum disposition), ("same_worker_retry_eligible", .bool sameWorker),
    ("cross_worker_reroute_eligible", .bool reroute),
    ("automatic_resume_eligible", .bool automaticResume)]

/-- `SINGLE_SIGNAL_RESULTS[signal]`. -/
def singleSignalResult : TerminationSignal → JsValue
  | .normalCompletion =>
    result .continueNextPhase .normalCompletionOpenTask .continueNextPhase false false false
  | .interrupted => result .resumable .sessionInterrupted .resumeFromCheckpoint false false true
  | .sessionTimeout => result .resumable .sessionTimeout .resumeFromCheckpoint true false true
  | .runtimeTimeout => result .resumable .runtimeTimeout .resumeFromCheckpoint true false true
  | .contextExhausted => result .resumable .contextExhausted .resumeFromCheckpoint true false true
  | .transientProviderError =>
    result .retryCandidate .transientProviderError .considerSameWorkerRetry true false false
  | .modelStall => result .retryCandidate .modelStall .considerSameWorkerRetry true false false
  | .toolRuntimeFailure =>
    result .recoveryCandidate .toolRuntimeFailure .considerRetryOrReroute true true false
  | .terminalTaskFailure => result .terminal .terminalTaskFailure .escalateFailed false false false
  | .safetyBlock => .undefined
  | .unknown => .undefined

/-- `classifySessionTermination({ checkpoint, termination_evidence })`. -/
def classifySessionTermination (checkpoint terminationEvidence : JsValue) : Throws JsValue := do
  let state ← validateTaskCheckpoint checkpoint
  let signals ← normalizeEvidence terminationEvidence
  if state.task.status = .completed then
    pure (result .terminal .taskCompleted .stop false false false)
  else if state.task.status = .cancelled then
    pure (result .terminal .taskCancelled .stop false false false)
  else if state.constraints.approval.status = .pending then
    pure (result .humanRequired .approvalPending .humanRequired false false false)
  else if state.constraints.approval.status = .rejected then
    pure (result .humanRequired .approvalRejected .humanRequired false false false)
  else if .safetyBlock ∈ signals then
    pure (result .humanRequired .safetyBlock .humanRequired false false false)
  else
    match signals with
    | [.unknown] => pure (result .reviewRequired .unknownEvidence .reviewRequired false false false)
    | [signal] => pure (singleSignalResult signal)
    | _ => pure (result .reviewRequired .contradictoryEvidence .reviewRequired false false false)

/-- Without exactly one signal, or with a safety block, no flag of the result is set. -/
theorem classifySessionTermination_flags {checkpoint evidence r : JsValue}
    {signals : List TerminationSignal} (h : classifySessionTermination checkpoint evidence = .ok r)
    (hsignals : normalizeEvidence evidence = .ok signals)
    (hno : .safetyBlock ∈ signals ∨ signals.length ≠ 1) :
    ∃ classification reason disposition,
      r = result classification reason disposition false false false := by
  obtain ⟨state, -, h⟩ := bind_eq_ok.mp h
  obtain ⟨signals', hsignals', h⟩ := bind_eq_ok.mp h
  obtain rfl := Except.ok.inj (hsignals.symm.trans hsignals')
  split_ifs at h with h1 h2 h3 h4 h5
  · exact ⟨_, _, _, (pure_eq_ok.mp h).symm⟩
  · exact ⟨_, _, _, (pure_eq_ok.mp h).symm⟩
  · exact ⟨_, _, _, (pure_eq_ok.mp h).symm⟩
  · exact ⟨_, _, _, (pure_eq_ok.mp h).symm⟩
  · exact ⟨_, _, _, (pure_eq_ok.mp h).symm⟩
  · split at h
    · simp at hno
    · next signal _ => simp [h5] at hno
    · exact ⟨_, _, _, (pure_eq_ok.mp h).symm⟩

/-- The flags of a result are read as they are. -/
theorem flags_of_normalizeTerminationResult {classification : TerminationClassification}
    {reason : TerminationReason} {disposition : TerminationDisposition} {a b e : Bool}
    {t : TerminationResult}
    (h : normalizeTerminationResult (result classification reason disposition a b e) = .ok t) :
    t.sameWorkerRetryEligible = a ∧ t.crossWorkerRerouteEligible = b ∧
      t.automaticResumeEligible = e := by
  simp only [normalizeTerminationResult, result, bind_eq_ok, object_eq_ok, JsValue.obj.injEq,
    exactKeys_eq_ok, string_eq_ok, boolean_eq_ok, pure_eq_ok] at h
  obtain ⟨ps, rfl, -, -, _, -, _, -, _, -, _, ha, _, hb, _, he, rfl⟩ := h
  simp at ha hb he
  exact ⟨ha.symm, hb.symm, he.symm⟩

/-! ## Planning -/

section

variable {sha256 : List UInt8 → JsString} {checkpoint terminationResult policy : JsValue}

/-- What both planners ask of a checkpoint. -/
structure Plannable (c : TaskCheckpoint) (limit : SafeNat) : Prop where
  taskOpen : c.task.status = .open
  safeToResume : c.continuation.safeToResume = true
  approval : c.constraints.approval.status ≠ .pending ∧ c.constraints.approval.status ≠ .rejected
  retryCount : c.continuation.retryCount.1 < limit.1
  worker : c.lastExecution.workerId ≠ none
  session : c.lastExecution.nativeSessionId ≠ none

theorem not_approvalBlocks {c : TaskCheckpoint} : ¬ approvalBlocks c ↔
    c.constraints.approval.status ≠ .pending ∧ c.constraints.approval.status ≠ .rejected :=
  not_or

/-- When a respawn is planned. -/
theorem planSameWorkerRespawn_iff {c : TaskCheckpoint} {t : TerminationResult} {limit : SafeNat}
    (hc : validateTaskCheckpoint checkpoint = .ok c)
    (ht : normalizeTerminationResult terminationResult = .ok t)
    (hlimit : normalizeLimitOf "max_retry_count" policy = .ok limit) :
    (∃ p, planSameWorkerRespawn sha256 checkpoint terminationResult policy = .ok (.planned p)) ↔
      Plannable c limit ∧ respawnEligible t := by
  constructor
  · intro ⟨p, hp⟩
    obtain ⟨c', t', limit', worker, session, hc', ht', hlimit', hopen, heligible, hsafe,
      happroval, hlt, hworker, hsession, -⟩ := planSameWorkerRespawn_planned.mp hp
    obtain rfl := Except.ok.inj (hc.symm.trans hc')
    obtain rfl := Except.ok.inj (ht.symm.trans ht')
    obtain rfl := Except.ok.inj (hlimit.symm.trans hlimit')
    exact ⟨⟨hopen, hsafe, not_approvalBlocks.mp happroval, hlt, by simp [hworker],
      by simp [hsession]⟩, heligible⟩
  · intro ⟨h, heligible⟩
    obtain ⟨worker, hworker⟩ := Option.ne_none_iff_exists'.mp h.worker
    obtain ⟨session, hsession⟩ := Option.ne_none_iff_exists'.mp h.session
    exact ⟨_, planSameWorkerRespawn_planned.mpr ⟨c, t, limit, worker, session, hc, ht, hlimit,
      h.taskOpen, heligible, h.safeToResume, not_approvalBlocks.mpr h.approval, h.retryCount,
      hworker, hsession, rfl⟩⟩

/-- Whom a reroute is planned to: the worker that `selectWorker` picks for the given task
    among the given workers, once the source counts as failed. -/
structure Reroutes (c : TaskCheckpoint) (task workerState routingPolicy : JsValue)
    (target : Worker) : Prop where
  notSource : ∀ source, c.lastExecution.workerId = some source → ofEnum target ≠ ofString source
  notFailed : ∀ raw previous, workerState = .obj raw →
    iterate (coalesce (prop raw "failed_workers") (.arr [])) = .ok previous →
    ofEnum target ∉ previous
  selected : ∃ raw failed t s selection, workerState = .obj raw ∧ normalizeTask task = .ok t ∧
    normalizeState (recoveryState raw failed) = .ok s ∧
    selectWorker task (recoveryState raw failed)
      (if routingPolicy = .undefined then .obj [] else routingPolicy) = .ok selection ∧
    selection.action = .select ∧ selection.worker = some target ∧
    Eligible t s s.pressure target

/-- What `selectWorker` is given: no active worker, and the failed ones. -/
theorem normalizeState_recoveryState {raw : Props} {failed : List JsValue} {s : NormalizedState}
    (h : normalizeState (recoveryState raw failed) = .ok s) :
    s.activeWorker = none ∧ failed = s.failedWorkers.map ofEnum := by
  obtain ⟨value, hvalue, h⟩ := bind_eq_ok.mp h
  obtain ⟨_, -, h⟩ := bind_eq_ok.mp h
  obtain ⟨_, -, h⟩ := bind_eq_ok.mp h
  obtain ⟨_, -, h⟩ := bind_eq_ok.mp h
  obtain ⟨active, hactive, h⟩ := bind_eq_ok.mp h
  obtain ⟨_, -, h⟩ := bind_eq_ok.mp h
  obtain ⟨failed', hfailed, h⟩ := bind_eq_ok.mp h
  obtain rfl := pure_eq_ok.mp h
  rw [if_neg (by simp [recoveryState]), requireObject, plainObject_eq_ok] at hvalue
  obtain rfl := JsValue.obj.inj hvalue
  simp only [prop_defineProp, js_inj, String.reduceEq, if_true, if_false] at hactive hfailed
  constructor
  · rw [coalesce, if_pos (.inr rfl), enumOrNull, if_pos rfl] at hactive
    exact (pure_eq_ok.mp hactive).symm
  · refine eq_map_of_mapM (fun v w hw => ?_) hfailed
    rwa [Routing.requireEnum, enumMember_eq_ok] at hw

/-- The worker that is selected when nobody is active is eligible. -/
theorem eligible_of_selectWorker {task state policy : JsValue} {t : NormalizedTask}
    {s : NormalizedState} {selection : Selection} {worker : Worker}
    (ht : normalizeTask task = .ok t) (hs : normalizeState state = .ok s)
    (hactive : s.activeWorker = none) (h : selectWorker task state policy = .ok selection)
    (hworker : selection.worker = some worker) : Eligible t s s.pressure worker := by
  rw [selectWorker, ht, ok_bind, hs, ok_bind] at h
  obtain ⟨preferred, -, h⟩ := bind_eq_ok.mp h
  obtain rfl := pure_eq_ok.mp h
  have hcontract := selectNormalized_contract t s preferred (.inl hactive)
  refine hcontract.mem_chain.mp (List.mem_append_left _ ?_)
  rw [hworker]
  exact List.mem_singleton_self _

theorem reroutes_of_selectsTarget {task workerState routingPolicy : JsValue} {c : TaskCheckpoint}
    {source : TrimmedString} {target : Worker} (hsource : c.lastExecution.workerId = some source)
    (hne : ofEnum target ≠ ofString source)
    (h : SelectsTarget task workerState routingPolicy source target) :
    Reroutes c task workerState routingPolicy target := by
  obtain ⟨raw, previous, selection, rfl, hprevious, hselection, haction, htarget⟩ := h
  obtain ⟨t, ht, hrest⟩ := bind_eq_ok.mp hselection
  obtain ⟨s, hs, -⟩ := bind_eq_ok.mp hrest
  obtain ⟨hactive, hfailed⟩ := normalizeState_recoveryState hs
  have heligible := eligible_of_selectWorker ht hs hactive hselection htarget
  refine ⟨fun source' hsource' => ?_, fun raw' previous' hraw hprevious' hmem => ?_,
    raw, _, t, s, selection, rfl, ht, hs, hselection, haction, htarget, heligible⟩
  · obtain rfl := Option.some.inj (hsource.symm.trans hsource')
    exact hne
  · obtain rfl := JsValue.obj.inj hraw
    obtain rfl := Except.ok.inj (hprevious.symm.trans hprevious')
    have hmem' : ofEnum target ∈ s.failedWorkers.map ofEnum := by
      rw [← hfailed, List.mem_eraseDups]
      exact List.mem_append_left _ hmem
    obtain ⟨w, hw, heq⟩ := List.mem_map.mp hmem'
    refine heligible.notFailed ?_
    rwa [← ofEnum_inj.mp heq]

/-- When a reroute is planned, and to whom. -/
theorem planCrossWorkerRecovery_selects {task workerState routingPolicy : JsValue}
    {p : CrossWorkerPlan} {c : TaskCheckpoint} (hc : validateTaskCheckpoint checkpoint = .ok c)
    (h : planCrossWorkerRecovery sha256 checkpoint terminationResult task workerState routingPolicy
      policy = .ok (.planned p)) :
    ∃ t limit, normalizeTerminationResult terminationResult = .ok t ∧
      normalizeLimitOf "max_reroute_count" policy = .ok limit ∧ Plannable c limit ∧
      rerouteEligible t ∧ Reroutes c task workerState routingPolicy p.targetWorkerId := by
  obtain ⟨c', t, limit, source, session, target, hc', ht, hlimit, hopen, heligible, hsafe,
    happroval, hlt, hsource, hsession, hne, hselects, rfl⟩ := planCrossWorkerRecovery_planned h
  obtain rfl := Except.ok.inj (hc.symm.trans hc')
  exact ⟨t, limit, ht, hlimit, ⟨hopen, hsafe, not_approvalBlocks.mp happroval, hlt,
    by simp [hsource], by simp [hsession]⟩, heligible,
    reroutes_of_selectsTarget hsource hne hselects⟩

/-- No termination result allows both a respawn and a reroute. -/
theorem not_rerouteEligible {t : TerminationResult} (h : respawnEligible t) :
    ¬ rerouteEligible t := by
  intro h'
  obtain ⟨hclass, -⟩ := h
  rw [h'.1] at hclass
  simp at hclass

/-- No termination result is planned for by both. -/
theorem not_both_planned {task workerState routingPolicy policy' : JsValue} :
    ¬ ((∃ p, planSameWorkerRespawn sha256 checkpoint terminationResult policy =
        .ok (.planned p)) ∧
      ∃ q, planCrossWorkerRecovery sha256 checkpoint terminationResult task workerState
        routingPolicy policy' = .ok (.planned q)) := by
  intro ⟨⟨p, hp⟩, q, hq⟩
  obtain ⟨_, t, _, _, _, hc, ht, -, -, heligible, -⟩ := planSameWorkerRespawn_planned.mp hp
  obtain ⟨t', _, ht', -, -, heligible', -⟩ := planCrossWorkerRecovery_selects hc hq
  obtain rfl := Except.ok.inj (ht.symm.trans ht')
  exact not_rerouteEligible heligible heligible'

/-- Without a flag nothing is planned. -/
theorem not_planned_of_flags {classification : TerminationClassification}
    {reason : TerminationReason} {disposition : TerminationDisposition}
    {task workerState routingPolicy policy' : JsValue}
    (h : terminationResult = result classification reason disposition false false false) :
    (¬ ∃ p, planSameWorkerRespawn sha256 checkpoint terminationResult policy =
        .ok (.planned p)) ∧
      ¬ ∃ q, planCrossWorkerRecovery sha256 checkpoint terminationResult task workerState
        routingPolicy policy' = .ok (.planned q) := by
  subst h
  constructor
  · intro ⟨p, hp⟩
    obtain ⟨_, t, _, _, _, -, ht, -, -, heligible, -⟩ := planSameWorkerRespawn_planned.mp hp
    obtain ⟨hsame, -, hautomatic⟩ := flags_of_normalizeTerminationResult ht
    simp [respawnEligible, hsame, hautomatic] at heligible
  · intro ⟨q, hq⟩
    obtain ⟨_, t, _, _, _, _, -, ht, -, -, heligible, -⟩ := planCrossWorkerRecovery_planned hq
    obtain ⟨-, hcross, -⟩ := flags_of_normalizeTerminationResult ht
    simp [rerouteEligible, hcross] at heligible

/-- **Who may be recovered.** Plans are issued exactly when the checkpoint and the result are
    eligible, and never by both planners; evidence with a safety block, or without exactly one
    signal, leads to no plan at all. -/
theorem eligibility {c : TaskCheckpoint} (hc : validateTaskCheckpoint checkpoint = .ok c) :
    (∀ terminationResult policy t limit, normalizeTerminationResult terminationResult = .ok t →
      normalizeLimitOf "max_retry_count" policy = .ok limit →
      ((∃ p, planSameWorkerRespawn sha256 checkpoint terminationResult policy =
          .ok (.planned p)) ↔ Plannable c limit ∧ respawnEligible t)) ∧
    (∀ terminationResult task workerState routingPolicy policy p,
      planCrossWorkerRecovery sha256 checkpoint terminationResult task workerState routingPolicy
        policy = .ok (.planned p) →
      prop p.props "target_worker_id" ∈ workerValues ∧
      ∃ t limit, normalizeTerminationResult terminationResult = .ok t ∧
        normalizeLimitOf "max_reroute_count" policy = .ok limit ∧ Plannable c limit ∧
        rerouteEligible t ∧ Reroutes c task workerState routingPolicy p.targetWorkerId) ∧
    ∀ evidence r, classifySessionTermination checkpoint evidence = .ok r →
      ∀ task workerState routingPolicy policy policy',
        ¬ ((∃ p, planSameWorkerRespawn sha256 checkpoint r policy = .ok (.planned p)) ∧
          ∃ q, planCrossWorkerRecovery sha256 checkpoint r task workerState routingPolicy policy' =
            .ok (.planned q)) ∧
        ∀ signals, normalizeEvidence evidence = .ok signals →
          .safetyBlock ∈ signals ∨ signals.length ≠ 1 →
          (¬ ∃ p, planSameWorkerRespawn sha256 checkpoint r policy = .ok (.planned p)) ∧
          ¬ ∃ q, planCrossWorkerRecovery sha256 checkpoint r task workerState routingPolicy
            policy' = .ok (.planned q) := by
  refine ⟨fun _ _ _ _ ht hlimit => planSameWorkerRespawn_iff hc ht hlimit,
    fun _ _ _ _ _ p h => ⟨?_, planCrossWorkerRecovery_selects hc h⟩,
    fun evidence r hr _ _ _ _ _ => ⟨not_both_planned, fun signals hsignals hno => ?_⟩⟩
  · have htarget : prop p.props "target_worker_id" = ofEnum p.targetWorkerId := by
      simp [CrossWorkerPlan.props, PlanBody.source]
    rw [htarget]
    exact List.mem_map.mpr ⟨_, JsEnum.complete _, rfl⟩
  · obtain ⟨_, _, _, h⟩ := classifySessionTermination_flags hr hsignals hno
    exact not_planned_of_flags h

end

/-- The respawn of the interrupted session is planned. -/
theorem eligibility_interrupted :
    (∃ p, planSameWorkerRespawn (fun _ => interruptedDigest) interruptedCheckpoint.toValue
        interruptionValue twoRetries = .ok (.planned p)) ↔
      Plannable interruptedCheckpoint ⟨2, by decide⟩ ∧ respawnEligible interruption :=
  (eligibility (validateTaskCheckpoint_toValue interruptedCheckpoint)).1 _ _ _ _
    normalizeTerminationResult_interruption normalizeLimitOf_twoRetries

end Wns.Recovery
