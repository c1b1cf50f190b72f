import Wns.Common.Checks

/-!
# Acceptance evidence

Model of `supervisor-policy/acceptance-evidence.mjs`: the criteria of a gate, the evidence
that a worker submits for them, and the decision of the supervisor.

* `normalizeGateAcceptanceSpec_eq_ok`, `normalizeWorkerEvidenceSubmission_eq_ok`,
  `normalizeSupervisorAcceptanceDecision_eq_ok`, `normalizeCurrentAcceptanceIdentity_eq_ok`:
  each input is accepted iff it is of the right shape, in any key order.
* `evaluateWorkerEvidenceSubmission_eq`, `applySupervisorAcceptanceDecision_eq`: the answer
  is that of the first stage to fail.
* `acceptance_exact`: acceptance needs agreement on every field and evidence for precisely
  the criteria.
-/

namespace Wns.Acceptance

open Ecma

/-! ## Data -/

/-- `WORKER_CLAIMS`. -/
inductive WorkerClaim
  | ready | readyForReview
  deriving DecidableEq

instance : JsEnum WorkerClaim where
  values := [.ready, .readyForReview]
  text
    | .ready => "READY"
    | .readyForReview => "READY_FOR_REVIEW"
  complete := by rintro ⟨⟩ <;> simp
  injective := by rintro ⟨⟩ ⟨⟩ <;> simp

/-- `SUPERVISOR_DECISIONS`. -/
inductive SupervisorDecision
  | accept | reject
  deriving DecidableEq

instance : JsEnum SupervisorDecision where
  values := [.accept, .reject]
  text
    | .accept => "accept"
    | .reject => "reject"
  complete := by rintro ⟨⟩ <;> simp
  injective := by rintro ⟨⟩ ⟨⟩ <;> simp

/-- The four fields that every input carries. -/
structure AcceptanceIdentity where
  planId : TrimmedString
  planRevision : PosSafe
  gateId : TrimmedString
  acceptanceSpecRevision : PosSafe
  deriving DecidableEq

structure Criterion where
  criterionId : TrimmedString
  description : TrimmedString
  deriving DecidableEq

structure EvidenceItem where
  criterionId : TrimmedString
  evidenceRef : TrimmedString
  deriving DecidableEq

structure GateAcceptanceSpec extends AcceptanceIdentity where
  criteria : List Criterion
  nonempty : criteria ≠ []
  unique : (criteria.map Criterion.criterionId).Nodup
  deriving DecidableEq

structure WorkerEvidenceSubmission extends AcceptanceIdentity where
  workerClaim : WorkerClaim
  evidence : List EvidenceItem
  deriving DecidableEq

structure SupervisorAcceptanceDecision extends AcceptanceIdentity where
  decision : SupervisorDecision
  reason : TrimmedString
  deriving DecidableEq

def AcceptanceIdentity.props (i : AcceptanceIdentity) : Props :=
  [("plan_id", ofString i.planId), ("plan_revision", .nat i.planRevision.1),
    ("gate_id", ofString i.gateId), ("acceptance_spec_revision", .nat i.acceptanceSpecRevision.1)]

def AcceptanceIdentity.toValue (i : AcceptanceIdentity) : JsValue := .obj i.props

def Criterion.toValue (c : Criterion) : JsValue :=
  .obj [("criterion_id", ofString c.criterionId), ("description", ofString c.description)]

def EvidenceItem.toValue (e : EvidenceItem) : JsValue :=
  .obj [("criterion_id", ofString e.criterionId), ("evidence_ref", ofString e.evidenceRef)]

def GateAcceptanceSpec.toValue (s : GateAcceptanceSpec) : JsValue :=
  .obj (s.props ++ [(js "criteria", .arr (s.criteria.map Criterion.toValue))])

def WorkerEvidenceSubmission.toValue (s : WorkerEvidenceSubmission) : JsValue :=
  .obj (s.props ++ [(js "worker_claim", ofEnum s.workerClaim),
    (js "evidence", .arr (s.evidence.map EvidenceItem.toValue))])

def SupervisorAcceptanceDecision.toValue (d : SupervisorAcceptanceDecision) : JsValue :=
  .obj (d.props ++ [(js "decision", ofEnum d.decision), (js "reason", ofString d.reason)])

/-! ## Normalization -/

/-- `plan_id`, `plan_revision`, `gate_id` and `acceptance_spec_revision`. -/
def identityFields (ps : Props) (name : JsString) : Throws AcceptanceIdentity := do
  let planId ← requireTrimmedString (prop ps "plan_id") (name ++ ".plan_id")
  let planRevision ← requirePositiveSafeInteger (prop ps "plan_revision")
    (name ++ ".plan_revision")
  let gateId ← requireTrimmedString (prop ps "gate_id") (name ++ ".gate_id")
  let acceptanceSpecRevision ← requirePositiveSafeInteger (prop ps "acceptance_spec_revision")
    (name ++ ".acceptance_spec_revision")
  pure ⟨planId, planRevision, gateId, acceptanceSpecRevision⟩

/-- `normalizeCriterion(criterion, index, namePrefix)`, its name being `namePrefix[index]`. -/
def normalizeCriterion (criterion : JsValue) (name : JsString) : Throws Criterion := do
  let ps ← assertExactKeys criterion ["criterion_id", "description"] name
  let criterionId ← requireTrimmedString (prop ps "criterion_id") (name ++ ".criterion_id")
  let description ← requireTrimmedString (prop ps "description") (name ++ ".description")
  pure ⟨criterionId, description⟩

/-- `normalizeEvidenceItem(item, index)`, its name being `submission.evidence[index]`. -/
def normalizeEvidenceItem (item : JsValue) (name : JsString) : Throws EvidenceItem := do
  let ps ← assertExactKeys item ["criterion_id", "evidence_ref"] name
  let criterionId ← requireTrimmedString (prop ps "criterion_id") (name ++ ".criterion_id")
  let evidenceRef ← requireTrimmedString (prop ps "evidence_ref") (name ++ ".evidence_ref")
  pure ⟨criterionId, evidenceRef⟩

/-- `normalizeGateAcceptanceSpec(spec)`. -/
def normalizeGateAcceptanceSpec (spec : JsValue) : Throws GateAcceptanceSpec := do
  let ps ← assertExactKeys spec ["plan_id", "plan_revision", "gate_id",
    "acceptance_spec_revision", "criteria"] "spec"
  let identity ← identityFields ps "spec"
  let items ← array "spec.criteria must be a non-empty array" (prop ps "criteria")
  let ⟨hitems⟩ ← require (items ≠ []) "spec.criteria must be a non-empty array"
  let ⟨criteria, hlen⟩ ← attach (p := fun criteria => criteria.length = items.length)
    (mapItems normalizeCriterion "spec.criteria" 0 items) fun _ => length_of_mapItems
  let ⟨unique⟩ ← require (criteria.map Criterion.criterionId).Nodup
    "spec.criteria must not contain duplicate criterion_id"
  pure ⟨identity, criteria, fun h => hitems (by simpa [h] using hlen.symm), unique⟩

/-- `normalizeWorkerEvidenceSubmission(submission)`. -/
def normalizeWorkerEvidenceSubmission (submission : JsValue) :
    Throws WorkerEvidenceSubmission := do
  let ps ← assertExactKeys submission ["plan_id", "plan_revision", "gate_id",
    "acceptance_spec_revision", "worker_claim", "evidence"] "submission"
  let identity ← identityFields ps "submission"
  let workerClaim ← requireEnum (prop ps "worker_claim") "submission.worker_claim"
  let items ← array "submission.evidence must be an array" (prop ps "evidence")
  let evidence ← mapItems normalizeEvidenceItem "submission.evidence" 0 items
  pure ⟨identity, workerClaim, evidence⟩

/-- `normalizeSupervisorAcceptanceDecision(decision)`. -/
def normalizeSupervisorAcceptanceDecision (decision : JsValue) :
    Throws SupervisorAcceptanceDecision := do
  let ps ← assertExactKeys decision ["plan_id", "plan_revision", "gate_id",
    "acceptance_spec_revision", "decision", "reason"] "decision"
  let identity ← identityFields ps "decision"
  let verdict ← requireEnum (prop ps "decision") "decision.decision"
  let reason ← requireTrimmedString (prop ps "reason") "decision.reason"
  pure ⟨identity, verdict, reason⟩

/-- `normalizeCurrentAcceptanceIdentity(identity)`. -/
def normalizeCurrentAcceptanceIdentity (identity : JsValue) : Throws AcceptanceIdentity := do
  let ps ← assertExactKeys identity ["plan_id", "plan_revision", "gate_id",
    "acceptance_spec_revision"] "current_acceptance_identity"
  identityFields ps "current_acceptance_identity"

/-! ## Evaluation -/

/-- The reason codes of both evaluators. -/
inductive ReasonCode
  | identityValid | planIdMismatch | stalePlanRevision | gateIdMismatch
  | staleAcceptanceSpecRevision | evidenceComplete | evidenceIncomplete | unknownCriterion
  | accepted | rejected
  deriving DecidableEq

inductive EvidenceStatus
  | evidenceComplete | evidenceIncomplete
  deriving DecidableEq

inductive DecisionStatus
  | accepted | rejected | decisionBlockedStaleContext | decisionBlockedIdentityMismatch
  | acceptBlockedIncompleteEvidence
  deriving DecidableEq

structure EvaluationResult where
  status : EvidenceStatus
  readyForSupervisorReview : Bool
  accepted : Bool
  reasonCode : ReasonCode
  coveredCriteria : List TrimmedString
  missingCriteria : List TrimmedString
  deriving DecidableEq

structure DecisionResult where
  accepted : Bool
  status : DecisionStatus
  reasonCode : ReasonCode
  deriving DecidableEq

/-- `compareIdentity(left, right)`. -/
def compareIdentity (left right : AcceptanceIdentity) : ReasonCode :=
  if left.planId ≠ right.planId then .planIdMismatch
  else if left.planRevision ≠ right.planRevision then .stalePlanRevision
  else if left.gateId ≠ right.gateId then .gateIdMismatch
  else if left.acceptanceSpecRevision ≠ right.acceptanceSpecRevision then
    .staleAcceptanceSpecRevision
  else .identityValid

/-- `evaluationResult(readyForSupervisorReview, reasonCode, coveredCriteria, missingCriteria)`. -/
def evaluationResult (readyForSupervisorReview : Bool) (reasonCode : ReasonCode)
    (coveredCriteria missingCriteria : List TrimmedString) : EvaluationResult where
  status := if readyForSupervisorReview then .evidenceComplete else .evidenceIncomplete
  readyForSupervisorReview
  accepted := false
  reasonCode
  coveredCriteria
  missingCriteria

/-- `evaluateWorkerEvidenceSubmission(spec, submission, currentAcceptanceIdentity)`. -/
def evaluateWorkerEvidenceSubmission (spec submission currentAcceptanceIdentity : JsValue) :
    Throws EvaluationResult := do
  let validatedSpec ← normalizeGateAcceptanceSpec spec
  let validatedSubmission ← normalizeWorkerEvidenceSubmission submission
  let validatedCurrent ← normalizeCurrentAcceptanceIdentity currentAcceptanceIdentity
  let specVersusCurrent := compareIdentity validatedSpec.toAcceptanceIdentity validatedCurrent
  let submissionVersusSpec := compareIdentity validatedSubmission.toAcceptanceIdentity
    validatedSpec.toAcceptanceIdentity
  let specCriterionIds := validatedSpec.criteria.map Criterion.criterionId
  let evidencedCriterionIds := validatedSubmission.evidence.map EvidenceItem.criterionId
  let hasUnknownCriterion := validatedSubmission.evidence.any
    fun item => item.criterionId ∉ specCriterionIds
  let coveredCriteria := specCriterionIds.filter fun id => id ∈ evidencedCriterionIds
  let missingCriteria := specCriterionIds.filter fun id => id ∉ evidencedCriterionIds
  if specVersusCurrent ≠ .identityValid then pure (evaluationResult false specVersusCurrent [] [])
  else if submissionVersusSpec ≠ .identityValid then
    pure (evaluationResult false submissionVersusSpec [] [])
  else if hasUnknownCriterion = true then
    pure (evaluationResult false .unknownCriterion coveredCriteria missingCriteria)
  else if 0 < missingCriteria.length then
    pure (evaluationResult false .evidenceIncomplete coveredCriteria missingCriteria)
  else pure (evaluationResult true .evidenceComplete coveredCriteria missingCriteria)

/-- `applySupervisorAcceptanceDecision(spec, submission, decision, currentAcceptanceIdentity)`. -/
def applySupervisorAcceptanceDecision
    (spec submission decision currentAcceptanceIdentity : JsValue) : Throws DecisionResult := do
  let validatedSpec ← normalizeGateAcceptanceSpec spec
  let validatedSubmission ← normalizeWorkerEvidenceSubmission submission
  let validatedDecision ← normalizeSupervisorAcceptanceDecision decision
  let validatedCurrent ← normalizeCurrentAcceptanceIdentity currentAcceptanceIdentity
  let specVersusCurrent := compareIdentity validatedSpec.toAcceptanceIdentity validatedCurrent
  let submissionVersusSpec := compareIdentity validatedSubmission.toAcceptanceIdentity
    validatedSpec.toAcceptanceIdentity
  let decisionVersusSpec := compareIdentity validatedDecision.toAcceptanceIdentity
    validatedSpec.toAcceptanceIdentity
  if specVersusCurrent ≠ .identityValid then
    pure ⟨false, .decisionBlockedStaleContext, specVersusCurrent⟩
  else if submissionVersusSpec ≠ .identityValid then
    pure ⟨false, .decisionBlockedIdentityMismatch, submissionVersusSpec⟩
  else if decisionVersusSpec ≠ .identityValid then
    pure ⟨false, .decisionBlockedIdentityMismatch, decisionVersusSpec⟩
  else if validatedDecision.decision = .reject then pure ⟨false, .rejected, .rejected⟩
  else do
    let evaluation ← evaluateWorkerEvidenceSubmission validatedSpec.toValue
      validatedSubmission.toValue validatedCurrent.toValue
    if evaluation.readyForSupervisorReview = true then pure ⟨true, .accepted, .accepted⟩
    else pure ⟨false, .acceptBlockedIncompleteEvidence, evaluation.reasonCode⟩

/-! ## What is accepted as input -/

@[simp] theorem identityFields_eq_ok {ps : Props} {name : JsString} {i : AcceptanceIdentity} :
    identityFields ps name = .ok i ↔ prop ps "plan_id" = ofString i.planId ∧
      prop ps "plan_revision" = .nat i.planRevision.1 ∧ prop ps "gate_id" = ofString i.gateId ∧
      prop ps "acceptance_spec_revision" = .nat i.acceptanceSpecRevision.1 := by
  simp only [identityFields, bind_eq_ok, requireTrimmedString_eq_ok,
    requirePositiveSafeInteger_eq_ok, pure_eq_ok]
  constructor
  · rintro ⟨_, h1, _, h2, _, h3, _, h4, hi⟩
    subst hi
    exact ⟨h1, h2, h3, h4⟩
  · rintro ⟨h1, h2, h3, h4⟩
    exact ⟨_, h1, _, h2, _, h3, _, h4, rfl⟩

theorem exactDecoder_normalizeCriterion :
    ExactDecoder normalizeCriterion Criterion.toValue := by
  intro v name c
  simp only [normalizeCriterion, bind_eq_ok, assertExactKeys_eq_ok, requireTrimmedString_eq_ok,
    pure_eq_ok]
  simp only [Criterion.toValue, jsonEq_obj_iff, names_cons, names_nil]
  constructor
  · rintro ⟨ps, ⟨hv, hk⟩, id, h1, description, h2, hc⟩
    subst hc
    exact ⟨ps, hv, hk, by simp [h1, h2]⟩
  · rintro ⟨ps, hv, hk, h⟩
    simp at h
    exact ⟨ps, ⟨hv, hk⟩, _, h.1, _, h.2, rfl⟩

theorem exactDecoder_normalizeEvidenceItem :
    ExactDecoder normalizeEvidenceItem EvidenceItem.toValue := by
  intro v name e
  simp only [normalizeEvidenceItem, bind_eq_ok, assertExactKeys_eq_ok, requireTrimmedString_eq_ok,
    pure_eq_ok]
  simp only [EvidenceItem.toValue, jsonEq_obj_iff, names_cons, names_nil]
  constructor
  · rintro ⟨ps, ⟨hv, hk⟩, id, h1, ref, h2, he⟩
    subst he
    exact ⟨ps, hv, hk, by simp [h1, h2]⟩
  · rintro ⟨ps, hv, hk, h⟩
    simp at h
    exact ⟨ps, ⟨hv, hk⟩, _, h.1, _, h.2, rfl⟩

theorem normalizeGateAcceptanceSpec_eq_ok {v : JsValue} {s : GateAcceptanceSpec} :
    normalizeGateAcceptanceSpec v = .ok s ↔ JsonEq v s.toValue := by
  simp only [normalizeGateAcceptanceSpec, bind_eq_ok, assertExactKeys_eq_ok, identityFields_eq_ok,
    require_eq_ok, exists_pLift, attach_eq_ok, pure_eq_ok]
  simp only [GateAcceptanceSpec.toValue, AcceptanceIdentity.props, List.cons_append,
    List.nil_append, jsonEq_obj_iff, names_cons, names_nil]
  constructor
  · rintro ⟨ps, ⟨hv, hk⟩, i, ⟨h1, h2, h3, h4⟩, items, hitems, _, _, ⟨criteria, hlen⟩, hcriteria,
      _, _, hs⟩
    subst hs
    have h5 := (array_mapItems_eq_ok exactDecoder_normalizeCriterion).mp
      ⟨items, hitems, hcriteria⟩
    exact ⟨ps, hv, hk, by simp [h1, h2, h3, h4, h5]⟩
  · rintro ⟨ps, hv, hk, h⟩
    simp at h
    obtain ⟨h1, h2, h3, h4, h5⟩ := h
    obtain ⟨items, hitems, hcriteria⟩ := (@array_mapItems_eq_ok _ _ _
      exactDecoder_normalizeCriterion "spec.criteria" "spec.criteria must be a non-empty array"
      _ _).mpr h5
    have hlen := length_of_mapItems hcriteria
    have hne : items ≠ [] := fun h => s.nonempty (by simpa [h] using hlen)
    exact ⟨ps, ⟨hv, hk⟩, s.toAcceptanceIdentity, ⟨h1, h2, h3, h4⟩, items, hitems, hne, hne,
      ⟨s.criteria, hlen⟩, hcriteria, s.unique, s.unique, rfl⟩

theorem normalizeWorkerEvidenceSubmission_eq_ok {v : JsValue} {s : WorkerEvidenceSubmission} :
    normalizeWorkerEvidenceSubmission v = .ok s ↔ JsonEq v s.toValue := by
  simp only [normalizeWorkerEvidenceSubmission, bind_eq_ok, assertExactKeys_eq_ok,
    identityFields_eq_ok, requireEnum_eq_ok, pure_eq_ok]
  simp only [WorkerEvidenceSubmission.toValue, AcceptanceIdentity.props, List.cons_append,
    List.nil_append, jsonEq_obj_iff, names_cons, names_nil]
  constructor
  · rintro ⟨ps, ⟨hv, hk⟩, i, ⟨h1, h2, h3, h4⟩, claim, h5, items, hitems, evidence, hevidence, hs⟩
    subst hs
    have h6 := (array_mapItems_eq_ok exactDecoder_normalizeEvidenceItem).mp
      ⟨items, hitems, hevidence⟩
    exact ⟨ps, hv, hk, by simp [h1, h2, h3, h4, h5, h6]⟩
  · rintro ⟨ps, hv, hk, h⟩
    simp at h
    obtain ⟨h1, h2, h3, h4, h5, h6⟩ := h
    obtain ⟨items, hitems, hevidence⟩ := (@array_mapItems_eq_ok _ _ _
      exactDecoder_normalizeEvidenceItem "submission.evidence"
      "submission.evidence must be an array" _ _).mpr h6
    exact ⟨ps, ⟨hv, hk⟩, s.toAcceptanceIdentity, ⟨h1, h2, h3, h4⟩, _, h5, items, hitems, _,
      hevidence, rfl⟩

theorem normalizeSupervisorAcceptanceDecision_eq_ok {v : JsValue}
    {d : SupervisorAcceptanceDecision} :
    normalizeSupervisorAcceptanceDecision v = .ok d ↔ JsonEq v d.toValue := by
  simp only [normalizeSupervisorAcceptanceDecision, bind_eq_ok, assertExactKeys_eq_ok,
    identityFields_eq_ok, requireEnum_eq_ok, requireTrimmedString_eq_ok, pure_eq_ok]
  simp only [SupervisorAcceptanceDecision.toValue, AcceptanceIdentity.props, List.cons_append,
    List.nil_append, jsonEq_obj_iff, names_cons, names_nil]
  constructor
  · rintro ⟨ps, ⟨hv, hk⟩, i, ⟨h1, h2, h3, h4⟩, verdict, h5, reason, h6, hd⟩
    subst hd
    exact ⟨ps, hv, hk, by simp [h1, h2, h3, h4, h5, h6]⟩
  · rintro ⟨ps, hv, hk, h⟩
    simp at h
    obtain ⟨h1, h2, h3, h4, h5, h6⟩ := h
    exact ⟨ps, ⟨hv, hk⟩, d.toAcceptanceIdentity, ⟨h1, h2, h3, h4⟩, _, h5, _, h6, rfl⟩

theorem normalizeCurrentAcceptanceIdentity_eq_ok {v : JsValue} {i : AcceptanceIdentity} :
    normalizeCurrentAcceptanceIdentity v = .ok i ↔ JsonEq v i.toValue := by
  simp only [normalizeCurrentAcceptanceIdentity, bind_eq_ok, assertExactKeys_eq_ok,
    identityFields_eq_ok]
  simp only [AcceptanceIdentity.toValue, AcceptanceIdentity.props, jsonEq_obj_iff, names_cons,
    names_nil]
  constructor
  · rintro ⟨ps, ⟨hv, hk⟩, h1, h2, h3, h4⟩
    exact ⟨ps, hv, hk, by simp [h1, h2, h3, h4]⟩
  · rintro ⟨ps, hv, hk, h⟩
    simp at h
    exact ⟨ps, ⟨hv, hk⟩, h⟩

/-! ## Precedence -/

/-- The identity fields, compared in this order. -/
inductive IdentityField
  | planId | planRevision | gateId | acceptanceSpecRevision
  deriving DecidableEq

namespace IdentityField

def order : List IdentityField := [planId, planRevision, gateId, acceptanceSpecRevision]

/-- Two identities agree on a field. -/
def agree (a b : AcceptanceIdentity) : IdentityField → Bool
  | planId => a.planId = b.planId
  | planRevision => a.planRevision = b.planRevision
  | gateId => a.gateId = b.gateId
  | acceptanceSpecRevision => a.acceptanceSpecRevision = b.acceptanceSpecRevision

/-- The code that reports a difference in a field. -/
def reasonCode : IdentityField → ReasonCode
  | planId => .planIdMismatch
  | planRevision => .stalePlanRevision
  | gateId => .gateIdMismatch
  | acceptanceSpecRevision => .staleAcceptanceSpecRevision

end IdentityField

/-- The first field in which two identities differ. -/
def firstDifference (a b : AcceptanceIdentity) : Option IdentityField :=
  IdentityField.order.find? fun field => !field.agree a b

/-- The four inputs of a decision. -/
structure Inputs where
  spec : GateAcceptanceSpec
  submission : WorkerEvidenceSubmission
  decision : SupervisorAcceptanceDecision
  current : AcceptanceIdentity

namespace Inputs

/-- The ids of the criteria. -/
def criterionIds (i : Inputs) : List TrimmedString := i.spec.criteria.map Criterion.criterionId

/-- The ids for which there is evidence. -/
def evidencedIds (i : Inputs) : List TrimmedString :=
  i.submission.evidence.map EvidenceItem.criterionId

end Inputs

/-- The stages of a decision. -/
inductive Stage
  | specVersusCurrent | submissionVersusSpec | decisionVersusSpec | reject | unknownCriterion
  | missingCriterion
  deriving DecidableEq

namespace Stage

def order : List Stage :=
  [specVersusCurrent, submissionVersusSpec, decisionVersusSpec, reject, unknownCriterion,
    missingCriterion]

/-- The answer of a stage that fails on the inputs. -/
def failure (i : Inputs) : Stage → Option DecisionResult
  | specVersusCurrent => (firstDifference i.spec.toAcceptanceIdentity i.current).map
      fun field => ⟨false, .decisionBlockedStaleContext, field.reasonCode⟩
  | submissionVersusSpec =>
    (firstDifference i.submission.toAcceptanceIdentity i.spec.toAcceptanceIdentity).map
      fun field => ⟨false, .decisionBlockedIdentityMismatch, field.reasonCode⟩
  | decisionVersusSpec =>
    (firstDifference i.decision.toAcceptanceIdentity i.spec.toAcceptanceIdentity).map
      fun field => ⟨false, .decisionBlockedIdentityMismatch, field.reasonCode⟩
  | reject => if i.decision.decision = .reject then some ⟨false, .rejected, .rejected⟩ else none
  | unknownCriterion =>
    if ∃ id ∈ i.evidencedIds, id ∉ i.criterionIds then
      some ⟨false, .acceptBlockedIncompleteEvidence, .unknownCriterion⟩
    else none
  | missingCriterion =>
    if ∃ id ∈ i.criterionIds, id ∉ i.evidencedIds then
      some ⟨false, .acceptBlockedIncompleteEvidence, .evidenceIncomplete⟩
    else none

end Stage

/-- The answer of the first stage that fails. -/
def firstFailure (i : Inputs) : Option DecisionResult := Stage.order.findSome? (Stage.failure i)

/-- Identities differ in no field iff they are equal. -/
theorem firstDifference_eq_none {a b : AcceptanceIdentity} :
    firstDifference a b = none ↔ a = b := by
  cases a
  cases b
  simp [firstDifference, IdentityField.order, IdentityField.agree]

/-- The code of `compareIdentity` is that of the first difference. -/
theorem compareIdentity_eq (a b : AcceptanceIdentity) : compareIdentity a b =
    ((firstDifference a b).map IdentityField.reasonCode).getD .identityValid := by
  simp only [compareIdentity, firstDifference, IdentityField.order, IdentityField.agree,
    List.find?_cons]
  split_ifs <;> simp_all [IdentityField.reasonCode]

theorem compareIdentity_ne {a b : AcceptanceIdentity} :
    compareIdentity a b ≠ .identityValid ↔ firstDifference a b ≠ none := by
  rw [compareIdentity_eq]
  cases h : firstDifference a b with
  | none => simp
  | some field => cases field <;> simp [IdentityField.reasonCode]

/-! ## Decisions -/

/-- The result of a decision on complete evidence. -/
def acceptedResult : DecisionResult := ⟨true, .accepted, .accepted⟩

/-- What evidence for some ids says about a spec with some criteria. -/
def coverageResult (criterionIds evidencedIds : List TrimmedString) : EvaluationResult :=
  let coveredCriteria := criterionIds.filter fun id => id ∈ evidencedIds
  let missingCriteria := criterionIds.filter fun id => id ∉ evidencedIds
  if ∃ id ∈ evidencedIds, id ∉ criterionIds then
    evaluationResult false .unknownCriterion coveredCriteria missingCriteria
  else if missingCriteria ≠ [] then
    evaluationResult false .evidenceIncomplete coveredCriteria missingCriteria
  else evaluationResult true .evidenceComplete coveredCriteria missingCriteria

/-- Where the identities agree, the evaluator reads the ids of the criteria and of the
    evidence. -/
theorem evaluateWorkerEvidenceSubmission_eq {spec submission current : JsValue}
    {validatedSpec : GateAcceptanceSpec} {validatedSubmission : WorkerEvidenceSubmission}
    (hspec : normalizeGateAcceptanceSpec spec = .ok validatedSpec)
    (hsubmission : normalizeWorkerEvidenceSubmission submission = .ok validatedSubmission)
    (hcurrent : normalizeCurrentAcceptanceIdentity current =
      .ok validatedSpec.toAcceptanceIdentity)
    (hbound : validatedSubmission.toAcceptanceIdentity = validatedSpec.toAcceptanceIdentity) :
    evaluateWorkerEvidenceSubmission spec submission current =
      .ok (coverageResult (validatedSpec.criteria.map Criterion.criterionId)
        (validatedSubmission.evidence.map EvidenceItem.criterionId)) := by
  have hvalid : ∀ a, compareIdentity a a = .identityValid := by simp [compareIdentity]
  have hunknown : (validatedSubmission.evidence.any fun item => decide (item.criterionId ∉
        validatedSpec.criteria.map Criterion.criterionId)) = true ↔
      ∃ id ∈ validatedSubmission.evidence.map EvidenceItem.criterionId,
        id ∉ validatedSpec.criteria.map Criterion.criterionId := by
    simp only [List.any_eq_true, decide_eq_true_eq, List.mem_map, exists_exists_and_eq_and]
  simp only [evaluateWorkerEvidenceSubmission, hspec, hsubmission, hcurrent, ok_bind, hbound,
    hvalid, hunknown, ne_eq, not_true_eq_false, if_false, coverageResult,
    List.length_pos_iff]
  split_ifs <;> rfl

/-- The evaluator that `applySupervisorAcceptanceDecision` runs on its normalized inputs
    reports the criterion stages. -/
theorem evaluateWorkerEvidenceSubmission_toValue {i : Inputs}
    (hspec : i.spec.toAcceptanceIdentity = i.current)
    (hsubmission : i.submission.toAcceptanceIdentity = i.spec.toAcceptanceIdentity) :
    ∃ e, evaluateWorkerEvidenceSubmission i.spec.toValue i.submission.toValue i.current.toValue =
        .ok e ∧
      (if e.readyForSupervisorReview = true then acceptedResult
        else ⟨false, .acceptBlockedIncompleteEvidence, e.reasonCode⟩) =
      ([Stage.unknownCriterion, Stage.missingCriterion].findSome? (Stage.failure i)).getD
        acceptedResult := by
  refine ⟨_, evaluateWorkerEvidenceSubmission_eq (normalizeGateAcceptanceSpec_eq_ok.mpr (.refl _))
    (normalizeWorkerEvidenceSubmission_eq_ok.mpr (.refl _))
    (normalizeCurrentAcceptanceIdentity_eq_ok.mpr (hspec ▸ .refl _)) hsubmission, ?_⟩
  have hmissing : (i.criterionIds.filter fun id => decide (id ∉ i.evidencedIds)) ≠ [] ↔
      ∃ id ∈ i.criterionIds, id ∉ i.evidencedIds := by
    simp only [← List.length_pos_iff, List.length_pos_iff_exists_mem, List.mem_filter,
      decide_eq_true_eq]
  show (if (coverageResult i.criterionIds i.evidencedIds).readyForSupervisorReview = true then _
    else DecisionResult.mk false .acceptBlockedIncompleteEvidence
      (coverageResult i.criterionIds i.evidencedIds).reasonCode) = _
  simp only [coverageResult, hmissing, List.findSome?_cons, Stage.failure]
  by_cases hunknown : ∃ id ∈ i.evidencedIds, id ∉ i.criterionIds
  · simp only [if_pos hunknown]
    rfl
  · simp only [if_neg hunknown]
    by_cases hincomplete : ∃ id ∈ i.criterionIds, id ∉ i.evidencedIds
    · simp only [if_pos hincomplete]
      rfl
    · simp only [if_neg hincomplete]
      rfl

/-- The answer of `applySupervisorAcceptanceDecision` is that of the first stage to fail. -/
theorem applySupervisorAcceptanceDecision_eq {spec submission decision current : JsValue}
    {i : Inputs} (hspec : normalizeGateAcceptanceSpec spec = .ok i.spec)
    (hsubmission : normalizeWorkerEvidenceSubmission submission = .ok i.submission)
    (hdecision : normalizeSupervisorAcceptanceDecision decision = .ok i.decision)
    (hcurrent : normalizeCurrentAcceptanceIdentity current = .ok i.current) :
    applySupervisorAcceptanceDecision spec submission decision current =
      .ok ((firstFailure i).getD acceptedResult) := by
  simp only [applySupervisorAcceptanceDecision, hspec, hsubmission, hdecision, hcurrent, ok_bind,
    compareIdentity_ne]
  cases h1 : firstDifference i.spec.toAcceptanceIdentity i.current with
  | some field =>
    simp [firstFailure, Stage.order, Stage.failure, h1, compareIdentity_eq, pure, Except.pure]
  | none =>
    cases h2 : firstDifference i.submission.toAcceptanceIdentity i.spec.toAcceptanceIdentity with
    | some field =>
      simp [firstFailure, Stage.order, Stage.failure, h1, h2, compareIdentity_eq, pure, Except.pure]
    | none =>
      cases h3 : firstDifference i.decision.toAcceptanceIdentity i.spec.toAcceptanceIdentity with
      | some field =>
        simp [firstFailure, Stage.order, Stage.failure, h1, h2, h3, compareIdentity_eq, pure,
          Except.pure]
      | none =>
        by_cases h4 : i.decision.decision = .reject
        · simp [firstFailure, Stage.order, Stage.failure, h1, h2, h3, h4, pure, Except.pure]
        · have hrest : firstFailure i =
              [Stage.unknownCriterion, Stage.missingCriterion].findSome? (Stage.failure i) := by
            simp [firstFailure, Stage.order, List.findSome?_cons, Stage.failure, h1, h2, h3, h4]
          obtain ⟨e, he, hanswer⟩ := evaluateWorkerEvidenceSubmission_toValue
            (firstDifference_eq_none.mp h1) (firstDifference_eq_none.mp h2)
          rw [hrest, ← hanswer]
          simp only [h4, he, ok_bind, ne_eq, not_true_eq_false, if_false]
          split_ifs <;> rfl

/-- Nothing fails iff the inputs agree on all fields, the decision is to accept, and there is
    evidence for precisely the criteria. -/
theorem firstFailure_eq_none {i : Inputs} : firstFailure i = none ↔
    (i.spec.toAcceptanceIdentity = i.current ∧ i.submission.toAcceptanceIdentity = i.current ∧
      i.decision.toAcceptanceIdentity = i.current) ∧ i.decision.decision = .accept ∧
      ∀ id, id ∈ i.evidencedIds ↔ id ∈ i.criterionIds := by
  have haccept : i.decision.decision ≠ .reject ↔ i.decision.decision = .accept := by
    cases i.decision.decision <;> simp
  simp only [firstFailure, Stage.order, List.findSome?_eq_none_iff, List.forall_mem_cons,
    Stage.failure, Option.map_eq_none_iff, firstDifference_eq_none, ite_eq_right_iff, reduceCtorEq,
    imp_false, haccept, not_exists, not_and, not_not, List.not_mem_nil, false_implies,
    implies_true, and_true]
  constructor
  · intro ⟨h1, h2, h3, h4, h5, h6⟩
    exact ⟨⟨h1, h2.trans h1, h3.trans h1⟩, h4, fun id => ⟨h5 id, h6 id⟩⟩
  · intro ⟨⟨h1, h2, h3⟩, h4, h5⟩
    exact ⟨h1, h2.trans h1.symm, h3.trans h1.symm, h4, fun id => (h5 id).mp, fun id => (h5 id).mpr⟩

/-- Every failing stage refuses acceptance. -/
theorem accepted_of_firstFailure {i : Inputs} {r : DecisionResult} (h : firstFailure i = some r) :
    r.accepted = false := by
  obtain ⟨s, -, hs⟩ := List.exists_of_findSome?_eq_some h
  cases s <;> simp only [Stage.failure, Option.map_eq_some_iff, Option.ite_none_right_eq_some,
    Option.some.injEq] at hs <;> obtain ⟨_, -, rfl⟩ := hs <;> rfl

/-- **Acceptance is exact.** The decision is accepted iff the four inputs agree on every
    identity field, the supervisor accepts, and the evidence is for precisely the criteria of
    the spec; otherwise the answer is that of the first stage to fail. -/
theorem acceptance_exact {spec submission decision current : JsValue} {i : Inputs}
    (hspec : normalizeGateAcceptanceSpec spec = .ok i.spec)
    (hsubmission : normalizeWorkerEvidenceSubmission submission = .ok i.submission)
    (hdecision : normalizeSupervisorAcceptanceDecision decision = .ok i.decision)
    (hcurrent : normalizeCurrentAcceptanceIdentity current = .ok i.current) :
    ∃ r, applySupervisorAcceptanceDecision spec submission decision current = .ok r ∧
      (r.accepted = true ↔
        (i.spec.toAcceptanceIdentity = i.current ∧ i.submission.toAcceptanceIdentity = i.current ∧
          i.decision.toAcceptanceIdentity = i.current) ∧ i.decision.decision = .accept ∧
          {id | id ∈ i.evidencedIds} = {id | id ∈ i.criterionIds}) ∧
      (r.accepted = false → Stage.order.findSome? (Stage.failure i) = some r) := by
  refine ⟨_, applySupervisorAcceptanceDecision_eq hspec hsubmission hdecision hcurrent, ?_, ?_⟩
  · rw [Set.ext_iff]
    show _ ↔ _ ∧ _ ∧ ∀ id, id ∈ i.evidencedIds ↔ id ∈ i.criterionIds
    rw [← firstFailure_eq_none]
    cases h : firstFailure i with
    | none => simp [acceptedResult]
    | some r => simp [accepted_of_firstFailure h]
  · cases h : firstFailure i with
    | none => simp [acceptedResult]
    | some r =>
      intro _
      exact h

/-- The identity of a gate under review. -/
def gateIdentity : AcceptanceIdentity :=
  ⟨⟨"plan-1", by decide⟩, ⟨7, by decide⟩, ⟨"gate-a", by decide⟩, ⟨3, by decide⟩⟩

/-- A gate with two criteria, and evidence for both. -/
def gateInputs : Inputs where
  spec :=
    { gateIdentity with
      criteria := [⟨⟨"criterion-1", by decide⟩, ⟨"first criterion", by decide⟩⟩,
        ⟨⟨"criterion-2", by decide⟩, ⟨"second criterion", by decide⟩⟩]
      nonempty := by simp
      unique := by decide }
  submission :=
    { gateIdentity with
      workerClaim := .ready
      evidence := [⟨⟨"criterion-2", by decide⟩, ⟨"evidence:2", by decide⟩⟩,
        ⟨⟨"criterion-1", by decide⟩, ⟨"evidence:1", by decide⟩⟩] }
  decision :=
    { gateIdentity with
      decision := .accept
      reason := ⟨"criteria satisfied", by decide⟩ }
  current := gateIdentity

theorem acceptance_exact_gateInputs :
    ∃ r, applySupervisorAcceptanceDecision gateInputs.spec.toValue gateInputs.submission.toValue
        gateInputs.decision.toValue gateInputs.current.toValue = .ok r ∧
      (r.accepted = true ↔
        (gateInputs.spec.toAcceptanceIdentity = gateInputs.current ∧
          gateInputs.submission.toAcceptanceIdentity = gateInputs.current ∧
          gateInputs.decision.toAcceptanceIdentity = gateInputs.current) ∧
          gateInputs.decision.decision = .accept ∧
          {id | id ∈ gateInputs.evidencedIds} = {id | id ∈ gateInputs.criterionIds}) ∧
      (r.accepted = false → Stage.order.findSome? (Stage.failure gateInputs) = some r) :=
  acceptance_exact (normalizeGateAcceptanceSpec_eq_ok.mpr (.refl _))
    (normalizeWorkerEvidenceSubmission_eq_ok.mpr (.refl _))
    (normalizeSupervisorAcceptanceDecision_eq_ok.mpr (.refl _))
    (normalizeCurrentAcceptanceIdentity_eq_ok.mpr (.refl _))

end Wns.Acceptance
