import Wns.Common.Checks

/-!
# Plan amendments

Model of `supervisor-policy/plan-amendment.mjs`: the proposal of a worker, the review of
the supervisor, and the record that an amendment leaves in the history of the plan.

* `validatePlanAmendmentProposal_eq_ok`, `validatePlanAmendmentReview_eq_ok`,
  `validatePlanAmendmentHistoryRecord_eq_ok`: each validator accepts precisely the objects
  equal to one of its data, in any key order.
-/

namespace Wns.Plan

open Ecma

/-! ## Enumerations -/

/-- `PROPOSAL_TYPES`. -/
inductive ProposalType
  | insertPrerequisite | removePrerequisite | reorder | splitGate | addGate | holdCurrentGate
  deriving DecidableEq

instance : JsEnum ProposalType where
  values := [.insertPrerequisite, .removePrerequisite, .reorder, .splitGate, .addGate,
    .holdCurrentGate]
  text
    | .insertPrerequisite => "INSERT_PREREQUISITE"
    | .removePrerequisite => "REMOVE_PREREQUISITE"
    | .reorder => "REORDER"
    | .splitGate => "SPLIT_GATE"
    | .addGate => "ADD_GATE"
    | .holdCurrentGate => "HOLD_CURRENT_GATE"
  complete := by rintro ⟨⟩ <;> simp
  injective := by rintro ⟨⟩ ⟨⟩ <;> simp

/-- `EXECUTION_RECOMMENDATIONS`. -/
inductive ExecutionRecommendation
  | continueCurrentGate | holdBeforeNextEffect
  deriving DecidableEq

instance : JsEnum ExecutionRecommendation where
  values := [.continueCurrentGate, .holdBeforeNextEffect]
  text
    | .continueCurrentGate => "CONTINUE_CURRENT_GATE"
    | .holdBeforeNextEffect => "HOLD_BEFORE_NEXT_EFFECT"
  complete := by rintro ⟨⟩ <;> simp
  injective := by rintro ⟨⟩ ⟨⟩ <;> simp

/-- `REVIEW_DECISIONS`. -/
inductive ReviewDecision
  | accept | modify | reject
  deriving DecidableEq

instance : JsEnum ReviewDecision where
  values := [.accept, .modify, .reject]
  text
    | .accept => "accept"
    | .modify => "modify"
    | .reject => "reject"
  complete := by rintro ⟨⟩ <;> simp
  injective := by rintro ⟨⟩ ⟨⟩ <;> simp

/-! ## Data -/

structure ProposedBy where
  worker : TrimmedString
  sessionId : TrimmedString
  deriving DecidableEq

structure PlanAmendmentProposal where
  proposalId : TrimmedString
  planId : TrimmedString
  observedPlanRevision : PosSafe
  proposedBy : ProposedBy
  proposalType : ProposalType
  affectedGates : StringArray false
  reason : TrimmedString
  evidenceRefs : StringArray true
  executionRecommendation : ExecutionRecommendation
  deriving DecidableEq

structure PlanAmendmentReview where
  decision : ReviewDecision
  reason : Option TrimmedString
  deriving DecidableEq

/-- A record of the amendment history. Only a rejected amendment has no revision at which
    it was applied. -/
structure PlanAmendmentHistoryRecord where
  proposalId : TrimmedString
  observedPlanRevision : PosSafe
  appliedPlanRevision : Option PosSafe
  decision : ReviewDecision
  reason : Option TrimmedString
  applied : appliedPlanRevision = none ↔ decision = .reject
  deriving DecidableEq

/-- A revision or `null`. -/
def ofRevisionOrNull : Option PosSafe → JsValue
  | none => .null
  | some n => .nat n.1

def ProposedBy.toValue (p : ProposedBy) : JsValue :=
  .obj [("worker", ofString p.worker), ("session_id", ofString p.sessionId)]

def PlanAmendmentProposal.toValue (p : PlanAmendmentProposal) : JsValue :=
  .obj [("proposal_id", ofString p.proposalId), ("plan_id", ofString p.planId),
    ("observed_plan_revision", .nat p.observedPlanRevision.1),
    ("proposed_by", p.proposedBy.toValue), ("proposal_type", ofEnum p.proposalType),
    ("affected_gates", ofStrings p.affectedGates.1), ("reason", ofString p.reason),
    ("evidence_refs", ofStrings p.evidenceRefs.1),
    ("execution_recommendation", ofEnum p.executionRecommendation)]

def PlanAmendmentReview.toValue (r : PlanAmendmentReview) : JsValue :=
  .obj [("decision", ofEnum r.decision), ("reason", ofNullable r.reason)]

def PlanAmendmentHistoryRecord.props (r : PlanAmendmentHistoryRecord) : Props :=
  [("proposal_id", ofString r.proposalId),
    ("observed_plan_revision", .nat r.observedPlanRevision.1),
    ("applied_plan_revision", ofRevisionOrNull r.appliedPlanRevision),
    ("decision", ofEnum r.decision), ("reason", ofNullable r.reason)]

def PlanAmendmentHistoryRecord.toValue (r : PlanAmendmentHistoryRecord) : JsValue := .obj r.props

/-! ## Validation -/

/-- `normalizeProposedBy(proposedBy)`. -/
def normalizeProposedBy (proposedBy : JsValue) : Throws ProposedBy := do
  let ps ← assertExactKeys proposedBy ["worker", "session_id"] "proposal.proposed_by"
  let worker ← requireTrimmedString (prop ps "worker") "proposal.proposed_by.worker"
  let sessionId ← requireTrimmedString (prop ps "session_id") "proposal.proposed_by.session_id"
  pure ⟨worker, sessionId⟩

/-- `validatePlanAmendmentProposal(proposal)`. -/
def validatePlanAmendmentProposal (proposal : JsValue) : Throws PlanAmendmentProposal := do
  let ps ← assertExactKeys proposal ["proposal_id", "plan_id", "observed_plan_revision",
    "proposed_by", "proposal_type", "affected_gates", "reason", "evidence_refs",
    "execution_recommendation"] "proposal"
  let proposalId ← requireTrimmedString (prop ps "proposal_id") "proposal.proposal_id"
  let planId ← requireTrimmedString (prop ps "plan_id") "proposal.plan_id"
  let observedPlanRevision ← requirePositiveSafeInteger (prop ps "observed_plan_revision")
    "proposal.observed_plan_revision"
  let proposedBy ← normalizeProposedBy (prop ps "proposed_by")
  let proposalType ← requireEnum (prop ps "proposal_type") "proposal.proposal_type"
  let affectedGates ← requireUniqueTrimmedStringArray false (prop ps "affected_gates")
    "proposal.affected_gates"
  let reason ← requireTrimmedString (prop ps "reason") "proposal.reason"
  let evidenceRefs ← requireUniqueTrimmedStringArray true (prop ps "evidence_refs")
    "proposal.evidence_refs"
  let executionRecommendation ← requireEnum (prop ps "execution_recommendation")
    "proposal.execution_recommendation"
  pure ⟨proposalId, planId, observedPlanRevision, proposedBy, proposalType, affectedGates, reason,
    evidenceRefs, executionRecommendation⟩

/-- `validatePlanAmendmentReview(review)`. -/
def validatePlanAmendmentReview (review : JsValue) : Throws PlanAmendmentReview := do
  let ps ← assertExactKeys review ["decision", "reason"] "review"
  let decision ← requireEnum (prop ps "decision") "review.decision"
  let reason ← requireTrimmedStringOrNull (prop ps "reason") "review.reason"
  pure ⟨decision, reason⟩

/-- The `applied_plan_revision` of a history record with that decision. -/
def normalizeAppliedRevision (decision : ReviewDecision) (value : JsValue) :
    Throws {n : Option PosSafe // n = none ↔ decision = .reject} :=
  if h : decision = .reject then
    if value = .null then .ok ⟨none, by simp [h]⟩
    else throwType "history record.applied_plan_revision must be null when decision is reject"
  else do
    let n ← requirePositiveSafeInteger value "history record.applied_plan_revision"
    pure ⟨some n, by simp [h]⟩

/-- `validatePlanAmendmentHistoryRecord(record)`. -/
def validatePlanAmendmentHistoryRecord (record : JsValue) :
    Throws PlanAmendmentHistoryRecord := do
  let ps ← assertExactKeys record ["proposal_id", "observed_plan_revision",
    "applied_plan_revision", "decision", "reason"] "history record"
  let proposalId ← requireTrimmedString (prop ps "proposal_id") "history record.proposal_id"
  let observedPlanRevision ← requirePositiveSafeInteger (prop ps "observed_plan_revision")
    "history record.observed_plan_revision"
  let decision ← requireEnum (prop ps "decision") "history record.decision"
  let ⟨appliedPlanRevision, applied⟩ ←
    normalizeAppliedRevision decision (prop ps "applied_plan_revision")
  let reason ← requireTrimmedStringOrNull (prop ps "reason") "history record.reason"
  pure ⟨proposalId, observedPlanRevision, appliedPlanRevision, decision, reason, applied⟩

/-! ## What is accepted -/

@[simp] theorem ofRevisionOrNull_inj {m n : Option PosSafe} :
    ofRevisionOrNull m = ofRevisionOrNull n ↔ m = n := by
  cases m <;> cases n <;> simp [ofRevisionOrNull, JsValue.nat, Subtype.ext_iff]

@[simp] theorem jsonEq_ofRevisionOrNull {v : JsValue} {n : Option PosSafe} :
    JsonEq v (ofRevisionOrNull n) ↔ v = ofRevisionOrNull n := by
  cases n
  · exact jsonEq_null
  · exact jsonEq_nat

@[simp] theorem normalizeAppliedRevision_eq_ok {decision : ReviewDecision} {v : JsValue}
    {n : {n : Option PosSafe // n = none ↔ decision = .reject}} :
    normalizeAppliedRevision decision v = .ok n ↔ v = ofRevisionOrNull n.1 := by
  unfold normalizeAppliedRevision
  split_ifs with hd hv
  · obtain ⟨_, hn⟩ := n
    obtain rfl := hn.mpr hd
    simp [hv, ofRevisionOrNull]
  · obtain ⟨_, hn⟩ := n
    obtain rfl := hn.mpr hd
    simp [hv, ofRevisionOrNull]
  · obtain ⟨n, hn⟩ := n
    obtain ⟨m, rfl⟩ := Option.ne_none_iff_exists'.mp (mt hn.mp hd)
    simp [-Subtype.exists, ofRevisionOrNull, Subtype.mk.injEq]

@[simp] theorem normalizeProposedBy_eq_ok {v : JsValue} {p : ProposedBy} :
    normalizeProposedBy v = .ok p ↔ JsonEq v p.toValue := by
  simp only [normalizeProposedBy, bind_eq_ok, assertExactKeys_eq_ok, requireTrimmedString_eq_ok,
    pure_eq_ok]
  simp only [ProposedBy.toValue, jsonEq_obj_iff, names_cons, names_nil]
  constructor
  · rintro ⟨ps, ⟨rfl, hk⟩, worker, h1, session, h2, rfl⟩
    exact ⟨ps, rfl, hk, by simp [h1, h2]⟩
  · rintro ⟨ps, rfl, hk, h⟩
    simp at h
    exact ⟨ps, ⟨rfl, hk⟩, _, h.1, _, h.2, rfl⟩

theorem validatePlanAmendmentProposal_eq_ok {v : JsValue} {p : PlanAmendmentProposal} :
    validatePlanAmendmentProposal v = .ok p ↔ JsonEq v p.toValue := by
  simp only [validatePlanAmendmentProposal, bind_eq_ok, assertExactKeys_eq_ok,
    requireTrimmedString_eq_ok, requirePositiveSafeInteger_eq_ok, requireEnum_eq_ok,
    requireUniqueTrimmedStringArray_eq_ok, normalizeProposedBy_eq_ok, pure_eq_ok]
  simp only [PlanAmendmentProposal.toValue, jsonEq_obj_iff, names_cons, names_nil]
  constructor
  · rintro ⟨ps, ⟨rfl, hk⟩, _, h1, _, h2, _, h3, _, h4, _, h5, _, h6, _, h7, _, h8, _, h9, rfl⟩
    exact ⟨ps, rfl, hk, by simp [h1, h2, h3, h4, h5, h6, h7, h8, h9]⟩
  · rintro ⟨ps, rfl, hk, h⟩
    simp at h
    obtain ⟨h1, h2, h3, h4, h5, h6, h7, h8, h9⟩ := h
    exact ⟨ps, ⟨rfl, hk⟩, _, h1, _, h2, _, h3, _, h4, _, h5, _, h6, _, h7, _, h8, _, h9, rfl⟩

theorem validatePlanAmendmentReview_eq_ok {v : JsValue} {r : PlanAmendmentReview} :
    validatePlanAmendmentReview v = .ok r ↔ JsonEq v r.toValue := by
  simp only [validatePlanAmendmentReview, bind_eq_ok, assertExactKeys_eq_ok, requireEnum_eq_ok,
    requireTrimmedStringOrNull_eq_ok, pure_eq_ok]
  simp only [PlanAmendmentReview.toValue, jsonEq_obj_iff, names_cons, names_nil]
  constructor
  · rintro ⟨ps, ⟨rfl, hk⟩, decision, h1, reason, h2, rfl⟩
    exact ⟨ps, rfl, hk, by simp [h1, h2]⟩
  · rintro ⟨ps, rfl, hk, h⟩
    simp at h
    exact ⟨ps, ⟨rfl, hk⟩, _, h.1, _, h.2, rfl⟩

theorem validatePlanAmendmentHistoryRecord_eq_ok {v : JsValue} {r : PlanAmendmentHistoryRecord} :
    validatePlanAmendmentHistoryRecord v = .ok r ↔ JsonEq v r.toValue := by
  simp only [validatePlanAmendmentHistoryRecord, bind_eq_ok, assertExactKeys_eq_ok,
    requireTrimmedString_eq_ok, requirePositiveSafeInteger_eq_ok, requireEnum_eq_ok,
    normalizeAppliedRevision_eq_ok, requireTrimmedStringOrNull_eq_ok, pure_eq_ok]
  simp only [PlanAmendmentHistoryRecord.toValue, PlanAmendmentHistoryRecord.props, jsonEq_obj_iff,
    names_cons, names_nil]
  constructor
  · rintro ⟨ps, ⟨rfl, hk⟩, _, h1, _, h2, _, h3, _, h4, _, h5, rfl⟩
    exact ⟨ps, rfl, hk, by simp [h1, h2, h3, h4, h5]⟩
  · rintro ⟨ps, rfl, hk, h⟩
    simp at h
    obtain ⟨h1, h2, h3, h4, h5⟩ := h
    exact ⟨ps, ⟨rfl, hk⟩, _, h1, _, h2, _, h4, ⟨_, r.applied⟩, h3, _, h5, rfl⟩

end Wns.Plan
