import Wns.Common.Checks

/-!
# Plan admission

Model of `supervisor-policy/plan-admission.mjs`: the identity under which work was
requested is compared with the effective one.

* `normalizeIdentity_eq_ok`: the identities are the objects of the right shape.
* `evaluatePlanAdmission_eq`: the answer names the first field that differs.
-/

namespace Wns.Plan

open Ecma

structure PlanAdmissionIdentity where
  planId : TrimmedString
  planRevision : PosSafe
  authorizedGateId : TrimmedString
  deriving DecidableEq

def PlanAdmissionIdentity.toValue (i : PlanAdmissionIdentity) : JsValue :=
  .obj [("plan_id", ofString i.planId), ("plan_revision", .nat i.planRevision.1),
    ("authorized_gate_id", ofString i.authorizedGateId)]

inductive AdmissionReason
  | planAdmissionValid | planIdMismatch | stalePlanRevision | authorizedGateMismatch
  deriving DecidableEq

structure Admission where
  admitted : Bool
  reasonCode : AdmissionReason
  deriving DecidableEq

/-- `normalizeIdentity(identity, name)`. -/
def normalizeIdentity (identity : JsValue) (name : JsString) : Throws PlanAdmissionIdentity := do
  let ps ← assertExactKeys identity ["plan_id", "plan_revision", "authorized_gate_id"] name
  let planId ← requireTrimmedString (prop ps "plan_id") (name ++ ".plan_id")
  let planRevision ← requirePositiveSafeInteger (prop ps "plan_revision")
    (name ++ ".plan_revision")
  let authorizedGateId ← requireTrimmedString (prop ps "authorized_gate_id")
    (name ++ ".authorized_gate_id")
  pure ⟨planId, planRevision, authorizedGateId⟩

/-- `validatePlanAdmissionIdentity(identity)`. -/
def validatePlanAdmissionIdentity (identity : JsValue) : Throws PlanAdmissionIdentity :=
  normalizeIdentity identity "identity"

/-- The comparison of `evaluatePlanAdmission`. -/
def compareAdmission (requested effective : PlanAdmissionIdentity) : Admission :=
  if requested.planId ≠ effective.planId then ⟨false, .planIdMismatch⟩
  else if requested.planRevision ≠ effective.planRevision then ⟨false, .stalePlanRevision⟩
  else if requested.authorizedGateId ≠ effective.authorizedGateId then
    ⟨false, .authorizedGateMismatch⟩
  else ⟨true, .planAdmissionValid⟩

/-- `evaluatePlanAdmission(requested, effective)`. -/
def evaluatePlanAdmission (requested effective : JsValue) : Throws Admission := do
  let normalizedRequested ← normalizeIdentity requested "requested"
  let normalizedEffective ← normalizeIdentity effective "effective"
  pure (compareAdmission normalizedRequested normalizedEffective)

theorem normalizeIdentity_eq_ok {v : JsValue} {name : JsString} {i : PlanAdmissionIdentity} :
    normalizeIdentity v name = .ok i ↔ JsonEq v i.toValue := by
  simp only [normalizeIdentity, bind_eq_ok, assertExactKeys_eq_ok, requireTrimmedString_eq_ok,
    requirePositiveSafeInteger_eq_ok, pure_eq_ok]
  simp only [PlanAdmissionIdentity.toValue, jsonEq_obj_iff, names_cons, names_nil]
  constructor
  · rintro ⟨ps, ⟨hv, hk⟩, planId, h1, planRevision, h2, gate, h3, hi⟩
    subst hi
    exact ⟨ps, hv, hk, by simp [h1, h2, h3]⟩
  · rintro ⟨ps, hv, hk, h⟩
    simp at h
    exact ⟨ps, ⟨hv, hk⟩, _, h.1, _, h.2.1, _, h.2.2, rfl⟩

/-- Valid identities are compared, whatever their key order. -/
theorem evaluatePlanAdmission_eq {v w : JsValue} {a b : PlanAdmissionIdentity}
    (ha : validatePlanAdmissionIdentity v = .ok a) (hb : validatePlanAdmissionIdentity w = .ok b) :
    evaluatePlanAdmission v w = .ok (compareAdmission a b) := by
  have ha : normalizeIdentity v "requested" = .ok a :=
    normalizeIdentity_eq_ok.mpr (normalizeIdentity_eq_ok.mp ha)
  have hb : normalizeIdentity w "effective" = .ok b :=
    normalizeIdentity_eq_ok.mpr (normalizeIdentity_eq_ok.mp hb)
  rw [evaluatePlanAdmission, ha, ok_bind, hb, ok_bind]
  rfl

end Wns.Plan
