import Wns.Acceptance.Evidence
import Wns.Common.Run
import Wns.Plan.Admission
import Wns.Plan.AuthoritativePlan

/-!
# Runs of amendments

The plan is amended by calls of `applySupervisorPlanAmendment` on the then-current plan; a
call that throws leaves it as it is.

* `amend_eq_or`: a call leaves the plan as it is or appends one record.
* `amendment_history_run`: the history of a plan tells its revisions apart, one by one.
* `amendment_fences`: once an amendment has been applied, nothing observed, requested or
  evidenced at an earlier revision goes through.
-/

namespace Wns.Plan

open Ecma

/-! ## Runs -/

/-- The arguments of a call of `applySupervisorPlanAmendment`, without the plan. -/
structure AmendmentCall where
  proposal : JsValue
  review : JsValue
  nextPlan : JsValue

/-- `applySupervisorPlanAmendment` on the plan `p`. -/
def AmendmentCall.result (c : AmendmentCall) (p : AuthoritativePlan) : Throws AuthoritativePlan :=
  applySupervisorPlanAmendment p.toValue c.proposal c.review c.nextPlan

/-- The current plan after a call. -/
def AuthoritativePlan.amend (p : AuthoritativePlan) (c : AmendmentCall) : AuthoritativePlan :=
  match c.result p with
  | .ok q => q
  | .error _ => p

/-- The current plan after a sequence of calls. -/
def AuthoritativePlan.amendAll (p : AuthoritativePlan) (calls : List AmendmentCall) :
    AuthoritativePlan := calls.foldl .amend p

/-- A call on the current plan. -/
def Calls (p : AuthoritativePlan) (c : AmendmentCall) (q : AuthoritativePlan) : Prop :=
  q = p.amend c

/-- A call whose amendment is accepted or modified, and applied. -/
def Applies (p : AuthoritativePlan) (c : AmendmentCall) (q : AuthoritativePlan) : Prop :=
  c.result p = .ok q ∧ ∃ r, validatePlanAmendmentReview c.review = .ok r ∧ r.decision ≠ .reject

/-- The proposal of a call was made at that revision. -/
def AmendmentCall.Observes (c : AmendmentCall) (revision : PosSafe) : Prop :=
  ∃ ps, c.proposal = .obj ps ∧ prop ps "observed_plan_revision" = .nat revision.1

theorem run_amendAll (p : AuthoritativePlan) (calls : List AmendmentCall) :
    Run Calls p calls (p.amendAll calls) := by
  induction calls generalizing p with
  | nil => exact .nil p
  | cons c calls ih => exact .cons rfl (ih (p.amend c))

/-- One record on top of the history, and one revision up. -/
def Extends (p q : AuthoritativePlan) : Prop :=
  ∃ a b r, Amends p.toPlanData a b q.toPlanData r ∧ b.decision ≠ .reject

theorem Applies.extends {p q : AuthoritativePlan} {c : AmendmentCall} (h : Applies p c q) :
    Extends p q := by
  obtain ⟨hresult, b, hb, hdecision⟩ := h
  obtain ⟨a, b', -, hb', -, -, h⟩ := applySupervisorPlanAmendment_ok hresult
  obtain rfl := Except.ok.inj (hb.symm.trans hb')
  rcases h with ⟨hreject, -⟩ | ⟨-, -, r, hr⟩
  · exact (hdecision hreject).elim
  · exact ⟨a, b, r, hr, hdecision⟩

/-- A call leaves the plan as it is or appends one record. -/
theorem amend_eq_or {p q : AuthoritativePlan} {c : AmendmentCall} (h : Calls p c q) :
    q = p ∨ Extends p q := by
  unfold Calls AuthoritativePlan.amend at h
  split at h
  · next q' hq' =>
    subst h
    obtain ⟨a, b, -, -, -, -, h⟩ := applySupervisorPlanAmendment_ok hq'
    rcases h with ⟨-, h⟩ | ⟨hdecision, -, r, hr⟩
    · exact .inl h
    · exact .inr ⟨a, b, r, hr, hdecision⟩
  · exact .inl h

/-! ## A gate completed by an amendment -/

/-- A proposal to reorder the gates of `planOne`. -/
def proposalOne : PlanAmendmentProposal where
  proposalId := checked "proposal-1"
  planId := checked "plan-1"
  observedPlanRevision := checked 1
  proposedBy := ⟨checked "worker-1", checked "session-1"⟩
  proposalType := .reorder
  affectedGates := ⟨[checked "gate-a"], by decide⟩
  reason := checked "gate-a is done"
  evidenceRefs := ⟨[], by decide⟩
  executionRecommendation := .holdBeforeNextEffect

def reviewOne : PlanAmendmentReview := ⟨.accept, some ⟨"looks correct", by decide⟩⟩

/-- `planOne` with its first gate completed and the second one authorized. -/
def planTwo : AuthoritativePlan where
  planId := checked "plan-1"
  planRevision := checked 2
  gates := planOne.gates
  dependencies := planOne.dependencies
  authorizedGates := [checked "gate-b"]
  completedGates := [checked "gate-a"]
  blockedGates := [checked "gate-c"]
  amendmentHistory := [⟨checked "proposal-1", checked 1, some (checked 2), .accept,
    some (checked "looks correct"), by decide⟩]
  consistent :=
    { planOne.consistent with
      nodup := by decide
      known := by simp [planOne]
      authorizedNotCompleted := by simp [List.Disjoint]
      authorizedNotBlocked := by simp [List.Disjoint]
      completedNotBlocked := by simp [List.Disjoint]
      met := by simp [planOne, Requires] }

/-- The call that leads from `planOne` to `planTwo`. -/
def callOne : AmendmentCall := ⟨proposalOne.toValue, reviewOne.toValue, planTwo.toValue⟩

theorem applies_callOne : Applies planOne callOne planTwo := by
  refine ⟨?_, reviewOne, validatePlanAmendmentReview_eq_ok.mpr (.refl _), by decide⟩
  exact applySupervisorPlanAmendment_of_amends rfl rfl (by decide)
    ⟨rfl, rfl, rfl, rfl, rfl, rfl, rfl, rfl⟩

/-! ## The history -/

/-- The records of a history count the revisions from the first one on. -/
structure CountsRevisions (p : AuthoritativePlan) : Prop where
  revision : p.planRevision.1 = 1 + p.amendmentHistory.length
  records : ∀ i r, p.amendmentHistory[i]? = some r → r.observedPlanRevision.1 = i + 1 ∧
    r.appliedPlanRevision.map Subtype.val = some (i + 2) ∧
    (r.decision = .accept ∨ r.decision = .modify)

/-- A decision other than to reject. -/
theorem accept_or_modify {d : ReviewDecision} (h : d ≠ .reject) : d = .accept ∨ d = .modify := by
  cases d <;> simp_all

/-- An appended record counts the next revision. -/
theorem CountsRevisions.extends {p q : AuthoritativePlan} (h : CountsRevisions p)
    (hpq : Extends p q) : CountsRevisions q := by
  obtain ⟨a, b, r, hr, hdecision⟩ := hpq
  have hrev := h.revision
  have hrev' := hr.planRevision
  constructor
  · rw [hr.history, List.length_append, List.length_singleton]
    omega
  · intro i s hs
    rw [hr.history] at hs
    rcases Nat.lt_trichotomy i p.amendmentHistory.length with hi | hi | hi
    · rw [List.getElem?_append_left hi] at hs
      exact h.records i s hs
    · subst hi
      rw [List.getElem?_concat_length, Option.some.injEq] at hs
      subst hs
      refine ⟨?_, ?_, ?_⟩
      · rw [hr.observed]
        omega
      · rw [hr.applied, Option.map_some, Option.some.injEq]
        omega
      · rw [hr.decision]
        exact accept_or_modify hdecision
    · rw [List.getElem?_eq_none (by simp; omega)] at hs
      cases hs

theorem Calls.countsRevisions {p q : AuthoritativePlan} {c : AmendmentCall} (h : Calls p c q)
    (hp : CountsRevisions p) : CountsRevisions q := by
  rcases amend_eq_or h with rfl | h
  · exact hp
  · exact hp.extends h

theorem Calls.planId {p q : AuthoritativePlan} {c : AmendmentCall} (h : Calls p c q) :
    q.planId = p.planId := by
  rcases amend_eq_or h with rfl | ⟨a, b, r, hr, -⟩
  · rfl
  · exact hr.planId

theorem Calls.history_prefix {p q : AuthoritativePlan} {c : AmendmentCall} (h : Calls p c q) :
    p.amendmentHistory <+: q.amendmentHistory := by
  rcases amend_eq_or h with rfl | ⟨a, b, r, hr, -⟩
  · exact List.prefix_refl _
  · rw [hr.history]
    exact List.prefix_append _ _

theorem Calls.revision_le {p q : AuthoritativePlan} {c : AmendmentCall} (h : Calls p c q) :
    p.planRevision.1 ≤ q.planRevision.1 := by
  rcases amend_eq_or h with rfl | ⟨a, b, r, hr, -⟩
  · exact le_rfl
  · rw [hr.planRevision]
    omega

theorem planId_of_run {p q : AuthoritativePlan} {calls : List AmendmentCall}
    (h : Run Calls p calls q) : q.planId = p.planId :=
  h.rel (R := fun p q : AuthoritativePlan => q.planId = p.planId) (fun _ => rfl)
    (fun _ _ _ h h' => h'.trans h) fun _ _ _ => Calls.planId

theorem revision_le_of_run {p q : AuthoritativePlan} {calls : List AmendmentCall}
    (h : Run Calls p calls q) : p.planRevision.1 ≤ q.planRevision.1 :=
  h.le (f := fun p : AuthoritativePlan => p.planRevision.1) fun _ _ _ h => h.revision_le

/-- A plan created with the default revision and history. -/
theorem createAuthoritativePlan_default {descriptor : Props} {p : AuthoritativePlan}
    (h : createAuthoritativePlan (.obj descriptor) = .ok p)
    (hrevision : prop descriptor "plan_revision" = .undefined)
    (hhistory : prop descriptor "amendment_history" = .undefined) :
    p.planRevision.1 = 1 ∧ p.amendmentHistory = [] := by
  simp only [createAuthoritativePlan, destructure, ok_bind, hrevision, hhistory, orDefault,
    if_true] at h
  obtain ⟨ps, hps, -, -, h2, -, -, -, -, -, h8⟩ :=
    PlanData.jsonEq_iff.mp (validateAuthoritativePlan_eq_ok.mp h)
  obtain rfl := JsValue.obj.inj hps
  simp [jsonEq_arr] at h2 h8
  exact ⟨h2.symm, h8⟩

/-- **The history of a plan over a run of amendments.** It starts empty at revision one, only
    grows, and its records count the revisions. -/
theorem amendment_history_run {descriptor : Props} {p : AuthoritativePlan}
    (hcreate : createAuthoritativePlan (.obj descriptor) = .ok p)
    (hrevision : prop descriptor "plan_revision" = .undefined)
    (hhistory : prop descriptor "amendment_history" = .undefined)
    (before after : List AmendmentCall) :
    (p.amendAll (before ++ after)).planId = p.planId ∧
    (p.amendAll (before ++ after)).planRevision.1 =
      1 + (p.amendAll (before ++ after)).amendmentHistory.length ∧
    (∀ i r, (p.amendAll (before ++ after)).amendmentHistory[i]? = some r →
      r.observedPlanRevision.1 = i + 1 ∧ r.appliedPlanRevision.map Subtype.val = some (i + 2) ∧
      (r.decision = .accept ∨ r.decision = .modify)) ∧
    (p.amendAll before).amendmentHistory <+: (p.amendAll (before ++ after)).amendmentHistory ∧
    1 ≤ (p.amendAll (before ++ after)).planRevision.1 ∧
    (p.amendAll (before ++ after)).planRevision.1 ≤ maxSafeInteger := by
  obtain ⟨hone, hnil⟩ := createAuthoritativePlan_default hcreate hrevision hhistory
  have hstart : CountsRevisions p := ⟨by rw [hone, hnil]; rfl, by simp [hnil]⟩
  have hrun := run_amendAll p (before ++ after)
  have hcounts := hrun.invariant (P := CountsRevisions) (fun _ _ _ h => h.countsRevisions) hstart
  have hafter := run_amendAll (p.amendAll before) after
  have hprefix := hafter.rel
    (R := fun p q : AuthoritativePlan => p.amendmentHistory <+: q.amendmentHistory)
    (fun _ => List.prefix_refl _) (fun _ _ _ => List.IsPrefix.trans)
    fun _ _ _ => Calls.history_prefix
  have happend : (p.amendAll before).amendAll after = p.amendAll (before ++ after) := by
    rw [AuthoritativePlan.amendAll, AuthoritativePlan.amendAll, AuthoritativePlan.amendAll,
      List.foldl_append]
  rw [happend] at hprefix
  exact ⟨planId_of_run hrun, hcounts.revision, hcounts.records, hprefix,
    (p.amendAll _).planRevision.2.1, (p.amendAll _).planRevision.2.2⟩

/-- The descriptor of `planOne`, without the fields that have their default. -/
def descriptorOne : Props :=
  [("plan_id", ofString planOne.planId), ("gates", ofStrings planOne.gates),
    ("dependencies", .arr (planOne.dependencies.map Dependency.toValue)),
    ("authorized_gates", ofStrings planOne.authorizedGates),
    ("blocked_gates", ofStrings planOne.blockedGates)]

theorem createAuthoritativePlan_descriptorOne :
    createAuthoritativePlan (.obj descriptorOne) = .ok planOne := by
  simp only [createAuthoritativePlan, destructure, ok_bind]
  rw [validateAuthoritativePlan_eq_ok]
  simp [descriptorOne, orDefault, PlanData.toValue, ofStrings, planOne, JsonEq.refl]

theorem amendment_history_run_planOne :
    (planOne.amendAll ([] ++ [callOne])).planId = planOne.planId ∧
    (planOne.amendAll ([] ++ [callOne])).planRevision.1 =
      1 + (planOne.amendAll ([] ++ [callOne])).amendmentHistory.length ∧
    (∀ i r, (planOne.amendAll ([] ++ [callOne])).amendmentHistory[i]? = some r →
      r.observedPlanRevision.1 = i + 1 ∧ r.appliedPlanRevision.map Subtype.val = some (i + 2) ∧
      (r.decision = .accept ∨ r.decision = .modify)) ∧
    (planOne.amendAll []).amendmentHistory <+:
      (planOne.amendAll ([] ++ [callOne])).amendmentHistory ∧
    1 ≤ (planOne.amendAll ([] ++ [callOne])).planRevision.1 ∧
    (planOne.amendAll ([] ++ [callOne])).planRevision.1 ≤ maxSafeInteger :=
  amendment_history_run createAuthoritativePlan_descriptorOne (by simp [descriptorOne])
    (by simp [descriptorOne]) [] [callOne]

/-! ## Fencing -/

/-- The value carries that plan revision. -/
def Carries (v : JsValue) (revision : PosSafe) : Prop :=
  ∃ ps, v = .obj ps ∧ prop ps "plan_revision" = .nat revision.1

/-- An acceptance input carries the revision of its identity. -/
theorem Carries.eq_of_jsonEq {v : JsValue} {i : Acceptance.AcceptanceIdentity} {rest : Props}
    {revision : PosSafe} (h : Carries v revision) (hv : JsonEq v (.obj (i.props ++ rest))) :
    i.planRevision = revision := by
  obtain ⟨ps, rfl, hrev⟩ := h
  obtain ⟨ps', hps, -, hprops⟩ := jsonEq_obj_iff.mp hv
  obtain rfl := JsValue.obj.inj hps
  have h := hprops "plan_revision" (by simp [names, Acceptance.AcceptanceIdentity.props])
  simp [Acceptance.AcceptanceIdentity.props, hrev] at h
  exact Subtype.ext h.symm

theorem AmendmentCall.Observes.eq {c : AmendmentCall} {a : PlanAmendmentProposal}
    {revision : PosSafe} (h : c.Observes revision)
    (ha : validatePlanAmendmentProposal c.proposal = .ok a) :
    a.observedPlanRevision = revision := by
  obtain ⟨ps, hps, hrev⟩ := h
  rw [validatePlanAmendmentProposal_eq_ok, PlanAmendmentProposal.toValue, jsonEq_obj_iff] at ha
  obtain ⟨ps', hps', -, hprops⟩ := ha
  obtain rfl := JsValue.obj.inj (hps.symm.trans hps')
  have h := hprops "observed_plan_revision" (by simp)
  simp [hrev] at h
  exact Subtype.ext h.symm

/-- A proposal made at another revision is not even reviewed. -/
theorem AmendmentCall.Observes.throws {c : AmendmentCall} {revision : PosSafe}
    {q : AuthoritativePlan} (h : c.Observes revision) (hne : revision ≠ q.planRevision) :
    ∃ e, c.result q = .error e := by
  cases hresult : c.result q with
  | error e => exact ⟨e, rfl⟩
  | ok q' =>
    obtain ⟨a, b, ha, -, -, hobserved, -⟩ := applySupervisorPlanAmendment_ok hresult
    exact (hne ((h.eq ha).symm.trans hobserved)).elim

/-- An applied amendment was observed at the revision that it replaces. -/
theorem Applies.observed {p q : AuthoritativePlan} {c : AmendmentCall} (h : Applies p c q)
    {revision : PosSafe} (hc : c.Observes revision) : revision = p.planRevision := by
  by_contra hne
  obtain ⟨e, he⟩ := hc.throws hne
  rw [h.1] at he
  cases he

/-- What is accepted under an identity carries the revision of that identity throughout. -/
theorem carries_of_accepted {spec submission decision current : JsValue} {revision : PosSafe}
    {r : Acceptance.DecisionResult} (hcurrent : Carries current revision)
    (h : Acceptance.applySupervisorAcceptanceDecision spec submission decision current = .ok r)
    (haccepted : r.accepted = true) {stale : PosSafe}
    (hstale : Carries spec stale ∨ Carries submission stale ∨ Carries decision stale) :
    stale = revision := by
  have hrun := h
  simp only [Acceptance.applySupervisorAcceptanceDecision, bind_eq_ok] at hrun
  obtain ⟨s, hs, u, hu, d, hd, i, hi, -⟩ := hrun
  rw [Acceptance.applySupervisorAcceptanceDecision_eq (i := ⟨s, u, d, i⟩) hs hu hd hi,
    Except.ok.injEq] at h
  cases hf : Acceptance.firstFailure ⟨s, u, d, i⟩ with
  | some r' =>
    rw [hf, Option.getD_some] at h
    rw [← h, Acceptance.accepted_of_firstFailure hf] at haccepted
    cases haccepted
  | none =>
    obtain ⟨⟨h1, h2, h3⟩, -⟩ := Acceptance.firstFailure_eq_none.mp hf
    have hi : JsonEq current (.obj (i.props ++ [])) := by
      rw [List.append_nil]
      exact Acceptance.normalizeCurrentAcceptanceIdentity_eq_ok.mp hi
    have hi := hcurrent.eq_of_jsonEq hi
    rw [← hi]
    rcases hstale with hstale | hstale | hstale
    · rw [← hstale.eq_of_jsonEq (Acceptance.normalizeGateAcceptanceSpec_eq_ok.mp hs), h1]
    · rw [← hstale.eq_of_jsonEq (Acceptance.normalizeWorkerEvidenceSubmission_eq_ok.mp hu), h2]
    · rw [← hstale.eq_of_jsonEq (Acceptance.normalizeSupervisorAcceptanceDecision_eq_ok.mp hd), h3]

/-- **An applied amendment fences off the work in flight.** When a run of calls from `p` to `q`
    has applied one, proposals made at the revision of `p` throw, whatever comes with them, and
    so do those made at the revision of the applied one; work requested under `p` is refused as
    stale; and no gate is closed on `q` by a specification, a submission or a decision of `p`.
    -/
theorem amendment_fences {p x y q : AuthoritativePlan} {before after : List AmendmentCall}
    {c : AmendmentCall} (hbefore : Run Calls p before x) (hc : Applies x c y)
    (hafter : Run Calls y after q) :
    (∀ d : AmendmentCall, d.Observes p.planRevision → ∃ e, d.result q = .error e) ∧
    (∀ (revision : PosSafe) (d : AmendmentCall) (q' : AuthoritativePlan),
      c.Observes revision → d.Observes revision → ¬ Applies q d q') ∧
    (∀ (v w : JsValue) (a b : PlanAdmissionIdentity), validatePlanAdmissionIdentity v = .ok a →
      validatePlanAdmissionIdentity w = .ok b → a.planId = p.planId →
      a.planRevision = p.planRevision → b.planId = q.planId → b.planRevision = q.planRevision →
      evaluatePlanAdmission v w = .ok ⟨false, .stalePlanRevision⟩) ∧
    ∀ (spec submission decision current : JsValue) (r : Acceptance.DecisionResult),
      Carries current q.planRevision →
      Carries spec p.planRevision ∨ Carries submission p.planRevision ∨
        Carries decision p.planRevision →
      Acceptance.applySupervisorAcceptanceDecision spec submission decision current = .ok r →
      r.accepted = false := by
  -- the applied amendment raised the revision, and no call lowers it
  obtain ⟨_, _, _, hr, -⟩ := hc.extends
  have hxy := hr.planRevision
  have hpx := revision_le_of_run hbefore
  have hyq := revision_le_of_run hafter
  have hne : p.planRevision ≠ q.planRevision := by
    intro h
    have := congrArg Subtype.val h
    omega
  have hid : q.planId = p.planId := by
    rw [planId_of_run hafter, hr.planId, planId_of_run hbefore]
  refine ⟨fun d hd => hd.throws hne, ?_, ?_, ?_⟩
  · intro revision d q' hobserved hd happlied
    have h1 := congrArg Subtype.val (hc.observed hobserved)
    have h2 := congrArg Subtype.val (happlied.observed hd)
    omega
  · intro v w a b ha hb hap harev hbq hbrev
    rw [evaluatePlanAdmission_eq ha hb, Except.ok.injEq, compareAdmission, if_neg, if_pos]
    · rw [harev, hbrev]
      exact hne
    · rw [hap, hbq, hid]
      simp
  · intro spec submission decision current r hcurrent hstale h
    cases haccepted : r.accepted with
    | false => rfl
    | true => exact (hne (carries_of_accepted hcurrent h haccepted hstale)).elim

theorem amendment_fences_planOne :
    (∀ d : AmendmentCall, d.Observes planOne.planRevision → ∃ e, d.result planTwo = .error e) ∧
    (∀ (revision : PosSafe) (d : AmendmentCall) (q' : AuthoritativePlan),
      callOne.Observes revision → d.Observes revision → ¬ Applies planTwo d q') ∧
    (∀ (v w : JsValue) (a b : PlanAdmissionIdentity), validatePlanAdmissionIdentity v = .ok a →
      validatePlanAdmissionIdentity w = .ok b → a.planId = planOne.planId →
      a.planRevision = planOne.planRevision → b.planId = planTwo.planId →
      b.planRevision = planTwo.planRevision →
      evaluatePlanAdmission v w = .ok ⟨false, .stalePlanRevision⟩) ∧
    ∀ (spec submission decision current : JsValue) (r : Acceptance.DecisionResult),
      Carries current planTwo.planRevision →
      Carries spec planOne.planRevision ∨ Carries submission planOne.planRevision ∨
        Carries decision planOne.planRevision →
      Acceptance.applySupervisorAcceptanceDecision spec submission decision current = .ok r →
      r.accepted = false :=
  amendment_fences (.nil planOne) applies_callOne (.nil planTwo)

end Wns.Plan
