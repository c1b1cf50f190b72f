import Wns.Plan.AmendmentRun

/-!
# What a worker is shown of the plan

Model of `createWorkerPlanContext` (`supervisor-policy/authoritative-plan.mjs`, lines 287–312).
A worker is told which gate it may work on, at which revision, and what is blocked behind it.

* `createWorkerPlanContext_eq_ok`: whom a context is created for, and what it holds.
* `workerContext_current`: over a run of amendments, the revision of a context tells whether it
  still holds.
-/

namespace Wns.Plan

open Ecma

structure WorkerPlanContext where
  currentAuthorizedGate : TrimmedString
  planRevision : PosSafe
  blockedDownstream : List TrimmedString
  amendmentInstruction : JsString
  deriving DecidableEq

/-- The instruction that every context carries. -/
def amendmentInstruction : JsString :=
  js "If execution evidence reveals a missing dependency, submit PROPOSE_PLAN_AMENDMENT. " ++
    js "Do not silently change the plan."

/-- `createWorkerPlanContext(plan, authorized_gate_id)`. -/
def createWorkerPlanContext (plan authorizedGateId : JsValue) : Throws WorkerPlanContext := do
  let validatedPlan ← validateAuthoritativePlan plan
  let gateId ← requireTrimmedString authorizedGateId "authorized_gate_id"
  check (gateId ∈ validatedPlan.gates ∧ gateId ∈ validatedPlan.authorizedGates)
    ("authorized_gate_id must be an authorized gate present in the plan: " ++ gateId.1)
  pure
    { currentAuthorizedGate := gateId
      planRevision := validatedPlan.planRevision
      blockedDownstream := validatedPlan.blockedGates.filter fun existing => existing ≠ gateId
      amendmentInstruction }

/-! ## What a context holds -/

variable {p q : AuthoritativePlan}

/-- The context of a gate of the plan. -/
def AuthoritativePlan.contextOf (p : AuthoritativePlan) (gate : TrimmedString) :
    WorkerPlanContext where
  currentAuthorizedGate := gate
  planRevision := p.planRevision
  blockedDownstream := p.blockedGates
  amendmentInstruction := amendmentInstruction

/-- Only an authorized gate has a context, and all that is blocked is in it. -/
theorem createWorkerPlanContext_eq_ok {v : JsValue} {ctx : WorkerPlanContext} :
    createWorkerPlanContext p.toValue v = .ok ctx ↔
      ∃ gate ∈ p.authorizedGates, v = ofString gate ∧ ctx = p.contextOf gate := by
  unfold createWorkerPlanContext
  rw [validateAuthoritativePlan_toValue, ok_bind]
  simp only [bind_eq_ok, requireTrimmedString_eq_ok, check_eq_ok, pure_eq_ok]
  -- an authorized gate is not blocked, so the filter keeps everything
  have hfilter (gate : TrimmedString) (h : gate ∈ p.authorizedGates) :
      (p.blockedGates.filter fun existing => existing ≠ gate) = p.blockedGates := by
    rw [List.filter_eq_self]
    intro blocked hblocked
    refine decide_eq_true fun heq => ?_
    exact p.consistent.authorizedNotBlocked h (heq ▸ hblocked)
  constructor
  · intro h
    obtain ⟨gate, hv, _, ⟨_, hgate⟩, h⟩ := h
    exact ⟨gate, hgate, hv, by rw [← h, hfilter gate hgate]; rfl⟩
  · intro h
    obtain ⟨gate, hgate, hv, h⟩ := h
    refine ⟨gate, hv, (), ⟨p.consistent.known gate (.inl hgate), hgate⟩, ?_⟩
    rw [h, hfilter gate hgate]
    rfl

/-! ## Whether a context still holds -/

/-- A revision stands for one plan only. -/
theorem eq_of_planRevision {calls : List AmendmentCall} (h : Run Calls p calls q)
    (hrevision : p.planRevision = q.planRevision) : q = p := by
  induction h with
  | nil => rfl
  | @cons s t u c calls hstep hrun ih =>
    have hle := revision_le_of_run hrun
    have hrevision' := congrArg Subtype.val hrevision
    obtain rfl | ⟨a, b, r, hr, -⟩ := amend_eq_or hstep
    · exact ih hrevision
    · have hnext := hr.planRevision
      omega

/-- What a worker is shown stands before nothing that blocks it. -/
structure WorkerPlanContext.Sound (ctx : WorkerPlanContext) (p : AuthoritativePlan) : Prop where
  current : ctx.currentAuthorizedGate ∈ p.authorizedGates
  blocked : ∀ gate, gate ∈ ctx.blockedDownstream ↔ gate ∈ p.blockedGates
  notBlocked : ctx.currentAuthorizedGate ∉ ctx.blockedDownstream
  downstream : ∀ required, Requires p.dependencies ctx.currentAuthorizedGate required →
    required ∈ p.completedGates ∧ required ∉ ctx.blockedDownstream

theorem AuthoritativePlan.contextOf_sound {gate : TrimmedString} (h : gate ∈ p.authorizedGates) :
    (p.contextOf gate).Sound p where
  current := h
  blocked := fun _ => Iff.rfl
  notBlocked := fun hblocked => p.consistent.authorizedNotBlocked h hblocked
  downstream := fun required hrequired => by
    have hcompleted := p.consistent.met gate h required hrequired
    exact ⟨hcompleted, fun hblocked => p.consistent.completedNotBlocked hcompleted hblocked⟩

/-- **The revision of a context tells whether it still holds.** As long as it is the current one,
    the worker would be shown the same again; once it is not, no proposal that the worker makes at
    that revision is heard. -/
theorem workerContext_current {calls : List AmendmentCall} (h : Run Calls p calls q) {v : JsValue}
    {ctx : WorkerPlanContext} (hctx : createWorkerPlanContext p.toValue v = .ok ctx) :
    ctx.Sound p ∧
      (ctx.planRevision = q.planRevision → createWorkerPlanContext q.toValue v = .ok ctx) ∧
      (ctx.planRevision ≠ q.planRevision → ∀ c : AmendmentCall, c.Observes ctx.planRevision →
        ∃ e, c.result q = .error e) := by
  obtain ⟨gate, hgate, hv, rfl⟩ := createWorkerPlanContext_eq_ok.mp hctx
  refine ⟨p.contextOf_sound hgate, fun hsame => ?_, fun hother c hc => hc.throws hother⟩
  rw [eq_of_planRevision h hsame]
  exact hctx

/-- The call that has made `planTwo` of `planOne` is not heard twice. -/
theorem workerContext_current_planOne :
    (planOne.contextOf (checked "gate-a")).Sound planOne ∧
      ∃ e, callOne.result planTwo = .error e := by
  have hrun : Run Calls planOne [callOne] planTwo := by
    refine .single ?_
    unfold Calls AuthoritativePlan.amend
    rw [applies_callOne.1]
  have hctx : createWorkerPlanContext planOne.toValue (ofString (checked "gate-a")) =
      .ok (planOne.contextOf (checked "gate-a")) :=
    createWorkerPlanContext_eq_ok.mpr ⟨_, by decide, rfl, rfl⟩
  obtain ⟨hsound, -, hstale⟩ := workerContext_current hrun hctx
  exact ⟨hsound, hstale (by decide) callOne ⟨_, rfl, rfl⟩⟩

end Wns.Plan
