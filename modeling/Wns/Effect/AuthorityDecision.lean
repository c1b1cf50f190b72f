import Wns.Effect.DurableAuthority

/-!
# The decision on durable authority

The contract lists the reasons to require a human in an order, and the first one that
applies is the answer. Every reason but the first four depends on the time or on the
scope: with time a reason can come to apply but never ceases to, and a narrower request
or a wider grant only removes reasons.

* `decideAuthority_reason`: the reason code is the first of the contract's that applies.
* `decideAuthority_later`, `decideAuthority_wider`: the decision over time and over scope.
* `durableAuthority_exact`: the three together, for `evaluateDurableAuthority`.
-/

namespace Wns.Effect

open Ecma

/-! ## The contract -/

/-- The reasons of `human_required`, in the order in which the contract checks them. -/
def humanReasons : List AuthorityReason :=
  [.absent, .taskMismatch, .attemptMismatch, .epochMismatch, .revoked, .expired, .scopeExceeded]

/-- When a reason applies. -/
def Applies (record : Option AuthorityRecord) (request : EvaluationRequest) :
    AuthorityReason → Prop
  | .absent => record = none
  | .taskMismatch => ∃ r ∈ record, r.taskId ≠ request.taskId
  | .attemptMismatch => ∃ r ∈ record, r.durableAttemptId ≠ request.durableAttemptId
  | .epochMismatch => ∃ r ∈ record, r.authorityEpoch ≠ request.requiredAuthorityEpoch
  | .revoked => ∃ r ∈ record, r.status = .revoked ∨
      ∃ t ∈ r.revokedAt, t.time ≤ request.evaluatedAt.time
  | .expired => ∃ r ∈ record, r.status = .expired ∨
      ∃ t ∈ r.expiresAt, t.time ≤ request.evaluatedAt.time
  | .scopeExceeded => ∃ r ∈ record, ∃ token ∈ request.requestedScope.1, token ∉ r.scope.1
  | .valid => False

/-- `reason` applies, and none before it does. -/
def FirstApplicable (record : Option AuthorityRecord) (request : EvaluationRequest)
    (reason : AuthorityReason) : Prop :=
  ∃ before after, humanReasons = before ++ reason :: after ∧ Applies record request reason ∧
    ∀ r ∈ before, ¬ Applies record request r

/-- The request is for the work of the record, which is in force and covers its scope. -/
structure Authorizes (record : AuthorityRecord) (request : EvaluationRequest) : Prop where
  task : record.taskId = request.taskId
  attempt : record.durableAttemptId = request.durableAttemptId
  epoch : record.authorityEpoch = request.requiredAuthorityEpoch
  active : record.status = .active
  unrevoked : ∀ t ∈ record.revokedAt, request.evaluatedAt.time < t.time
  unexpired : ∀ t ∈ record.expiresAt, request.evaluatedAt.time < t.time
  scope : request.requestedScope.1 ⊆ record.scope.1

theorem not_reached_iff {time : Option Timestamp} {evaluatedAt : Timestamp} :
    ¬ Reached time evaluatedAt ↔ ∀ t ∈ time, evaluatedAt.time < t.time := by
  simp only [Reached, not_exists, not_and, not_le]

theorem covers_iff {record : AuthorityRecord} {request : EvaluationRequest} :
    Covers record request ↔ Authorizes record request := by
  constructor
  · intro h
    exact ⟨h.task, h.attempt, h.epoch, h.active, not_reached_iff.mp h.unrevoked,
      not_reached_iff.mp h.unexpired, h.scope⟩
  · intro h
    exact ⟨h.task, h.attempt, h.epoch, h.active, not_reached_iff.mpr h.unrevoked,
      not_reached_iff.mpr h.unexpired, h.scope⟩

/-! ## The decision -/

section

variable {record : Option AuthorityRecord} {request : EvaluationRequest}

theorem decideAuthority_authorized :
    (decideAuthority record request).decision = .authorized ↔
      ∃ r ∈ record, Authorizes r request := by
  cases record with
  | none =>
    constructor
    · intro h
      cases h
    · intro ⟨r, hr, _⟩
      cases hr
  | some r =>
    rw [decideAuthority_authorized_iff, covers_iff]
    constructor
    · intro h
      exact ⟨r, rfl, h⟩
    · intro ⟨r', hr', h⟩
      rwa [Option.some.inj hr']

theorem humanRequired_iff {d : AuthorityDecision} :
    d.decision = .humanRequired ↔ d.decision ≠ .authorized := by
  cases d.decision <;> simp

/-- A request that is not authorized gets the first reason that applies. -/
theorem decideAuthority_reason (h : (decideAuthority record request).decision = .humanRequired) :
    FirstApplicable record request (decideAuthority record request).reasonCode := by
  cases record with
  | none => exact ⟨[], _, rfl, rfl, List.forall_mem_nil _⟩
  | some r =>
    have hsome : ∀ {p : AuthorityRecord → Prop}, (∃ r' ∈ some r, p r') ↔ p r := by simp
    have habsent : ¬ Applies (some r) request .absent := Option.some_ne_none r
    -- a branch is reached when the conditions of the earlier ones fail
    simp only [decideAuthority] at h ⊢
    split_ifs at h ⊢ with h1 h2 h3 h4 h5 h6
    · refine ⟨[.absent], _, rfl, hsome.mpr h1, ?_⟩
      simp only [List.forall_mem_singleton]
      exact habsent
    · refine ⟨[.absent, .taskMismatch], _, rfl, hsome.mpr h2, ?_⟩
      simp only [List.forall_mem_cons]
      exact ⟨habsent, fun h => h1 (hsome.mp h), List.forall_mem_nil _⟩
    · refine ⟨[.absent, .taskMismatch, .attemptMismatch], _, rfl, hsome.mpr h3, ?_⟩
      simp only [List.forall_mem_cons]
      exact ⟨habsent, fun h => h1 (hsome.mp h), fun h => h2 (hsome.mp h), List.forall_mem_nil _⟩
    · refine ⟨[.absent, .taskMismatch, .attemptMismatch, .epochMismatch], _, rfl, hsome.mpr h4, ?_⟩
      simp only [List.forall_mem_cons]
      exact ⟨habsent, fun h => h1 (hsome.mp h), fun h => h2 (hsome.mp h),
        fun h => h3 (hsome.mp h), List.forall_mem_nil _⟩
    · refine ⟨[.absent, .taskMismatch, .attemptMismatch, .epochMismatch, .revoked], _, rfl,
        hsome.mpr h5, ?_⟩
      simp only [List.forall_mem_cons]
      exact ⟨habsent, fun h => h1 (hsome.mp h), fun h => h2 (hsome.mp h),
        fun h => h3 (hsome.mp h), fun h => h4 (hsome.mp h), List.forall_mem_nil _⟩
    · have hexceeded : ∃ token ∈ request.requestedScope.1, token ∉ r.scope.1 := by
        simpa only [not_forall, exists_prop] using h6
      refine ⟨[.absent, .taskMismatch, .attemptMismatch, .epochMismatch, .revoked, .expired], _,
        rfl, hsome.mpr hexceeded, ?_⟩
      simp only [List.forall_mem_cons]
      exact ⟨habsent, fun h => h1 (hsome.mp h), fun h => h2 (hsome.mp h),
        fun h => h3 (hsome.mp h), fun h => h4 (hsome.mp h), fun h => h5 (hsome.mp h),
        List.forall_mem_nil _⟩

/-- What is authorized has the reason code that says so. -/
theorem decideAuthority_valid (h : (decideAuthority record request).decision = .authorized) :
    decideAuthority record request = ⟨.authorized, .valid⟩ := by
  cases record with
  | none => cases h
  | some r =>
    simp only [decideAuthority] at h ⊢
    split_ifs at h ⊢
    rfl

/-- Authority that holds at a time held at every earlier one. -/
theorem Authorizes.earlier {r : AuthorityRecord} {later : Timestamp}
    (hle : request.evaluatedAt.time ≤ later.time)
    (h : Authorizes r { request with evaluatedAt := later }) : Authorizes r request :=
  ⟨h.task, h.attempt, h.epoch, h.active, fun t ht => hle.trans_lt (h.unrevoked t ht),
    fun t ht => hle.trans_lt (h.unexpired t ht), h.scope⟩

/-- Once a human is required, a human is required from then on. -/
theorem decideAuthority_later {later : Timestamp} (hle : request.evaluatedAt.time ≤ later.time)
    (h : (decideAuthority record request).decision = .humanRequired) :
    (decideAuthority record { request with evaluatedAt := later }).decision = .humanRequired := by
  rw [humanRequired_iff, ne_eq, decideAuthority_authorized] at h ⊢
  intro ⟨r, hr, hauthorizes⟩
  exact h ⟨r, hr, hauthorizes.earlier hle⟩

/-- A narrower request of a wider grant stays authorized. -/
theorem decideAuthority_wider {r : AuthorityRecord} {wider fewer : StringArray false}
    (hwider : r.scope.1 ⊆ wider.1) (hfewer : fewer.1 ⊆ request.requestedScope.1)
    (h : (decideAuthority (some r) request).decision = .authorized) :
    (decideAuthority (some { r with scope := wider })
      { request with requestedScope := fewer }).decision = .authorized := by
  rw [decideAuthority_authorized_iff, covers_iff] at h ⊢
  exact ⟨h.task, h.attempt, h.epoch, h.active, h.unrevoked, h.unexpired,
    fun _ ht => hwider (h.scope (hfewer ht))⟩

end

/-- **Durable authority is exact.** It is decided as the contract says, lapses for good, and
    does not depend on what is granted or asked for beyond the scope in question. -/
theorem durableAuthority_exact {v w : JsValue} {record : Option AuthorityRecord}
    {request : EvaluationRequest} (hrecord : validateAuthorityRecord v = .ok record)
    (hrequest : validateEvaluationRequest w = .ok request) :
    ∃ d, evaluateDurableAuthority v w = .ok d ∧
      (d = ⟨.authorized, .valid⟩ ∧ (∃ r ∈ record, Authorizes r request) ∨
        d.decision = .humanRequired ∧ (¬ ∃ r ∈ record, Authorizes r request) ∧
          FirstApplicable record request d.reasonCode) ∧
      (∀ w' later, validateEvaluationRequest w' = .ok { request with evaluatedAt := later } →
        request.evaluatedAt.time ≤ later.time → d.decision = .humanRequired →
        ∃ d', evaluateDurableAuthority v w' = .ok d' ∧ d'.decision = .humanRequired) ∧
      ∀ v' w' r wider fewer, r ∈ record →
        validateAuthorityRecord v' = .ok (some { r with scope := wider }) →
        validateEvaluationRequest w' = .ok { request with requestedScope := fewer } →
        r.scope.1 ⊆ wider.1 → fewer.1 ⊆ request.requestedScope.1 → d.decision = .authorized →
        ∃ d', evaluateDurableAuthority v' w' = .ok d' ∧ d'.decision = .authorized := by
  refine ⟨_, evaluateDurableAuthority_eq hrecord hrequest, ?_, ?_, ?_⟩
  · cases hd : (decideAuthority record request).decision with
    | authorized =>
      have hauthorizes := decideAuthority_authorized.mp hd
      refine .inl ⟨?_, hauthorizes⟩
      obtain ⟨r, hr, -⟩ := hauthorizes
      cases hr
      exact decideAuthority_valid hd
    | humanRequired =>
      have hnot := humanRequired_iff.mp hd
      rw [ne_eq, decideAuthority_authorized] at hnot
      exact .inr ⟨rfl, hnot, decideAuthority_reason hd⟩
  · intro w' later hw' hle hd
    exact ⟨_, evaluateDurableAuthority_eq hrecord hw', decideAuthority_later hle hd⟩
  · intro v' w' r wider fewer hr hv' hw' hwider hfewer hd
    obtain rfl := Option.mem_def.mp hr
    exact ⟨_, evaluateDurableAuthority_eq hv' hw', decideAuthority_wider hwider hfewer hd⟩

/-! ## A grant for a day -/

/-- A grant to resume a task until the next day. -/
def dayGrant : AuthorityRecord where
  authorityId := checked "authority:1"
  taskId := checked "task-1"
  durableAttemptId := checked "attempt-1"
  authorityEpoch := checked 1
  scope := ⟨[checked "resume_task"], by decide, by decide⟩
  status := .active
  grantedAt := ⟨"2026-09-01T00:00:00.000Z", 1788220800000, by decide +kernel⟩
  expiresAt := some ⟨"2026-09-02T00:00:00.000Z", 1788307200000, by decide +kernel⟩
  revokedAt := none
  provenance := ⟨checked "receipt:chat-1", .human⟩

/-- A request to resume the task. -/
def resumeRequest (evaluatedAt : Timestamp) : EvaluationRequest where
  taskId := checked "task-1"
  durableAttemptId := checked "attempt-1"
  requiredAuthorityEpoch := checked 1
  requestedScope := ⟨[checked "resume_task"], by decide, by decide⟩
  evaluatedAt

/-- At noon of the day of the grant, when it expires, and ten days later. -/
def noon : Timestamp := ⟨"2026-09-01T12:00:00.000Z", 1788264000000, by decide +kernel⟩

def nextDay : Timestamp := ⟨"2026-09-02T00:00:00.000Z", 1788307200000, by decide +kernel⟩

def tenDaysLater : Timestamp := ⟨"2026-09-11T00:00:00.000Z", 1789084800000, by decide +kernel⟩

theorem durableAuthority_exact_dayGrant :
    (∃ d, evaluateDurableAuthority dayGrant.toValue (resumeRequest noon).toValue = .ok d ∧
      d = ⟨.authorized, .valid⟩) ∧
    ∃ d, evaluateDurableAuthority dayGrant.toValue (resumeRequest tenDaysLater).toValue = .ok d ∧
      d.decision = .humanRequired := by
  have hrecord := validateAuthorityRecord_eq_ok.mpr (.refl dayGrant.toValue)
  have hvalid := fun t => validateEvaluationRequest_eq_ok.mpr (.refl (resumeRequest t).toValue)
  constructor
  · obtain ⟨d, hd, hdecision, -⟩ := durableAuthority_exact hrecord (hvalid noon)
    have hauthorizes : Authorizes dayGrant (resumeRequest noon) :=
      covers_iff.mp (decideAuthority_authorized_iff.mp (by decide))
    obtain ⟨hd', -⟩ | ⟨-, hnot, -⟩ := hdecision
    · exact ⟨d, hd, hd'⟩
    · exact (hnot ⟨_, rfl, hauthorizes⟩).elim
  · obtain ⟨d, hd, -, hlater, -⟩ := durableAuthority_exact hrecord (hvalid nextDay)
    refine hlater _ tenDaysLater (hvalid tenDaysLater) (by decide) ?_
    rw [evaluateDurableAuthority_eq hrecord (hvalid nextDay), Except.ok.injEq] at hd
    rw [← hd]
    decide

end Wns.Effect
