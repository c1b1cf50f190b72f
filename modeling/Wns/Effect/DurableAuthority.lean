import Wns.Common.Checks
import Wns.Ecma.Date

/-!
# Durable authority

Model of `supervisor-policy/durable-authority.mjs`: whether a recorded grant covers a
request at the time at which the request is evaluated.

* `validateAuthorityRecord_eq_ok`, `validateEvaluationRequest_eq_ok`: records and requests
  are accepted in their exact shape, in any key order.
* `evaluateDurableAuthority_eq`: on valid input the answer is that of `decideAuthority`.
* `decideAuthority_authorized_iff`: when a request is authorized.
-/

namespace Wns.Effect

open Ecma

/-! ## Enumerations -/

/-- `AUTHORITY_STATUSES`. -/
inductive AuthorityStatus
  | active | revoked | expired
  deriving DecidableEq

instance : JsEnum AuthorityStatus where
  values := [.active, .revoked, .expired]
  text
    | .active => "active"
    | .revoked => "revoked"
    | .expired => "expired"
  complete := by rintro ⟨⟩ <;> simp
  injective := by rintro ⟨⟩ ⟨⟩ <;> simp

inductive GrantedBy
  | human | policy
  deriving DecidableEq

instance : JsEnum GrantedBy where
  values := [.human, .policy]
  text
    | .human => "human"
    | .policy => "policy"
  complete := by rintro ⟨⟩ <;> simp
  injective := by rintro ⟨⟩ ⟨⟩ <;> simp

/-- `AUTHORITY_DECISIONS`. -/
inductive AuthorityOutcome
  | authorized | humanRequired
  deriving DecidableEq

/-- `AUTHORITY_REASON_CODES`. -/
inductive AuthorityReason
  | absent | taskMismatch | attemptMismatch | epochMismatch | revoked | expired | scopeExceeded
  | valid
  deriving DecidableEq

/-! ## Data -/

structure AuthorityProvenance where
  receiptRef : TrimmedString
  grantedBy : GrantedBy
  deriving DecidableEq

structure AuthorityRecord where
  authorityId : TrimmedString
  taskId : TrimmedString
  durableAttemptId : TrimmedString
  authorityEpoch : PosSafe
  scope : StringArray false
  status : AuthorityStatus
  grantedAt : Timestamp
  expiresAt : Option Timestamp
  revokedAt : Option Timestamp
  provenance : AuthorityProvenance
  deriving DecidableEq

structure EvaluationRequest where
  taskId : TrimmedString
  durableAttemptId : TrimmedString
  requiredAuthorityEpoch : PosSafe
  requestedScope : StringArray false
  evaluatedAt : Timestamp
  deriving DecidableEq

/-- `decision(outcome, reasonCode)`. -/
structure AuthorityDecision where
  decision : AuthorityOutcome
  reasonCode : AuthorityReason
  deriving DecidableEq

/-- A timestamp as a value. -/
def ofTimestamp (t : Timestamp) : JsValue := .str t.text

/-- A timestamp or `null` as a value. -/
def ofTimestampOrNull (t : Option Timestamp) : JsValue := .nullable (t.map Timestamp.text)

def AuthorityProvenance.toValue (p : AuthorityProvenance) : JsValue :=
  .obj [("receipt_ref", ofString p.receiptRef), ("granted_by", ofEnum p.grantedBy)]

def AuthorityRecord.toValue (r : AuthorityRecord) : JsValue :=
  .obj [("authority_version", .nat 1), ("authority_id", ofString r.authorityId),
    ("task_id", ofString r.taskId), ("durable_attempt_id", ofString r.durableAttemptId),
    ("authority_epoch", .nat r.authorityEpoch.1), ("scope", ofStrings r.scope.1),
    ("status", ofEnum r.status), ("granted_at", ofTimestamp r.grantedAt),
    ("expires_at", ofTimestampOrNull r.expiresAt), ("revoked_at", ofTimestampOrNull r.revokedAt),
    ("provenance", r.provenance.toValue)]

def EvaluationRequest.toValue (r : EvaluationRequest) : JsValue :=
  .obj [("task_id", ofString r.taskId), ("durable_attempt_id", ofString r.durableAttemptId),
    ("required_authority_epoch", .nat r.requiredAuthorityEpoch.1),
    ("requested_scope", ofStrings r.requestedScope.1), ("evaluated_at", ofTimestamp r.evaluatedAt)]

/-! ## Validation -/

/-- `requireCanonicalIso(value, name)`. -/
def requireCanonicalIso (value : JsValue) (name : JsString) : Throws Timestamp :=
  timestamp (name ++ " must be a canonical ISO-8601 timestamp string") value

/-- `requireCanonicalIsoOrNull(value, name)`. -/
def requireCanonicalIsoOrNull (value : JsValue) (name : JsString) : Throws (Option Timestamp) :=
  orNull (fun v => requireCanonicalIso v name) value

/-- The part of `normalizeRecord` about `record.provenance`. -/
def normalizeProvenance (provenance : JsValue) : Throws AuthorityProvenance := do
  let ps ← assertExactKeys provenance ["receipt_ref", "granted_by"] "record.provenance"
  let receiptRef ← requireTrimmedString (prop ps "receipt_ref") "record.provenance.receipt_ref"
  let grantedBy ← enumMember "record.provenance.granted_by must be 'human' or 'policy'"
    (prop ps "granted_by")
  pure ⟨receiptRef, grantedBy⟩

/-- `normalizeRecord(record)`; `none` stands for `null`. -/
def normalizeRecord (record : JsValue) : Throws (Option AuthorityRecord) :=
  if record = .null ∨ record = .undefined then pure none
  else do
    let ps ← plainObject "record must be a plain object or null" record
    requireKeys ps ["authority_version", "authority_id", "task_id", "durable_attempt_id",
      "authority_epoch", "scope", "status", "granted_at", "expires_at", "revoked_at",
      "provenance"] "record"
    check (prop ps "authority_version" = .nat 1) "record.authority_version must be 1"
    let authorityId ← requireTrimmedString (prop ps "authority_id") "record.authority_id"
    let taskId ← requireTrimmedString (prop ps "task_id") "record.task_id"
    let durableAttemptId ← requireTrimmedString (prop ps "durable_attempt_id")
      "record.durable_attempt_id"
    let authorityEpoch ← requirePositiveSafeInteger (prop ps "authority_epoch")
      "record.authority_epoch"
    let scope ← requireUniqueScope (prop ps "scope") "record.scope"
    let status ← requireEnum (prop ps "status") "record.status"
    let grantedAt ← requireCanonicalIso (prop ps "granted_at") "record.granted_at"
    let expiresAt ← requireCanonicalIsoOrNull (prop ps "expires_at") "record.expires_at"
    let revokedAt ← requireCanonicalIsoOrNull (prop ps "revoked_at") "record.revoked_at"
    let provenance ← normalizeProvenance (prop ps "provenance")
    pure (some ⟨authorityId, taskId, durableAttemptId, authorityEpoch, scope, status, grantedAt,
      expiresAt, revokedAt, provenance⟩)

/-- `normalizeRequest(request)`. -/
def normalizeRequest (request : JsValue) : Throws EvaluationRequest := do
  let ps ← assertExactKeys request ["task_id", "durable_attempt_id", "required_authority_epoch",
    "requested_scope", "evaluated_at"] "request"
  let taskId ← requireTrimmedString (prop ps "task_id") "request.task_id"
  let durableAttemptId ← requireTrimmedString (prop ps "durable_attempt_id")
    "request.durable_attempt_id"
  let requiredAuthorityEpoch ← requirePositiveSafeInteger (prop ps "required_authority_epoch")
    "request.required_authority_epoch"
  let requestedScope ← requireUniqueScope (prop ps "requested_scope") "request.requested_scope"
  let evaluatedAt ← requireCanonicalIso (prop ps "evaluated_at") "request.evaluated_at"
  pure ⟨taskId, durableAttemptId, requiredAuthorityEpoch, requestedScope, evaluatedAt⟩

/-- `validateAuthorityRecord(record)`. -/
def validateAuthorityRecord (record : JsValue) : Throws (Option AuthorityRecord) :=
  normalizeRecord record

/-- `validateEvaluationRequest(request)`. -/
def validateEvaluationRequest (request : JsValue) : Throws EvaluationRequest :=
  normalizeRequest request

/-! ## Evaluation -/

/-- `time !== null && Date.parse(time) <= evaluatedAt`. -/
def Reached (time : Option Timestamp) (evaluatedAt : Timestamp) : Prop :=
  ∃ t ∈ time, t.time ≤ evaluatedAt.time

instance (time : Option Timestamp) (evaluatedAt : Timestamp) :
    Decidable (Reached time evaluatedAt) :=
  match time with
  | none => .isFalse fun ⟨_, ht, _⟩ => by cases ht
  | some t => decidable_of_iff (t.time ≤ evaluatedAt.time)
      ⟨fun h => ⟨t, rfl, h⟩, fun ⟨_, ht, h⟩ => Option.some.inj ht ▸ h⟩

/-- The decision on a record and a request. -/
def decideAuthority (record : Option AuthorityRecord) (request : EvaluationRequest) :
    AuthorityDecision :=
  match record with
  | none => ⟨.humanRequired, .absent⟩
  | some record =>
    if record.taskId ≠ request.taskId then ⟨.humanRequired, .taskMismatch⟩
    else if record.durableAttemptId ≠ request.durableAttemptId then
      ⟨.humanRequired, .attemptMismatch⟩
    else if record.authorityEpoch ≠ request.requiredAuthorityEpoch then
      ⟨.humanRequired, .epochMismatch⟩
    else if record.status = .revoked ∨ Reached record.revokedAt request.evaluatedAt then
      ⟨.humanRequired, .revoked⟩
    else if record.status = .expired ∨ Reached record.expiresAt request.evaluatedAt then
      ⟨.humanRequired, .expired⟩
    else if ¬ ∀ token ∈ request.requestedScope.1, token ∈ record.scope.1 then
      ⟨.humanRequired, .scopeExceeded⟩
    else ⟨.authorized, .valid⟩

/-- `evaluateDurableAuthority(record, request)`. -/
def evaluateDurableAuthority (record request : JsValue) : Throws AuthorityDecision := do
  let normalizedRecord ← normalizeRecord record
  let normalizedRequest ← normalizeRequest request
  pure (decideAuthority normalizedRecord normalizedRequest)

/-! ## What is accepted -/

@[simp] theorem requireCanonicalIso_eq_ok {v : JsValue} {name : JsString} {t : Timestamp} :
    requireCanonicalIso v name = .ok t ↔ v = ofTimestamp t := timestamp_eq_ok

@[simp] theorem requireCanonicalIsoOrNull_eq_ok {v : JsValue} {name : JsString}
    {t : Option Timestamp} :
    requireCanonicalIsoOrNull v name = .ok t ↔ v = ofTimestampOrNull t := by
  cases v <;> cases t <;>
    simp [requireCanonicalIsoOrNull, orNull, ofTimestampOrNull, ofTimestamp, JsValue.nullable]

@[simp] theorem jsonEq_ofTimestamp {v : JsValue} {t : Timestamp} :
    JsonEq v (ofTimestamp t) ↔ v = ofTimestamp t := jsonEq_str

@[simp] theorem jsonEq_ofTimestampOrNull {v : JsValue} {t : Option Timestamp} :
    JsonEq v (ofTimestampOrNull t) ↔ v = ofTimestampOrNull t := jsonEq_nullable

@[simp] theorem normalizeProvenance_eq_ok {v : JsValue} {p : AuthorityProvenance} :
    normalizeProvenance v = .ok p ↔ JsonEq v p.toValue := by
  simp only [normalizeProvenance, bind_eq_ok, assertExactKeys_eq_ok, requireTrimmedString_eq_ok,
    enumMember_eq_ok, pure_eq_ok]
  simp only [AuthorityProvenance.toValue, jsonEq_obj_iff, names_cons, names_nil]
  constructor
  · rintro ⟨ps, ⟨hv, hk⟩, receiptRef, h1, grantedBy, h2, hp⟩
    subst hp
    exact ⟨ps, hv, hk, by simp [h1, h2]⟩
  · rintro ⟨ps, hv, hk, h⟩
    simp at h
    exact ⟨ps, ⟨hv, hk⟩, _, h.1, _, h.2, rfl⟩

theorem validateAuthorityRecord_eq_ok {v : JsValue} {r : AuthorityRecord} :
    validateAuthorityRecord v = .ok (some r) ↔ JsonEq v r.toValue := by
  unfold validateAuthorityRecord normalizeRecord
  split_ifs with hv
  · rw [pure_eq_ok, AuthorityRecord.toValue, jsonEq_obj_iff]
    constructor
    · intro h
      cases h
    · rintro ⟨ps, hps, _⟩
      rcases hv with rfl | rfl <;> cases hps
  · simp only [bind_eq_ok, plainObject_eq_ok, requireKeys_eq_ok, check_eq_ok,
      requireTrimmedString_eq_ok, requirePositiveSafeInteger_eq_ok, requireUniqueScope_eq_ok,
      requireEnum_eq_ok, requireCanonicalIso_eq_ok, requireCanonicalIsoOrNull_eq_ok,
      normalizeProvenance_eq_ok, pure_eq_ok, Option.some.injEq]
    simp only [AuthorityRecord.toValue, jsonEq_obj_iff, names_cons, names_nil]
    constructor
    · rintro ⟨ps, hps, -, hk, -, h0, _, h1, _, h2, _, h3, _, h4, _, h5, _, h6, _, h7, _, h8, _, h9,
        _, h10, hr⟩
      subst hr
      exact ⟨ps, hps, hk, by simp [h0, h1, h2, h3, h4, h5, h6, h7, h8, h9, h10]⟩
    · rintro ⟨ps, hps, hk, h⟩
      simp at h
      obtain ⟨h0, h1, h2, h3, h4, h5, h6, h7, h8, h9, h10⟩ := h
      exact ⟨ps, hps, (), hk, (), h0, _, h1, _, h2, _, h3, _, h4, _, h5, _, h6, _, h7, _, h8, _, h9,
        _, h10, rfl⟩

theorem validateEvaluationRequest_eq_ok {v : JsValue} {r : EvaluationRequest} :
    validateEvaluationRequest v = .ok r ↔ JsonEq v r.toValue := by
  simp only [validateEvaluationRequest, normalizeRequest, bind_eq_ok, assertExactKeys_eq_ok,
    requireTrimmedString_eq_ok, requirePositiveSafeInteger_eq_ok, requireUniqueScope_eq_ok,
    requireCanonicalIso_eq_ok, pure_eq_ok]
  simp only [EvaluationRequest.toValue, jsonEq_obj_iff, names_cons, names_nil]
  constructor
  · rintro ⟨ps, ⟨hv, hk⟩, _, h1, _, h2, _, h3, _, h4, _, h5, hr⟩
    subst hr
    exact ⟨ps, hv, hk, by simp [h1, h2, h3, h4, h5]⟩
  · rintro ⟨ps, hv, hk, h⟩
    simp at h
    obtain ⟨h1, h2, h3, h4, h5⟩ := h
    exact ⟨ps, ⟨hv, hk⟩, _, h1, _, h2, _, h3, _, h4, _, h5, rfl⟩

/-! ## What is decided -/

/-- Valid records and requests are decided on, whatever their key order. -/
theorem evaluateDurableAuthority_eq {v w : JsValue} {record : Option AuthorityRecord}
    {request : EvaluationRequest} (hrecord : validateAuthorityRecord v = .ok record)
    (hrequest : validateEvaluationRequest w = .ok request) :
    evaluateDurableAuthority v w = .ok (decideAuthority record request) := by
  unfold validateAuthorityRecord at hrecord
  unfold validateEvaluationRequest at hrequest
  rw [evaluateDurableAuthority, hrecord, ok_bind, hrequest, ok_bind]
  rfl

/-- The grant is for this work, in force, and covers every token that is asked for. -/
structure Covers (record : AuthorityRecord) (request : EvaluationRequest) : Prop where
  task : record.taskId = request.taskId
  attempt : record.durableAttemptId = request.durableAttemptId
  epoch : record.authorityEpoch = request.requiredAuthorityEpoch
  active : record.status = .active
  unrevoked : ¬ Reached record.revokedAt request.evaluatedAt
  unexpired : ¬ Reached record.expiresAt request.evaluatedAt
  scope : ∀ token ∈ request.requestedScope.1, token ∈ record.scope.1

theorem decideAuthority_authorized_iff {record : AuthorityRecord} {request : EvaluationRequest} :
    (decideAuthority (some record) request).decision = .authorized ↔ Covers record request := by
  constructor
  · intro h
    simp only [decideAuthority] at h
    split_ifs at h with h1 h2 h3 h4 h5 h6
    rw [not_or] at h4 h5
    have hactive : record.status = .active := by
      cases hs : record.status with
      | active => rfl
      | revoked => exact (h4.1 hs).elim
      | expired => exact (h5.1 hs).elim
    exact ⟨not_not.mp h1, not_not.mp h2, not_not.mp h3, hactive, h4.2, h5.2, h6⟩
  · intro ⟨h1, h2, h3, h4, h5, h6, h7⟩
    have hrevoked :
        ¬ (record.status = .revoked ∨ Reached record.revokedAt request.evaluatedAt) := by
      rw [h4]
      exact fun h => h.elim nofun h5
    have hexpired :
        ¬ (record.status = .expired ∨ Reached record.expiresAt request.evaluatedAt) := by
      rw [h4]
      exact fun h => h.elim nofun h6
    rw [decideAuthority, if_neg (not_not.mpr h1), if_neg (not_not.mpr h2), if_neg (not_not.mpr h3),
      if_neg hrevoked, if_neg hexpired, if_neg (not_not.mpr h7)]

end Wns.Effect
