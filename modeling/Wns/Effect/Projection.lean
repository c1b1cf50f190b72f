import Wns.Effect.DurableAuthority

/-!
# Projections

Model of `createAuthorityProjection` (`supervisor-policy/durable-authority.mjs`, lines 187–197).
A projection records a decision together with what was decided on.

* `projection_replays`: a projection is what the evaluator decides, and projecting what it records
  gives it again.
-/

namespace Wns.Effect

open Ecma

/-! ## Projections -/

structure AuthorityProjection where
  projectionVersion : ℕ
  record : Option AuthorityRecord
  request : EvaluationRequest
  evaluation : AuthorityDecision

/-- A normalized record as a value. -/
def ofRecordOrNull : Option AuthorityRecord → JsValue := orNullValue AuthorityRecord.toValue

/-- `createAuthorityProjection(record, request)`. The evaluator validates the normalized record
    and request once more. -/
def createAuthorityProjection (record request : JsValue) : Throws AuthorityProjection := do
  let normalizedRecord ← validateAuthorityRecord record
  let normalizedRequest ← validateEvaluationRequest request
  let evaluation ← evaluateDurableAuthority (ofRecordOrNull normalizedRecord)
    normalizedRequest.toValue
  pure
    { projectionVersion := 1
      record := normalizedRecord
      request := normalizedRequest
      evaluation }

theorem validateAuthorityRecord_ofRecordOrNull (record : Option AuthorityRecord) :
    validateAuthorityRecord (ofRecordOrNull record) = .ok record := by
  cases record with
  | none => rfl
  | some record => exact validateAuthorityRecord_eq_ok.mpr (.refl _)

theorem validateEvaluationRequest_toValue (request : EvaluationRequest) :
    validateEvaluationRequest request.toValue = .ok request :=
  validateEvaluationRequest_eq_ok.mpr (.refl _)

/-- The projection of a record and a request. -/
def project (record : Option AuthorityRecord) (request : EvaluationRequest) :
    AuthorityProjection where
  projectionVersion := 1
  record := record
  request := request
  evaluation := decideAuthority record request

/-- Nothing can go wrong once the record and the request are valid. -/
theorem createAuthorityProjection_eq (v w : JsValue) : createAuthorityProjection v w = (do
    let record ← validateAuthorityRecord v
    let request ← validateEvaluationRequest w
    pure (project record request)) := by
  unfold createAuthorityProjection
  refine bind_congr fun record => bind_congr fun request => ?_
  rw [evaluateDurableAuthority_eq (validateAuthorityRecord_ofRecordOrNull record)
    (validateEvaluationRequest_toValue request)]
  rfl

/-- **A projection can be checked by what it records.** It says what the evaluator decides, which
    throws wherever it does; projecting its own record and request gives it again; and it
    authorizes only what its own record covers. -/
theorem projection_replays (v w : JsValue) :
    (∀ e, createAuthorityProjection v w = .error e ↔ evaluateDurableAuthority v w = .error e) ∧
    ∀ p, createAuthorityProjection v w = .ok p →
      evaluateDurableAuthority v w = .ok p.evaluation ∧
      createAuthorityProjection (ofRecordOrNull p.record) p.request.toValue = .ok p ∧
      (p.evaluation.decision = .authorized ↔ ∃ r, p.record = some r ∧ Covers r p.request) := by
  have hevaluate : evaluateDurableAuthority v w = (do
      let record ← validateAuthorityRecord v
      let request ← validateEvaluationRequest w
      pure (decideAuthority record request)) := rfl
  rw [createAuthorityProjection_eq, hevaluate]
  cases hrecord : validateAuthorityRecord v with
  | error e => simp [error_bind]
  | ok record =>
    rw [ok_bind, ok_bind]
    cases hrequest : validateEvaluationRequest w with
    | error e => simp
    | ok request =>
      rw [ok_bind, ok_bind]
      refine ⟨fun e => ⟨nofun, nofun⟩, fun p hp => ?_⟩
      obtain rfl := pure_eq_ok.mp hp
      refine ⟨rfl, ?_, ?_⟩
      · rw [createAuthorityProjection_eq]
        unfold project
        rw [validateAuthorityRecord_ofRecordOrNull, ok_bind, validateEvaluationRequest_toValue,
          ok_bind]
        rfl
      · unfold project
        cases record with
        | none => simp [decideAuthority]
        | some record => simp [decideAuthority_authorized_iff]

end Wns.Effect
