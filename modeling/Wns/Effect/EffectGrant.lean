import Wns.Effect.AuthorityDecision
import Wns.Effect.AuthorizedHostEffect

/-!
# Grants of host effects

The scope of an authority record names effects by their tokens. A record with one such
token authorizes one effect: `AUTHORIZED-HOST-EFFECT-CONTRACT-v1.md` binds the token to the
complete request, and `evaluateDurableAuthority` looks for tokens and nothing else.

* `effect_grant_exact`: who is authorized with that record asks for the effect whose token
  it is, up to key order, and key order does not change the token.
-/

namespace Wns.Effect

open Ecma

variable {sha256 : List UInt8 → JsString}

section Grant

variable (sha256)

/-- No token of a host effect but that of `effect` is in the scope of the record. -/
def GrantsOnly (authority : AuthorityRecord) (effect : JsValue) : Prop :=
  ∀ token ∈ authority.scope.1, js "host_effect:" <+: token.1 →
    createAuthorizedHostEffectScope sha256 effect = .ok token.1

/-- The token of `effect` is in the requested scope. -/
def AsksFor (evaluation : EvaluationRequest) (effect : JsValue) : Prop :=
  ∃ token ∈ evaluation.requestedScope.1,
    createAuthorizedHostEffectScope sha256 effect = .ok token.1

end Grant

/-- Every token names itself as one of a host effect. -/
theorem prefix_of_createAuthorizedHostEffectScope {v : JsValue} {token : JsString}
    (h : createAuthorizedHostEffectScope sha256 v = .ok token) : js "host_effect:" <+: token := by
  obtain ⟨request, _, h⟩ := bind_eq_ok.mp h
  obtain rfl := pure_eq_ok.mp h
  have hstarts : js "host_effect:sha256:" = js "host_effect:" ++ js "sha256:" := by decide
  rw [hstarts, List.append_assoc]
  exact List.prefix_append _ _

/-- An authorized request asks for no token outside the scope of the record. -/
theorem mem_scope_of_authorized {v w : JsValue} {record : AuthorityRecord}
    {request : EvaluationRequest} {d : AuthorityDecision}
    (hrecord : validateAuthorityRecord v = .ok (some record))
    (hrequest : validateEvaluationRequest w = .ok request)
    (h : evaluateDurableAuthority v w = .ok d) (hd : d.decision = .authorized)
    {token : TrimmedString} (ht : token ∈ request.requestedScope.1) : token ∈ record.scope.1 := by
  rw [evaluateDurableAuthority_eq hrecord hrequest, Except.ok.injEq] at h
  subst h
  exact (decideAuthority_authorized_iff.mp hd).scope token ht

/-- **A grant is for one effect.** Under a record that grants the token of `q₁` and of no other
    effect, a request for the token of `q₂` is authorized only if `q₂` is the same effect; and
    the token depends on nothing but the effect. -/
theorem effect_grant_exact {q₁ : JsValue} {r₁ : AuthorizedHostEffectRequest} (hu₁ : UniqueKeys q₁)
    (h₁ : validateAuthorizedHostEffectRequest q₁ = .ok r₁) :
    (∀ (q₂ : JsValue) (r₂ : AuthorizedHostEffectRequest) (record request : JsValue)
      (authority : AuthorityRecord) (evaluation : EvaluationRequest) (d : AuthorityDecision),
      UniqueKeys q₂ → validateAuthorizedHostEffectRequest q₂ = .ok r₂ →
      Set.InjOn sha256 {canonicalBytes r₁.toValue, canonicalBytes r₂.toValue} →
      validateAuthorityRecord record = .ok (some authority) →
      validateEvaluationRequest request = .ok evaluation →
      GrantsOnly sha256 authority q₁ → AsksFor sha256 evaluation q₂ →
      evaluateDurableAuthority record request = .ok d → d.decision = .authorized →
      JsonEq q₁ q₂) ∧
    createAuthorizedHostEffectScope sha256 r₁.toValue =
      createAuthorizedHostEffectScope sha256 q₁ ∧
    ∀ q, UniqueKeys q → JsonEq q q₁ →
      createAuthorizedHostEffectScope sha256 q = createAuthorizedHostEffectScope sha256 q₁ := by
  obtain ⟨heq, hunique⟩ := (validateAuthorizedHostEffectRequest_eq_ok hu₁).mp h₁
  have hu : UniqueKeys r₁.toValue := (r₁.isJson_toValue hunique).uniqueKeys
  refine ⟨?_, createAuthorizedHostEffectScope_congr hu₁ hu heq.symm h₁, fun q hq h =>
    createAuthorizedHostEffectScope_congr hu₁ hq h h₁⟩
  intro q₂ r₂ record request authority evaluation d hu₂ h₂ hsha hrecord hrequest hgrants hasks hd
    hauthorized
  obtain ⟨token, hmem, htoken⟩ := hasks
  have hscope := mem_scope_of_authorized hrecord hrequest hd hauthorized hmem
  have hgranted := hgrants token hscope (prefix_of_createAuthorizedHostEffectScope htoken)
  exact jsonEq_of_createAuthorizedHostEffectScope hu₁ hu₂ h₁ h₂ hsha (hgranted.trans htoken.symm)

/-! ## The effect `write-proof-1`, granted once -/

/-- The input of the effect. -/
def writeProofInput : Props :=
  [("content", .str "approved"), ("options", .obj [("atomic", .bool true)])]

theorem normalizeJson_writeProofInput :
    normalizeJson (.obj writeProofInput) "input" 0 = .ok (.obj writeProofInput) := by
  decide +kernel

/-- The effect itself. -/
def writeProof : AuthorizedHostEffectRequest where
  effectId := checked "write-proof-1"
  taskId := checked "task-1"
  durableAttemptId := checked "attempt-1"
  requiredAuthorityEpoch := checked 3
  kind := checked (checked "state.write")
  resourceRef := checked (checked "state:proof")
  input :=
    have h := normalizeJson_eq_ok.mp normalizeJson_writeProofInput
    ⟨writeProofInput, h.1, h.2.symm, by decide +kernel⟩

theorem uniqueKeys_writeProofInput : UniqueKeys (.obj writeProofInput) := by
  refine .obj (by decide) fun p hp => ?_
  simp only [writeProofInput, List.mem_cons, List.not_mem_nil, or_false] at hp
  rcases hp with rfl | rfl
  · exact .primitive trivial
  · exact .obj (by decide) (by simpa using .primitive trivial)

theorem validate_writeProof :
    validateAuthorizedHostEffectRequest writeProof.toValue = .ok writeProof :=
  have hu := (writeProof.isJson_toValue uniqueKeys_writeProofInput).uniqueKeys
  (validateAuthorizedHostEffectRequest_eq_ok hu).mpr ⟨.refl _, uniqueKeys_writeProofInput⟩

/-- SHA-256 on the canonical text of the effect. -/
def writeProofDigest (_ : List UInt8) : JsString :=
  "fc04dadc765dc8f7e93a1054cde20ca51a743260e25cd2f411ae31475110e0dd"

/-- The token of the effect. -/
def writeProofToken : TrimmedString :=
  ⟨"host_effect:sha256:fc04dadc765dc8f7e93a1054cde20ca51a743260e25cd2f411ae31475110e0dd",
    by decide⟩

theorem createAuthorizedHostEffectScope_writeProof :
    createAuthorizedHostEffectScope writeProofDigest writeProof.toValue =
      .ok writeProofToken.1 := by
  rw [createAuthorizedHostEffectScope, validate_writeProof, ok_bind, pure_eq_ok]
  decide

/-- A grant to resume the task and to carry out the effect. -/
def writeProofAuthority : AuthorityRecord where
  authorityId := checked "authority:1"
  taskId := checked "task-1"
  durableAttemptId := checked "attempt-1"
  authorityEpoch := checked 3
  scope := ⟨[checked "resume_task", writeProofToken], by decide, by decide⟩
  status := .active
  grantedAt := dayGrant.grantedAt
  expiresAt := none
  revokedAt := none
  provenance := ⟨checked "receipt:chat-1", .human⟩

/-- The evaluation of the effect ten days later. -/
def writeProofEvaluation : EvaluationRequest where
  taskId := checked "task-1"
  durableAttemptId := checked "attempt-1"
  requiredAuthorityEpoch := checked 3
  requestedScope := ⟨[writeProofToken], by decide, by decide⟩
  evaluatedAt := tenDaysLater

theorem decideAuthority_writeProof :
    decideAuthority (some writeProofAuthority) writeProofEvaluation = ⟨.authorized, .valid⟩ := by
  decide

/-- The effect with its properties, and those of its input, in another order. -/
def reorderedWriteProof : JsValue :=
  .obj [("input", .obj writeProofInput.reverse), ("resource_ref", .str "state:proof"),
    ("kind", .str "state.write"), ("required_authority_epoch", .nat 3),
    ("durable_attempt_id", .str "attempt-1"), ("task_id", .str "task-1"),
    ("effect_id", .str "write-proof-1"), ("effect_request_version", .nat 1)]

theorem jsonEq_reorderedWriteProof : JsonEq reorderedWriteProof writeProof.toValue := by
  have hn : (names writeProofInput.reverse).Nodup := by decide
  have hinput := JsonEq.of_perm hn (List.reverse_perm writeProofInput)
  refine jsonEq_obj_iff.mpr ⟨_, rfl, fun k => ?_, ?_⟩
  · simp only [names_cons, names_nil, List.mem_cons, List.not_mem_nil, or_false]
    exact iff_of_eq (by ac_rfl)
  · simp only [names_cons, names_nil, List.forall_mem_cons, writeProof]
    simp [hinput]

theorem uniqueKeys_reorderedWriteProof : UniqueKeys reorderedWriteProof := by
  have hinput := uniqueKeys_obj.mp uniqueKeys_writeProofInput
  refine .obj (by decide) fun p hp => ?_
  simp only [List.mem_cons, List.not_mem_nil, or_false] at hp
  rcases hp with rfl | rfl | rfl | rfl | rfl | rfl | rfl | rfl
  · exact .obj (by decide) fun p hp => hinput.2 p (List.mem_reverse.mp hp)
  all_goals exact .primitive trivial

theorem validate_reorderedWriteProof :
    validateAuthorizedHostEffectRequest reorderedWriteProof = .ok writeProof :=
  (validateAuthorizedHostEffectRequest_eq_ok uniqueKeys_reorderedWriteProof).mpr
    ⟨jsonEq_reorderedWriteProof, uniqueKeys_writeProofInput⟩

theorem grantsOnly_reorderedWriteProof :
    GrantsOnly writeProofDigest writeProofAuthority reorderedWriteProof := by
  intro token ht hstarts
  simp only [writeProofAuthority, List.mem_cons, List.not_mem_nil, or_false] at ht
  rcases ht with rfl | rfl
  · exact absurd hstarts (by decide)
  · have hu := (writeProof.isJson_toValue uniqueKeys_writeProofInput).uniqueKeys
    exact (createAuthorizedHostEffectScope_congr hu uniqueKeys_reorderedWriteProof
      jsonEq_reorderedWriteProof validate_writeProof).trans
      createAuthorizedHostEffectScope_writeProof

theorem effect_grant_exact_writeProof :
    JsonEq reorderedWriteProof writeProof.toValue ∧
      createAuthorizedHostEffectScope writeProofDigest writeProof.toValue =
        createAuthorizedHostEffectScope writeProofDigest reorderedWriteProof := by
  have hu := (writeProof.isJson_toValue uniqueKeys_writeProofInput).uniqueKeys
  have hrecord := validateAuthorityRecord_eq_ok.mpr (.refl writeProofAuthority.toValue)
  have hrequest := validateEvaluationRequest_eq_ok.mpr (.refl writeProofEvaluation.toValue)
  have hdecision := evaluateDurableAuthority_eq hrecord hrequest
  rw [decideAuthority_writeProof] at hdecision
  obtain ⟨hexact, hagain, -⟩ := @effect_grant_exact writeProofDigest _ _
    uniqueKeys_reorderedWriteProof validate_reorderedWriteProof
  refine ⟨hexact _ writeProof _ _ writeProofAuthority writeProofEvaluation _ hu validate_writeProof
    ?_ hrecord hrequest grantsOnly_reorderedWriteProof ?_ hdecision rfl, hagain⟩
  · rw [Set.pair_eq_singleton]
    exact Set.injOn_singleton _ _
  · exact ⟨writeProofToken, by simp [writeProofEvaluation],
      createAuthorizedHostEffectScope_writeProof⟩

end Wns.Effect
