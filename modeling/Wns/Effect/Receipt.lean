import Wns.Effect.EffectGrant

/-!
# Receipts of host effects

Model of `supervisor-policy/authorized-host-effect.mjs` (lines 130–170). A host that has
carried out an effect answers with a receipt, made from the request alone, inside a result.

* `createAuthorizedHostEffectReceipt_eq`: the receipt of a request, whose reference is a hash
  of the identity of the effect and whose digest is one of the whole request.
* `validateAuthorizedHostEffectResult_eq_ok`: a result is accepted in its exact shape, in any
  key order.
* `receipts_identify_effects`: references and digests are equal for what they are made of and
  nothing else, and a result with such a receipt is accepted as it is.
-/

namespace Wns.Effect

open Ecma JsValue

/-! ## Receipts -/

/-- What a host has to show for an effect. -/
structure Receipt where
  ref : JsString
  digest : JsString
  deriving DecidableEq

def Receipt.toValue (r : Receipt) : JsValue :=
  .obj [("ref", .str r.ref), ("digest", .str r.digest)]

/-- `identity`: the effect, in the attempt that it belongs to. -/
def AuthorizedHostEffectRequest.identity (r : AuthorizedHostEffectRequest) : JsValue :=
  .obj [("task_id", .str r.taskId.1), ("durable_attempt_id", .str r.durableAttemptId.1),
    ("effect_id", .str r.effectId.1)]

section

variable (sha256 : List UInt8 → JsString)

/-- `createAuthorizedHostEffectReceipt(value)`. -/
def createAuthorizedHostEffectReceipt (value : JsValue) : Throws Receipt := do
  let request ← validateAuthorizedHostEffectRequest value
  pure ⟨"host-effect:" ++ sha256Of sha256 request.identity,
    "sha256:" ++ sha256Of sha256 request.toValue⟩

end

/-! ## Results -/

/-- `[0-9a-f]` -/
def isHex (u : CodeUnit) : Bool := isDigit u || (0x61 ≤ u.val ∧ u.val ≤ 0x66)

/-- `[0-9a-f]{64}` -/
def isHexDigest (s : JsString) : Bool := s.length = 64 && s.all isHex

/-- `^sha256:[0-9a-f]{64}$` -/
def isSha256Digest (s : JsString) : Bool := s.take 7 = "sha256:" && isHexDigest (s.drop 7)

/-- `^[a-z][a-z0-9_]*$` -/
def isReasonToken : JsString → Bool
  | [] => false
  | u :: s => isLower u && s.all fun u => isLowerDigit u || u.val = 0x5F

abbrev Sha256Digest := {s : JsString // isSha256Digest s = true}

abbrev ReasonToken := {s : BoundedString 120 // isReasonToken s.1 = true}

/-- `AUTHORIZED_HOST_EFFECT_STATUSES`. -/
inductive HostEffectStatus
  | succeeded | failed | outcomeUnknown
  deriving DecidableEq

instance : JsEnum HostEffectStatus where
  values := [.succeeded, .failed, .outcomeUnknown]
  text
    | .succeeded => "SUCCEEDED"
    | .failed => "FAILED"
    | .outcomeUnknown => "OUTCOME_UNKNOWN"
  complete := by rintro ⟨⟩ <;> simp
  injective := by rintro ⟨⟩ ⟨⟩ <;> simp

/-- A receipt in the form that a result has to give it. -/
structure DurableReceipt where
  ref : LogicalResourceRef
  digest : Sha256Digest
  deriving DecidableEq

def DurableReceipt.toReceipt (r : DurableReceipt) : Receipt := ⟨r.ref.1.1, r.digest.1⟩

structure AuthorizedHostEffectResult where
  effectId : BoundedString 200
  status : HostEffectStatus
  reasonCode : ReasonToken
  receipt : Option DurableReceipt
  evidenceRef : Option LogicalResourceRef
  reconciled : Bool
  durable : status = .succeeded → receipt.isSome = true
  deriving DecidableEq

def AuthorizedHostEffectResult.toValue (r : AuthorizedHostEffectResult) : JsValue :=
  .obj [("effect_result_version", .nat 1), ("effect_id", .str r.effectId.1),
    ("status", ofEnum r.status), ("reason_code", .str r.reasonCode.1.1),
    ("receipt", orNullValue (fun receipt => receipt.toReceipt.toValue) r.receipt),
    ("evidence_ref", orNullValue (fun ref => .str ref.1.1) r.evidenceRef),
    ("reconciled", .bool r.reconciled)]

/-- The result with `receipt` in the place of its own. -/
def AuthorizedHostEffectResult.withReceipt (r : AuthorizedHostEffectResult)
    (receipt : DurableReceipt) : AuthorizedHostEffectResult :=
  { r with receipt := some receipt, durable := fun _ => rfl }

/-- The part of `normalizeReceipt` about a value other than `null`. -/
def normalizeDurableReceipt (value : JsValue) : Throws DurableReceipt := do
  let ps ← assertExactKeys value ["ref", "digest"] "effect result receipt"
  let ref ← validateLogicalResourceRef (prop ps "ref") "effect result receipt.ref"
  match prop ps "digest" with
  | .str digest =>
    let ⟨h⟩ ← require (isSha256Digest digest = true)
      "effect result receipt.digest must be a sha256 digest"
    pure ⟨ref, digest, h⟩
  | _ => throwType "effect result receipt.digest must be a sha256 digest"

/-- `normalizeReceipt(value)`. -/
def normalizeReceipt (value : JsValue) : Throws (Option DurableReceipt) :=
  orNull normalizeDurableReceipt value

/-- `validateAuthorizedHostEffectResult(value)`. -/
def validateAuthorizedHostEffectResult (value : JsValue) :
    Throws AuthorizedHostEffectResult := do
  let ps ← assertExactKeys value ["effect_result_version", "effect_id", "status", "reason_code",
    "receipt", "evidence_ref", "reconciled"] "effect result"
  check (prop ps "effect_result_version" = .nat 1) "effect_result_version is unsupported"
  let status ← enumMember "effect result status is unsupported" (prop ps "status")
  let receipt ← normalizeReceipt (prop ps "receipt")
  let ⟨durable⟩ ← require (status = .succeeded → receipt.isSome = true)
    "a SUCCEEDED effect result requires a durable receipt"
  let reasonCode ← requireMatch 120 isReasonToken " must be a lowercase reason token"
    (prop ps "reason_code") "effect result reason_code"
  let evidenceRef ← orNull (validateLogicalResourceRef · "effect result evidence_ref")
    (prop ps "evidence_ref")
  let reconciled ← boolean "effect result reconciled must be boolean" (prop ps "reconciled")
  let effectId ← requireBoundedString 200 (prop ps "effect_id") "effect result effect_id"
  pure ⟨effectId, status, reasonCode, receipt, evidenceRef, reconciled, durable⟩

theorem normalizeDurableReceipt_eq_ok (v : JsValue) (r : DurableReceipt) :
    normalizeDurableReceipt v = .ok r ↔ JsonEq v r.toReceipt.toValue := by
  simp only [Receipt.toValue, DurableReceipt.toReceipt, jsonEq_obj_iff, names_cons, names_nil,
    List.forall_mem_cons]
  simp only [normalizeDurableReceipt, bind_eq_ok, assertExactKeys_eq_ok,
    validateLogicalResourceRef_eq_ok]
  constructor
  · rintro ⟨ps, ⟨hv, hk⟩, ref, href, h⟩
    split at h
    · next digest hdigest =>
      simp only [bind_eq_ok, require_eq_ok, exists_pLift, pure_eq_ok] at h
      obtain ⟨_, _, rfl⟩ := h
      exact ⟨ps, hv, hk, by simp [href], by simp [hdigest], by simp⟩
    · exact absurd h (by simp)
  · rintro ⟨ps, hv, hk, href, hdigest, _⟩
    simp at href hdigest
    refine ⟨ps, ⟨hv, hk⟩, r.ref, href, ?_⟩
    rw [hdigest]
    simp only [bind_eq_ok, require_eq_ok, exists_pLift, pure_eq_ok]
    exact ⟨r.digest.2, r.digest.2, trivial⟩

theorem normalizeReceipt_eq_ok {v : JsValue} {r : Option DurableReceipt} :
    normalizeReceipt v = .ok r ↔ JsonEq v (orNullValue (·.toReceipt.toValue) r) := by
  refine orNull_eq_ok normalizeDurableReceipt_eq_ok fun r h => ?_
  have := (normalizeDurableReceipt_eq_ok _ r).mp h
  cases this

/-- A result is accepted up to the key order of its objects. -/
theorem validateAuthorizedHostEffectResult_eq_ok {v : JsValue} {r : AuthorizedHostEffectResult} :
    validateAuthorizedHostEffectResult v = .ok r ↔ JsonEq v r.toValue := by
  have hevidence : ∀ v r, orNull (validateLogicalResourceRef · "effect result evidence_ref") v =
      .ok r ↔ JsonEq v (orNullValue (fun ref => .str ref.1.1) r) := fun v r =>
    orNull_eq_ok (fun _ _ => validateLogicalResourceRef_eq_ok.trans jsonEq_str.symm) (by simp)
  simp only [validateAuthorizedHostEffectResult, bind_eq_ok, assertExactKeys_eq_ok, check_eq_ok,
    enumMember_eq_ok, normalizeReceipt_eq_ok, require_eq_ok, exists_pLift, requireMatch_eq_ok,
    hevidence, boolean_eq_ok, requireBoundedString_eq_ok, pure_eq_ok]
  simp only [AuthorizedHostEffectResult.toValue, jsonEq_obj_iff, names_cons, names_nil]
  constructor
  · rintro ⟨ps, ⟨hv, hk⟩, -, h0, _, h1, _, h2, _, _, _, h3, _, h4, _, h5, _, h6, hr⟩
    subst hr
    exact ⟨ps, hv, hk, by simp [h0, h1, h2, h3, h4, h5, h6, ofEnum]⟩
  · rintro ⟨ps, hv, hk, h⟩
    simp [ofEnum] at h
    obtain ⟨h0, h6, h1, h3, h2, h4, h5⟩ := h
    exact ⟨ps, ⟨hv, hk⟩, (), h0, _, h1, _, h2, r.durable, r.durable, _, h3, _, h4, _, h5, _, h6,
      rfl⟩

/-- A result stays one when its receipt is replaced by another. -/
theorem validateAuthorizedHostEffectResult_withReceipt {ps : Props} {other : JsValue}
    {r : AuthorizedHostEffectResult} (receipt : DurableReceipt)
    (h : validateAuthorizedHostEffectResult (.obj (defineProp ps "receipt" other)) = .ok r) :
    validateAuthorizedHostEffectResult
      (.obj (defineProp ps "receipt" receipt.toReceipt.toValue)) =
      .ok (r.withReceipt receipt) := by
  rw [validateAuthorizedHostEffectResult_eq_ok] at h ⊢
  exact jsonEq_defineProp h (.refl _)

/-! ## The receipt of a request -/

/-- A reference is read at its first colon. -/
theorem isLogicalResourceRef_append {space name : JsString} (h : ∀ u ∈ space, u.val ≠ 0x3A) :
    isLogicalResourceRef (space ++ 0x3A :: name) =
      (isToken isLower (fun u => isLowerDigit u || u.val ∈ [0x5F, 0x2D]) 31 space &&
        isToken (fun u => isUpper u || isLowerDigit u)
          (fun u => isUpper u || isLowerDigit u || isSeparator u) 127 name) := by
  have hspan : (space ++ 0x3A :: name).span (fun u => u.val ≠ 0x3A) = (space, 0x3A :: name) := by
    rw [List.span_eq_takeWhile_dropWhile,
      List.takeWhile_append_of_pos fun u hu => decide_eq_true (h u hu),
      List.dropWhile_append_of_pos fun u hu => decide_eq_true (h u hu),
      List.takeWhile_cons_of_neg (by decide), List.dropWhile_cons_of_neg (by decide),
      List.append_nil]
  rw [isLogicalResourceRef, hspan]

theorem isHexDigest_iff {d : JsString} :
    isHexDigest d = true ↔ d.length = 64 ∧ ∀ u ∈ d, isHex u = true := by
  rw [isHexDigest, Bool.and_eq_true, decide_eq_true_eq, List.all_eq_true]

theorem isLowerDigit_of_isHex {u : CodeUnit} (h : isHex u = true) : isLowerDigit u = true := by
  simp only [isHex, isLowerDigit, isLower, isDigit, Bool.or_eq_true, decide_eq_true_eq] at h ⊢
  omega

/-- A hexadecimal digest is a name. -/
theorem isToken_of_isHexDigest {d : JsString} (h : isHexDigest d = true) :
    isToken (fun u => isUpper u || isLowerDigit u)
      (fun u => isUpper u || isLowerDigit u || isSeparator u) 127 d = true := by
  obtain ⟨hlen, hall⟩ := isHexDigest_iff.mp h
  cases d with
  | nil => simp at hlen
  | cons u s =>
    have hlower : ∀ w ∈ u :: s, isLowerDigit w = true := fun w hw =>
      isLowerDigit_of_isHex (hall w hw)
    rw [List.length_cons] at hlen
    rw [isToken, Bool.and_eq_true, Bool.and_eq_true, List.all_eq_true, decide_eq_true_eq]
    refine ⟨⟨?_, fun w hw => ?_⟩, by omega⟩
    · simp [hlower u (by simp)]
    · simp [hlower w (by simp [hw])]

/-- Printing ASCII characters make a bounded string. -/
theorem bounded_of_printing {maxLength : ℕ} {s : JsString} (hne : s ≠ [])
    (hlen : s.length ≤ maxLength) (h : IsPrinting s) :
    s ≠ [] ∧ s.length ≤ maxLength ∧ trim s = s ∧ 0 ∉ s := by
  refine ⟨hne, hlen, h.trim_eq, fun hnul => ?_⟩
  have hzero := (h 0 hnul).1
  simp at hzero

/-- The reference made of a digest. -/
theorem exists_hostEffectRef {d : JsString} (h : isHexDigest d = true) :
    ∃ ref : LogicalResourceRef, ref.1.1 = js "host-effect:" ++ d := by
  obtain ⟨hlen, hall⟩ := isHexDigest_iff.mp h
  have hscheme : (js "host-effect:").length = 12 ∧ IsPrinting (js "host-effect:") := by
    simp [IsPrinting, js, encode, utf16]
  have hdigest : IsPrinting d := by
    intro u hu
    have hhex := hall u hu
    simp only [isHex, isDigit, Bool.or_eq_true, decide_eq_true_eq] at hhex
    omega
  have hgrammar : isLogicalResourceRef (js "host-effect:" ++ d) = true := by
    have hcolon : js "host-effect:" = js "host-effect" ++ [0x3A] := by decide
    have hfirst : ∀ u ∈ js "host-effect", u.val ≠ 0x3A := by simp [js, encode, utf16]
    have hspace : isToken isLower (fun u => isLowerDigit u || u.val ∈ [0x5F, 0x2D]) 31
        (js "host-effect") = true := by decide
    rw [hcolon, List.append_assoc, List.singleton_append, isLogicalResourceRef_append hfirst,
      hspace, isToken_of_isHexDigest h]
    rfl
  have hlength : (js "host-effect:" ++ d).length ≤ 160 := by
    rw [List.length_append, hscheme.1, hlen]
    norm_num
  exact ⟨⟨⟨js "host-effect:" ++ d, bounded_of_printing
    (List.append_ne_nil_of_left_ne_nil (by decide) _) hlength (hscheme.2.append hdigest)⟩,
    hgrammar⟩, rfl⟩

/-- The digest made of a digest. -/
theorem isSha256Digest_append {d : JsString} (h : isHexDigest d = true) :
    isSha256Digest (js "sha256:" ++ d) = true := by
  have hlen : (js "sha256:").length = 7 := by decide
  rw [isSha256Digest, ← hlen, List.take_left, List.drop_left, h, Bool.and_true, decide_eq_true_eq]

section

variable {sha256 : List UInt8 → JsString}

theorem createAuthorizedHostEffectReceipt_eq {v : JsValue} {r : AuthorizedHostEffectRequest}
    (hr : validateAuthorizedHostEffectRequest v = .ok r) :
    createAuthorizedHostEffectReceipt sha256 v =
      .ok ⟨"host-effect:" ++ sha256Of sha256 r.identity,
        "sha256:" ++ sha256Of sha256 r.toValue⟩ := by
  rw [createAuthorizedHostEffectReceipt, hr, ok_bind]
  rfl

/-- The receipt of a request has the form that a result has to give it. -/
theorem exists_durableReceipt {v : JsValue} {receipt : Receipt}
    (hhex : ∀ bytes, isHexDigest (sha256 bytes) = true)
    (h : createAuthorizedHostEffectReceipt sha256 v = .ok receipt) :
    ∃ durable : DurableReceipt, durable.toReceipt = receipt := by
  obtain ⟨request, _, h⟩ := bind_eq_ok.mp h
  obtain rfl := pure_eq_ok.mp h
  obtain ⟨ref, href⟩ := exists_hostEffectRef (hhex (canonicalBytes request.identity))
  refine ⟨⟨ref, _, isSha256Digest_append (hhex (canonicalBytes request.toValue))⟩, ?_⟩
  rw [DurableReceipt.toReceipt, href]
  rfl

theorem isJson_identity (r : AuthorizedHostEffectRequest) : IsJson r.identity := by
  rw [AuthorizedHostEffectRequest.identity, isJson_obj]
  simp

/-- One effect is one effect of one attempt of one task. -/
theorem jsonEq_identity {q r : AuthorizedHostEffectRequest} :
    JsonEq q.identity r.identity ↔ q.taskId = r.taskId ∧
      q.durableAttemptId = r.durableAttemptId ∧ q.effectId = r.effectId := by
  rw [AuthorizedHostEffectRequest.identity, AuthorizedHostEffectRequest.identity, jsonEq_obj_iff]
  simp [HasKeys, Subtype.ext_iff]

/-- Requests that are equal up to key order name one effect. -/
theorem jsonEq_identity_of_jsonEq {q r : AuthorizedHostEffectRequest}
    (h : JsonEq q.toValue r.toValue) : JsonEq q.identity r.identity := by
  have htask := jsonEq_prop h "task_id"
  have hattempt := jsonEq_prop h "durable_attempt_id"
  have heffect := jsonEq_prop h "effect_id"
  simp at htask hattempt heffect
  exact jsonEq_identity.mpr ⟨Subtype.ext htask, Subtype.ext hattempt, Subtype.ext heffect⟩

/-- References are equal for one effect, and only then. -/
theorem ref_eq_iff {q r : AuthorizedHostEffectRequest}
    (hsha : Set.InjOn sha256 {canonicalBytes q.identity, canonicalBytes r.identity}) :
    js "host-effect:" ++ sha256Of sha256 q.identity =
      js "host-effect:" ++ sha256Of sha256 r.identity ↔
      q.taskId = r.taskId ∧ q.durableAttemptId = r.durableAttemptId ∧ q.effectId = r.effectId := by
  rw [List.append_right_inj, sha256Of_eq_iff (isJson_identity q) (isJson_identity r) hsha,
    jsonEq_identity]

/-- Digests are equal for one request, and only then. -/
theorem digest_eq_iff {v w : JsValue} (hv : UniqueKeys v) (hw : UniqueKeys w)
    {q r : AuthorizedHostEffectRequest} (hq : validateAuthorizedHostEffectRequest v = .ok q)
    (hr : validateAuthorizedHostEffectRequest w = .ok r)
    (hsha : Set.InjOn sha256 {canonicalBytes q.toValue, canonicalBytes r.toValue}) :
    js "sha256:" ++ sha256Of sha256 q.toValue = js "sha256:" ++ sha256Of sha256 r.toValue ↔
      JsonEq v w := by
  obtain ⟨hvq, hqu⟩ := (validateAuthorizedHostEffectRequest_eq_ok hv).mp hq
  obtain ⟨hwr, hru⟩ := (validateAuthorizedHostEffectRequest_eq_ok hw).mp hr
  rw [List.append_right_inj, sha256Of_eq_iff (q.isJson_toValue hqu) (r.isJson_toValue hru) hsha]
  exact ⟨fun h => (hvq.trans h).trans hwr.symm, fun h => (hvq.symm.trans h).trans hwr⟩

/-- **References identify effects,** digests bind requests, and every result that is otherwise
    valid is accepted with the receipt. -/
theorem receipts_identify_effects {v w : JsValue} (hv : UniqueKeys v) (hw : UniqueKeys w)
    {q r : AuthorizedHostEffectRequest} (hq : validateAuthorizedHostEffectRequest v = .ok q)
    (hr : validateAuthorizedHostEffectRequest w = .ok r)
    (hhex : ∀ bytes, isHexDigest (sha256 bytes) = true)
    (hsha : Set.InjOn sha256 {canonicalBytes q.identity, canonicalBytes r.identity,
      canonicalBytes q.toValue, canonicalBytes r.toValue}) :
    ∃ a b, createAuthorizedHostEffectReceipt sha256 v = .ok a ∧
      createAuthorizedHostEffectReceipt sha256 w = .ok b ∧
      (a.ref = b.ref ↔ q.taskId = r.taskId ∧ q.durableAttemptId = r.durableAttemptId ∧
        q.effectId = r.effectId) ∧
      (a.digest = b.digest ↔ JsonEq v w) ∧ (a.digest = b.digest → a.ref = b.ref) ∧
      ∀ (result : Props) (other : JsValue) (accepted : AuthorizedHostEffectResult),
        validateAuthorizedHostEffectResult (.obj (defineProp result "receipt" other)) =
          .ok accepted →
        ∃ durable : DurableReceipt, durable.toReceipt = a ∧
          validateAuthorizedHostEffectResult (.obj (defineProp result "receipt" a.toValue)) =
            .ok (accepted.withReceipt durable) := by
  have ha := @createAuthorizedHostEffectReceipt_eq sha256 v q hq
  have hb := @createAuthorizedHostEffectReceipt_eq sha256 w r hr
  have href := @ref_eq_iff sha256 q r (hsha.mono (by simp [Set.insert_subset_iff]))
  have hdigest := digest_eq_iff hv hw hq hr (hsha.mono (by simp [Set.insert_subset_iff]))
  refine ⟨_, _, ha, hb, href, hdigest, fun h => ?_, ?_⟩
  · have hvq := ((validateAuthorizedHostEffectRequest_eq_ok hv).mp hq).1
    have hwr := ((validateAuthorizedHostEffectRequest_eq_ok hw).mp hr).1
    have hqr := (hvq.symm.trans (hdigest.mp h)).trans hwr
    exact href.mpr (jsonEq_identity.mp (jsonEq_identity_of_jsonEq hqr))
  · intro result other accepted haccepted
    obtain ⟨durable, hdurable⟩ := exists_durableReceipt hhex ha
    refine ⟨durable, hdurable, ?_⟩
    rw [← hdurable]
    exact validateAuthorizedHostEffectResult_withReceipt durable haccepted

end

/-! ## The effect `write-proof-1` under a renewed authority -/

/-- The same effect, asked for again under the next authority. -/
def renewedWriteProof : AuthorizedHostEffectRequest :=
  { writeProof with requiredAuthorityEpoch := checked 4 }

/-- SHA-256 on the canonical texts of the effect and of the two requests. -/
def writeProofHashes (bytes : List UInt8) : JsString :=
  if bytes = canonicalBytes writeProof.identity then
    "6dd6b8af494f722cafb0d62d1c866f68871517bb5b72ed3ab1246db62c81cf60"
  else if bytes = canonicalBytes writeProof.toValue then
    "fc04dadc765dc8f7e93a1054cde20ca51a743260e25cd2f411ae31475110e0dd"
  else "3825a35059f6d72b96b80e4825ac41cc3634ebaa0dafb7a6dee4326dabf76faa"

theorem isHexDigest_writeProofHashes (bytes : List UInt8) :
    isHexDigest (writeProofHashes bytes) = true := by
  unfold writeProofHashes
  split_ifs <;> decide +kernel

theorem injOn_writeProofHashes : Set.InjOn writeProofHashes {canonicalBytes writeProof.identity,
    canonicalBytes renewedWriteProof.identity, canonicalBytes writeProof.toValue,
    canonicalBytes renewedWriteProof.toValue} := by
  have hidentity : renewedWriteProof.identity = writeProof.identity := rfl
  have hhashes : ([canonicalBytes writeProof.identity, canonicalBytes writeProof.toValue,
      canonicalBytes renewedWriteProof.toValue].map writeProofHashes).Nodup := by
    decide +kernel
  intro x hx y hy h
  rw [hidentity, Set.insert_eq_of_mem (Set.mem_insert _ _)] at hx hy
  exact List.inj_on_of_nodup_map hhashes (by simpa using hx) (by simpa using hy) h

theorem uniqueKeys_renewedWriteProof : UniqueKeys renewedWriteProof.toValue :=
  (renewedWriteProof.isJson_toValue uniqueKeys_writeProofInput).uniqueKeys

theorem validate_renewedWriteProof :
    validateAuthorizedHostEffectRequest renewedWriteProof.toValue = .ok renewedWriteProof :=
  (validateAuthorizedHostEffectRequest_eq_ok uniqueKeys_renewedWriteProof).mpr
    ⟨.refl _, uniqueKeys_writeProofInput⟩

/-- The other authority makes it another request. -/
theorem not_jsonEq_renewedWriteProof : ¬ JsonEq reorderedWriteProof renewedWriteProof.toValue := by
  intro h
  have hepoch := jsonEq_prop (jsonEq_reorderedWriteProof.symm.trans h) "required_authority_epoch"
  simp [writeProof, renewedWriteProof] at hepoch

/-- The effect as it succeeded, with no receipt yet. -/
def unreceiptedWriteProof : Props :=
  [("effect_result_version", .nat 1), ("effect_id", .str "write-proof-1"),
    ("status", .str "SUCCEEDED"), ("reason_code", .str "effect_succeeded"), ("receipt", .null),
    ("evidence_ref", .str "evidence:proof"), ("reconciled", .bool true)]

/-- A receipt of another make. -/
def externalReceipt : DurableReceipt where
  ref := checked (checked "external:receipt-1")
  digest := checked "sha256:fc04dadc765dc8f7e93a1054cde20ca51a743260e25cd2f411ae31475110e0dd"

/-- The result with that receipt. -/
def writeProofResult : AuthorizedHostEffectResult where
  effectId := checked "write-proof-1"
  status := .succeeded
  reasonCode := checked (checked "effect_succeeded")
  receipt := some externalReceipt
  evidenceRef := some (checked (checked "evidence:proof"))
  reconciled := true
  durable := fun _ => rfl

theorem validate_writeProofResult : validateAuthorizedHostEffectResult
    (.obj (defineProp unreceiptedWriteProof "receipt" externalReceipt.toReceipt.toValue)) =
      .ok writeProofResult := by
  have hvalue : JsValue.obj (defineProp unreceiptedWriteProof "receipt"
      externalReceipt.toReceipt.toValue) = writeProofResult.toValue := by
    decide +kernel
  rw [hvalue, validateAuthorizedHostEffectResult_eq_ok]
  exact .refl _

/-- One reference, two digests, and a result that needed the receipt. -/
theorem receipts_identify_effects_renewedWriteProof :
    ∃ a b, createAuthorizedHostEffectReceipt writeProofHashes reorderedWriteProof = .ok a ∧
      createAuthorizedHostEffectReceipt writeProofHashes renewedWriteProof.toValue = .ok b ∧
      a.ref = b.ref ∧ a.digest ≠ b.digest ∧
      ∃ durable : DurableReceipt, durable.toReceipt = a ∧
        validateAuthorizedHostEffectResult
          (.obj (defineProp unreceiptedWriteProof "receipt" a.toValue)) =
            .ok (writeProofResult.withReceipt durable) := by
  obtain ⟨a, b, ha, hb, href, hdigest, -, haccepted⟩ :=
    receipts_identify_effects uniqueKeys_reorderedWriteProof uniqueKeys_renewedWriteProof
      validate_reorderedWriteProof validate_renewedWriteProof isHexDigest_writeProofHashes
      injOn_writeProofHashes
  exact ⟨a, b, ha, hb, href.mpr ⟨rfl, rfl, rfl⟩,
    fun h => not_jsonEq_renewedWriteProof (hdigest.mp h),
    haccepted _ _ _ validate_writeProofResult⟩

end Wns.Effect
