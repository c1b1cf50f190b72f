import Wns.Checkpoint.Model

/-!
# What a checkpoint is made of

* `validateTaskCheckpoint_eq_ok`: `validateTaskCheckpoint` accepts an object iff its
  properties describe a checkpoint, section by section.
* `validateTaskCheckpoint_of_jsonEq`: a validated checkpoint is accepted again in
  any key order, unchanged.
-/

namespace Wns

open Ecma

/-! ## Sections -/

section Sections

variable {v : JsValue}

theorem Task.jsonEq_iff {t : Task} : JsonEq v t.toValue ↔
    ∃ ps, v = .obj ps ∧ HasKeys ps ["id", "project", "goal", "phase", "status"] ∧
      prop ps "id" = ofString t.id ∧ prop ps "project" = ofString t.project ∧
      prop ps "goal" = ofString t.goal ∧ prop ps "phase" = ofString t.phase ∧
      prop ps "status" = ofEnum t.status := by
  simp [Task.toValue, jsonEq_obj_iff]

theorem Gates.jsonEq_iff {g : Gates} : JsonEq v g.toValue ↔
    ∃ ps, v = .obj ps ∧ HasKeys ps ["completed", "open"] ∧
      prop ps "completed" = ofStrings g.completed.1 ∧ prop ps "open" = ofStrings g.open.1 := by
  simp [Gates.toValue, jsonEq_obj_iff]

theorem Workspace.jsonEq_iff {w : Workspace} : JsonEq v w.toValue ↔
    ∃ ps, v = .obj ps ∧ HasKeys ps ["path", "git_sha", "branch"] ∧
      prop ps "path" = ofString w.path ∧ prop ps "git_sha" = ofNullable w.gitSha ∧
      prop ps "branch" = ofNullable w.branch := by
  simp [Workspace.toValue, jsonEq_obj_iff]

theorem Approval.jsonEq_iff {a : Approval} : JsonEq v a.toValue ↔
    ∃ ps, v = .obj ps ∧ HasKeys ps ["status", "request_refs"] ∧
      prop ps "status" = ofEnum a.status ∧ prop ps "request_refs" = ofStrings a.requestRefs.1 := by
  simp [Approval.toValue, jsonEq_obj_iff]

theorem Constraints.jsonEq_iff {c : Constraints} : JsonEq v c.toValue ↔
    ∃ ps, v = .obj ps ∧ HasKeys ps ["items", "approval"] ∧
      JsonEq (prop ps "items") (.arr (c.items.map Constraint.toValue)) ∧
      JsonEq (prop ps "approval") c.approval.toValue := by
  simp [Constraints.toValue, jsonEq_obj_iff]

theorem LastExecution.jsonEq_iff {e : LastExecution} : JsonEq v e.toValue ↔
    ∃ ps, v = .obj ps ∧ HasKeys ps ["worker_id", "native_session_id", "native_status"] ∧
      prop ps "worker_id" = ofNullable e.workerId ∧
      prop ps "native_session_id" = ofNullable e.nativeSessionId ∧
      prop ps "native_status" = ofEnum e.nativeStatus := by
  simp [LastExecution.toValue, jsonEq_obj_iff]

theorem NextAction.jsonEq_iff {a : NextAction} : JsonEq v a.toValue ↔
    ∃ ps, v = .obj ps ∧ HasKeys ps ["kind", "gate_id", "input_ref"] ∧
      prop ps "kind" = ofString a.kind ∧ prop ps "gate_id" = ofNullable a.gateId ∧
      prop ps "input_ref" = ofNullable a.inputRef := by
  simp [NextAction.toValue, jsonEq_obj_iff]

theorem Continuation.jsonEq_iff {c : Continuation} : JsonEq v c.toValue ↔
    ∃ ps, v = .obj ps ∧
      HasKeys ps ["next_action", "resume_cursor", "retry_count", "safe_to_resume"] ∧
      JsonEq (prop ps "next_action") c.nextAction.toValue ∧
      prop ps "resume_cursor" = ofString c.resumeCursor ∧
      prop ps "retry_count" = .nat c.retryCount.1 ∧
      prop ps "safe_to_resume" = .bool c.safeToResume := by
  simp [Continuation.toValue, Continuation.props, jsonEq_obj_iff]

theorem exactDecoder_constraint : ExactDecoder constraint Constraint.toValue := by
  intro v label c
  simp only [constraint, bind_eq_ok, object_eq_ok, exactKeys_eq_ok, string_eq_ok, enumValue_eq_ok,
    pure_eq_ok]
  simp only [Constraint.toValue, jsonEq_obj_iff, names_cons, names_nil]
  constructor
  · rintro ⟨ps, rfl, -, hk, id, h1, status, h2, sourceRef, h3, rfl⟩
    exact ⟨ps, rfl, hk, by simp [h1, h2, h3]⟩
  · rintro ⟨ps, rfl, hk, h⟩
    simp at h
    exact ⟨ps, rfl, (), hk, _, h.1, _, h.2.1, _, h.2.2, rfl⟩

theorem exactDecoder_reference : ExactDecoder reference Reference.toValue := by
  intro v label r
  simp only [reference, bind_eq_ok, object_eq_ok, exactKeys_eq_ok, string_eq_ok,
    stringOrNull_eq_ok, pure_eq_ok]
  simp only [Reference.toValue, jsonEq_obj_iff, names_cons, names_nil]
  constructor
  · rintro ⟨ps, rfl, -, hk, id, h1, kind, h2, locator, h3, digest, h4, rfl⟩
    exact ⟨ps, rfl, hk, by simp [h1, h2, h3, h4]⟩
  · rintro ⟨ps, rfl, hk, h⟩
    simp at h
    exact ⟨ps, rfl, (), hk, _, h.1, _, h.2.1, _, h.2.2.1, _, h.2.2.2, rfl⟩

end Sections

/-! ## Parts of a validated section -/

@[simp] theorem references_eq_ok {v : JsValue} {label : JsString} {l : References} :
    references v label = .ok l ↔ JsonEq v (ofReferences l) := by
  simp only [references, bind_eq_ok, require_eq_ok, exists_pLift, pure_eq_ok]
  rw [ofReferences, ← array_mapItems_eq_ok exactDecoder_reference]
  constructor
  · rintro ⟨vs, hv, as, has, h, -, rfl⟩
    exact ⟨vs, hv, has⟩
  · rintro ⟨vs, hv, has⟩
    exact ⟨vs, hv, l.1, has, l.2, l.2, rfl⟩

@[simp] theorem safeInteger_eq_ok {v : JsValue} {label : JsString} {n : SafeNat} :
    safeInteger v label = .ok n ↔ v = .nat n.1 := naturalWith_eq_ok

@[simp] theorem textOrNull_eq_ok {v : JsValue} {label : JsString} {s : Option JsString} :
    textOrNull v label = .ok s ↔ v = .nullable s := by
  cases v <;> cases s <;> simp [textOrNull, JsValue.nullable]

@[simp] theorem integerOrNull_eq_ok {v : JsValue} {label : JsString} {n : Option ℕ} :
    integerOrNull v label = .ok n ↔ v = ofNatOrNull n := by
  unfold integerOrNull
  split
  · cases n <;> simp [ofNatOrNull, JsValue.nat]
  · next h =>
    cases hv : natural v with
    | none =>
      have : ∀ k, v ≠ .nat k := fun k hk => by simp [natural_eq_some.mpr hk] at hv
      cases n <;> simp_all [ofNatOrNull]
    | some k =>
      obtain rfl := natural_eq_some.mp hv
      cases n <;> simp [ofNatOrNull, JsValue.nat]

@[simp] theorem jsonEq_ofNatOrNull {v : JsValue} {n : Option ℕ} :
    JsonEq v (ofNatOrNull n) ↔ v = ofNatOrNull n := by
  cases n
  · exact jsonEq_null
  · exact jsonEq_nat

@[simp] theorem nullish_nullable (s : Option JsString) : nullish (.nullable s) = .nullable s := by
  cases s <;> simp [nullish, JsValue.nullable]

@[simp] theorem nullish_ofNatOrNull (n : Option ℕ) : nullish (ofNatOrNull n) = ofNatOrNull n := by
  cases n <;> simp [nullish, ofNatOrNull, JsValue.nat]

/-! ## Checkpoints -/

/-- What `normalizeSemanticProgress` reads as `p` from the properties of an object:
    the first two nullable fields may also be `undefined`. -/
structure ReadsProgress (ps : Props) (p : SemanticProgress) : Prop where
  state : prop ps "semantic_state" = ofEnum p.semanticState
  lastAt : nullish (prop ps "last_productive_at") = .nullable p.lastProductiveAt
  cursor : nullish (prop ps "last_productive_cursor") = ofNatOrNull p.lastProductiveCursor
  tokens : prop ps "thinking_tokens_since_productive" =
    ofNatOrNull p.thinkingTokensSinceProductive

theorem normalizeSemanticProgress_eq_ok {v : JsValue} {p : SemanticProgress} :
    normalizeSemanticProgress v = .ok p ↔ ∃ ps, v = .obj ps ∧ ReadsProgress ps p := by
  simp only [normalizeSemanticProgress, bind_eq_ok, plainObject_eq_ok, enumMember_eq_ok,
    textOrNull_eq_ok, integerOrNull_eq_ok, pure_eq_ok]
  constructor
  · rintro ⟨ps, rfl, state, h1, lastAt, h2, cursor, h3, tokens, h4, rfl⟩
    exact ⟨ps, rfl, h1, h2, h3, h4⟩
  · rintro ⟨ps, rfl, h1, h2, h3, h4⟩
    exact ⟨ps, rfl, _, h1, _, h2, _, h3, _, h4, rfl⟩

/-- The keys of the semantic-progress section. -/
def progressKeys : List JsString :=
  ["semantic_state", "last_productive_at", "last_productive_cursor",
    "thinking_tokens_since_productive"]

/-- The properties `ps` describe the checkpoint `c`. -/
structure Describes (ps : Props) (c : TaskCheckpoint) : Prop where
  keys : HasKeys ps checkpointKeys
  version : prop ps "checkpoint_version" = .nat 1
  revision : prop ps "revision" = .nat c.revision.1
  task : JsonEq (prop ps "task") c.task.toValue
  gates : JsonEq (prop ps "gates") c.gates.toValue
  workspace : JsonEq (prop ps "workspace") c.workspace.toValue
  constraints : JsonEq (prop ps "constraints") c.constraints.toValue
  evidenceRefs : JsonEq (prop ps "evidence_refs") (ofReferences c.evidenceRefs)
  receiptRefs : JsonEq (prop ps "receipt_refs") (ofReferences c.receiptRefs)
  handoffRefs : JsonEq (prop ps "handoff_refs") (ofReferences c.handoffRefs)
  progress : ∃ qs, prop ps "semantic_progress" = .obj qs ∧ HasKeys qs progressKeys ∧
    ReadsProgress qs c.semanticProgress
  lastExecution : JsonEq (prop ps "last_execution") c.lastExecution.toValue
  continuation : JsonEq (prop ps "continuation") c.continuation.toValue

/-- `validateTaskCheckpoint` returns `c` for the objects that describe `c`. -/
theorem validateTaskCheckpoint_eq_ok {v : JsValue} {c : TaskCheckpoint} :
    validateTaskCheckpoint v = .ok c ↔ ∃ ps, v = .obj ps ∧ Describes ps c := by
  simp only [validateTaskCheckpoint, bind_eq_ok, object_eq_ok, exactKeys_eq_ok, require_eq_ok,
    exists_pLift, safeInteger_eq_ok, strings_eq_ok, array_eq_ok, mapItems_eq_ok
    exactDecoder_constraint, boolean_eq_ok, string_eq_ok, enumValue_eq_ok, stringOrNull_eq_ok,
    references_eq_ok, normalizeSemanticProgress_eq_ok, pure_eq_ok]
  constructor
  · rintro ⟨ps, hv, -, hk, hversion, -, revision, hrevision, task, htask, -, htaskK, h⟩
    obtain ⟨gates, hgates, -, hgatesK, completed, hcompleted, opened, hopened, disjoint, -, h⟩ := h
    obtain ⟨workspace, hworkspace, -, hworkspaceK, h⟩ := h
    obtain ⟨constraints, hconstraints, -, hconstraintsK, h⟩ := h
    obtain ⟨rawItems, hitems, items, hitems', unique, -, approval, happroval, -, happrovalK, h⟩ := h
    obtain ⟨execution, hexecution, -, hexecutionK, h⟩ := h
    obtain ⟨progress, hprogress, -, hprogressK, h⟩ := h
    obtain ⟨continuation, hcontinuation, -, hcontinuationK, h⟩ := h
    obtain ⟨nextAction, hnextAction, -, hnextActionK, h⟩ := h
    obtain ⟨retryCount, hretryCount, safe, hsafe, h⟩ := h
    obtain ⟨taskId, h1, project, h2, goal, h3, phase, h4, status, h5, h⟩ := h
    obtain ⟨path, h6, gitSha, h7, branch, h8, approvalStatus, h9, requestRefs, h10, h⟩ := h
    obtain ⟨evidenceRefs, h11, receiptRefs, h12, handoffRefs, h13, h⟩ := h
    obtain ⟨progress', ⟨qs, hqs, h14⟩, workerId, h15, sessionId, h16, nativeStatus, h17, h⟩ := h
    obtain ⟨kind, h18, gateId, h19, inputRef, h20, cursor, h21, hc⟩ := h
    subst hv
    subst hc
    obtain rfl := JsValue.obj.inj hqs
    refine ⟨ps, rfl, hk, hversion, hrevision, ?_, ?_, ?_, ?_, h11, h12, h13,
      ⟨_, hprogress, hprogressK, h14⟩, ?_, ?_⟩
    · exact Task.jsonEq_iff.mpr ⟨_, htask, htaskK, h1, h2, h3, h4, h5⟩
    · exact Gates.jsonEq_iff.mpr ⟨_, hgates, hgatesK, hcompleted, hopened⟩
    · exact Workspace.jsonEq_iff.mpr ⟨_, hworkspace, hworkspaceK, h6, h7, h8⟩
    · exact Constraints.jsonEq_iff.mpr ⟨_, hconstraints, hconstraintsK,
        jsonEq_arr.mpr ⟨_, hitems, hitems'⟩,
        Approval.jsonEq_iff.mpr ⟨_, happroval, happrovalK, h9, h10⟩⟩
    · exact LastExecution.jsonEq_iff.mpr ⟨_, hexecution, hexecutionK, h15, h16, h17⟩
    · exact Continuation.jsonEq_iff.mpr ⟨_, hcontinuation, hcontinuationK,
        NextAction.jsonEq_iff.mpr ⟨_, hnextAction, hnextActionK, h18, h19, h20⟩, h21,
        hretryCount, hsafe⟩
  · rintro ⟨ps, rfl, h⟩
    obtain ⟨task, htask, htaskK, h1, h2, h3, h4, h5⟩ := Task.jsonEq_iff.mp h.task
    obtain ⟨gates, hgates, hgatesK, hcompleted, hopened⟩ := Gates.jsonEq_iff.mp h.gates
    obtain ⟨workspace, hworkspace, hworkspaceK, h6, h7, h8⟩ := Workspace.jsonEq_iff.mp h.workspace
    obtain ⟨constraints, hconstraints, hconstraintsK, hitems, happroval⟩ :=
      Constraints.jsonEq_iff.mp h.constraints
    obtain ⟨rawItems, hitems, hitems'⟩ := jsonEq_arr.mp hitems
    obtain ⟨approval, happroval, happrovalK, h9, h10⟩ := Approval.jsonEq_iff.mp happroval
    obtain ⟨execution, hexecution, hexecutionK, h15, h16, h17⟩ :=
      LastExecution.jsonEq_iff.mp h.lastExecution
    obtain ⟨continuation, hcontinuation, hcontinuationK, hnextAction, h21, hretryCount, hsafe⟩ :=
      Continuation.jsonEq_iff.mp h.continuation
    obtain ⟨nextAction, hnextAction, hnextActionK, h18, h19, h20⟩ :=
      NextAction.jsonEq_iff.mp hnextAction
    obtain ⟨progress, hprogress, hprogressK, h14⟩ := h.progress
    exact ⟨ps, rfl, (), h.keys, h.version, h.version, _, h.revision, _, htask, (), htaskK,
      _, hgates, (), hgatesK, _, hcompleted, _, hopened, c.gates.disjoint,
      c.gates.disjoint,
      _, hworkspace, (), hworkspaceK, _, hconstraints, (), hconstraintsK,
      _, hitems, _, hitems', c.constraints.unique, c.constraints.unique, _, happroval, (),
      happrovalK,
      _, hexecution, (), hexecutionK, _, hprogress, (), hprogressK,
      _, hcontinuation, (), hcontinuationK, _, hnextAction, (), hnextActionK,
      _, hretryCount, _, hsafe, _, h1, _, h2, _, h3, _, h4, _, h5, _, h6, _, h7, _, h8, _, h9,
      _, h10, _, h.evidenceRefs, _, h.receiptRefs, _, h.handoffRefs, _, ⟨_, rfl, h14⟩,
      _, h15, _, h16, _, h17, _, h18, _, h19, _, h20, _, h21, rfl⟩

/-- An object equal to a checkpoint describes it. -/
theorem Describes.of_jsonEq {ps : Props} {c : TaskCheckpoint} (h : JsonEq (.obj ps) c.toValue) :
    Describes ps c := by
  rw [TaskCheckpoint.toValue, jsonEq_obj_iff] at h
  obtain ⟨qs, hqs, hk, h⟩ := h
  obtain rfl := JsValue.obj.inj hqs
  simp [TaskCheckpoint.props] at h
  obtain ⟨h1, h2, h3, h4, h5, h6, h7, h8, h9, h10, h11, h12⟩ := h
  refine ⟨hk, h1, h2, h3, h4, h5, h6, h7, h8, h9, ?_, h11, h12⟩
  rw [SemanticProgress.toValue, jsonEq_obj_iff] at h10
  obtain ⟨qs, hqs, hk, h⟩ := h10
  simp at h
  exact ⟨qs, hqs, hk, h.1, by rw [h.2.1, nullish_nullable], by rw [h.2.2.1, nullish_ofNatOrNull],
    h.2.2.2⟩

/-- A validated checkpoint is accepted again, whatever the order of its keys. -/
theorem validateTaskCheckpoint_of_jsonEq {v : JsValue} {c : TaskCheckpoint}
    (h : JsonEq v c.toValue) : validateTaskCheckpoint v = .ok c := by
  obtain ⟨ps, rfl, -⟩ := jsonEq_obj_iff.mp h
  exact validateTaskCheckpoint_eq_ok.mpr ⟨ps, rfl, .of_jsonEq h⟩

@[simp] theorem validateTaskCheckpoint_toValue (c : TaskCheckpoint) :
    validateTaskCheckpoint c.toValue = .ok c := validateTaskCheckpoint_of_jsonEq (.refl _)

/-- Different checkpoints have different values. -/
theorem TaskCheckpoint.eq_of_jsonEq {c d : TaskCheckpoint} (h : JsonEq c.toValue d.toValue) :
    c = d := by
  have hc := validateTaskCheckpoint_toValue c
  rw [validateTaskCheckpoint_of_jsonEq h, Except.ok.injEq] at hc
  exact hc.symm

theorem Describes.unique {ps : Props} {c d : TaskCheckpoint} (hc : Describes ps c)
    (hd : Describes ps d) : c = d := by
  have hc := validateTaskCheckpoint_eq_ok.mpr ⟨ps, rfl, hc⟩
  rw [validateTaskCheckpoint_eq_ok.mpr ⟨ps, rfl, hd⟩, Except.ok.injEq] at hc
  exact hc.symm

theorem NextAction.eq_of_jsonEq {a b : NextAction} (h : JsonEq a.toValue b.toValue) : a = b := by
  rw [NextAction.jsonEq_iff] at h
  obtain ⟨ps, hps, -, h1, h2, h3⟩ := h
  obtain rfl := JsValue.obj.inj hps
  cases a
  cases b
  simp_all [ofString_inj]

end Wns
