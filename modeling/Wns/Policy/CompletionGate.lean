import Wns.Ecma.Decode

/-!
# The completion gate

Model of `supervisor-policy/completion-gate.mjs`. Before a commit, and again before a task is
closed, the gate goes through the fields of the evidence in a fixed order and reports those that
block. The stages share their first seven fields.

* `gate_exact`: which input is read, and what is reported of it.
* `gate_stages`: what the final gate adds to the gate before the commit.
* `gate_settled`: what is left once some fields have been settled, in any order.
-/

namespace Wns.Policy

open Ecma JsValue

/-! ## Evidence -/

/-- The fields of the evidence, in the order of `completionGateOrder()`. -/
inductive GateField
  | acceptance | tests | diff | docs | agents | decisions | memory | commit | push | tree
  deriving DecidableEq

instance : JsEnum GateField where
  values := [.acceptance, .tests, .diff, .docs, .agents, .decisions, .memory, .commit, .push, .tree]
  text
    | .acceptance => "acceptance"
    | .tests => "tests"
    | .diff => "diff"
    | .docs => "docs"
    | .agents => "agents"
    | .decisions => "decisions"
    | .memory => "memory"
    | .commit => "commit"
    | .push => "push"
    | .tree => "tree"
  complete := by rintro ⟨⟩ <;> simp
  injective := by rintro ⟨⟩ ⟨⟩ <;> simp

/-- The statuses of all fields. -/
inductive GateStatus
  | verified | pending | rejected | passed | notRequired | failed | notRun | inspected
  | updated | notNeeded | updateRequired | recorded | recordRequired | recordFailed
  | created | pushed | clean | dirty | unknown | notApplicable
  deriving DecidableEq

instance : JsEnum GateStatus where
  values := [.verified, .pending, .rejected, .passed, .notRequired, .failed, .notRun, .inspected,
    .updated, .notNeeded, .updateRequired, .recorded, .recordRequired, .recordFailed, .created,
    .pushed, .clean, .dirty, .unknown, .notApplicable]
  text
    | .verified => "verified"
    | .pending => "pending"
    | .rejected => "rejected"
    | .passed => "passed"
    | .notRequired => "not_required"
    | .failed => "failed"
    | .notRun => "not_run"
    | .inspected => "inspected"
    | .updated => "updated"
    | .notNeeded => "not_needed"
    | .updateRequired => "update_required"
    | .recorded => "recorded"
    | .recordRequired => "record_required"
    | .recordFailed => "record_failed"
    | .created => "created"
    | .pushed => "pushed"
    | .clean => "clean"
    | .dirty => "dirty"
    | .unknown => "unknown"
    | .notApplicable => "not_applicable"
  complete := by rintro ⟨⟩ <;> simp
  injective := by rintro ⟨⟩ ⟨⟩ <;> simp

inductive GateStage
  | preCommit | final
  deriving DecidableEq

instance : JsEnum GateStage where
  values := [.preCommit, .final]
  text
    | .preCommit => "pre_commit"
    | .final => "final"
  complete := by rintro ⟨⟩ <;> simp
  injective := by rintro ⟨⟩ ⟨⟩ <;> simp

inductive WorkspaceKind
  | workingTree | remoteOnly
  deriving DecidableEq

instance : JsEnum WorkspaceKind where
  values := [.workingTree, .remoteOnly]
  text
    | .workingTree => "working_tree"
    | .remoteOnly => "remote_only"
  complete := by rintro ⟨⟩ <;> simp
  injective := by rintro ⟨⟩ ⟨⟩ <;> simp

/-- `PRE_COMMIT_REQUIRED`. -/
def preCommitRequired : List GateField :=
  [.acceptance, .tests, .diff, .docs, .agents, .decisions, .memory]

/-- `FINAL_REQUIRED`. -/
def finalRequired : List GateField := preCommitRequired ++ [.commit, .push, .tree]

def GateStage.fields : GateStage → List GateField
  | .preCommit => preCommitRequired
  | .final => finalRequired

/-- `ALLOWED`. -/
def GateField.allowed : GateField → List GateStatus
  | .acceptance => [.verified, .pending, .rejected]
  | .tests => [.passed, .notRequired, .failed, .notRun]
  | .diff => [.inspected, .notRequired, .pending]
  | .docs => [.updated, .notNeeded, .updateRequired]
  | .agents => [.updated, .notNeeded, .updateRequired]
  | .decisions => [.updated, .notNeeded, .updateRequired]
  | .memory => [.recorded, .notNeeded, .recordRequired, .recordFailed]
  | .commit => [.created, .notNeeded, .pending]
  | .push => [.pushed, .notNeeded, .pending]
  | .tree => [.clean, .dirty, .unknown, .notApplicable]

/-- `PASSING`, which has no entry for the tree. -/
def GateField.passing : GateField → List GateStatus
  | .acceptance => [.verified]
  | .tests => [.passed, .notRequired]
  | .diff => [.inspected, .notRequired]
  | .docs => [.updated, .notNeeded]
  | .agents => [.updated, .notNeeded]
  | .decisions => [.updated, .notNeeded]
  | .memory => [.recorded, .notNeeded]
  | .commit => [.created, .notNeeded]
  | .push => [.pushed, .notNeeded]
  | .tree => []

/-- The name of a field as a property key. -/
def GateField.key (field : GateField) : JsString := js (JsEnum.text field)

/-- The checks of `validateEvidence` of one field. -/
def requireStatus (evidence : Props) (field : GateField) : Throws GateStatus := do
  if field.key ∉ names evidence then
    throwType ("evidence." ++ field.key ++ " is required")
  let status ← enumMember ("evidence." ++ field.key ++ " has an invalid status")
    (prop evidence field.key)
  if status ∈ field.allowed then pure status
  else throwType ("evidence." ++ field.key ++ " has an invalid status")

/-- `validateEvidence(evidence, fields)`: each field with its status. -/
def validateEvidence (evidence : JsValue) (fields : List GateField) :
    Throws (List (GateField × GateStatus)) := do
  let value ← plainObject "evidence must be an object" evidence
  fields.mapM fun field => do
    let status ← requireStatus value field
    pure (field, status)

/-! ## Blockers -/

inductive GateReason
  | acceptanceRejected | acceptanceNotVerified | testsFailed | testsNotCompleted
  | diffNotInspected | docsUpdateUnresolved | agentsUpdateUnresolved | decisionsUpdateUnresolved
  | memoryRecordFailed | memoryRecordUnresolved | commitNotCompleted | pushNotCompleted
  | remoteOnlyTreeStatusMustBeNotApplicable | workingTreeCannotBeNotApplicable
  | workingTreeDirty | workingTreeNotVerifiedClean
  deriving DecidableEq

/-- `blockerFor(field, status, workspaceKind)`. -/
def blockerFor (field : GateField) (status : GateStatus) (workspaceKind : WorkspaceKind) :
    GateReason :=
  match field with
  | .acceptance => if status = .rejected then .acceptanceRejected else .acceptanceNotVerified
  | .tests => if status = .failed then .testsFailed else .testsNotCompleted
  | .diff => .diffNotInspected
  | .docs => .docsUpdateUnresolved
  | .agents => .agentsUpdateUnresolved
  | .decisions => .decisionsUpdateUnresolved
  | .memory => if status = .recordFailed then .memoryRecordFailed else .memoryRecordUnresolved
  | .commit => .commitNotCompleted
  | .push => .pushNotCompleted
  | .tree =>
    if workspaceKind = .remoteOnly ∧ status ≠ .notApplicable then
      .remoteOnlyTreeStatusMustBeNotApplicable
    else if workspaceKind = .workingTree ∧ status = .notApplicable then
      .workingTreeCannotBeNotApplicable
    else if status = .dirty then .workingTreeDirty
    else .workingTreeNotVerifiedClean

/-- `treePasses(status, workspaceKind)`. -/
def treePasses (status : GateStatus) (workspaceKind : WorkspaceKind) : Bool :=
  if workspaceKind = .remoteOnly then status = .notApplicable else status = .clean

/-- `passes`. -/
def passes (workspaceKind : WorkspaceKind) (field : GateField) (status : GateStatus) : Bool :=
  if field = .tree then treePasses status workspaceKind else status ∈ field.passing

structure GateBlocker where
  field : GateField
  status : GateStatus
  reason : GateReason
  deriving DecidableEq

/-- The loop of `evaluateCompletionGate`. -/
def gateBlockers (workspaceKind : WorkspaceKind) (evidence : List (GateField × GateStatus)) :
    List GateBlocker :=
  evidence.filterMap fun (field, status) =>
    if passes workspaceKind field status then none
    else some ⟨field, status, blockerFor field status workspaceKind⟩

inductive GateAction
  | blocked | readyForCommit | closeTask
  deriving DecidableEq

structure GateResult where
  stage : GateStage
  workspaceKind : WorkspaceKind
  ready : Bool
  action : GateAction
  blockers : List GateBlocker
  deriving DecidableEq

/-- What is returned of the blockers. -/
def gateResult (stage : GateStage) (workspaceKind : WorkspaceKind) (blockers : List GateBlocker) :
    GateResult :=
  if blockers.length > 0 then
    { stage, workspaceKind, ready := false, action := .blocked, blockers }
  else
    { stage, workspaceKind, ready := true
      action := if stage = .preCommit then .readyForCommit else .closeTask
      blockers := [] }

/-- `evaluateCompletionGate({ stage, workspace_kind, evidence })`. -/
def evaluateCompletionGate (input : Props) : Throws GateResult := do
  let stage ← enumMember "stage must be pre_commit or final"
    (if prop input "stage" = .undefined then ofEnum GateStage.preCommit else prop input "stage")
  let workspaceKind ← enumMember "workspace_kind must be working_tree or remote_only"
    (if prop input "workspace_kind" = .undefined then ofEnum WorkspaceKind.workingTree
      else prop input "workspace_kind")
  let evidence ← validateEvidence (prop input "evidence") stage.fields
  pure (gateResult stage workspaceKind (gateBlockers workspaceKind evidence))

/-- `completionGateOrder()`. -/
def completionGateOrder : List GateField :=
  [.acceptance, .tests, .diff, .docs, .agents, .decisions, .memory, .commit, .push, .tree]

/-! ## What the gate reports -/

/-- The evidence shows the status, which the field may have. -/
def ShowsStatus (evidence : Props) (field : GateField) (status : GateStatus) : Prop :=
  prop evidence field.key = ofEnum status ∧ status ∈ field.allowed

theorem requireStatus_eq_ok {evidence : Props} {field : GateField} {status : GateStatus} :
    requireStatus evidence field = .ok status ↔ ShowsStatus evidence field status := by
  unfold requireStatus ShowsStatus
  by_cases hkey : field.key ∈ names evidence
  · rw [if_neg (not_not.mpr hkey)]
    simp only [bind_eq_ok, enumMember_eq_ok]
    constructor
    · intro h
      obtain ⟨found, hfound, h⟩ := h
      split_ifs at h with hallowed
      · obtain rfl := pure_eq_ok.mp h
        exact ⟨hfound, hallowed⟩
      · simp at h
    · intro h
      obtain ⟨hfound, hallowed⟩ := h
      exact ⟨status, hfound, by rw [if_pos hallowed, pure_eq_ok]⟩
  · rw [if_pos hkey, prop_of_notMem hkey]
    simp [ofEnum]

theorem key_inj {f g : GateField} : f.key = g.key ↔ f = g := by
  unfold GateField.key
  rw [js_inj]
  exact JsEnum.injective.eq_iff

/-- The status of a field, where the evidence shows one. -/
def statusOf (evidence : Props) (field : GateField) : GateStatus :=
  (requireStatus evidence field).toOption.getD .unknown

theorem statusOf_eq {evidence : Props} {field : GateField} {status : GateStatus}
    (h : ShowsStatus evidence field status) : statusOf evidence field = status := by
  rw [statusOf, requireStatus_eq_ok.mpr h]
  rfl

theorem validateEvidence_eq_ok {evidence : JsValue} {fields : List GateField}
    {shown : List (GateField × GateStatus)} : validateEvidence evidence fields = .ok shown ↔
      ∃ value, evidence = .obj value ∧
        (∀ field ∈ fields, ∃ status, ShowsStatus value field status) ∧
        shown = fields.map fun field => (field, statusOf value field) := by
  unfold validateEvidence
  simp only [bind_eq_ok, plainObject_eq_ok]
  refine exists_congr fun value => and_congr_right fun _ => mapM_eq_ok fun field _ entry => ?_
  simp only [bind_eq_ok, pure_eq_ok, requireStatus_eq_ok]
  constructor
  · intro h
    obtain ⟨status, hstatus, h⟩ := h
    exact ⟨⟨status, hstatus⟩, by rw [← h, statusOf_eq hstatus]⟩
  · intro h
    obtain ⟨⟨status, hstatus⟩, h⟩ := h
    exact ⟨status, hstatus, by rw [h, statusOf_eq hstatus]⟩

/-- The blocker of a field, if it blocks. -/
def blockerOf (workspaceKind : WorkspaceKind) (evidence : Props) (field : GateField) :
    Option GateBlocker :=
  let status := statusOf evidence field
  if passes workspaceKind field status then none
  else some ⟨field, status, blockerFor field status workspaceKind⟩

/-- The input asks for a stage of a workspace, over evidence that shows each field of it. -/
structure Asks (input : Props) (stage : GateStage) (workspaceKind : WorkspaceKind)
    (evidence : Props) : Prop where
  ofStage : prop input "stage" = ofEnum stage ∨
    prop input "stage" = .undefined ∧ stage = .preCommit
  ofKind : prop input "workspace_kind" = ofEnum workspaceKind ∨
    prop input "workspace_kind" = .undefined ∧ workspaceKind = .workingTree
  ofEvidence : prop input "evidence" = .obj evidence
  shows : ∀ field ∈ stage.fields, ∃ status, ShowsStatus evidence field status

/-- What is read of a property with a default. -/
theorem default_eq_ofEnum {α : Type} [JsEnum α] {v : JsValue} {a fallback : α} :
    (if v = .undefined then ofEnum fallback else v) = ofEnum a ↔
      v = ofEnum a ∨ v = .undefined ∧ a = fallback := by
  by_cases h : v = .undefined
  · rw [if_pos h, ofEnum_inj, h]
    simp [ofEnum, eq_comm]
  · rw [if_neg h]
    simp [h]

theorem evaluateCompletionGate_eq_ok {input : Props} {r : GateResult} :
    evaluateCompletionGate input = .ok r ↔ ∃ stage workspaceKind evidence,
      Asks input stage workspaceKind evidence ∧ r = gateResult stage workspaceKind
        (stage.fields.filterMap (blockerOf workspaceKind evidence)) := by
  unfold evaluateCompletionGate
  simp only [bind_eq_ok, enumMember_eq_ok, validateEvidence_eq_ok, pure_eq_ok, default_eq_ofEnum]
  constructor
  · rintro ⟨stage, hstage, kind, hkind, _, ⟨evidence, hevidence, hshows, rfl⟩, rfl⟩
    refine ⟨stage, kind, evidence, ⟨hstage, hkind, hevidence, hshows⟩, ?_⟩
    rw [gateBlockers, List.filterMap_map]
    rfl
  · rintro ⟨stage, kind, evidence, ⟨hstage, hkind, hevidence, hshows⟩, rfl⟩
    refine ⟨stage, hstage, kind, hkind, _, ⟨evidence, hevidence, hshows, rfl⟩, ?_⟩
    rw [gateBlockers, List.filterMap_map]
    rfl

/-- An input asks for one thing only. -/
theorem Asks.unique {input : Props} {stage stage' : GateStage} {kind kind' : WorkspaceKind}
    {evidence evidence' : Props} (h : Asks input stage kind evidence)
    (h' : Asks input stage' kind' evidence') :
    stage = stage' ∧ kind = kind' ∧ evidence = evidence' := by
  have hstage := default_eq_ofEnum.mpr h.ofStage
  have hkind := default_eq_ofEnum.mpr h.ofKind
  rw [default_eq_ofEnum.mpr h'.ofStage, ofEnum_inj] at hstage
  rw [default_eq_ofEnum.mpr h'.ofKind, ofEnum_inj] at hkind
  refine ⟨hstage.symm, hkind.symm, ?_⟩
  have hevidence := h.ofEvidence
  rw [h'.ofEvidence] at hevidence
  exact (JsValue.obj.inj hevidence).symm

/-- The field that a reason is about. -/
def GateReason.field : GateReason → GateField
  | .acceptanceRejected | .acceptanceNotVerified => .acceptance
  | .testsFailed | .testsNotCompleted => .tests
  | .diffNotInspected => .diff
  | .docsUpdateUnresolved => .docs
  | .agentsUpdateUnresolved => .agents
  | .decisionsUpdateUnresolved => .decisions
  | .memoryRecordFailed | .memoryRecordUnresolved => .memory
  | .commitNotCompleted => .commit
  | .pushNotCompleted => .push
  | .remoteOnlyTreeStatusMustBeNotApplicable | .workingTreeCannotBeNotApplicable
  | .workingTreeDirty | .workingTreeNotVerifiedClean => .tree

theorem blockerFor_field (field : GateField) (status : GateStatus) (kind : WorkspaceKind) :
    (blockerFor field status kind).field = field := by
  cases field with
  | acceptance | tests | memory => unfold blockerFor; dsimp only; split <;> rfl
  | tree => unfold blockerFor; dsimp only; split_ifs <;> rfl
  | _ => rfl

/-- What a result means. The blockers stand in the order of the gate, each with the status that
    is shown and a reason about its own field. -/
structure GateExact (stage : GateStage) (kind : WorkspaceKind) (evidence : Props)
    (r : GateResult) : Prop where
  ofStage : r.stage = stage ∧ r.workspaceKind = kind
  ready : r.ready = true ↔ ∀ field ∈ stage.fields, ∃ status,
    ShowsStatus evidence field status ∧ passes kind field status = true
  action : r.action =
    if r.ready then (if stage = .preCommit then .readyForCommit else .closeTask) else .blocked
  order : (r.blockers.map GateBlocker.field).Sublist completionGateOrder
  blocks : ∀ field, field ∈ r.blockers.map GateBlocker.field ↔ field ∈ stage.fields ∧
    ∃ status, ShowsStatus evidence field status ∧ passes kind field status = false
  reported : ∀ b ∈ r.blockers, ShowsStatus evidence b.field b.status ∧
    passes kind b.field b.status = false ∧ b.reason.field = b.field

theorem mem_blockers {kind : WorkspaceKind} {evidence : Props} {fields : List GateField}
    {b : GateBlocker} : b ∈ fields.filterMap (blockerOf kind evidence) ↔
      b.field ∈ fields ∧ b.status = statusOf evidence b.field ∧
        passes kind b.field b.status = false ∧ b.reason = blockerFor b.field b.status kind := by
  unfold blockerOf
  rw [List.mem_filterMap]
  constructor
  · intro ⟨field, hfield, h⟩
    dsimp only at h
    split_ifs at h with hpasses
    obtain rfl := Option.some.inj h
    exact ⟨hfield, rfl, Bool.eq_false_iff.mpr hpasses, rfl⟩
  · intro ⟨hfield, hstatus, hpasses, hreason⟩
    refine ⟨b.field, hfield, ?_⟩
    dsimp only
    rw [← hstatus, hpasses, ← hreason]
    rfl

/-- The fields that block, in their order. -/
theorem map_blockers {kind : WorkspaceKind} {evidence : Props} (fields : List GateField) :
    (fields.filterMap (blockerOf kind evidence)).map GateBlocker.field =
      fields.filter fun field => !passes kind field (statusOf evidence field) := by
  unfold blockerOf
  induction fields with
  | nil => rfl
  | cons field fields ih =>
    rw [List.filterMap_cons, List.filter_cons]
    cases h : passes kind field (statusOf evidence field) with
    | true => simpa [h] using ih
    | false => simpa [h] using ih

theorem fields_sublist (stage : GateStage) : stage.fields.Sublist completionGateOrder := by
  cases stage <;> decide

theorem Asks.status {input : Props} {stage : GateStage} {kind : WorkspaceKind} {evidence : Props}
    (h : Asks input stage kind evidence) {field : GateField} (hfield : field ∈ stage.fields)
    {p : GateStatus → Prop} :
    p (statusOf evidence field) ↔ ∃ status, ShowsStatus evidence field status ∧ p status := by
  obtain ⟨status, hstatus⟩ := h.shows field hfield
  constructor
  · intro hp
    exact ⟨status, hstatus, by rwa [statusOf_eq hstatus] at hp⟩
  · intro ⟨status', hstatus', hp⟩
    rwa [statusOf_eq hstatus']

section Result

variable (stage : GateStage) (kind : WorkspaceKind) (blockers : List GateBlocker)

theorem gateResult_stage : (gateResult stage kind blockers).stage = stage ∧
    (gateResult stage kind blockers).workspaceKind = kind := by
  unfold gateResult
  split <;> exact ⟨rfl, rfl⟩

theorem gateResult_blockers : (gateResult stage kind blockers).blockers = blockers := by
  unfold gateResult
  by_cases h : blockers.length > 0
  · rw [if_pos h]
  · rw [if_neg h]
    exact (List.length_eq_zero_iff.mp (by omega)).symm

theorem gateResult_ready : (gateResult stage kind blockers).ready = true ↔ blockers = [] := by
  unfold gateResult
  rw [← List.length_eq_zero_iff]
  by_cases h : blockers.length > 0
  · rw [if_pos h]
    simp only [Bool.false_eq_true, false_iff]
    omega
  · rw [if_neg h]
    simp only [true_iff]
    omega

theorem gateResult_action : (gateResult stage kind blockers).action =
    if (gateResult stage kind blockers).ready then
      (if stage = .preCommit then .readyForCommit else .closeTask) else .blocked := by
  unfold gateResult
  by_cases h : blockers.length > 0
  · rw [if_pos h]
    rfl
  · rw [if_neg h]
    rfl

end Result

/-- **The gate reads precisely the input that asks for a stage over full evidence, and reports
    each field of the stage that does not pass.** -/
theorem gate_exact (input : Props) :
    ((∃ r, evaluateCompletionGate input = .ok r) ↔
      ∃ stage kind evidence, Asks input stage kind evidence) ∧
    ∀ r, evaluateCompletionGate input = .ok r → ∀ stage kind evidence,
      Asks input stage kind evidence → GateExact stage kind evidence r := by
  refine ⟨⟨fun ⟨r, h⟩ => ?_, fun ⟨stage, kind, evidence, h⟩ => ?_⟩, fun r h => ?_⟩
  · obtain ⟨stage, kind, evidence, hasks, -⟩ := evaluateCompletionGate_eq_ok.mp h
    exact ⟨stage, kind, evidence, hasks⟩
  · exact ⟨_, evaluateCompletionGate_eq_ok.mpr ⟨stage, kind, evidence, h, rfl⟩⟩
  intro stage kind evidence hasks
  obtain ⟨_, _, _, hasks', rfl⟩ := evaluateCompletionGate_eq_ok.mp h
  obtain ⟨rfl, rfl, rfl⟩ := hasks.unique hasks'
  constructor
  case ofStage => exact gateResult_stage ..
  case ready =>
    rw [gateResult_ready, List.filterMap_eq_nil_iff]
    refine forall₂_congr fun field hfield => ?_
    rw [← hasks.status hfield]
    unfold blockerOf
    simp
  case action => exact gateResult_action ..
  case order =>
    rw [gateResult_blockers, map_blockers]
    exact List.filter_sublist.trans (fields_sublist stage)
  case blocks =>
    intro field
    rw [gateResult_blockers, map_blockers, List.mem_filter, Bool.not_eq_true']
    exact and_congr_right fun hfield => hasks.status (p := (passes kind field · = false)) hfield
  case reported =>
    intro b hb
    rw [gateResult_blockers, mem_blockers] at hb
    obtain ⟨hfield, hstatus, hpasses, hreason⟩ := hb
    obtain ⟨status, hshown⟩ := hasks.shows b.field hfield
    refine ⟨?_, hpasses, by rw [hreason, blockerFor_field]⟩
    rwa [hstatus, statusOf_eq hshown]

/-! ## The two stages -/

theorem evaluateCompletionGate_atStage (input : Props) (stage : GateStage) :
    evaluateCompletionGate (defineProp input "stage" (ofEnum stage)) = (do
      let kind ← enumMember "workspace_kind must be working_tree or remote_only"
        (if prop input "workspace_kind" = .undefined then ofEnum WorkspaceKind.workingTree
          else prop input "workspace_kind")
      let evidence ← validateEvidence (prop input "evidence") stage.fields
      pure (gateResult stage kind (gateBlockers kind evidence))) := by
  have hstage : enumMember "stage must be pre_commit or final" (ofEnum stage) = .ok stage := by
    rw [enumMember_eq_ok]
  have hkind : prop (defineProp input "stage" (ofEnum stage)) "workspace_kind" =
      prop input "workspace_kind" := by rw [prop_defineProp, if_neg (by decide)]
  have hevidence : prop (defineProp input "stage" (ofEnum stage)) "evidence" =
      prop input "evidence" := by rw [prop_defineProp, if_neg (by decide)]
  unfold evaluateCompletionGate
  rw [hkind, hevidence, prop_defineProp, if_pos rfl, if_neg (by simp [ofEnum]), hstage, ok_bind]

/-- The evidence for the last fields is looked at once that for the others is sound. -/
theorem validateEvidence_append (evidence : JsValue) (fields late : List GateField) :
    validateEvidence evidence (fields ++ late) = (do
      let first ← validateEvidence evidence fields
      let second ← validateEvidence evidence late
      pure (first ++ second)) := by
  unfold validateEvidence
  cases evidence with
  | obj value =>
    simp only [plainObject, ok_bind, List.mapM_append]
  | _ => rfl

/-- **The final gate repeats the gate before the commit and goes on.** It reports what that gate
    reports, then only what is left of the commit, the push and the tree; where that gate throws,
    so does the final gate. -/
theorem gate_stages (input : Props) :
    (∀ r, evaluateCompletionGate (defineProp input "stage" (ofEnum GateStage.final)) = .ok r →
      ∃ first late,
        evaluateCompletionGate (defineProp input "stage" (ofEnum GateStage.preCommit)) =
          .ok first ∧ r.blockers = first.blockers ++ late ∧
        (∀ b ∈ late, b.field ∉ preCommitRequired) ∧ (r.ready = true → first.ready = true)) ∧
    ∀ e, evaluateCompletionGate (defineProp input "stage" (ofEnum GateStage.preCommit)) =
      .error e →
      evaluateCompletionGate (defineProp input "stage" (ofEnum GateStage.final)) = .error e := by
  rw [evaluateCompletionGate_atStage, evaluateCompletionGate_atStage]
  have hfields : GateStage.final.fields = GateStage.preCommit.fields ++ [.commit, .push, .tree] :=
    rfl
  rw [hfields]
  generalize @enumMember WorkspaceKind _ _ _ = kind
  cases kind with
  | error e => simp [error_bind]
  | ok kind =>
    rw [ok_bind, ok_bind, validateEvidence_append]
    cases validateEvidence (prop input "evidence") GateStage.preCommit.fields with
    | error e => simp [error_bind]
    | ok first =>
      refine ⟨fun r h => ?_, fun e h => by simp at h⟩
      obtain ⟨shown, hshown, h⟩ := bind_eq_ok.mp h
      rw [ok_bind] at hshown
      obtain ⟨late, hlate, hshown⟩ := bind_eq_ok.mp hshown
      obtain rfl := pure_eq_ok.mp hshown
      obtain rfl := pure_eq_ok.mp h
      refine ⟨_, gateBlockers kind late, rfl, ?_, ?_, ?_⟩
      · rw [gateResult_blockers, gateResult_blockers, gateBlockers, List.filterMap_append]
        rfl
      · intro b hb
        obtain ⟨entry, hentry, hb⟩ := List.mem_filterMap.mp hb
        dsimp only at hb
        split_ifs at hb
        obtain rfl := Option.some.inj hb
        obtain ⟨_, -, -, rfl⟩ := validateEvidence_eq_ok.mp hlate
        obtain ⟨field, hfield, rfl⟩ := List.mem_map.mp hentry
        have hlast : ∀ field ∈ [GateField.commit, .push, .tree], field ∉ preCommitRequired := by
          decide
        exact hlast field hfield
      · rw [gateResult_ready, gateResult_ready, gateBlockers, List.filterMap_append,
          List.append_eq_nil_iff]
        exact And.left

/-! ## Settling what blocks -/

/-- The evidence after some fields have been given a status, one after the other. -/
def settle (evidence : Props) (settled : List (GateField × GateStatus)) : Props :=
  settled.foldl (fun evidence s => defineProp evidence s.1.key (ofEnum s.2)) evidence

theorem showsStatus_defineProp {evidence : Props} {field field' : GateField}
    {status status' : GateStatus} :
    ShowsStatus (defineProp evidence field'.key (ofEnum status')) field status ↔
      if field = field' then status = status' ∧ status ∈ field.allowed
      else ShowsStatus evidence field status := by
  unfold ShowsStatus
  rw [prop_defineProp]
  simp only [key_inj]
  split_ifs with h
  · rw [ofEnum_inj, eq_comm]
  · rfl

/-- A field that has not been settled shows what it showed. -/
theorem settle_untouched {settled : List (GateField × GateStatus)} {field : GateField}
    (h : field ∉ settled.map Prod.fst) {evidence : Props} {status : GateStatus} :
    ShowsStatus (settle evidence settled) field status ↔ ShowsStatus evidence field status := by
  unfold settle
  induction settled generalizing evidence with
  | nil => rfl
  | cons s settled ih =>
    rw [List.map_cons, List.mem_cons, not_or] at h
    rw [List.foldl_cons, ih h.2, showsStatus_defineProp, if_neg h.1]

/-- A field that has been settled shows one of the statuses it was given. -/
theorem settle_touched {settled : List (GateField × GateStatus)} {field : GateField}
    (h : field ∈ settled.map Prod.fst) (hallowed : ∀ s ∈ settled, s.2 ∈ s.1.allowed)
    (evidence : Props) :
    ∃ status, (field, status) ∈ settled ∧ ShowsStatus (settle evidence settled) field status := by
  unfold settle
  induction settled generalizing evidence with
  | nil => cases h
  | cons s settled ih =>
    rw [List.forall_mem_cons] at hallowed
    rw [List.foldl_cons]
    by_cases hlater : field ∈ settled.map Prod.fst
    · obtain ⟨status, hmem, hshown⟩ := ih hlater hallowed.2 (defineProp evidence _ _)
      exact ⟨status, List.mem_cons_of_mem s hmem, hshown⟩
    · -- it is not settled again, so the status it is given here stands
      have heq : field = s.1 := by
        rw [List.map_cons, List.mem_cons] at h
        exact h.resolve_right hlater
      refine ⟨s.2, by rw [heq]; exact List.mem_cons_self, ?_⟩
      refine (settle_untouched hlater).mpr (showsStatus_defineProp.mpr ?_)
      rw [if_pos heq, heq]
      exact ⟨rfl, hallowed.1⟩

/-- What each field blocks once some have been settled. -/
theorem blockerOf_settle {kind : WorkspaceKind} {settled : List (GateField × GateStatus)}
    (hsettled : ∀ s ∈ settled, s.2 ∈ s.1.allowed ∧ passes kind s.1 s.2 = true) {evidence : Props}
    {field : GateField} {status : GateStatus} (hshown : ShowsStatus evidence field status) :
    blockerOf kind (settle evidence settled) field =
      (blockerOf kind evidence field).filter fun b => b.field ∉ settled.map Prod.fst := by
  unfold blockerOf
  by_cases hfield : field ∈ settled.map Prod.fst
  · obtain ⟨status', hmem, hshown'⟩ := settle_touched hfield (fun s hs => (hsettled s hs).1)
      evidence
    rw [statusOf_eq hshown', if_pos (hsettled _ hmem).2]
    dsimp only
    split_ifs
    · rfl
    · rw [Option.filter_some, if_neg (by simpa using hfield)]
  · rw [statusOf_eq ((settle_untouched hfield).mpr hshown), statusOf_eq hshown]
    dsimp only
    split_ifs
    · rfl
    · rw [Option.filter_some, if_pos (by simpa using hfield)]

/-- **Settling fields, in any order, takes away what they block and nothing else.** The gate is
    open once every field that blocked has been settled. -/
theorem gate_settled {input evidence : Props} {r : GateResult}
    (hevidence : prop input "evidence" = .obj evidence)
    (h : evaluateCompletionGate input = .ok r) {settled : List (GateField × GateStatus)}
    (hsettled : ∀ s ∈ settled, s.2 ∈ s.1.allowed ∧ passes r.workspaceKind s.1 s.2 = true) :
    ∃ r', evaluateCompletionGate
        (defineProp input "evidence" (.obj (settle evidence settled))) = .ok r' ∧
      r'.blockers = r.blockers.filter (fun b => b.field ∉ settled.map Prod.fst) ∧
      (r'.ready = true ↔ ∀ b ∈ r.blockers, b.field ∈ settled.map Prod.fst) := by
  obtain ⟨stage, kind, evidence', hasks, rfl⟩ := evaluateCompletionGate_eq_ok.mp h
  obtain rfl : evidence = evidence' := JsValue.obj.inj (hevidence.symm.trans hasks.ofEvidence)
  rw [(gateResult_stage ..).2] at hsettled
  have hblockers : stage.fields.filterMap (blockerOf kind (settle evidence settled)) =
      (stage.fields.filterMap (blockerOf kind evidence)).filter
        fun b => b.field ∉ settled.map Prod.fst := by
    rw [List.filter_filterMap]
    refine List.filterMap_congr fun field hfield => ?_
    obtain ⟨status, hshown⟩ := hasks.shows field hfield
    exact blockerOf_settle hsettled hshown
  refine ⟨_, evaluateCompletionGate_eq_ok.mpr ⟨stage, kind, settle evidence settled, ?_, rfl⟩,
    ?_, ?_⟩
  · constructor
    case ofStage => rw [prop_defineProp, if_neg (by decide)]; exact hasks.ofStage
    case ofKind => rw [prop_defineProp, if_neg (by decide)]; exact hasks.ofKind
    case ofEvidence => rw [prop_defineProp, if_pos rfl]
    case shows =>
      intro field hfield
      by_cases hmem : field ∈ settled.map Prod.fst
      · obtain ⟨status, -, hshown⟩ := settle_touched hmem (fun s hs => (hsettled s hs).1)
          evidence
        exact ⟨status, hshown⟩
      · obtain ⟨status, hshown⟩ := hasks.shows field hfield
        exact ⟨status, (settle_untouched hmem).mpr hshown⟩
  · rw [gateResult_blockers, gateResult_blockers, hblockers]
  · rw [gateResult_ready, gateResult_blockers, hblockers, List.filter_eq_nil_iff]
    simp

/-- Evidence in which the tests and the docs are left. -/
def sampleEvidence : Props :=
  [(js "acceptance", .str (js "verified")), (js "tests", .str (js "failed")),
    (js "diff", .str (js "inspected")), (js "docs", .str (js "update_required")),
    (js "agents", .str (js "not_needed")), (js "decisions", .str (js "updated")),
    (js "memory", .str (js "recorded"))]

theorem gate_settled_sample : ∃ r,
    evaluateCompletionGate (defineProp [(js "evidence", .obj sampleEvidence)] "evidence"
      (.obj (settle sampleEvidence [(.docs, .updated), (.tests, .passed)]))) = .ok r ∧
    r.ready = true := by
  have h : evaluateCompletionGate [(js "evidence", .obj sampleEvidence)] =
      .ok ⟨.preCommit, .workingTree, false, .blocked, [⟨.tests, .failed, .testsFailed⟩,
        ⟨.docs, .updateRequired, .docsUpdateUnresolved⟩]⟩ := by rfl
  obtain ⟨r, hr, -, hready⟩ := gate_settled (by rfl) h
    (by decide : ∀ s ∈ [(GateField.docs, GateStatus.updated), (.tests, .passed)],
      s.2 ∈ s.1.allowed ∧ passes .workingTree s.1 s.2 = true)
  exact ⟨r, hr, hready.mpr (by decide)⟩

end Wns.Policy
