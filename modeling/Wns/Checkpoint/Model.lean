import Wns.Common.Checks

/-!
# Task checkpoints

Models of `supervisor-policy/task-continuation.mjs` (lines 1–92) and of
`normalizeSemanticProgress` (`supervisor-policy/reasoning-watchdog.mjs`, lines
39–76). A `TaskCheckpoint` is a validated checkpoint: its strings are trimmed, its
lists free of repetition, its counters safe integers, and no gate is both
completed and open. `toValue` is the object literal that `validateTaskCheckpoint`
returns for it.
-/

namespace Wns

open Ecma

/-! ## Enumerations -/

inductive TaskStatus
  | «open» | blocked | awaitingApproval | completed | cancelled
  deriving DecidableEq

instance : JsEnum TaskStatus where
  values := [.open, .blocked, .awaitingApproval, .completed, .cancelled]
  text
    | .open => "open"
    | .blocked => "blocked"
    | .awaitingApproval => "awaiting_approval"
    | .completed => "completed"
    | .cancelled => "cancelled"
  complete := by rintro ⟨⟩ <;> simp
  injective := by rintro ⟨⟩ ⟨⟩ <;> simp

inductive ApprovalStatus
  | notRequired | pending | approved | rejected
  deriving DecidableEq

instance : JsEnum ApprovalStatus where
  values := [.notRequired, .pending, .approved, .rejected]
  text
    | .notRequired => "not_required"
    | .pending => "pending"
    | .approved => "approved"
    | .rejected => "rejected"
  complete := by rintro ⟨⟩ <;> simp
  injective := by rintro ⟨⟩ ⟨⟩ <;> simp

inductive NativeStatus
  | notStarted | running | interrupted | completed | failed | unknown
  deriving DecidableEq

instance : JsEnum NativeStatus where
  values := [.notStarted, .running, .interrupted, .completed, .failed, .unknown]
  text
    | .notStarted => "not_started"
    | .running => "running"
    | .interrupted => "interrupted"
    | .completed => "completed"
    | .failed => "failed"
    | .unknown => "unknown"
  complete := by rintro ⟨⟩ <;> simp
  injective := by rintro ⟨⟩ ⟨⟩ <;> simp

inductive ConstraintStatus
  | active | satisfied | waived
  deriving DecidableEq

instance : JsEnum ConstraintStatus where
  values := [.active, .satisfied, .waived]
  text
    | .active => "active"
    | .satisfied => "satisfied"
    | .waived => "waived"
  complete := by rintro ⟨⟩ <;> simp
  injective := by rintro ⟨⟩ ⟨⟩ <;> simp

/-- `WATCHDOG_SEMANTIC_STATES`. -/
inductive SemanticState
  | productive | blocked | reasoningOnly
  deriving DecidableEq

instance : JsEnum SemanticState where
  values := [.productive, .blocked, .reasoningOnly]
  text
    | .productive => "productive"
    | .blocked => "blocked"
    | .reasoningOnly => "reasoning_only"
  complete := by rintro ⟨⟩ <;> simp
  injective := by rintro ⟨⟩ ⟨⟩ <;> simp

/-! ## Sections -/

structure Task where
  id : TrimmedString
  project : TrimmedString
  goal : TrimmedString
  phase : TrimmedString
  status : TaskStatus
  deriving DecidableEq

structure Gates where
  completed : UniqueStrings
  «open» : UniqueStrings
  disjoint : ∀ gate ∈ completed.1, gate ∉ «open».1
  deriving DecidableEq

structure Workspace where
  path : TrimmedString
  gitSha : Option TrimmedString
  branch : Option TrimmedString
  deriving DecidableEq

structure Constraint where
  id : TrimmedString
  status : ConstraintStatus
  sourceRef : TrimmedString
  deriving DecidableEq

structure Approval where
  status : ApprovalStatus
  requestRefs : UniqueStrings
  deriving DecidableEq

structure Constraints where
  items : List Constraint
  approval : Approval
  unique : (items.map Constraint.id).Nodup
  deriving DecidableEq

structure Reference where
  id : TrimmedString
  kind : TrimmedString
  locator : TrimmedString
  digest : Option TrimmedString
  deriving DecidableEq

/-- References with distinct ids. -/
abbrev References := {l : List Reference // (l.map Reference.id).Nodup}

structure SemanticProgress where
  semanticState : SemanticState
  lastProductiveAt : Option JsString
  lastProductiveCursor : Option ℕ
  thinkingTokensSinceProductive : Option ℕ
  deriving DecidableEq

structure LastExecution where
  workerId : Option TrimmedString
  nativeSessionId : Option TrimmedString
  nativeStatus : NativeStatus
  deriving DecidableEq

structure NextAction where
  kind : TrimmedString
  gateId : Option TrimmedString
  inputRef : Option TrimmedString
  deriving DecidableEq

structure Continuation where
  nextAction : NextAction
  resumeCursor : TrimmedString
  retryCount : SafeNat
  safeToResume : Bool
  deriving DecidableEq

structure TaskCheckpoint where
  revision : SafeNat
  task : Task
  gates : Gates
  workspace : Workspace
  constraints : Constraints
  evidenceRefs : References
  receiptRefs : References
  handoffRefs : References
  semanticProgress : SemanticProgress
  lastExecution : LastExecution
  continuation : Continuation
  deriving DecidableEq

/-! ## Checkpoints as values -/

/-- A natural number or `null` as a value. -/
def ofNatOrNull : Option ℕ → JsValue
  | none => .null
  | some n => .nat n

def Task.toValue (t : Task) : JsValue :=
  .obj [("id", ofString t.id), ("project", ofString t.project), ("goal", ofString t.goal),
    ("phase", ofString t.phase), ("status", ofEnum t.status)]

def Gates.toValue (g : Gates) : JsValue :=
  .obj [("completed", ofStrings g.completed.1), ("open", ofStrings g.open.1)]

def Workspace.toValue (w : Workspace) : JsValue :=
  .obj [("path", ofString w.path), ("git_sha", ofNullable w.gitSha),
    ("branch", ofNullable w.branch)]

def Constraint.toValue (c : Constraint) : JsValue :=
  .obj [("id", ofString c.id), ("status", ofEnum c.status), ("source_ref", ofString c.sourceRef)]

def Approval.toValue (a : Approval) : JsValue :=
  .obj [("status", ofEnum a.status), ("request_refs", ofStrings a.requestRefs.1)]

def Constraints.toValue (c : Constraints) : JsValue :=
  .obj [("items", .arr (c.items.map Constraint.toValue)), ("approval", c.approval.toValue)]

def Reference.toValue (r : Reference) : JsValue :=
  .obj [("id", ofString r.id), ("kind", ofString r.kind), ("locator", ofString r.locator),
    ("digest", ofNullable r.digest)]

def ofReferences (l : References) : JsValue := .arr (l.1.map Reference.toValue)

def SemanticProgress.toValue (p : SemanticProgress) : JsValue :=
  .obj [("semantic_state", ofEnum p.semanticState),
    ("last_productive_at", .nullable p.lastProductiveAt),
    ("last_productive_cursor", ofNatOrNull p.lastProductiveCursor),
    ("thinking_tokens_since_productive", ofNatOrNull p.thinkingTokensSinceProductive)]

def LastExecution.toValue (e : LastExecution) : JsValue :=
  .obj [("worker_id", ofNullable e.workerId), ("native_session_id", ofNullable e.nativeSessionId),
    ("native_status", ofEnum e.nativeStatus)]

def NextAction.toValue (a : NextAction) : JsValue :=
  .obj [("kind", ofString a.kind), ("gate_id", ofNullable a.gateId),
    ("input_ref", ofNullable a.inputRef)]

/-- The properties of a validated continuation. -/
def Continuation.props (c : Continuation) : Props :=
  [("next_action", c.nextAction.toValue), ("resume_cursor", ofString c.resumeCursor),
    ("retry_count", .nat c.retryCount.1), ("safe_to_resume", .bool c.safeToResume)]

def Continuation.toValue (c : Continuation) : JsValue := .obj c.props

/-- The properties of a validated checkpoint. -/
def TaskCheckpoint.props (c : TaskCheckpoint) : Props :=
  [("checkpoint_version", .nat 1), ("revision", .nat c.revision.1), ("task", c.task.toValue),
    ("gates", c.gates.toValue), ("workspace", c.workspace.toValue),
    ("constraints", c.constraints.toValue), ("evidence_refs", ofReferences c.evidenceRefs),
    ("receipt_refs", ofReferences c.receiptRefs), ("handoff_refs", ofReferences c.handoffRefs),
    ("semantic_progress", c.semanticProgress.toValue),
    ("last_execution", c.lastExecution.toValue), ("continuation", c.continuation.toValue)]

def TaskCheckpoint.toValue (c : TaskCheckpoint) : JsValue := .obj c.props

/-! ## Semantic progress -/

/-- `value ?? null`. -/
def nullish (value : JsValue) : JsValue := if value = .undefined then .null else value

/-- `nonNegativeInteger(value, label)` of `reasoning-watchdog.mjs` under
    `integerOrNull`. -/
def integerOrNull (value : JsValue) (label : JsString) : Throws (Option ℕ) :=
  match value with
  | .null => .ok none
  | v =>
    match natural v with
    | some n => .ok (some n)
    | none => throwType (label ++ " must be a non-negative integer")

/-- `stringOrNull(value, label)` of `reasoning-watchdog.mjs`. -/
def textOrNull (value : JsValue) (label : JsString) : Throws (Option JsString) :=
  match value with
  | .null => .ok none
  | .str s => .ok (some s)
  | _ => throwType (label ++ " must be a string or null")

/-- `normalizeSemanticProgress(semanticProgress)`. -/
def normalizeSemanticProgress (semanticProgress : JsValue) : Throws SemanticProgress := do
  let source ← plainObject "semantic_progress must be an object" semanticProgress
  let state ← enumMember
    "semantic_progress.semantic_state must be productive, blocked, or reasoning_only"
    (prop source "semantic_state")
  let lastAt ← textOrNull (nullish (prop source "last_productive_at"))
    "semantic_progress.last_productive_at"
  let cursor ← integerOrNull (nullish (prop source "last_productive_cursor"))
    "semantic_progress.last_productive_cursor"
  let tokens ← integerOrNull (prop source "thinking_tokens_since_productive")
    "semantic_progress.thinking_tokens_since_productive"
  pure ⟨state, lastAt, cursor, tokens⟩

/-! ## Validation -/

/-- `reference(value, label)`. -/
def reference (value : JsValue) (label : JsString) : Throws Reference := do
  let source ← object value label
  exactKeys source ["id", "kind", "locator", "digest"] label
  let id ← string (prop source "id") (label ++ ".id")
  let kind ← string (prop source "kind") (label ++ ".kind")
  let locator ← string (prop source "locator") (label ++ ".locator")
  let digest ← stringOrNull (prop source "digest") (label ++ ".digest")
  pure ⟨id, kind, locator, digest⟩

/-- `references(value, label)`. -/
def references (value : JsValue) (label : JsString) : Throws References := do
  let items ← array (label ++ " must be an array") value
  let result ← mapItems reference label 0 items
  let ⟨h⟩ ← require (result.map Reference.id).Nodup (label ++ " ids must be unique")
  pure ⟨result, h⟩

/-- `constraint(value, label)`. -/
def constraint (value : JsValue) (label : JsString) : Throws Constraint := do
  let source ← object value label
  exactKeys source ["id", "status", "source_ref"] label
  let id ← string (prop source "id") (label ++ ".id")
  let status ← enumValue (prop source "status") (label ++ ".status")
  let sourceRef ← string (prop source "source_ref") (label ++ ".source_ref")
  pure ⟨id, status, sourceRef⟩

/-- The keys of a checkpoint. -/
def checkpointKeys : List JsString :=
  ["checkpoint_version", "revision", "task", "gates", "workspace", "constraints", "evidence_refs",
    "receipt_refs", "handoff_refs", "semantic_progress", "last_execution", "continuation"]

/-- A non-negative safe integer. -/
def safeInteger (value : JsValue) (label : JsString) : Throws SafeNat :=
  naturalWith (· ≤ maxSafeInteger) (label ++ " must be a non-negative safe integer") value

/-- `validateTaskCheckpoint(checkpoint)`. -/
def validateTaskCheckpoint (checkpoint : JsValue) : Throws TaskCheckpoint := do
  let source ← object checkpoint "checkpoint"
  exactKeys source checkpointKeys "checkpoint"
  let _ ← require (prop source "checkpoint_version" = .nat 1)
    "checkpoint.checkpoint_version is unsupported"
  let revision ← safeInteger (prop source "revision") "checkpoint.revision"
  let task ← object (prop source "task") "checkpoint.task"
  exactKeys task ["id", "project", "goal", "phase", "status"] "checkpoint.task"
  let gates ← object (prop source "gates") "checkpoint.gates"
  exactKeys gates ["completed", "open"] "checkpoint.gates"
  let completed ← strings (prop gates "completed") "checkpoint.gates.completed"
  let opened ← strings (prop gates "open") "checkpoint.gates.open"
  let ⟨disjoint⟩ ← require (∀ gate ∈ completed.1, gate ∉ opened.1)
    "completed and open gates must be disjoint"
  let workspace ← object (prop source "workspace") "checkpoint.workspace"
  exactKeys workspace ["path", "git_sha", "branch"] "checkpoint.workspace"
  let constraints ← object (prop source "constraints") "checkpoint.constraints"
  exactKeys constraints ["items", "approval"] "checkpoint.constraints"
  let rawItems ← array "checkpoint.constraints.items must be an array" (prop constraints "items")
  let items ← mapItems constraint "checkpoint.constraints.items" 0 rawItems
  let ⟨unique⟩ ← require (items.map Constraint.id).Nodup "constraint ids must be unique"
  let approval ← object (prop constraints "approval") "checkpoint.constraints.approval"
  exactKeys approval ["status", "request_refs"] "checkpoint.constraints.approval"
  let execution ← object (prop source "last_execution") "checkpoint.last_execution"
  exactKeys execution ["worker_id", "native_session_id", "native_status"]
    "checkpoint.last_execution"
  let semanticProgress ← object (prop source "semantic_progress") "checkpoint.semantic_progress"
  exactKeys semanticProgress ["semantic_state", "last_productive_at", "last_productive_cursor",
    "thinking_tokens_since_productive"] "checkpoint.semantic_progress"
  let continuation ← object (prop source "continuation") "checkpoint.continuation"
  exactKeys continuation ["next_action", "resume_cursor", "retry_count", "safe_to_resume"]
    "checkpoint.continuation"
  let nextAction ← object (prop continuation "next_action") "checkpoint.continuation.next_action"
  exactKeys nextAction ["kind", "gate_id", "input_ref"] "checkpoint.continuation.next_action"
  let retryCount ← safeInteger (prop continuation "retry_count")
    "checkpoint.continuation.retry_count"
  let safeToResume ← boolean "checkpoint.continuation.safe_to_resume must be a boolean"
    (prop continuation "safe_to_resume")
  -- the fields of the returned literal, in the order in which it evaluates them
  let taskId ← string (prop task "id") "checkpoint.task.id"
  let project ← string (prop task "project") "checkpoint.task.project"
  let goal ← string (prop task "goal") "checkpoint.task.goal"
  let phase ← string (prop task "phase") "checkpoint.task.phase"
  let status ← enumValue (prop task "status") "checkpoint.task.status"
  let path ← string (prop workspace "path") "checkpoint.workspace.path"
  let gitSha ← stringOrNull (prop workspace "git_sha") "checkpoint.workspace.git_sha"
  let branch ← stringOrNull (prop workspace "branch") "checkpoint.workspace.branch"
  let approvalStatus ← enumValue (prop approval "status") "checkpoint.constraints.approval.status"
  let requestRefs ← strings (prop approval "request_refs")
    "checkpoint.constraints.approval.request_refs"
  let evidenceRefs ← references (prop source "evidence_refs") "checkpoint.evidence_refs"
  let receiptRefs ← references (prop source "receipt_refs") "checkpoint.receipt_refs"
  let handoffRefs ← references (prop source "handoff_refs") "checkpoint.handoff_refs"
  let progress ← normalizeSemanticProgress (.obj semanticProgress)
  let workerId ← stringOrNull (prop execution "worker_id") "checkpoint.last_execution.worker_id"
  let sessionId ← stringOrNull (prop execution "native_session_id")
    "checkpoint.last_execution.native_session_id"
  let nativeStatus ← enumValue (prop execution "native_status")
    "checkpoint.last_execution.native_status"
  let kind ← string (prop nextAction "kind") "checkpoint.continuation.next_action.kind"
  let gateId ← stringOrNull (prop nextAction "gate_id")
    "checkpoint.continuation.next_action.gate_id"
  let inputRef ← stringOrNull (prop nextAction "input_ref")
    "checkpoint.continuation.next_action.input_ref"
  let resumeCursor ← string (prop continuation "resume_cursor")
    "checkpoint.continuation.resume_cursor"
  pure
    { revision
      task := ⟨taskId, project, goal, phase, status⟩
      gates := ⟨completed, opened, disjoint⟩
      workspace := ⟨path, gitSha, branch⟩
      constraints := ⟨items, ⟨approvalStatus, requestRefs⟩, unique⟩
      evidenceRefs
      receiptRefs
      handoffRefs
      semanticProgress := progress
      lastExecution := ⟨workerId, sessionId, nativeStatus⟩
      continuation := ⟨⟨kind, gateId, inputRef⟩, resumeCursor, retryCount, safeToResume⟩ }

end Wns
