import Wns.Recovery.CrossWorkerRecovery

/-!
# Resume preflight

Model of `supervisor-policy/resume-preflight.mjs`. The schema check of a plan leaves its
nested sections unread, so the preflight reads them from the value it was given;
`SpawnPlan` is what it reads when the sections have their types.

* `evaluateResumePreflight_eq`: on such a plan the answer is that of the first failing
  stage, or `pass`.
* `evaluateResumePreflight_allowed`: the preflight passes iff every guard does.
-/

namespace Wns.Recovery

open Ecma

/-! ## Enumerations -/

/-- `PREFLIGHT_DECISIONS`. -/
inductive PreflightDecision
  | pass | staleReplan | recoveryRequired | humanRequired | alreadyCompleted
  deriving DecidableEq

/-- `PREFLIGHT_REASONS`. -/
inductive PreflightReason
  | safeToExecute | taskMismatch | staleRevision | taskNotOpen | unsafeToResume | approvalBlocked
  | humanBlock | safetyBlock | workspacePathMismatch | workspaceShaMismatch
  | workspaceBranchMismatch | gateAlreadyCompleted | gateNotOpen | completedGatesDrift
  | requiredRefsDrift | duplicateClaim | effectUnknown | effectAlreadyApplied | effectKindUnknown
  deriving DecidableEq

/-- `EFFECT_KINDS`. -/
inductive EffectKind
  | none | readOnly | mutating | unknown
  deriving DecidableEq

instance : JsEnum EffectKind where
  values := [.none, .readOnly, .mutating, .unknown]
  text
    | .none => "none"
    | .readOnly => "read_only"
    | .mutating => "mutating"
    | .unknown => "unknown"
  complete := by rintro ⟨⟩ <;> simp
  injective := by rintro ⟨⟩ ⟨⟩ <;> simp

/-- `EFFECT_STATUSES`. -/
inductive EffectStatus
  | none | knownNotApplied | applied | unknown
  deriving DecidableEq

instance : JsEnum EffectStatus where
  values := [.none, .knownNotApplied, .applied, .unknown]
  text
    | .none => "none"
    | .knownNotApplied => "known_not_applied"
    | .applied => "applied"
    | .unknown => "unknown"
  complete := by rintro ⟨⟩ <;> simp
  injective := by rintro ⟨⟩ ⟨⟩ <;> simp

/-- `HUMAN_BLOCKS`. -/
inductive HumanBlock
  | none | humanRequired | safetyBlock
  deriving DecidableEq

instance : JsEnum HumanBlock where
  values := [.none, .humanRequired, .safetyBlock]
  text
    | .none => "none"
    | .humanRequired => "human_required"
    | .safetyBlock => "safety_block"
  complete := by rintro ⟨⟩ <;> simp
  injective := by rintro ⟨⟩ ⟨⟩ <;> simp

/-! ## Inputs -/

structure RuntimeFacts where
  workspace : Workspace
  humanBlock : HumanBlock
  effectKind : EffectKind
  effectStatus : EffectStatus
  priorClaimKeys : UniqueStrings

/-- `PLAN_KEYS`. -/
def planKeys : List JsString :=
  ["planned", "reason_code", "plan_version", "action", "claim_key", "task_id",
    "checkpoint_revision", "source_worker_id", "source_native_session_id",
    "target_native_session_id", "next_action", "resume_cursor", "retry_count_before",
    "retry_count_after", "retry_limit", "workspace", "gates", "constraints", "evidence_refs",
    "receipt_refs", "handoff_refs", "semantic_progress"]

/-- `target_worker_id` of a cross-worker plan. -/
def planTarget (value : Props) : Throws (Option TrimmedString) :=
  if prop value "action" = .str "spawn_cross_worker" then
    some <$> string (prop value "target_worker_id") "plan.target_worker_id"
  else .ok none

/-- `normalizePlan(plan)`. -/
def normalizePlan (plan : JsValue) : Throws Props := do
  let value ← object plan "plan"
  let crossWorker := prop value "action" = .str "spawn_cross_worker"
  exactKeys value (if crossWorker then planKeys ++ [js "target_worker_id"] else planKeys) "plan"
  let _ ← require (prop value "planned" = .bool true ∧ prop value "plan_version" = .nat 1 ∧
    (crossWorker ∨ prop value "action" = .str "spawn_same_worker") ∧
    prop value "target_native_session_id" = .null) "plan must be an executable ASR-3/5 spawn plan"
  let target ← planTarget value
  let _ ← require (∀ worker ∈ target, ofString worker ≠ prop value "source_worker_id")
    "cross-worker plan target must differ from source worker"
  let _ ← string (prop value "claim_key") "plan.claim_key"
  let _ ← string (prop value "task_id") "plan.task_id"
  let _ ← safeInteger (prop value "checkpoint_revision") "plan.checkpoint_revision"
  let _ ← object (prop value "next_action") "plan.next_action"
  pure value

/-- `normalizeFacts(facts)`. -/
def normalizeFacts (facts : JsValue) : Throws RuntimeFacts := do
  let value ← object facts "runtime_facts"
  exactKeys value ["workspace", "human_block", "effect"] "runtime_facts"
  let workspace ← object (prop value "workspace") "runtime_facts.workspace"
  exactKeys workspace ["path", "git_sha", "branch"] "runtime_facts.workspace"
  let effect ← object (prop value "effect") "runtime_facts.effect"
  exactKeys effect ["kind", "status", "prior_claim_keys"] "runtime_facts.effect"
  let path ← string (prop workspace "path") "runtime_facts.workspace.path"
  let gitSha ← stringOrNull (prop workspace "git_sha") "runtime_facts.workspace.git_sha"
  let branch ← stringOrNull (prop workspace "branch") "runtime_facts.workspace.branch"
  let humanBlock ← enumValue (prop value "human_block") "runtime_facts.human_block"
  let effectKind ← enumValue (prop effect "kind") "runtime_facts.effect.kind"
  let effectStatus ← enumValue (prop effect "status") "runtime_facts.effect.status"
  let priorClaimKeys ← strings (prop effect "prior_claim_keys")
    "runtime_facts.effect.prior_claim_keys"
  pure ⟨⟨path, gitSha, branch⟩, humanBlock, effectKind, effectStatus, priorClaimKeys⟩

/-! ## Evaluation -/

structure Preflight where
  decision : PreflightDecision
  reasonCode : PreflightReason
  executionAllowed : Bool
  deriving DecidableEq

/-- `decision(value, reason_code)`. -/
def decision (value : PreflightDecision) (reasonCode : PreflightReason) : Preflight :=
  ⟨value, reasonCode, value = .pass⟩

/-- `same(left, right)`. -/
def same (left right : JsValue) : Bool := stringify left = stringify right

/-- `refsPresent(required, current)`. -/
def refsPresent (required : JsValue) (current : References) : Throws Bool :=
  match required with
  | .arr items => .ok (items.all fun reference =>
      current.1.any fun candidate => same candidate.toValue reference)
  | .undefined => throwType "Cannot read properties of undefined (reading 'every')"
  | .null => throwType "Cannot read properties of null (reading 'every')"
  | _ => throwType "required.every is not a function"

/-- `fact !== current || fact !== plan.workspace[key]`. -/
def workspaceDiffers (plan : Props) (key : JsString) (fact current : JsValue) : Throws Bool :=
  if fact ≠ current then .ok true
  else do
    let planned ← getMember (prop plan "workspace") key
    pure (fact ≠ planned)

/-- The same for the branch, which is not compared when the checkpoint has none. -/
def branchDiffers (state : TaskCheckpoint) (plan : Props) (facts : RuntimeFacts) : Throws Bool :=
  if state.workspace.branch = none then .ok false
  else
    workspaceDiffers plan "branch" (ofNullable facts.workspace.branch)
      (ofNullable state.workspace.branch)

/-- Whether some reference that the plan requires is missing. -/
def referencesDrift (state : TaskCheckpoint) (plan : Props) : Throws Bool := do
  let evidence ← refsPresent (prop plan "evidence_refs") state.evidenceRefs
  if evidence = false then pure true
  else
    let receipts ← refsPresent (prop plan "receipt_refs") state.receiptRefs
    if receipts = false then pure true
    else
      let handoffs ← refsPresent (prop plan "handoff_refs") state.handoffRefs
      pure (handoffs = false)

/-- The checks of the effect, last in the order of precedence. -/
def effectDecision (plan : Props) (facts : RuntimeFacts) : Preflight :=
  if prop plan "claim_key" ∈ facts.priorClaimKeys.1.map ofString then
    decision .alreadyCompleted .duplicateClaim
  else if facts.effectKind = .unknown then decision .recoveryRequired .effectKindUnknown
  else if facts.effectStatus = .unknown then decision .recoveryRequired .effectUnknown
  else if facts.effectStatus = .applied ∧ facts.effectKind = .mutating then
    decision .alreadyCompleted .effectAlreadyApplied
  else decision .pass .safeToExecute

/-- The checks of the next gate and of what must have survived, up to the effect. -/
def continuityDecision (state : TaskCheckpoint) (plan : Props) (facts : RuntimeFacts) :
    Throws Preflight := do
  let gateId ← getMember (prop plan "next_action") "gate_id"
  if gateId ∈ state.gates.completed.1.map ofString then
    pure (decision .alreadyCompleted .gateAlreadyCompleted)
  else if gateId ∉ state.gates.open.1.map ofString then pure (decision .staleReplan .gateNotOpen)
  else
    let completed ← getMember (prop plan "gates") "completed"
    if same completed (ofStrings state.gates.completed.1) = false then
      pure (decision .staleReplan .completedGatesDrift)
    else
      let drift ← referencesDrift state plan
      if drift then pure (decision .recoveryRequired .requiredRefsDrift)
      else pure (effectDecision plan facts)

/-- `evaluateResumePreflight({ checkpoint, plan, runtime_facts })`. -/
def evaluateResumePreflight (checkpoint plan runtimeFacts : JsValue) : Throws Preflight := do
  let state ← validateTaskCheckpoint checkpoint
  let plan ← normalizePlan plan
  let facts ← normalizeFacts runtimeFacts
  if prop plan "task_id" ≠ ofString state.task.id then
    pure (decision .staleReplan .taskMismatch)
  else if prop plan "checkpoint_revision" ≠ .nat state.revision.1 then
    pure (decision .staleReplan .staleRevision)
  else if state.task.status ≠ .open then pure (decision .staleReplan .taskNotOpen)
  else if state.continuation.safeToResume = false then
    pure (decision .recoveryRequired .unsafeToResume)
  else if approvalBlocks state then pure (decision .humanRequired .approvalBlocked)
  else if facts.humanBlock = .safetyBlock then pure (decision .humanRequired .safetyBlock)
  else if facts.humanBlock = .humanRequired then pure (decision .humanRequired .humanBlock)
  else do
    let path ← workspaceDiffers plan "path" (ofString facts.workspace.path)
      (ofString state.workspace.path)
    if path = true then pure (decision .recoveryRequired .workspacePathMismatch)
    else do
      let gitSha ← workspaceDiffers plan "git_sha" (ofNullable facts.workspace.gitSha)
        (ofNullable state.workspace.gitSha)
      if gitSha = true then pure (decision .recoveryRequired .workspaceShaMismatch)
      else do
        let branch ← branchDiffers state plan facts
        if branch = true then pure (decision .recoveryRequired .workspaceBranchMismatch)
        else continuityDecision state plan facts

/-! ## What the preflight reads of a plan -/

/-- The parts of a spawn plan that the preflight looks at. -/
structure SpawnPlan where
  taskId : TrimmedString
  checkpointRevision : SafeNat
  claimKey : TrimmedString
  gateId : JsValue
  workspace : Props
  completed : JsValue
  evidenceRefs : List JsValue
  receiptRefs : List JsValue
  handoffRefs : List JsValue

/-- The properties `plan` have sections of the expected types, read as `p`. -/
structure SpawnPlan.Reads (p : SpawnPlan) (plan : Props) : Prop where
  taskId : prop plan "task_id" = ofString p.taskId
  checkpointRevision : prop plan "checkpoint_revision" = .nat p.checkpointRevision.1
  claimKey : prop plan "claim_key" = ofString p.claimKey
  gateId : ∃ nextAction, prop plan "next_action" = .obj nextAction ∧
    prop nextAction "gate_id" = p.gateId
  workspace : prop plan "workspace" = .obj p.workspace
  completed : ∃ gates, prop plan "gates" = .obj gates ∧ prop gates "completed" = p.completed
  evidenceRefs : prop plan "evidence_refs" = .arr p.evidenceRefs
  receiptRefs : prop plan "receipt_refs" = .arr p.receiptRefs
  handoffRefs : prop plan "handoff_refs" = .arr p.handoffRefs

/-- Every required reference has the JSON text of a current one. -/
def RefsPresent (required : List JsValue) (current : References) : Prop :=
  ∀ r ∈ required, ∃ c ∈ current.1, stringify c.toValue = stringify r

instance (required : List JsValue) (current : References) :
    Decidable (RefsPresent required current) :=
  inferInstanceAs (Decidable (∀ r ∈ required, ∃ c ∈ current.1, _))

/-- A condition, and the answer where it is the first one to fail. -/
structure Stage where
  holds : Bool
  decision : PreflightDecision
  reason : PreflightReason

/-- The answer of the first failing stage, or `pass`. -/
def firstFailing : List Stage → Preflight
  | [] => decision .pass .safeToExecute
  | s :: ss => if s.holds then firstFailing ss else decision s.decision s.reason

/-- The stages of the preflight, in the order of precedence of the contract. Whether the
    completed gates agree is given as `agree`. -/
def preflightStages (c : TaskCheckpoint) (p : SpawnPlan) (f : RuntimeFacts) (agree : Bool) :
    List Stage :=
  [⟨p.taskId = c.task.id, .staleReplan, .taskMismatch⟩,
    ⟨p.checkpointRevision = c.revision, .staleReplan, .staleRevision⟩,
    ⟨c.task.status = .open, .staleReplan, .taskNotOpen⟩,
    ⟨c.continuation.safeToResume, .recoveryRequired, .unsafeToResume⟩,
    ⟨¬ approvalBlocks c, .humanRequired, .approvalBlocked⟩,
    ⟨f.humanBlock ≠ .safetyBlock, .humanRequired, .safetyBlock⟩,
    ⟨f.humanBlock ≠ .humanRequired, .humanRequired, .humanBlock⟩,
    ⟨f.workspace.path = c.workspace.path ∧ prop p.workspace "path" = ofString f.workspace.path,
      .recoveryRequired, .workspacePathMismatch⟩,
    ⟨f.workspace.gitSha = c.workspace.gitSha ∧
      prop p.workspace "git_sha" = ofNullable f.workspace.gitSha,
      .recoveryRequired, .workspaceShaMismatch⟩,
    ⟨c.workspace.branch ≠ none → f.workspace.branch = c.workspace.branch ∧
      prop p.workspace "branch" = ofNullable f.workspace.branch,
      .recoveryRequired, .workspaceBranchMismatch⟩,
    ⟨∀ gate ∈ c.gates.completed.1, p.gateId ≠ ofString gate,
      .alreadyCompleted, .gateAlreadyCompleted⟩,
    ⟨∃ gate ∈ c.gates.open.1, p.gateId = ofString gate, .staleReplan, .gateNotOpen⟩,
    ⟨agree, .staleReplan, .completedGatesDrift⟩,
    ⟨RefsPresent p.evidenceRefs c.evidenceRefs ∧ RefsPresent p.receiptRefs c.receiptRefs ∧
      RefsPresent p.handoffRefs c.handoffRefs, .recoveryRequired, .requiredRefsDrift⟩,
    ⟨p.claimKey ∉ f.priorClaimKeys.1, .alreadyCompleted, .duplicateClaim⟩,
    ⟨f.effectKind ≠ .unknown, .recoveryRequired, .effectKindUnknown⟩,
    ⟨f.effectStatus ≠ .unknown, .recoveryRequired, .effectUnknown⟩,
    ⟨¬ (f.effectStatus = .applied ∧ f.effectKind = .mutating), .alreadyCompleted,
      .effectAlreadyApplied⟩]

section

variable {c : TaskCheckpoint} {plan : Props} {p : SpawnPlan} {f : RuntimeFacts}

theorem workspaceDiffers_eq (hp : p.Reads plan) (key : JsString) (fact current : JsValue) :
    workspaceDiffers plan key fact current =
      .ok (decide (¬ (fact = current ∧ prop p.workspace key = fact))) := by
  unfold workspaceDiffers
  rw [hp.workspace, getMember]
  by_cases h : fact = current
  · simp [h, bind, Except.bind, pure, Except.pure, eq_comm]
  · simp [h]

theorem refsPresent_eq (required : List JsValue) (current : References) :
    refsPresent (.arr required) current = .ok (decide (RefsPresent required current)) := by
  rw [refsPresent, Except.ok.injEq, Bool.eq_iff_iff, decide_eq_true_iff]
  simp [RefsPresent, same]

theorem branchDiffers_eq (hp : p.Reads plan) : branchDiffers c plan f = .ok (decide
    (¬ (c.workspace.branch ≠ none → f.workspace.branch = c.workspace.branch ∧
      prop p.workspace "branch" = ofNullable f.workspace.branch))) := by
  unfold branchDiffers
  split_ifs with h
  · simp [h]
  · rw [workspaceDiffers_eq hp]
    simp [h]

theorem referencesDrift_eq (hp : p.Reads plan) : referencesDrift c plan = .ok (decide
    (¬ (RefsPresent p.evidenceRefs c.evidenceRefs ∧ RefsPresent p.receiptRefs c.receiptRefs ∧
      RefsPresent p.handoffRefs c.handoffRefs))) := by
  simp only [referencesDrift, hp.evidenceRefs, hp.receiptRefs, hp.handoffRefs, refsPresent_eq]
  by_cases h1 : RefsPresent p.evidenceRefs c.evidenceRefs <;>
    by_cases h2 : RefsPresent p.receiptRefs c.receiptRefs <;>
    simp [h1, h2, bind, Except.bind, pure, Except.pure]

/-- One branch of the code is one stage of the list. -/
theorem branch_eq {α : Type} {failing : Prop} [Decidable failing] {holds : Bool}
    {rest next answer : α} (h : failing ↔ holds = false) (hrest : holds = true → rest = next) :
    (if failing then answer else rest) = if holds then next else answer := by
  cases holds with
  | false => rw [if_pos (h.mpr rfl), if_neg Bool.false_ne_true]
  | true => rw [if_neg (by simp [h]), if_pos rfl, hrest rfl]

theorem stage_eq {failing : Prop} [Decidable failing] {holds : Bool} {rest : Throws Preflight}
    {next answer : Preflight} (h : failing ↔ holds = false)
    (hrest : holds = true → rest = .ok next) :
    (if failing then pure answer else rest) = .ok (if holds then next else answer) := by
  rw [branch_eq h hrest, apply_ite Except.ok]
  rfl

theorem effectDecision_eq (hp : p.Reads plan) : effectDecision plan f = firstFailing
    ((preflightStages c p f true).drop 14) := by
  simp only [effectDecision, hp.claimKey, preflightStages, List.drop_succ_cons, List.drop_zero,
    firstFailing]
  refine branch_eq ?_ fun _ => branch_eq ?_ fun _ => branch_eq ?_ fun _ => branch_eq ?_ fun _ => rfl
  all_goals simp

theorem continuityDecision_eq (hp : p.Reads plan) : continuityDecision c plan f = .ok (firstFailing
    ((preflightStages c p f (same p.completed (ofStrings c.gates.completed.1))).drop 10)) := by
  obtain ⟨nextAction, hnext, hgate⟩ := hp.gateId
  obtain ⟨gates, hgates, hcompleted⟩ := hp.completed
  simp only [continuityDecision, hnext, hgates, getMember, hgate, hcompleted, ok_bind,
    referencesDrift_eq hp]
  refine stage_eq ?_ fun _ => stage_eq ?_ fun _ => stage_eq Iff.rfl fun _ => stage_eq ?_ fun _ => ?_
  · simp [-Subtype.exists, -Subtype.forall, eq_comm]
  · simp [-Subtype.exists, -Subtype.forall, eq_comm]
  · simp only [decide_eq_true_eq, decide_eq_false_iff_not]
  · rw [effectDecision_eq (c := c) hp]
    rfl

/-- On a plan whose sections have their types, the answer is that of the first failing
    stage. -/
theorem evaluateResumePreflight_eq {checkpoint rawPlan rawFacts : JsValue}
    (hc : validateTaskCheckpoint checkpoint = .ok c) (hplan : normalizePlan rawPlan = .ok plan)
    (hf : normalizeFacts rawFacts = .ok f) (hp : p.Reads plan) :
    evaluateResumePreflight checkpoint rawPlan rawFacts = .ok (firstFailing
      (preflightStages c p f (same p.completed (ofStrings c.gates.completed.1)))) := by
  simp only [evaluateResumePreflight, hc, hplan, hf, ok_bind, hp.taskId, hp.checkpointRevision]
  refine stage_eq (by simp) fun _ => stage_eq (by simp [Subtype.ext_iff]) fun _ =>
    stage_eq (by simp) fun _ => stage_eq (by simp) fun _ => stage_eq (by simp) fun _ =>
    stage_eq (by simp) fun _ => stage_eq (by simp) fun _ => ?_
  rw [workspaceDiffers_eq hp, ok_bind]
  refine stage_eq (by simp only [decide_eq_true_eq, decide_eq_false_iff_not, ofString_inj])
    fun _ => ?_
  rw [workspaceDiffers_eq hp, ok_bind]
  refine stage_eq (by simp only [decide_eq_true_eq, decide_eq_false_iff_not, ofNullable_inj])
    fun _ => ?_
  rw [branchDiffers_eq hp, ok_bind]
  exact stage_eq (by simp only [decide_eq_true_eq, decide_eq_false_iff_not])
    fun _ => continuityDecision_eq hp

theorem firstFailing_allowed {stages : List Stage} (h : ∀ s ∈ stages, s.decision ≠ .pass) :
    (firstFailing stages).executionAllowed = true ↔ ∀ s ∈ stages, s.holds = true := by
  induction stages with
  | nil => simp [firstFailing, decision]
  | cons s ss ih =>
    have ih := ih fun s hs => h s (List.mem_cons_of_mem _ hs)
    cases hs : s.holds <;> simp_all [firstFailing, decision]

/-- The guards of the preflight but for those on the effect itself. -/
structure ReadyToResume (c : TaskCheckpoint) (p : SpawnPlan) (f : RuntimeFacts)
    (completedAgree : Prop) : Prop where
  task : p.taskId = c.task.id
  revision : p.checkpointRevision = c.revision
  taskOpen : c.task.status = .open
  safeToResume : c.continuation.safeToResume = true
  approval : c.constraints.approval.status ≠ .pending ∧
    c.constraints.approval.status ≠ .rejected
  humanBlock : f.humanBlock = .none
  path : f.workspace.path = c.workspace.path ∧
    prop p.workspace "path" = ofString f.workspace.path
  gitSha : f.workspace.gitSha = c.workspace.gitSha ∧
    prop p.workspace "git_sha" = ofNullable f.workspace.gitSha
  branch : c.workspace.branch ≠ none → f.workspace.branch = c.workspace.branch ∧
    prop p.workspace "branch" = ofNullable f.workspace.branch
  gate : ∃ gate ∈ c.gates.open.1, p.gateId = ofString gate
  completed : completedAgree
  evidence : RefsPresent p.evidenceRefs c.evidenceRefs
  receipts : RefsPresent p.receiptRefs c.receiptRefs
  handoffs : RefsPresent p.handoffRefs c.handoffRefs
  claim : p.claimKey ∉ f.priorClaimKeys.1

/-- The guards of the preflight. -/
structure SafeToExecute (c : TaskCheckpoint) (p : SpawnPlan) (f : RuntimeFacts)
    (completedAgree : Prop) : Prop extends ReadyToResume c p f completedAgree where
  kindKnown : f.effectKind ≠ .unknown
  statusKnown : f.effectStatus ≠ .unknown
  notApplied : ¬ (f.effectStatus = .applied ∧ f.effectKind = .mutating)

/-- Every stage holds iff it is safe to execute. -/
theorem preflightStages_hold {agree : Bool} :
    (∀ s ∈ preflightStages c p f agree, s.holds = true) ↔ SafeToExecute c p f (agree = true) := by
  simp only [preflightStages, List.forall_mem_cons, decide_eq_true_eq, List.not_mem_nil,
    false_implies, implies_true, and_true]
  constructor
  · rintro ⟨h1, h2, h3, h4, h5, h6, h7, h8, h9, h10, h11, h12, h13, ⟨h14, h15, h16⟩, h17, h18, h19,
      h20⟩
    exact ⟨⟨h1, h2, h3, h4, not_or.mp h5, by cases h : f.humanBlock <;> simp_all, h8, h9, h10, h12,
      h13, h14, h15, h16, h17⟩, h18, h19, h20⟩
  · intro ⟨⟨h1, h2, h3, h4, h5, h6, h8, h9, h10, h12, h13, h14, h15, h16, h17⟩, h18, h19, h20⟩
    refine ⟨h1, h2, h3, h4, not_or.mpr h5, by simp [h6], by simp [h6], h8, h9, h10, ?_, h12, h13,
      ⟨h14, h15, h16⟩, h17, h18, h19, h20⟩
    -- an open gate is not a completed one
    intro gate hgate heq
    obtain ⟨opened, hopened, heq'⟩ := h12
    obtain rfl := ofString_inj.mp (heq.symm.trans heq')
    exact c.gates.disjoint gate hgate hopened

theorem preflightStages_decision {agree : Bool} :
    ∀ s ∈ preflightStages c p f agree, s.decision ≠ .pass := by
  simp [preflightStages]

/-- Arrays of strings have the same JSON text iff they list the same strings. -/
theorem same_strings {strings : List JsString} {l : List TrimmedString} :
    same (.arr (strings.map .str)) (ofStrings l) = true ↔ strings = l.map Subtype.val := by
  constructor
  · intro h
    have h : jsonText (.arr (strings.map .str)) = jsonText (ofStrings l) := by
      simpa [same, stringify, ofStrings] using h
    have hj : IsJson (.arr (strings.map .str)) := isJson_arr.mpr fun v hv => by
      obtain ⟨s, -, rfl⟩ := List.mem_map.mp hv
      exact .str s
    have heq := jsonEq_ofStrings.mp (jsonEq_of_jsonText hj (isJson_ofStrings l) h)
    rw [ofStrings, JsValue.arr.injEq] at heq
    have hinj : Function.Injective (List.map JsValue.str) :=
      List.map_injective_iff.mpr fun _ _ => JsValue.str.inj
    exact hinj (heq.trans (List.map_map ..).symm)
  · rintro rfl
    simp [same, ofStrings, ofString]

/-- **The preflight is exact.** On a plan whose sections have their types, execution is allowed
    iff it is safe, and otherwise the first failing stage is the answer. -/
theorem resumePreflight_exact {checkpoint rawPlan rawFacts : JsValue} {completed : List JsString}
    (hc : validateTaskCheckpoint checkpoint = .ok c) (hplan : normalizePlan rawPlan = .ok plan)
    (hf : normalizeFacts rawFacts = .ok f) (hp : p.Reads plan)
    (hcompleted : p.completed = .arr (completed.map .str)) :
    ∃ r, evaluateResumePreflight checkpoint rawPlan rawFacts = .ok r ∧
      (r.executionAllowed = true ↔
        SafeToExecute c p f (completed = c.gates.completed.1.map Subtype.val)) ∧
      r = firstFailing
        (preflightStages c p f (completed = c.gates.completed.1.map Subtype.val)) := by
  have hagree : same p.completed (ofStrings c.gates.completed.1) =
      decide (completed = c.gates.completed.1.map Subtype.val) := by
    rw [hcompleted, Bool.eq_iff_iff, same_strings, decide_eq_true_iff]
  refine ⟨_, evaluateResumePreflight_eq hc hplan hf hp, ?_, by rw [hagree]⟩
  rw [firstFailing_allowed preflightStages_decision, preflightStages_hold, hagree,
    decide_eq_true_iff]

/-- What the preflight reads of an issued plan. -/
def spawnPlan (p : PlanBody) (claimKey : TrimmedString) : SpawnPlan where
  taskId := p.taskId
  checkpointRevision := p.checkpointRevision
  claimKey
  gateId := ofNullable p.nextAction.gateId
  workspace := [("path", ofString p.workspace.path), ("git_sha", ofNullable p.workspace.gitSha),
    ("branch", ofNullable p.workspace.branch)]
  completed := ofStrings p.gates.completed.1
  evidenceRefs := p.evidenceRefs.1.map Reference.toValue
  receiptRefs := p.receiptRefs.1.map Reference.toValue
  handoffRefs := p.handoffRefs.1.map Reference.toValue

theorem PlanBody.CarriedBy.reads {p : PlanBody} {claimKey : TrimmedString} (hp : p.CarriedBy plan)
    (h : p.claimKey = claimKey.1) : (spawnPlan p claimKey).Reads plan where
  taskId := hp.taskId
  checkpointRevision := hp.checkpointRevision
  claimKey := by
    rw [hp.claimKey, h]
    rfl
  gateId := ⟨_, hp.nextAction, by simp [spawnPlan]⟩
  workspace := hp.workspace
  completed := ⟨_, hp.gates, by simp [spawnPlan]⟩
  evidenceRefs := hp.evidenceRefs
  receiptRefs := hp.receiptRefs
  handoffRefs := hp.handoffRefs

/-- What `normalizePlan` requires of the properties of a plan. -/
structure PlanSchema (plan : Props) : Prop where
  keys : HasKeys plan (if prop plan "action" = .str "spawn_cross_worker" then
    planKeys ++ [js "target_worker_id"] else planKeys)
  planned : prop plan "planned" = .bool true ∧ prop plan "plan_version" = .nat 1 ∧
    (prop plan "action" = .str "spawn_cross_worker" ∨
      prop plan "action" = .str "spawn_same_worker") ∧
    prop plan "target_native_session_id" = .null
  target : ∃ target, planTarget plan = .ok target ∧
    ∀ worker ∈ target, ofString worker ≠ prop plan "source_worker_id"
  claimKey : ∃ key : TrimmedString, prop plan "claim_key" = ofString key
  taskId : ∃ id : TrimmedString, prop plan "task_id" = ofString id
  revision : ∃ n : SafeNat, prop plan "checkpoint_revision" = .nat n.1
  nextAction : ∃ nextAction, prop plan "next_action" = .obj nextAction

theorem normalizePlan_eq_ok {v : JsValue} {plan : Props} :
    normalizePlan v = .ok plan ↔ v = .obj plan ∧ PlanSchema plan := by
  simp only [normalizePlan, bind_eq_ok, object_eq_ok, exactKeys_eq_ok, require_eq_ok, exists_pLift,
    string_eq_ok, safeInteger_eq_ok, pure_eq_ok, exists_prop, and_self_left]
  constructor
  · rintro ⟨_, rfl, -, hkeys, hplanned, target, htarget, hdiffers, key, hkey, id, hid, n, hn, next,
      hnext, rfl⟩
    exact ⟨rfl, hkeys, hplanned, ⟨target, htarget, hdiffers⟩, ⟨key, hkey⟩, ⟨id, hid⟩, ⟨n, hn⟩,
      next, hnext⟩
  · rintro ⟨rfl, hkeys, hplanned, ⟨target, htarget, hdiffers⟩, ⟨key, hkey⟩, ⟨id, hid⟩, ⟨n, hn⟩,
      next, hnext⟩
    exact ⟨plan, rfl, (), hkeys, hplanned, target, htarget, hdiffers, key, hkey, id, hid, n, hn,
      next, hnext, rfl⟩

theorem RespawnPlan.hasKeys (p : RespawnPlan) : HasKeys (RespawnPlan.props p) planKeys := by
  intro k
  simp only [RespawnPlan.props, PlanBody.source, PlanBody.rest, planKeys, names_cons, names_nil,
    List.cons_append, List.nil_append]

/-- Facts of the interrupted session, with an effect of a kind that has been applied. -/
def appliedFacts (kind : EffectKind) : JsValue :=
  .obj [("workspace", interruptedCheckpoint.workspace.toValue), ("human_block", .str "none"),
    ("effect", .obj [("kind", ofEnum kind), ("status", .str "applied"),
      ("prior_claim_keys", .arr [])])]

theorem normalizeFacts_applied (kind : EffectKind) : normalizeFacts (appliedFacts kind) =
    .ok ⟨interruptedCheckpoint.workspace, .none, kind, .applied, ⟨[], List.nodup_nil⟩⟩ := by
  cases kind <;> rfl

theorem normalizePlan_interrupted :
    normalizePlan (RespawnPlan.toValue interruptedPlan) =
      .ok (RespawnPlan.props interruptedPlan) := by
  have hreads : (spawnPlan interruptedPlan ⟨interruptedPlan.claimKey, by decide⟩).Reads
      (RespawnPlan.props interruptedPlan) := (RespawnPlan.carried interruptedPlan).reads rfl
  obtain ⟨next, hnext, -⟩ := hreads.gateId
  have haction : prop (RespawnPlan.props interruptedPlan) "action" ≠ .str "spawn_cross_worker" := by
    simp [RespawnPlan.props]
  refine normalizePlan_eq_ok.mpr ⟨rfl, ?_, ?_, ⟨none, if_neg haction, by simp⟩,
    ⟨_, hreads.claimKey⟩, ⟨_, hreads.taskId⟩, ⟨_, hreads.checkpointRevision⟩, next, hnext⟩
  · rw [if_neg haction]
    exact RespawnPlan.hasKeys interruptedPlan
  · simp [RespawnPlan.props, PlanBody.source, PlanBody.rest]

theorem resumePreflight_exact_interrupted :
    ∃ r, evaluateResumePreflight interruptedCheckpoint.toValue (RespawnPlan.toValue interruptedPlan)
        (appliedFacts .readOnly) = .ok r ∧
      (r.executionAllowed = true ↔ SafeToExecute interruptedCheckpoint
        (spawnPlan interruptedPlan ⟨interruptedPlan.claimKey, by decide⟩)
        ⟨interruptedCheckpoint.workspace, .none, .readOnly, .applied, ⟨[], List.nodup_nil⟩⟩
        ([js "intake"] = [js "intake"])) ∧
      r = firstFailing (preflightStages interruptedCheckpoint
        (spawnPlan interruptedPlan ⟨interruptedPlan.claimKey, by decide⟩)
        ⟨interruptedCheckpoint.workspace, .none, .readOnly, .applied, ⟨[], List.nodup_nil⟩⟩
        ([js "intake"] = [js "intake"])) :=
  resumePreflight_exact (validateTaskCheckpoint_toValue _) normalizePlan_interrupted
    (normalizeFacts_applied _) ((RespawnPlan.carried interruptedPlan).reads rfl) rfl

theorem workspaceDiffers_eq_false {key : JsString} {fact current : JsValue}
    (hfact : fact ≠ .undefined) (h : workspaceDiffers plan key fact current = .ok false) :
    ∃ workspace, prop plan "workspace" = .obj workspace := by
  unfold workspaceDiffers at h
  split_ifs at h with hne
  · simp at h
  · obtain ⟨planned, hplanned, h⟩ := bind_eq_ok.mp h
    have : fact = planned := by simpa using h
    obtain ⟨ws, hws, -⟩ := (getMember_eq_ok (this ▸ hfact)).mp hplanned
    exact ⟨ws, hws⟩

theorem refsPresent_eq_true {required : JsValue} {current : References}
    (h : refsPresent required current = .ok true) : ∃ items, required = .arr items := by
  cases required <;> simp_all [refsPresent]

theorem referencesDrift_eq_false (h : referencesDrift c plan = .ok false) :
    ∃ evidence receipts handoffs, prop plan "evidence_refs" = .arr evidence ∧
      prop plan "receipt_refs" = .arr receipts ∧ prop plan "handoff_refs" = .arr handoffs := by
  obtain ⟨b, he, h⟩ := bind_eq_ok.mp h
  cases b
  · simp at h
  obtain ⟨b, hr, h⟩ := bind_eq_ok.mp h
  cases b
  · simp at h
  obtain ⟨b, hh, h⟩ := bind_eq_ok.mp h
  cases b
  · simp at h
  obtain ⟨evidence, he⟩ := refsPresent_eq_true he
  obtain ⟨receipts, hr⟩ := refsPresent_eq_true hr
  obtain ⟨handoffs, hh⟩ := refsPresent_eq_true hh
  exact ⟨evidence, receipts, handoffs, he, hr, hh⟩

/-- If the answer allows execution, a failing stage was not taken. -/
theorem of_allowed {failing : Prop} [Decidable failing] {d : PreflightDecision}
    {why : PreflightReason} {rest : Throws Preflight} {r : Preflight}
    (h : (if failing then pure (decision d why) else rest) = .ok r)
    (hr : r.executionAllowed = true) (hd : d ≠ .pass) : ¬ failing ∧ rest = .ok r := by
  split_ifs at h with hf
  · obtain rfl := pure_eq_ok.mp h
    simp [decision, hd] at hr
  · exact ⟨hf, h⟩

/-- A plan that passes has sections of the expected types. -/
theorem reads_of_allowed {checkpoint rawPlan rawFacts : JsValue} {r : Preflight}
    (hplan : normalizePlan rawPlan = .ok plan)
    (h : evaluateResumePreflight checkpoint rawPlan rawFacts = .ok r)
    (hr : r.executionAllowed = true) : ∃ p : SpawnPlan, p.Reads plan := by
  obtain ⟨-, -, -, -, ⟨key, hkey⟩, ⟨id, hid⟩, ⟨n, hn⟩, next, hnext⟩ :=
    normalizePlan_eq_ok.mp hplan
  simp only [evaluateResumePreflight, hplan, ok_bind] at h
  obtain ⟨c, -, h⟩ := bind_eq_ok.mp h
  obtain ⟨f, -, h⟩ := bind_eq_ok.mp h
  obtain ⟨-, h⟩ := of_allowed h hr (by simp)
  obtain ⟨-, h⟩ := of_allowed h hr (by simp)
  obtain ⟨-, h⟩ := of_allowed h hr (by simp)
  obtain ⟨-, h⟩ := of_allowed h hr (by simp)
  obtain ⟨-, h⟩ := of_allowed h hr (by simp)
  obtain ⟨-, h⟩ := of_allowed h hr (by simp)
  obtain ⟨-, h⟩ := of_allowed h hr (by simp)
  obtain ⟨path, hpath, h⟩ := bind_eq_ok.mp h
  obtain ⟨hpath', h⟩ := of_allowed h hr (by simp)
  obtain ⟨gitSha, -, h⟩ := bind_eq_ok.mp h
  obtain ⟨-, h⟩ := of_allowed h hr (by simp)
  obtain ⟨branch, -, h⟩ := bind_eq_ok.mp h
  obtain ⟨-, h⟩ := of_allowed h hr (by simp)
  obtain ⟨workspace, hworkspace⟩ := workspaceDiffers_eq_false (by simp [ofString])
    (Bool.eq_false_of_not_eq_true hpath' ▸ hpath)
  obtain ⟨gateId, -, h⟩ := bind_eq_ok.mp h
  obtain ⟨-, h⟩ := of_allowed h hr (by simp)
  obtain ⟨-, h⟩ := of_allowed h hr (by simp)
  obtain ⟨completed, hcompleted, h⟩ := bind_eq_ok.mp h
  obtain ⟨hsame, h⟩ := of_allowed h hr (by simp)
  obtain ⟨gates, hgates, hcompleted⟩ := (getMember_eq_ok fun hu => by
    simp [hu, same, stringify, ofStrings] at hsame).mp hcompleted
  obtain ⟨drift, hdrift, h⟩ := bind_eq_ok.mp h
  obtain ⟨hdrift', -⟩ := of_allowed h hr (by simp)
  obtain ⟨evidence, receipts, handoffs, he, hr, hh⟩ :=
    referencesDrift_eq_false (Bool.eq_false_of_not_eq_true hdrift' ▸ hdrift)
  exact ⟨⟨id, n, key, prop next "gate_id", workspace, completed, evidence, receipts, handoffs⟩,
    hid, hn, hkey, ⟨next, hnext, rfl⟩, hworkspace, ⟨gates, hgates, hcompleted⟩, he, hr, hh⟩

/-- When the preflight passes, for any plan of the schema. -/
theorem evaluateResumePreflight_allowed {checkpoint rawPlan rawFacts : JsValue}
    (hc : validateTaskCheckpoint checkpoint = .ok c) (hplan : normalizePlan rawPlan = .ok plan)
    (hf : normalizeFacts rawFacts = .ok f) :
    (∃ r, evaluateResumePreflight checkpoint rawPlan rawFacts = .ok r ∧
      r.executionAllowed = true) ↔
      ∃ p : SpawnPlan, p.Reads plan ∧
        SafeToExecute c p f (same p.completed (ofStrings c.gates.completed.1) = true) := by
  constructor
  · intro ⟨r, h, hr⟩
    obtain ⟨p, hp⟩ := reads_of_allowed hplan h hr
    rw [evaluateResumePreflight_eq hc hplan hf hp, Except.ok.injEq] at h
    rw [← h, firstFailing_allowed preflightStages_decision, preflightStages_hold] at hr
    exact ⟨p, hp, hr⟩
  · intro ⟨p, hp, hsafe⟩
    refine ⟨_, evaluateResumePreflight_eq hc hplan hf hp, ?_⟩
    rwa [firstFailing_allowed preflightStages_decision, preflightStages_hold]

/-- **When an applied effect is replayed.** It is replayed as not read-only precisely when it
    is said to be none and nothing else stands in the way. -/
theorem appliedEffect_replay {checkpoint rawPlan rawFacts : JsValue}
    (hc : validateTaskCheckpoint checkpoint = .ok c) (hplan : normalizePlan rawPlan = .ok plan)
    (hf : normalizeFacts rawFacts = .ok f) :
    (∀ r, evaluateResumePreflight checkpoint rawPlan rawFacts = .ok r →
      r.executionAllowed = true → f.effectStatus = .applied → f.effectKind = .readOnly) ↔
    ¬ (f.effectKind = .none ∧ f.effectStatus = .applied ∧ ∃ p : SpawnPlan, p.Reads plan ∧
        ReadyToResume c p f (same p.completed (ofStrings c.gates.completed.1) = true)) := by
  have hallowed := evaluateResumePreflight_allowed hc hplan hf
  constructor
  · intro h ⟨hkind, hstatus, p, hp, hready⟩
    obtain ⟨r, hr, hpass⟩ := hallowed.mpr
      ⟨p, hp, hready, by simp [hkind], by simp [hstatus], by simp [hkind]⟩
    have := h r hr hpass hstatus
    simp [hkind] at this
  · intro h r hr hpass hstatus
    obtain ⟨p, hp, hsafe⟩ := hallowed.mp ⟨r, hr, hpass⟩
    have hnone : f.effectKind ≠ .none := fun hkind =>
      h ⟨hkind, hstatus, p, hp, hsafe.toReadyToResume⟩
    have hmutating : f.effectKind ≠ .mutating := fun hkind => hsafe.notApplied ⟨hstatus, hkind⟩
    have hunknown := hsafe.kindKnown
    cases hk : f.effectKind <;> simp_all

/-- An applied effect of kind `none` is replayed. -/
theorem appliedEffect_replay_none :
    planSameWorkerRespawn (fun _ => interruptedDigest) interruptedCheckpoint.toValue
        interruptionValue twoRetries = .ok (.planned interruptedPlan) ∧
      ∃ f r, normalizeFacts (appliedFacts .none) = .ok f ∧
        evaluateResumePreflight interruptedCheckpoint.toValue (RespawnPlan.toValue interruptedPlan)
          (appliedFacts .none) = .ok r ∧
        r.decision = .pass ∧ r.executionAllowed = true ∧ f.effectStatus = .applied ∧
        f.effectKind ≠ .readOnly := by
  have hreads : (spawnPlan interruptedPlan ⟨interruptedPlan.claimKey, by decide⟩).Reads
      (RespawnPlan.props interruptedPlan) :=
    (RespawnPlan.carried interruptedPlan).reads rfl
  have hrun := evaluateResumePreflight_eq (validateTaskCheckpoint_toValue interruptedCheckpoint)
    normalizePlan_interrupted (normalizeFacts_applied .none) hreads
  refine ⟨planSameWorkerRespawn_interrupted, _, ⟨.pass, .safeToExecute, true⟩,
    normalizeFacts_applied _, hrun.trans (congrArg Except.ok ?_), rfl, rfl, rfl, by simp⟩
  decide +kernel

theorem appliedEffect_replay_interrupted :
    (∀ r, evaluateResumePreflight interruptedCheckpoint.toValue
        (RespawnPlan.toValue interruptedPlan) (appliedFacts .readOnly) = .ok r →
      r.executionAllowed = true → EffectStatus.applied = EffectStatus.applied →
      EffectKind.readOnly = EffectKind.readOnly) ↔
    ¬ (EffectKind.readOnly = EffectKind.none ∧ EffectStatus.applied = EffectStatus.applied ∧
      ∃ p : SpawnPlan, p.Reads (RespawnPlan.props interruptedPlan) ∧
        ReadyToResume interruptedCheckpoint p
          ⟨interruptedCheckpoint.workspace, .none, .readOnly, .applied, ⟨[], List.nodup_nil⟩⟩
          (same p.completed (ofStrings interruptedCheckpoint.gates.completed.1) = true)) :=
  appliedEffect_replay (validateTaskCheckpoint_toValue _) normalizePlan_interrupted
    (normalizeFacts_applied .readOnly)

end

end Wns.Recovery
