import Wns.Common.Checks

/-!
# Worker routing

Model of `selectWorker` (`supervisor-policy/policy.mjs`, lines 1–351, with the
capability table of `worker-capabilities.json`). The three normalizers read a task,
a state and a policy into typed data; `orderedCandidates` splits the workers into
the compatible ones, in order of preference, and the rejected ones.

* `normalizeTask_eq_ok`: a task is accepted iff its properties can be read.
* `mem_orderedCandidates`: the compatible workers are those that nothing rejects.
-/

namespace Wns.Routing

open Ecma

/-! ## Enumerations -/

/-- `WORKERS`. -/
inductive Worker
  | claude | codex | pi
  deriving DecidableEq

instance : JsEnum Worker where
  values := [.claude, .codex, .pi]
  text
    | .claude => "claude"
    | .codex => "codex"
    | .pi => "pi"
  complete := by rintro ⟨⟩ <;> simp
  injective := by rintro ⟨⟩ ⟨⟩ <;> simp

/-- The strings of `WORKERS`. -/
def workerValues : List JsValue := (JsEnum.values : List Worker).map ofEnum

/-- `AVAILABILITY_STATES`. -/
inductive Availability
  | available | unknown | degraded | unavailable
  deriving DecidableEq

instance : JsEnum Availability where
  values := [.available, .unknown, .degraded, .unavailable]
  text
    | .available => "available"
    | .unknown => "unknown"
    | .degraded => "degraded"
    | .unavailable => "unavailable"
  complete := by rintro ⟨⟩ <;> simp
  injective := by rintro ⟨⟩ ⟨⟩ <;> simp

/-- `AVAILABILITY_RANK`. -/
def Availability.rank : Availability → ℕ
  | .available => 0
  | .unknown => 1
  | .degraded => 2
  | .unavailable => 99

/-- `BUDGET_PRESSURE_STATES`. -/
inductive Pressure
  | normal | unknown | caution | critical | exhausted
  deriving DecidableEq

instance : JsEnum Pressure where
  values := [.normal, .unknown, .caution, .critical, .exhausted]
  text
    | .normal => "normal"
    | .unknown => "unknown"
    | .caution => "caution"
    | .critical => "critical"
    | .exhausted => "exhausted"
  complete := by rintro ⟨⟩ <;> simp
  injective := by rintro ⟨⟩ ⟨⟩ <;> simp

/-- `PRESSURE_RANK`. -/
def Pressure.rank : Pressure → ℕ
  | .normal => 0
  | .unknown => 1
  | .caution => 2
  | .critical => 3
  | .exhausted => 99

/-- `COST_LATENCY_BANDS`. -/
inductive Band
  | low | medium | high | unknown
  deriving DecidableEq

instance : JsEnum Band where
  values := [.low, .medium, .high, .unknown]
  text
    | .low => "low"
    | .medium => "medium"
    | .high => "high"
    | .unknown => "unknown"
  complete := by rintro ⟨⟩ <;> simp
  injective := by rintro ⟨⟩ ⟨⟩ <;> simp

/-- `BUDGET_MODES`. -/
inductive BudgetMode
  | quality | balanced | economy
  deriving DecidableEq

instance : JsEnum BudgetMode where
  values := [.quality, .balanced, .economy]
  text
    | .quality => "quality"
    | .balanced => "balanced"
    | .economy => "economy"
  complete := by rintro ⟨⟩ <;> simp
  injective := by rintro ⟨⟩ ⟨⟩ <;> simp

/-- `TASK_CLASSES`. -/
inductive TaskClass
  | evidenceGathering | generalEngineering | expertReview | extensionCapability | mixed
  deriving DecidableEq

instance : JsEnum TaskClass where
  values := [.evidenceGathering, .generalEngineering, .expertReview, .extensionCapability, .mixed]
  text
    | .evidenceGathering => "evidence_gathering"
    | .generalEngineering => "general_engineering"
    | .expertReview => "expert_review"
    | .extensionCapability => "extension_capability"
    | .mixed => "mixed"
  complete := by rintro ⟨⟩ <;> simp
  injective := by rintro ⟨⟩ ⟨⟩ <;> simp

/-- `SCOPES`. -/
inductive Scope
  | tiny | small | medium | large
  deriving DecidableEq

instance : JsEnum Scope where
  values := [.tiny, .small, .medium, .large]
  text
    | .tiny => "tiny"
    | .small => "small"
    | .medium => "medium"
    | .large => "large"
  complete := by rintro ⟨⟩ <;> simp
  injective := by rintro ⟨⟩ ⟨⟩ <;> simp

/-- `RISK_CLASSES`. -/
inductive RiskClass
  | readOnly | boundedMutation | broadMutation
  deriving DecidableEq

instance : JsEnum RiskClass where
  values := [.readOnly, .boundedMutation, .broadMutation]
  text
    | .readOnly => "read_only"
    | .boundedMutation => "bounded_mutation"
    | .broadMutation => "broad_mutation"
  complete := by rintro ⟨⟩ <;> simp
  injective := by rintro ⟨⟩ ⟨⟩ <;> simp

/-- `STAGE_PURPOSES`. -/
inductive StagePurpose
  | evidenceAcquisition | expertReview | extensionCapability | engineeringExecution
  deriving DecidableEq

instance : JsEnum StagePurpose where
  values := [.evidenceAcquisition, .expertReview, .extensionCapability, .engineeringExecution]
  text
    | .evidenceAcquisition => "evidence_acquisition"
    | .expertReview => "expert_review"
    | .extensionCapability => "extension_capability"
    | .engineeringExecution => "engineering_execution"
  complete := by rintro ⟨⟩ <;> simp
  injective := by rintro ⟨⟩ ⟨⟩ <;> simp

/-- `CAPABILITY_KEYS`. -/
inductive Capability
  | coding | approvalHitl | healthProbe | enforcedReadOnly | boundedMutationScope | modelOverride
  | providerOverride | quotaProbe | postRunCost | postRunUsage | nativePersistentThreadInventory
  | extensionCapability | webResearch
  deriving DecidableEq

instance : JsEnum Capability where
  values :=
    [.coding, .approvalHitl, .healthProbe, .enforcedReadOnly, .boundedMutationScope, .modelOverride,
      .providerOverride, .quotaProbe, .postRunCost, .postRunUsage,
      .nativePersistentThreadInventory, .extensionCapability, .webResearch]
  text
    | .coding => "coding"
    | .approvalHitl => "approval_hitl"
    | .healthProbe => "health_probe"
    | .enforcedReadOnly => "enforced_read_only"
    | .boundedMutationScope => "bounded_mutation_scope"
    | .modelOverride => "model_override"
    | .providerOverride => "provider_override"
    | .quotaProbe => "quota_probe"
    | .postRunCost => "post_run_cost"
    | .postRunUsage => "post_run_usage"
    | .nativePersistentThreadInventory => "native_persistent_thread_inventory"
    | .extensionCapability => "extension_capability"
    | .webResearch => "web_research"
  complete := by rintro ⟨⟩ <;> simp
  injective := by rintro ⟨⟩ ⟨⟩ <;> simp

/-- `"read"` or `"coding"`. -/
inductive Mode
  | read | coding
  deriving DecidableEq

instance : JsEnum Mode where
  values := [.read, .coding]
  text
    | .read => "read"
    | .coding => "coding"
  complete := by rintro ⟨⟩ <;> simp
  injective := by rintro ⟨⟩ ⟨⟩ <;> simp

/-- The acknowledgement of a mutation. -/
inductive MutationAck
  | accepted | rejected | unknown
  deriving DecidableEq

instance : JsEnum MutationAck where
  values := [.accepted, .rejected, .unknown]
  text
    | .accepted => "accepted"
    | .rejected => "rejected"
    | .unknown => "unknown"
  complete := by rintro ⟨⟩ <;> simp
  injective := by rintro ⟨⟩ ⟨⟩ <;> simp

/-- The capabilities that `worker-capabilities.json` grants a worker. -/
def Worker.capabilities : Worker → List Capability
  | .claude => [.coding, .approvalHitl, .healthProbe, .postRunCost, .postRunUsage, .webResearch]
  | .codex =>
    [.coding, .approvalHitl, .enforcedReadOnly, .modelOverride, .quotaProbe,
      .nativePersistentThreadInventory, .webResearch]
  | .pi =>
    [.coding, .approvalHitl, .enforcedReadOnly, .boundedMutationScope, .modelOverride,
      .providerOverride, .postRunCost, .postRunUsage, .extensionCapability, .webResearch]

/-! ## Normalized inputs -/

structure NormalizedTask where
  mode : Mode
  taskClass : TaskClass
  scope : Scope
  riskClass : RiskClass
  evidenceReady : Bool
  enforceReadOnly : Bool
  boundedMutationScope : Bool
  requiresModelOverride : Bool
  requiresProviderOverride : Bool
  requiresQuotaProbe : Bool
  requiresNativeThreadInventory : Bool
  requiresExtensionCapability : Bool
  requiredCapabilities : List Capability
  stagesRequested : List StagePurpose

structure WorkerState where
  availability : Availability
  budgetPressure : Pressure
  quotaWindows : List (JsString × Pressure)
  costBand : Band
  latencyBand : Band

structure NormalizedState where
  workers : Worker → WorkerState
  activeWorker : Option Worker
  activeTerminal : Bool
  pendingHitl : Bool
  mutationAck : Option MutationAck
  failedWorkers : List Worker

/-- `requireObject(value, label)`. -/
def requireObject (value : JsValue) (label : JsString) : Throws Props :=
  plainObject (label ++ " must be an object") value

/-- `requireEnum(value, values, label)`. -/
def requireEnum {α : Type} [JsEnum α] (value : JsValue) (label : JsString) : Throws α :=
  enumMember (label ++ " must be one of: " ++
    js (", ".intercalate ((JsEnum.values : List α).map JsEnum.text))) value

/-- `value === undefined ? fallback : requireEnum(value, values, label)`. -/
def enumOr {α : Type} [JsEnum α] (fallback : α) (value : JsValue) (label : JsString) : Throws α :=
  if value = .undefined then pure fallback else requireEnum value label

/-- `null`, or a member of the enumeration. -/
def enumOrNull {α : Type} [JsEnum α] (value : JsValue) (label : JsString) : Throws (Option α) :=
  if value = .null then pure none else some <$> requireEnum value label

/-- `value === true`. -/
def bool (value : JsValue) : Bool := value = .bool true

/-- `requireEnum` for every item, without repetition. -/
def enumSet {α : Type} [JsEnum α] [DecidableEq α] (items : List JsValue) (label : JsString) :
    Throws (List α) := do
  let members ← items.mapM fun item => requireEnum item label
  pure members.eraseDups

/-- `stages_requested` of a mixed task. -/
def stagesRequested (value : Props) (taskClass : TaskClass) : Throws (List StagePurpose) :=
  if taskClass ≠ .mixed then .ok []
  else
    match prop value "stages_requested" with
    | .undefined => .ok [.evidenceAcquisition, .expertReview]
    | .arr (v :: vs) => enumSet (v :: vs) "task.stages_requested[]"
    | _ => throwType "task.stages_requested must be a non-empty array when provided"

/-- `required_capabilities` of a task. -/
def requiredCapabilities (value : Props) : Throws (List Capability) :=
  match prop value "required_capabilities" with
  | .undefined => .ok []
  | .arr items => enumSet items "task.required_capabilities[]"
  | _ => throwType "task.required_capabilities must be an array when provided"

/-- `normalizeTask(task)`. -/
def normalizeTask (task : JsValue) : Throws NormalizedTask := do
  let value ← requireObject (if task = .undefined then .obj [] else task) "task"
  let taskClass ← enumOr .generalEngineering (prop value "task_class") "task.task_class"
  let boundedMutationScope := bool (prop value "bounded_mutation_scope")
  let mode ← enumOr .coding (prop value "mode") "task.mode"
  let riskClass ← enumOr
    (if boundedMutationScope then .boundedMutation
      else if mode = .read then .readOnly
      else .broadMutation)
    (prop value "risk_class") "task.risk_class"
  let requiresExtension := bool (prop value "requires_extension_capability") ||
    taskClass = .extensionCapability
  let stagesRequested ← stagesRequested value taskClass
  let requiredCapabilities ← requiredCapabilities value
  let scope ← enumOr .small (prop value "scope") "task.scope"
  pure
    { mode, taskClass, scope, riskClass, boundedMutationScope, requiredCapabilities
      stagesRequested
      evidenceReady := bool (prop value "evidence_ready")
      enforceReadOnly := bool (prop value "enforce_read_only")
      requiresModelOverride := bool (prop value "requires_model_override")
      requiresProviderOverride := bool (prop value "requires_provider_override")
      requiresQuotaProbe := bool (prop value "requires_quota_probe")
      requiresNativeThreadInventory := bool (prop value "requires_native_thread_inventory")
      requiresExtensionCapability := requiresExtension }

/-- `worstPressure(states)`. -/
def worstPressure (states : List Pressure) : Pressure :=
  states.foldl (fun worst state => if state.rank > worst.rank then state else worst) .normal

/-- The quota windows of a worker. Assigning a string to the `__proto__` of an object
    literal does nothing, so that window is checked but not kept. -/
def quotaWindows (raw : Props) (label : JsString) : Throws (List (JsString × Pressure)) :=
  if prop raw "quota_windows" = .undefined then .ok []
  else do
    let windows ← requireObject (prop raw "quota_windows") label
    let entries ← (ownOrder windows).mapM fun p => do
      let state ← requireEnum p.2 (label ++ "." ++ p.1)
      pure (p.1, state)
    pure (entries.filter fun p => p.1 ≠ js "__proto__")

/-- The worst pressure over the quota windows, or the flat `budget_pressure` when there
    is none. -/
def budgetPressure (raw : Props) (name : JsString) (windows : List (JsString × Pressure)) :
    Throws Pressure :=
  if windows ≠ [] then .ok (worstPressure (windows.map Prod.snd))
  else
    requireEnum (coalesce (prop raw "budget_pressure") (.str "unknown"))
      (name ++ ".budget_pressure")

/-- `normalizeWorkerState(worker, raw)`. -/
def normalizeWorkerState (worker : Worker) (raw : JsValue) : Throws WorkerState := do
  let name := js (JsEnum.text worker)
  let raw ← requireObject raw ("state.workers." ++ name)
  let quotaWindows ← quotaWindows raw ("state.workers." ++ name ++ ".quota_windows")
  let budgetPressure ← budgetPressure raw name quotaWindows
  let availability ← requireEnum (coalesce (prop raw "availability") (.str "unknown"))
    (name ++ ".availability")
  let costBand ← requireEnum (coalesce (prop raw "cost_band") (.str "unknown"))
    (name ++ ".cost_band")
  let latencyBand ← requireEnum (coalesce (prop raw "latency_band") (.str "unknown"))
    (name ++ ".latency_band")
  pure { availability, budgetPressure, quotaWindows, costBand, latencyBand }

/-- `value.workers?.[worker] ?? {}`. -/
def rawWorker (workers : JsValue) (worker : Worker) : JsValue :=
  match workers with
  | .obj ps => coalesce (prop ps (JsEnum.text worker)) (.obj [])
  | _ => .obj []

/-- `failed_workers` of a state. -/
def failedWorkers : JsValue → Throws (List Worker)
  | .arr items => items.mapM fun item => requireEnum item "state.failed_workers[]"
  | _ => .ok []

/-- `normalizeState(state)`. -/
def normalizeState (state : JsValue) : Throws NormalizedState := do
  let value ← requireObject (if state = .undefined then .obj [] else state) "state"
  let workers := prop value "workers"
  let claude ← normalizeWorkerState .claude (rawWorker workers .claude)
  let codex ← normalizeWorkerState .codex (rawWorker workers .codex)
  let pi ← normalizeWorkerState .pi (rawWorker workers .pi)
  let activeWorker ← enumOrNull (coalesce (prop value "active_worker") .null) "state.active_worker"
  let mutationAck ← enumOrNull (coalesce (prop value "mutation_ack") .null) "state.mutation_ack"
  let failedWorkers ← failedWorkers (prop value "failed_workers")
  pure
    { workers
        | .claude => claude
        | .codex => codex
        | .pi => pi
      activeWorker
      activeTerminal :=
        prop value "active_terminal" = .undefined || bool (prop value "active_terminal")
      pendingHitl := bool (prop value "pending_hitl")
      mutationAck
      failedWorkers }

/-- `normalizePolicy(policy)`: the preferred worker. -/
def normalizePolicy (policy : JsValue) : Throws (Option Worker) := do
  let value ← requireObject (if policy = .undefined then .obj [] else policy) "policy"
  let _ ← enumOr BudgetMode.balanced (prop value "budget_mode") "policy.budget_mode"
  enumOrNull (coalesce (prop value "preferred_worker") .null) "policy.preferred_worker"

/-! ## Candidates -/

/-- The capabilities a task requires, in the order in which they are checked. -/
def NormalizedTask.required (task : NormalizedTask) : List Capability :=
  (if task.mode = .coding then [.coding] else []) ++
  (if task.enforceReadOnly then [.enforcedReadOnly] else []) ++
  (if task.boundedMutationScope then [.boundedMutationScope] else []) ++
  (if task.requiresModelOverride then [.modelOverride] else []) ++
  (if task.requiresProviderOverride then [.providerOverride] else []) ++
  (if task.requiresQuotaProbe then [.quotaProbe] else []) ++
  (if task.requiresNativeThreadInventory then [.nativePersistentThreadInventory] else []) ++
  (if task.requiresExtensionCapability then [.extensionCapability] else []) ++
  (if task.riskClass = .boundedMutation then [.boundedMutationScope] else []) ++
  task.requiredCapabilities

/-- `capabilityReasons(worker, task)`. -/
def capabilityReasons (worker : Worker) (task : NormalizedTask) : List Capability :=
  (task.required.filter fun capability => capability ∉ worker.capabilities).eraseDups

/-- Why a worker is rejected. -/
inductive Rejection
  | capabilityMismatch (missing : List Capability)
  | previousAttemptFailed
  | unavailable
  | budgetExhausted
  deriving DecidableEq

/-- The first reason to reject a worker, if any. -/
def rejection (task : NormalizedTask) (state : NormalizedState) (worker : Worker) :
    Option Rejection :=
  let missing := capabilityReasons worker task
  if missing.length > 0 then some (.capabilityMismatch missing)
  else if worker ∈ state.failedWorkers then some .previousAttemptFailed
  else if (state.workers worker).availability = .unavailable then some .unavailable
  else if (state.workers worker).budgetPressure = .exhausted then some .budgetExhausted
  else none

/-- `TASK_CLASS_ORDER`. -/
def TaskClass.order : TaskClass → List Worker
  | .expertReview => [.claude, .codex, .pi]
  | .extensionCapability => [.pi, .codex, .claude]
  | _ => [.codex, .claude, .pi]

/-- The order of `task_class`, an eligible preferred worker moved to its front. -/
def baseOrder (taskClass : TaskClass) (preferred : Option Worker) (compatible : List Worker) :
    List Worker :=
  match preferred with
  | none => taskClass.order
  | some worker =>
    if worker ∈ compatible then worker :: taskClass.order.erase worker else taskClass.order

/-- The comparator of `compatible.sort`. -/
def compareWorkers (state : NormalizedState) (preferred : Option Worker) (base : List Worker)
    (a b : Worker) : ℤ :=
  if preferred = some a then -1
  else if preferred = some b then 1
  else
    let availability : ℤ :=
      (state.workers a).availability.rank - (state.workers b).availability.rank
    let pressure : ℤ :=
      (state.workers a).budgetPressure.rank - (state.workers b).budgetPressure.rank
    if availability ≠ 0 then availability
    else if pressure ≠ 0 then pressure
    else (base.idxOf a : ℤ) - base.idxOf b

/-- `orderedCandidates(task, state, policy)`: the compatible and the rejected workers. -/
def orderedCandidates (task : NormalizedTask) (state : NormalizedState)
    (preferred : Option Worker) : List Worker × List (Worker × Rejection) :=
  let workers : List Worker := JsEnum.values
  let compatible := workers.filter fun worker => rejection task state worker = none
  let rejected := workers.filterMap fun worker =>
    (rejection task state worker).map fun reason => (worker, reason)
  let base := baseOrder task.taskClass preferred compatible
  (compatible.insertionSort fun a b => compareWorkers state preferred base a b ≤ 0, rejected)

/-! ## Selection -/

inductive SelectAction
  | reconcile | hold | noWorker | select
  deriving DecidableEq

/-- `ROUTING_REASONS`. -/
inductive RoutingReason
  | mutationAckUnknown | pendingHitl | activeRun | noViableWorker | explicitPreference
  | mixedTaskDecomposed
  | policy (taskClass : TaskClass)
  deriving DecidableEq

structure Selection where
  action : SelectAction
  worker : Option Worker
  fallbackChain : List Worker
  reason : RoutingReason
  rejected : Option (List (Worker × Rejection))

/-- `selectWorker` on normalized inputs. -/
def selectNormalized (task : NormalizedTask) (state : NormalizedState)
    (preferred : Option Worker) : Selection :=
  match state.activeWorker, state.activeTerminal with
  | some worker, false =>
    if state.mutationAck = some .unknown then
      ⟨.reconcile, some worker, [], .mutationAckUnknown, none⟩
    else if state.pendingHitl then ⟨.hold, some worker, [], .pendingHitl, none⟩
    else ⟨.hold, some worker, [], .activeRun, none⟩
  | _, _ =>
    let (compatible, rejected) := orderedCandidates task state preferred
    match compatible with
    | [] => ⟨.noWorker, none, [], .noViableWorker, some rejected⟩
    | worker :: fallbackChain =>
      let reason :=
        if preferred = some worker then .explicitPreference else .policy task.taskClass
      ⟨.select, some worker, fallbackChain, reason, some rejected⟩

/-- `selectWorker({ task, state, policy })`. -/
def selectWorker (task state policy : JsValue) : Throws Selection := do
  let normalizedTask ← normalizeTask task
  let normalizedState ← normalizeState state
  let preferred ← normalizePolicy policy
  pure (selectNormalized normalizedTask normalizedState preferred)

/-! ## Accepted tasks -/

theorem enumOr_eq_ok {α : Type} [JsEnum α] {fallback a : α} {v : JsValue} {label : JsString} :
    enumOr fallback v label = .ok a ↔ v = .undefined ∧ a = fallback ∨ v = ofEnum a := by
  rw [enumOr]
  split_ifs with h
  · rw [pure_eq_ok, h, eq_comm]
    simp [ofEnum]
  · rw [requireEnum, enumMember_eq_ok]
    simp [h]

/-- Every item is the string of a member. -/
theorem mapM_requireEnum_eq_ok {α : Type} [JsEnum α] {items : List JsValue} {label : JsString}
    {members : List α} :
    (items.mapM fun item => requireEnum item label) = .ok members ↔
      items = members.map ofEnum := by
  constructor
  · intro h
    exact eq_map_of_mapM (fun v a h => enumMember_eq_ok.mp h) h
  · rintro rfl
    induction members with
    | nil => rfl
    | cons a members ih =>
      rw [List.map_cons, List.mapM_cons, bind_eq_ok]
      exact ⟨a, enumMember_eq_ok.mpr rfl, bind_eq_ok.mpr ⟨members, ih, rfl⟩⟩

theorem enumSet_eq_ok {α : Type} [JsEnum α] [DecidableEq α] {items : List JsValue}
    {label : JsString} {set : List α} :
    enumSet items label = .ok set ↔
      ∃ members : List α, items = members.map ofEnum ∧ members.eraseDups = set := by
  simp only [enumSet, bind_eq_ok, pure_eq_ok, mapM_requireEnum_eq_ok]

/-- What the properties of a task say. -/
structure TaskRead (value : Props) (task : NormalizedTask) : Prop where
  taskClass : enumOr .generalEngineering (prop value "task_class") "task.task_class" =
    .ok task.taskClass
  mode : enumOr .coding (prop value "mode") "task.mode" = .ok task.mode
  riskClass : enumOr
    (if task.boundedMutationScope then .boundedMutation
      else if task.mode = .read then .readOnly
      else .broadMutation)
    (prop value "risk_class") "task.risk_class" = .ok task.riskClass
  stagesRequested : stagesRequested value task.taskClass = .ok task.stagesRequested
  requiredCapabilities : requiredCapabilities value = .ok task.requiredCapabilities
  scope : enumOr .small (prop value "scope") "task.scope" = .ok task.scope
  evidenceReady : task.evidenceReady = bool (prop value "evidence_ready")
  enforceReadOnly : task.enforceReadOnly = bool (prop value "enforce_read_only")
  boundedMutationScope : task.boundedMutationScope = bool (prop value "bounded_mutation_scope")
  requiresModelOverride : task.requiresModelOverride = bool (prop value "requires_model_override")
  requiresProviderOverride :
    task.requiresProviderOverride = bool (prop value "requires_provider_override")
  requiresQuotaProbe : task.requiresQuotaProbe = bool (prop value "requires_quota_probe")
  requiresNativeThreadInventory :
    task.requiresNativeThreadInventory = bool (prop value "requires_native_thread_inventory")
  requiresExtensionCapability : task.requiresExtensionCapability =
    (bool (prop value "requires_extension_capability") || task.taskClass = .extensionCapability)

/-- A task that is left out has no property. -/
def TaskProps (task : JsValue) (value : Props) : Prop :=
  (if task = .undefined then .obj [] else task) = .obj value

theorem normalizeTask_eq_ok {task : JsValue} {normalizedTask : NormalizedTask} :
    normalizeTask task = .ok normalizedTask ↔
      ∃ value, TaskProps task value ∧ TaskRead value normalizedTask := by
  simp only [normalizeTask, bind_eq_ok, requireObject, plainObject_eq_ok, pure_eq_ok]
  constructor
  · rintro ⟨value, hvalue, taskClass, hclass, mode, hmode, riskClass, hrisk, stages, hstages,
      capabilities, hcapabilities, scope, hscope, rfl⟩
    exact ⟨value, hvalue, hclass, hmode, hrisk, hstages, hcapabilities, hscope, rfl, rfl, rfl, rfl,
      rfl, rfl, rfl, rfl⟩
  · rintro ⟨value, hvalue, h⟩
    refine ⟨value, hvalue, _, h.taskClass, _, h.mode, _, h.boundedMutationScope ▸ h.riskClass, _,
      h.stagesRequested, _, h.requiredCapabilities, _, h.scope, ?_⟩
    rw [← h.evidenceReady, ← h.enforceReadOnly, ← h.boundedMutationScope, ← h.requiresModelOverride,
      ← h.requiresProviderOverride, ← h.requiresQuotaProbe, ← h.requiresNativeThreadInventory,
      ← h.requiresExtensionCapability]

/-! ## What is selected -/

theorem mem_orderedCandidates {task : NormalizedTask} {state : NormalizedState}
    {p : Option Worker} {worker : Worker} :
    worker ∈ (orderedCandidates task state p).1 ↔ rejection task state worker = none := by
  simp only [orderedCandidates]
  rw [(List.perm_insertionSort _ _).mem_iff, List.mem_filter]
  simp [JsEnum.complete worker]

end Wns.Routing
