import Wns.Common.Checks
import Wns.Common.Ladder

/-!
# Admitting a registry or an orchestrator

Model of `supervisor-policy/registry-admission.mjs`. The two decisions read the same signs of a
deployment, each its own part of them, and answer with the least that the signs call for.

* `admission_raised`: a further sign raises one of the decisions at most, and lowers neither.
-/

namespace Wns.Policy

open Ecma JsValue

/-! ## Signs -/

/-- `BOOLEAN_FIELDS`. -/
inductive AdmissionField
  | dynamicRegistration | externalAgentOwnership | tenantSpecificAgents
  | runtimeCapabilityDiscovery | agentToAgentDiscovery | dynamicDiscoveryIsExecutionDependency
  | runtimeRegistrationIsExecutionDependency | dynamicMultiAgentCollaboration
  | parallelAgentBranches | agentHandoffLoops | sharedMultiAgentState
  | dynamicCoordinationIsExecutionDependency | durableWorkflowRequired
  deriving DecidableEq

instance : JsEnum AdmissionField where
  values := [.dynamicRegistration, .externalAgentOwnership, .tenantSpecificAgents,
    .runtimeCapabilityDiscovery, .agentToAgentDiscovery, .dynamicDiscoveryIsExecutionDependency,
    .runtimeRegistrationIsExecutionDependency, .dynamicMultiAgentCollaboration,
    .parallelAgentBranches, .agentHandoffLoops, .sharedMultiAgentState,
    .dynamicCoordinationIsExecutionDependency, .durableWorkflowRequired]
  text
    | .dynamicRegistration => "dynamic_registration"
    | .externalAgentOwnership => "external_agent_ownership"
    | .tenantSpecificAgents => "tenant_specific_agents"
    | .runtimeCapabilityDiscovery => "runtime_capability_discovery"
    | .agentToAgentDiscovery => "agent_to_agent_discovery"
    | .dynamicDiscoveryIsExecutionDependency => "dynamic_discovery_is_execution_dependency"
    | .runtimeRegistrationIsExecutionDependency => "runtime_registration_is_execution_dependency"
    | .dynamicMultiAgentCollaboration => "dynamic_multi_agent_collaboration"
    | .parallelAgentBranches => "parallel_agent_branches"
    | .agentHandoffLoops => "agent_handoff_loops"
    | .sharedMultiAgentState => "shared_multi_agent_state"
    | .dynamicCoordinationIsExecutionDependency => "dynamic_coordination_is_execution_dependency"
    | .durableWorkflowRequired => "durable_workflow_required"
  complete := by rintro ⟨⟩ <;> simp
  injective := by rintro ⟨⟩ ⟨⟩ <;> simp

/-- The name of a field as a property key. -/
def AdmissionField.key (field : AdmissionField) : JsString := js (JsEnum.text field)

/-- What `normalizeBooleans` returns. -/
structure AdmissionSigns where
  fields : AdmissionField → Bool
  staticManifestMaintainable : Bool

/-- The check of a field. -/
def checkField (value : JsValue) (name : JsString) : Throws Unit :=
  match value with
  | .undefined => pure ()
  | .bool _ => pure ()
  | _ => throwType (name ++ " must be boolean when provided")

/-- `normalizeBooleans(input)`. -/
def normalizeBooleans (input : JsValue) : Throws AdmissionSigns := do
  let value ← plainObject "admission input must be an object" input
  forM (JsEnum.values : List AdmissionField) fun field =>
    checkField (prop value field.key) field.key
  checkField (prop value "static_manifest_maintainable") "static_manifest_maintainable"
  pure
    { fields := fun field => decide (prop value field.key = .bool true)
      staticManifestMaintainable :=
        decide (prop value "static_manifest_maintainable" ≠ .bool false) }

/-! ## Decisions -/

inductive AdmissionAction
  | keepStaticManifest | evaluateRegistry | registryRequired
  | keepSupervisorPolicy | evaluateOrchestrator | orchestratorRequired
  | deferToDurableRuntimeAdmission
  deriving DecidableEq

/-- The reason of a decision: a field, or one of the fixed reasons. -/
inductive AdmissionReason
  | field (field : AdmissionField)
  | staticManifestNotMaintainable
  | workersKnownAtDesignTime | staticCapabilityManifestSufficient
  | deterministicWorkerSelectionSufficient | noSharedMultiAgentRuntimeState
  deriving DecidableEq

structure AdmissionDecision where
  action : AdmissionAction
  reasons : List AdmissionReason
  currentDefault : Option JsString
  guardrail : Option JsString
  boundary : Option JsString
  deriving DecidableEq

namespace AdmissionSigns

variable (signs : AdmissionSigns)

/-- The fields of a list that are set, as reasons. -/
def reasons (fields : List AdmissionField) : List AdmissionReason :=
  (fields.filter signs.fields).map .field

/-- The fields of `hard` in `evaluateRegistryAdmission`. -/
def registryHard : List AdmissionField :=
  [.dynamicDiscoveryIsExecutionDependency, .runtimeRegistrationIsExecutionDependency]

/-- The fields of `review` in `evaluateRegistryAdmission`. -/
def registryReview : List AdmissionField :=
  [.dynamicRegistration, .externalAgentOwnership, .tenantSpecificAgents,
    .runtimeCapabilityDiscovery, .agentToAgentDiscovery]

/-- The fields of `review` in `evaluateOrchestratorAdmission`. -/
def orchestratorReview : List AdmissionField :=
  [.dynamicMultiAgentCollaboration, .parallelAgentBranches, .agentHandoffLoops,
    .sharedMultiAgentState]

/-- `review` in `evaluateRegistryAdmission`. -/
def registryReviewReasons : List AdmissionReason :=
  signs.reasons registryReview ++
    if signs.staticManifestMaintainable then [] else [.staticManifestNotMaintainable]

/-- The decision of `evaluateRegistryAdmission`. -/
def registry : AdmissionDecision :=
  let hard := signs.reasons registryHard
  let review := signs.registryReviewReasons
  if hard.length > 0 then
    { action := .registryRequired
      reasons := hard
      currentDefault := some "static_manifest"
      guardrail := some "adopt_or_build_registry_above_bridges_not_inside_them"
      boundary := none }
  else if review.length > 0 then
    { action := .evaluateRegistry
      reasons := review
      currentDefault := some "static_manifest"
      guardrail :=
        some "do_not_create_registry_service_until_runtime_discovery_is_proven_necessary"
      boundary := none }
  else
    { action := .keepStaticManifest
      reasons := [.workersKnownAtDesignTime, .staticCapabilityManifestSufficient]
      currentDefault := some "static_manifest"
      guardrail := some "agent_count_alone_is_not_a_registry_trigger"
      boundary := none }

/-- The decision of `evaluateOrchestratorAdmission`. -/
def orchestrator : AdmissionDecision :=
  let review := signs.reasons orchestratorReview
  if signs.fields .durableWorkflowRequired then
    { action := .deferToDurableRuntimeAdmission
      reasons := [.field .durableWorkflowRequired]
      currentDefault := none
      guardrail := none
      boundary := some "REF-03C" }
  else if signs.fields .dynamicCoordinationIsExecutionDependency then
    { action := .orchestratorRequired
      reasons := [.field .dynamicCoordinationIsExecutionDependency]
      currentDefault := none
      guardrail := some "orchestration_owner_stays_above_worker_bridges"
      boundary := none }
  else if review.length > 0 then
    { action := .evaluateOrchestrator
      reasons := review
      currentDefault := some "supervisor_plus_p2_policy"
      guardrail := some "do_not_turn_p2_into_execution_runtime"
      boundary := none }
  else
    { action := .keepSupervisorPolicy
      reasons := [.deterministicWorkerSelectionSufficient, .noSharedMultiAgentRuntimeState]
      currentDefault := some "supervisor_plus_p2_policy"
      guardrail := some "selection_policy_remains_pure_and_non_executing"
      boundary := none }

end AdmissionSigns

/-- `evaluateRegistryAdmission(input)`. -/
def evaluateRegistryAdmission (input : JsValue) : Throws AdmissionDecision := do
  let signs ← normalizeBooleans (if input = .undefined then .obj [] else input)
  pure signs.registry

/-- `evaluateOrchestratorAdmission(input)`. -/
def evaluateOrchestratorAdmission (input : JsValue) : Throws AdmissionDecision := do
  let signs ← normalizeBooleans (if input = .undefined then .obj [] else input)
  pure signs.orchestrator

/-! ## What the input shows -/

/-- What may stand for a sign. -/
def MayShow (value : JsValue) : Prop := value = .undefined ∨ ∃ b, value = .bool b

theorem checkField_eq_ok {value : JsValue} {name : JsString} {u : Unit} :
    checkField value name = .ok u ↔ MayShow value := by
  unfold checkField MayShow
  cases value <;> simp

/-- The signs that an input shows. -/
def shownSigns (value : Props) : AdmissionSigns where
  fields := fun field => decide (prop value field.key = .bool true)
  staticManifestMaintainable := decide (prop value "static_manifest_maintainable" ≠ .bool false)

/-- An input that may be decided on. -/
structure ShowsSigns (value : Props) : Prop where
  fields : ∀ field : AdmissionField, MayShow (prop value field.key)
  manifest : MayShow (prop value "static_manifest_maintainable")

theorem normalizeBooleans_eq_ok {value : Props} {signs : AdmissionSigns} :
    normalizeBooleans (.obj value) = .ok signs ↔ ShowsSigns value ∧ signs = shownSigns value := by
  unfold normalizeBooleans
  simp only [plainObject, ok_bind, bind_eq_ok, forM_eq_ok, checkField_eq_ok, pure_eq_ok]
  constructor
  · intro ⟨_, hfields, _, hmanifest, h⟩
    exact ⟨⟨fun field => hfields field (JsEnum.complete field), hmanifest⟩, h.symm⟩
  · intro ⟨hshows, h⟩
    exact ⟨(), fun field _ => hshows.fields field, (), hshows.manifest, h.symm⟩

theorem evaluateRegistryAdmission_eq_ok {value : Props} {d : AdmissionDecision} :
    evaluateRegistryAdmission (.obj value) = .ok d ↔
      ShowsSigns value ∧ d = (shownSigns value).registry := by
  unfold evaluateRegistryAdmission
  rw [if_neg nofun]
  simp only [bind_eq_ok, normalizeBooleans_eq_ok, pure_eq_ok]
  constructor
  · intro h
    obtain ⟨_, ⟨hshows, hsigns⟩, h⟩ := h
    exact ⟨hshows, by rw [← h, hsigns]⟩
  · intro h
    obtain ⟨hshows, h⟩ := h
    exact ⟨_, ⟨hshows, rfl⟩, h.symm⟩

theorem evaluateOrchestratorAdmission_eq_ok {value : Props} {d : AdmissionDecision} :
    evaluateOrchestratorAdmission (.obj value) = .ok d ↔
      ShowsSigns value ∧ d = (shownSigns value).orchestrator := by
  unfold evaluateOrchestratorAdmission
  rw [if_neg nofun]
  simp only [bind_eq_ok, normalizeBooleans_eq_ok, pure_eq_ok]
  constructor
  · intro h
    obtain ⟨_, ⟨hshows, hsigns⟩, h⟩ := h
    exact ⟨hshows, by rw [← h, hsigns]⟩
  · intro h
    obtain ⟨hshows, h⟩ := h
    exact ⟨_, ⟨hshows, rfl⟩, h.symm⟩

/-! ## Further signs -/

/-- How much a decision asks for. -/
def AdmissionAction.rank : AdmissionAction → ℕ
  | .keepStaticManifest | .keepSupervisorPolicy => 0
  | .evaluateRegistry | .evaluateOrchestrator => 1
  | .registryRequired | .orchestratorRequired => 2
  | .deferToDurableRuntimeAdmission => 3

namespace AdmissionSigns

/-- The signs of a registry, the gravest first. -/
def registryGuards : List (AdmissionSigns → Bool) :=
  [fun s => (s.reasons registryHard).length > 0,
    fun s => s.registryReviewReasons.length > 0]

/-- The signs of an orchestrator, the gravest first. -/
def orchestratorGuards : List (AdmissionSigns → Bool) :=
  [fun s => s.fields .durableWorkflowRequired,
    fun s => s.fields .dynamicCoordinationIsExecutionDependency,
    fun s => (s.reasons orchestratorReview).length > 0]

theorem registry_rank (s : AdmissionSigns) :
    s.registry.action.rank = 2 - Ladder.level registryGuards s := by
  unfold registry Ladder.level registryGuards
  simp only [List.findIdx_cons, List.findIdx_nil]
  split_ifs <;> simp_all [AdmissionAction.rank]

theorem orchestrator_rank (s : AdmissionSigns) :
    s.orchestrator.action.rank = 3 - Ladder.level orchestratorGuards s := by
  unfold orchestrator Ladder.level orchestratorGuards
  simp only [List.findIdx_cons, List.findIdx_nil]
  split_ifs <;> simp_all [AdmissionAction.rank]

/-- Whatever shows in the first signs shows in the second. -/
structure Under (s t : AdmissionSigns) : Prop where
  fields : ∀ field, s.fields field = true → t.fields field = true
  manifest : t.staticManifestMaintainable = true → s.staticManifestMaintainable = true

variable {s t : AdmissionSigns}

theorem Under.reasons_length (h : Under s t) (fields : List AdmissionField) :
    (s.reasons fields).length ≤ (t.reasons fields).length := by
  unfold reasons
  rw [List.length_map, List.length_map]
  exact (List.monotone_filter_right fields h.fields).length_le

theorem Under.review_length (h : Under s t) :
    s.registryReviewReasons.length ≤ t.registryReviewReasons.length := by
  have hreview := h.reasons_length registryReview
  unfold registryReviewReasons
  rw [List.length_append, List.length_append]
  cases ht : t.staticManifestMaintainable with
  | true =>
    rw [h.manifest ht]
    omega
  | false =>
    have hshort : (if s.staticManifestMaintainable then []
        else [AdmissionReason.staticManifestNotMaintainable]).length ≤ 1 := by
      split <;> simp
    exact Nat.add_le_add hreview hshort

theorem Under.registry (h : Under s t) : s.registry.action.rank ≤ t.registry.action.rank := by
  have hhard := h.reasons_length registryHard
  have hreview := h.review_length
  have hlevel : Ladder.level registryGuards t ≤ Ladder.level registryGuards s := by
    refine Ladder.level_le (.cons (fun hs => ?_) fun _ => .cons (fun hs => ?_) fun _ => trivial)
    all_goals
      rw [decide_eq_true_eq] at hs ⊢
      omega
  rw [registry_rank, registry_rank]
  omega

theorem Under.orchestrator (h : Under s t) :
    s.orchestrator.action.rank ≤ t.orchestrator.action.rank := by
  have hreview := h.reasons_length orchestratorReview
  have hlevel : Ladder.level orchestratorGuards t ≤ Ladder.level orchestratorGuards s := by
    refine Ladder.level_le (.cons (h.fields _) fun _ => .cons (h.fields _) fun _ =>
      .cons (fun hs => ?_) fun _ => trivial)
    rw [decide_eq_true_eq] at hs ⊢
    omega
  rw [orchestrator_rank, orchestrator_rank]
  omega

/-- A decision looks at its own fields only. -/
theorem reasons_congr {fields : List AdmissionField}
    (h : ∀ field ∈ fields, s.fields field = t.fields field) :
    s.reasons fields = t.reasons fields := by
  unfold reasons
  rw [List.filter_congr h]

theorem registry_congr
    (h : ∀ field ∈ registryHard ++ registryReview, s.fields field = t.fields field)
    (hmanifest : s.staticManifestMaintainable = t.staticManifestMaintainable) :
    s.registry = t.registry := by
  rw [List.forall_mem_append] at h
  unfold registry registryReviewReasons
  rw [reasons_congr h.1, reasons_congr h.2, hmanifest]

/-- The fields that `evaluateOrchestratorAdmission` reads. -/
def orchestratorFields : List AdmissionField :=
  .durableWorkflowRequired :: .dynamicCoordinationIsExecutionDependency :: orchestratorReview

theorem orchestrator_congr (h : ∀ field ∈ orchestratorFields, s.fields field = t.fields field) :
    s.orchestrator = t.orchestrator := by
  unfold orchestratorFields at h
  rw [List.forall_mem_cons, List.forall_mem_cons] at h
  unfold orchestrator
  rw [reasons_congr h.2.2, h.1, h.2.1]

end AdmissionSigns

/-! ## One sign more -/

/-- A sign that an input may show. -/
inductive AdmissionSign
  | field (field : AdmissionField)
  | staticManifestNotMaintainable
  deriving DecidableEq

namespace AdmissionSign

/-- The property that shows a sign, and what it is then. -/
def key : AdmissionSign → JsString
  | field f => f.key
  | staticManifestNotMaintainable => "static_manifest_maintainable"

def flag : AdmissionSign → Bool
  | field _ => true
  | staticManifestNotMaintainable => false

/-- The input with a sign. -/
def raise (sign : AdmissionSign) (value : Props) : Props :=
  defineProp value sign.key (.bool sign.flag)

variable {value : Props} {sign : AdmissionSign}

theorem manifest_ne_key (f : AdmissionField) : js "static_manifest_maintainable" ≠ f.key := by
  cases f <;> decide

theorem key_eq_field {f : AdmissionField} : f.key = sign.key ↔ sign = .field f := by
  cases sign with
  | field g =>
    change f.key = g.key ↔ _
    unfold AdmissionField.key
    rw [js_inj, JsEnum.injective.eq_iff, field.injEq, eq_comm]
  | staticManifestNotMaintainable => exact iff_of_false (manifest_ne_key f).symm nofun

theorem key_eq_manifest :
    js "static_manifest_maintainable" = sign.key ↔ sign = .staticManifestNotMaintainable := by
  cases sign with
  | field g => exact iff_of_false (manifest_ne_key g) nofun
  | staticManifestNotMaintainable => exact iff_of_true rfl rfl

theorem showsSigns_raise (sign : AdmissionSign) (h : ShowsSigns value) :
    ShowsSigns (sign.raise value) := by
  have hmay (name : JsString) (hname : MayShow (prop value name)) :
      MayShow (prop (sign.raise value) name) := by
    rw [raise, prop_defineProp]
    split_ifs
    · exact .inr ⟨_, rfl⟩
    · exact hname
  exact ⟨fun f => hmay _ (h.fields f), hmay _ h.manifest⟩

theorem fields_raise (sign : AdmissionSign) (value : Props) (f : AdmissionField) :
    (shownSigns (sign.raise value)).fields f =
      if sign = .field f then true else (shownSigns value).fields f := by
  unfold shownSigns raise
  dsimp only
  rw [prop_defineProp]
  simp only [key_eq_field]
  split_ifs with hsign
  · rw [hsign]
    rfl
  · rfl

theorem manifest_raise (sign : AdmissionSign) (value : Props) :
    (shownSigns (sign.raise value)).staticManifestMaintainable =
      if sign = .staticManifestNotMaintainable then false
      else (shownSigns value).staticManifestMaintainable := by
  unfold shownSigns raise
  dsimp only
  rw [prop_defineProp]
  simp only [key_eq_manifest]
  split_ifs with hsign
  · rw [hsign]
    rfl
  · rfl

/-- The signs there were still show. -/
theorem under_raise (sign : AdmissionSign) (value : Props) :
    (shownSigns value).Under (shownSigns (sign.raise value)) := by
  constructor
  · intro f hf
    rw [fields_raise, hf, ite_self]
  · intro hmanifest
    rw [manifest_raise] at hmanifest
    split_ifs at hmanifest
    exact hmanifest

end AdmissionSign

/-- **A further sign raises one of the decisions at most, and lowers neither.** Signs of a
    registry leave the decision on an orchestrator as it is, and the other way round. -/
theorem admission_raised {value : Props} {registry orchestrator : AdmissionDecision}
    (hregistry : evaluateRegistryAdmission (.obj value) = .ok registry)
    (horchestrator : evaluateOrchestratorAdmission (.obj value) = .ok orchestrator)
    (sign : AdmissionSign) : ∃ registry' orchestrator',
      evaluateRegistryAdmission (.obj (sign.raise value)) = .ok registry' ∧
      evaluateOrchestratorAdmission (.obj (sign.raise value)) = .ok orchestrator' ∧
      registry.action.rank ≤ registry'.action.rank ∧
      orchestrator.action.rank ≤ orchestrator'.action.rank ∧
      (registry' = registry ∨ orchestrator' = orchestrator) := by
  obtain ⟨hshows, rfl⟩ := evaluateRegistryAdmission_eq_ok.mp hregistry
  obtain ⟨-, rfl⟩ := evaluateOrchestratorAdmission_eq_ok.mp horchestrator
  have hunder := sign.under_raise value
  have hshows' := sign.showsSigns_raise hshows
  refine ⟨_, _, evaluateRegistryAdmission_eq_ok.mpr ⟨hshows', rfl⟩,
    evaluateOrchestratorAdmission_eq_ok.mpr ⟨hshows', rfl⟩, hunder.registry,
    hunder.orchestrator, ?_⟩
  have hsame (fields : List AdmissionField) (hsign : ∀ f ∈ fields, sign ≠ .field f) :
      ∀ f ∈ fields, (shownSigns (sign.raise value)).fields f = (shownSigns value).fields f := by
    intro f hf
    rw [AdmissionSign.fields_raise, if_neg (hsign f hf)]
  by_cases hsign : ∃ f ∈ AdmissionSigns.orchestratorFields, sign = .field f
  · -- no field is read by both
    have hdisjoint : ∀ f ∈ AdmissionSigns.orchestratorFields,
        f ∉ AdmissionSigns.registryHard ++ AdmissionSigns.registryReview := by decide
    obtain ⟨f, hf, rfl⟩ := hsign
    left
    refine AdmissionSigns.registry_congr (hsame _ fun g hg heq => ?_) ?_
    · exact hdisjoint f hf (AdmissionSign.field.inj heq ▸ hg)
    · rw [AdmissionSign.manifest_raise, if_neg nofun]
  · right
    exact AdmissionSigns.orchestrator_congr (hsame _ fun f hf heq => hsign ⟨f, hf, heq⟩)

/-- A deployment with agents of its tenants, whose manifest can no longer be kept. -/
theorem admission_raised_manifest : ∃ registry' orchestrator',
    evaluateRegistryAdmission (.obj (AdmissionSign.staticManifestNotMaintainable.raise
      [(js "tenant_specific_agents", .bool true)])) = .ok registry' ∧
    evaluateOrchestratorAdmission (.obj (AdmissionSign.staticManifestNotMaintainable.raise
      [(js "tenant_specific_agents", .bool true)])) = .ok orchestrator' ∧
    1 ≤ registry'.action.rank := by
  have hshows : ShowsSigns [(js "tenant_specific_agents", .bool true)] := by
    refine ⟨fun field => ?_, .inl rfl⟩
    cases field
    case tenantSpecificAgents => exact .inr ⟨true, rfl⟩
    all_goals exact .inl rfl
  obtain ⟨r, o, hr, ho, hrank, -⟩ := admission_raised
    (evaluateRegistryAdmission_eq_ok.mpr ⟨hshows, rfl⟩)
    (evaluateOrchestratorAdmission_eq_ok.mpr ⟨hshows, rfl⟩) .staticManifestNotMaintainable
  exact ⟨r, o, hr, ho, hrank⟩

end Wns.Policy
