import Mathlib.Data.Set.List
import Wns.Routing.Contract

/-!
# Legacy flags

Seven booleans of a task are older spellings of a required capability. A task may spell each
requirement either way, `required_capabilities` in any order and with repetitions.

* `mem_required`: what a task requires.
* `Respells.required_iff`: a respelled task requires the same capabilities.
* `legacyFlags_equal`: so it is routed in the same way.
-/

namespace Wns.Routing

open Ecma

/-! ## Flags -/

/-- The flags that `capabilityReasons` checks one by one. -/
inductive LegacyFlag
  | enforceReadOnly | boundedMutationScope | requiresModelOverride | requiresProviderOverride
  | requiresQuotaProbe | requiresNativeThreadInventory | requiresExtensionCapability
  deriving DecidableEq

/-- The property of a flag. -/
def LegacyFlag.key : LegacyFlag → String
  | .enforceReadOnly => "enforce_read_only"
  | .boundedMutationScope => "bounded_mutation_scope"
  | .requiresModelOverride => "requires_model_override"
  | .requiresProviderOverride => "requires_provider_override"
  | .requiresQuotaProbe => "requires_quota_probe"
  | .requiresNativeThreadInventory => "requires_native_thread_inventory"
  | .requiresExtensionCapability => "requires_extension_capability"

/-- The capability that a flag requires. -/
def LegacyFlag.capability : LegacyFlag → Capability
  | .enforceReadOnly => .enforcedReadOnly
  | .boundedMutationScope => .boundedMutationScope
  | .requiresModelOverride => .modelOverride
  | .requiresProviderOverride => .providerOverride
  | .requiresQuotaProbe => .quotaProbe
  | .requiresNativeThreadInventory => .nativePersistentThreadInventory
  | .requiresExtensionCapability => .extensionCapability

theorem LegacyFlag.key_injective : Function.Injective LegacyFlag.key := by
  rintro ⟨⟩ ⟨⟩ <;> simp [key]

/-- A flag of a normalized task. -/
def NormalizedTask.flag (task : NormalizedTask) : LegacyFlag → Bool
  | .enforceReadOnly => task.enforceReadOnly
  | .boundedMutationScope => task.boundedMutationScope
  | .requiresModelOverride => task.requiresModelOverride
  | .requiresProviderOverride => task.requiresProviderOverride
  | .requiresQuotaProbe => task.requiresQuotaProbe
  | .requiresNativeThreadInventory => task.requiresNativeThreadInventory
  | .requiresExtensionCapability => task.requiresExtensionCapability

/-- What a task requires: to code, what its flags and its risk say, and what it lists. -/
theorem mem_required {task : NormalizedTask} {capability : Capability} :
    capability ∈ task.required ↔
      task.mode = .coding ∧ capability = .coding ∨
      (∃ flag, task.flag flag = true ∧ capability = flag.capability) ∨
      task.riskClass = .boundedMutation ∧ capability = .boundedMutationScope ∨
      capability ∈ task.requiredCapabilities := by
  have hite : ∀ {p : Prop} [Decidable p] {c : Capability},
      capability ∈ (if p then [c] else []) ↔ p ∧ capability = c := by
    intro p _ c
    split_ifs with hp <;> simp [hp]
  simp only [NormalizedTask.required, List.mem_append, hite]
  constructor
  · rintro (((((((((h | h) | h) | h) | h) | h) | h) | h) | h) | h)
    · exact .inl h
    · exact .inr (.inl ⟨.enforceReadOnly, h⟩)
    · exact .inr (.inl ⟨.boundedMutationScope, h⟩)
    · exact .inr (.inl ⟨.requiresModelOverride, h⟩)
    · exact .inr (.inl ⟨.requiresProviderOverride, h⟩)
    · exact .inr (.inl ⟨.requiresQuotaProbe, h⟩)
    · exact .inr (.inl ⟨.requiresNativeThreadInventory, h⟩)
    · exact .inr (.inl ⟨.requiresExtensionCapability, h⟩)
    · exact .inr (.inr (.inl h))
    · exact .inr (.inr (.inr h))
  · rintro (h | ⟨flag, h⟩ | h | h)
    · simp [h]
    · cases flag <;> simp only [NormalizedTask.flag, LegacyFlag.capability] at h <;> simp [h]
    · simp [h]
    · simp [h]

/-- A flag of an accepted task. -/
theorem TaskRead.flag_eq {ps : Props} {task : NormalizedTask} (h : TaskRead ps task)
    (flag : LegacyFlag) :
    task.flag flag = true ↔ prop ps flag.key = .bool true ∨
      flag = .requiresExtensionCapability ∧ task.taskClass = .extensionCapability := by
  cases flag with
  | enforceReadOnly => simp [NormalizedTask.flag, LegacyFlag.key, h.enforceReadOnly, bool]
  | boundedMutationScope => simp [NormalizedTask.flag, LegacyFlag.key, h.boundedMutationScope, bool]
  | requiresModelOverride =>
    simp [NormalizedTask.flag, LegacyFlag.key, h.requiresModelOverride, bool]
  | requiresProviderOverride =>
    simp [NormalizedTask.flag, LegacyFlag.key, h.requiresProviderOverride, bool]
  | requiresQuotaProbe => simp [NormalizedTask.flag, LegacyFlag.key, h.requiresQuotaProbe, bool]
  | requiresNativeThreadInventory =>
    simp [NormalizedTask.flag, LegacyFlag.key, h.requiresNativeThreadInventory, bool]
  | requiresExtensionCapability =>
    simp [NormalizedTask.flag, LegacyFlag.key, h.requiresExtensionCapability, bool]

/-! ## Respelled tasks -/

/-- The capabilities that a task lists. -/
def ListsCapabilities (task : Props) (items : List JsValue) : Prop :=
  prop task "required_capabilities" = .undefined ∧ items = [] ∨
    prop task "required_capabilities" = .arr items

/-- Flags that are set in a task are cleared, and what they require is listed instead. -/
structure Respells (flags : Set LegacyFlag) (task task' : Props) : Prop where
  set : ∀ flag ∈ flags, prop task flag.key = .bool true
  cleared : ∀ flag ∈ flags, prop task' flag.key ≠ .bool true
  listed : ∃ items items', ListsCapabilities task items ∧ ListsCapabilities task' items' ∧
    ∀ v, v ∈ items' ↔ v ∈ items ∨ ∃ flag ∈ flags, v = ofEnum flag.capability
  others : ∀ name, name ≠ js "required_capabilities" → (∀ flag ∈ flags, name ≠ js flag.key) →
    prop task' name = prop task name

/-- What a task lists is accepted iff every item is a capability. -/
theorem requiredCapabilities_eq_ok {task : Props} {items : List JsValue}
    (h : ListsCapabilities task items) {capabilities : List Capability} :
    requiredCapabilities task = .ok capabilities ↔
      ∃ members : List Capability, items = members.map ofEnum ∧
        members.eraseDups = capabilities := by
  obtain ⟨hlist, rfl⟩ | hlist := h
  · rw [requiredCapabilities, hlist]
    constructor
    · intro h
      exact ⟨[], rfl, Except.ok.inj h⟩
    · rintro ⟨members, hmembers, rfl⟩
      rw [List.map_eq_nil_iff.mp hmembers.symm]
      rfl
  · rw [requiredCapabilities, hlist]
    exact enumSet_eq_ok

/-- The capabilities of a respelled list. -/
theorem Respells.exists_listed {flags : Set LegacyFlag} {ps qs : Props}
    (h : Respells flags ps qs) {capabilities : List Capability}
    (hps : requiredCapabilities ps = .ok capabilities) :
    ∃ capabilities', requiredCapabilities qs = .ok capabilities' ∧
      ∀ c, c ∈ capabilities' ↔ c ∈ capabilities ∨ ∃ flag ∈ flags, c = flag.capability := by
  obtain ⟨items, items', hitems, hitems', hmem⟩ := h.listed
  obtain ⟨members, rfl, rfl⟩ := (requiredCapabilities_eq_ok hitems).mp hps
  have hall : items' ∈ Set.range (List.map (ofEnum : Capability → JsValue)) := by
    rw [Set.range_list_map]
    intro v hv
    obtain hv | ⟨flag, -, rfl⟩ := (hmem v).mp hv
    · obtain ⟨c, -, rfl⟩ := List.mem_map.mp hv
      exact ⟨c, rfl⟩
    · exact ⟨flag.capability, rfl⟩
  obtain ⟨members', rfl⟩ := hall
  refine ⟨_, (requiredCapabilities_eq_ok hitems').mpr ⟨members', rfl, rfl⟩, fun c => ?_⟩
  have hc := hmem (ofEnum c)
  have hinj : Function.Injective (ofEnum : Capability → JsValue) := fun _ _ => ofEnum_inj.mp
  simpa only [List.mem_eraseDups, List.mem_map_of_injective hinj, ofEnum_inj] using hc

/-- What an accepted task requires. A risk that is left out is that of a bounded mutation only
    where the flag of that name is set, and then the flag requires as much. -/
theorem TaskRead.mem_required {ps : Props} {task : NormalizedTask} (h : TaskRead ps task)
    {capability : Capability} :
    capability ∈ task.required ↔
      task.mode = .coding ∧ capability = .coding ∨
      (∃ flag, task.flag flag = true ∧ capability = flag.capability) ∨
      prop ps "risk_class" = ofEnum RiskClass.boundedMutation ∧
        capability = .boundedMutationScope ∨
      capability ∈ task.requiredCapabilities := by
  rw [Routing.mem_required]
  obtain ⟨hrisk, heq⟩ | hrisk := enumOr_eq_ok.mp h.riskClass
  · have hnot : prop ps "risk_class" ≠ ofEnum RiskClass.boundedMutation := by
      rw [hrisk]
      nofun
    simp only [hnot, false_and, false_or]
    constructor
    · rintro (hmode | hflag | ⟨hbounded, rfl⟩ | hlisted)
      · exact .inl hmode
      · exact .inr (.inl hflag)
      · refine .inr (.inl ⟨.boundedMutationScope, ?_, rfl⟩)
        rw [heq] at hbounded
        split_ifs at hbounded with hscope
        exact hscope
      · exact .inr (.inr hlisted)
    · rintro (hmode | hflag | hlisted)
      · exact .inl hmode
      · exact .inr (.inl hflag)
      · exact .inr (.inr (.inr hlisted))
  · rw [hrisk, ofEnum_inj]

/-- Two tasks that are routed in the same way. -/
structure SameRequirements (task task' : NormalizedTask) : Prop where
  taskClass : task'.taskClass = task.taskClass
  required : ∀ capability, capability ∈ task'.required ↔ capability ∈ task.required

section

variable {flags : Set LegacyFlag} {ps qs : Props} {task task' : NormalizedTask}

theorem Respells.prop_key (h : Respells flags ps qs) {flag : LegacyFlag} (hflag : flag ∉ flags) :
    prop qs flag.key = prop ps flag.key := by
  refine h.others _ ?_ fun other hother heq => ?_
  · cases flag <;> simp [LegacyFlag.key]
  · exact hflag (LegacyFlag.key_injective (js_inj.mp heq) ▸ hother)

/-- A respelled task requires the same capabilities. -/
theorem Respells.required_iff (h : Respells flags ps qs) (hread : TaskRead ps task)
    (hread' : TaskRead qs task') (hmode : task'.mode = task.mode)
    (hclass : task'.taskClass = task.taskClass)
    (hrisk : prop qs "risk_class" = prop ps "risk_class")
    (hlisted : ∀ c, c ∈ task'.requiredCapabilities ↔
      c ∈ task.requiredCapabilities ∨ ∃ flag ∈ flags, c = flag.capability)
    (capability : Capability) : capability ∈ task'.required ↔ capability ∈ task.required := by
  have hflag : (∃ flag, task'.flag flag = true ∧ capability = flag.capability) ∨
        (∃ flag ∈ flags, capability = flag.capability) ↔
      ∃ flag, task.flag flag = true ∧ capability = flag.capability := by
    simp only [hread.flag_eq, hread'.flag_eq, hclass]
    constructor
    · rintro (⟨flag, hset | hset, hc⟩ | ⟨flag, hmem, hc⟩)
      · by_cases hmem : flag ∈ flags
        · exact absurd hset (h.cleared flag hmem)
        · exact ⟨flag, .inl (h.prop_key hmem ▸ hset), hc⟩
      · exact ⟨flag, .inr hset, hc⟩
      · exact ⟨flag, .inl (h.set flag hmem), hc⟩
    · rintro ⟨flag, hset | hset, hc⟩
      · by_cases hmem : flag ∈ flags
        · exact .inr ⟨flag, hmem, hc⟩
        · exact .inl ⟨flag, .inl ((h.prop_key hmem).trans hset), hc⟩
      · exact .inl ⟨flag, .inr hset, hc⟩
  rw [hread.mem_required, hread'.mem_required, hmode, hrisk, hlisted, ← hflag]
  refine or_congr_right ?_
  rw [or_assoc, ← or_assoc (c := ∃ flag ∈ flags, _), or_comm (b := ∃ flag ∈ flags, _)]

/-- Another fallback changes what is read, not whether it is accepted. -/
theorem enumOr_fallback {α : Type} [JsEnum α] {fallback a : α} {v : JsValue} {label : JsString}
    (fallback' : α) (h : enumOr fallback v label = .ok a) :
    ∃ a', enumOr fallback' v label = .ok a' := by
  obtain ⟨hundefined, -⟩ | hmember := enumOr_eq_ok.mp h
  · exact ⟨fallback', enumOr_eq_ok.mpr (.inl ⟨hundefined, rfl⟩)⟩
  · exact ⟨a, enumOr_eq_ok.mpr (.inr hmember)⟩

/-- A respelled task is accepted, with the same class and the same requirements. -/
theorem Respells.taskRead (h : Respells flags ps qs) (hread : TaskRead ps task) :
    ∃ task', TaskRead qs task' ∧ SameRequirements task task' := by
  obtain ⟨capabilities, hcapabilities, hlisted⟩ := h.exists_listed hread.requiredCapabilities
  have hprop : ∀ name : String, name ≠ "required_capabilities" →
      (∀ flag : LegacyFlag, name ≠ flag.key) → prop qs name = prop ps name := by
    intro name hname hflags
    exact h.others name (mt js_inj.mp hname) fun flag _ heq => hflags flag (js_inj.mp heq)
  have hclass := hprop "task_class" (by decide) (by rintro ⟨⟩ <;> decide)
  have hmode := hprop "mode" (by decide) (by rintro ⟨⟩ <;> decide)
  have hrisk := hprop "risk_class" (by decide) (by rintro ⟨⟩ <;> decide)
  have hstages := hprop "stages_requested" (by decide) (by rintro ⟨⟩ <;> decide)
  have hscope := hprop "scope" (by decide) (by rintro ⟨⟩ <;> decide)
  have hevidence := hprop "evidence_ready" (by decide) (by rintro ⟨⟩ <;> decide)
  -- only the default of the risk depends on a flag
  obtain ⟨riskClass, hriskClass⟩ : ∃ riskClass : RiskClass, enumOr
      (if bool (prop qs "bounded_mutation_scope") then .boundedMutation
        else if task.mode = .read then .readOnly else .broadMutation)
      (prop qs "risk_class") "task.risk_class" = .ok riskClass :=
    enumOr_fallback _ (hrisk ▸ hread.riskClass)
  let task' : NormalizedTask :=
    { task with
      riskClass
      enforceReadOnly := bool (prop qs "enforce_read_only")
      boundedMutationScope := bool (prop qs "bounded_mutation_scope")
      requiresModelOverride := bool (prop qs "requires_model_override")
      requiresProviderOverride := bool (prop qs "requires_provider_override")
      requiresQuotaProbe := bool (prop qs "requires_quota_probe")
      requiresNativeThreadInventory := bool (prop qs "requires_native_thread_inventory")
      requiresExtensionCapability :=
        bool (prop qs "requires_extension_capability") || task.taskClass = .extensionCapability
      requiredCapabilities := capabilities }
  have hread' : TaskRead qs task' :=
    { taskClass := hclass ▸ hread.taskClass
      mode := hmode ▸ hread.mode
      riskClass := hriskClass
      stagesRequested := by
        rw [stagesRequested, hstages]
        exact hread.stagesRequested
      requiredCapabilities := hcapabilities
      scope := hscope ▸ hread.scope
      evidenceReady := hevidence ▸ hread.evidenceReady
      enforceReadOnly := rfl
      boundedMutationScope := rfl
      requiresModelOverride := rfl
      requiresProviderOverride := rfl
      requiresQuotaProbe := rfl
      requiresNativeThreadInventory := rfl
      requiresExtensionCapability := rfl }
  exact ⟨task', hread', rfl, h.required_iff hread hread' rfl rfl hrisk hlisted⟩

/-! ## Selections -/

/-- The same reason, and the same missing capabilities in any order. -/
def Rejection.Same : Rejection → Rejection → Prop
  | .capabilityMismatch missing, .capabilityMismatch missing' => ∀ c, c ∈ missing' ↔ c ∈ missing
  | reason, reason' => reason' = reason

/-- Two selections that differ at most in the order of missing capabilities. -/
structure SameSelection (selection selection' : Selection) : Prop where
  action : selection'.action = selection.action
  worker : selection'.worker = selection.worker
  fallbackChain : selection'.fallbackChain = selection.fallbackChain
  reason : selection'.reason = selection.reason
  rejected : Option.Rel (List.Forall₂ fun entry entry' => entry'.1 = entry.1 ∧
    entry.2.Same entry'.2) selection.rejected selection'.rejected

theorem none_iff_of_rel {α : Type} {R : α → α → Prop} {o o' : Option α} (h : Option.Rel R o o') :
    o' = none ↔ o = none := by
  cases h <;> simp

theorem rel_map_entry (worker : Worker) {o o' : Option Rejection}
    (h : Option.Rel Rejection.Same o o') :
    Option.Rel (fun entry entry' => entry'.1 = entry.1 ∧ entry.2.Same entry'.2)
      (o.map fun reason => (worker, reason)) (o'.map fun reason => (worker, reason)) := by
  cases h with
  | some hsame => exact .some ⟨rfl, hsame⟩
  | none => exact .none

theorem SameRequirements.rejection_rel (h : SameRequirements task task') (state : NormalizedState)
    (worker : Worker) :
    Option.Rel Rejection.Same (rejection task state worker) (rejection task' state worker) := by
  have hmissing : ∀ c, c ∈ capabilityReasons worker task' ↔ c ∈ capabilityReasons worker task := by
    intro c
    simp only [capabilityReasons, List.mem_eraseDups, List.mem_filter, h.required]
  have hlength : (capabilityReasons worker task').length > 0 ↔
      (capabilityReasons worker task).length > 0 := by
    simp only [gt_iff_lt, List.length_pos_iff_exists_mem, hmissing]
  simp only [rejection, hlength]
  split_ifs
  · exact .some hmissing
  · exact .some rfl
  · exact .some rfl
  · exact .some rfl
  · exact .none

theorem SameRequirements.orderedCandidates_rel (h : SameRequirements task task')
    (state : NormalizedState) (preferred : Option Worker) :
    (orderedCandidates task' state preferred).1 = (orderedCandidates task state preferred).1 ∧
      List.Forall₂ (fun entry entry' => entry'.1 = entry.1 ∧ entry.2.Same entry'.2)
        (orderedCandidates task state preferred).2 (orderedCandidates task' state preferred).2 := by
  have hnone : ∀ worker,
      rejection task' state worker = none ↔ rejection task state worker = none := by
    intro worker
    exact none_iff_of_rel (h.rejection_rel state worker)
  simp only [orderedCandidates, hnone, h.taskClass, true_and]
  refine List.rel_filterMap (R := Eq) ?_ (List.forall₂_same.mpr fun _ _ => rfl)
  rintro worker _ rfl
  exact rel_map_entry worker (h.rejection_rel state worker)

theorem SameRequirements.selectNormalized_rel (h : SameRequirements task task')
    (state : NormalizedState) (preferred : Option Worker) :
    SameSelection (selectNormalized task state preferred)
      (selectNormalized task' state preferred) := by
  have hcandidates := h.orderedCandidates_rel state preferred
  unfold selectNormalized
  split
  · split_ifs
    all_goals exact ⟨rfl, rfl, rfl, rfl, .none⟩
  · rw [h.taskClass]
    generalize orderedCandidates task state preferred = candidates at hcandidates
    generalize orderedCandidates task' state preferred = candidates' at hcandidates
    obtain ⟨compatible, rejected⟩ := candidates
    obtain ⟨compatible', rejected'⟩ := candidates'
    obtain ⟨rfl, hrejected⟩ := hcandidates
    cases compatible' with
    | nil => exact ⟨rfl, rfl, rfl, rfl, .some hrejected⟩
    | cons worker fallbackChain => exact ⟨rfl, rfl, rfl, rfl, .some hrejected⟩

/-- The same error, or selections that differ at most in the order of missing capabilities. -/
inductive SameOutcome : Throws Selection → Throws Selection → Prop
  | error (e : JsError) : SameOutcome (.error e) (.error e)
  | ok {selection selection' : Selection} (h : SameSelection selection selection') :
    SameOutcome (.ok selection) (.ok selection')

/-- **Flags are capabilities.** An accepted task is routed in the same way whichever of its
    flags are spelled as required capabilities. -/
theorem legacyFlags_equal {flags : Set LegacyFlag} {value value' : Props}
    {task state policy : JsValue} {normalizedTask : NormalizedTask} (hvalue : TaskProps task value)
    (haccepted : normalizeTask task = .ok normalizedTask) (h : Respells flags value value') :
    SameOutcome (selectWorker task state policy) (selectWorker (.obj value') state policy) := by
  obtain ⟨ps, hps, hread⟩ := normalizeTask_eq_ok.mp haccepted
  obtain rfl := JsValue.obj.inj (hps.symm.trans hvalue)
  obtain ⟨task', hread', hsame⟩ := h.taskRead hread
  have haccepted' : normalizeTask (.obj value') = .ok task' :=
    normalizeTask_eq_ok.mpr ⟨value', if_neg (by simp), hread'⟩
  rw [selectWorker, selectWorker, haccepted, haccepted', ok_bind, ok_bind]
  cases normalizeState state with
  | error e => exact .error e
  | ok normalizedState =>
    cases normalizePolicy policy with
    | error e => exact .error e
    | ok preferred => exact .ok (hsame.selectNormalized_rel normalizedState preferred)

end

/-- A bounded mutation that also needs reading to be enforced, by flags and by a list. -/
def flaggedTask : Props :=
  [("bounded_mutation_scope", .bool true), ("enforce_read_only", .bool true),
    ("required_capabilities", .arr [.str "bounded_mutation_scope"])]

/-- The same task, with the scope listed and its flag left out. -/
def listedTask : Props :=
  [("enforce_read_only", .bool true),
    ("required_capabilities", .arr [.str "bounded_mutation_scope", .str "bounded_mutation_scope"])]

theorem legacyFlags_equal_flaggedTask :
    SameOutcome (selectWorker (.obj flaggedTask) .undefined .undefined)
      (selectWorker (.obj listedTask) .undefined .undefined) := by
  refine @legacyFlags_equal {.boundedMutationScope} flaggedTask listedTask _ _ _ _ rfl rfl ?_
  constructor
  case set =>
    rintro _ rfl
    rfl
  case cleared =>
    rintro _ rfl
    decide
  case listed =>
    refine ⟨_, _, .inr rfl, .inr rfl, fun v => ?_⟩
    simp [LegacyFlag.capability, ofEnum, JsEnum.text]
  case others =>
    intro name hname hflag
    have hflag := hflag _ rfl
    simp only [LegacyFlag.key] at hflag
    simp [listedTask, flaggedTask, hname, hflag]

end Wns.Routing
