import Wns.Context.SkillSelection

/-!
# Context plans

Model of `selectContextPlan` and `resolveContextConflict` of
`supervisor-policy/context-policy.mjs`. The context of a run is composed in two places: here, with
the skills that a worker is to load, and in `buildExecutionPlan`, which leaves skills to the
worker.

* `context_agreement`: the two contexts of one run agree in everything that both compose.
* `conflict_order`: sources may be compared in any order, and the one with the most authority is
  left.
-/

namespace Wns.Context

open Ecma Routing

/-! ## Composing a context -/

inductive ContextAction
  | ready | blocked
  deriving DecidableEq

inductive ContextBlocker
  | projectContractMissing | skillResolutionRequired
  deriving DecidableEq

/-- What `selectContextPlan` returns. -/
structure ContextPlan where
  action : ContextAction
  blockers : List ContextBlocker
  worker : Worker
  projectContractMode : JsString
  projectContractAuthority : JsString
  nativeSessionHistory : JsString
  advisoryMemory : RecallDecision
  skills : SkillDecision
  evidence : List JsString
  authority : List JsString
  loaderOwner : JsString

/-- `value[key]` of any value. -/
def member (value : JsValue) (key : JsString) : Throws JsValue :=
  match value with
  | .undefined => throwType ("Cannot read properties of undefined (reading '" ++ key ++ "')")
  | .null => throwType ("Cannot read properties of null (reading '" ++ key ++ "')")
  | .obj ps => pure (prop ps key)
  | _ => pure .undefined

/-- The input of `evaluateRecallPolicy`. -/
def recallInput (memoryRecall : JsValue) (nativeSessionActive : Bool) : Throws JsValue := do
  let projectScoped ← member memoryRecall "project_scoped"
  let freshRun ← member memoryRecall "fresh_run"
  let reasons ← recallReasons.mapM fun reason => do
    let value ← member memoryRecall reason
    pure (reason, JsValue.bool (bool value))
  pure (.obj ((js "project_scoped", coalesce projectScoped (.bool true)) ::
    (js "fresh_run", coalesce freshRun (.bool !nativeSessionActive)) :: reasons))

/-- `selectContextPlan(input)`. -/
def selectContextPlan (localeCompare : JsString → JsString → ℤ) (input : Props) :
    Throws ContextPlan := do
  let worker ← enumMember "worker must be claude, codex, or pi" (prop input "worker")
  let projectContractPresent ← optionalBoolean (prop input "project_contract_present") true
    "project_contract_present"
  let nativeSessionActive ← optionalBoolean (prop input "native_session_active") false
    "native_session_active"
  let skills ← selectMinimalSkills localeCompare (prop input "worker")
    (prop input "required_skill_classes") (prop input "requested_skill_ids")
    (prop input "available_skills")
  let memoryRecall := prop input "memory_recall"
  let asked ← recallInput (if memoryRecall = .undefined then .obj [] else memoryRecall)
    nativeSessionActive
  let memory ← evaluateRecallPolicy asked
  let evidence ← stringArray (prop input "evidence") "evidence"
  let blockers :=
    (if projectContractPresent then [] else [ContextBlocker.projectContractMissing]) ++
    (if skills.action ≠ .ready then [ContextBlocker.skillResolutionRequired] else [])
  pure
    { action := if blockers.length = 0 then .ready else .blocked
      blockers, worker, skills, evidence
      projectContractMode := if projectContractPresent then "native" else "missing"
      projectContractAuthority := "project"
      nativeSessionHistory := if nativeSessionActive then "native_active" else "native_new"
      advisoryMemory := memory
      authority := contextAuthority
      loaderOwner := "native_worker" }

/-! ## Conflicts -/

/-- What `resolveContextConflict` returns. -/
inductive Resolution
  | sameAuthority
  | resolved (winner : JsString)
  deriving DecidableEq

/-- `RANK.get(source)`. -/
def rank (source : JsString) : ℕ := contextAuthority.idxOf source

/-- The sources of `resolveContextConflict`. -/
def knownSource : JsValue → Option JsString
  | .str source => if source ∈ contextAuthority then some source else none
  | _ => none

/-- `resolveContextConflict({ left_source, right_source })`. -/
def resolveContextConflict (leftSource rightSource : JsValue) : Throws Resolution :=
  match knownSource leftSource, knownSource rightSource with
  | some left, some right =>
    if left = right then pure .sameAuthority
    else if (left = js "task_and_project_contract" ∨ right = js "task_and_project_contract") ∧
        (if left = js "task_and_project_contract" then right else left) =
          js "security_hard_runtime" then
      pure (.resolved "security_hard_runtime")
    else if (left = js "task_and_project_contract" ∨ right = js "task_and_project_contract") ∧
        (if left = js "task_and_project_contract" then right else left) =
          js "task_and_project_contract" then
      pure .sameAuthority
    else if rank left < rank right then pure (.resolved left)
    else pure (.resolved right)
  | _, _ => throwType ("context sources must be one of: " ++
      List.intercalate (js ", ") contextAuthority)

/-! ## Recall -/

/-- A list that gives each key its value is read back. -/
theorem prop_map {l : List JsString} {g : JsString → JsValue} {key : JsString} (h : key ∈ l) :
    prop (l.map fun key => (key, g key)) key = g key := by
  induction l with
  | nil => cases h
  | cons k l ih =>
    rw [List.map_cons, prop_cons]
    by_cases hk : key = k
    · rw [if_pos hk, hk]
    · rw [if_neg hk]
      exact ih ((List.mem_cons.mp h).resolve_left hk)

theorem recallInput_obj (memory : Props) (active : Bool) : recallInput (.obj memory) active =
    .ok (.obj ((js "project_scoped", coalesce (prop memory "project_scoped") (.bool true)) ::
      (js "fresh_run", coalesce (prop memory "fresh_run") (.bool !active)) ::
      recallReasons.map fun reason => (reason, .bool (bool (prop memory reason))))) := rfl

/-- Only whether the scope, the run and the reasons hold counts for a recall. -/
theorem evaluateRecallPolicy_congr {ps qs : Props}
    (hscope : prop ps "project_scoped" = prop qs "project_scoped")
    (hrun : prop ps "fresh_run" = prop qs "fresh_run")
    (hreasons : ∀ reason ∈ recallReasons, bool (prop ps reason) = bool (prop qs reason)) :
    evaluateRecallPolicy (.obj ps) = evaluateRecallPolicy (.obj qs) := by
  have hfilter : (recallReasons.filter fun reason => bool (prop ps reason)) =
      recallReasons.filter fun reason => bool (prop qs reason) := List.filter_congr hreasons
  unfold evaluateRecallPolicy Routing.requireObject
  rw [if_neg nofun, if_neg nofun]
  simp only [plainObject, ok_bind, hscope, hrun, hfilter]

/-- The two ways to complete a description of the memory that is asked for. -/
theorem recall_agrees (memory : Props) (active : Bool) :
    evaluateRecallPolicy (.obj (defineProp (defineProp memory "project_scoped"
      (coalesce (prop memory "project_scoped") (.bool true))) "fresh_run"
      (coalesce (prop memory "fresh_run") (.bool !active)))) =
    recallInput (.obj memory) active >>= evaluateRecallPolicy := by
  have hother : ∀ reason ∈ recallReasons,
      reason ≠ js "project_scoped" ∧ reason ≠ js "fresh_run" := by
    decide
  rw [recallInput_obj, ok_bind]
  apply evaluateRecallPolicy_congr
  · rw [prop_defineProp, if_neg (by decide), prop_defineProp, if_pos rfl]
    rfl
  · rw [prop_defineProp, if_pos rfl]
    rfl
  · intro reason hreason
    obtain ⟨hscope, hrun⟩ := hother reason hreason
    rw [prop_defineProp, if_neg hrun, prop_defineProp, if_neg hscope, prop_cons, if_neg hscope,
      prop_cons, if_neg hrun, prop_map hreason]
    unfold Routing.bool
    simp

/-! ## One run, two contexts -/

theorem optionalBoolean_eq_ok {value : JsValue} {fallback b : Bool} {label : JsString} :
    optionalBoolean value fallback label = .ok b ↔
      value = .bool b ∨ value = .undefined ∧ b = fallback := by
  cases value with
  | undefined | bool => simp [optionalBoolean, eq_comm]
  | _ => simp [optionalBoolean]

/-- The label names a list in errors only. -/
theorem stringArray_unique {value : JsValue} {label label' : JsString} {l l' : List JsString}
    (h : Routing.stringArray value label = .ok l) (h' : Routing.stringArray value label' = .ok l') :
    l = l' := by
  unfold Routing.stringArray at h h'
  cases value with
  | undefined => exact (Except.ok.inj h).symm.trans (Except.ok.inj h')
  | arr items =>
    obtain ⟨texts, htexts, h⟩ := bind_eq_ok.mp h
    obtain ⟨texts', htexts', h'⟩ := bind_eq_ok.mp h'
    have hitems := eq_map_of_mapM (fun _ _ => eq_str_of_nonEmptyText) htexts
    have hitems' := eq_map_of_mapM (fun _ _ => eq_str_of_nonEmptyText) htexts'
    have htexts : texts = texts' :=
      (List.map_injective_iff.mpr fun _ _ => JsValue.str.inj) (hitems.symm.trans hitems')
    rw [← pure_eq_ok.mp h, ← pure_eq_ok.mp h', htexts]
  | _ => simp at h

/-- The description of the memory, where it is an object or left out. -/
def recallProps : JsValue → Props
  | .obj ps => ps
  | _ => []

/-- What the two contexts are composed of, from the properties that they share. -/
structure Composed (input : Props) (present active : Bool) (memory : RecallDecision)
    (evidence : List JsString) : Prop where
  contract : prop input "project_contract_present" = .bool present ∨
    prop input "project_contract_present" = .undefined ∧ present = true
  session : prop input "native_session_active" = .bool active ∨
    prop input "native_session_active" = .undefined ∧ active = false
  ofRecall : (recallInput (.obj (recallProps (prop input "memory_recall"))) active >>=
    evaluateRecallPolicy) = .ok memory
  list : ∃ label, Routing.stringArray (prop input "evidence") label = .ok evidence

/-- The properties that both are composed of. -/
def sharedKeys : List JsString :=
  ["project_contract_present", "native_session_active", "memory_recall", "evidence"]

theorem boolean_unique {value : JsValue} {fallback b b' : Bool}
    (h : value = .bool b ∨ value = .undefined ∧ b = fallback)
    (h' : value = .bool b' ∨ value = .undefined ∧ b' = fallback) : b = b' := by
  rw [← @optionalBoolean_eq_ok value fallback _ []] at h h'
  exact Except.ok.inj (h.symm.trans h')

theorem Composed.unique {input context : Props} {present present' active active' : Bool}
    {memory memory' : RecallDecision} {evidence evidence' : List JsString}
    (h : Composed context present active memory evidence)
    (h' : Composed input present' active' memory' evidence')
    (hsame : ∀ key ∈ sharedKeys, prop input key = prop context key) :
    present = present' ∧ active = active' ∧ memory = memory' ∧ evidence = evidence' := by
  unfold sharedKeys at hsame
  simp only [List.forall_mem_cons] at hsame
  obtain ⟨hcontract, hsession, hrecall, hlist, -⟩ := hsame
  have hpresent := boolean_unique h.contract (hcontract ▸ h'.contract)
  have hactive := boolean_unique h.session (hsession ▸ h'.session)
  refine ⟨hpresent, hactive, ?_, ?_⟩
  · have hmemory := h'.ofRecall
    rw [hrecall, ← hactive, h.ofRecall] at hmemory
    exact Except.ok.inj hmemory
  · obtain ⟨label, hevidence⟩ := h.list
    obtain ⟨label', hevidence'⟩ := h'.list
    rw [hlist] at hevidence'
    exact stringArray_unique hevidence hevidence'

/-- A description that is no object reads like an empty one. -/
theorem recallInput_recallProps {value asked : JsValue} {active : Bool}
    (h : recallInput (if value = .undefined then .obj [] else value) active = .ok asked) :
    recallInput (.obj (recallProps value)) active = .ok asked := by
  cases value with
  | null => simp [recallInput, member] at h
  | undefined | bool | num | str | arr | obj => exact h

/-- What the context plan says of its parts. -/
theorem selectContextPlan_composed {localeCompare : JsString → JsString → ℤ} {input : Props}
    {plan : ContextPlan} (h : selectContextPlan localeCompare input = .ok plan) :
    ∃ present active, Composed input present active plan.advisoryMemory plan.evidence ∧
      plan.projectContractMode = (if present then js "native" else js "missing") ∧
      plan.nativeSessionHistory = (if active then js "native_active" else js "native_new") ∧
      plan.projectContractAuthority = js "project" ∧ plan.authority = contextAuthority ∧
      (plan.action = .ready ↔ present = true ∧ plan.skills.action = .ready) := by
  unfold selectContextPlan at h
  simp only [bind_eq_ok, optionalBoolean_eq_ok, pure_eq_ok] at h
  obtain ⟨worker, -, present, hpresent, active, hactive, skills, -, asked, hasked, memory,
    hmemory, evidence, hevidence, rfl⟩ := h
  refine ⟨present, active, ⟨hpresent, hactive, ?_, _, hevidence⟩, rfl, rfl, rfl, rfl, ?_⟩
  · rw [recallInput_recallProps hasked]
    exact hmemory
  · cases present <;> cases skills.action <;> simp

/-- What the context of an execution plan says of its parts. -/
theorem composePlan_composed {selection : Selection} {context : Props} {plan : ExecutionPlan}
    (h : composePlan selection context = .ok plan) : ∃ ctx present active,
      plan.context = some ctx ∧ Composed context present active ctx.advisoryMemory ctx.evidence ∧
      ctx.projectContractMode = (if present then js "native" else js "missing") ∧
      ctx.nativeSessionHistory = (if active then js "native_active" else js "native_new") ∧
      ctx.projectContractAuthority = js "project" ∧ ctx.authority = contextAuthority ∧
      (plan.executionAllowed = true → present = true) := by
  unfold composePlan at h
  simp only [bind_eq_ok, optionalBoolean_eq_ok, pure_eq_ok] at h
  obtain ⟨present, hpresent, active, hactive, conflict, -, evidence, hevidence, asked, hasked,
    memory, hmemory, rfl⟩ := h
  refine ⟨_, present, active, rfl, ⟨hpresent, hactive, ?_, _, hevidence⟩, rfl, rfl, rfl, rfl, ?_⟩
  · have hprops : asked = recallProps (prop context "memory_recall") := by
      have hobj := plainObject_eq_ok.mp hasked
      cases hvalue : prop context "memory_recall" <;> simp_all [coalesce, recallProps]
    rw [← hprops, ← recall_agrees]
    exact hmemory
  · cases present <;> simp

/-- Only a plan with a worker has a context. -/
theorem exists_composePlan {task state policy : JsValue} {context : Props} {plan : ExecutionPlan}
    {ctx : PlanContext} (h : buildExecutionPlan task state policy (.obj context) = .ok plan)
    (hcontext : plan.context = some ctx) :
    ∃ selection, composePlan selection context = .ok plan := by
  unfold buildExecutionPlan at h
  obtain ⟨_, hobj, h⟩ := bind_eq_ok.mp h
  obtain rfl := JsValue.obj.inj (plainObject_eq_ok.mp hobj)
  obtain ⟨selection, -, h⟩ := bind_eq_ok.mp h
  refine ⟨selection, ?_⟩
  cases haction : selection.action with
  | select =>
    rw [haction] at h
    exact h
  | reconcile | hold | noWorker =>
    rw [haction] at h
    obtain rfl := pure_eq_ok.mp h
    cases hcontext

/-- **The two contexts of one run agree.** Whatever context `buildExecutionPlan` composes, a
    context plan for a run of the same description says the same of the contract, the history, the
    memory and the evidence; with its skills resolved it is ready wherever execution is allowed. -/
theorem context_agreement {localeCompare : JsString → JsString → ℤ}
    {task state policy : JsValue} {context input : Props} {plan : ExecutionPlan} {ctx : PlanContext}
    {contextPlan : ContextPlan}
    (hplan : buildExecutionPlan task state policy (.obj context) = .ok plan)
    (hcontext : plan.context = some ctx)
    (hinput : selectContextPlan localeCompare input = .ok contextPlan)
    (hsame : ∀ key ∈ sharedKeys, prop input key = prop context key) :
    contextPlan.projectContractMode = ctx.projectContractMode ∧
      contextPlan.projectContractAuthority = ctx.projectContractAuthority ∧
      contextPlan.nativeSessionHistory = ctx.nativeSessionHistory ∧
      contextPlan.advisoryMemory = ctx.advisoryMemory ∧
      contextPlan.evidence = ctx.evidence ∧ contextPlan.authority = ctx.authority ∧
      (plan.executionAllowed = true → contextPlan.skills.action = .ready →
        contextPlan.action = .ready) := by
  obtain ⟨selection, hcompose⟩ := exists_composePlan hplan hcontext
  obtain ⟨ctx', present, active, hctx, hcomposed, hcontract, hhistory, howner, hauthority,
    hallowed⟩ := composePlan_composed hcompose
  obtain rfl : ctx = ctx' := Option.some.inj (hcontext.symm.trans hctx)
  obtain ⟨present', active', hcomposed', hcontract', hhistory', howner', hauthority', hready⟩ :=
    selectContextPlan_composed hinput
  obtain ⟨rfl, rfl, hmemory, hevidence⟩ := hcomposed.unique hcomposed' hsame
  refine ⟨hcontract'.trans hcontract.symm, howner'.trans howner.symm, hhistory'.trans hhistory.symm,
    hmemory.symm, hevidence.symm, hauthority'.trans hauthority.symm, fun h hskills => ?_⟩
  exact hready.mpr ⟨hallowed h, hskills⟩

/-- A run in which the session has a history and a note is at hand. -/
def sampleRun : Props :=
  [(js "worker", .str (js "pi")), (js "native_session_active", .bool true),
    (js "evidence", .arr [.str (js "note")])]

theorem context_agreement_sample : ∃ plan ctx,
    selectContextPlan (fun _ _ => 0) sampleRun = .ok plan ∧
      (∃ execution, buildExecutionPlan .undefined .undefined .undefined (.obj sampleRun) =
        .ok execution ∧ execution.context = some ctx) ∧
      plan.evidence = ctx.evidence ∧ plan.nativeSessionHistory = ctx.nativeSessionHistory := by
  obtain ⟨plan, hplan⟩ : ∃ plan, selectContextPlan (fun _ _ => 0) sampleRun = .ok plan := ⟨_, rfl⟩
  obtain ⟨execution, ctx, hexecution, hctx⟩ : ∃ execution ctx, buildExecutionPlan .undefined
      .undefined .undefined (.obj sampleRun) = .ok execution ∧ execution.context = some ctx :=
    ⟨_, _, rfl, rfl⟩
  obtain ⟨-, -, hhistory, -, hevidence, -⟩ :=
    context_agreement hexecution hctx hplan fun _ _ => rfl
  exact ⟨plan, ctx, hplan, ⟨execution, hexecution, hctx⟩, hevidence, hhistory⟩

/-! ## Comparing sources -/

/-- Of two sources the one that stands first in `CONTEXT_AUTHORITY` wins, on whichever side it
    is. The branches about the project contract change nothing. -/
theorem resolve_winner {left right : JsString} (hleft : left ∈ contextAuthority)
    (hright : right ∈ contextAuthority) : resolveContextConflict (.str left) (.str right) =
      .ok (if left = right then .sameAuthority
        else .resolved (if rank left < rank right then left else right)) := by
  have hall : ∀ left ∈ contextAuthority, ∀ right ∈ contextAuthority,
      resolveContextConflict (.str left) (.str right) =
        .ok (if left = right then .sameAuthority
          else .resolved (if rank left < rank right then left else right)) := by decide
  exact hall left hleft right hright

/-- The source that is left when each next one is compared with the winner so far. -/
def strongest (first : JsString) (sources : List JsString) : Throws JsString :=
  sources.foldlM (fun winner source => do
    match ← resolveContextConflict (.str winner) (.str source) with
    | .sameAuthority => pure winner
    | .resolved winner => pure winner) first

/-- One comparison leaves the source with more authority. -/
theorem strongest_cons {first source : JsString} {sources : List JsString}
    (hfirst : first ∈ contextAuthority) (hsource : source ∈ contextAuthority) :
    strongest first (source :: sources) =
      strongest (if rank first < rank source then first else source) sources := by
  unfold strongest
  rw [List.foldlM_cons, resolve_winner hfirst hsource, ok_bind]
  by_cases heq : first = source
  · rw [if_pos heq, heq, if_neg (lt_irrefl _)]
    rfl
  · rw [if_neg heq]
    rfl

theorem strongest_eq {first : JsString} {sources : List JsString}
    (h : ∀ source ∈ first :: sources, source ∈ contextAuthority) :
    ∃ winner ∈ first :: sources, strongest first sources = .ok winner ∧
      ∀ source ∈ first :: sources, rank winner ≤ rank source := by
  induction sources generalizing first with
  | nil => exact ⟨first, List.mem_cons_self, rfl, by simp⟩
  | cons source sources ih =>
    rw [List.forall_mem_cons, List.forall_mem_cons] at h
    obtain ⟨hfirst, hsource, hrest⟩ := h
    rw [strongest_cons hfirst hsource]
    have hnext : ∀ s ∈ (if rank first < rank source then first else source) :: sources,
        s ∈ contextAuthority := by
      rw [List.forall_mem_cons]
      exact ⟨by split_ifs <;> assumption, hrest⟩
    obtain ⟨winner, hmem, hwinner, hleast⟩ := ih hnext
    rw [List.forall_mem_cons] at hleast
    refine ⟨winner, ?_, hwinner, ?_⟩
    · split_ifs at hmem <;> simp only [List.mem_cons] at hmem ⊢ <;> tauto
    · rw [List.forall_mem_cons, List.forall_mem_cons]
      have hle := hleast.1
      split_ifs at hle <;> exact ⟨by omega, by omega, hleast.2⟩

theorem rank_injective {left right : JsString} (hleft : left ∈ contextAuthority)
    (h : rank left = rank right) : left = right := (List.idxOf_inj hleft).mp h

/-- **Sources may be compared in any order.** Whichever is taken first, the one that is left has
    the most authority of all. -/
theorem conflict_order {first first' : JsString} {sources sources' : List JsString}
    (hperm : (first :: sources).Perm (first' :: sources'))
    (h : ∀ source ∈ first :: sources, source ∈ contextAuthority) :
    strongest first sources = strongest first' sources' ∧
      ∃ winner ∈ first :: sources, strongest first sources = .ok winner ∧
        ∀ source ∈ first :: sources, rank winner ≤ rank source := by
  obtain ⟨winner, hmem, hwinner, hleast⟩ := strongest_eq h
  obtain ⟨winner', hmem', hwinner', hleast'⟩ :=
    strongest_eq fun source hsource => h source (hperm.mem_iff.mpr hsource)
  refine ⟨?_, winner, hmem, hwinner, hleast⟩
  have hle := hleast winner' (hperm.mem_iff.mpr hmem')
  have hle' := hleast' winner (hperm.mem_iff.mp hmem)
  rw [hwinner, hwinner', rank_injective (h winner hmem) (le_antisymm hle hle')]

theorem conflict_order_recall : strongest (js "advisory_memory") [js "skill_procedure"] =
    strongest (js "skill_procedure") [js "advisory_memory"] :=
  (conflict_order (List.Perm.swap _ _ []) (by decide)).1

end Wns.Context
