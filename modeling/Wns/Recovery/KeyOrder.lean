import Wns.Recovery.ResumePreflight

/-!
# Preflight and the order of keys

A plan that has been stored comes back with the keys of its objects in another order. All of
it is compared by value, or is text that has no keys, except for the references, which are
compared by their JSON text.

* `of_evaluateResumePreflight_ne`: only the references can tell two such plans apart.
* `preflight_keyOrder_iff`: exactly when the answer does not depend on the order.
* `preflight_of_references`: the order of all other keys does not matter.
-/

namespace Wns.Recovery

open Ecma

/-! ## The schema of a plan -/

section

variable {ps qs : Props} {c : TaskCheckpoint} {f : RuntimeFacts}

theorem string_jsonEq {v w : JsValue} (h : JsonEq v w) (label : JsString) :
    string v label = string w label := by
  cases h <;> rfl

theorem planTarget_jsonEq (h : JsonEq (.obj ps) (.obj qs)) : planTarget ps = planTarget qs := by
  unfold planTarget
  rw [string_jsonEq (jsonEq_prop h "target_worker_id")]
  simp only [(jsonEq_prop h "action").eq_iff (u := .str "spawn_cross_worker") trivial]

/-- A plan that lists its keys in another order meets the schema too. -/
theorem PlanSchema.jsonEq (hp : PlanSchema ps) (h : JsonEq (.obj ps) (.obj qs)) :
    PlanSchema qs := by
  obtain ⟨_, hobj, hnames, -⟩ := jsonEq_obj_iff.mp h
  obtain rfl := JsValue.obj.inj hobj
  have heq : ∀ (k : JsString) {u : JsValue}, u.IsPrimitive → (prop qs k = u ↔ prop ps k = u) :=
    fun k _ hu => ((jsonEq_prop h k).eq_iff hu).symm
  refine ⟨?_, ?_, ?_, ?_, ?_, ?_, ?_⟩
  · intro k
    rw [← hnames k, hp.keys k]
    simp only [heq "action" (u := .str "spawn_cross_worker") trivial]
  · simpa only [heq "planned" (u := .bool true) trivial,
      heq "plan_version" (u := .nat 1) trivial,
      heq "action" (u := .str "spawn_cross_worker") trivial,
      heq "action" (u := .str "spawn_same_worker") trivial,
      heq "target_native_session_id" (u := .null) trivial] using hp.planned
  · obtain ⟨target, htarget, hdiffers⟩ := hp.target
    refine ⟨target, planTarget_jsonEq h ▸ htarget, fun worker hworker hsource => ?_⟩
    exact hdiffers worker hworker
      ((heq "source_worker_id" (u := ofString worker) trivial).mp hsource.symm).symm
  · exact hp.claimKey.imp fun key => (heq _ (u := ofString key) trivial).mpr
  · exact hp.taskId.imp fun id => (heq _ (u := ofString id) trivial).mpr
  · exact hp.revision.imp fun n => (heq _ (u := .nat n.1) trivial).mpr
  · obtain ⟨next, hnext⟩ := hp.nextAction
    have hjson := hnext ▸ jsonEq_prop h "next_action"
    obtain ⟨next', hnext', -⟩ := jsonEq_obj.mp hjson.symm
    exact ⟨next', hnext'⟩

theorem normalizePlan_jsonEq {v w : JsValue} (h : JsonEq v w) (hv : normalizePlan v = .ok ps) :
    ∃ qs, normalizePlan w = .ok qs ∧ JsonEq (.obj ps) (.obj qs) := by
  obtain ⟨rfl, hp⟩ := normalizePlan_eq_ok.mp hv
  obtain ⟨qs, rfl, -⟩ := jsonEq_obj.mp h.symm
  exact ⟨qs, normalizePlan_eq_ok.mpr ⟨rfl, hp.jsonEq h⟩, h⟩

/-! ## Everything but the references -/

theorem getMember_jsonEq {v w : JsValue} (h : JsonEq v w) (key : JsString) :
    (∃ e, getMember v key = .error e ∧ getMember w key = .error e) ∨
      ∃ u u', getMember v key = .ok u ∧ getMember w key = .ok u' ∧ JsonEq u u' := by
  cases h with
  | arr => exact .inr ⟨_, _, rfl, rfl, .refl _⟩
  | obj hk hprop => exact .inr ⟨_, _, rfl, rfl, jsonEq_prop (.obj hk hprop) key⟩
  | primitive =>
    cases hv : getMember v key with
    | error e => exact .inl ⟨e, rfl, rfl⟩
    | ok u => exact .inr ⟨u, u, rfl, rfl, .refl u⟩

theorem workspaceDiffers_jsonEq (h : JsonEq (.obj ps) (.obj qs)) {key : JsString}
    (fact : JsValue) (hfact : fact.IsPrimitive) (current : JsValue) :
    workspaceDiffers ps key fact current = workspaceDiffers qs key fact current := by
  unfold workspaceDiffers
  split_ifs
  · rfl
  · obtain ⟨e, hv, hw⟩ | ⟨u, u', hv, hw, hu⟩ :=
      getMember_jsonEq (jsonEq_prop h "workspace") key
    · rw [hv, hw]
    · have := hu.eq_iff hfact
      simp [hv, hw, eq_comm (a := fact), this]

theorem branchDiffers_jsonEq (h : JsonEq (.obj ps) (.obj qs)) :
    branchDiffers c ps f = branchDiffers c qs f := by
  unfold branchDiffers
  rw [workspaceDiffers_jsonEq h _ (by cases f.workspace.branch <;> trivial)]

theorem effectDecision_jsonEq (hp : PlanSchema ps) (h : JsonEq (.obj ps) (.obj qs)) :
    effectDecision ps f = effectDecision qs f := by
  obtain ⟨key, hkey⟩ := hp.claimKey
  have hkey' : prop qs "claim_key" = ofString key :=
    ((jsonEq_prop h "claim_key").eq_iff (u := ofString key) trivial).mp hkey
  unfold effectDecision
  rw [hkey, hkey']

theorem mem_ofStrings_jsonEq {v w : JsValue} (h : JsonEq v w) (l : List TrimmedString) :
    v ∈ l.map ofString ↔ w ∈ l.map ofString := by
  simp only [List.mem_map]
  refine exists_congr fun s => and_congr_right fun _ => ?_
  have := h.eq_iff (u := ofString s) trivial
  rw [eq_comm, this, eq_comm]

/-- Lists of names are compared by their text, which has no keys. -/
theorem same_jsonEq {v w : JsValue} (h : JsonEq v w) (l : List TrimmedString) :
    same v (ofStrings l) = same w (ofStrings l) := by
  have key : ∀ {v w : JsValue}, JsonEq v w → same w (ofStrings l) = true →
      same v (ofStrings l) = true := by
    intro v w h hw
    by_cases hu : w = .undefined
    · rw [hu] at hw h
      rwa [(jsonEq_primitive (w := .undefined) trivial).mp h]
    · have hv : v ≠ .undefined := fun hv =>
        hu ((h.eq_iff (u := .undefined) trivial).mp hv)
      have hl : ofStrings l = .arr ((l.map Subtype.val).map .str) :=
        congrArg JsValue.arr (List.map_map ..).symm
      have htext : jsonText w = jsonText (.arr ((l.map Subtype.val).map .str)) := by
        simpa [same, stringify, hu, hl] using hw
      have hv' := h.jsonText_eq_strings htext
      simpa [same, stringify, hu, hv, hv'] using hw
  exact Bool.eq_iff_iff.mpr ⟨key h.symm, key h⟩

/-- The guards that stand before the references all let the plan pass. -/
structure UpToReferences (c : TaskCheckpoint) (plan : Props) (f : RuntimeFacts) : Prop where
  taskId : prop plan "task_id" = ofString c.task.id
  revision : prop plan "checkpoint_revision" = .nat c.revision.1
  taskOpen : c.task.status = .open
  safe : c.continuation.safeToResume = true
  approval : ¬ approvalBlocks c
  humanBlock : f.humanBlock = .none
  path : workspaceDiffers plan "path" (ofString f.workspace.path) (ofString c.workspace.path) =
    .ok false
  gitSha : workspaceDiffers plan "git_sha" (ofNullable f.workspace.gitSha)
    (ofNullable c.workspace.gitSha) = .ok false
  branch : branchDiffers c plan f = .ok false
  gate : ∃ gate ∈ c.gates.open.1,
    getMember (prop plan "next_action") "gate_id" = .ok (ofString gate)
  completed : ∃ completed, getMember (prop plan "gates") "completed" = .ok completed ∧
    same completed (ofStrings c.gates.completed.1) = true

theorem UpToReferences.jsonEq (hu : UpToReferences c ps f) (h : JsonEq (.obj ps) (.obj qs)) :
    UpToReferences c qs f where
  taskId := ((jsonEq_prop h "task_id").eq_iff (u := ofString c.task.id) trivial).mp hu.taskId
  revision := ((jsonEq_prop h "checkpoint_revision").eq_iff (u := .nat c.revision.1) trivial).mp
    hu.revision
  taskOpen := hu.taskOpen
  safe := hu.safe
  approval := hu.approval
  humanBlock := hu.humanBlock
  path := workspaceDiffers_jsonEq h (ofString f.workspace.path) trivial _ ▸ hu.path
  gitSha := workspaceDiffers_jsonEq h (ofNullable f.workspace.gitSha)
    (by cases f.workspace.gitSha <;> trivial) _ ▸ hu.gitSha
  branch := branchDiffers_jsonEq h ▸ hu.branch
  gate := by
    obtain ⟨gate, hopen, hgate⟩ := hu.gate
    obtain ⟨e, hv, -⟩ | ⟨u, u', hv, hw, hu⟩ :=
      getMember_jsonEq (jsonEq_prop h "next_action") "gate_id"
    · simp [hgate] at hv
    · obtain rfl := Except.ok.inj (hgate.symm.trans hv)
      exact ⟨gate, hopen, hw.trans (congrArg Except.ok
        ((hu.eq_iff (u := ofString gate) trivial).mp rfl))⟩
  completed := by
    obtain ⟨completed, hcompleted, hsame⟩ := hu.completed
    obtain ⟨e, hv, -⟩ | ⟨u, u', hv, hw, hu⟩ :=
      getMember_jsonEq (jsonEq_prop h "gates") "completed"
    · simp [hcompleted] at hv
    · obtain rfl := Except.ok.inj (hcompleted.symm.trans hv)
      exact ⟨u', hw, same_jsonEq hu _ ▸ hsame⟩

/-! ## The answer -/

/-- The body of `evaluateResumePreflight`, on inputs that have been normalized. -/
theorem evaluateResumePreflight_of_upToReferences {checkpoint rawPlan rawFacts : JsValue}
    (hc : validateTaskCheckpoint checkpoint = .ok c) (hplan : normalizePlan rawPlan = .ok ps)
    (hf : normalizeFacts rawFacts = .ok f) (hu : UpToReferences c ps f) :
    evaluateResumePreflight checkpoint rawPlan rawFacts =
      (referencesDrift c ps).map fun drift =>
        if drift then decision .recoveryRequired .requiredRefsDrift else effectDecision ps f := by
  obtain ⟨gate, hopen, hgate⟩ := hu.gate
  obtain ⟨completed, hcompleted, hsame⟩ := hu.completed
  have hdone : ofString gate ∉ c.gates.completed.1.map ofString := by
    intro hmem
    obtain ⟨gate', hgate', heq⟩ := List.mem_map.mp hmem
    exact c.gates.disjoint gate (ofString_inj.mp heq ▸ hgate') hopen
  have hopen' : ofString gate ∈ c.gates.open.1.map ofString := List.mem_map_of_mem hopen
  simp only [evaluateResumePreflight, hc, hplan, hf, ok_bind, hu.taskId, hu.revision, hu.taskOpen,
    hu.safe, hu.approval, hu.humanBlock, hu.path, hu.gitSha, hu.branch, continuityDecision, hgate,
    hdone, hopen', hcompleted, hsame, ne_eq, not_true_eq_false, if_false, reduceCtorEq]
  cases referencesDrift c ps with
  | error e => rfl
  | ok drift => cases drift <;> rfl

/-- Where the answers differ, the guard that is reached next is passed by both plans. -/
theorem of_ite_ne {α : Type} {p q : Prop} [Decidable p] [Decidable q] {x y y' : α} (hpq : p ↔ q)
    (h : (if p then x else y) ≠ (if q then x else y')) : ¬ p ∧ y ≠ y' := by
  by_cases hp : p
  · exact absurd (by rw [if_pos hp, if_pos (hpq.mp hp)]) h
  · rw [if_neg hp, if_neg (mt hpq.mpr hp)] at h
    exact ⟨hp, h⟩

theorem of_bind_ne {α β : Type} {x x' : Throws α} {k k' : α → Throws β} (hx : x = x')
    (h : (x >>= k) ≠ (x' >>= k')) : ∃ a, x = .ok a ∧ k a ≠ k' a := by
  subst hx
  cases x with
  | error e => exact absurd rfl h
  | ok a => exact ⟨a, rfl, h⟩

theorem of_getMember_ne {β : Type} {v w : JsValue} {key : JsString} {k k' : JsValue → Throws β}
    (hvw : JsonEq v w) (h : (getMember v key >>= k) ≠ (getMember w key >>= k')) :
    ∃ u u', getMember v key = .ok u ∧ JsonEq u u' ∧ k u ≠ k' u' := by
  obtain ⟨e, hv, hw⟩ | ⟨u, u', hv, hw, hu⟩ := getMember_jsonEq hvw key
  · rw [hv, hw] at h
    exact absurd rfl h
  · rw [hv, hw] at h
    exact ⟨u, u', hv, hu, h⟩

theorem of_continuityDecision_ne (h : JsonEq (.obj ps) (.obj qs))
    (hne : continuityDecision c ps f ≠ continuityDecision c qs f) :
    (∃ gate ∈ c.gates.open.1,
      getMember (prop ps "next_action") "gate_id" = .ok (ofString gate)) ∧
    ∃ completed, getMember (prop ps "gates") "completed" = .ok completed ∧
      same completed (ofStrings c.gates.completed.1) = true := by
  unfold continuityDecision at hne
  obtain ⟨g, g', hg, hgg, hne⟩ := of_getMember_ne (jsonEq_prop h "next_action") hne
  obtain ⟨-, hne⟩ := of_ite_ne (mem_ofStrings_jsonEq hgg _) hne
  obtain ⟨hopen, hne⟩ := of_ite_ne (not_congr (mem_ofStrings_jsonEq hgg _)) hne
  obtain ⟨v, v', hv, hvv, hne⟩ := of_getMember_ne (jsonEq_prop h "gates") hne
  obtain ⟨hsame, -⟩ := of_ite_ne (by rw [same_jsonEq hvv]) hne
  obtain ⟨gate, hgate, rfl⟩ := List.mem_map.mp (not_not.mp hopen)
  exact ⟨⟨gate, hgate, hg⟩, v, hv, Bool.eq_true_of_not_eq_false hsame⟩

/-- Only the references can tell two plans apart that differ in the order of keys. -/
theorem of_evaluateResumePreflight_ne {checkpoint v w rawFacts : JsValue}
    (hc : validateTaskCheckpoint checkpoint = .ok c) (hv : normalizePlan v = .ok ps)
    (hw : normalizePlan w = .ok qs) (hf : normalizeFacts rawFacts = .ok f)
    (h : JsonEq (.obj ps) (.obj qs))
    (hne : evaluateResumePreflight checkpoint v rawFacts ≠
      evaluateResumePreflight checkpoint w rawFacts) : UpToReferences c ps f := by
  have hid := (jsonEq_prop h "task_id").eq_iff (u := ofString c.task.id) trivial
  have hrevision := (jsonEq_prop h "checkpoint_revision").eq_iff (u := .nat c.revision.1) trivial
  simp only [evaluateResumePreflight, hc, hv, hw, hf, ok_bind] at hne
  obtain ⟨h1, hne⟩ := of_ite_ne (not_congr hid) hne
  obtain ⟨h2, hne⟩ := of_ite_ne (not_congr hrevision) hne
  obtain ⟨h3, hne⟩ := of_ite_ne .rfl hne
  obtain ⟨h4, hne⟩ := of_ite_ne .rfl hne
  obtain ⟨h5, hne⟩ := of_ite_ne .rfl hne
  obtain ⟨h6, hne⟩ := of_ite_ne .rfl hne
  obtain ⟨h7, hne⟩ := of_ite_ne .rfl hne
  obtain ⟨path, hpath, hne⟩ := of_bind_ne
    (workspaceDiffers_jsonEq h (ofString f.workspace.path) trivial _) hne
  obtain ⟨h8, hne⟩ := of_ite_ne .rfl hne
  obtain ⟨gitSha, hgitSha, hne⟩ := of_bind_ne (workspaceDiffers_jsonEq h
    (ofNullable f.workspace.gitSha) (by cases f.workspace.gitSha <;> trivial) _) hne
  obtain ⟨h9, hne⟩ := of_ite_ne .rfl hne
  obtain ⟨branch, hbranch, hne⟩ := of_bind_ne (branchDiffers_jsonEq h) hne
  obtain ⟨h10, hne⟩ := of_ite_ne .rfl hne
  obtain ⟨hgate, hcompleted⟩ := of_continuityDecision_ne h hne
  exact ⟨not_not.mp h1, not_not.mp h2, not_not.mp h3, Bool.eq_true_of_not_eq_false h4, h5,
    by cases hb : f.humanBlock <;> simp_all, Bool.eq_false_of_not_eq_true h8 ▸ hpath,
    Bool.eq_false_of_not_eq_true h9 ▸ hgitSha, Bool.eq_false_of_not_eq_true h10 ▸ hbranch,
    hgate, hcompleted⟩

theorem effectDecision_reasonCode (plan : Props) (f : RuntimeFacts) :
    (effectDecision plan f).reasonCode ≠ .requiredRefsDrift := by
  unfold effectDecision decision
  split_ifs <;> simp

/-- The answers of two runs are the same iff what they are computed from is. -/
theorem forall_map_eq_ok_iff {α β : Type} {g : α → β} (hg : Function.Injective g)
    {x y : Throws α} :
    (∀ r, x.map g = .ok r ↔ y.map g = .ok r) ↔ ∀ a, x = .ok a ↔ y = .ok a := by
  have hmap : ∀ {z : Throws α} {a : α}, z.map g = .ok (g a) ↔ z = .ok a := by
    intro z a
    cases z with
    | error e => simp [Except.map]
    | ok b => simp [Except.map, hg.eq_iff]
  constructor
  · intro h a
    rw [← hmap, h, hmap]
  · intro h r
    have key : ∀ {z z' : Throws α}, (∀ a, z = .ok a → z' = .ok a) → z.map g = .ok r →
        z'.map g = .ok r := by
      intro z z' hz hr
      cases z with
      | error e => simp [Except.map] at hr
      | ok a =>
        rw [hz a rfl]
        exact hr
    exact ⟨key fun a => (h a).mp, key fun a => (h a).mpr⟩

/-- Where the references are reached, the answers agree precisely when the references do. -/
theorem preflight_iff_of_upToReferences {checkpoint v w rawFacts : JsValue}
    (hc : validateTaskCheckpoint checkpoint = .ok c) (hv : normalizePlan v = .ok ps)
    (hw : normalizePlan w = .ok qs) (hf : normalizeFacts rawFacts = .ok f)
    (h : JsonEq (.obj ps) (.obj qs)) (hu : UpToReferences c ps f) :
    (∀ r, evaluateResumePreflight checkpoint v rawFacts = .ok r ↔
      evaluateResumePreflight checkpoint w rawFacts = .ok r) ↔
    ∀ b, referencesDrift c ps = .ok b ↔ referencesDrift c qs = .ok b := by
  have hinj : Function.Injective fun drift : Bool =>
      if drift then decision .recoveryRequired .requiredRefsDrift else effectDecision ps f :=
    Bool.injective_iff.mpr fun heq =>
      effectDecision_reasonCode ps f (congrArg Preflight.reasonCode heq)
  rw [evaluateResumePreflight_of_upToReferences hc hv hf hu,
    evaluateResumePreflight_of_upToReferences hc hw hf (hu.jsonEq h),
    ← effectDecision_jsonEq (normalizePlan_eq_ok.mp hv).2 h]
  exact forall_map_eq_ok_iff hinj

/-- If the references come out alike wherever they are reached, the answers agree. -/
theorem preflight_of_referencesDrift {checkpoint v w : JsValue} (rawFacts : JsValue)
    (hc : validateTaskCheckpoint checkpoint = .ok c) (hvw : JsonEq v w)
    (hrefs : ∀ ps qs f, normalizePlan v = .ok ps → normalizePlan w = .ok qs →
      normalizeFacts rawFacts = .ok f → UpToReferences c ps f →
      ∀ b, referencesDrift c ps = .ok b ↔ referencesDrift c qs = .ok b) (r : Preflight) :
    evaluateResumePreflight checkpoint v rawFacts = .ok r ↔
      evaluateResumePreflight checkpoint w rawFacts = .ok r := by
  cases hf : normalizeFacts rawFacts with
  | error e => simp [evaluateResumePreflight, bind_eq_ok, hf]
  | ok f =>
    cases hv : normalizePlan v with
    | error e =>
      have hw : ∀ qs, normalizePlan w ≠ .ok qs := fun qs hw => by
        obtain ⟨ps, hv', -⟩ := normalizePlan_jsonEq hvw.symm hw
        simp [hv] at hv'
      simp [evaluateResumePreflight, bind_eq_ok, hv, hw]
    | ok ps =>
      obtain ⟨qs, hw, h⟩ := normalizePlan_jsonEq hvw hv
      by_cases hu : UpToReferences c ps f
      · exact (preflight_iff_of_upToReferences hc hv hw hf h hu).mpr (hrefs ps qs f hv hw hf hu) r
      · rw [not_not.mp (mt (of_evaluateResumePreflight_ne hc hv hw hf h) hu)]

/-- **When the order of keys does not matter.** The answer does not depend on it precisely when
    the references either are not reached or are found missing in both plans or in neither. -/
theorem preflight_keyOrder_iff {checkpoint v w : JsValue} (rawFacts : JsValue)
    (hc : validateTaskCheckpoint checkpoint = .ok c) (hvw : JsonEq v w) :
    (∀ r, evaluateResumePreflight checkpoint v rawFacts = .ok r ↔
      evaluateResumePreflight checkpoint w rawFacts = .ok r) ↔
    ∀ ps qs f, normalizePlan v = .ok ps → normalizePlan w = .ok qs →
      normalizeFacts rawFacts = .ok f → UpToReferences c ps f →
      ∀ b, referencesDrift c ps = .ok b ↔ referencesDrift c qs = .ok b := by
  constructor
  · intro hsame ps qs f hv hw hf hu
    obtain ⟨qs', hw', h⟩ := normalizePlan_jsonEq hvw hv
    obtain rfl := Except.ok.inj (hw.symm.trans hw')
    exact (preflight_iff_of_upToReferences hc hv hw hf h hu).mp hsame
  · intro hrefs r
    exact preflight_of_referencesDrift rawFacts hc hvw hrefs r

/-- The properties of a plan that list references. -/
def referenceKeys : List JsString := ["evidence_refs", "receipt_refs", "handoff_refs"]

/-- Elsewhere the order does not matter: two plans whose references have their keys in the same
    order are answered alike. -/
theorem preflight_of_references {checkpoint : JsValue} (rawFacts : JsValue)
    (hc : validateTaskCheckpoint checkpoint = .ok c) (h : JsonEq (.obj ps) (.obj qs))
    (hrefs : ∀ key ∈ referenceKeys, prop ps key = prop qs key) (r : Preflight) :
    evaluateResumePreflight checkpoint (.obj ps) rawFacts = .ok r ↔
      evaluateResumePreflight checkpoint (.obj qs) rawFacts = .ok r := by
  refine preflight_of_referencesDrift rawFacts hc h (fun ps' qs' f hv hw _ _ b => ?_) r
  obtain rfl := JsValue.obj.inj (normalizePlan_eq_ok.mp hv).1
  obtain rfl := JsValue.obj.inj (normalizePlan_eq_ok.mp hw).1
  simp only [referenceKeys, List.forall_mem_cons, List.not_mem_nil, false_imp_iff,
    implies_true, and_true] at hrefs
  obtain ⟨hevidence, hreceipts, hhandoffs⟩ := hrefs
  rw [referencesDrift, referencesDrift, hevidence, hreceipts, hhandoffs]

theorem isJson_respawnPlan (p : RespawnPlan) : IsJson (RespawnPlan.toValue p) := by
  simp [RespawnPlan.toValue, RespawnPlan.props, PlanBody.source, PlanBody.rest, isJson_obj,
    IsJson.null, or_imp, forall_and]

/-- The properties of the interrupted plan once it has been stored with sorted keys. -/
def sortedPlan : Props := sortByKey (JsValue.sortKeysProps (RespawnPlan.props interruptedPlan))

theorem jsonEq_sortedPlan :
    JsonEq (.obj (RespawnPlan.props interruptedPlan)) (.obj sortedPlan) :=
  (sortKeys_jsonEq (isJson_respawnPlan interruptedPlan).uniqueKeys).symm

theorem upToReferences_interrupted : UpToReferences interruptedCheckpoint
    (RespawnPlan.props interruptedPlan)
    ⟨interruptedCheckpoint.workspace, .none, .readOnly, .applied, ⟨[], List.nodup_nil⟩⟩ where
  taskId := rfl
  revision := rfl
  taskOpen := rfl
  safe := rfl
  approval := by decide
  humanBlock := rfl
  path := by decide +kernel
  gitSha := by decide +kernel
  branch := by decide +kernel
  gate := ⟨_, List.mem_singleton_self _, rfl⟩
  completed := ⟨_, rfl, by decide +kernel⟩

/-- A plan that passes is refused once it has been stored with sorted keys. -/
theorem preflight_keyOrder_sorted :
    planSameWorkerRespawn (fun _ => interruptedDigest) interruptedCheckpoint.toValue
        interruptionValue twoRetries = .ok (.planned interruptedPlan) ∧
      validateTaskCheckpoint interruptedCheckpoint.toValue = .ok interruptedCheckpoint ∧
      JsonEq (RespawnPlan.toValue interruptedPlan).sortKeys (RespawnPlan.toValue interruptedPlan) ∧
      evaluateResumePreflight interruptedCheckpoint.toValue (RespawnPlan.toValue interruptedPlan)
        (appliedFacts .readOnly) = .ok ⟨.pass, .safeToExecute, true⟩ ∧
      evaluateResumePreflight interruptedCheckpoint.toValue
        (RespawnPlan.toValue interruptedPlan).sortKeys (appliedFacts .readOnly) =
          .ok ⟨.recoveryRequired, .requiredRefsDrift, false⟩ := by
  have hkept : referencesDrift interruptedCheckpoint (RespawnPlan.props interruptedPlan) =
      .ok false := by decide +kernel
  have hlost : referencesDrift interruptedCheckpoint sortedPlan = .ok true := by decide +kernel
  have hschema := (normalizePlan_eq_ok.mp normalizePlan_interrupted).2
  have hsorted := upToReferences_interrupted.jsonEq jsonEq_sortedPlan
  refine ⟨planSameWorkerRespawn_interrupted, validateTaskCheckpoint_toValue _,
    sortKeys_jsonEq (isJson_respawnPlan _).uniqueKeys, ?_, ?_⟩
  · rw [evaluateResumePreflight_of_upToReferences (validateTaskCheckpoint_toValue _)
      normalizePlan_interrupted (normalizeFacts_applied _) upToReferences_interrupted, hkept]
    decide +kernel
  · have hplan : normalizePlan (RespawnPlan.toValue interruptedPlan).sortKeys = .ok sortedPlan :=
      normalizePlan_eq_ok.mpr ⟨rfl, hschema.jsonEq jsonEq_sortedPlan⟩
    rw [evaluateResumePreflight_of_upToReferences (validateTaskCheckpoint_toValue _) hplan
      (normalizeFacts_applied _) hsorted, hlost]
    rfl

theorem preflight_keyOrder_iff_sorted :
    (∀ r, evaluateResumePreflight interruptedCheckpoint.toValue
        (RespawnPlan.toValue interruptedPlan).sortKeys (appliedFacts .readOnly) = .ok r ↔
      evaluateResumePreflight interruptedCheckpoint.toValue
        (RespawnPlan.toValue interruptedPlan) (appliedFacts .readOnly) = .ok r) ↔
    ∀ ps qs f, normalizePlan (RespawnPlan.toValue interruptedPlan).sortKeys = .ok ps →
      normalizePlan (RespawnPlan.toValue interruptedPlan) = .ok qs →
      normalizeFacts (appliedFacts .readOnly) = .ok f →
      UpToReferences interruptedCheckpoint ps f →
      ∀ b, referencesDrift interruptedCheckpoint ps = .ok b ↔
        referencesDrift interruptedCheckpoint qs = .ok b :=
  preflight_keyOrder_iff _ (validateTaskCheckpoint_toValue _)
    (sortKeys_jsonEq (isJson_respawnPlan _).uniqueKeys)

end

end Wns.Recovery
