import Wns.Common.DepthFirst
import Wns.Ecma.Coerce
import Wns.Plan.Amendment

/-!
# The authoritative plan

Model of `supervisor-policy/authoritative-plan.mjs`, lines 1–285. `PlanData` is a plan of
the right shape; an `AuthoritativePlan` is one that is consistent as well. The calls of `visit`
may nest as deep as the plan asks for: the size of the call stack is not modelled.

* `detectCycle_eq_ok`: the search for a cycle succeeds iff no gate requires itself, however
  indirectly.
* `normalizePlan_eq_ok`: a value is accepted iff it is a consistent plan.
* `validateAuthoritativePlan_exact`: what validation does with a plan of the right shape.
* `applySupervisorPlanAmendment_ok`: what an amendment that does not throw has checked.
-/

namespace Wns.Plan

open Ecma Relation

/-! ## Data -/

structure Dependency where
  gateId : TrimmedString
  requires : List TrimmedString
  deriving DecidableEq

structure PlanData where
  planId : TrimmedString
  planRevision : PosSafe
  gates : List TrimmedString
  dependencies : List Dependency
  authorizedGates : List TrimmedString
  completedGates : List TrimmedString
  blockedGates : List TrimmedString
  amendmentHistory : List PlanAmendmentHistoryRecord
  deriving DecidableEq

def Dependency.toValue (d : Dependency) : JsValue :=
  .obj [("gate_id", ofString d.gateId), ("requires", ofStrings d.requires)]

def PlanData.toValue (p : PlanData) : JsValue :=
  .obj [("plan_id", ofString p.planId), ("plan_revision", .nat p.planRevision.1),
    ("gates", ofStrings p.gates), ("dependencies", .arr (p.dependencies.map Dependency.toValue)),
    ("authorized_gates", ofStrings p.authorizedGates),
    ("completed_gates", ofStrings p.completedGates), ("blocked_gates", ofStrings p.blockedGates),
    ("amendment_history", .arr (p.amendmentHistory.map PlanAmendmentHistoryRecord.toValue))]

/-! ## Consistency -/

/-- A dependency entry among the gates `gates`. -/
structure Dependency.WellFormed (gates : List TrimmedString) (d : Dependency) : Prop where
  known : d.gateId ∈ gates
  nonempty : d.requires ≠ []
  nodup : d.requires.Nodup
  requiresKnown : ∀ r ∈ d.requires, r ∈ gates
  notSelf : ∀ r ∈ d.requires, r ≠ d.gateId

/-- Gate `g` directly requires gate `r`. -/
def Requires (dependencies : List Dependency) (g r : TrimmedString) : Prop :=
  ∃ d ∈ dependencies, d.gateId = g ∧ r ∈ d.requires

structure PlanData.Consistent (p : PlanData) : Prop where
  gates : p.gates ≠ [] ∧ p.gates.Nodup
  dependencies : ∀ d ∈ p.dependencies, d.WellFormed p.gates
  oneEntry : (p.dependencies.map Dependency.gateId).Nodup
  acyclic : ∀ g, ¬ TransGen (Requires p.dependencies) g g
  nodup : p.authorizedGates.Nodup ∧ p.completedGates.Nodup ∧ p.blockedGates.Nodup
  known : ∀ g, g ∈ p.authorizedGates ∨ g ∈ p.completedGates ∨ g ∈ p.blockedGates → g ∈ p.gates
  authorizedNotCompleted : p.authorizedGates.Disjoint p.completedGates
  authorizedNotBlocked : p.authorizedGates.Disjoint p.blockedGates
  completedNotBlocked : p.completedGates.Disjoint p.blockedGates
  met : ∀ g ∈ p.authorizedGates, ∀ r, Requires p.dependencies g r → r ∈ p.completedGates

/-- A validated plan. -/
structure AuthoritativePlan extends PlanData where
  consistent : toPlanData.Consistent

/-! ## Validation -/

/-- `normalizeDependency(dependency, index, gateIdSet)`, its name being
    `dependencies[index]`. -/
def normalizeDependency (gateIdSet : List TrimmedString) (dependency : JsValue)
    (name : JsString) : Throws Dependency := do
  let ps ← assertExactKeys dependency ["gate_id", "requires"] name
  let gateId ← requireTrimmedString (prop ps "gate_id") (name ++ ".gate_id")
  check (gateId ∈ gateIdSet) (name ++ ".gate_id references unknown gate: " ++ gateId.1)
  let requires ← requireUniqueTrimmedStringArray false (prop ps "requires") (name ++ ".requires")
  requires.1.forM fun requiredGateId => do
    check (requiredGateId ∈ gateIdSet)
      (name ++ ".requires references unknown gate: " ++ requiredGateId.1)
    check (requiredGateId ≠ gateId)
      (name ++ " declares a self dependency on gate: " ++ gateId.1)
  pure ⟨gateId, requires.1⟩

/-- `requiresByGate.get(gateId) ?? []`; in a `Map` the last entry of a key wins. -/
def requiresByGate (dependencies : List Dependency) (gateId : TrimmedString) :
    List TrimmedString :=
  match dependencies.reverse.find? fun d => d.gateId = gateId with
  | some d => d.requires
  | none => []

/-- The gates that the entries mention. -/
def mentioned (dependencies : List Dependency) : List TrimmedString :=
  dependencies.flatMap fun d => d.gateId :: d.requires

/-- `detectCycle(dependencies)`. The calls of `visit` nest at most one deeper than there
    are gates, so their bound is never reached. -/
def detectCycle (dependencies : List Dependency) : Throws Unit :=
  match DepthFirst.search (requiresByGate dependencies) ((mentioned dependencies).length + 1)
    (dependencies.map Dependency.gateId) with
  | .ok _ => .ok ()
  | .error (.cycle walk) => throwType ("dependencies contain a cycle: " ++
      List.intercalate (js " -> ") (walk.map Subtype.val))
  | .error .tooDeep => .error (.rangeError "Maximum call stack size exceeded")

/-- The message of an error. -/
def message : JsError → JsString
  | .typeError m => m
  | .rangeError m => m

/-- `normalizeAmendmentRecord(record, index)`, its name being `amendment_history[index]`. -/
def normalizeAmendmentRecord (record : JsValue) (name : JsString) :
    Throws PlanAmendmentHistoryRecord :=
  match validatePlanAmendmentHistoryRecord record with
  | .ok r => .ok r
  | .error error => throwType (name ++ ": " ++ message error)

/-- `normalizePlan(plan)`. -/
def normalizePlan (plan : JsValue) : Throws PlanData := do
  let ps ← assertExactKeys plan ["plan_id", "plan_revision", "gates", "dependencies",
    "authorized_gates", "completed_gates", "blocked_gates", "amendment_history"] "plan"
  let planId ← requireTrimmedString (prop ps "plan_id") "plan.plan_id"
  let planRevision ← requirePositiveSafeInteger (prop ps "plan_revision") "plan.plan_revision"
  let ⟨gates, _⟩ ← requireUniqueTrimmedStringArray false (prop ps "gates") "plan.gates"
  let entries ← array "plan.dependencies must be an array" (prop ps "dependencies")
  let dependencies ← mapItems (normalizeDependency gates) "dependencies" 0 entries
  check (dependencies.map Dependency.gateId).Nodup
    "plan.dependencies must not declare more than one entry for the same gate_id"
  detectCycle dependencies
  let ⟨authorizedGates, _⟩ ← requireUniqueTrimmedStringArray true (prop ps "authorized_gates")
    "plan.authorized_gates"
  let ⟨completedGates, _⟩ ← requireUniqueTrimmedStringArray true (prop ps "completed_gates")
    "plan.completed_gates"
  let ⟨blockedGates, _⟩ ← requireUniqueTrimmedStringArray true (prop ps "blocked_gates")
    "plan.blocked_gates"
  List.forM [(js "plan.authorized_gates", authorizedGates),
      (js "plan.completed_gates", completedGates), (js "plan.blocked_gates", blockedGates)]
    fun (listName, list) => list.forM fun gateId =>
      check (gateId ∈ gates) (listName ++ " references unknown gate: " ++ gateId.1)
  gates.forM fun gateId =>
    let memberships := [decide (gateId ∈ authorizedGates), decide (gateId ∈ completedGates),
      decide (gateId ∈ blockedGates)].count true
    check (memberships ≤ 1) ("gate must not appear in more than one of " ++
      "authorized_gates/completed_gates/blocked_gates: " ++ gateId.1)
  authorizedGates.forM fun gateId =>
    (requiresByGate dependencies gateId).forM fun requiredGateId =>
      check (requiredGateId ∈ completedGates)
        ("plan.authorized_gates contains gate with unmet dependency: " ++ gateId.1 ++
          " requires " ++ requiredGateId.1)
  let records ← array "plan.amendment_history must be an array" (prop ps "amendment_history")
  let amendmentHistory ← mapItems normalizeAmendmentRecord "amendment_history" 0 records
  pure ⟨planId, planRevision, gates, dependencies, authorizedGates, completedGates, blockedGates,
    amendmentHistory⟩

/-! ## Dependencies -/

theorem normalizeDependency_eq_ok {gates : List TrimmedString} {v : JsValue} {name : JsString}
    {d : Dependency} :
    normalizeDependency gates v name = .ok d ↔ JsonEq v d.toValue ∧ d.WellFormed gates := by
  simp only [normalizeDependency, bind_eq_ok, assertExactKeys_eq_ok, requireTrimmedString_eq_ok,
    check_eq_ok, requireUniqueTrimmedStringArray_eq_ok, List.forM_eq_forM, forM_eq_ok, pure_eq_ok]
  simp only [Dependency.toValue, jsonEq_obj_iff, names_cons, names_nil]
  constructor
  · rintro ⟨ps, ⟨rfl, hk⟩, gateId, h1, _, hknown, ⟨requires, hnodup, hempty⟩, h2, _, hall, rfl⟩
    refine ⟨⟨ps, rfl, hk, by simp [h1, h2]⟩, hknown, fun h => by simp at hempty; exact hempty h,
      hnodup, fun r hr => ?_, fun r hr => ?_⟩
    · obtain ⟨_, h, -⟩ := hall r hr
      exact h
    · obtain ⟨_, -, h⟩ := hall r hr
      exact h
  · rintro ⟨⟨ps, rfl, hk, h⟩, hd⟩
    simp at h
    exact ⟨ps, ⟨rfl, hk⟩, d.gateId, h.1, (), hd.known,
      ⟨d.requires, hd.nodup, fun e => (hd.nonempty e).elim⟩, h.2, (),
      fun r hr => ⟨(), hd.requiresKnown r hr, hd.notSelf r hr⟩, rfl⟩

/-! ## Cycles -/

section Cycles

variable {ds : List Dependency}

theorem exists_of_mem_requiresByGate {g r : TrimmedString} (h : r ∈ requiresByGate ds g) :
    ∃ d ∈ ds, d.gateId = g ∧ r ∈ d.requires := by
  unfold requiresByGate at h
  split at h
  · next d hd =>
    have hmem := List.mem_reverse.mp (List.mem_of_find?_eq_some hd)
    have hg := List.find?_some hd
    exact ⟨d, hmem, by simpa using hg, h⟩
  · simp at h

/-- With one entry for each gate, the map holds the requirements of every gate. -/
theorem mem_requiresByGate (hn : (ds.map Dependency.gateId).Nodup) {g r : TrimmedString} :
    r ∈ requiresByGate ds g ↔ Requires ds g r := by
  constructor
  · exact exists_of_mem_requiresByGate
  · rintro ⟨d, hd, rfl, hr⟩
    unfold requiresByGate
    split
    · next d' hd' =>
      have hmem := List.mem_reverse.mp (List.mem_of_find?_eq_some hd')
      have hg : d'.gateId = d.gateId := by simpa using List.find?_some hd'
      rwa [List.inj_on_of_nodup_map hn hmem hd hg]
    · next hnone =>
      have := List.find?_eq_none.mp hnone d (List.mem_reverse.mpr hd)
      simp at this

theorem mentioned_closed : ∀ g ∈ mentioned ds, ∀ r ∈ requiresByGate ds g, r ∈ mentioned ds := by
  intro g _ r hr
  obtain ⟨d, hd, -, hr⟩ := exists_of_mem_requiresByGate hr
  exact List.mem_flatMap.mpr ⟨d, hd, List.mem_cons_of_mem _ hr⟩

theorem gateId_mentioned : ∀ g ∈ ds.map Dependency.gateId, g ∈ mentioned ds := by
  intro g hg
  obtain ⟨d, hd, rfl⟩ := List.mem_map.mp hg
  exact List.mem_flatMap.mpr ⟨d, hd, List.mem_cons_self⟩

theorem gateId_of_requires {g : TrimmedString} (h : requiresByGate ds g ≠ []) :
    g ∈ ds.map Dependency.gateId := by
  obtain ⟨r, hr⟩ := List.exists_mem_of_ne_nil _ h
  obtain ⟨d, hd, rfl, -⟩ := exists_of_mem_requiresByGate hr
  exact List.mem_map.mpr ⟨d, hd, rfl⟩

/-- The search for a cycle succeeds iff there is none. -/
theorem detectCycle_eq_ok (hn : (ds.map Dependency.gateId).Nodup) {u : Unit} :
    detectCycle ds = .ok u ↔ ∀ g, ¬ TransGen (Requires ds) g g := by
  have hedge : DepthFirst.Edge (requiresByGate ds) = Requires ds := by
    funext g r
    exact propext (mem_requiresByGate hn)
  rw [← hedge, ← DepthFirst.search_isOk_iff mentioned_closed gateId_mentioned
    (Nat.lt_succ_self _) fun _ => gateId_of_requires, detectCycle]
  split
  · next marks h => simp [h]
  · next walk h => simp [h]
  · next h => simp [h]

/-- When the search throws, the error names a closed walk along requirements. -/
theorem detectCycle_error {e : JsError} (h : detectCycle ds = .error e) :
    ∃ walk, DepthFirst.ClosedWalk (Requires ds) walk ∧
      e = .typeError ("dependencies contain a cycle: " ++
        List.intercalate (js " -> ") (walk.map Subtype.val)) := by
  unfold detectCycle at h
  split at h
  · cases h
  · next walk hw =>
    obtain ⟨hchain, htwo, hclosed⟩ :=
      DepthFirst.search_cycle mentioned_closed gateId_mentioned hw
    exact ⟨walk, ⟨hchain.imp fun _ _ => exists_of_mem_requiresByGate, htwo, hclosed⟩,
      (Except.error.inj h).symm⟩
  · next hd =>
    exact (DepthFirst.search_ne_tooDeep mentioned_closed gateId_mentioned
      (Nat.lt_succ_self _) hd).elim

end Cycles

/-! ## What is accepted -/

theorem exactDecoder_normalizeAmendmentRecord :
    ExactDecoder normalizeAmendmentRecord PlanAmendmentHistoryRecord.toValue := by
  intro v name r
  rw [← validatePlanAmendmentHistoryRecord_eq_ok, normalizeAmendmentRecord]
  cases validatePlanAmendmentHistoryRecord v <;> simp

theorem PlanData.jsonEq_iff {v : JsValue} {p : PlanData} : JsonEq v p.toValue ↔
    ∃ ps, v = .obj ps ∧ HasKeys ps ["plan_id", "plan_revision", "gates", "dependencies",
        "authorized_gates", "completed_gates", "blocked_gates", "amendment_history"] ∧
      prop ps "plan_id" = ofString p.planId ∧
      prop ps "plan_revision" = .nat p.planRevision.1 ∧
      prop ps "gates" = ofStrings p.gates ∧
      JsonEq (prop ps "dependencies") (.arr (p.dependencies.map Dependency.toValue)) ∧
      prop ps "authorized_gates" = ofStrings p.authorizedGates ∧
      prop ps "completed_gates" = ofStrings p.completedGates ∧
      prop ps "blocked_gates" = ofStrings p.blockedGates ∧
      JsonEq (prop ps "amendment_history")
        (.arr (p.amendmentHistory.map PlanAmendmentHistoryRecord.toValue)) := by
  simp [PlanData.toValue, jsonEq_obj_iff]

/-- No gate is on two of three lists iff the lists are disjoint in pairs, given that they list
    known gates only. -/
theorem memberships_le_one {gates l m n : List TrimmedString}
    (hknown : ∀ g, g ∈ l ∨ g ∈ m ∨ g ∈ n → g ∈ gates) :
    (∀ g ∈ gates, [decide (g ∈ l), decide (g ∈ m), decide (g ∈ n)].count true ≤ 1) ↔
      l.Disjoint m ∧ l.Disjoint n ∧ m.Disjoint n := by
  have hone : ∀ g, [decide (g ∈ l), decide (g ∈ m), decide (g ∈ n)].count true ≤ 1 ↔
      ¬ (g ∈ l ∧ g ∈ m) ∧ ¬ (g ∈ l ∧ g ∈ n) ∧ ¬ (g ∈ m ∧ g ∈ n) := by
    intro g
    by_cases hl : g ∈ l <;> by_cases hm : g ∈ m <;> by_cases hn : g ∈ n <;> simp [hl, hm, hn]
  simp only [hone]
  constructor
  · intro h
    refine ⟨fun g h1 h2 => ?_, fun g h1 h2 => ?_, fun g h1 h2 => ?_⟩
    · exact (h g (hknown g (.inl h1))).1 ⟨h1, h2⟩
    · exact (h g (hknown g (.inl h1))).2.1 ⟨h1, h2⟩
    · exact (h g (hknown g (.inr (.inl h1)))).2.2 ⟨h1, h2⟩
  · intro ⟨h1, h2, h3⟩ g _
    exact ⟨fun h => h1 h.1 h.2, fun h => h2 h.1 h.2, fun h => h3 h.1 h.2⟩

/-- A value is accepted iff it is a consistent plan. -/
theorem normalizePlan_eq_ok {v : JsValue} {p : PlanData} :
    normalizePlan v = .ok p ↔ JsonEq v p.toValue ∧ p.Consistent := by
  rw [PlanData.jsonEq_iff]
  simp only [normalizePlan, bind_eq_ok, assertExactKeys_eq_ok, requireTrimmedString_eq_ok,
    requirePositiveSafeInteger_eq_ok, requireUniqueTrimmedStringArray_eq_ok, check_eq_ok,
    List.forM_eq_forM, forM_eq_ok, pure_eq_ok, List.forall_mem_cons, List.not_mem_nil,
    false_implies, implies_true, and_true]
  constructor
  · rintro ⟨ps, ⟨hv, hk⟩, planId, h1, planRevision, h2, ⟨gates, hgates⟩, h3, entries, hentries,
      dependencies, hdeps, _, hone, _, hcycle, ⟨authorized, hauth⟩, h5, ⟨completed, hcomp⟩, h6,
      ⟨blocked, hblock⟩, h7, _, hknown, _, hmember, _, hmet, records, hrecords, history, hhistory,
      hp⟩
    subst hp
    obtain ⟨hdeps, hwell⟩ := (array_mapItems_eq_ok_and fun _ _ _ => normalizeDependency_eq_ok).mp
      ⟨entries, hentries, hdeps⟩
    have hhistory := (array_mapItems_eq_ok exactDecoder_normalizeAmendmentRecord).mp
      ⟨records, hrecords, hhistory⟩
    have hknown : ∀ g, g ∈ authorized ∨ g ∈ completed ∨ g ∈ blocked → g ∈ gates := by
      intro g hg
      rcases hg with hg | hg | hg
      · exact hknown.1 g hg
      · exact hknown.2.1 g hg
      · exact hknown.2.2 g hg
    obtain ⟨hac, hab, hcb⟩ := (memberships_le_one hknown).mp hmember
    refine ⟨⟨ps, hv, hk, h1, h2, h3, hdeps, h5, h6, h7, hhistory⟩, ?_⟩
    refine ⟨⟨fun h => by simp at hgates; exact hgates.2 h, hgates.1⟩, hwell, hone,
      (detectCycle_eq_ok hone).mp hcycle, ⟨hauth.1, hcomp.1, hblock.1⟩, hknown, hac, hab, hcb,
      fun g hg r hr => hmet g hg r ((mem_requiresByGate hone).mpr hr)⟩
  · rintro ⟨⟨ps, hv, hk, h1, h2, h3, h4, h5, h6, h7, h8⟩, hc⟩
    obtain ⟨entries, hentries, hdeps⟩ := (@array_mapItems_eq_ok_and _ _ _ _
      (fun _ _ _ => normalizeDependency_eq_ok) "dependencies" "plan.dependencies must be an array"
      _ _).mpr ⟨h4, hc.dependencies⟩
    obtain ⟨records, hrecords, hhistory⟩ := (@array_mapItems_eq_ok _ _ _
      exactDecoder_normalizeAmendmentRecord "amendment_history"
      "plan.amendment_history must be an array" _ _).mpr h8
    refine ⟨ps, ⟨hv, hk⟩, _, h1, _, h2, ⟨p.gates, hc.gates.2, fun h => (hc.gates.1 h).elim⟩, h3,
      entries, hentries, p.dependencies, hdeps, (), hc.oneEntry, (),
      (detectCycle_eq_ok hc.oneEntry).mpr hc.acyclic, ⟨_, hc.nodup.1, fun _ => rfl⟩, h5,
      ⟨_, hc.nodup.2.1, fun _ => rfl⟩, h6, ⟨_, hc.nodup.2.2, fun _ => rfl⟩, h7, (), ?_, (), ?_, (),
      ?_, records, hrecords, p.amendmentHistory, hhistory, rfl⟩
    · exact ⟨fun g hg => hc.known g (.inl hg), fun g hg => hc.known g (.inr (.inl hg)),
        fun g hg => hc.known g (.inr (.inr hg))⟩
    · exact (memberships_le_one hc.known).mpr
        ⟨hc.authorizedNotCompleted, hc.authorizedNotBlocked, hc.completedNotBlocked⟩
    · exact fun g hg r hr => hc.met g hg r ((mem_requiresByGate hc.oneEntry).mp hr)

theorem consistent_of_normalizePlan {v : JsValue} (p : PlanData) (h : normalizePlan v = .ok p) :
    p.Consistent := (normalizePlan_eq_ok.mp h).2

/-- `validateAuthoritativePlan(plan)`. -/
def validateAuthoritativePlan (plan : JsValue) : Throws AuthoritativePlan := do
  let ⟨p, consistent⟩ ← attach (normalizePlan plan) consistent_of_normalizePlan
  pure ⟨p, consistent⟩

theorem validateAuthoritativePlan_eq_ok {v : JsValue} {p : AuthoritativePlan} :
    validateAuthoritativePlan v = .ok p ↔ JsonEq v p.toValue := by
  simp only [validateAuthoritativePlan, bind_eq_ok, attach_eq_ok, normalizePlan_eq_ok, pure_eq_ok]
  constructor
  · rintro ⟨⟨p, hp⟩, ⟨hv, -⟩, rfl⟩
    exact hv
  · intro hv
    exact ⟨⟨p.toPlanData, p.consistent⟩, ⟨hv, p.consistent⟩, rfl⟩

/-- A validated plan is accepted again, unchanged. -/
theorem validateAuthoritativePlan_toValue (p : AuthoritativePlan) :
    validateAuthoritativePlan p.toValue = .ok p := validateAuthoritativePlan_eq_ok.mpr (.refl _)

/-! ## Validation is exact -/

theorem Dependency.eq_of_jsonEq {d e : Dependency} (h : JsonEq d.toValue e.toValue) : d = e := by
  simp only [Dependency.toValue, jsonEq_obj_iff] at h
  obtain ⟨ps, hps, -, h⟩ := h
  obtain rfl := JsValue.obj.inj hps
  simp at h
  cases d
  cases e
  simp_all

/-- A value has one shape at most. -/
theorem PlanData.eq_of_jsonEq {p q : PlanData} (h : JsonEq p.toValue q.toValue) : p = q := by
  obtain ⟨ps, hps, -, h1, h2, h3, h4, h5, h6, h7, h8⟩ := PlanData.jsonEq_iff.mp h
  obtain rfl := JsValue.obj.inj hps
  simp at h1 h2 h3 h4 h5 h6 h7 h8
  have h4 := eq_of_jsonEq_arr_map (fun _ _ => Dependency.eq_of_jsonEq) h4
  have h8 := eq_of_jsonEq_arr_map
    (fun _ _ => exactDecoder_normalizeAmendmentRecord.injective) h8
  cases p
  cases q
  simp only [PlanData.mk.injEq]
  exact ⟨h1, Subtype.ext h2, h3, h4, h5, h6, h7, h8⟩

/-- **Validation is exact.** A plan of the right shape is accepted iff it is consistent, and
    comes back as it is; the search for a cycle fails by naming a closed walk along
    requirements. -/
theorem validateAuthoritativePlan_exact {v : JsValue} {s : PlanData} (h : JsonEq v s.toValue) :
    ((∃ p, validateAuthoritativePlan v = .ok p) ↔ s.Consistent) ∧
    (∀ p, validateAuthoritativePlan v = .ok p → JsonEq p.toValue v) ∧
    ∀ e, detectCycle s.dependencies = .error e →
      ∃ walk, DepthFirst.ClosedWalk (Requires s.dependencies) walk ∧
        e = .typeError ("dependencies contain a cycle: " ++
          List.intercalate (js " -> ") (walk.map Subtype.val)) := by
  refine ⟨⟨fun ⟨p, hp⟩ => ?_, fun hs => ?_⟩, fun p hp => ?_, fun e he => ?_⟩
  · have hv := validateAuthoritativePlan_eq_ok.mp hp
    rw [PlanData.eq_of_jsonEq (h.symm.trans hv)]
    exact p.consistent
  · exact ⟨⟨s, hs⟩, validateAuthoritativePlan_eq_ok.mpr h⟩
  · exact (validateAuthoritativePlan_eq_ok.mp hp).symm
  · exact detectCycle_error he

/-- A plan of three gates. -/
def planOne : AuthoritativePlan where
  planId := checked "plan-1"
  planRevision := checked 1
  gates := [checked "gate-a", checked "gate-b", checked "gate-c"]
  dependencies := [⟨checked "gate-b", [checked "gate-a"]⟩]
  authorizedGates := [checked "gate-a"]
  completedGates := []
  blockedGates := [checked "gate-b", checked "gate-c"]
  amendmentHistory := []
  consistent := consistent_of_normalizePlan (v := .obj [("plan_id", .str "plan-1"),
    ("plan_revision", .nat 1), ("gates", .arr [.str "gate-a", .str "gate-b", .str "gate-c"]),
    ("dependencies", .arr [.obj [("gate_id", .str "gate-b"), ("requires", .arr [.str "gate-a"])]]),
    ("authorized_gates", .arr [.str "gate-a"]), ("completed_gates", .arr []),
    ("blocked_gates", .arr [.str "gate-b", .str "gate-c"]), ("amendment_history", .arr [])])
    _ (by rfl)

theorem validateAuthoritativePlan_exact_planOne :
    ((∃ p, validateAuthoritativePlan planOne.toValue = .ok p) ↔ planOne.Consistent) ∧
    (∀ p, validateAuthoritativePlan planOne.toValue = .ok p → JsonEq p.toValue planOne.toValue) ∧
    ∀ e, detectCycle planOne.dependencies = .error e →
      ∃ walk, DepthFirst.ClosedWalk (Requires planOne.dependencies) walk ∧
        e = .typeError ("dependencies contain a cycle: " ++
          List.intercalate (js " -> ") (walk.map Subtype.val)) :=
  validateAuthoritativePlan_exact (.refl planOne.toValue)

/-! ## Creation -/

/-- The properties of a destructured parameter with default `{}`. -/
def destructure (first : JsString) : JsValue → Throws Props
  | .undefined => .ok []
  | .null =>
    throwType ("Cannot destructure property '" ++ first ++ "' of 'object null' as it is null.")
  | .obj ps => .ok ps
  | _ => .ok []

/-- The value of a destructured property with a default. -/
def orDefault (value fallback : JsValue) : JsValue :=
  if value = .undefined then fallback else value

/-- `createAuthoritativePlan(descriptor)`. -/
def createAuthoritativePlan (descriptor : JsValue) : Throws AuthoritativePlan := do
  let ps ← destructure "plan_id" descriptor
  validateAuthoritativePlan (.obj [("plan_id", prop ps "plan_id"),
    ("plan_revision", orDefault (prop ps "plan_revision") (.nat 1)), ("gates", prop ps "gates"),
    ("dependencies", orDefault (prop ps "dependencies") (.arr [])),
    ("authorized_gates", orDefault (prop ps "authorized_gates") (.arr [])),
    ("completed_gates", orDefault (prop ps "completed_gates") (.arr [])),
    ("blocked_gates", orDefault (prop ps "blocked_gates") (.arr [])),
    ("amendment_history", orDefault (prop ps "amendment_history") (.arr []))])

/-! ## Amendments -/

/-- `shallowEqual(a, b)`. -/
def shallowEqual (a b : Props) : Bool :=
  (ownKeys a).length = (ownKeys b).length ∧
    ∀ key ∈ ownKeys a, strictEq (prop a key) (prop b key) = true

/-- `amendment_history[index]`. -/
def historyAt (history : List PlanAmendmentHistoryRecord) (index : ℕ) : Props :=
  match history[index]? with
  | some r => r.props
  | none => []

/-- `applySupervisorPlanAmendment(plan, proposal, review, next_plan)`. -/
def applySupervisorPlanAmendment (plan proposal review nextPlan : JsValue) :
    Throws AuthoritativePlan := do
  let currentPlan ← validateAuthoritativePlan plan
  let validatedProposal ← validatePlanAmendmentProposal proposal
  let validatedReview ← validatePlanAmendmentReview review
  check (validatedProposal.planId = currentPlan.planId)
    "proposal.plan_id does not match current plan.plan_id"
  check (validatedProposal.observedPlanRevision = currentPlan.planRevision)
    "proposal.observed_plan_revision is stale relative to current plan.plan_revision"
  if validatedReview.decision = .reject then pure currentPlan
  else
    let _ ← plainObject "next_plan must be a plain object" nextPlan
    let expectedFinalRecord ← validatePlanAmendmentHistoryRecord
      (.obj [("proposal_id", ofString validatedProposal.proposalId),
        ("observed_plan_revision", .nat currentPlan.planRevision.1),
        ("applied_plan_revision", .nat (currentPlan.planRevision.1 + 1)),
        ("decision", ofEnum validatedReview.decision),
        ("reason", ofNullable validatedReview.reason)])
    let candidatePlan ← validateAuthoritativePlan nextPlan
    check (candidatePlan.planId = currentPlan.planId)
      "next_plan.plan_id must equal current plan.plan_id"
    check (candidatePlan.planRevision.1 = currentPlan.planRevision.1 + 1)
      "next_plan.plan_revision must equal current plan.plan_revision + 1"
    check (candidatePlan.amendmentHistory.length = currentPlan.amendmentHistory.length + 1)
      ("next_plan.amendment_history must equal current amendment_history plus exactly one " ++
        "appended record")
    (List.range currentPlan.amendmentHistory.length).forM fun index =>
      check (shallowEqual (historyAt candidatePlan.amendmentHistory index)
          (historyAt currentPlan.amendmentHistory index))
        ("next_plan.amendment_history[" ++ natText index ++
          "] must match current plan.amendment_history[" ++ natText index ++ "]")
    check (shallowEqual
        (historyAt candidatePlan.amendmentHistory currentPlan.amendmentHistory.length)
        expectedFinalRecord.props)
      ("next_plan.amendment_history final record does not match the expected applied " ++
        "amendment record")
    pure candidatePlan

/-! ## What an amendment does -/

/-- Equal properties make equal records. -/
theorem PlanAmendmentHistoryRecord.eq_of_props {a b : PlanAmendmentHistoryRecord}
    (h : ∀ k ∈ names a.props, prop a.props k = prop b.props k) : a = b := by
  simp only [props, names_cons, names_nil, List.forall_mem_cons] at h
  obtain ⟨h1, h2, h3, h4, h5, -⟩ := h
  simp only [prop_cons, js_inj, String.reduceEq, if_true, if_false, ofString_inj,
    JsValue.nat_inj, ofRevisionOrNull_inj, ofEnum_inj, ofNullable_inj] at h1 h2 h3 h4 h5
  cases a
  cases b
  simp only [PlanAmendmentHistoryRecord.mk.injEq]
  exact ⟨h1, Subtype.ext h2, h3, h4, h5⟩

/-- Records are compared field by field. -/
theorem shallowEqual_props {a b : PlanAmendmentHistoryRecord} :
    shallowEqual a.props b.props = true ↔ a = b := by
  simp only [shallowEqual, decide_eq_true_eq]
  constructor
  · intro ⟨_, h⟩
    exact PlanAmendmentHistoryRecord.eq_of_props fun k hk =>
      eq_of_strictEq (h k (mem_ownKeys.mpr hk))
  · rintro rfl
    refine ⟨rfl, fun k hown => ?_⟩
    have hk : k ∈ names a.props := mem_ownKeys.mp hown
    simp only [PlanAmendmentHistoryRecord.props, names_cons, names_nil, List.mem_cons,
      List.not_mem_nil, or_false] at hk
    obtain ⟨_, _, applied, _, reason, _⟩ := a
    rcases hk with rfl | rfl | rfl | rfl | rfl
    · exact strictEq_self rfl (by simp [PlanAmendmentHistoryRecord.props, ofString])
    · exact strictEq_self rfl (by simp [PlanAmendmentHistoryRecord.props, JsValue.nat])
    · cases applied <;>
        exact strictEq_self rfl (by
          simp [PlanAmendmentHistoryRecord.props, ofRevisionOrNull, JsValue.nat])
    · exact strictEq_self rfl (by simp [PlanAmendmentHistoryRecord.props, ofEnum])
    · cases reason <;>
        exact strictEq_self rfl (by
          simp [PlanAmendmentHistoryRecord.props, ofNullable, JsValue.nullable])

/-- A history that agrees with `history` record by record and ends with `r`. -/
theorem history_eq_append {history candidate : List PlanAmendmentHistoryRecord}
    {r : PlanAmendmentHistoryRecord} (hlen : candidate.length = history.length + 1)
    (hkept : ∀ i ∈ List.range history.length,
      shallowEqual (historyAt candidate i) (historyAt history i) = true)
    (hlast : shallowEqual (historyAt candidate history.length) r.props = true) :
    candidate = history ++ [r] := by
  refine List.ext_getElem (by simp [hlen]) fun i h1 h2 => ?_
  by_cases hi : i < history.length
  · have h := hkept i (List.mem_range.mpr hi)
    simp only [historyAt, List.getElem?_eq_getElem h1, List.getElem?_eq_getElem hi] at h
    rw [List.getElem_append_left hi]
    exact shallowEqual_props.mp h
  · obtain rfl : i = history.length := by omega
    simp only [historyAt, List.getElem?_eq_getElem h1] at hlast
    rw [List.getElem_append_right le_rfl]
    simpa using shallowEqual_props.mp hlast

/-- What an applied amendment adds to the history of a plan. -/
structure Amends (p : PlanData) (proposal : PlanAmendmentProposal) (review : PlanAmendmentReview)
    (q : PlanData) (r : PlanAmendmentHistoryRecord) : Prop where
  planId : q.planId = p.planId
  planRevision : q.planRevision.1 = p.planRevision.1 + 1
  history : q.amendmentHistory = p.amendmentHistory ++ [r]
  proposalId : r.proposalId = proposal.proposalId
  observed : r.observedPlanRevision = p.planRevision
  applied : r.appliedPlanRevision = some q.planRevision
  decision : r.decision = review.decision
  reason : r.reason = review.reason

/-- An amendment that does not throw is of the current plan at its current revision; it
    is rejected, and leaves the plan as it is, or appends its record. -/
theorem applySupervisorPlanAmendment_ok {p q : AuthoritativePlan}
    {proposal review nextPlan : JsValue}
    (h : applySupervisorPlanAmendment p.toValue proposal review nextPlan = .ok q) :
    ∃ a b, validatePlanAmendmentProposal proposal = .ok a ∧
      validatePlanAmendmentReview review = .ok b ∧ a.planId = p.planId ∧
      a.observedPlanRevision = p.planRevision ∧
      (b.decision = .reject ∧ q = p ∨
        b.decision ≠ .reject ∧ validateAuthoritativePlan nextPlan = .ok q ∧
          ∃ r, Amends p.toPlanData a b q.toPlanData r) := by
  simp only [applySupervisorPlanAmendment, validateAuthoritativePlan_toValue, ok_bind] at h
  obtain ⟨a, ha, h⟩ := bind_eq_ok.mp h
  obtain ⟨b, hb, h⟩ := bind_eq_ok.mp h
  simp only [bind_eq_ok, check_eq_ok] at h
  obtain ⟨_, hid, _, hrev, h⟩ := h
  refine ⟨a, b, ha, hb, hid, hrev, ?_⟩
  split_ifs at h with hreject
  · exact .inl ⟨hreject, (pure_eq_ok.mp h).symm⟩
  · simp only [bind_eq_ok, check_eq_ok, List.forM_eq_forM, forM_eq_ok, pure_eq_ok] at h
    obtain ⟨_, -, r, hr, c, hc, _, h1, _, h2, _, hlen, _, hkept, _, hlast, rfl⟩ := h
    refine .inr ⟨hreject, hc, r, ?_⟩
    rw [validatePlanAmendmentHistoryRecord_eq_ok, PlanAmendmentHistoryRecord.toValue,
      PlanAmendmentHistoryRecord.props, jsonEq_obj_iff] at hr
    obtain ⟨ps, hps, -, hr⟩ := hr
    obtain rfl := JsValue.obj.inj hps
    simp at hr
    obtain ⟨hr1, hr2, hr3, hr4, hr5⟩ := hr
    have hq : r.appliedPlanRevision = some c.planRevision := by
      rw [← ofRevisionOrNull_inj, ← hr3, ofRevisionOrNull, h2]
    exact ⟨h1, h2, history_eq_append hlen hkept hlast, hr1.symm, Subtype.ext hr2.symm, hq,
      (ofEnum_inj.mp hr4).symm, hr5.symm⟩

/-- The other way round: an accepted or modified amendment of the current plan goes through
    when the next plan appends its record. -/
theorem applySupervisorPlanAmendment_of_amends {p q : AuthoritativePlan}
    {a : PlanAmendmentProposal} {b : PlanAmendmentReview} {r : PlanAmendmentHistoryRecord}
    (hid : a.planId = p.planId) (hrev : a.observedPlanRevision = p.planRevision)
    (hdecision : b.decision ≠ .reject) (h : Amends p.toPlanData a b q.toPlanData r) :
    applySupervisorPlanAmendment p.toValue a.toValue b.toValue q.toValue = .ok q := by
  have ha := validatePlanAmendmentProposal_eq_ok.mpr (.refl a.toValue)
  have hb := validatePlanAmendmentReview_eq_ok.mpr (.refl b.toValue)
  have hr : validatePlanAmendmentHistoryRecord
      (.obj [("proposal_id", ofString a.proposalId),
        ("observed_plan_revision", .nat p.planRevision.1),
        ("applied_plan_revision", .nat (p.planRevision.1 + 1)), ("decision", ofEnum b.decision),
        ("reason", ofNullable b.reason)]) = .ok r := by
    rw [validatePlanAmendmentHistoryRecord_eq_ok, PlanAmendmentHistoryRecord.toValue,
      PlanAmendmentHistoryRecord.props, h.proposalId, h.observed, h.applied, h.decision, h.reason,
      ofRevisionOrNull, h.planRevision]
    exact .refl _
  have hkept : ∀ i ∈ List.range p.amendmentHistory.length,
      shallowEqual (historyAt q.amendmentHistory i) (historyAt p.amendmentHistory i) = true := by
    intro i hi
    have hi := List.mem_range.mp hi
    rw [h.history, historyAt, historyAt, List.getElem?_append_left hi,
      List.getElem?_eq_getElem hi]
    exact shallowEqual_props.mpr rfl
  have hlast : shallowEqual (historyAt q.amendmentHistory p.amendmentHistory.length) r.props =
      true := by
    rw [h.history, historyAt, List.getElem?_concat_length]
    exact shallowEqual_props.mpr rfl
  have hlen : q.amendmentHistory.length = p.amendmentHistory.length + 1 := by
    rw [h.history, List.length_append, List.length_singleton]
  simp only [applySupervisorPlanAmendment, validateAuthoritativePlan_toValue, ok_bind, ha, hb,
    if_neg hdecision, hr, bind_eq_ok, check_eq_ok, List.forM_eq_forM, forM_eq_ok, pure_eq_ok]
  exact ⟨(), hid, (), hrev, _, plainObject_eq_ok.mpr rfl, (), h.planId, (), h.planRevision, (),
    hlen, (), hkept, (), hlast, trivial⟩

end Wns.Plan
