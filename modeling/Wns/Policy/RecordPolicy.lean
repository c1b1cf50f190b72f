import Wns.Common.Checks

/-!
# What becomes durable memory

Model of `evaluateRecordPolicy` and `memoryGovernanceSummary` of
`supervisor-policy/memory-policy.mjs`. (`evaluateRecallPolicy` is with the execution plan.)

* `governance_exact`: the summary says who may record what, no more and no less.
-/

namespace Wns.Policy

open Ecma JsValue

/-- Who asks for a record. -/
inductive MemoryActor
  | supervisor | supervisorAuthorizedPipeline | workerBridgeHook | workerModel
  deriving DecidableEq

instance : JsEnum MemoryActor where
  values := [.supervisor, .supervisorAuthorizedPipeline, .workerBridgeHook, .workerModel]
  text
    | .supervisor => "supervisor"
    | .supervisorAuthorizedPipeline => "supervisor_authorized_pipeline"
    | .workerBridgeHook => "worker_bridge_hook"
    | .workerModel => "worker_model"
  complete := by rintro ⟨⟩ <;> simp
  injective := by rintro ⟨⟩ ⟨⟩ <;> simp

inductive ActorRole
  | authoritativeDecider | authorizedTransport | candidateEpisodeTransport
  | unauthorizedForDurableTruth
  deriving DecidableEq

/-- `actorClass(actor)`. -/
def actorClass : MemoryActor → ActorRole
  | .supervisor => .authoritativeDecider
  | .supervisorAuthorizedPipeline => .authorizedTransport
  | .workerBridgeHook => .candidateEpisodeTransport
  | .workerModel => .unauthorizedForDurableTruth

/-- `DURABLE_MEMORY_CATEGORIES`. -/
def durableMemoryCategories : List JsString :=
  ["verified_decision", "business_rule", "architecture_constraint", "verified_root_cause",
    "reusable_sop"]

/-- `EXCLUDED_MEMORY_CATEGORIES`. -/
def excludedMemoryCategories : List JsString :=
  ["raw_log", "transcript", "worker_self_report", "unverified_hypothesis", "temporary_task_state",
    "credential_or_secret", "raw_command_output"]

inductive RecordAction
  | doNotRecord | candidateEpisodeOnly | record
  deriving DecidableEq

inductive RecordReason
  | workerModelCannotAuthorizeDurableMemory
  | bridgeHookTransportsCompletedEpisodeButDoesNotEstablishTruth
  | excludedCategory | categoryNotAllowlisted | notVerified | taskNotAccepted | containsSecret
  | ephemeralFact | verifiedDurableAllowlistedFact
  deriving DecidableEq

/-- What `evaluateRecordPolicy` returns. The worker's actors are answered without a category. -/
structure RecordDecision where
  action : RecordAction
  reason : RecordReason
  category : Option JsString
  actorRole : ActorRole
  deriving DecidableEq

/-- `bool(value[key])`. -/
def holds (value : Props) (key : JsString) : Bool := prop value key = .bool true

/-- The decision of `evaluateRecordPolicy` on a category. -/
def recordDecision (value : Props) (actor : MemoryActor) (category : JsString) : RecordDecision :=
  let actorRole := actorClass actor
  if actor = .workerModel then
    ⟨.doNotRecord, .workerModelCannotAuthorizeDurableMemory, none, actorRole⟩
  else if actor = .workerBridgeHook then
    ⟨.candidateEpisodeOnly, .bridgeHookTransportsCompletedEpisodeButDoesNotEstablishTruth, none,
      actorRole⟩
  else if category ∈ excludedMemoryCategories then
    ⟨.doNotRecord, .excludedCategory, some category, actorRole⟩
  else if category ∉ durableMemoryCategories then
    ⟨.doNotRecord, .categoryNotAllowlisted, some category, actorRole⟩
  else if !holds value "verified" then
    ⟨.doNotRecord, .notVerified, some category, actorRole⟩
  else if !holds value "accepted" then
    ⟨.doNotRecord, .taskNotAccepted, some category, actorRole⟩
  else if holds value "contains_secret" then
    ⟨.doNotRecord, .containsSecret, some category, actorRole⟩
  else if holds value "ephemeral" then
    ⟨.doNotRecord, .ephemeralFact, some category, actorRole⟩
  else ⟨.record, .verifiedDurableAllowlistedFact, some category, actorRole⟩

/-- `evaluateRecordPolicy(input)`. -/
def evaluateRecordPolicy (input : JsValue) : Throws RecordDecision := do
  let value ← plainObject "record input must be an object"
    (if input = .undefined then .obj [] else input)
  let actor ← enumMember
    "actor must be supervisor, supervisor_authorized_pipeline, worker_bridge_hook, or worker_model"
    (coalesce (prop value "actor") (ofEnum MemoryActor.supervisor))
  match prop value "category" with
  | .str category =>
    if category = [] then throwType "record input.category must be a non-empty string"
    else pure (recordDecision value actor category)
  | _ => throwType "record input.category must be a non-empty string"

structure GovernanceSummary where
  recallAuthority : JsString
  durableRecordAuthority : List MemoryActor
  bridgeHookRole : JsString
  durableCategories : List JsString
  excludedCategories : List JsString

/-- `memoryGovernanceSummary()`. -/
def memoryGovernanceSummary : GovernanceSummary where
  recallAuthority := "advisory_only"
  durableRecordAuthority := [.supervisor, .supervisorAuthorizedPipeline]
  bridgeHookRole := "candidate_episode_transport_only"
  durableCategories := durableMemoryCategories
  excludedCategories := excludedMemoryCategories

/-! ## Who may record what -/

/-- The actor asks for a record of the category. -/
structure AsksFor (value : Props) (actor : MemoryActor) (category : JsString) : Prop where
  ofActor : coalesce (prop value "actor") (ofEnum MemoryActor.supervisor) = ofEnum actor
  ofCategory : prop value "category" = .str category
  named : category ≠ []

/-- What has to hold of a fact, besides its category. -/
structure Durable (value : Props) : Prop where
  verified : prop value "verified" = .bool true
  accepted : prop value "accepted" = .bool true
  shareable : prop value "contains_secret" ≠ .bool true
  lasting : prop value "ephemeral" ≠ .bool true

theorem evaluateRecordPolicy_eq_ok {value : Props} {d : RecordDecision} :
    evaluateRecordPolicy (.obj value) = .ok d ↔
      ∃ actor category, AsksFor value actor category ∧ d = recordDecision value actor category := by
  unfold evaluateRecordPolicy
  rw [if_neg nofun]
  simp only [plainObject, ok_bind, bind_eq_ok, enumMember_eq_ok]
  constructor
  · intro h
    obtain ⟨actor, hactor, h⟩ := h
    cases hcategory : prop value "category" with
    | str category =>
      simp only [hcategory] at h
      split_ifs at h with hnamed
      · simp at h
      · exact ⟨actor, category, ⟨hactor, hcategory, hnamed⟩, (pure_eq_ok.mp h).symm⟩
    | _ => simp [hcategory] at h
  · intro h
    obtain ⟨actor, category, hasks, h⟩ := h
    refine ⟨actor, hasks.ofActor, ?_⟩
    simp only [hasks.ofCategory]
    rw [if_neg hasks.named, pure_eq_ok, h]

/-- An input asks for one thing only, so the decision is on that. -/
theorem AsksFor.decision {value : Props} {actor : MemoryActor} {category : JsString}
    (h : AsksFor value actor category) {d : RecordDecision} :
    evaluateRecordPolicy (.obj value) = .ok d ↔ d = recordDecision value actor category := by
  rw [evaluateRecordPolicy_eq_ok]
  constructor
  · intro ⟨actor', category', h', hd⟩
    have hactor := h.ofActor.symm.trans h'.ofActor
    have hcategory := h.ofCategory.symm.trans h'.ofCategory
    rw [ofEnum_inj] at hactor
    rw [hd, hactor, JsValue.str.inj hcategory]
  · intro hd
    exact ⟨actor, category, h, hd⟩

/-- No category is both durable and excluded, and all have a name. -/
theorem durable_not_excluded {category : JsString} (h : category ∈ durableMemoryCategories) :
    category ∉ excludedMemoryCategories ∧ category ≠ [] := by
  have hall : ∀ c ∈ durableMemoryCategories, c ∉ excludedMemoryCategories ∧ c ≠ [] := by decide
  exact hall category h

theorem recordDecision_record {value : Props} {actor : MemoryActor} {category : JsString} :
    (recordDecision value actor category).action = .record ↔
      actor ∈ memoryGovernanceSummary.durableRecordAuthority ∧
        category ∈ durableMemoryCategories ∧ Durable value := by
  have hdurable : Durable value ↔ holds value "verified" = true ∧ holds value "accepted" = true ∧
      holds value "contains_secret" = false ∧ holds value "ephemeral" = false := by
    unfold holds
    simp only [decide_eq_true_eq, decide_eq_false_iff_not]
    exact ⟨fun ⟨h1, h2, h3, h4⟩ => ⟨h1, h2, h3, h4⟩, fun ⟨h1, h2, h3, h4⟩ => ⟨h1, h2, h3, h4⟩⟩
  rw [hdurable]
  unfold recordDecision
  cases actor with
  | workerModel => simp [memoryGovernanceSummary]
  | workerBridgeHook => simp [memoryGovernanceSummary]
  | supervisor | supervisorAuthorizedPipeline =>
    by_cases hcategory : category ∈ durableMemoryCategories
    · have hnot := (durable_not_excluded hcategory).1
      cases holds value "verified" <;> cases holds value "accepted" <;>
        cases holds value "contains_secret" <;> cases holds value "ephemeral" <;>
          simp [hcategory, hnot, memoryGovernanceSummary]
    · simp only [hcategory]
      split_ifs <;> simp_all

/-- A verified and accepted fact of a category, put forward by an actor. -/
def verifiedFact (actor : MemoryActor) (category : JsString) : Props :=
  [(js "actor", ofEnum actor), (js "category", .str category), (js "verified", .bool true),
    (js "accepted", .bool true)]

theorem verifiedFact_asks (actor : MemoryActor) {category : JsString} (h : category ≠ []) :
    AsksFor (verifiedFact actor category) actor category :=
  ⟨rfl, rfl, h⟩

/-- **The summary says who may record what.** An actor is named in it iff it can have something
    recorded, a category is named as durable iff something can be recorded under it, and whatever
    is recorded is verified and accepted, no secret, and lasting. -/
theorem governance_exact :
    (∀ value d, evaluateRecordPolicy (.obj value) = .ok d → (d.action = .record ↔
      ∃ actor ∈ memoryGovernanceSummary.durableRecordAuthority,
        ∃ category ∈ memoryGovernanceSummary.durableCategories,
          AsksFor value actor category ∧ Durable value)) ∧
    (∀ actor, actor ∈ memoryGovernanceSummary.durableRecordAuthority ↔ ∃ value category d,
      AsksFor value actor category ∧ evaluateRecordPolicy (.obj value) = .ok d ∧
        d.action = .record) ∧
    (∀ category, category ∈ memoryGovernanceSummary.durableCategories ↔ ∃ value actor d,
      AsksFor value actor category ∧ evaluateRecordPolicy (.obj value) = .ok d ∧
        d.action = .record) ∧
    ∀ category ∈ memoryGovernanceSummary.excludedCategories, ∀ value actor d,
      AsksFor value actor category → evaluateRecordPolicy (.obj value) = .ok d →
        d.action ≠ .record := by
  have hfact (actor : MemoryActor) (category : JsString)
      (hactor : actor ∈ memoryGovernanceSummary.durableRecordAuthority)
      (hcategory : category ∈ durableMemoryCategories) :
      ∃ d, AsksFor (verifiedFact actor category) actor category ∧
        evaluateRecordPolicy (.obj (verifiedFact actor category)) = .ok d ∧
          d.action = .record := by
    have hasks := verifiedFact_asks actor (durable_not_excluded hcategory).2
    exact ⟨_, hasks, hasks.decision.mpr rfl,
      recordDecision_record.mpr ⟨hactor, hcategory, rfl, rfl, nofun, nofun⟩⟩
  refine ⟨fun value d h => ?_, fun actor => ⟨fun hactor => ?_, fun ⟨value, category, d, h⟩ => ?_⟩,
    fun category => ⟨fun hcategory => ?_, fun ⟨value, actor, d, h⟩ => ?_⟩,
    fun category hexcluded value actor d hasks h hrecord => ?_⟩
  · constructor
    · intro hrecord
      obtain ⟨actor, category, hasks, rfl⟩ := evaluateRecordPolicy_eq_ok.mp h
      obtain ⟨hactor, hcategory, hdurable⟩ := recordDecision_record.mp hrecord
      exact ⟨actor, hactor, category, hcategory, hasks, hdurable⟩
    · intro ⟨actor, hactor, category, hcategory, hasks, hdurable⟩
      rw [hasks.decision.mp h, recordDecision_record]
      exact ⟨hactor, hcategory, hdurable⟩
  · obtain ⟨d, h⟩ := hfact actor (js "business_rule") hactor (by decide)
    exact ⟨_, _, d, h⟩
  · obtain ⟨hasks, h, hrecord⟩ := h
    rw [hasks.decision.mp h, recordDecision_record] at hrecord
    exact hrecord.1
  · obtain ⟨d, h⟩ := hfact .supervisor category (by decide) hcategory
    exact ⟨_, _, d, h⟩
  · obtain ⟨hasks, h, hrecord⟩ := h
    rw [hasks.decision.mp h, recordDecision_record] at hrecord
    exact hrecord.2.1
  · rw [hasks.decision.mp h, recordDecision_record] at hrecord
    exact (durable_not_excluded hrecord.2.1).1 hexcluded

end Wns.Policy
