import Wns.Common.Checks

/-!
# Whether the web may be asked

Model of `supervisor-policy/web-research-policy.mjs`. The caller describes the situation of a
worker; the policy says whether read-only web research is warranted and, if it is, whether it may
go ahead.

* `research_exact`: when each decision is taken, in terms of what the input says.
* `research_stall`: that the worker is stalling never changes a decision.
* `research_raised`: a further sign in favour never takes research away.
-/

namespace Wns.Policy

open Ecma JsValue

/-! ## Input -/

/-- `BOOLEAN_INPUTS`. -/
inductive ResearchFlag
  | userRequested | knowledgeUncertainty | versionSensitive | unfamiliarError
  | upstreamBehaviorUnclear | reasoningStall | externalInfoLikelyHelpful | capabilityAvailable
  | privacySafeQuery
  deriving DecidableEq

instance : JsEnum ResearchFlag where
  values := [.userRequested, .knowledgeUncertainty, .versionSensitive, .unfamiliarError,
    .upstreamBehaviorUnclear, .reasoningStall, .externalInfoLikelyHelpful, .capabilityAvailable,
    .privacySafeQuery]
  text
    | .userRequested => "user_requested"
    | .knowledgeUncertainty => "knowledge_uncertainty"
    | .versionSensitive => "version_sensitive"
    | .unfamiliarError => "unfamiliar_error"
    | .upstreamBehaviorUnclear => "upstream_behavior_unclear"
    | .reasoningStall => "reasoning_stall"
    | .externalInfoLikelyHelpful => "external_info_likely_helpful"
    | .capabilityAvailable => "capability_available"
    | .privacySafeQuery => "privacy_safe_query"
  complete := by rintro ⟨⟩ <;> simp
  injective := by rintro ⟨⟩ ⟨⟩ <;> simp

/-- The name of a flag as a property key. -/
def ResearchFlag.key (flag : ResearchFlag) : JsString := js (JsEnum.text flag)

/-- `REPEATED_LOCAL_FAILURE_THRESHOLD`. -/
def repeatedLocalFailureThreshold : ℕ := 2

/-- `requireBoolean(value, label)`. -/
def requireBoolean (value : JsValue) (label : JsString) : Throws Bool :=
  if value = .undefined then pure false else boolean (label ++ " must be a boolean") value

/-- `requireNonNegativeInteger(value, label)`. -/
def requireNonNegativeInteger (value : JsValue) (label : JsString) : Throws ℕ :=
  if value = .undefined then pure 0 else nonNegativeInteger value label

/-- What the policy looks at. -/
structure ResearchInput where
  flags : ResearchFlag → Bool
  localAttemptFailures : ℕ

/-- The loop over `BOOLEAN_INPUTS`. -/
def readFlags (input : Props) : Throws (ResearchFlag → Bool) := do
  let read ← (JsEnum.values : List ResearchFlag).mapM fun flag => do
    let value ← requireBoolean (prop input flag.key) flag.key
    pure (flag, value)
  pure fun flag => (read.lookup flag).getD false

/-- The checks of `evaluateWebResearchPolicy`. -/
def readResearch (input : JsValue) : Throws ResearchInput := do
  let input ← plainObject "input must be an object" (if input = .undefined then .obj [] else input)
  refuseUnknownKeys "input"
    (js "local_attempt_failures" :: (JsEnum.values : List ResearchFlag).map ResearchFlag.key) input
  let flags ← readFlags input
  let localAttemptFailures ← requireNonNegativeInteger (prop input "local_attempt_failures")
    "local_attempt_failures"
  pure { flags, localAttemptFailures }

/-! ## Decision -/

inductive ResearchTrigger
  | userRequested | versionSensitive | repeatedLocalFailuresWithExternalInfo
  | unfamiliarErrorWithExternalInfo | upstreamBehaviorUnclearWithExternalInfo
  | knowledgeUncertaintyWithExternalInfo
  deriving DecidableEq

/-- `WEB_RESEARCH_ACTIONS`. -/
inductive ResearchAction
  | noResearch | research | hold | blocked
  deriving DecidableEq

/-- `WEB_RESEARCH_REASONS`. -/
inductive ResearchReason
  | notWarranted | reasoningStallAloneInsufficient | explicitUserRequest
  | strongExternalInfoConditions | privacyUnsafeQuery | capabilityUnavailable
  deriving DecidableEq

/-- The operations of `WEB_RESEARCH_ALLOWED_OPERATIONS`. -/
inductive ResearchOperation
  | search | read
  deriving DecidableEq

/-- `WEB_RESEARCH_ALLOWED_OPERATIONS`. -/
def webResearchAllowedOperations : List ResearchOperation := [.search, .read]

structure EvidenceRequirements where
  transport : List JsString
  requiredSourceFields : List JsString
  boundedResults : Bool
  boundedContent : Bool
  evidenceClaimLinkageRequired : Bool
  sourcePreferenceOrder : List JsString
  webContentTrust : JsString
  promotionRule : JsString
  neverTreatWebContentAsInstructions : Bool
  deriving DecidableEq

/-- `WEB_RESEARCH_EVIDENCE_REQUIREMENTS`. -/
def webResearchEvidenceRequirements : EvidenceRequirements where
  transport := ["http", "https"]
  requiredSourceFields := ["url", "title", "retrieved_at", "source_type"]
  boundedResults := true
  boundedContent := true
  evidenceClaimLinkageRequired := true
  sourcePreferenceOrder := ["primary", "official", "upstream"]
  webContentTrust := "untrusted_external_evidence"
  promotionRule :=
    js "web_content may become verified_current_evidence only after local or current " ++
      js "verification where applicable; it never overrides security_hard_runtime or " ++
      js "task_and_project_contract"
  neverTreatWebContentAsInstructions := true

structure ResearchDecision where
  action : ResearchAction
  reason : ResearchReason
  warranted : Bool
  triggers : List ResearchTrigger
  reasonCodes : List ResearchReason
  allowedOperations : List ResearchOperation
  evidenceRequirements : Option EvidenceRequirements
  deriving DecidableEq

namespace ResearchInput

variable (i : ResearchInput)

/-- `if (condition) triggers.push(trigger)`. -/
def pushIf (condition : Bool) (trigger : ResearchTrigger) : List ResearchTrigger :=
  if condition then [trigger] else []

/-- `triggers`. -/
def triggers : List ResearchTrigger :=
  let helpful := i.flags .externalInfoLikelyHelpful
  pushIf (i.flags .userRequested) .userRequested ++
  (pushIf (i.flags .versionSensitive) .versionSensitive ++
  pushIf (helpful && i.localAttemptFailures ≥ repeatedLocalFailureThreshold)
    .repeatedLocalFailuresWithExternalInfo ++
  pushIf (helpful && i.flags .unfamiliarError) .unfamiliarErrorWithExternalInfo ++
  pushIf (helpful && i.flags .upstreamBehaviorUnclear) .upstreamBehaviorUnclearWithExternalInfo ++
  pushIf (helpful && i.flags .knowledgeUncertainty) .knowledgeUncertaintyWithExternalInfo)

/-- The decision of `evaluateWebResearchPolicy`. -/
def decision : ResearchDecision :=
  let triggers := i.triggers
  let warranted := decide (triggers.length > 0)
  if !warranted then
    { action := .noResearch
      reason :=
        if i.flags .reasoningStall then .reasoningStallAloneInsufficient else .notWarranted
      warranted := false
      triggers
      reasonCodes := []
      allowedOperations := []
      evidenceRequirements := none }
  else if !i.flags .privacySafeQuery then
    { action := .blocked
      reason := .privacyUnsafeQuery
      warranted := true
      triggers
      reasonCodes := [.privacyUnsafeQuery]
      allowedOperations := []
      evidenceRequirements := none }
  else if !i.flags .capabilityAvailable then
    { action := .hold
      reason := .capabilityUnavailable
      warranted := true
      triggers
      reasonCodes := [.capabilityUnavailable]
      allowedOperations := []
      evidenceRequirements := none }
  else
    { action := .research
      reason := if i.flags .userRequested then .explicitUserRequest
        else .strongExternalInfoConditions
      warranted := true
      triggers
      reasonCodes := []
      allowedOperations := webResearchAllowedOperations
      evidenceRequirements := some webResearchEvidenceRequirements }

end ResearchInput

/-- `evaluateWebResearchPolicy(input)`. -/
def evaluateWebResearchPolicy (input : JsValue) : Throws ResearchDecision := do
  let read ← readResearch input
  pure read.decision

/-! ## What the input says -/

theorem requireBoolean_eq_ok {value : JsValue} {label : JsString} {b : Bool} :
    requireBoolean value label = .ok b ↔
      (value = .undefined ∨ ∃ b, value = .bool b) ∧ b = decide (value = .bool true) := by
  unfold requireBoolean
  by_cases h : value = .undefined
  · rw [if_pos h, pure_eq_ok, h]
    cases b <;> simp
  · rw [if_neg h, boolean_eq_ok]
    cases value <;> simp_all
    cases b <;> simp_all

theorem key_injective {f g : ResearchFlag} : f.key = g.key ↔ f = g := by
  unfold ResearchFlag.key
  rw [js_inj]
  exact JsEnum.injective.eq_iff

/-- A list that gives each key its value is looked up in. -/
theorem lookup_map {α β : Type} [DecidableEq α] {l : List α} {g : α → β} {a : α} (h : a ∈ l) :
    (l.map fun a => (a, g a)).lookup a = some (g a) := by
  induction l with
  | nil => cases h
  | cons b l ih =>
    rw [List.map_cons, List.lookup_cons]
    by_cases hab : a = b
    · rw [hab, beq_self_eq_true]
    · rw [beq_eq_false_iff_ne.mpr hab]
      exact ih ((List.mem_cons.mp h).resolve_left hab)

/-- What an input may say of a flag. -/
def MaySay (input : Props) (flag : ResearchFlag) : Prop :=
  prop input flag.key = .undefined ∨ ∃ b, prop input flag.key = .bool b

/-- The flags are those that the input sets to true. -/
theorem readFlags_eq_ok {input : Props} {flags : ResearchFlag → Bool} :
    readFlags input = .ok flags ↔ (∀ flag, MaySay input flag) ∧
      flags = fun flag => decide (prop input flag.key = .bool true) := by
  have hread : ∀ flag ∈ (JsEnum.values : List ResearchFlag), ∀ entry,
      (do let value ← requireBoolean (prop input flag.key) flag.key; pure (flag, value)) =
        .ok entry ↔
      MaySay input flag ∧ entry = (flag, decide (prop input flag.key = .bool true)) := by
    intro flag _ entry
    simp only [bind_eq_ok, pure_eq_ok, requireBoolean_eq_ok]
    constructor
    · intro h
      obtain ⟨value, ⟨hsound, hvalue⟩, h⟩ := h
      exact ⟨hsound, by rw [← h, hvalue]⟩
    · intro h
      obtain ⟨hsound, h⟩ := h
      exact ⟨_, ⟨hsound, rfl⟩, h.symm⟩
  unfold readFlags
  simp only [bind_eq_ok, pure_eq_ok, mapM_eq_ok hread]
  have hlookup : (fun flag : ResearchFlag => (((JsEnum.values : List ResearchFlag).map fun flag =>
      (flag, decide (prop input flag.key = .bool true))).lookup flag).getD false) =
      fun flag => decide (prop input flag.key = .bool true) := by
    funext flag
    rw [lookup_map (JsEnum.complete flag)]
    rfl
  constructor
  · intro h
    obtain ⟨read, ⟨hall, hread⟩, h⟩ := h
    exact ⟨fun flag => hall flag (JsEnum.complete flag), by rw [← h, hread, hlookup]⟩
  · intro h
    obtain ⟨hall, h⟩ := h
    exact ⟨_, ⟨fun flag _ => hall flag, rfl⟩, by rw [h, hlookup]⟩

/-- An input that the policy reads, and what it says. -/
structure ReadsResearch (input : Props) (i : ResearchInput) : Prop where
  known : ∀ key ∈ names input, key = js "local_attempt_failures" ∨
    ∃ flag : ResearchFlag, key = flag.key
  sound : ∀ flag, MaySay input flag
  flags : i.flags = fun flag => decide (prop input flag.key = .bool true)
  failures : prop input "local_attempt_failures" = .nat i.localAttemptFailures ∨
    prop input "local_attempt_failures" = .undefined ∧ i.localAttemptFailures = 0

theorem requireNonNegativeInteger_eq_ok {value : JsValue} {label : JsString} {n : ℕ} :
    requireNonNegativeInteger value label = .ok n ↔
      value = .nat n ∨ value = .undefined ∧ n = 0 := by
  unfold requireNonNegativeInteger
  by_cases h : value = .undefined
  · rw [if_pos h, pure_eq_ok, h]
    simp [JsValue.nat, eq_comm]
  · rw [if_neg h, nonNegativeInteger_eq_ok]
    simp [h]

theorem readResearch_eq_ok {input : Props} {i : ResearchInput} :
    readResearch (.obj input) = .ok i ↔ ReadsResearch input i := by
  unfold readResearch
  rw [if_neg nofun]
  simp only [plainObject, ok_bind, bind_eq_ok, refuseUnknownKeys_eq_ok, readFlags_eq_ok,
    requireNonNegativeInteger_eq_ok, pure_eq_ok]
  constructor
  · intro h
    obtain ⟨_, hknown, flags, ⟨hsound, hflags⟩, failures, hfailures, h⟩ := h
    refine ⟨fun key hkey => ?_, hsound, by rw [← h, hflags], by rw [← h]; exact hfailures⟩
    obtain rfl | hmem := List.mem_cons.mp (hknown key hkey)
    · exact .inl rfl
    · obtain ⟨flag, -, hflag⟩ := List.mem_map.mp hmem
      exact .inr ⟨flag, hflag.symm⟩
  · intro h
    obtain ⟨hknown, hsound, hflags, hfailures⟩ := h
    refine ⟨(), fun key hkey => ?_, i.flags, ⟨hsound, hflags⟩, _, hfailures, rfl⟩
    obtain rfl | ⟨flag, rfl⟩ := hknown key hkey
    · exact List.mem_cons_self
    · exact List.mem_cons_of_mem _ (List.mem_map_of_mem (JsEnum.complete flag))

theorem evaluateWebResearchPolicy_eq_ok {input : Props} {d : ResearchDecision} :
    evaluateWebResearchPolicy (.obj input) = .ok d ↔
      ∃ i, ReadsResearch input i ∧ d = i.decision := by
  unfold evaluateWebResearchPolicy
  simp only [bind_eq_ok, readResearch_eq_ok, pure_eq_ok]
  exact exists_congr fun i => and_congr_right fun _ => eq_comm

/-! ## What a decision means -/

/-- The input sets a flag. What it leaves out, it does not set. -/
def Sets (input : Props) (flag : ResearchFlag) : Prop := prop input flag.key = .bool true

/-- What the input has to say for a trigger. Only a request or a question of versions counts by
    itself; any other sign counts where external information is likely to help. -/
def Triggers (input : Props) : ResearchTrigger → Prop
  | .userRequested => Sets input .userRequested
  | .versionSensitive => Sets input .versionSensitive
  | .repeatedLocalFailuresWithExternalInfo => Sets input .externalInfoLikelyHelpful ∧
      ∃ n ≥ 2, prop input "local_attempt_failures" = .nat n
  | .unfamiliarErrorWithExternalInfo => Sets input .externalInfoLikelyHelpful ∧
      Sets input .unfamiliarError
  | .upstreamBehaviorUnclearWithExternalInfo => Sets input .externalInfoLikelyHelpful ∧
      Sets input .upstreamBehaviorUnclear
  | .knowledgeUncertaintyWithExternalInfo => Sets input .externalInfoLikelyHelpful ∧
      Sets input .knowledgeUncertainty

namespace ReadsResearch

variable {input : Props} {i : ResearchInput} (h : ReadsResearch input i)
include h

theorem flag_iff (flag : ResearchFlag) : i.flags flag = true ↔ Sets input flag := by
  rw [h.flags, decide_eq_true_eq, Sets]

theorem failures_iff : 2 ≤ i.localAttemptFailures ↔
    ∃ n ≥ 2, prop input "local_attempt_failures" = .nat n := by
  obtain hfailures | ⟨hnone, hzero⟩ := h.failures
  · rw [hfailures]
    simp [eq_comm]
  · rw [hnone, hzero]
    simp [JsValue.nat]

theorem mem_triggers (t : ResearchTrigger) : t ∈ i.triggers ↔ Triggers input t := by
  have hpush : ∀ c u, t ∈ ResearchInput.pushIf c u ↔ c = true ∧ t = u := by
    intro c u
    unfold ResearchInput.pushIf
    cases c <;> simp
  unfold ResearchInput.triggers
  simp only [List.mem_append, hpush, Bool.and_eq_true, h.flag_iff, decide_eq_true_iff, ge_iff_le]
  unfold repeatedLocalFailureThreshold
  rw [h.failures_iff]
  cases t <;> simp [Triggers]

end ReadsResearch

/-- The meaning of a decision. -/
structure ResearchExact (input : Props) (d : ResearchDecision) : Prop where
  triggers : ∀ t, t ∈ d.triggers ↔ Triggers input t
  research : d.action = .research ↔ (∃ t, Triggers input t) ∧ Sets input .privacySafeQuery ∧
    Sets input .capabilityAvailable
  blocked : d.action = .blocked ↔ (∃ t, Triggers input t) ∧ ¬ Sets input .privacySafeQuery
  hold : d.action = .hold ↔ (∃ t, Triggers input t) ∧ Sets input .privacySafeQuery ∧
    ¬ Sets input .capabilityAvailable
  operations : d.allowedOperations = if d.action = .research then [.search, .read] else []
  evidence : d.evidenceRequirements =
    if d.action = .research then some webResearchEvidenceRequirements else none

theorem decision_triggers (i : ResearchInput) : i.decision.triggers = i.triggers := by
  unfold ResearchInput.decision
  dsimp only
  split_ifs <;> rfl

theorem decision_warranted (i : ResearchInput) :
    i.decision.warranted = decide (i.triggers.length > 0) := by
  unfold ResearchInput.decision
  dsimp only
  cases decide (i.triggers.length > 0) with
  | false => rfl
  | true => cases i.flags .privacySafeQuery <;> cases i.flags .capabilityAvailable <;> rfl

/-- What it takes for the web to be asked. -/
theorem decision_operations (i : ResearchInput) : i.decision.allowedOperations =
    if i.triggers.length > 0 ∧ i.flags .privacySafeQuery = true ∧
      i.flags .capabilityAvailable = true then webResearchAllowedOperations else [] := by
  unfold ResearchInput.decision
  dsimp only
  split_ifs <;> simp_all

/-- **Nothing but reading is ever allowed, and that only where the input sets what it takes: a
    trigger, a safe query and the capability.** -/
theorem research_exact (input : Props) (d : ResearchDecision)
    (h : evaluateWebResearchPolicy (.obj input) = .ok d) : ResearchExact input d := by
  obtain ⟨i, hi, rfl⟩ := evaluateWebResearchPolicy_eq_ok.mp h
  have hwarranted : i.triggers.length > 0 ↔ ∃ t, Triggers input t := by
    rw [gt_iff_lt, List.length_pos_iff_exists_mem]
    exact exists_congr hi.mem_triggers
  have hsafe := hi.flag_iff .privacySafeQuery
  have hcapable := hi.flag_iff .capabilityAvailable
  constructor
  case triggers =>
    intro t
    rw [decision_triggers, hi.mem_triggers]
  all_goals
    unfold ResearchInput.decision
    simp only [← hwarranted, ← hsafe, ← hcapable]
    by_cases hw : i.triggers.length > 0
  all_goals
    cases hs : i.flags .privacySafeQuery <;> cases hc : i.flags .capabilityAvailable <;>
      simp [hw, webResearchAllowedOperations]

/-! ## Setting a flag -/

/-- What an input says with a flag set. -/
def ResearchInput.set (i : ResearchInput) (flag : ResearchFlag) (b : Bool) : ResearchInput :=
  { i with flags := fun f => if f = flag then b else i.flags f }

theorem ReadsResearch.set {input : Props} {i : ResearchInput} (h : ReadsResearch input i)
    (flag : ResearchFlag) (b : Bool) :
    ReadsResearch (defineProp input flag.key (.bool b)) (i.set flag b) := by
  have hother : js "local_attempt_failures" ≠ flag.key := by cases flag <;> decide
  constructor
  case known =>
    intro key hkey
    obtain rfl | hkey := mem_names_defineProp.mp hkey
    · exact .inr ⟨flag, rfl⟩
    · exact h.known key hkey
  case sound =>
    intro f
    unfold MaySay
    rw [prop_defineProp]
    split_ifs
    · exact .inr ⟨b, rfl⟩
    · exact h.sound f
  case flags =>
    funext f
    unfold ResearchInput.set
    rw [prop_defineProp]
    simp only [key_injective, h.flags]
    split_ifs <;> simp
  case failures =>
    rw [prop_defineProp, if_neg hother]
    exact h.failures

/-- **That the worker is stalling is never a reason to ask the web.** It shows only in the reason
    that is given for not asking. -/
theorem research_stall {input : Props} {d : ResearchDecision}
    (h : evaluateWebResearchPolicy (.obj input) = .ok d) (b : Bool) :
    evaluateWebResearchPolicy
        (.obj (defineProp input (ResearchFlag.reasoningStall).key (.bool b))) =
      .ok { d with reason := if d.warranted then d.reason
        else if b then .reasoningStallAloneInsufficient else .notWarranted } := by
  obtain ⟨i, hi, rfl⟩ := evaluateWebResearchPolicy_eq_ok.mp h
  refine evaluateWebResearchPolicy_eq_ok.mpr ⟨_, hi.set _ b, ?_⟩
  have htriggers : (i.set .reasoningStall b).triggers = i.triggers := rfl
  unfold ResearchInput.decision
  rw [htriggers]
  dsimp only [ResearchInput.set]
  split_ifs <;> simp_all

theorem pushIf_sublist {c c' : Bool} (h : c = true → c' = true) (t : ResearchTrigger) :
    (ResearchInput.pushIf c t).Sublist (ResearchInput.pushIf c' t) := by
  unfold ResearchInput.pushIf
  cases c with
  | false => exact List.nil_sublist _
  | true => rw [h rfl]

theorem ResearchInput.set_mono (i : ResearchInput) (flag : ResearchFlag) {f : ResearchFlag}
    (h : i.flags f = true) : (i.set flag true).flags f = true := by
  unfold ResearchInput.set
  dsimp only
  split_ifs
  · rfl
  · exact h

/-- Setting a flag takes no trigger away. -/
theorem triggers_sublist (i : ResearchInput) (flag : ResearchFlag) :
    i.triggers.Sublist (i.set flag true).triggers := by
  have hflag (f : ResearchFlag) := i.set_mono flag (f := f)
  have hboth (f : ResearchFlag)
      (hf : (i.flags .externalInfoLikelyHelpful && i.flags f) = true) :
      ((i.set flag true).flags .externalInfoLikelyHelpful && (i.set flag true).flags f) = true := by
    rw [Bool.and_eq_true] at hf ⊢
    exact ⟨hflag _ hf.1, hflag _ hf.2⟩
  unfold ResearchInput.triggers
  refine (pushIf_sublist (hflag _) _).append ?_
  refine ((((pushIf_sublist (hflag _) _).append ?_).append ?_).append ?_).append ?_
  · refine pushIf_sublist (fun hf => ?_) _
    rw [Bool.and_eq_true] at hf ⊢
    exact ⟨hflag _ hf.1, hf.2⟩
  all_goals exact pushIf_sublist (hboth _) _

/-- **A further sign never takes research away.** Whatever flag is set, the triggers that there
    were are still given, and where research was allowed it still is. -/
theorem research_raised {input : Props} {d : ResearchDecision}
    (h : evaluateWebResearchPolicy (.obj input) = .ok d) (flag : ResearchFlag) :
    ∃ d', evaluateWebResearchPolicy (.obj (defineProp input flag.key (.bool true))) = .ok d' ∧
      d.triggers.Sublist d'.triggers ∧ (d.warranted = true → d'.warranted = true) ∧
      d.allowedOperations.Sublist d'.allowedOperations := by
  obtain ⟨i, hi, rfl⟩ := evaluateWebResearchPolicy_eq_ok.mp h
  refine ⟨_, evaluateWebResearchPolicy_eq_ok.mpr ⟨_, hi.set flag true, rfl⟩, ?_⟩
  have hsub := triggers_sublist i flag
  have hlength := hsub.length_le
  rw [decision_triggers, decision_triggers, decision_warranted, decision_warranted,
    decision_operations, decision_operations]
  refine ⟨hsub, fun hwarranted => ?_, ?_⟩
  · have hpos := of_decide_eq_true hwarranted
    exact decide_eq_true (by omega)
  · split_ifs with h1 h2
    · rfl
    · exact absurd ⟨by omega, i.set_mono flag h1.2.1, i.set_mono flag h1.2.2⟩ h2
    all_goals exact List.nil_sublist _

/-- A safe query that the user asked for, by a worker that cannot reach the web. -/
def sampleQuery : Props :=
  [(js "user_requested", .bool true), (js "privacy_safe_query", .bool true)]

theorem sampleQuery_held : evaluateWebResearchPolicy (.obj sampleQuery) =
    .ok ⟨.hold, .capabilityUnavailable, true, [.userRequested], [.capabilityUnavailable], [],
      none⟩ := by rfl

theorem research_exact_sample : ¬ Sets sampleQuery .capabilityAvailable :=
  ((research_exact sampleQuery _ sampleQuery_held).hold.mp rfl).2.2

theorem research_raised_sample : ∃ d, evaluateWebResearchPolicy (.obj (defineProp sampleQuery
    (ResearchFlag.capabilityAvailable).key (.bool true))) = .ok d ∧ d.warranted = true := by
  obtain ⟨d, hd, -, hwarranted, -⟩ := research_raised sampleQuery_held .capabilityAvailable
  exact ⟨d, hd, hwarranted rfl⟩

end Wns.Policy
