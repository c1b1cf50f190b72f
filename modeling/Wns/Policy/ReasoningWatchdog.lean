import Wns.Checkpoint.Validation
import Wns.Common.Ladder

/-!
# The reasoning watchdog

Model of `supervisor-policy/reasoning-watchdog.mjs`. The watchdog compares what a worker has spent
since it was last productive, in time and in thinking tokens, with two pairs of thresholds.

* `watchdog_exact`: what each diagnosis means, in terms of what the input says.
* `watchdog_monotone`: while a worker only reasons, a diagnosis never gets better with more spent
  or with lower thresholds.
-/

namespace Wns.Policy

open Ecma JsValue

/-! ## Thresholds -/

/-- `WATCHDOG_DIAGNOSTIC_STATES`. -/
inductive DiagnosticState
  | productive | blocked | reasoningWithinBudget | reasoningSoftBudgetExceeded
  | reasoningHardBudgetExceeded
  deriving DecidableEq

/-- `WATCHDOG_REASONS`. -/
inductive WatchdogReason
  | productiveProgress | blockedPendingApproval | reasoningWithinBudget
  | reasoningSoftBudgetExceeded | reasoningHardBudgetExceeded
  deriving DecidableEq

/-- A configuration that `normalizeConfig` accepts. -/
structure Thresholds where
  softAfterMs : ℕ
  softAfterThinkingTokens : ℕ
  hardAfterMs : ℕ
  hardAfterThinkingTokens : ℕ
  ms : softAfterMs ≤ hardAfterMs
  tokens : softAfterThinkingTokens ≤ hardAfterThinkingTokens
  deriving DecidableEq

/-- `DEFAULT_WATCHDOG_CONFIG`. -/
def defaultWatchdogConfig : Thresholds where
  softAfterMs := 45000
  softAfterThinkingTokens := 4000
  hardAfterMs := 90000
  hardAfterThinkingTokens := 7000
  ms := by decide
  tokens := by decide

/-- `CONFIG_KEYS`. -/
def configKeys : List JsString :=
  ["soft_after_ms", "soft_after_thinking_tokens", "hard_after_ms", "hard_after_thinking_tokens"]

/-- A threshold of the configuration. -/
def readThreshold (source : Props) (key : JsString) (fallback : ℕ) : Throws ℕ :=
  nonNegativeInteger (coalesce (prop source key) (.nat fallback)) ("config." ++ key)

/-- `normalizeConfig(config)`. -/
def normalizeConfig (config : JsValue) : Throws Thresholds := do
  let source ← plainObject "config must be an object" config
  refuseUnknownKeys "config" configKeys source
  let softAfterMs ← readThreshold source "soft_after_ms" defaultWatchdogConfig.softAfterMs
  let softAfterThinkingTokens ← readThreshold source "soft_after_thinking_tokens"
    defaultWatchdogConfig.softAfterThinkingTokens
  let hardAfterMs ← readThreshold source "hard_after_ms" defaultWatchdogConfig.hardAfterMs
  let hardAfterThinkingTokens ← readThreshold source "hard_after_thinking_tokens"
    defaultWatchdogConfig.hardAfterThinkingTokens
  let ms ← require (softAfterMs ≤ hardAfterMs)
    "config.hard_after_ms must be >= config.soft_after_ms"
  let tokens ← require (softAfterThinkingTokens ≤ hardAfterThinkingTokens)
    "config.hard_after_thinking_tokens must be >= config.soft_after_thinking_tokens"
  pure
    { softAfterMs, softAfterThinkingTokens, hardAfterMs, hardAfterThinkingTokens
      ms := ms.down
      tokens := tokens.down }

/-- `normalizeConfig(config)`, where the configuration has a default. -/
def readConfig (config : JsValue) : Throws Thresholds :=
  if config = .undefined then pure defaultWatchdogConfig else normalizeConfig config

/-! ## Diagnosis -/

structure WatchdogReport where
  diagnosticState : DiagnosticState
  reason : WatchdogReason
  semanticState : SemanticState
  observedElapsedMs : ℕ
  observedThinkingTokens : Option ℕ
  thresholds : Thresholds
  deriving DecidableEq

/-- `elapsed >= ms || (tokens !== null && tokens >= limit)`. -/
def exceeds (elapsed : ℕ) (tokens : Option ℕ) (ms limit : ℕ) : Bool :=
  elapsed ≥ ms || match tokens with
    | some tokens => tokens ≥ limit
    | none => false

/-- The diagnosis and its reason. -/
def diagnose (thresholds : Thresholds) (state : SemanticState) (elapsed : ℕ)
    (tokens : Option ℕ) : DiagnosticState × WatchdogReason :=
  if state = .productive then (.productive, .productiveProgress)
  else if state = .blocked then (.blocked, .blockedPendingApproval)
  else
    let hard := exceeds elapsed tokens thresholds.hardAfterMs thresholds.hardAfterThinkingTokens
    let soft := exceeds elapsed tokens thresholds.softAfterMs thresholds.softAfterThinkingTokens
    if hard then (.reasoningHardBudgetExceeded, .reasoningHardBudgetExceeded)
    else if soft then (.reasoningSoftBudgetExceeded, .reasoningSoftBudgetExceeded)
    else (.reasoningWithinBudget, .reasoningWithinBudget)

/-- `evaluateReasoningWatchdog(input)`. -/
def evaluateReasoningWatchdog (input : JsValue) : Throws WatchdogReport := do
  let value ← plainObject "input must be an object" (if input = .undefined then .obj [] else input)
  refuseUnknownKeys "input" ["semantic_progress", "elapsed_since_productive_ms", "config"] value
  let thresholds ← readConfig (prop value "config")
  let progress ← normalizeSemanticProgress (prop value "semantic_progress")
  let elapsed ← nonNegativeInteger (prop value "elapsed_since_productive_ms")
    "elapsed_since_productive_ms"
  let tokens := progress.thinkingTokensSinceProductive
  let (diagnosticState, reason) := diagnose thresholds progress.semanticState elapsed tokens
  pure
    { diagnosticState, reason, thresholds
      semanticState := progress.semanticState
      observedElapsedMs := elapsed
      observedThinkingTokens := tokens }

/-! ## What the input says -/

/-- The thresholds are those that the configuration gives, by default where it gives none. -/
def ReadsThresholds (config : JsValue) (t : Thresholds) : Prop :=
  config = .undefined ∧ t = defaultWatchdogConfig ∨
  ∃ source, config = .obj source ∧ (∀ key ∈ names source, key ∈ configKeys) ∧
    coalesce (prop source "soft_after_ms") (.nat 45000) = .nat t.softAfterMs ∧
    coalesce (prop source "soft_after_thinking_tokens") (.nat 4000) =
      .nat t.softAfterThinkingTokens ∧
    coalesce (prop source "hard_after_ms") (.nat 90000) = .nat t.hardAfterMs ∧
    coalesce (prop source "hard_after_thinking_tokens") (.nat 7000) =
      .nat t.hardAfterThinkingTokens

theorem readConfig_eq_ok {config : JsValue} {t : Thresholds} (h : readConfig config = .ok t) :
    ReadsThresholds config t := by
  unfold readConfig at h
  by_cases hnone : config = .undefined
  · rw [if_pos hnone] at h
    exact .inl ⟨hnone, (pure_eq_ok.mp h).symm⟩
  rw [if_neg hnone] at h
  unfold normalizeConfig readThreshold at h
  simp only [bind_eq_ok, plainObject_eq_ok, refuseUnknownKeys_eq_ok, nonNegativeInteger_eq_ok,
    require_eq_ok, exists_pLift, pure_eq_ok] at h
  obtain ⟨source, hconfig, _, hkeys, _, hsoftMs, _, hsoft, _, hhardMs, _, hhard, _, _, _, _,
    rfl⟩ := h
  exact .inr ⟨source, hconfig, hkeys, hsoftMs, hsoft, hhardMs, hhard⟩

/-- What the input says of a worker, and the thresholds it gives. -/
def ReadsWatchdog (input : JsValue) (r : WatchdogReport) : Prop :=
  ∃ value progress, (if input = .undefined then .obj [] else input) = .obj value ∧
    prop value "semantic_progress" = .obj progress ∧
    prop progress "semantic_state" = ofEnum r.semanticState ∧
    prop value "elapsed_since_productive_ms" = .nat r.observedElapsedMs ∧
    prop progress "thinking_tokens_since_productive" = ofNatOrNull r.observedThinkingTokens ∧
    ReadsThresholds (prop value "config") r.thresholds

theorem evaluateReasoningWatchdog_eq_ok {input : JsValue} {r : WatchdogReport}
    (h : evaluateReasoningWatchdog input = .ok r) :
    ReadsWatchdog input r ∧ (r.diagnosticState, r.reason) =
      diagnose r.thresholds r.semanticState r.observedElapsedMs r.observedThinkingTokens := by
  unfold evaluateReasoningWatchdog at h
  simp only [bind_eq_ok, plainObject_eq_ok, nonNegativeInteger_eq_ok, pure_eq_ok] at h
  obtain ⟨value, hvalue, _, -, t, ht, progress, hprogress, elapsed, helapsed, rfl⟩ := h
  obtain ⟨source, hsource, hreads⟩ := normalizeSemanticProgress_eq_ok.mp hprogress
  exact ⟨⟨value, source, hvalue, hsource, hreads.state, helapsed, hreads.tokens,
    readConfig_eq_ok ht⟩, rfl⟩

/-- What an input has to give beside the semantic progress. -/
structure AsksWatchdog (input : Props) : Prop where
  keys : ∀ key ∈ names input, key ∈
    ([js "semantic_progress", js "elapsed_since_productive_ms", js "config"] : List JsString)
  config : ∃ t, readConfig (prop input "config") = .ok t
  elapsed : ∃ n, prop input "elapsed_since_productive_ms" = .nat n

theorem evaluateReasoningWatchdog_isOk {input : Props} :
    (∃ r, evaluateReasoningWatchdog (.obj input) = .ok r) ↔ AsksWatchdog input ∧
      ∃ p, normalizeSemanticProgress (prop input "semantic_progress") = .ok p := by
  unfold evaluateReasoningWatchdog
  rw [if_neg nofun]
  simp only [bind_eq_ok, plainObject_eq_ok, refuseUnknownKeys_eq_ok, nonNegativeInteger_eq_ok,
    pure_eq_ok]
  constructor
  · intro h
    obtain ⟨_, value, hvalue, _, hkeys, t, ht, p, hp, n, hn, _⟩ := h
    obtain rfl := JsValue.obj.inj hvalue
    exact ⟨⟨hkeys, ⟨t, ht⟩, n, hn⟩, p, hp⟩
  · intro h
    obtain ⟨⟨hkeys, ⟨t, ht⟩, n, hn⟩, p, hp⟩ := h
    exact ⟨_, input, rfl, (), hkeys, t, ht, p, hp, n, hn, rfl⟩

/-! ## What a diagnosis means -/

/-- At least `ms`, or at least `limit` tokens where they are known. -/
def Spent (elapsed : ℕ) (tokens : Option ℕ) (ms limit : ℕ) : Prop :=
  ms ≤ elapsed ∨ ∃ n, tokens = some n ∧ limit ≤ n

theorem exceeds_iff {elapsed ms limit : ℕ} {tokens : Option ℕ} :
    exceeds elapsed tokens ms limit = true ↔ Spent elapsed tokens ms limit := by
  unfold exceeds Spent
  cases tokens <;> simp

/-- The hard budget cannot be spent before the soft one. -/
theorem Thresholds.spent_soft (t : Thresholds) {elapsed : ℕ} {tokens : Option ℕ}
    (h : Spent elapsed tokens t.hardAfterMs t.hardAfterThinkingTokens) :
    Spent elapsed tokens t.softAfterMs t.softAfterThinkingTokens :=
  h.imp t.ms.trans fun ⟨n, hn, h⟩ => ⟨n, hn, t.tokens.trans h⟩

/-- The meaning of a report. -/
structure WatchdogExact (r : WatchdogReport) : Prop where
  productive : r.diagnosticState = .productive ↔ r.semanticState = .productive
  blocked : r.diagnosticState = .blocked ↔ r.semanticState = .blocked
  hard : r.diagnosticState = .reasoningHardBudgetExceeded ↔ r.semanticState = .reasoningOnly ∧
    Spent r.observedElapsedMs r.observedThinkingTokens r.thresholds.hardAfterMs
      r.thresholds.hardAfterThinkingTokens
  within : r.diagnosticState = .reasoningWithinBudget ↔ r.semanticState = .reasoningOnly ∧
    ¬ Spent r.observedElapsedMs r.observedThinkingTokens r.thresholds.softAfterMs
      r.thresholds.softAfterThinkingTokens

/-- **A report says what the input says, and diagnoses it as the thresholds have it.** -/
theorem watchdog_exact (input : JsValue) (r : WatchdogReport)
    (h : evaluateReasoningWatchdog input = .ok r) : ReadsWatchdog input r ∧ WatchdogExact r := by
  obtain ⟨hreads, hdiagnosis⟩ := evaluateReasoningWatchdog_eq_ok h
  refine ⟨hreads, ?_⟩
  have hsoft := @r.thresholds.spent_soft r.observedElapsedMs r.observedThinkingTokens
  have hstate : r.diagnosticState = (diagnose r.thresholds r.semanticState r.observedElapsedMs
      r.observedThinkingTokens).1 := congrArg Prod.fst hdiagnosis
  unfold diagnose at hstate
  cases hsemantic : r.semanticState with
  | productive =>
    rw [if_pos hsemantic] at hstate
    constructor <;> simp [hstate, hsemantic]
  | blocked =>
    rw [if_neg (by simp [hsemantic]), if_pos hsemantic] at hstate
    constructor <;> simp [hstate, hsemantic]
  | reasoningOnly =>
    rw [if_neg (by simp [hsemantic]), if_neg (by simp [hsemantic])] at hstate
    dsimp only at hstate
    split_ifs at hstate with hhard hspent <;> rw [exceeds_iff] at hhard
    · constructor <;> simp [hstate, hsemantic, hhard, hsoft hhard]
    all_goals
      rw [exceeds_iff] at hspent
      constructor <;> simp [hstate, hsemantic, hhard, hspent]

/-! ## More spent, and lower thresholds -/

/-- How bad a diagnosis is of a worker that only reasons. -/
def DiagnosticState.rank : DiagnosticState → ℕ
  | .reasoningSoftBudgetExceeded => 1
  | .reasoningHardBudgetExceeded => 2
  | _ => 0

/-- The second report has as much spent, and as low thresholds. -/
structure SpentMore (r r' : WatchdogReport) : Prop where
  elapsed : r.observedElapsedMs ≤ r'.observedElapsedMs
  tokens : ∀ n, r.observedThinkingTokens = some n →
    ∃ n', r'.observedThinkingTokens = some n' ∧ n ≤ n'
  softMs : r'.thresholds.softAfterMs ≤ r.thresholds.softAfterMs
  softTokens : r'.thresholds.softAfterThinkingTokens ≤ r.thresholds.softAfterThinkingTokens
  hardMs : r'.thresholds.hardAfterMs ≤ r.thresholds.hardAfterMs
  hardTokens : r'.thresholds.hardAfterThinkingTokens ≤ r.thresholds.hardAfterThinkingTokens

theorem SpentMore.spent {r r' : WatchdogReport} (h : SpentMore r r') {ms limit ms' limit' : ℕ}
    (hms : ms' ≤ ms) (hlimit : limit' ≤ limit)
    (hspent : Spent r.observedElapsedMs r.observedThinkingTokens ms limit) :
    Spent r'.observedElapsedMs r'.observedThinkingTokens ms' limit' := by
  obtain helapsed | ⟨n, hn, hlimit'⟩ := hspent
  · exact .inl ((hms.trans helapsed).trans h.elapsed)
  · obtain ⟨n', hn', hle⟩ := h.tokens n hn
    exact .inr ⟨n', hn', (hlimit.trans hlimit').trans hle⟩

/-- The budgets, the hard one first. -/
def budgets : List (WatchdogReport → Bool) :=
  [fun r => exceeds r.observedElapsedMs r.observedThinkingTokens r.thresholds.hardAfterMs
      r.thresholds.hardAfterThinkingTokens,
    fun r => exceeds r.observedElapsedMs r.observedThinkingTokens r.thresholds.softAfterMs
      r.thresholds.softAfterThinkingTokens]

theorem SpentMore.escalates {r r' : WatchdogReport} (h : SpentMore r r') :
    Ladder.Escalates budgets r r' := by
  refine .cons (fun hs => ?_) fun _ => .cons (fun hs => ?_) fun _ => trivial
  · exact exceeds_iff.mpr (h.spent h.hardMs h.hardTokens (exceeds_iff.mp hs))
  · exact exceeds_iff.mpr (h.spent h.softMs h.softTokens (exceeds_iff.mp hs))

theorem diagnose_rank {r : WatchdogReport} (h : r.semanticState = .reasoningOnly) :
    (diagnose r.thresholds r.semanticState r.observedElapsedMs r.observedThinkingTokens).1.rank =
      2 - Ladder.level budgets r := by
  unfold diagnose Ladder.level budgets
  rw [if_neg (by simp [h]), if_neg (by simp [h])]
  simp only [List.findIdx_cons, List.findIdx_nil]
  split_ifs <;> simp_all [DiagnosticState.rank]

/-- Of any other worker, only its state matters. -/
theorem diagnose_eq {t t' : Thresholds} {state : SemanticState} (h : state ≠ .reasoningOnly)
    {elapsed elapsed' : ℕ} {tokens tokens' : Option ℕ} :
    diagnose t state elapsed tokens = diagnose t' state elapsed' tokens' := by
  cases state with
  | productive => rfl
  | blocked => rfl
  | reasoningOnly => exact absurd rfl h

/-- **Of a worker that only reasons, the diagnosis never gets better with more spent, or with lower
    thresholds. What a worker has spent says nothing of one that is productive or blocked.** -/
theorem watchdog_monotone {input input' : JsValue} {r r' : WatchdogReport}
    (h : evaluateReasoningWatchdog input = .ok r) (h' : evaluateReasoningWatchdog input' = .ok r')
    (hstate : r.semanticState = r'.semanticState) :
    (SpentMore r r' → r.diagnosticState.rank ≤ r'.diagnosticState.rank) ∧
      (r.semanticState ≠ .reasoningOnly →
        r.diagnosticState = r'.diagnosticState ∧ r.reason = r'.reason) := by
  have hdiagnosis := (evaluateReasoningWatchdog_eq_ok h).2
  have hdiagnosis' := (evaluateReasoningWatchdog_eq_ok h').2
  have hother (hnot : r.semanticState ≠ .reasoningOnly) :
      r.diagnosticState = r'.diagnosticState ∧ r.reason = r'.reason := by
    rw [← Prod.mk.injEq, hdiagnosis, hdiagnosis', ← hstate]
    exact diagnose_eq hnot
  refine ⟨fun hmore => ?_, hother⟩
  by_cases honly : r.semanticState = .reasoningOnly
  · have hrank := congrArg (·.1.rank) hdiagnosis
    have hrank' := congrArg (·.1.rank) hdiagnosis'
    dsimp only at hrank hrank'
    rw [diagnose_rank honly] at hrank
    rw [diagnose_rank (hstate ▸ honly)] at hrank'
    have hlevel := Ladder.level_le hmore.escalates
    omega
  · rw [(hother honly).1]

/-- A worker that only reasons, after a time. -/
def sampleProgress (elapsed : ℕ) : JsValue :=
  .obj [(js "elapsed_since_productive_ms", .nat elapsed),
    (js "semantic_progress", .obj [(js "semantic_state", .str (js "reasoning_only")),
      (js "thinking_tokens_since_productive", .null)])]

theorem watchdog_monotone_sample : ∃ r r',
    evaluateReasoningWatchdog (sampleProgress 50000) = .ok r ∧
      evaluateReasoningWatchdog (sampleProgress 95000) = .ok r' ∧
        r.diagnosticState.rank ≤ r'.diagnosticState.rank := by
  have h : evaluateReasoningWatchdog (sampleProgress 50000) =
      .ok ⟨.reasoningSoftBudgetExceeded, .reasoningSoftBudgetExceeded, .reasoningOnly, 50000, none,
        defaultWatchdogConfig⟩ := by rfl
  have h' : evaluateReasoningWatchdog (sampleProgress 95000) =
      .ok ⟨.reasoningHardBudgetExceeded, .reasoningHardBudgetExceeded, .reasoningOnly, 95000, none,
        defaultWatchdogConfig⟩ := by rfl
  refine ⟨_, _, h, h', (watchdog_monotone h h' rfl).1 ?_⟩
  exact ⟨by decide, nofun, le_rfl, le_rfl, le_rfl, le_rfl⟩

end Wns.Policy
