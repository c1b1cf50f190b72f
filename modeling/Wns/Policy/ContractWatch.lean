import Wns.Common.Ladder
import Wns.Common.Run
import Wns.Ecma.Coerce

/-!
# Watching the native contracts

Model of `supervisor-policy/contract-watch.mjs`, with the domains and the workers of
`contract-watch-baseline.json`. A review of a native contract says of each watched domain how it
has changed; the assessment asks six questions in turn, the gravest first.

* `watch_exact`: what each assessment means, over the observed domains, the tests and the
  version.
* `watch_monotone`: a review that finds worse is assessed as at least as severe.
-/

namespace Wns.Policy

open Ecma JsValue

/-! ## Observations -/

/-- `WATCH_STATES`. -/
inductive WatchState
  | stable | additive | breaking | unknown | notApplicable
  deriving DecidableEq

instance : JsEnum WatchState where
  values := [.stable, .additive, .breaking, .unknown, .notApplicable]
  text
    | .stable => "stable"
    | .additive => "additive"
    | .breaking => "breaking"
    | .unknown => "unknown"
    | .notApplicable => "not_applicable"
  complete := by rintro ⟨⟩ <;> simp
  injective := by rintro ⟨⟩ ⟨⟩ <;> simp

inductive TestState
  | passed | failed | notRun
  deriving DecidableEq

instance : JsEnum TestState where
  values := [.passed, .failed, .notRun]
  text
    | .passed => "passed"
    | .failed => "failed"
    | .notRun => "not_run"
  complete := by rintro ⟨⟩ <;> simp
  injective := by rintro ⟨⟩ ⟨⟩ <;> simp

/-- What the baseline asks of a worker. -/
structure WorkerBaseline where
  required : List JsString
  optional : List JsString
  deriving DecidableEq

/-- `baseline.domains`. -/
def watchDomains : List JsString :=
  ["native_api", "event_schema", "approval_semantics", "context_loading", "tool_catalog",
    "rate_limits"]

/-- `baseline.workers`. -/
def baselineWorkers : List (JsString × WorkerBaseline) :=
  let required : List JsString :=
    ["native_api", "event_schema", "approval_semantics", "context_loading", "tool_catalog"]
  [("codex", ⟨required ++ [js "rate_limits"], []⟩), ("pi", ⟨required, ["rate_limits"]⟩),
    ("claude", ⟨required, ["rate_limits"]⟩)]

/-- `requireWorker(worker)`: the name, as a property key, and the baseline. -/
def requireWorker (worker : JsValue) : Throws (JsString × WorkerBaseline) := do
  let key ← toText worker
  match baselineWorkers.find? fun entry => entry.1 = key with
  | some entry => pure entry
  | none =>
    throwType ("worker must be one of: " ++ List.intercalate (js ", ") (names baselineWorkers))

/-- `normalizeTests(value)`. -/
def normalizeTests (value : JsValue) : Throws TestState :=
  if value = .undefined then .ok .notRun
  else enumMember "tests must be passed, failed, or not_run" value

/-- `requireWatchState(value, label)`. -/
def requireWatchState (value : JsValue) (label : JsString) : Throws WatchState :=
  enumMember (label ++ " must be one of: " ++
    List.intercalate (js ", ") ((JsEnum.values : List WatchState).map fun s => js (JsEnum.text s)))
    value

/-- The state of a domain. -/
def normalizeDomain (worker : JsString) (baseline : WorkerBaseline) (domains : Props)
    (domain : JsString) : Throws WatchState :=
  let raw := prop domains domain
  if raw = .undefined then
    pure (if domain ∈ baseline.optional then .notApplicable else .unknown)
  else do
    let state ← requireWatchState raw ("domains." ++ domain)
    if domain ∈ baseline.required ∧ state = .notApplicable then
      throwType ("domains." ++ domain ++ " cannot be not_applicable for " ++ worker)
    else pure state

/-- What a review has found of a worker. A required domain that has been left out is unknown, and
    none is not applicable. -/
structure Observation where
  worker : JsValue
  baseline : WorkerBaseline
  state : JsString → WatchState
  missingRequired : List JsString
  tests : TestState
  nativeVersionChanged : Bool
  missing : ∀ domain ∈ missingRequired, domain ∈ watchDomains ∧ domain ∈ baseline.required ∧
    state domain = .unknown
  applicable : ∀ domain ∈ watchDomains, domain ∈ baseline.required → state domain ≠ .notApplicable
  watched : baseline.required ⊆ watchDomains

/-! ## Assessment -/

inductive WatchAction
  | patchContractSeam | probeContractSeam | runConformanceTests | observeOnly | pass
  deriving DecidableEq

/-- The severities, the least first. -/
inductive Severity
  | none | info | review | blocking
  deriving DecidableEq

inductive WatchReason
  | breakingContractSeamObserved | conformanceRegressionFailed | requiredWatchDomainUnverified
  | nativeChangeRequiresRegressionEvidence | nativeChangeWithoutContractBreak
  | contractSeamStable
  deriving DecidableEq

inductive FixScope
  | adapterContractSeamOnly | diagnoseBeforePatch | noPatchUntilEvidence | none
  deriving DecidableEq

structure Assessment where
  worker : JsValue
  action : WatchAction
  severity : Severity
  reason : WatchReason
  changedDomains : Option (List JsString)
  unknownDomains : Option (List JsString)
  allowedFixScope : FixScope
  tests : TestState

namespace Observation

variable (o : Observation)

/-- The domains in a given state. -/
def inState (state : WatchState) : List JsString :=
  watchDomains.filter fun domain => o.state domain = state

def unknownRequired : List JsString :=
  o.baseline.required.filter fun domain => o.state domain = .unknown

/-- The rungs of `assessContractWatch`. -/
def assess : Assessment :=
  let breakingDomains := o.inState .breaking
  let additiveDomains := o.inState .additive
  if breakingDomains.length > 0 then
    { worker := o.worker
      action := .patchContractSeam
      severity := .blocking
      reason := .breakingContractSeamObserved
      changedDomains := some breakingDomains
      unknownDomains := none
      allowedFixScope := .adapterContractSeamOnly
      tests := o.tests }
  else if o.tests = .failed then
    { worker := o.worker
      action := .probeContractSeam
      severity := .blocking
      reason := .conformanceRegressionFailed
      changedDomains := some additiveDomains
      unknownDomains := some o.unknownRequired
      allowedFixScope := .diagnoseBeforePatch
      tests := o.tests }
  else if o.missingRequired.length > 0 ∨ o.unknownRequired.length > 0 then
    { worker := o.worker
      action := .probeContractSeam
      severity := .review
      reason := .requiredWatchDomainUnverified
      changedDomains := none
      unknownDomains := some (o.missingRequired ++ o.unknownRequired).eraseDups
      allowedFixScope := .noPatchUntilEvidence
      tests := o.tests }
  else if o.tests ≠ .passed ∧ (o.nativeVersionChanged ∨ additiveDomains.length > 0) then
    { worker := o.worker
      action := .runConformanceTests
      severity := .review
      reason := .nativeChangeRequiresRegressionEvidence
      changedDomains := some additiveDomains
      unknownDomains := none
      allowedFixScope := .noPatchUntilEvidence
      tests := o.tests }
  else if o.nativeVersionChanged ∨ additiveDomains.length > 0 then
    { worker := o.worker
      action := .observeOnly
      severity := .info
      reason := .nativeChangeWithoutContractBreak
      changedDomains := some additiveDomains
      unknownDomains := none
      allowedFixScope := .none
      tests := o.tests }
  else
    { worker := o.worker
      action := .pass
      severity := .none
      reason := .contractSeamStable
      changedDomains := some []
      unknownDomains := none
      allowedFixScope := .none
      tests := o.tests }

end Observation

/-! ## Reading a review -/

/-- What holds of every baseline. -/
theorem baseline_spec {entry : JsString × WorkerBaseline} (h : entry ∈ baselineWorkers) :
    entry.2.required ⊆ watchDomains ∧ ∀ domain ∈ entry.2.required, domain ∉ entry.2.optional := by
  have hall : ∀ entry ∈ baselineWorkers, (∀ domain ∈ entry.2.required, domain ∈ watchDomains) ∧
      ∀ domain ∈ entry.2.required, domain ∉ entry.2.optional := by decide
  exact hall entry h

/-- What is read of a domain. Only a domain that need not be watched is not applicable. -/
def ReadsDomain (baseline : WorkerBaseline) (domains : Props) (domain : JsString)
    (state : WatchState) : Prop :=
  prop domains domain = .undefined ∧
      state = (if domain ∈ baseline.optional then .notApplicable else .unknown) ∨
    prop domains domain = ofEnum state ∧ ¬ (domain ∈ baseline.required ∧ state = .notApplicable)

theorem requireWorker_eq_ok {worker : JsValue} {entry : JsString × WorkerBaseline}
    (h : requireWorker worker = .ok entry) : entry ∈ baselineWorkers := by
  obtain ⟨key, -, h⟩ := bind_eq_ok.mp h
  split at h
  · next found hfound =>
    obtain rfl := pure_eq_ok.mp h
    exact List.mem_of_find?_eq_some hfound
  · simp at h

theorem normalizeDomain_eq_ok {worker domain : JsString} {baseline : WorkerBaseline}
    {domains : Props} {state : WatchState} :
    normalizeDomain worker baseline domains domain = .ok state ↔
      ReadsDomain baseline domains domain state := by
  unfold normalizeDomain requireWatchState ReadsDomain
  dsimp only
  by_cases hraw : prop domains domain = .undefined
  · rw [if_pos hraw, pure_eq_ok, hraw]
    simp [ofEnum, eq_comm]
  · rw [if_neg hraw]
    simp only [bind_eq_ok, enumMember_eq_ok, hraw, false_and, false_or]
    constructor
    · intro h
      obtain ⟨found, hfound, h⟩ := h
      split_ifs at h with hnot
      · simp at h
      · obtain rfl := pure_eq_ok.mp h
        exact ⟨hfound, hnot⟩
    · intro h
      obtain ⟨hfound, hnot⟩ := h
      exact ⟨state, hfound, by rw [if_neg hnot, pure_eq_ok]⟩

/-- What the checks of a review establish. -/
structure Review where
  worker : JsValue
  entry : JsString × WorkerBaseline
  domains : Props
  tests : TestState
  nativeVersionChanged : Bool
  baseline : entry ∈ baselineWorkers
  valid : ∀ domain ∈ watchDomains, ∃ state,
    normalizeDomain entry.1 entry.2 domains domain = .ok state

namespace Review

variable (r : Review)

/-- `normalizedDomains[domain]`. -/
def state (domain : JsString) : WatchState :=
  (normalizeDomain r.entry.1 r.entry.2 r.domains domain).toOption.getD .unknown

theorem normalizeDomain_state {domain : JsString} (h : domain ∈ watchDomains) :
    normalizeDomain r.entry.1 r.entry.2 r.domains domain = .ok (r.state domain) := by
  obtain ⟨state, hstate⟩ := r.valid domain h
  rw [Review.state, hstate]
  rfl

def missingRequired : List JsString :=
  watchDomains.filter fun domain =>
    domain ∈ r.entry.2.required ∧ prop r.domains domain = .undefined

theorem state_missing {domain : JsString} (h : domain ∈ r.missingRequired) :
    domain ∈ watchDomains ∧ domain ∈ r.entry.2.required ∧ r.state domain = .unknown := by
  obtain ⟨hmem, hmissing⟩ := List.mem_filter.mp h
  obtain ⟨hrequired, hraw⟩ := of_decide_eq_true hmissing
  refine ⟨hmem, hrequired, ?_⟩
  obtain ⟨-, hstate⟩ | ⟨hread, -⟩ := normalizeDomain_eq_ok.mp (r.normalizeDomain_state hmem)
  · rwa [if_neg ((baseline_spec r.baseline).2 domain hrequired)] at hstate
  · rw [hraw] at hread
    cases hread

theorem state_applicable {domain : JsString} (h : domain ∈ watchDomains)
    (hrequired : domain ∈ r.entry.2.required) : r.state domain ≠ .notApplicable := by
  intro heq
  obtain ⟨-, hstate⟩ | ⟨-, hnot⟩ := normalizeDomain_eq_ok.mp (r.normalizeDomain_state h)
  · rw [if_neg ((baseline_spec r.baseline).2 domain hrequired), heq] at hstate
    cases hstate
  · exact hnot ⟨hrequired, heq⟩

/-- What the review has found. -/
def observation : Observation where
  worker := r.worker
  baseline := r.entry.2
  state := r.state
  missingRequired := r.missingRequired
  tests := r.tests
  nativeVersionChanged := r.nativeVersionChanged
  missing := fun _ => r.state_missing
  applicable := fun _ => r.state_applicable
  watched := (baseline_spec r.baseline).1

end Review

/-- The loop of `assessContractWatch` over the domains. -/
def validDomains (worker : JsString) (baseline : WorkerBaseline) (domains : Props) :
    Throws {_u : Unit // ∀ domain ∈ watchDomains, ∃ state,
      normalizeDomain worker baseline domains domain = .ok state} :=
  attach
    (forM watchDomains fun domain => do
      let _ ← normalizeDomain worker baseline domains domain
      pure ())
    fun _ h domain hdomain => by
      obtain ⟨state, hstate, -⟩ := bind_eq_ok.mp (forM_eq_ok.mp h domain hdomain)
      exact ⟨state, hstate⟩

/-- The checks of `assessContractWatch`, in their order. -/
def readReview (input : Props) : Throws Review := do
  let worker := prop input "worker"
  let entry ← attach (requireWorker worker) fun _ => requireWorker_eq_ok
  let domains ← plainObject "domains must be an object"
    (if prop input "domains" = .undefined then .obj [] else prop input "domains")
  let tests ← normalizeTests (prop input "tests")
  let valid ← validDomains entry.1.1 entry.1.2 domains
  pure
    { worker, domains, tests
      entry := entry.1
      nativeVersionChanged := truthy (prop input "native_version_changed")
      baseline := entry.2
      valid := valid.2 }

/-- `assessContractWatch(input)`. -/
def assessContractWatch (input : Props) : Throws Assessment := do
  let review ← readReview input
  pure review.observation.assess

/-! ## What an assessment means -/

namespace Observation

variable {o : Observation}

theorem mem_inState {domain : JsString} {state : WatchState} :
    domain ∈ o.inState state ↔ domain ∈ watchDomains ∧ o.state domain = state := by
  rw [inState, List.mem_filter, decide_eq_true_eq]

theorem mem_unknownRequired {domain : JsString} :
    domain ∈ o.unknownRequired ↔ domain ∈ o.baseline.required ∧ o.state domain = .unknown := by
  rw [unknownRequired, List.mem_filter, decide_eq_true_eq]

/-- Some watched domain is in the state. -/
def Shows (o : Observation) (state : WatchState) : Prop :=
  ∃ domain ∈ watchDomains, o.state domain = state

/-- Some required domain has not been verified. -/
def Unverified (o : Observation) : Prop := ∃ domain ∈ o.baseline.required, o.state domain = .unknown

/-- The native contract has changed, as far as is known without a break. -/
def Changed (o : Observation) : Prop := o.nativeVersionChanged = true ∨ o.Shows .additive

instance (state : WatchState) : Decidable (o.Shows state) :=
  inferInstanceAs (Decidable (∃ domain ∈ watchDomains, _))

instance : Decidable o.Unverified := inferInstanceAs (Decidable (∃ domain ∈ o.baseline.required, _))

instance : Decidable o.Changed := inferInstanceAs (Decidable (_ ∨ _))

theorem inState_pos {state : WatchState} : (o.inState state).length > 0 ↔ o.Shows state := by
  rw [gt_iff_lt, List.length_pos_iff_exists_mem]
  exact exists_congr fun _ => mem_inState

/-- What is missing is unverified. -/
theorem unverified_iff :
    (o.missingRequired.length > 0 ∨ o.unknownRequired.length > 0) ↔ o.Unverified := by
  rw [gt_iff_lt, gt_iff_lt, List.length_pos_iff_exists_mem, List.length_pos_iff_exists_mem]
  constructor
  · intro h
    obtain ⟨domain, h⟩ | ⟨domain, h⟩ := h
    · exact ⟨domain, (o.missing domain h).2⟩
    · exact ⟨domain, mem_unknownRequired.mp h⟩
  · intro ⟨domain, h⟩
    exact .inr ⟨domain, mem_unknownRequired.mpr h⟩

/-- The questions of `assess`, the gravest first. -/
def questions : List (Observation → Bool) :=
  [fun o => (o.inState .breaking).length > 0, fun o => o.tests = .failed,
    fun o => o.missingRequired.length > 0 ∨ o.unknownRequired.length > 0,
    fun o => o.tests ≠ .passed ∧ (o.nativeVersionChanged ∨ (o.inState .additive).length > 0),
    fun o => o.nativeVersionChanged ∨ (o.inState .additive).length > 0]

/-- The meaning of an assessment. A patch is allowed for a break that has been observed only, and
    a contract passes only if every required domain is stable. -/
structure Exact (o : Observation) (a : Assessment) : Prop where
  patch : a.allowedFixScope = .adapterContractSeamOnly ↔ o.Shows .breaking
  blocking : a.severity = .blocking ↔ o.Shows .breaking ∨ o.tests = .failed
  review : a.severity = .review ↔ ¬ o.Shows .breaking ∧ o.tests ≠ .failed ∧
    (o.Unverified ∨ o.tests = .notRun ∧ o.Changed)
  info : a.action = .observeOnly ↔ ¬ o.Shows .breaking ∧ o.tests = .passed ∧ ¬ o.Unverified ∧
    o.Changed
  pass : a.action = .pass ↔ o.tests ≠ .failed ∧ o.nativeVersionChanged = false ∧
    ∀ domain ∈ watchDomains, o.state domain ≠ .breaking ∧ o.state domain ≠ .additive ∧
      (domain ∈ o.baseline.required → o.state domain = .stable)
  changed : ∀ changed, a.changedDomains = some changed → changed =
    if o.Shows .breaking then o.inState .breaking else o.inState .additive
  unverified : ∀ unknown, a.unknownDomains = some unknown →
    ∀ domain, domain ∈ unknown ↔ domain ∈ o.baseline.required ∧ o.state domain = .unknown

/-- A contract with nothing to report is one that is stable where it has to be. -/
theorem stable_iff : (¬ o.Shows .breaking ∧ ¬ o.Unverified ∧ ¬ o.Changed) ↔
    o.nativeVersionChanged = false ∧
      ∀ domain ∈ watchDomains, o.state domain ≠ .breaking ∧ o.state domain ≠ .additive ∧
        (domain ∈ o.baseline.required → o.state domain = .stable) := by
  unfold Shows Unverified Changed Shows
  constructor
  · intro ⟨hbreaking, hunverified, hchanged⟩
    rw [not_or, Bool.not_eq_true] at hchanged
    refine ⟨hchanged.1, fun domain hd => ⟨fun h => hbreaking ⟨domain, hd, h⟩,
      fun h => hchanged.2 ⟨domain, hd, h⟩, fun hrequired => ?_⟩⟩
    cases hstate : o.state domain with
    | stable => rfl
    | additive => exact absurd ⟨domain, hd, hstate⟩ hchanged.2
    | breaking => exact absurd ⟨domain, hd, hstate⟩ hbreaking
    | unknown => exact absurd ⟨domain, hrequired, hstate⟩ hunverified
    | notApplicable => exact absurd hstate (o.applicable domain hd hrequired)
  · intro ⟨hversion, hall⟩
    refine ⟨fun ⟨domain, hd, h⟩ => (hall domain hd).1 h, fun ⟨domain, hrequired, h⟩ => ?_, ?_⟩
    · have hstable := (hall domain (o.watched hrequired)).2.2 hrequired
      rw [h] at hstable
      cases hstable
    · rw [not_or, Bool.not_eq_true]
      exact ⟨hversion, fun ⟨domain, hd, h⟩ => (hall domain hd).2.1 h⟩

/-- The domains that are reported as unknown. -/
theorem mem_unknown {domain : JsString} :
    domain ∈ (o.missingRequired ++ o.unknownRequired).eraseDups ↔
      domain ∈ o.baseline.required ∧ o.state domain = .unknown := by
  rw [List.mem_eraseDups, List.mem_append, mem_unknownRequired]
  constructor
  · intro h
    obtain h | h := h
    · exact (o.missing domain h).2
    · exact h
  · exact .inr

theorem assess_exact (o : Observation) : Exact o o.assess := by
  have hstable := @stable_iff o
  have hchanged : (o.nativeVersionChanged = true ∨ o.Shows .additive) ↔ o.Changed := Iff.rfl
  have htests : o.tests ≠ .failed → (o.tests ≠ .passed ↔ o.tests = .notRun) := by
    cases o.tests <;> simp
  unfold assess
  simp only [inState_pos, unverified_iff, hchanged]
  by_cases hbreaking : o.Shows .breaking
  · -- a break outweighs everything else
    rw [if_pos hbreaking]
    constructor
    case pass => simp [← hstable, hbreaking]
    all_goals simp [hbreaking]
  rw [if_neg hbreaking]
  by_cases hfailed : o.tests = .failed
  · rw [if_pos hfailed]
    constructor
    case pass => simp [hfailed]
    all_goals simp [hbreaking, hfailed, mem_unknownRequired]
  rw [if_neg hfailed]
  by_cases hunverified : o.Unverified
  · rw [if_pos hunverified]
    constructor
    case pass => simp [← hstable, hunverified]
    case unverified =>
      intro unknown hunknown domain
      rw [← Option.some.inj hunknown, mem_unknown]
    all_goals simp [hbreaking, hfailed, hunverified]
  rw [if_neg hunverified]
  by_cases hlast : o.Changed
  · by_cases hnotRun : o.tests = .notRun
    · rw [if_pos ⟨(htests hfailed).mpr hnotRun, hlast⟩]
      constructor
      case pass => simp [← hstable, hlast]
      all_goals simp [hbreaking, hnotRun, hunverified, hlast]
    · have hpassed : o.tests = .passed := not_not.mp (mt (htests hfailed).mp hnotRun)
      rw [if_neg fun h => hnotRun ((htests hfailed).mp h.1), if_pos hlast]
      constructor
      case pass => simp [← hstable, hlast]
      all_goals simp [hbreaking, hpassed, hunverified, hlast]
  · rw [if_neg fun h => hlast h.2, if_neg hlast]
    have hnone : o.inState .additive = [] := by
      rw [List.eq_nil_iff_forall_not_mem]
      exact fun domain hd => hlast (.inr ⟨domain, mem_inState.mp hd⟩)
    constructor
    case pass => simp [← hstable, hfailed, hbreaking, hunverified, hlast]
    all_goals simp [hbreaking, hfailed, hunverified, hlast, hnone]

end Observation

/-! ## Worse reviews -/

def Severity.rank : Severity → ℕ
  | .none => 0
  | .info => 1
  | .review => 2
  | .blocking => 3

/-- How bad the state of a domain is. Of a domain that is not required, nothing need be known. -/
def WatchState.rank (required : Bool) : WatchState → ℕ
  | .breaking => 3
  | .unknown => if required then 2 else 0
  | .additive => 1
  | .stable => 0
  | .notApplicable => 0

def TestState.rank : TestState → ℕ
  | .passed => 0
  | .notRun => 1
  | .failed => 2

namespace Observation

variable {o o' : Observation}

/-- How bad the state of a domain is that has been observed. -/
def rank (o : Observation) (domain : JsString) : ℕ :=
  (o.state domain).rank (domain ∈ o.baseline.required)

/-- The second review of a worker finds worse than the first, or the same. -/
structure Worsens (o o' : Observation) : Prop where
  baseline : o'.baseline = o.baseline
  domain : ∀ domain ∈ watchDomains, o.rank domain ≤ o'.rank domain
  tests : o.tests.rank ≤ o'.tests.rank
  version : o.nativeVersionChanged = true → o'.nativeVersionChanged = true

theorem rank_breaking {domain : JsString} : 3 ≤ o.rank domain ↔ o.state domain = .breaking := by
  unfold rank WatchState.rank
  cases o.state domain <;> simp
  split_ifs <;> omega

/-- A required domain that is not known to be sound. -/
theorem rank_unknown {domain : JsString} : 2 ≤ o.rank domain ↔ o.state domain = .breaking ∨
    domain ∈ o.baseline.required ∧ o.state domain = .unknown := by
  unfold rank WatchState.rank
  cases o.state domain <;> simp
  by_cases hrequired : domain ∈ o.baseline.required <;> simp [hrequired]

theorem rank_additive {domain : JsString} : 1 ≤ o.rank domain ↔ o.state domain = .breaking ∨
    (domain ∈ o.baseline.required ∧ o.state domain = .unknown) ∨ o.state domain = .additive := by
  unfold rank WatchState.rank
  cases o.state domain <;> simp
  by_cases hrequired : domain ∈ o.baseline.required <;> simp [hrequired]

/-- The severity of what the first question decides that holds, or of a pass. -/
def grade : ℕ → ℕ
  | 0 => 3
  | 1 => 3
  | 2 => 2
  | 3 => 2
  | 4 => 1
  | _ => 0

theorem grade_antitone : Antitone grade := by
  refine antitone_nat_of_succ_le fun n => ?_
  match n with
  | 0 | 1 | 2 | 3 | 4 => decide
  | _ + 5 => exact le_rfl

theorem severity_eq (o : Observation) :
    o.assess.severity.rank = grade (Ladder.level questions o) := by
  unfold assess Ladder.level questions
  simp only [List.findIdx_cons, List.findIdx_nil]
  split_ifs <;> simp_all [Severity.rank, grade]

namespace Worsens

variable (h : Worsens o o')
include h

theorem breaking (hs : o.Shows .breaking) : o'.Shows .breaking := by
  obtain ⟨domain, hd, hstate⟩ := hs
  exact ⟨domain, hd, rank_breaking.mp ((rank_breaking.mpr hstate).trans (h.domain domain hd))⟩

/-- A domain that has not been verified is not verified later either, unless it has broken. -/
theorem unverified (hs : o.Unverified) : o'.Shows .breaking ∨ o'.Unverified := by
  obtain ⟨domain, hrequired, hstate⟩ := hs
  have hd := o.watched hrequired
  have hrank := (rank_unknown.mpr (.inr ⟨hrequired, hstate⟩)).trans (h.domain domain hd)
  exact (rank_unknown.mp hrank).imp (fun hb => ⟨domain, hd, hb⟩) fun hu => ⟨domain, hu⟩

theorem changed (hs : o.Changed) : o'.Shows .breaking ∨ o'.Unverified ∨ o'.Changed := by
  obtain hversion | ⟨domain, hd, hstate⟩ := hs
  · exact .inr (.inr (.inl (h.version hversion)))
  · have hrank := (rank_additive.mpr (.inr (.inr hstate))).trans (h.domain domain hd)
    obtain hb | hu | ha := rank_additive.mp hrank
    · exact .inl ⟨domain, hd, hb⟩
    · exact .inr (.inl ⟨domain, hu⟩)
    · exact .inr (.inr (.inr ⟨domain, hd, ha⟩))

/-- Of the questions, whichever holds of the first review, it or a graver one holds of the
    second. -/
theorem escalates : Ladder.Escalates questions o o' := by
  have htests := h.tests
  unfold questions
  simp only [inState_pos, unverified_iff]
  refine .cons (fun hs => decide_eq_true (h.breaking (of_decide_eq_true hs))) fun hb => ?_
  have hb := of_decide_eq_false hb
  refine .cons (fun hs => ?_) fun hf => .cons (fun hs => ?_) fun hu => ?_
  · rw [of_decide_eq_true hs] at htests
    cases ht : o'.tests <;> simp [ht, TestState.rank] at htests ⊢
  · exact decide_eq_true ((h.unverified (of_decide_eq_true hs)).resolve_left hb)
  have hu := of_decide_eq_false hu
  have hchanged (hs : o.Changed) : o'.Changed := ((h.changed hs).resolve_left hb).resolve_left hu
  refine .cons (fun hs => ?_) fun _ => .cons (fun hs => ?_) fun _ => trivial
  · obtain ⟨hnot, hs⟩ := of_decide_eq_true hs
    refine decide_eq_true ⟨fun hpassed => hnot ?_, hchanged hs⟩
    rw [hpassed] at htests
    cases ht : o.tests <;> simp [ht, TestState.rank] at htests ⊢
  · exact decide_eq_true (hchanged (of_decide_eq_true hs))

theorem severity_le : o.assess.severity.rank ≤ o'.assess.severity.rank :=
  Ladder.grade_le (f := fun o : Observation => o.assess.severity.rank) grade_antitone severity_eq
    h.escalates

end Worsens

end Observation

/-! ## What a review says -/

/-- The input is a well-formed review, and `o` is what it says. -/
structure Reads (input : Props) (o : Observation) : Prop where
  worker : o.worker = prop input "worker"
  baseline : ∃ entry ∈ baselineWorkers, toText o.worker = .ok entry.1 ∧ o.baseline = entry.2
  domains : ∃ domains, (prop input "domains" = .obj domains ∨
      prop input "domains" = .undefined ∧ domains = []) ∧
    ∀ domain ∈ watchDomains, ReadsDomain o.baseline domains domain (o.state domain)
  tests : prop input "tests" = ofEnum o.tests ∨ prop input "tests" = .undefined ∧ o.tests = .notRun
  version : o.nativeVersionChanged = truthy (prop input "native_version_changed")

theorem requireWorker_iff {worker : JsValue} {entry : JsString × WorkerBaseline} :
    requireWorker worker = .ok entry ↔ entry ∈ baselineWorkers ∧ toText worker = .ok entry.1 := by
  have hfind : ∀ entry ∈ baselineWorkers,
      (baselineWorkers.find? fun e => e.1 = entry.1) = some entry := by decide
  constructor
  · intro h
    refine ⟨requireWorker_eq_ok h, ?_⟩
    obtain ⟨key, hkey, h⟩ := bind_eq_ok.mp h
    split at h
    · next found hfound =>
      obtain rfl := pure_eq_ok.mp h
      have hname := List.find?_some hfound
      rw [hkey, ← of_decide_eq_true hname]
    · simp at h
  · intro ⟨hmem, hkey⟩
    refine bind_eq_ok.mpr ⟨entry.1, hkey, ?_⟩
    rw [hfind entry hmem]
    rfl

theorem normalizeTests_eq_ok {value : JsValue} {tests : TestState} :
    normalizeTests value = .ok tests ↔
      value = ofEnum tests ∨ value = .undefined ∧ tests = .notRun := by
  unfold normalizeTests
  by_cases h : value = .undefined
  · rw [if_pos h, h]
    simp [ofEnum, eq_comm]
  · rw [if_neg h, enumMember_eq_ok]
    simp [h]

/-- What the checks have let through is what the review says. -/
theorem readReview_reads {input : Props} {r : Review} (h : readReview input = .ok r) :
    Reads input r.observation := by
  unfold readReview at h
  simp only [bind_eq_ok, attach_eq_ok, plainObject_eq_ok, pure_eq_ok] at h
  obtain ⟨entry, hworker, domains, hdomains, tests, htests, -, -, rfl⟩ := h
  constructor
  case worker => rfl
  case baseline => exact ⟨entry.1, entry.2, (requireWorker_iff.mp hworker).2, rfl⟩
  case domains =>
    refine ⟨domains, ?_, fun domain hd =>
      normalizeDomain_eq_ok.mp (Review.normalizeDomain_state _ hd)⟩
    split_ifs at hdomains with hnone
    · exact .inr ⟨hnone, by injection hdomains with h; exact h.symm⟩
    · exact .inl hdomains
  case tests => exact normalizeTests_eq_ok.mp htests
  case version => rfl

/-- A review that says something is let through. -/
theorem Reads.readReview {input : Props} {o : Observation} (h : Reads input o) :
    ∃ r, readReview input = .ok r := by
  obtain ⟨entry, hentry, hkey, hbaseline⟩ := h.baseline
  obtain ⟨domains, hobj, hdomains⟩ := h.domains
  rw [h.worker] at hkey
  rw [hbaseline] at hdomains
  have hall : ∀ domain ∈ watchDomains, ∃ state,
      normalizeDomain entry.1 entry.2 domains domain = .ok state :=
    fun domain hd => ⟨_, normalizeDomain_eq_ok.mpr (hdomains domain hd)⟩
  unfold Policy.readReview validDomains
  simp only [bind_eq_ok, attach_eq_ok, plainObject_eq_ok, pure_eq_ok]
  refine ⟨_, ⟨entry, hentry⟩, requireWorker_iff.mpr ⟨hentry, hkey⟩, domains, ?_, o.tests,
    normalizeTests_eq_ok.mpr h.tests, ⟨(), hall⟩, ?_, rfl⟩
  · obtain hobj | ⟨hnone, rfl⟩ := hobj
    · rw [hobj]
      rfl
    · rw [if_pos hnone]
  · rw [forM_eq_ok]
    intro domain hd
    obtain ⟨state, hstate⟩ := hall domain hd
    exact bind_eq_ok.mpr ⟨state, hstate, rfl⟩

/-- What a review says of a domain is determined by it. -/
theorem ReadsDomain.unique {baseline : WorkerBaseline} {domains : Props} {domain : JsString}
    {state state' : WatchState} (h : ReadsDomain baseline domains domain state)
    (h' : ReadsDomain baseline domains domain state') : state = state' := by
  rw [← @normalizeDomain_eq_ok [] domain baseline domains] at h h'
  exact Except.ok.inj (h.symm.trans h')

/-- Two observations that say what the same review says are as bad. -/
theorem Reads.worsens {input : Props} {o o' : Observation} (h : Reads input o)
    (h' : Reads input o') : o.Worsens o' := by
  have hworker := h.worker.trans h'.worker.symm
  have hbaseline : o'.baseline = o.baseline := by
    obtain ⟨entry, hentry, hkey, hb⟩ := h.baseline
    obtain ⟨entry', hentry', hkey', hb'⟩ := h'.baseline
    rw [hworker] at hkey
    have heq := (requireWorker_iff.mpr ⟨hentry, hkey⟩).symm.trans
      (requireWorker_iff.mpr ⟨hentry', hkey'⟩)
    rw [hb, hb', Except.ok.inj heq]
  have htests : o.tests = o'.tests := Except.ok.inj
    ((normalizeTests_eq_ok.mpr h.tests).symm.trans (normalizeTests_eq_ok.mpr h'.tests))
  refine ⟨hbaseline, fun domain hd => ?_, by rw [htests], by rw [h.version, h'.version]; exact id⟩
  obtain ⟨domains, hobj, hdomains⟩ := h.domains
  obtain ⟨domains', hobj', hdomains'⟩ := h'.domains
  have hsame : domains = domains' := by
    obtain h | ⟨h, rfl⟩ := hobj <;> obtain h' | ⟨h', rfl⟩ := hobj' <;> simp_all
  rw [hbaseline, ← hsame] at hdomains'
  unfold Observation.rank
  rw [hbaseline, (hdomains domain hd).unique (hdomains' domain hd)]

/-- **A review is assessed iff it is well formed, and exactly as it says.** -/
theorem watch_exact (input : Props) :
    ((∃ a, assessContractWatch input = .ok a) ↔ ∃ o, Reads input o) ∧
      ∀ a, assessContractWatch input = .ok a → ∃ o, Reads input o ∧ o.Exact a := by
  unfold assessContractWatch
  refine ⟨⟨fun ⟨a, h⟩ => ?_, fun ⟨o, h⟩ => ?_⟩, fun a h => ?_⟩
  · obtain ⟨r, hr, -⟩ := bind_eq_ok.mp h
    exact ⟨r.observation, readReview_reads hr⟩
  · obtain ⟨r, hr⟩ := h.readReview
    exact ⟨r.observation.assess, bind_eq_ok.mpr ⟨r, hr, rfl⟩⟩
  · obtain ⟨r, hr, h⟩ := bind_eq_ok.mp h
    obtain rfl := pure_eq_ok.mp h
    exact ⟨r.observation, readReview_reads hr, r.observation.assess_exact⟩

/-- **A review that finds worse is never assessed as less severe.** -/
theorem watch_monotone {input input' : Props} {o o' : Observation} {a a' : Assessment}
    (ha : assessContractWatch input = .ok a) (ha' : assessContractWatch input' = .ok a')
    (h : Reads input o) (h' : Reads input' o') (hworse : o.Worsens o') :
    a.severity.rank ≤ a'.severity.rank := by
  obtain ⟨r, hr, ha⟩ := bind_eq_ok.mp ha
  obtain ⟨r', hr', ha'⟩ := bind_eq_ok.mp ha'
  obtain rfl := pure_eq_ok.mp ha
  obtain rfl := pure_eq_ok.mp ha'
  calc r.observation.assess.severity.rank
      ≤ o.assess.severity.rank := ((readReview_reads hr).worsens h).severity_le
    _ ≤ o'.assess.severity.rank := hworse.severity_le
    _ ≤ r'.observation.assess.severity.rank := (h'.worsens (readReview_reads hr')).severity_le

/-- A review of pi in which only the native interface has changed. -/
def sampleReview (nativeApi : WatchState) : Props :=
  [(js "worker", .str (js "pi")), (js "tests", .str (js "passed")),
    (js "domains", .obj <| (js "native_api", ofEnum nativeApi) ::
      ["event_schema", "approval_semantics", "context_loading", "tool_catalog"].map
        fun domain => (js domain, .str (js "stable")))]

/-- What it says. -/
def sampleObservation (nativeApi : WatchState) (h : nativeApi ≠ .notApplicable) : Observation where
  worker := .str (js "pi")
  baseline := ⟨watchDomains.take 5, ["rate_limits"]⟩
  state := fun domain =>
    if domain = js "native_api" then nativeApi
    else if domain = js "rate_limits" then .notApplicable
    else .stable
  missingRequired := []
  tests := .passed
  nativeVersionChanged := false
  missing := by simp
  applicable := by revert h; cases nativeApi <;> decide
  watched := by decide

theorem sampleReview_reads {nativeApi : WatchState} (h : nativeApi ≠ .notApplicable) :
    Reads (sampleReview nativeApi) (sampleObservation nativeApi h) where
  worker := rfl
  baseline := ⟨(js "pi", ⟨watchDomains.take 5, ["rate_limits"]⟩), by decide, rfl, rfl⟩
  domains := ⟨_, .inl rfl, by unfold ReadsDomain; revert h; cases nativeApi <;> decide⟩
  tests := .inl rfl
  version := rfl

theorem watch_monotone_sample : ∃ a a',
    assessContractWatch (sampleReview .additive) = .ok a ∧
      assessContractWatch (sampleReview .breaking) = .ok a' ∧
        a.severity.rank ≤ a'.severity.rank := by
  have h : WatchState.additive ≠ .notApplicable := by decide
  have h' : WatchState.breaking ≠ .notApplicable := by decide
  obtain ⟨r, hr⟩ := (sampleReview_reads h).readReview
  obtain ⟨r', hr'⟩ := (sampleReview_reads h').readReview
  have ha : assessContractWatch (sampleReview .additive) = .ok r.observation.assess :=
    bind_eq_ok.mpr ⟨r, hr, rfl⟩
  have ha' : assessContractWatch (sampleReview .breaking) = .ok r'.observation.assess :=
    bind_eq_ok.mpr ⟨r', hr', rfl⟩
  have hdomain : ∀ domain ∈ watchDomains,
      (sampleObservation .additive h).rank domain ≤
        (sampleObservation .breaking h').rank domain := by
    decide +revert
  exact ⟨_, _, ha, ha', watch_monotone ha ha' (sampleReview_reads h) (sampleReview_reads h')
    ⟨rfl, hdomain, le_rfl, id⟩⟩

end Wns.Policy
