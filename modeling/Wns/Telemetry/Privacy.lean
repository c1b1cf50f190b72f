import Wns.Ecma.Vocabulary
import Wns.Telemetry.Report

/-!
# Privacy of telemetry

What a normalized event or a report can show of the raw events: a function of the eighteen
allowlisted fields, in words that are all known beforehand.

* `normalizeTelemetryEvent_agree`: objects that agree on the allowlist are the same event.
* `telemetry_private`: nothing but field names, enumeration members, booleans, finite
  numbers and `null` is in a result or a report.
-/

namespace Wns.Telemetry

open Ecma Routing

/-! ## The allowlist -/

/-- The fields that are read whole. -/
def scalarFields : List JsString :=
  ["worker", "task_class", "scope", "risk_class", "routing_reason", "stage_purpose", "result",
    "duration_ms", "retry_count", "fallback_used", "escalation_used", "evidence_ready",
    "decomposed", "tokens", "cost_usd", "cost_band", "latency_band"]

/-- The eighteen fields of an event. -/
def eventFields : List JsString := scalarFields ++ [js "quota_window_snapshot"]

/-- Two snapshots that are equal, or objects with the same allowlisted windows. -/
def SameWindows (snapshot snapshot' : JsValue) : Prop :=
  snapshot = snapshot' ∨ ∃ ps qs, snapshot = .obj ps ∧ snapshot' = .obj qs ∧
    ∀ windowId ∈ texts QuotaWindowId, prop ps windowId = prop qs windowId

/-- Two raw objects that agree on the allowlist. -/
structure Agree (ps qs : Props) : Prop where
  scalar : ∀ field ∈ scalarFields, prop ps field = prop qs field
  snapshot : SameWindows (prop ps "quota_window_snapshot") (prop qs "quota_window_snapshot")

theorem normalizeQuotaSnapshot_agree {snapshot snapshot' : JsValue}
    (h : SameWindows snapshot snapshot') :
    normalizeQuotaSnapshot snapshot = normalizeQuotaSnapshot snapshot' := by
  obtain rfl | ⟨ps, qs, rfl, rfl, h⟩ := h
  · rfl
  · funext windowId
    exact congrArg normalizeEnum (h _ (mem_texts windowId))

/-- Nothing outside of the allowlist reaches the result. -/
theorem normalizeTelemetryEvent_agree {ps qs : Props} (h : Agree ps qs) :
    normalizeTelemetryEvent (.obj ps) = normalizeTelemetryEvent (.obj qs) := by
  have hscalar := h.scalar
  simp only [scalarFields, List.forall_mem_cons] at hscalar
  obtain ⟨h1, h2, h3, h4, h5, h6, h7, h8, h9, h10, h11, h12, h13, h14, h15, h16, h17, -⟩ := hscalar
  ext1
  case worker => exact congrArg normalizeEnum h1
  case taskClass => exact congrArg normalizeEnum h2
  case scope => exact congrArg normalizeEnum h3
  case riskClass => exact congrArg normalizeEnum h4
  case routingReason => exact congrArg normalizeEnum h5
  case stagePurpose => exact congrArg normalizeEnum h6
  case result => exact congrArg (fun v => (normalizeEnum v).getD ResultState.hold) h7
  case durationMs => exact congrArg normalizeDuration h8
  case retryCount => exact congrArg (fun v => (natural v).getD 0) h9
  case fallbackUsed => exact congrArg (fun v => decide (v = .bool true)) h10
  case escalationUsed => exact congrArg (fun v => decide (v = .bool true)) h11
  case evidenceReady => exact congrArg (fun v => decide (v = .bool true)) h12
  case decomposed => exact congrArg (fun v => decide (v = .bool true)) h13
  case tokens => exact congrArg normalizeMeasurement h14
  case costUsd => exact congrArg normalizeMeasurement h15
  case costBand => exact congrArg (fun v => (normalizeEnum v).getD Band.unknown) h16
  case latencyBand => exact congrArg (fun v => (normalizeEnum v).getD Band.unknown) h17
  case quotaWindowSnapshot => exact normalizeQuotaSnapshot_agree h.snapshot

/-! ## Reports as values -/

def ReportRow.props (row : ReportRow) : Props :=
  [("worker", ofEnum row.worker),
    ("task_class", ofEnum row.taskClass),
    ("count", .nat row.count),
    ("success_count", .nat row.successCount),
    ("success_rate", .num row.successRate),
    ("fallback_count", .nat row.fallbackCount),
    ("fallback_rate", .num row.fallbackRate),
    ("escalation_count", .nat row.escalationCount),
    ("escalation_rate", .num row.escalationRate),
    ("mean_duration_ms", (row.meanDurationMs.map .num).getD .null),
    ("median_duration_ms", (row.medianDurationMs.map .num).getD .null),
    ("known_cost_usd_sum", (row.knownCostUsdSum.map fun x => .num (.finite x)).getD .null),
    ("known_cost_event_count", .nat row.knownCostEventCount),
    ("unknown_cost_event_count", .nat row.unknownCostEventCount),
    ("known_tokens_sum", (row.knownTokensSum.map fun x => .num (.finite x)).getD .null),
    ("unknown_tokens_event_count", .nat row.unknownTokensEventCount)]

/-- The report that `aggregateTelemetry` returns, as a value. -/
def reportValue (report : List ReportRow) : JsValue := .arr (report.map fun row => .obj row.props)

/-! ## The vocabulary -/

/-- The fields of a row. -/
def rowFields : List JsString :=
  ["worker", "task_class", "count", "success_count", "success_rate", "fallback_count",
    "fallback_rate", "escalation_count", "escalation_rate", "mean_duration_ms",
    "median_duration_ms", "known_cost_usd_sum", "known_cost_event_count",
    "unknown_cost_event_count", "known_tokens_sum", "unknown_tokens_event_count"]

/-- The fields of a measurement, and its sources. -/
def measurementFields : List JsString := ["value", "source"]

def measurementSources : List JsString := ["native", "unknown"]

/-- The names of all fields. -/
def fieldNames : List JsString :=
  eventFields ++ texts QuotaWindowId ++ measurementFields ++ rowFields

/-- The members of the enumerations. The fallback of an enumeration is `unknown`. -/
def enumMembers : List JsString :=
  measurementSources ++ texts Worker ++ texts TaskClass ++ texts Scope ++ texts RiskClass ++
    texts RoutingReason ++ texts StagePurpose ++ texts ResultState ++ texts Band ++ texts Pressure

/-- Every string that telemetry can show. -/
def vocabulary : List JsString := fieldNames ++ enumMembers

/-- The names of an object come from the field names. -/
theorem within_fields {ps : Props} (hnames : names ps ⊆ fieldNames)
    (h : ∀ v ∈ ps.map Prod.snd, Within vocabulary v) : Within vocabulary (.obj ps) :=
  within_obj (List.Subset.trans hnames (List.subset_append_left _ _)) h

theorem within_member {s : JsString} (h : s ∈ enumMembers) : Within vocabulary (.str s) :=
  .str (List.mem_append_right _ h)

theorem within_texts {α : Type} [JsEnum α] (h : texts α ⊆ enumMembers) (a : α) :
    Within vocabulary (ofEnum a) :=
  within_member (h (mem_texts a))

theorem within_knownText {α : Type} [JsEnum α] (h : texts α ⊆ enumMembers) (o : Option α) :
    Within vocabulary (.str (knownText o)) := by
  cases o with
  | some a => exact within_texts h a
  | none => exact within_member (by simp [enumMembers, measurementSources, knownText])

theorem within_measurement (m : Measurement) : Within vocabulary m.toValue := by
  have hnames : measurementFields ⊆ fieldNames := fun s hs => by simp [fieldNames, hs]
  have hsources : ∀ s ∈ measurementSources, s ∈ enumMembers := fun s hs => by
    simp [enumMembers, hs]
  cases m with
  | native value =>
    refine within_fields hnames ?_
    simp only [List.map_cons, List.map_nil, List.forall_mem_cons]
    exact ⟨.num value, within_member (hsources _ (by simp [measurementSources])), nofun⟩
  | unknown =>
    refine within_fields hnames ?_
    simp only [List.map_cons, List.map_nil, List.forall_mem_cons]
    exact ⟨.null, within_member (hsources _ (by simp [measurementSources])), nofun⟩

theorem texts_pressure : texts Pressure ⊆ enumMembers := fun s hs => by simp [enumMembers, hs]

theorem within_quota (snapshot : QuotaSnapshot) :
    Within vocabulary (.obj (quotaProps snapshot)) := by
  have hmem : ∀ p ∈ quotaProps snapshot,
      p.1 ∈ texts QuotaWindowId ∧ ∃ state : Pressure, p.2 = ofEnum state := by
    intro p hp
    obtain ⟨windowId, -, hp⟩ := List.mem_filterMap.mp hp
    obtain ⟨state, -, rfl⟩ := Option.map_eq_some_iff.mp hp
    exact ⟨mem_texts windowId, state, rfl⟩
  refine within_fields ?_ ?_
  · intro name hname
    obtain ⟨p, hp, rfl⟩ := List.mem_map.mp hname
    simp [fieldNames, (hmem p hp).1]
  · intro v hv
    obtain ⟨p, hp, rfl⟩ := List.mem_map.mp hv
    obtain ⟨state, hstate⟩ := (hmem p hp).2
    rw [hstate]
    exact within_texts texts_pressure state

/-- A normalized event shows nothing but the vocabulary. -/
theorem within_event (e : TelemetryEvent) : Within vocabulary e.toValue := by
  have hnames : eventFields ⊆ fieldNames := fun s hs => by simp [fieldNames, hs]
  have hworker : texts Worker ⊆ enumMembers := fun s hs => by simp [enumMembers, hs]
  have htaskClass : texts TaskClass ⊆ enumMembers := fun s hs => by simp [enumMembers, hs]
  have hscope : texts Scope ⊆ enumMembers := fun s hs => by simp [enumMembers, hs]
  have hriskClass : texts RiskClass ⊆ enumMembers := fun s hs => by simp [enumMembers, hs]
  have hreason : texts RoutingReason ⊆ enumMembers := fun s hs => by simp [enumMembers, hs]
  have hstage : texts StagePurpose ⊆ enumMembers := fun s hs => by simp [enumMembers, hs]
  have hresult : texts ResultState ⊆ enumMembers := fun s hs => by simp [enumMembers, hs]
  have hband : texts Band ⊆ enumMembers := fun s hs => by simp [enumMembers, hs]
  refine within_fields hnames ?_
  simp only [TelemetryEvent.props, List.map_cons, List.map_nil, List.forall_mem_cons]
  exact ⟨within_knownText hworker _, within_knownText htaskClass _, within_knownText hscope _,
    within_knownText hriskClass _, within_knownText hreason _,
    within_orNull (within_texts hstage) _, within_texts hresult _,
    within_orNull (fun x => .num (Subtype.val x)) _, .num _, .bool _, .bool _, .bool _, .bool _,
    within_measurement _, within_measurement _, within_texts hband _, within_texts hband _,
    within_quota _, nofun⟩

/-- So does a row of finite numbers. -/
theorem within_row {row : ReportRow} (h : RowSound row) : Within vocabulary (.obj row.props) := by
  have hnames : rowFields ⊆ fieldNames := fun s hs => by simp [fieldNames, hs]
  have hworker : texts Worker ⊆ enumMembers := fun s hs => by simp [enumMembers, hs]
  have htaskClass : texts TaskClass ⊆ enumMembers := fun s hs => by simp [enumMembers, hs]
  have hstatistic : ∀ o : Option JsNumber, (∀ x ∈ o, ∃ q, x = .finite q) →
      Within vocabulary ((o.map .num).getD .null) := by
    intro o ho
    cases o with
    | none => exact .null
    | some x =>
      obtain ⟨q, rfl⟩ := ho x rfl
      exact .num q
  refine within_fields hnames ?_
  simp only [ReportRow.props, List.map_cons, List.map_nil, List.forall_mem_cons, h.successRate,
    h.fallbackRate, h.escalationRate]
  exact ⟨within_texts hworker _, within_texts htaskClass _, .num _, .num _, .num _, .num _, .num _,
    .num _, .num _, hstatistic _ h.mean, hstatistic _ h.median, within_orNull (fun x => .num x) _,
    .num _, .num _, within_orNull (fun x => .num x) _, .num _, nofun⟩

/-! ## What telemetry shows -/

/-- **Telemetry is private.** The result is a function of the allowlisted fields; it and every
    report are made of known words, booleans, finite numbers and `null`. -/
theorem telemetry_private :
    (∀ ps qs, Agree ps qs →
      normalizeTelemetryEvent (.obj ps) = normalizeTelemetryEvent (.obj qs)) ∧
    (∀ raw, Within vocabulary (normalizeTelemetryEvent raw).toValue) ∧
    ∀ events, Within vocabulary (reportValue (aggregateTelemetry events)) := by
  refine ⟨fun ps qs => normalizeTelemetryEvent_agree, fun raw => within_event _, ?_⟩
  intro events
  refine .arr fun v hv => ?_
  obtain ⟨row, hrow, rfl⟩ := List.mem_map.mp hv
  exact within_row (aggregateTelemetry_sound hrow)

/-- A run with a prompt and an unknown quota window. -/
def promptedRun : Props :=
  [("worker", .str "pi"), ("prompt", .str "secret"),
    ("quota_window_snapshot", .obj [("primary", .str "normal"), ("daily", .str "exhausted")])]

theorem telemetry_private_promptedRun :
    normalizeTelemetryEvent (.obj promptedRun) = normalizeTelemetryEvent (.obj
      [("worker", .str "pi"),
        ("quota_window_snapshot", .obj [("primary", .str "normal")])]) := by
  refine telemetry_private.1 _ _ ⟨?_, .inr ⟨_, _, rfl, rfl, ?_⟩⟩
  · decide +kernel
  · decide +kernel

end Wns.Telemetry
