import Wns.Routing.Policy

/-!
# Telemetry events

Model of `normalizeTelemetryEvent` (`supervisor-policy/telemetry.mjs`, lines 1–70). The
result is built field by field from eighteen fields of the raw event; whatever else the
event carries is not read.

* `normalizeTelemetryEvent_toValue`: normalizing a normalized event keeps every field but
  its measurements, which become unknown.
* `normalizeTelemetryEvent_idem_iff`: so it keeps the event exactly when nothing was measured.
-/

namespace Wns.Telemetry

open Ecma Routing

/-! ## Enumerations -/

/-- `RESULT_STATES`. -/
inductive ResultState
  | success | failure | hold
  deriving DecidableEq

instance : JsEnum ResultState where
  values := [.success, .failure, .hold]
  text
    | .success => "success"
    | .failure => "failure"
    | .hold => "hold"
  complete := by rintro ⟨⟩ <;> simp
  injective := by rintro ⟨⟩ ⟨⟩ <;> simp

/-- `QUOTA_WINDOW_IDS`. -/
inductive QuotaWindowId
  | primary | secondary
  deriving DecidableEq

instance : JsEnum QuotaWindowId where
  values := [.primary, .secondary]
  text
    | .primary => "primary"
    | .secondary => "secondary"
  complete := by rintro ⟨⟩ <;> simp
  injective := by rintro ⟨⟩ ⟨⟩ <;> simp

/-- The strings of `ROUTING_REASONS`. -/
def reasonText : RoutingReason → String
  | .mutationAckUnknown => "mutation_ack_unknown"
  | .pendingHitl => "pending_hitl"
  | .activeRun => "active_run"
  | .noViableWorker => "no_viable_worker"
  | .explicitPreference => "explicit_preference"
  | .mixedTaskDecomposed => "mixed_task_decomposed"
  | .policy taskClass => "policy_" ++ JsEnum.text taskClass

/-- `ROUTING_REASONS`. -/
def routingReasons : List RoutingReason :=
  [.mutationAckUnknown, .pendingHitl, .activeRun, .noViableWorker, .explicitPreference,
    .mixedTaskDecomposed] ++ (JsEnum.values : List TaskClass).map .policy

theorem mem_routingReasons (reason : RoutingReason) : reason ∈ routingReasons := by
  cases reason with
  | policy taskClass =>
    exact List.mem_append_right _ (List.mem_map_of_mem (JsEnum.complete taskClass))
  | _ => simp [routingReasons]

theorem nodup_reasonText : (routingReasons.map reasonText).Nodup := by decide +kernel

instance : JsEnum RoutingReason where
  values := routingReasons
  text := reasonText
  complete := mem_routingReasons
  injective r s h :=
    List.inj_on_of_nodup_map nodup_reasonText (mem_routingReasons r) (mem_routingReasons s) h

/-! ## Members and fallbacks -/

/-- `normalizeEnum(raw, values, fallback)`, where `none` stands for a fallback that is
    not among the values. -/
def normalizeEnum {α : Type} [JsEnum α] (raw : JsValue) : Option α :=
  JsEnum.values.find? fun a : α => raw = ofEnum a

/-- The text of a member, or of the fallback `"unknown"`. -/
def knownText {α : Type} [JsEnum α] : Option α → JsString
  | some a => JsEnum.text a
  | none => "unknown"

section

variable {α : Type} [JsEnum α]

theorem normalizeEnum_eq_some {raw : JsValue} {a : α} :
    normalizeEnum raw = some a ↔ raw = ofEnum a := by
  constructor
  · intro h
    simpa using List.find?_some h
  · intro h
    subst h
    have hisSome : (normalizeEnum (ofEnum a) : Option α).isSome :=
      List.find?_isSome.mpr ⟨a, JsEnum.complete a, by simp⟩
    obtain ⟨b, hb⟩ := Option.isSome_iff_exists.mp hisSome
    have hab : ofEnum a = ofEnum b := by simpa using List.find?_some hb
    rw [hb, ofEnum_inj.mp hab]

theorem normalizeEnum_eq_none {raw : JsValue} :
    normalizeEnum raw = (none : Option α) ↔ ∀ a : α, raw ≠ ofEnum a := by
  simp only [Option.eq_none_iff_forall_ne_some, ne_eq, normalizeEnum_eq_some]

@[simp] theorem normalizeEnum_ofEnum (a : α) : normalizeEnum (ofEnum a) = some a :=
  normalizeEnum_eq_some.mpr rfl

/-- A known member is read back, and so is the fallback where it is not a member. -/
theorem normalizeEnum_knownText (h : ∀ a : α, JsEnum.text a ≠ "unknown") (o : Option α) :
    normalizeEnum (.str (knownText o)) = o := by
  cases o with
  | some a => exact normalizeEnum_ofEnum a
  | none =>
    refine normalizeEnum_eq_none.mpr fun a heq => h a ?_
    exact (js_inj.mp (JsValue.str.inj heq)).symm

theorem normalizeEnum_getD (a fallback : α) : (normalizeEnum (ofEnum a)).getD fallback = a := by
  rw [normalizeEnum_ofEnum, Option.getD_some]

theorem normalizeEnum_orNull (o : Option α) : normalizeEnum ((o.map ofEnum).getD .null) = o := by
  cases o with
  | some a => exact normalizeEnum_ofEnum a
  | none => exact normalizeEnum_eq_none.mpr nofun

end

/-- `isFiniteNumber(value)`, with the number. -/
def finiteNumber : JsValue → Option ℚ
  | .num (.finite x) => some x
  | _ => none

/-! ## Events -/

/-- A measurement: `{ value, source: "native" }` or `{ value: null, source: "unknown" }`. -/
inductive Measurement
  | native (value : ℚ)
  | unknown
  deriving DecidableEq

/-- The value of a native measurement. -/
def Measurement.value : Measurement → Option ℚ
  | .native value => some value
  | .unknown => none

/-- The pressure recorded for each quota window. -/
abbrev QuotaSnapshot := QuotaWindowId → Option Pressure

@[ext]
structure TelemetryEvent where
  worker : Option Worker
  taskClass : Option TaskClass
  scope : Option Scope
  riskClass : Option RiskClass
  routingReason : Option RoutingReason
  stagePurpose : Option StagePurpose
  result : ResultState
  durationMs : Option {x : ℚ // 0 ≤ x}
  retryCount : ℕ
  fallbackUsed : Bool
  escalationUsed : Bool
  evidenceReady : Bool
  decomposed : Bool
  tokens : Measurement
  costUsd : Measurement
  costBand : Band
  latencyBand : Band
  quotaWindowSnapshot : QuotaSnapshot

/-- `normalizeMeasurement(raw)`. -/
def normalizeMeasurement (raw : JsValue) : Measurement :=
  match finiteNumber raw with
  | some value => .native value
  | none => .unknown

/-- The properties of a plain object; `{}` for any other value. -/
def objectProps : JsValue → Props
  | .obj ps => ps
  | _ => []

/-- `normalizeQuotaSnapshot(raw)`. -/
def normalizeQuotaSnapshot (raw : JsValue) : QuotaSnapshot :=
  fun windowId => normalizeEnum (prop (objectProps raw) (JsEnum.text windowId))

/-- A finite number that is not negative. -/
def normalizeDuration (raw : JsValue) : Option {x : ℚ // 0 ≤ x} :=
  match finiteNumber raw with
  | some x => if h : 0 ≤ x then some ⟨x, h⟩ else none
  | none => none

/-- `normalizeTelemetryEvent(raw)`. -/
def normalizeTelemetryEvent (raw : JsValue) : TelemetryEvent :=
  let value := objectProps raw
  { worker := normalizeEnum (prop value "worker")
    taskClass := normalizeEnum (prop value "task_class")
    scope := normalizeEnum (prop value "scope")
    riskClass := normalizeEnum (prop value "risk_class")
    routingReason := normalizeEnum (prop value "routing_reason")
    stagePurpose := normalizeEnum (prop value "stage_purpose")
    result := (normalizeEnum (prop value "result")).getD .hold
    durationMs := normalizeDuration (prop value "duration_ms")
    retryCount := (natural (prop value "retry_count")).getD 0
    fallbackUsed := prop value "fallback_used" = .bool true
    escalationUsed := prop value "escalation_used" = .bool true
    evidenceReady := prop value "evidence_ready" = .bool true
    decomposed := prop value "decomposed" = .bool true
    tokens := normalizeMeasurement (prop value "tokens")
    costUsd := normalizeMeasurement (prop value "cost_usd")
    costBand := (normalizeEnum (prop value "cost_band")).getD .unknown
    latencyBand := (normalizeEnum (prop value "latency_band")).getD .unknown
    quotaWindowSnapshot := normalizeQuotaSnapshot (prop value "quota_window_snapshot") }

/-! ## Events as values -/

def Measurement.toValue : Measurement → JsValue
  | .native value => .obj [("value", .num (.finite value)), ("source", .str "native")]
  | .unknown => .obj [("value", .null), ("source", .str "unknown")]

/-- The windows that have a pressure, in the order of `QUOTA_WINDOW_IDS`. -/
def quotaProps (snapshot : QuotaSnapshot) : Props :=
  (JsEnum.values : List QuotaWindowId).filterMap fun windowId =>
    (snapshot windowId).map fun state => (js (JsEnum.text windowId), ofEnum state)

def TelemetryEvent.props (e : TelemetryEvent) : Props :=
  [("worker", .str (knownText e.worker)),
    ("task_class", .str (knownText e.taskClass)),
    ("scope", .str (knownText e.scope)),
    ("risk_class", .str (knownText e.riskClass)),
    ("routing_reason", .str (knownText e.routingReason)),
    ("stage_purpose", (e.stagePurpose.map ofEnum).getD .null),
    ("result", ofEnum e.result),
    ("duration_ms", (e.durationMs.map fun x => .num (.finite x.1)).getD .null),
    ("retry_count", .nat e.retryCount),
    ("fallback_used", .bool e.fallbackUsed),
    ("escalation_used", .bool e.escalationUsed),
    ("evidence_ready", .bool e.evidenceReady),
    ("decomposed", .bool e.decomposed),
    ("tokens", e.tokens.toValue),
    ("cost_usd", e.costUsd.toValue),
    ("cost_band", ofEnum e.costBand),
    ("latency_band", ofEnum e.latencyBand),
    ("quota_window_snapshot", .obj (quotaProps e.quotaWindowSnapshot))]

/-- The event that `normalizeTelemetryEvent` returns, as a value. -/
def TelemetryEvent.toValue (e : TelemetryEvent) : JsValue := .obj e.props

/-! ## Normalizing twice -/

theorem finiteNumber_eq_none_iff {raw : JsValue} :
    finiteNumber raw = none ↔ normalizeMeasurement raw = .unknown := by
  unfold normalizeMeasurement
  cases finiteNumber raw <;> simp

theorem normalizeMeasurement_toValue (m : Measurement) :
    normalizeMeasurement m.toValue = .unknown := by
  cases m <;> rfl

/-- A property for each member of a list that has a value. -/
theorem prop_filterMap {α : Type} [JsEnum α] [DecidableEq α] (f : α → Option JsValue)
    (l : List α) (a : α) :
    prop (l.filterMap fun b => (f b).map fun v => (js (JsEnum.text b), v)) (JsEnum.text a) =
      if a ∈ l then (f a).getD .undefined else .undefined := by
  induction l with
  | nil => rfl
  | cons b l ih =>
    by_cases hab : a = b
    · subst hab
      cases hf : f a with
      | none => simp [hf, ih]
      | some v => simp [hf]
    · have htext : JsEnum.text a ≠ JsEnum.text b := fun h => hab (JsEnum.injective h)
      cases hf : f b with
      | none => simp [hf, ih, hab]
      | some v => simp [hf, ih, hab, js_inj, htext]

theorem normalizeQuotaSnapshot_quotaProps (snapshot : QuotaSnapshot) :
    normalizeQuotaSnapshot (.obj (quotaProps snapshot)) = snapshot := by
  funext windowId
  have hprops : quotaProps snapshot = (JsEnum.values : List QuotaWindowId).filterMap fun windowId =>
      ((snapshot windowId).map ofEnum).map fun v => (js (JsEnum.text windowId), v) := by
    simp only [quotaProps, Option.map_map, Function.comp_def]
  show normalizeEnum (prop (quotaProps snapshot) (JsEnum.text windowId)) = snapshot windowId
  rw [hprops, prop_filterMap, if_pos (JsEnum.complete windowId)]
  cases snapshot windowId with
  | some state => exact normalizeEnum_ofEnum state
  | none => rfl

theorem normalizeDuration_toValue (d : Option {x : ℚ // 0 ≤ x}) :
    normalizeDuration ((d.map fun x => .num (.finite x.1)).getD .null) = d := by
  cases d with
  | some x => exact dif_pos x.2
  | none => rfl

theorem decide_bool (b : Bool) : decide (JsValue.bool b = .bool true) = b := by
  cases b <;> rfl

theorem reasonText_ne_unknown (reason : RoutingReason) : JsEnum.text reason ≠ "unknown" := by
  have hall : ∀ reason ∈ routingReasons, reasonText reason ≠ "unknown" := by decide +kernel
  exact hall reason (mem_routingReasons reason)

/-- A normalized event, normalized again. -/
theorem normalizeTelemetryEvent_toValue (e : TelemetryEvent) :
    normalizeTelemetryEvent e.toValue = { e with tokens := .unknown, costUsd := .unknown } := by
  ext1
  case worker => exact normalizeEnum_knownText (by rintro ⟨⟩ <;> decide) e.worker
  case taskClass => exact normalizeEnum_knownText (by rintro ⟨⟩ <;> decide) e.taskClass
  case scope => exact normalizeEnum_knownText (by rintro ⟨⟩ <;> decide) e.scope
  case riskClass => exact normalizeEnum_knownText (by rintro ⟨⟩ <;> decide) e.riskClass
  case routingReason => exact normalizeEnum_knownText reasonText_ne_unknown e.routingReason
  case stagePurpose => exact normalizeEnum_orNull e.stagePurpose
  case result => exact normalizeEnum_getD e.result _
  case durationMs => exact normalizeDuration_toValue e.durationMs
  case retryCount => exact congrArg (·.getD 0) (natural_eq_some.mpr rfl)
  case fallbackUsed => exact decide_bool e.fallbackUsed
  case escalationUsed => exact decide_bool e.escalationUsed
  case evidenceReady => exact decide_bool e.evidenceReady
  case decomposed => exact decide_bool e.decomposed
  case tokens => exact normalizeMeasurement_toValue e.tokens
  case costUsd => exact normalizeMeasurement_toValue e.costUsd
  case costBand => exact normalizeEnum_getD e.costBand _
  case latencyBand => exact normalizeEnum_getD e.latencyBand _
  case quotaWindowSnapshot => exact normalizeQuotaSnapshot_quotaProps e.quotaWindowSnapshot

/-- Normalizing is idempotent exactly on the events without a known measurement. -/
theorem normalizeTelemetryEvent_idem_iff {raw : JsValue} :
    normalizeTelemetryEvent (normalizeTelemetryEvent raw).toValue = normalizeTelemetryEvent raw ↔
      finiteNumber (prop (objectProps raw) "tokens") = none ∧
        finiteNumber (prop (objectProps raw) "cost_usd") = none := by
  rw [normalizeTelemetryEvent_toValue, finiteNumber_eq_none_iff, finiteNumber_eq_none_iff]
  constructor
  · intro h
    exact ⟨(congrArg TelemetryEvent.tokens h).symm, (congrArg TelemetryEvent.costUsd h).symm⟩
  · intro ⟨htokens, hcost⟩
    ext1
    case tokens => exact htokens.symm
    case costUsd => exact hcost.symm
    all_goals rfl

end Wns.Telemetry
