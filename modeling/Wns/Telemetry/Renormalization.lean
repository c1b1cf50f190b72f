import Wns.Telemetry.Report

/-!
# Normalizing before aggregating

`aggregateTelemetry` is documented to work over already-normalized events, and normalizes
them again. A normal form records a measurement as an object, which is not a number, so the
second pass takes it for unknown.

* `aggregateTelemetry_renormalized_iff`: the report survives iff no event that it counts has
  tokens or a cost.
-/

namespace Wns.Telemetry

open Ecma Routing

/-- What is left of an event that is normalized again. -/
def TelemetryEvent.unmeasured (e : TelemetryEvent) : TelemetryEvent :=
  { e with tokens := .unknown, costUsd := .unknown }

/-- The events as `normalizeTelemetryEvent` returns them. -/
def normalizedEvents (events : List JsValue) : List JsValue :=
  events.map fun raw => (normalizeTelemetryEvent raw).toValue

/-- The raw event names a worker and a task class of the report. -/
def Attributed (raw : JsValue) : Prop :=
  (∃ worker : Worker, prop (objectProps raw) "worker" = ofEnum worker) ∧
    ∃ taskClass : TaskClass, prop (objectProps raw) "task_class" = ofEnum taskClass

/-- The raw event has tokens or a cost that are finite numbers. -/
def Measured (raw : JsValue) : Prop :=
  (∃ x, prop (objectProps raw) "tokens" = .num (.finite x)) ∨
    ∃ x, prop (objectProps raw) "cost_usd" = .num (.finite x)

theorem finiteNumber_eq_some {raw : JsValue} {x : ℚ} :
    finiteNumber raw = some x ↔ raw = .num (.finite x) := by
  unfold finiteNumber
  split <;> simp_all

theorem not_measured_iff {raw : JsValue} :
    ¬ Measured raw ↔ (normalizeTelemetryEvent raw).unmeasured = normalizeTelemetryEvent raw := by
  have hnone : ∀ v, (¬ ∃ x, v = .num (.finite x)) ↔ finiteNumber v = none := by
    intro v
    rw [Option.eq_none_iff_forall_ne_some, not_exists]
    exact forall_congr' fun x => not_congr finiteNumber_eq_some.symm
  rw [Measured, not_or, hnone, hnone, ← normalizeTelemetryEvent_idem_iff,
    normalizeTelemetryEvent_toValue]
  rfl

theorem attributed_iff {raw : JsValue} :
    Attributed raw ↔ ∃ key, (normalizeTelemetryEvent raw).Of key := by
  constructor
  · intro ⟨⟨worker, hworker⟩, taskClass, htaskClass⟩
    exact ⟨(worker, taskClass), normalizeEnum_eq_some.mpr hworker,
      normalizeEnum_eq_some.mpr htaskClass⟩
  · intro ⟨(worker, taskClass), hworker, htaskClass⟩
    exact ⟨⟨worker, normalizeEnum_eq_some.mp hworker⟩, taskClass,
      normalizeEnum_eq_some.mp htaskClass⟩

/-- The groups of the normalized events. -/
theorem groupOf_normalizedEvents (events : List JsValue) (key : Worker × TaskClass) :
    groupOf (normalizedEvents events) key =
      (groupOf events key).map TelemetryEvent.unmeasured := by
  have hmap : (normalizedEvents events).map normalizeTelemetryEvent =
      (events.map normalizeTelemetryEvent).map TelemetryEvent.unmeasured := by
    rw [normalizedEvents, List.map_map, List.map_map]
    exact List.map_congr_left fun raw _ => normalizeTelemetryEvent_toValue _
  rw [groupOf, hmap, List.filter_map]
  rfl

/-- If dropping the measurements leaves as many of them unknown, there are none. -/
theorem eq_none_of_unknownCount {f : TelemetryEvent → Option ℚ} {group : List TelemetryEvent}
    (hf : ∀ e, f (TelemetryEvent.unmeasured e) = none)
    (h : (((group.map TelemetryEvent.unmeasured).length -
      ((group.map TelemetryEvent.unmeasured).filterMap f).length : ℕ) : ℚ) =
        ((group.length - (group.filterMap f).length : ℕ) : ℚ)) :
    ∀ e ∈ group, f e = none := by
  have hnil : (group.map TelemetryEvent.unmeasured).filterMap f = [] := by
    rw [List.filterMap_eq_nil_iff]
    intro e he
    obtain ⟨e', -, rfl⟩ := List.mem_map.mp he
    exact hf e'
  have hcast := Nat.cast_injective (R := ℚ) h
  have hle := List.length_filterMap_le f group
  rw [hnil, List.length_nil, List.length_map] at hcast
  exact List.filterMap_eq_nil_iff.mp (List.length_eq_zero_iff.mp (by omega))

/-- The report of the normalized events is that of the events iff no event that it counts
    has tokens or a cost. -/
theorem aggregateTelemetry_renormalized_iff (events : List JsValue) :
    aggregateTelemetry (normalizedEvents events) = aggregateTelemetry events ↔
      ∀ raw ∈ events, Attributed raw → ¬ Measured raw := by
  constructor
  · intro h raw hraw hattributed
    obtain ⟨key, hkey⟩ := attributed_iff.mp hattributed
    rw [not_measured_iff]
    have hmem : normalizeTelemetryEvent raw ∈ groupOf events key :=
      List.mem_filter.mpr ⟨List.mem_map_of_mem hraw, decide_eq_true hkey⟩
    have hreported := fun measure => congrArg (reported · key measure) h
    simp only [reported_eq, groupOf_normalizedEvents] at hreported
    have htokens := eq_none_of_unknownCount (f := fun e => e.tokens.value) (fun _ => rfl)
      (hreported .unknownTokensEventCount) _ hmem
    have hcost := eq_none_of_unknownCount (f := fun e => e.costUsd.value) (fun _ => rfl)
      (hreported .unknownCostEventCount) _ hmem
    have hunknown : ∀ {m : Measurement}, m.value = none → Measurement.unknown = m := by
      intro m hm
      cases m with
      | native value => cases hm
      | unknown => rfl
    ext1
    case tokens => exact hunknown htokens
    case costUsd => exact hunknown hcost
    all_goals rfl
  · intro h
    have hgroup : groupOf (normalizedEvents events) = groupOf events := by
      funext key
      rw [groupOf_normalizedEvents]
      conv_rhs => rw [← List.map_id (groupOf events key)]
      refine List.map_congr_left fun e he => ?_
      obtain ⟨hmem, hkey⟩ := List.mem_filter.mp he
      obtain ⟨raw, hraw, rfl⟩ := List.mem_map.mp hmem
      exact not_measured_iff.mp (h raw hraw (attributed_iff.mpr ⟨key, of_decide_eq_true hkey⟩))
    have hrow : rowOf (normalizedEvents events) = rowOf events := by
      funext key
      rw [rowOf, rowOf, hgroup]
    rw [aggregateTelemetry_eq, aggregateTelemetry_eq, hrow]

/-- **Telemetry survives normalization exactly where nothing was measured:** an event that has
    neither tokens nor a cost, and a list whose attributed events have neither. -/
theorem renormalization_iff (raw : JsValue) (events : List JsValue) :
    (normalizeTelemetryEvent (normalizeTelemetryEvent raw).toValue = normalizeTelemetryEvent raw ↔
      ¬ Measured raw) ∧
    (aggregateTelemetry (normalizedEvents events) = aggregateTelemetry events ↔
      ∀ raw ∈ events, Attributed raw → ¬ Measured raw) := by
  refine ⟨?_, aggregateTelemetry_renormalized_iff events⟩
  rw [normalizeTelemetryEvent_toValue, not_measured_iff]
  rfl

/-- A run that cost half a dollar. -/
def costlyRun : JsValue :=
  .obj [("worker", .str "codex"), ("task_class", .str "general_engineering"),
    ("cost_usd", .num (.finite (1 / 2)))]

/-- The cost is lost. -/
theorem costlyRun_lost :
    normalizeTelemetryEvent (normalizeTelemetryEvent costlyRun).toValue ≠
      normalizeTelemetryEvent costlyRun ∧
    aggregateTelemetry (normalizedEvents [costlyRun]) ≠ aggregateTelemetry [costlyRun] := by
  constructor
  · intro h
    have hcost := congrArg TelemetryEvent.costUsd h
    revert hcost
    decide +kernel
  · intro h
    have hcounts := congrArg (List.map ReportRow.knownCostEventCount) h
    revert hcounts
    decide +kernel

end Wns.Telemetry
