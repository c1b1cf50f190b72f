import Mathlib.Algebra.BigOperators.Ring.Finset
import Mathlib.Algebra.BigOperators.Ring.List
import Mathlib.Algebra.Order.Ring.Rat
import Wns.Telemetry.Report

/-!
# What runs have cost

Model of `observedRunCost` (`supervisor-policy/policy.mjs`, lines 516–530). The cost of a run is
read off its native result, if the worker reports one, and the telemetry event of the run carries
it into the report.

* `sum_groupOf`: what is summed over the pairs of a report is summed over its events.
* `runCosts_account`: the known costs of a report are those that native results show.
-/

namespace Wns.Telemetry

open Ecma Routing

/-- What a native result shows of the cost. Codex shows none, whatever its result holds. -/
def nativeCost (worker : Worker) (result : JsValue) : Option ℚ :=
  match result with
  | .obj result =>
    match worker with
    | .claude => finiteNumber (prop result "total_cost_usd")
    | .pi => finiteNumber (prop (objectProps (prop result "stats")) "cost")
    | .codex => none
  | _ => none

/-- `observedRunCost(worker, result)`. -/
def observedRunCost (worker result : JsValue) : Throws (Option ℚ) := do
  let worker ← requireEnum worker "worker"
  pure (nativeCost worker result)

/-- A number, or `null`. -/
def numberOrNull : Option ℚ → JsValue
  | some x => .num (.finite x)
  | none => .null

/-- The cost of the event is the one that is observed of its run, which ended with `result`. -/
def CarriesCost (raw result : JsValue) : Prop :=
  ∃ cost, observedRunCost (prop (objectProps raw) "worker") result = .ok cost ∧
    prop (objectProps raw) "cost_usd" = numberOrNull cost

theorem observedRunCost_eq_ok {worker : Worker} {result : JsValue} {cost : Option ℚ} :
    observedRunCost (ofEnum worker) result = .ok cost ↔ cost = nativeCost worker result := by
  unfold observedRunCost requireEnum
  simp only [bind_eq_ok, enumMember_eq_ok, pure_eq_ok, ofEnum_inj]
  constructor
  · intro h
    obtain ⟨_, rfl, h⟩ := h
    exact h.symm
  · intro h
    exact ⟨worker, rfl, h.symm⟩

theorem normalizeMeasurement_numberOrNull (cost : Option ℚ) :
    (normalizeMeasurement (numberOrNull cost)).value = cost := by
  cases cost <;> rfl

/-- An event that carries the cost of a run of `worker` is normalized with that cost. -/
theorem CarriesCost.value {raw result : JsValue} {worker : Worker} (h : CarriesCost raw result)
    (hworker : (normalizeTelemetryEvent raw).worker = some worker) :
    (normalizeTelemetryEvent raw).costUsd.value = nativeCost worker result := by
  obtain ⟨cost, hcost, hraw⟩ := h
  have hprop : prop (objectProps raw) "worker" = ofEnum worker := normalizeEnum_eq_some.mp hworker
  rw [hprop, observedRunCost_eq_ok] at hcost
  show (normalizeMeasurement (prop (objectProps raw) "cost_usd")).value = _
  rw [hraw, normalizeMeasurement_numberOrNull, hcost]

/-! ## Sums over a report -/

/-- An event of a known worker and task class counts for one pair, any other for none. -/
theorem sum_of_mul (e : TelemetryEvent) (x : ℚ) :
    (rowKeys.map fun key => if e.Of key then x else 0).sum = if e.Known then x else 0 := by
  have hone : ∀ key, (if e.Of key then x else 0) =
      x * ((if e.Of key then 1 else 0 : ℕ) : ℚ) := by
    intro key
    split_ifs <;> simp
  have hsum := congrArg (Nat.cast (R := ℚ)) (sum_of e)
  rw [Nat.cast_list_sum, List.map_map] at hsum
  simp only [hone]
  rw [List.sum_map_mul_left]
  refine (congrArg (x * ·) hsum).trans ?_
  split_ifs <;> simp

/-- Leaving out what has no value is to count it as zero. -/
theorem sum_filterMap {α : Type} (f : α → Option ℚ) (l : List α) :
    (l.filterMap f).sum = (l.map fun a => (f a).getD 0).sum := by
  induction l with
  | nil => rfl
  | cons a l ih =>
    rw [List.map_cons, List.sum_cons, ← ih, List.filterMap_cons]
    cases f a with
    | none => exact (zero_add _).symm
    | some x => exact List.sum_cons

/-- What is summed over the events of each pair is summed over the events of known pairs. -/
theorem sum_groupOf (events : List JsValue) (f : TelemetryEvent → ℚ) :
    (rowKeys.map fun key => ((groupOf events key).map f).sum).sum =
      (((events.map normalizeTelemetryEvent).filter fun e => e.Known).map f).sum := by
  induction events with
  | nil => simp [groupOf]
  | cons raw events ih =>
    have hcons : ∀ key, ((groupOf (raw :: events) key).map f).sum =
        (if (normalizeTelemetryEvent raw).Of key then f (normalizeTelemetryEvent raw) else 0) +
          ((groupOf events key).map f).sum := by
      intro key
      unfold groupOf
      rw [List.map_cons, List.filter_cons]
      by_cases h : (normalizeTelemetryEvent raw).Of key
      · rw [if_pos (decide_eq_true h), if_pos h, List.map_cons, List.sum_cons]
      · rw [if_neg (by simpa using h), if_neg h, zero_add]
    simp only [hcons]
    rw [List.sum_map_add, ih, sum_of_mul, List.map_cons, List.filter_cons]
    by_cases h : (normalizeTelemetryEvent raw).Known
    · rw [if_pos h, if_pos (decide_eq_true h), List.map_cons, List.sum_cons]
    · rw [if_neg h, if_neg (by simpa using h), zero_add]

/-- A measure of all rows, an absent row counting as an empty one. -/
theorem sum_measure (events : List JsValue) (measure : Measure) :
    ((aggregateTelemetry events).map fun row => row.measure measure).sum =
      (rowKeys.map fun key =>
        (reportRow key.1 key.2 (groupOf events key)).measure measure).sum := by
  rw [aggregateTelemetry_eq]
  induction rowKeys with
  | nil => rfl
  | cons key keys ih =>
    rw [List.filterMap_cons, List.map_cons, List.sum_cons, ← ih, rowOf]
    by_cases h : groupOf events key = []
    · rw [if_pos h, h, measure_nil, zero_add]
    · rw [if_neg h, List.map_cons, List.sum_cons]

/-! ## The costs of a report -/

section

variable {runs : List (JsValue × JsValue)}

/-- The costs that native results show of the runs of a pair. -/
def costsOf (runs : List (JsValue × JsValue)) (key : Worker × TaskClass) : List ℚ :=
  (runs.filter fun run => (normalizeTelemetryEvent run.1).Of key).filterMap fun run =>
    nativeCost key.1 run.2

/-- The cost that the native result of a run shows; zero where it shows none. -/
def costOf (run : JsValue × JsValue) : ℚ :=
  match (normalizeTelemetryEvent run.1).worker with
  | some worker => (nativeCost worker run.2).getD 0
  | none => 0

/-- The known costs of a group are those of its runs. -/
theorem knownCosts_groupOf (h : ∀ run ∈ runs, CarriesCost run.1 run.2)
    (key : Worker × TaskClass) :
    (groupOf (runs.map Prod.fst) key).filterMap (fun e => e.costUsd.value) = costsOf runs key := by
  unfold groupOf costsOf
  rw [List.map_map, List.filter_map, List.filterMap_map]
  refine List.filterMap_congr fun run hrun => ?_
  obtain ⟨hmem, hof⟩ := List.mem_filter.mp hrun
  have hof : (normalizeTelemetryEvent run.1).Of key := of_decide_eq_true hof
  exact (h run hmem).value hof.1

/-- **No cost is made up and none is lost.** The known cost of a pair is what native results show
    of its runs, that of codex is never known, and the rows together know the cost of all runs of
    a known worker and task class. -/
theorem runCosts_account (h : ∀ run ∈ runs, CarriesCost run.1 run.2) :
    (∀ key, reported (aggregateTelemetry (runs.map Prod.fst)) key .knownCostUsdSum =
        (costsOf runs key).sum ∧
      reported (aggregateTelemetry (runs.map Prod.fst)) key .knownCostEventCount =
        (costsOf runs key).length) ∧
    (∀ row ∈ aggregateTelemetry (runs.map Prod.fst), row.worker = .codex →
      row.knownCostUsdSum = none ∧ row.unknownCostEventCount = row.count) ∧
    ((aggregateTelemetry (runs.map Prod.fst)).map fun row => row.knownCostUsdSum.getD 0).sum =
      ((runs.filter fun run => (normalizeTelemetryEvent run.1).Known).map costOf).sum := by
  refine ⟨fun key => ?_, fun row hrow hcodex => ?_, ?_⟩
  · rw [reported_eq, reported_eq]
    unfold ReportRow.measure reportRow
    dsimp only
    rw [knownSum_getD, knownCosts_groupOf h, total_eq_sum]
    exact ⟨rfl, rfl⟩
  · rw [aggregateTelemetry_eq, List.mem_filterMap] at hrow
    obtain ⟨key, -, hkey⟩ := hrow
    obtain ⟨-, rfl⟩ := rowOf_eq_some.mp hkey
    have hnone : costsOf runs key = [] := by
      have hworker : key.1 = .codex := hcodex
      unfold costsOf
      rw [List.filterMap_eq_nil_iff, hworker]
      intro run _
      unfold nativeCost
      split <;> rfl
    unfold reportRow
    dsimp only
    rw [knownCosts_groupOf h, hnone]
    exact ⟨rfl, rfl⟩
  · have hcost : ∀ run ∈ runs, (normalizeTelemetryEvent run.1).Known →
        (normalizeTelemetryEvent run.1).costUsd.value.getD 0 = costOf run := by
      intro run hrun hknown
      obtain ⟨worker, hworker⟩ := Option.isSome_iff_exists.mp hknown.1
      unfold costOf
      rw [(h run hrun).value hworker, hworker]
    have hsum := sum_measure (runs.map Prod.fst) .knownCostUsdSum
    unfold ReportRow.measure reportRow at hsum
    dsimp only at hsum
    simp only [knownSum_getD] at hsum
    simp only [total_eq_sum, sum_filterMap] at hsum
    rw [hsum, sum_groupOf, List.map_map, List.filter_map, List.map_map]
    refine congrArg List.sum (List.map_congr_left fun run hrun => ?_)
    obtain ⟨hmem, hknown⟩ := List.mem_filter.mp hrun
    exact hcost run hmem (of_decide_eq_true hknown)

end

/-- A run of claude that has cost two dollars, and one of codex whose result claims to have cost. -/
def sampleRuns : List (JsValue × JsValue) :=
  [(.obj [("worker", .str "claude"), ("task_class", .str "general_engineering"),
      ("cost_usd", .nat 2)], .obj [("total_cost_usd", .nat 2)]),
    (.obj [("worker", .str "codex"), ("task_class", .str "general_engineering"),
      ("cost_usd", .null)],
      .obj [("total_cost_usd", .nat 999)])]

theorem runCosts_account_sampleRuns :
    ((aggregateTelemetry (sampleRuns.map Prod.fst)).map fun row => row.knownCostUsdSum) =
      [some 2, none] ∧
    ((aggregateTelemetry (sampleRuns.map Prod.fst)).map
      fun row => row.knownCostUsdSum.getD 0).sum = 2 := by
  refine ⟨by decide +kernel, (runCosts_account ?_).2.2.trans (by decide +kernel)⟩
  intro run hrun
  simp only [sampleRuns, List.mem_cons, List.not_mem_nil, or_false] at hrun
  obtain rfl | rfl := hrun
  · exact ⟨some 2, rfl, rfl⟩
  · exact ⟨none, rfl, rfl⟩

end Wns.Telemetry
