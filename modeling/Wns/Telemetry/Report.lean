import Mathlib.Algebra.BigOperators.Group.List.Basic
import Wns.Telemetry.Event

/-!
# Telemetry reports

Model of `aggregateTelemetry` (`supervisor-policy/telemetry.mjs`, lines 72–137). The events
are grouped by worker and task class under a text key; each group that occurs becomes a
row of counts, rates, sums, means and medians.

* `get_groupEvents`: a group holds the events with its key, in order.
* `aggregateTelemetry_eq`: the rows are those of the groups that occur.
* `reportRow_readsOff`: the numbers of a row are those of its events.
* `aggregation_exact`: the report depends on no order, loses and repeats no event, adds up
  under concatenation and divides by no zero.
-/

namespace Wns.Telemetry

open Ecma Routing

/-! ## Groups -/

/-- `new Map()` from keys to groups, in the order of insertion. -/
abbrev Groups := List (JsString × List TelemetryEvent)

/-- `groups.get(key)`. -/
def Groups.get : Groups → JsString → Option (List TelemetryEvent)
  | [], _ => none
  | (k, group) :: groups, key => if k = key then some group else Groups.get groups key

/-- `groups.get(key).push(event)`, after `groups.set(key, [])` for a new key. -/
def Groups.push : Groups → JsString → TelemetryEvent → Groups
  | [], key, event => [(key, [event])]
  | (k, group) :: groups, key, event =>
    if k = key then (k, group ++ [event]) :: groups else (k, group) :: Groups.push groups key event

/-- The key of a group. -/
def groupKey (worker : Option Worker) (taskClass : Option TaskClass) : JsString :=
  knownText worker ++ ":" ++ knownText taskClass

/-- The events by their keys. -/
def groupEvents (events : List TelemetryEvent) : Groups :=
  events.foldl (fun groups e => groups.push (groupKey e.worker e.taskClass) e) []

/-! ## Statistics -/

/-- `values[i]` of an array of numbers; outside of it `undefined`, which counts as `NaN`. -/
def numberAt (values : List ℚ) (i : ℕ) : JsNumber :=
  match values[i]? with
  | some x => .finite x
  | none => .nan

/-- `median(values)`. -/
def median (values : List ℚ) : Option JsNumber :=
  if values.length = 0 then none
  else
    let sorted := values.insertionSort (· ≤ ·)
    let mid := sorted.length / 2
    if sorted.length % 2 = 0 then
      some (((numberAt sorted (mid - 1)).add (numberAt sorted mid)).div (.finite 2))
    else some (numberAt sorted mid)

/-- `values.reduce((sum, value) => sum + value, 0)`. -/
def total (values : List ℚ) : ℚ := values.foldl (fun sum value => sum + value) 0

/-- `mean(values)`. -/
def mean (values : List ℚ) : Option JsNumber :=
  if values.length = 0 then none
  else some ((JsNumber.finite (total values)).div (.finite values.length))

/-! ## Rows -/

structure ReportRow where
  worker : Worker
  taskClass : TaskClass
  count : ℕ
  successCount : ℕ
  successRate : JsNumber
  fallbackCount : ℕ
  fallbackRate : JsNumber
  escalationCount : ℕ
  escalationRate : JsNumber
  meanDurationMs : Option JsNumber
  medianDurationMs : Option JsNumber
  knownCostUsdSum : Option ℚ
  knownCostEventCount : ℕ
  unknownCostEventCount : ℕ
  knownTokensSum : Option ℚ
  unknownTokensEventCount : ℕ

/-- `count / group.length`. -/
def rate (count : ℕ) (group : List TelemetryEvent) : JsNumber :=
  (JsNumber.finite count).div (.finite group.length)

/-- The row of a group. -/
def reportRow (worker : Worker) (taskClass : TaskClass) (group : List TelemetryEvent) :
    ReportRow :=
  let durations := group.filterMap fun e => e.durationMs.map Subtype.val
  let knownCosts := group.filterMap fun e => e.costUsd.value
  let knownTokens := group.filterMap fun e => e.tokens.value
  let successCount := (group.filter fun e => e.result = .success).length
  let fallbackCount := (group.filter fun e => e.fallbackUsed).length
  let escalationCount := (group.filter fun e => e.escalationUsed).length
  { worker
    taskClass
    count := group.length
    successCount
    successRate := rate successCount group
    fallbackCount
    fallbackRate := rate fallbackCount group
    escalationCount
    escalationRate := rate escalationCount group
    meanDurationMs := mean durations
    medianDurationMs := median durations
    knownCostUsdSum := if knownCosts.length > 0 then some (total knownCosts) else none
    knownCostEventCount := knownCosts.length
    unknownCostEventCount := group.length - knownCosts.length
    knownTokensSum := if knownTokens.length > 0 then some (total knownTokens) else none
    unknownTokensEventCount := group.length - knownTokens.length }

/-- The row of a group, if there is a group with events. -/
def groupRow (groups : Groups) (worker : Worker) (taskClass : TaskClass) : Option ReportRow :=
  match groups.get (groupKey (some worker) (some taskClass)) with
  | none => none
  | some group => if group.length = 0 then none else some (reportRow worker taskClass group)

/-- `aggregateTelemetry(events)`. -/
def aggregateTelemetry (events : List JsValue) : List ReportRow :=
  let groups := groupEvents (events.map normalizeTelemetryEvent)
  (JsEnum.values : List Worker).flatMap fun worker =>
    (JsEnum.values : List TaskClass).filterMap fun taskClass => groupRow groups worker taskClass

/-! ## What a group holds -/

theorem get_push (groups : Groups) (key : JsString) (e : TelemetryEvent) (key' : JsString) :
    (groups.push key e).get key' =
      if key = key' then some ((groups.get key).getD [] ++ [e]) else groups.get key' := by
  induction groups with
  | nil => rfl
  | cons g groups ih =>
    obtain ⟨k, group⟩ := g
    by_cases hk : k = key
    · subst hk
      by_cases hk' : k = key' <;> simp [Groups.push, Groups.get, hk']
    · by_cases hk' : k = key'
      · subst hk'
        simp [Groups.push, Groups.get, hk, Ne.symm hk]
      · simp [Groups.push, Groups.get, hk, hk', ih]

/-- The events with a key, in order. -/
theorem get_groupEvents (events : List TelemetryEvent) (key : JsString) :
    ((groupEvents events).get key).getD [] =
      events.filter fun e => groupKey e.worker e.taskClass = key := by
  induction events using List.reverseRecOn with
  | nil => rfl
  | append_singleton events e ih =>
    have hstep : groupEvents (events ++ [e]) =
        (groupEvents events).push (groupKey e.worker e.taskClass) e := by
      rw [groupEvents, List.foldl_append]
      rfl
    rw [hstep, get_push, List.filter_append]
    by_cases hkey : groupKey e.worker e.taskClass = key
    · rw [if_pos hkey, hkey, Option.getD_some, ih]
      simp [hkey]
    · rw [if_neg hkey, ih]
      simp [hkey]

/-- A member or the fallback. -/
def options (α : Type) [JsEnum α] : List (Option α) := none :: JsEnum.values.map some

theorem mem_options {α : Type} [JsEnum α] (o : Option α) : o ∈ options α := by
  cases o with
  | none => exact List.mem_cons_self
  | some a => exact List.mem_cons_of_mem _ (List.mem_map_of_mem (JsEnum.complete a))

/-- A known worker and a known task class are read off their key. -/
theorem groupKey_eq_iff {w : Option Worker} {t : Option TaskClass} {worker : Worker}
    {taskClass : TaskClass} :
    groupKey w t = groupKey (some worker) (some taskClass) ↔
      w = some worker ∧ t = some taskClass := by
  have hall : ∀ w ∈ options Worker, ∀ t ∈ options TaskClass,
      ∀ worker ∈ (JsEnum.values : List Worker), ∀ taskClass ∈ (JsEnum.values : List TaskClass),
      groupKey w t = groupKey (some worker) (some taskClass) →
        w = some worker ∧ t = some taskClass := by
    decide +kernel
  constructor
  · exact hall w (mem_options w) t (mem_options t) worker (JsEnum.complete worker) taskClass
      (JsEnum.complete taskClass)
  · intro ⟨hw, ht⟩
    rw [hw, ht]

/-- The pairs of a worker and a task class, in canonical order. -/
def rowKeys : List (Worker × TaskClass) := (JsEnum.values : List Worker) ×ˢ JsEnum.values

/-- The event is of the worker and the task class. -/
def TelemetryEvent.Of (e : TelemetryEvent) (key : Worker × TaskClass) : Prop :=
  e.worker = some key.1 ∧ e.taskClass = some key.2

instance (e : TelemetryEvent) (key : Worker × TaskClass) : Decidable (e.Of key) :=
  inferInstanceAs (Decidable (_ ∧ _))

/-- The events of a worker and a task class, in order. -/
def groupOf (events : List JsValue) (key : Worker × TaskClass) : List TelemetryEvent :=
  (events.map normalizeTelemetryEvent).filter fun e => e.Of key

/-- Their row, if there are any. -/
def rowOf (events : List JsValue) (key : Worker × TaskClass) : Option ReportRow :=
  if groupOf events key = [] then none else some (reportRow key.1 key.2 (groupOf events key))

theorem groupRow_eq (events : List JsValue) (worker : Worker) (taskClass : TaskClass) :
    groupRow (groupEvents (events.map normalizeTelemetryEvent)) worker taskClass =
      rowOf events (worker, taskClass) := by
  have hget := get_groupEvents (events.map normalizeTelemetryEvent)
    (groupKey (some worker) (some taskClass))
  simp only [groupKey_eq_iff] at hget
  have hgroup : ((groupEvents (events.map normalizeTelemetryEvent)).get
      (groupKey (some worker) (some taskClass))).getD [] = groupOf events (worker, taskClass) :=
    hget
  rw [groupRow, rowOf, ← hgroup]
  cases (groupEvents (events.map normalizeTelemetryEvent)).get
      (groupKey (some worker) (some taskClass)) with
  | none => rfl
  | some group => simp only [Option.getD_some, List.length_eq_zero_iff]

/-- The report lists the groups that occur. -/
theorem aggregateTelemetry_eq (events : List JsValue) :
    aggregateTelemetry events = rowKeys.filterMap (rowOf events) := by
  simp only [aggregateTelemetry, groupRow_eq, rowKeys, SProd.sprod, List.product,
    List.filterMap_flatMap, List.filterMap_map]
  rfl

/-! ## Statistics do not depend on the order -/

theorem total_eq_sum (values : List ℚ) : total values = values.sum := by
  rw [total, List.sum_eq_foldl]

theorem total_append (values values' : List ℚ) :
    total (values ++ values') = total values + total values' := by
  rw [total_eq_sum, total_eq_sum, total_eq_sum, List.sum_append]

theorem total_perm {values values' : List ℚ} (h : values.Perm values') :
    total values = total values' := by
  rw [total_eq_sum, total_eq_sum, h.sum_eq]

theorem mean_perm {values values' : List ℚ} (h : values.Perm values') :
    mean values = mean values' := by
  rw [mean, mean, total_perm h, h.length_eq]

/-- The median reads the sorted values. -/
theorem median_perm {values values' : List ℚ} (h : values.Perm values') :
    median values = median values' := by
  have hsorted : values.insertionSort (· ≤ ·) = values'.insertionSort (· ≤ ·) := by
    refine List.Perm.eq_of_pairwise (fun a b _ _ => le_antisymm) (List.pairwise_insertionSort _ _)
      (List.pairwise_insertionSort _ _) ?_
    exact ((List.perm_insertionSort _ _).trans h).trans (List.perm_insertionSort _ _).symm
  rw [median, median, h.length_eq, hsorted]

/-! ## What the statistics are -/

/-- A mean is taken over at least one value. -/
theorem mean_eq (values : List ℚ) :
    mean values = if values = [] then none else some (.finite (values.sum / values.length)) := by
  rw [mean, total_eq_sum]
  split_ifs with hlength hnil hnil
  · rfl
  · exact absurd (List.length_eq_zero_iff.mp hlength) hnil
  · exact absurd (congrArg List.length hnil) hlength
  · rw [JsNumber.div_finite _ (Nat.cast_ne_zero.mpr hlength)]

theorem mean_finite {values : List ℚ} {x : JsNumber} (h : x ∈ mean values) :
    ∃ q, x = .finite q := by
  rw [mean_eq] at h
  split_ifs at h
  · cases h
  · exact ⟨_, (Option.mem_some_iff.mp h).symm⟩

theorem numberAt_finite {values : List ℚ} {i : ℕ} (h : i < values.length) :
    numberAt values i = .finite values[i] := by
  rw [numberAt, List.getElem?_eq_getElem h]

/-- `q` is the mean of the two values in the middle of the order, or the one value there. -/
def IsMedian (values : List ℚ) (q : ℚ) : Prop :=
  ∃ sorted : List ℚ, sorted.Perm values ∧ sorted.Pairwise (· ≤ ·) ∧
    ∃ low ∈ sorted[(sorted.length - 1) / 2]?, ∃ high ∈ sorted[sorted.length / 2]?,
      q = (low + high) / 2

/-- A median is read within the sorted values. -/
theorem median_isMedian {values : List ℚ} {x : JsNumber} (h : x ∈ median values) :
    ∃ q, x = .finite q ∧ IsMedian values q := by
  rw [median] at h
  split_ifs at h with hlength
  · cases h
  have hperm := List.perm_insertionSort (· ≤ ·) values
  have hsorted := List.pairwise_insertionSort (· ≤ ·) values
  generalize values.insertionSort (· ≤ ·) = sorted at h hperm hsorted
  have hpos : 0 < sorted.length := hperm.length_eq ▸ Nat.pos_of_ne_zero hlength
  dsimp only at h
  split_ifs at h with heven
  · have hlow : sorted.length / 2 - 1 = (sorted.length - 1) / 2 := by omega
    rw [numberAt_finite (by omega), numberAt_finite (by omega), JsNumber.add_finite,
      JsNumber.div_finite _ two_ne_zero] at h
    refine ⟨_, (Option.mem_some_iff.mp h).symm, sorted, hperm, hsorted, _, ?_, _, ?_, rfl⟩
    · exact (congrArg (sorted[·]?) hlow).symm.trans (List.getElem?_eq_getElem (by omega))
    · exact List.getElem?_eq_getElem (by omega)
  · have hmid : (sorted.length - 1) / 2 = sorted.length / 2 := by omega
    rw [numberAt_finite (by omega)] at h
    refine ⟨_, (Option.mem_some_iff.mp h).symm, sorted, hperm, hsorted, _, ?_, _, ?_,
      (add_self_div_two _).symm⟩
    · exact (congrArg (sorted[·]?) hmid).trans (List.getElem?_eq_getElem (by omega))
    · exact List.getElem?_eq_getElem (by omega)

theorem median_eq_none (values : List ℚ) : median values = none ↔ values = [] := by
  rw [median, ← List.length_eq_zero_iff]
  split_ifs with hlength
  · simp [hlength]
  · dsimp only
    split_ifs <;> simp [hlength]

/-! ## Rows -/

section

variable {worker : Worker} {taskClass : TaskClass} {group group' : List TelemetryEvent}

/-- The row of a group does not depend on the order of its events. -/
theorem reportRow_perm (h : group.Perm group') :
    reportRow worker taskClass group = reportRow worker taskClass group' := by
  have hdurations := h.filterMap fun e => e.durationMs.map Subtype.val
  have hcosts := h.filterMap fun e => e.costUsd.value
  have htokens := h.filterMap fun e => e.tokens.value
  have hsuccess := (h.filter fun e => e.result = .success).length_eq
  have hfallback := (h.filter fun e => e.fallbackUsed).length_eq
  have hescalation := (h.filter fun e => e.escalationUsed).length_eq
  simp only [reportRow, rate, h.length_eq, hsuccess, hfallback, hescalation, mean_perm hdurations,
    median_perm hdurations, total_perm hcosts, total_perm htokens, hcosts.length_eq,
    htokens.length_eq]

/-- What holds of the numbers of every row. -/
structure RowSound (row : ReportRow) : Prop where
  occurs : 0 < row.count
  success : row.successCount ≤ row.count
  fallback : row.fallbackCount ≤ row.count
  escalation : row.escalationCount ≤ row.count
  cost : row.knownCostEventCount + row.unknownCostEventCount = row.count
  successRate : row.successRate = .finite (row.successCount / row.count)
  fallbackRate : row.fallbackRate = .finite (row.fallbackCount / row.count)
  escalationRate : row.escalationRate = .finite (row.escalationCount / row.count)
  mean : ∀ x ∈ row.meanDurationMs, ∃ q, x = .finite q
  median : ∀ x ∈ row.medianDurationMs, ∃ q, x = .finite q

theorem reportRow_sound (h : group ≠ []) : RowSound (reportRow worker taskClass group) := by
  have hlength : (group.length : ℚ) ≠ 0 :=
    Nat.cast_ne_zero.mpr (List.length_pos_iff.mpr h).ne'
  constructor
  case occurs => exact List.length_pos_iff.mpr h
  case success => exact List.length_filter_le _ _
  case fallback => exact List.length_filter_le _ _
  case escalation => exact List.length_filter_le _ _
  case cost => exact Nat.add_sub_cancel' (List.length_filterMap_le _ _)
  case successRate => exact JsNumber.div_finite _ hlength
  case fallbackRate => exact JsNumber.div_finite _ hlength
  case escalationRate => exact JsNumber.div_finite _ hlength
  case mean => exact fun x => mean_finite
  case median =>
    intro x hx
    obtain ⟨q, hq, -⟩ := median_isMedian hx
    exact ⟨q, hq⟩

end

/-! ## What a row is read off -/

/-- The durations, the costs and the tokens that events tell. -/
def durations (group : List TelemetryEvent) : List ℚ :=
  group.filterMap fun e => e.durationMs.map Subtype.val

def knownCosts (group : List TelemetryEvent) : List ℚ := group.filterMap fun e => e.costUsd.value

def knownTokens (group : List TelemetryEvent) : List ℚ := group.filterMap fun e => e.tokens.value

/-- The numbers of a row are those of the events of a group. -/
structure ReadsOff (row : ReportRow) (group : List TelemetryEvent) : Prop where
  count : row.count = group.length
  success : row.successCount = group.countP fun e => e.result = .success
  fallback : row.fallbackCount = group.countP fun e => e.fallbackUsed
  escalation : row.escalationCount = group.countP fun e => e.escalationUsed
  mean : row.meanDurationMs = if durations group = [] then none
    else some (.finite ((durations group).sum / (durations group).length))
  noMedian : row.medianDurationMs = none ↔ durations group = []
  median : ∀ x ∈ row.medianDurationMs, ∃ q, x = .finite q ∧ IsMedian (durations group) q
  costSum : row.knownCostUsdSum =
    if knownCosts group = [] then none else some (knownCosts group).sum
  knownCost : row.knownCostEventCount = group.countP fun e => e.costUsd.value.isSome
  unknownCost : row.unknownCostEventCount = group.countP fun e => e.costUsd.value.isNone
  tokensSum : row.knownTokensSum =
    if knownTokens group = [] then none else some (knownTokens group).sum
  unknownTokens : row.unknownTokensEventCount = group.countP fun e => e.tokens.value.isNone

theorem knownSum_eq (values : List ℚ) :
    (if values.length > 0 then some (total values) else none) =
      if values = [] then none else some values.sum := by
  rw [total_eq_sum]
  simp only [List.length_pos_iff, ne_eq, ite_not]

/-- The events with a known value, and the ones without. -/
theorem known_count (f : TelemetryEvent → Option ℚ) (group : List TelemetryEvent) :
    (group.filterMap f).length = group.countP (fun e => (f e).isSome) ∧
      group.length - (group.filterMap f).length = group.countP fun e => (f e).isNone := by
  induction group with
  | nil => exact ⟨rfl, rfl⟩
  | cons e group ih =>
    have hle := List.length_filterMap_le f group
    rw [List.filterMap_cons, List.countP_cons, List.countP_cons]
    cases f e with
    | none => simp; omega
    | some x => simp; omega

theorem reportRow_readsOff (worker : Worker) (taskClass : TaskClass)
    (group : List TelemetryEvent) : ReadsOff (reportRow worker taskClass group) group := by
  constructor
  case count => rfl
  case success => exact List.countP_eq_length_filter.symm
  case fallback => exact List.countP_eq_length_filter.symm
  case escalation => exact List.countP_eq_length_filter.symm
  case mean => exact mean_eq _
  case noMedian => exact median_eq_none _
  case median => exact fun x => median_isMedian
  case costSum => exact knownSum_eq _
  case knownCost => exact (known_count _ group).1
  case unknownCost => exact (known_count _ group).2
  case tokensSum => exact knownSum_eq _
  case unknownTokens => exact (known_count _ group).2

/-! ## What adds up -/

/-- The counts and known sums of a row. -/
inductive Measure
  | count | successCount | fallbackCount | escalationCount | knownCostUsdSum
  | knownCostEventCount | unknownCostEventCount | knownTokensSum | unknownTokensEventCount
  deriving DecidableEq

/-- A count, or a sum with `null` read as zero. -/
def ReportRow.measure (row : ReportRow) : Measure → ℚ
  | .count => row.count
  | .successCount => row.successCount
  | .fallbackCount => row.fallbackCount
  | .escalationCount => row.escalationCount
  | .knownCostUsdSum => row.knownCostUsdSum.getD 0
  | .knownCostEventCount => row.knownCostEventCount
  | .unknownCostEventCount => row.unknownCostEventCount
  | .knownTokensSum => row.knownTokensSum.getD 0
  | .unknownTokensEventCount => row.unknownTokensEventCount

/-- What a report says of a pair, with an absent row read as zero. -/
def reported (report : List ReportRow) (key : Worker × TaskClass) (measure : Measure) : ℚ :=
  match report.find? fun row => (row.worker, row.taskClass) = key with
  | some row => row.measure measure
  | none => 0

theorem knownSum_getD (values : List ℚ) :
    (if values.length > 0 then some (total values) else none).getD 0 = total values := by
  split_ifs with h
  · rfl
  · rw [List.length_eq_zero_iff.mp (Nat.eq_zero_of_not_pos h)]
    rfl

section

variable {worker : Worker} {taskClass : TaskClass}

theorem unknownCount_append (f : TelemetryEvent → Option ℚ) (group group' : List TelemetryEvent) :
    (group ++ group').length - ((group ++ group').filterMap f).length =
      (group.length - (group.filterMap f).length) +
        (group'.length - (group'.filterMap f).length) := by
  have h := List.length_filterMap_le f group
  have h' := List.length_filterMap_le f group'
  rw [List.filterMap_append, List.length_append, List.length_append]
  omega

/-- The measures of a row add up over its group. -/
theorem measure_append (group group' : List TelemetryEvent) (measure : Measure) :
    (reportRow worker taskClass (group ++ group')).measure measure =
      (reportRow worker taskClass group).measure measure +
        (reportRow worker taskClass group').measure measure := by
  cases measure with
  | count => simp [ReportRow.measure, reportRow]
  | successCount => simp [ReportRow.measure, reportRow]
  | fallbackCount => simp [ReportRow.measure, reportRow]
  | escalationCount => simp [ReportRow.measure, reportRow]
  | knownCostEventCount => simp [ReportRow.measure, reportRow]
  | knownCostUsdSum =>
    simp only [ReportRow.measure, reportRow, knownSum_getD]
    rw [List.filterMap_append, total_append]
  | knownTokensSum =>
    simp only [ReportRow.measure, reportRow, knownSum_getD]
    rw [List.filterMap_append, total_append]
  | unknownCostEventCount =>
    simp only [ReportRow.measure, reportRow, unknownCount_append, Nat.cast_add]
  | unknownTokensEventCount =>
    simp only [ReportRow.measure, reportRow, unknownCount_append, Nat.cast_add]

theorem measure_nil (measure : Measure) :
    (reportRow worker taskClass []).measure measure = 0 := by
  cases measure <;> rfl

end

/-! ## The report -/

section

variable {events : List JsValue} {key : Worker × TaskClass}

theorem rowOf_eq_some {row : ReportRow} :
    rowOf events key = some row ↔
      groupOf events key ≠ [] ∧ reportRow key.1 key.2 (groupOf events key) = row := by
  rw [rowOf]
  split_ifs with h <;> simp [h]

/-- The row of a pair is found under the pair. -/
theorem find?_report (events : List JsValue) (key : Worker × TaskClass) :
    (aggregateTelemetry events).find? (fun row => (row.worker, row.taskClass) = key) =
      rowOf events key := by
  have hlist : ∀ keys : List (Worker × TaskClass),
      (keys.filterMap (rowOf events)).find? (fun row => (row.worker, row.taskClass) = key) =
        if key ∈ keys then rowOf events key else none := by
    intro keys
    induction keys with
    | nil => rfl
    | cons k keys ih =>
      rw [List.filterMap_cons]
      cases hrow : rowOf events k with
      | none =>
        by_cases hk : key = k
        · subst hk; simp [ih, hrow]
        · simp [ih, hk]
      | some row =>
        obtain ⟨-, rfl⟩ := rowOf_eq_some.mp hrow
        by_cases hk : key = k
        · subst hk; simp [reportRow, hrow]
        · simp [reportRow, ih, hk, Ne.symm hk]
  have hmem : key ∈ rowKeys :=
    List.pair_mem_product.mpr ⟨JsEnum.complete key.1, JsEnum.complete key.2⟩
  rw [aggregateTelemetry_eq, hlist, if_pos hmem]

/-- What the report says of a pair is what the events of the pair give. -/
theorem reported_eq (events : List JsValue) (key : Worker × TaskClass) (measure : Measure) :
    reported (aggregateTelemetry events) key measure =
      (reportRow key.1 key.2 (groupOf events key)).measure measure := by
  rw [reported, find?_report, rowOf]
  split_ifs with h
  · rw [h, measure_nil]
  · rfl

theorem groupOf_append (events events' : List JsValue) (key : Worker × TaskClass) :
    groupOf (events ++ events') key = groupOf events key ++ groupOf events' key := by
  rw [groupOf, List.map_append, List.filter_append]
  rfl

theorem groupOf_perm {events' : List JsValue} (h : events.Perm events') :
    (groupOf events key).Perm (groupOf events' key) :=
  (h.map _).filter _

theorem aggregateTelemetry_perm {events' : List JsValue} (h : events.Perm events') :
    aggregateTelemetry events = aggregateTelemetry events' := by
  have hrow : rowOf events = rowOf events' := by
    funext key
    have hgroup := @groupOf_perm _ key _ h
    have hnil : groupOf events key = [] ↔ groupOf events' key = [] := by
      rw [← List.length_eq_zero_iff, ← List.length_eq_zero_iff, hgroup.length_eq]
    simp only [rowOf, hnil, reportRow_perm hgroup]
  rw [aggregateTelemetry_eq, aggregateTelemetry_eq, hrow]

/-- The event is of a known worker and task class. -/
def TelemetryEvent.Known (e : TelemetryEvent) : Prop := e.worker.isSome ∧ e.taskClass.isSome

instance (e : TelemetryEvent) : Decidable e.Known := inferInstanceAs (Decidable (_ ∧ _))

/-- Such an event is of one pair. -/
theorem sum_of (e : TelemetryEvent) :
    (rowKeys.map fun key => if e.Of key then 1 else 0).sum = if e.Known then 1 else 0 := by
  have hall : ∀ w ∈ options Worker, ∀ t ∈ options TaskClass,
      (rowKeys.map fun key => if w = some key.1 ∧ t = some key.2 then 1 else 0).sum =
        if w.isSome ∧ t.isSome then 1 else 0 := by
    decide
  exact hall e.worker (mem_options _) e.taskClass (mem_options _)

theorem sum_groupOf_length (events : List JsValue) :
    (rowKeys.map fun key => (groupOf events key).length).sum =
      (events.filter fun raw => (normalizeTelemetryEvent raw).Known).length := by
  induction events with
  | nil => rfl
  | cons raw events ih =>
    have hcons : ∀ key, (groupOf (raw :: events) key).length =
        (if (normalizeTelemetryEvent raw).Of key then 1 else 0) + (groupOf events key).length := by
      intro key
      rw [← List.singleton_append, groupOf_append, List.length_append]
      by_cases h : (normalizeTelemetryEvent raw).Of key
      · rw [if_pos h, groupOf, List.map_singleton, List.filter_singleton, decide_eq_true h]
        rfl
      · rw [if_neg h, groupOf, List.map_singleton, List.filter_singleton, decide_eq_false h]
        rfl
    simp only [hcons, List.sum_map_add, ih, sum_of]
    rw [List.filter_cons]
    by_cases h : (normalizeTelemetryEvent raw).Known
    · rw [if_pos h, if_pos (decide_eq_true h), List.length_cons, Nat.add_comm]
    · rw [if_neg h, if_neg (ne_true_of_eq_false (decide_eq_false h)), Nat.zero_add]

/-- The rows count every event of a known worker and task class once. -/
theorem sum_count (events : List JsValue) :
    ((aggregateTelemetry events).map ReportRow.count).sum =
      (events.filter fun raw => (normalizeTelemetryEvent raw).Known).length := by
  have hsum : ∀ keys : List (Worker × TaskClass),
      ((keys.filterMap (rowOf events)).map ReportRow.count).sum =
        (keys.map fun key => (groupOf events key).length).sum := by
    intro keys
    induction keys with
    | nil => rfl
    | cons key keys ih =>
      rw [List.filterMap_cons, List.map_cons, List.sum_cons, ← ih]
      cases hrow : rowOf events key with
      | none =>
        have hnil : groupOf events key = [] := by
          by_contra hne
          rw [rowOf, if_neg hne] at hrow
          cases hrow
        rw [hnil, List.length_nil, Nat.zero_add]
      | some row =>
        obtain ⟨-, rfl⟩ := rowOf_eq_some.mp hrow
        rfl
  rw [aggregateTelemetry_eq, hsum, sum_groupOf_length]

/-- The pair occurs among the events. -/
def Occurs (events : List JsValue) (key : Worker × TaskClass) : Prop :=
  ∃ raw ∈ events, (normalizeTelemetryEvent raw).Of key

instance (events : List JsValue) (key : Worker × TaskClass) : Decidable (Occurs events key) :=
  inferInstanceAs (Decidable (∃ raw ∈ events, (normalizeTelemetryEvent raw).Of key))

theorem groupOf_ne_nil_iff : groupOf events key ≠ [] ↔ Occurs events key := by
  rw [groupOf, ne_eq, List.filter_eq_nil_iff]
  simp only [List.mem_map, forall_exists_index, and_imp, forall_apply_eq_imp_iff₂,
    decide_eq_true_eq, not_forall, not_not, Occurs, exists_prop]

/-- The rows are those of the pairs that occur, in canonical order. -/
theorem map_key (events : List JsValue) :
    (aggregateTelemetry events).map (fun row => (row.worker, row.taskClass)) =
      rowKeys.filter fun key => Occurs events key := by
  have hkeys : ∀ keys : List (Worker × TaskClass),
      (keys.filterMap (rowOf events)).map (fun row => (row.worker, row.taskClass)) =
        keys.filter fun key => Occurs events key := by
    intro keys
    induction keys with
    | nil => rfl
    | cons key keys ih =>
      rw [List.filterMap_cons, List.filter_cons, ← ih, rowOf]
      by_cases h : groupOf events key = []
      · rw [if_pos h, if_neg]
        simpa [← groupOf_ne_nil_iff] using h
      · rw [if_neg h, if_pos (decide_eq_true (groupOf_ne_nil_iff.mp h))]
        rfl
  rw [aggregateTelemetry_eq, hkeys]

theorem aggregateTelemetry_sound {row : ReportRow} (h : row ∈ aggregateTelemetry events) :
    RowSound row := by
  rw [aggregateTelemetry_eq, List.mem_filterMap] at h
  obtain ⟨key, -, hkey⟩ := h
  obtain ⟨hne, rfl⟩ := rowOf_eq_some.mp hkey
  exact reportRow_sound hne

theorem aggregateTelemetry_readsOff {row : ReportRow} (h : row ∈ aggregateTelemetry events) :
    ReadsOff row (groupOf events (row.worker, row.taskClass)) := by
  rw [aggregateTelemetry_eq, List.mem_filterMap] at h
  obtain ⟨key, -, hkey⟩ := h
  obtain ⟨-, rfl⟩ := rowOf_eq_some.mp hkey
  exact reportRow_readsOff key.1 key.2 _

/-- **Aggregation is exact.** The report does not depend on the order of the events; it has a
    row for each pair that occurs, in canonical order; the numbers of a row are those of the
    events of its pair, they fit together and no division is by zero; the counts of the rows
    are those of the events; and counts and known sums add up under concatenation. -/
theorem aggregation_exact (events : List JsValue) :
    (∀ events' : List JsValue, events.Perm events' →
      aggregateTelemetry events' = aggregateTelemetry events) ∧
    (aggregateTelemetry events).map (fun row => (row.worker, row.taskClass)) =
      rowKeys.filter (fun key => Occurs events key) ∧
    (∀ row ∈ aggregateTelemetry events, RowSound row ∧
      ReadsOff row (groupOf events (row.worker, row.taskClass))) ∧
    ((aggregateTelemetry events).map ReportRow.count).sum =
      (events.filter fun raw => (normalizeTelemetryEvent raw).Known).length ∧
    ∀ (events' : List JsValue) (key : Worker × TaskClass) (measure : Measure),
      reported (aggregateTelemetry (events ++ events')) key measure =
        reported (aggregateTelemetry events) key measure +
          reported (aggregateTelemetry events') key measure := by
  refine ⟨fun events' h => (aggregateTelemetry_perm h).symm, map_key events,
    fun row hrow => ⟨aggregateTelemetry_sound hrow, aggregateTelemetry_readsOff hrow⟩,
    sum_count events, ?_⟩
  intro events' key measure
  rw [reported_eq, reported_eq, reported_eq, groupOf_append, measure_append]

end

/-- A run of codex that took `duration` milliseconds. -/
def codexRun (result : JsString) (duration : ℕ) : JsValue :=
  .obj [("worker", .str "codex"), ("task_class", .str "general_engineering"),
    ("result", .str result), ("duration_ms", .nat duration)]

theorem aggregation_exact_codexRuns :
    aggregateTelemetry [codexRun "failure" 300, codexRun "success" 100] =
      aggregateTelemetry [codexRun "success" 100, codexRun "failure" 300] ∧
    (aggregateTelemetry [codexRun "success" 100, codexRun "failure" 300]).map
      ReportRow.medianDurationMs = [some (.finite 200)] :=
  ⟨(aggregation_exact _).1 _ (.swap ..), by decide +kernel⟩

end Wns.Telemetry
