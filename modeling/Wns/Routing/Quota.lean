import Wns.Routing.Contract

/-!
# Codex quota

Model of `classifyWindow` and `classifyCodexQuota` (`supervisor-policy/policy.mjs`, lines
459–514). Percentages are exact rationals. The Supervisor passes the states of the two
windows to `selectWorker` as the `quota_windows` of Codex.

* `quota_agrees`: the classification and the routing derive the same pressure, by the
  thresholds.
* `quota_unmasked_iff`: when a signal at one of the two levels of a payload exhausts it.
-/

namespace Wns.Routing

open Ecma

/-! ## Classification -/

/-- `Math.max(0, Math.min(100, percent))`. -/
def clampPercent (percent : ℚ) : ℚ := max 0 (min 100 percent)

/-- The thresholds on a clamped percentage. -/
def percentState (remaining : ℚ) : Pressure :=
  if remaining ≤ 0 then .exhausted
  else if remaining ≤ 10 then .critical
  else if remaining ≤ 25 then .caution
  else .normal

structure Window where
  state : Pressure
  remainingPercent : Option ℚ
  deriving DecidableEq

/-- `classifyWindow(window)`. -/
def classifyWindow (window : JsValue) : Window :=
  match window with
  | .obj ps =>
    match prop ps "remainingPercent" with
    | .num (.finite percent) =>
      ⟨percentState (clampPercent percent), some (clampPercent percent)⟩
    | _ => ⟨.unknown, none⟩
  | _ => ⟨.unknown, none⟩

structure Quota where
  pressure : Pressure
  remainingPercent : Option ℚ
  source : JsString
  primary : Window
  secondary : Window
  deriving DecidableEq

/-- `rateLimits.rateLimits` if it is an object, and otherwise `rateLimits`. -/
def mainLimits (rateLimits : Props) : Props :=
  match prop rateLimits "rateLimits" with
  | .obj main => main
  | _ => rateLimits

/-- `typeof value === "string" && value.length > 0`. -/
def isNonEmptyString : JsValue → Bool
  | .str s => 0 < s.length
  | _ => false

/-- The signals by which a limit counts as reached, whatever the windows say. -/
def limitReached (rateLimits : Props) : Bool :=
  let main := mainLimits rateLimits
  let spendControlReached := coalesce (prop rateLimits "spendControlReached")
    (prop main "spendControlReached")
  let reachedType := coalesce (prop rateLimits "rateLimitReachedType")
    (prop main "rateLimitReachedType")
  spendControlReached = .bool true || isNonEmptyString reachedType

/-- `classifyCodexQuota(rateLimits)`. -/
def classifyCodexQuota (rateLimits : JsValue) : Quota :=
  match rateLimits with
  | .obj rateLimits =>
    if limitReached rateLimits then
      ⟨.exhausted, some 0, "codex_rate_limits", ⟨.exhausted, some 0⟩, ⟨.exhausted, some 0⟩⟩
    else
      let main := mainLimits rateLimits
      let primary := classifyWindow (prop main "primary")
      let secondary := classifyWindow (prop main "secondary")
      match [primary.remainingPercent, secondary.remainingPercent].reduceOption with
      | [] => ⟨.unknown, none, "codex_rate_limits", primary, secondary⟩
      | known :: others =>
        ⟨worstPressure [primary.state, secondary.state], some (others.foldl min known),
          "codex_rate_limits", primary, secondary⟩
  | _ => ⟨.unknown, none, "codex_rate_limits", ⟨.unknown, none⟩, ⟨.unknown, none⟩⟩

/-- The `quota_windows` that the Supervisor makes of a classification. -/
def Quota.windowStates (quota : Quota) : JsValue :=
  .obj [("primary", ofEnum quota.primary.state), ("secondary", ofEnum quota.secondary.state)]

/-! ## Windows -/

/-- A window that says what remains. -/
def Observed (window : JsValue) (percent : ℚ) : Prop :=
  ∃ ps, window = .obj ps ∧ prop ps "remainingPercent" = .num (.finite percent)

theorem classifyWindow_observed {window : JsValue} {percent : ℚ} (h : Observed window percent) :
    classifyWindow window =
      ⟨percentState (clampPercent percent), some (clampPercent percent)⟩ := by
  obtain ⟨ps, rfl, hps⟩ := h
  simp only [classifyWindow, hps]

/-- A window is observed or its state is unknown. -/
theorem classifyWindow_cases (window : JsValue) :
    (∃ percent, Observed window percent) ∨ classifyWindow window = ⟨.unknown, none⟩ := by
  unfold classifyWindow
  split
  · next ps =>
    split
    · next percent h => exact .inl ⟨percent, ps, rfl, h⟩
    · exact .inr rfl
  · exact .inr rfl

theorem clampPercent_mono : Monotone clampPercent := fun _ _ h =>
  max_le_max_left 0 (min_le_min_left 100 h)

theorem percentState_antitone : Antitone fun x => (percentState x).rank := by
  intro x y h
  unfold percentState
  dsimp only
  split_ifs <;> simp only [Pressure.rank] <;> first | omega | (exfalso; linarith)

theorem percentState_eq_exhausted {x : ℚ} : percentState x = .exhausted ↔ x ≤ 0 := by
  unfold percentState
  split_ifs <;> simp_all

theorem clampPercent_nonpos {x : ℚ} : clampPercent x ≤ 0 ↔ x ≤ 0 := by
  simp [clampPercent]

theorem worstPressure_pair (a b : Pressure) :
    (worstPressure [a, b]).rank = max a.rank b.rank := by
  cases a <;> cases b <;> rfl

/-! ## The pressure of a payload -/

section

variable {top : Props}

/-- The two windows of a payload. -/
def windowOf (rateLimits : Props) (id : JsString) : Window :=
  classifyWindow (prop (mainLimits rateLimits) id)

theorem classifyCodexQuota_reached (h : limitReached top = true) :
    classifyCodexQuota (.obj top) =
      ⟨.exhausted, some 0, "codex_rate_limits", ⟨.exhausted, some 0⟩, ⟨.exhausted, some 0⟩⟩ := by
  rw [classifyCodexQuota, if_pos h]

theorem classifyCodexQuota_windows (h : limitReached top = false) :
    (classifyCodexQuota (.obj top)).primary = windowOf top "primary" ∧
      (classifyCodexQuota (.obj top)).secondary = windowOf top "secondary" := by
  rw [classifyCodexQuota, if_neg (by simp [h])]
  unfold windowOf
  dsimp only
  split <;> exact ⟨rfl, rfl⟩

/-- The pressure is the worst of the states of the windows that are returned. -/
theorem classifyCodexQuota_pressure (payload : JsValue) :
    (classifyCodexQuota payload).pressure = worstPressure
      [(classifyCodexQuota payload).primary.state, (classifyCodexQuota payload).secondary.state] :=
    by
  unfold classifyCodexQuota
  split
  · next top =>
    split_ifs
    · rfl
    · dsimp only
      obtain ⟨x, hx⟩ | hx := classifyWindow_cases (prop (mainLimits top) "primary")
      · rw [classifyWindow_observed hx]
        rfl
      · obtain ⟨y, hy⟩ | hy := classifyWindow_cases (prop (mainLimits top) "secondary")
        · rw [classifyWindow_observed hy, hx]
          rfl
        · rw [hx, hy]
          rfl
  · rfl

theorem classifyCodexQuota_rank (h : limitReached top = false) :
    (classifyCodexQuota (.obj top)).pressure.rank =
      max (windowOf top "primary").state.rank (windowOf top "secondary").state.rank := by
  obtain ⟨hprimary, hsecondary⟩ := classifyCodexQuota_windows h
  rw [classifyCodexQuota_pressure, worstPressure_pair, hprimary, hsecondary]

/-- Both windows observed: the class of the smaller percentage. -/
theorem classifyCodexQuota_observed {x y : ℚ} (h : limitReached top = false)
    (hx : Observed (prop (mainLimits top) "primary") x)
    (hy : Observed (prop (mainLimits top) "secondary") y) :
    (classifyCodexQuota (.obj top)).pressure =
      percentState (min (clampPercent x) (clampPercent y)) := by
  apply Pressure.rank_inj
  rw [classifyCodexQuota_rank h, windowOf, windowOf, classifyWindow_observed hx,
    classifyWindow_observed hy]
  exact (percentState_antitone.map_min (a := clampPercent x) (b := clampPercent y)).symm

/-- The same window, or one in which less remains. -/
def LowersWindow (window window' : JsValue) : Prop :=
  window = window' ∨ ∃ x y, Observed window x ∧ Observed window' y ∧ y ≤ x

theorem LowersWindow.rank_le {window window' : JsValue} (h : LowersWindow window window') :
    (classifyWindow window).state.rank ≤ (classifyWindow window').state.rank := by
  obtain rfl | ⟨x, y, hx, hy, hle⟩ := h
  · exact le_rfl
  · rw [classifyWindow_observed hx, classifyWindow_observed hy]
    exact percentState_antitone (clampPercent_mono hle)

/-- The payload `top'` has the signals of `top`, and no window in which more remains. -/
structure Lowers (top top' : Props) : Prop where
  spendControl : prop top "spendControlReached" = prop top' "spendControlReached"
  reachedType : prop top "rateLimitReachedType" = prop top' "rateLimitReachedType"
  mainSpendControl : prop (mainLimits top) "spendControlReached" =
    prop (mainLimits top') "spendControlReached"
  mainReachedType : prop (mainLimits top) "rateLimitReachedType" =
    prop (mainLimits top') "rateLimitReachedType"
  primary : LowersWindow (prop (mainLimits top) "primary") (prop (mainLimits top') "primary")
  secondary : LowersWindow (prop (mainLimits top) "secondary") (prop (mainLimits top') "secondary")

theorem Lowers.rank_le {top' : Props} (h : Lowers top top') :
    (classifyCodexQuota (.obj top)).pressure.rank ≤
      (classifyCodexQuota (.obj top')).pressure.rank := by
  have hreached : limitReached top = limitReached top' := by
    unfold limitReached
    dsimp only
    rw [h.spendControl, h.reachedType, h.mainSpendControl, h.mainReachedType]
  cases hr : limitReached top with
  | true =>
    rw [classifyCodexQuota_reached hr, classifyCodexQuota_reached (hreached ▸ hr)]
  | false =>
    rw [classifyCodexQuota_rank hr, classifyCodexQuota_rank (hreached ▸ hr)]
    exact max_le_max h.primary.rank_le h.secondary.rank_le

/-- The payload says what remains in a window. -/
def ObservesWindow (payload : JsValue) (id : JsString) : Prop :=
  ∃ top percent, payload = .obj top ∧ Observed (prop (mainLimits top) id) percent

theorem windowOf_unobserved {id : JsString} (h : ¬ ObservesWindow (.obj top) id) :
    windowOf top id = ⟨.unknown, none⟩ :=
  (classifyWindow_cases _).resolve_left fun ⟨percent, hp⟩ => h ⟨top, percent, rfl, hp⟩

/-- A window that is not observed does not count as healthy. -/
theorem classifyCodexQuota_unobserved {payload : JsValue} {id : JsString}
    (hid : id = "primary" ∨ id = "secondary") (h : ¬ ObservesWindow payload id) :
    (classifyCodexQuota payload).pressure ≠ .normal := by
  intro hnormal
  have hrank := congrArg Pressure.rank hnormal
  cases payload with
  | obj top =>
    cases hr : limitReached top with
    | true => simp [classifyCodexQuota_reached hr] at hnormal
    | false =>
      rw [classifyCodexQuota_rank hr] at hrank
      obtain rfl | rfl := hid
      · rw [windowOf_unobserved h] at hrank
        simp [Pressure.rank] at hrank
      · rw [windowOf_unobserved h] at hrank
        simp [Pressure.rank] at hrank
  | _ => cases hnormal

end

/-! ## Routing by the returned states -/

/-- The state passes the windows of `quota` for Codex. -/
def Passes (state : JsValue) (quota : Quota) : Prop :=
  prop (reported state .codex) "quota_windows" = quota.windowStates

section

variable {state : JsValue} {quota : Quota} {normalizedTask : NormalizedTask}
  {normalizedState : NormalizedState} {preferred : Option Worker}

theorem keptWindows_windowStates {raw : Props}
    (h : prop raw "quota_windows" = quota.windowStates) :
    keptWindows raw = ([(js "primary", quota.primary.state),
      (js "secondary", quota.secondary.state)].map fun e => (e.1, ofEnum e.2)) := by
  unfold keptWindows reportedWindows
  rw [h, Quota.windowStates]
  rfl

/-- The pressure of Codex is the worst of the states that are passed. -/
theorem Passes.pressure_eq (h : Passes state quota)
    (hstate : normalizeState state = .ok normalizedState) :
    normalizedState.pressure .codex =
      worstPressure [quota.primary.state, quota.secondary.state] := by
  have hkept := (normalizeState_ok hstate .codex).1
  rw [keptWindows_windowStates h] at hkept
  exact hkept.unique (hasPressure_worst (List.cons_ne_nil _ _))

theorem mem_rejected {worker : Worker} {reason : Rejection} :
    (worker, reason) ∈ (orderedCandidates normalizedTask normalizedState preferred).2 ↔
      rejection normalizedTask normalizedState worker = some reason := by
  simp [orderedCandidates, JsEnum.complete worker]

/-- A worker that nothing but its quota can exclude. -/
structure Otherwise (task : NormalizedTask) (state : NormalizedState) (worker : Worker) : Prop where
  capable : ∀ capability ∈ task.required, capability ∈ worker.capabilities
  notFailed : worker ∉ state.failedWorkers
  notUnavailable : (state.workers worker).availability ≠ .unavailable

theorem Otherwise.rejection_iff {worker : Worker}
    (h : Otherwise normalizedTask normalizedState worker) :
    rejection normalizedTask normalizedState worker = some .budgetExhausted ↔
      normalizedState.pressure worker = .exhausted := by
  have hcapable := not_not.mpr ((capabilityReasons_eq_nil normalizedTask).mpr h.capable)
  simp only [rejection, gt_iff_lt, List.length_pos_iff]
  rw [if_neg hcapable, if_neg h.notFailed, if_neg h.notUnavailable]
  unfold NormalizedState.pressure
  split_ifs with hp <;> simp [hp]

theorem Otherwise.eligible_iff {worker : Worker}
    (h : Otherwise normalizedTask normalizedState worker) :
    Eligible normalizedTask normalizedState normalizedState.pressure worker ↔
      normalizedState.pressure worker ≠ .exhausted :=
  ⟨Eligible.notExhausted, fun hp => ⟨h.capable, h.notFailed, h.notUnavailable, hp⟩⟩

/-- Whoever is not eligible is neither selected nor listed as a fallback, active run or not. -/
theorem not_selected {worker : Worker}
    (h : ¬ Eligible normalizedTask normalizedState normalizedState.pressure worker) :
    ((selectNormalized normalizedTask normalizedState preferred).action = .select →
      (selectNormalized normalizedTask normalizedState preferred).worker ≠ some worker) ∧
    worker ∉ (selectNormalized normalizedTask normalizedState preferred).fallbackChain := by
  by_cases hidle : normalizedState.activeWorker = none ∨ normalizedState.activeTerminal = true
  · have hcontract := selectNormalized_contract normalizedTask normalizedState preferred hidle
    have hchain := mt hcontract.mem_chain.mp h
    rw [Selection.chain, List.mem_append, not_or, Option.mem_toList] at hchain
    exact ⟨fun _ => hchain.1, hchain.2⟩
  · -- a held or reconciled run is not selected
    rw [not_or, Bool.not_eq_true] at hidle
    obtain ⟨active, hactive⟩ := Option.ne_none_iff_exists'.mp hidle.1
    unfold selectNormalized
    rw [hactive, hidle.2]
    dsimp only
    split_ifs <;> simp

end

/-- **The quota classification** agrees with the routing, follows the thresholds, is monotone
    and does not take an unobserved window for a healthy one. -/
theorem quota_agrees (payload : JsValue) :
    (∀ task state policy normalizedTask normalizedState preferred,
      normalizeTask task = .ok normalizedTask → normalizeState state = .ok normalizedState →
      normalizePolicy policy = .ok preferred → Passes state (classifyCodexQuota payload) →
      normalizedState.pressure .codex = (classifyCodexQuota payload).pressure ∧
      (normalizedState.activeWorker = none ∨ normalizedState.activeTerminal = true →
        Otherwise normalizedTask normalizedState .codex →
        ∃ selection, selectWorker task state policy = .ok selection ∧
          ((.codex, .budgetExhausted) ∈ selection.rejected.getD [] ↔
            (classifyCodexQuota payload).pressure = .exhausted) ∧
          (.codex ∉ selection.chain ↔ (classifyCodexQuota payload).pressure = .exhausted))) ∧
    (∀ top x y, payload = .obj top → limitReached top = false →
      Observed (prop (mainLimits top) "primary") x →
      Observed (prop (mainLimits top) "secondary") y →
      (classifyCodexQuota payload).pressure =
        percentState (min (clampPercent x) (clampPercent y))) ∧
    (∀ top top', payload = .obj top → Lowers top top' →
      (classifyCodexQuota payload).pressure.rank ≤
        (classifyCodexQuota (.obj top')).pressure.rank) ∧
    (¬ ObservesWindow payload "primary" ∨ ¬ ObservesWindow payload "secondary" →
      (classifyCodexQuota payload).pressure ≠ .normal) := by
  refine ⟨?_, ?_, ?_, ?_⟩
  · intro task state policy normalizedTask normalizedState preferred htask hstate hpolicy hpasses
    have hpressure : normalizedState.pressure .codex = (classifyCodexQuota payload).pressure :=
      (hpasses.pressure_eq hstate).trans (classifyCodexQuota_pressure payload).symm
    refine ⟨hpressure, fun hidle hother => ?_⟩
    obtain ⟨-, hrejected, -⟩ := selectNormalized_idle normalizedTask normalizedState preferred hidle
    have hcontract := selectNormalized_contract normalizedTask normalizedState preferred hidle
    refine ⟨selectNormalized normalizedTask normalizedState preferred, ?_, ?_, ?_⟩
    · rw [selectWorker, htask, ok_bind, hstate, ok_bind, hpolicy, ok_bind]
      rfl
    · rw [hrejected, Option.getD_some, mem_rejected, hother.rejection_iff, hpressure]
    · rw [hcontract.mem_chain, hother.eligible_iff, hpressure, not_not]
  · rintro top x y rfl hreached hx hy
    exact classifyCodexQuota_observed hreached hx hy
  · rintro top top' rfl h
    exact h.rank_le
  · intro h
    exact h.elim (classifyCodexQuota_unobserved (.inl rfl))
      (classifyCodexQuota_unobserved (.inr rfl))

/-- A payload with 72 and 18 percent remaining. -/
def cautionLimits : JsValue :=
  .obj [("rateLimits", .obj [("primary", .obj [("remainingPercent", .nat 72)]),
    ("secondary", .obj [("remainingPercent", .nat 18)])])]

/-- A state that says nothing but the quota windows of Codex. -/
def quotaState (quota : Quota) : JsValue :=
  .obj [("workers", .obj [("codex", .obj [("quota_windows", quota.windowStates)])])]

/-- The state in which nothing is known but the windows of Codex. -/
def windowsState (quota : Quota) : NormalizedState where
  workers
    | .claude => unknownWorker
    | .codex =>
      { unknownWorker with
        budgetPressure := worstPressure [quota.primary.state, quota.secondary.state]
        quotaWindows := [("primary", quota.primary.state), ("secondary", quota.secondary.state)] }
    | .pi => unknownWorker
  activeWorker := none
  activeTerminal := true
  pendingHitl := false
  mutationAck := none
  failedWorkers := []

theorem normalizeState_quotaState (quota : Quota) :
    normalizeState (quotaState quota) = .ok (windowsState quota) := by
  unfold quotaState Quota.windowStates windowsState
  generalize quota.primary.state = a, quota.secondary.state = b
  cases a <;> cases b <;> rfl

theorem quota_agrees_caution :
    (windowsState (classifyCodexQuota cautionLimits)).pressure .codex =
        (classifyCodexQuota cautionLimits).pressure ∧
      ∃ selection, selectWorker (.obj []) (quotaState (classifyCodexQuota cautionLimits))
          (.obj []) = .ok selection ∧
        ((.codex, .budgetExhausted) ∈ selection.rejected.getD [] ↔
          (classifyCodexQuota cautionLimits).pressure = .exhausted) ∧
        (.codex ∉ selection.chain ↔ (classifyCodexQuota cautionLimits).pressure = .exhausted) := by
  have h := (quota_agrees cautionLimits).1 (.obj []) (quotaState (classifyCodexQuota cautionLimits))
    (.obj []) defaultTask (windowsState (classifyCodexQuota cautionLimits)) none
    normalizeTask_default (normalizeState_quotaState _) rfl rfl
  exact ⟨h.1, h.2 (.inl rfl) ⟨by decide, by decide, by decide⟩⟩

/-! ## Masked signals -/

section

variable {top : Props}

/-- A signal that a limit is reached, at either level of the payload. -/
def Signalled (top : Props) : Prop :=
  (prop top "spendControlReached" = .bool true ∨
    prop (mainLimits top) "spendControlReached" = .bool true) ∨
  isNonEmptyString (prop top "rateLimitReachedType") = true ∨
    isNonEmptyString (prop (mainLimits top) "rateLimitReachedType") = true

/-- A signal at the upper level, or one below it where the upper level has no value at all. -/
def Unmasked (top : Props) : Prop :=
  (prop top "spendControlReached" = .bool true ∨
    (prop top "spendControlReached" = .undefined ∨ prop top "spendControlReached" = .null) ∧
      prop (mainLimits top) "spendControlReached" = .bool true) ∨
  isNonEmptyString (prop top "rateLimitReachedType") = true ∨
    (prop top "rateLimitReachedType" = .undefined ∨ prop top "rateLimitReachedType" = .null) ∧
      isNonEmptyString (prop (mainLimits top) "rateLimitReachedType") = true

theorem coalesce_iff {P : JsValue → Prop} (hundefined : ¬ P .undefined) (hnull : ¬ P .null)
    {v w : JsValue} : P (coalesce v w) ↔ P v ∨ (v = .undefined ∨ v = .null) ∧ P w := by
  unfold coalesce
  split_ifs with h
  · have hv : ¬ P v := by
      obtain rfl | rfl := h
      · exact hundefined
      · exact hnull
    simp [h, hv]
  · simp [h]

theorem limitReached_iff : limitReached top = true ↔ Unmasked top := by
  simp only [limitReached, Bool.or_eq_true, decide_eq_true_eq]
  rw [coalesce_iff (P := (· = .bool true)) (by simp) (by simp),
    coalesce_iff (P := (isNonEmptyString · = true)) (by simp [isNonEmptyString])
      (by simp [isNonEmptyString])]
  rfl

theorem windowOf_exhausted {id : JsString} : (windowOf top id).state = .exhausted ↔
    ∃ percent, Observed (prop (mainLimits top) id) percent ∧ percent ≤ 0 := by
  unfold windowOf
  constructor
  · intro h
    obtain ⟨x, hx⟩ | hx := classifyWindow_cases (prop (mainLimits top) id)
    · rw [classifyWindow_observed hx] at h
      exact ⟨x, hx, clampPercent_nonpos.mp (percentState_eq_exhausted.mp h)⟩
    · simp [hx] at h
  · intro ⟨x, hx, hle⟩
    rw [classifyWindow_observed hx]
    exact percentState_eq_exhausted.mpr (clampPercent_nonpos.mpr hle)

/-- What remains in one of the windows is nothing. -/
def WindowExhausted (top : Props) : Prop :=
  ∃ id ∈ [js "primary", js "secondary"], ∃ percent,
    Observed (prop (mainLimits top) id) percent ∧ percent ≤ 0

theorem classifyCodexQuota_exhausted_iff :
    (classifyCodexQuota (.obj top)).pressure = .exhausted ↔ Unmasked top ∨ WindowExhausted top := by
  rw [← limitReached_iff]
  cases hr : limitReached top with
  | true => simp [classifyCodexQuota_reached hr]
  | false =>
    obtain ⟨hprimary, hsecondary⟩ := classifyCodexQuota_windows hr
    have hworst : ∀ a b : Pressure, worstPressure [a, b] = .exhausted ↔
        a = .exhausted ∨ b = .exhausted := by
      rintro (_ | _) (_ | _) <;> decide
    rw [classifyCodexQuota_pressure, hprimary, hsecondary, hworst, windowOf_exhausted,
      windowOf_exhausted]
    simp [WindowExhausted]

/-- **When a reached limit is seen.** A payload that signals one is taken for exhausted, and
    Codex is not tried, precisely when the signal is not masked by a value above it or a window
    is exhausted too. -/
theorem quota_unmasked_iff (top : Props) :
    (Signalled top →
      (classifyCodexQuota (.obj top)).pressure = .exhausted ∧
      ∀ task state policy selection, Passes state (classifyCodexQuota (.obj top)) →
        selectWorker task state policy = .ok selection →
        (selection.action = .select → selection.worker ≠ some .codex) ∧
          .codex ∉ selection.fallbackChain) ↔
    (Signalled top → Unmasked top ∨ WindowExhausted top) := by
  rw [← classifyCodexQuota_exhausted_iff]
  refine imp_congr_right fun _ => and_iff_left_of_imp ?_
  intro hexhausted task state policy selection hpasses hselect
  obtain ⟨normalizedTask, -, hselect⟩ := bind_eq_ok.mp hselect
  obtain ⟨normalizedState, hstate, hselect⟩ := bind_eq_ok.mp hselect
  obtain ⟨preferred, -, hselect⟩ := bind_eq_ok.mp hselect
  obtain rfl := pure_eq_ok.mp hselect
  have hpressure : normalizedState.pressure .codex = .exhausted := by
    rw [hpasses.pressure_eq hstate, ← classifyCodexQuota_pressure, hexhausted]
  exact not_selected fun heligible => heligible.notExhausted hpressure

end

/-- Spend control is reached, below an upper level that says it is not. -/
def maskedLimits : Props :=
  [("spendControlReached", .bool false), ("rateLimits", .obj [("spendControlReached", .bool true),
    ("primary", .obj [("remainingPercent", .nat 50)]),
    ("secondary", .obj [("remainingPercent", .nat 60)])])]

/-- Codex is selected although its spend is cut off. -/
theorem quota_masked :
    Signalled maskedLimits ∧ (classifyCodexQuota (.obj maskedLimits)).pressure = .normal ∧
      Passes (quotaState (classifyCodexQuota (.obj maskedLimits)))
        (classifyCodexQuota (.obj maskedLimits)) ∧
      ∃ selection, selectWorker (.obj []) (quotaState (classifyCodexQuota (.obj maskedLimits)))
          (.obj []) = .ok selection ∧
        selection.action = .select ∧ selection.worker = some .codex := by
  refine ⟨.inl (.inr rfl), by decide +kernel, rfl,
    selectNormalized defaultTask (windowsState (classifyCodexQuota (.obj maskedLimits))) none, ?_,
    by decide +kernel, by decide +kernel⟩
  rw [selectWorker, normalizeTask_default, normalizeState_quotaState]
  rfl

end Wns.Routing
