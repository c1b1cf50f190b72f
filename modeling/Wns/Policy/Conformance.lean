import Wns.Ecma.Coerce
import Wns.Policy.ReasoningWatchdog

/-!
# Conformance of the three workers

Model of `supervisor-policy/tri-worker-conformance.mjs`. Each worker starts and reports in a way of
its own; the assertions hold the three of them to one lifecycle.

* `lifecycle_exact`: which observations certify a lifecycle, whatever the worker is.
* `progress_agreement`: the progress that is asserted is the progress that checkpoints keep.
* `lifecycle_watched`: to the watchdog, a certified worker that waits for an answer is blocked,
  and when the watchdog answers.
-/

namespace Wns.Policy

open Ecma JsValue

/-! ## Assertions -/

/-- What is thrown: a failed assertion, an `Error`, or an error of the language. -/
inductive Violation
  | assertion (message : JsString)
  | error (message : JsString)
  | thrown (e : JsError)
  deriving DecidableEq

abbrev Asserts := Except Violation

/-- `assert.ok(p, message)` and `assert.equal`. -/
def assertOk (p : Prop) [Decidable p] (message : JsString) : Asserts Unit :=
  if p then .ok () else .error (.assertion message)

/-- `value.key`. -/
def readMember (value : JsValue) (key : JsString) : Asserts JsValue :=
  (getMember value key).mapError .thrown

/-- `value?.key`. -/
def optionalMember : JsValue → JsString → JsValue
  | .obj ps, key => prop ps key
  | _, _ => .undefined

/-- `Number.isSafeInteger(value)`. -/
def isSafeInteger : JsValue → Bool
  | .num x => x.isSafeInteger
  | _ => false

/-- `Number.isSafeInteger(value) && value >= 0`. -/
def isSafeNatural (value : JsValue) : Bool :=
  match natural value with
  | some n => n ≤ maxSafeInteger
  | none => false

/-- `typeof value === "string"`. -/
def isString : JsValue → Bool
  | .str _ => true
  | _ => false

/-- `assertSemanticProgress(value, worker)`. -/
def assertSemanticProgress (value : JsValue) (worker : JsString) : Asserts Bool := do
  match value with
  | .obj value =>
    assertOk (∃ state : SemanticState, state ∈ JsEnum.values ∧
        prop value "semantic_state" = ofEnum state)
      (worker ++ ": invalid semantic_state")
    let lastAt := prop value "last_productive_at"
    assertOk (lastAt = .null ∨ isString lastAt) (worker ++ ": invalid last_productive_at")
    let cursor := prop value "last_productive_cursor"
    assertOk (cursor = .null ∨ isSafeInteger cursor) (worker ++ ": invalid last_productive_cursor")
    let tokens := prop value "thinking_tokens_since_productive"
    assertOk (tokens = .null ∨ isSafeNatural tokens)
      (worker ++ ": invalid thinking_tokens_since_productive")
    pure true
  | _ => .error (.assertion (worker ++ ": semantic_progress missing"))

/-- `typeof id === "string" && id.length > 0 || Number.isSafeInteger(id)`. -/
def isRequestId (id : JsValue) : Bool := isString id && id ≠ .str [] || isSafeInteger id

/-- The assertions about a pending request. -/
def assertPending (worker : JsString) (pending : JsValue) : Asserts Unit := do
  let blocking ← readMember pending "blocking"
  assertOk (blocking = .bool true) (worker ++ ": actionable pending request must be blocking")
  let requestId ← readMember pending "request_id"
  assertOk (isRequestId requestId)
    (worker ++ ": pending request must preserve an opaque string or integer identity")

/-- `assertPendingProjection(observation, worker)`. -/
def assertPendingProjection (observation : JsValue) (worker : JsString) : Asserts Bool := do
  let requests ← readMember observation "pending_requests"
  match requests with
  | .arr [] => pure true
  | .arr requests =>
    let progress ← readMember observation "semantic_progress"
    assertOk (optionalMember progress "semantic_state" = ofEnum SemanticState.blocked)
      (worker ++ ": pending HITL must project blocked progress")
    requests.forM (assertPending worker)
    pure true
  | _ => .error (.assertion (worker ++ ": pending_requests must be authoritative array state"))

/-! ## Native shapes -/

/-- Where a worker reports its pending requests. -/
def pendingKey (worker : JsString) : JsString :=
  if worker = js "pi" then "pendingRequests" else "pending_requests"

/-- `normalizeObservation(worker, observation)`. -/
def normalizeObservation (worker : JsString) (observation : JsValue) : Asserts JsValue :=
  match observation with
  | .obj observation => .ok (.obj [
      ("semantic_progress", prop observation "semantic_progress"),
      ("pending_requests", prop observation (pendingKey worker))])
  | _ => .error (.assertion (worker ++ ": invalid observation"))

/-- `normalizeStartAcceptance(worker, start)`. -/
def normalizeStartAcceptance (worker : JsString) (start : JsValue) : Asserts Bool :=
  match start with
  | .obj start =>
    let acknowledgement := prop start "acknowledgement"
    let accepted := prop start "accepted"
    if acknowledgement = .str "unknown" ∨ acknowledgement = .str "rejected" ∨
        accepted = .bool false then .ok false
    else if worker = js "codex" then
      .ok (accepted = .bool true ∧ isString (prop start "thread_id") ∧
        isString (prop start "turn_id"))
    else if worker = js "claude" then
      .ok (accepted = .bool true ∧ acknowledgement = .str "accepted" ∧
        isString (prop start "run_id"))
    else if worker = js "pi" then
      .ok (acknowledgement = .str "accepted" ∧ prop start "status" = .str "running" ∧
        prop start "terminal" = .bool false)
    else .error (.error ("unsupported worker: " ++ worker))
  | _ => .error (.assertion (worker ++ ": invalid start response"))

/-- What a certified lifecycle is reported as. -/
def certified (worker : JsString) : JsValue :=
  .obj [("worker", .str worker), ("accepted", .bool true), ("progress", .bool true),
    ("terminal", .bool true), ("token", .bool true)]

/-- `assertLiveLifecycle({ worker, startAccepted, observation, result, expectedToken })`. -/
def assertLiveLifecycle (worker : JsString)
    (startAccepted observation result expectedToken : JsValue) : Asserts JsValue := do
  assertOk (startAccepted = .bool true) (worker ++ ": start was not accepted")
  let progress ← readMember observation "semantic_progress"
  let _ ← assertSemanticProgress progress worker
  let _ ← assertPendingProjection observation worker
  let terminal ← readMember result "terminal"
  assertOk (terminal = .bool true) (worker ++ ": terminal state not proven")
  let ok ← readMember result "ok"
  assertOk (ok = .bool true) (worker ++ ": terminal result was not successful")
  let token ← readMember result "token"
  if strictEq token expectedToken then pure (certified worker)
  else .error (.error (worker ++ ": fixed token mismatch (actual output suppressed)"))

/-! ## What passes -/

section Assertions

variable {α β : Type}

theorem asserts_bind_eq_ok {x : Asserts α} {f : α → Asserts β} {b : β} :
    (x >>= f) = .ok b ↔ ∃ a, x = .ok a ∧ f a = .ok b := by
  cases x <;> simp [bind, Except.bind]

theorem asserts_pure_eq_ok {a b : α} : (pure a : Asserts α) = .ok b ↔ a = b := by
  simp [pure, Except.pure]

theorem assertOk_eq_ok {p : Prop} [Decidable p] {message : JsString} {u : Unit} :
    assertOk p message = .ok u ↔ p := by
  by_cases hp : p <;> simp [assertOk, hp]

/-- Whatever is asserted of a member, it is one of an object. -/
theorem readMember_eq_ok {v w : JsValue} {key : JsString} (hw : w ≠ .undefined) :
    readMember v key = .ok w ↔ ∃ ps, v = .obj ps ∧ prop ps key = w := by
  rw [← getMember_eq_ok hw]
  unfold readMember
  cases getMember v key <;> simp [Except.mapError]

/-- A loop of assertions passes iff each of them does. -/
theorem asserts_forM_eq_ok {l : List α} {f : α → Asserts Unit} {u : Unit} :
    l.forM f = .ok u ↔ ∀ a ∈ l, f a = .ok () := by
  induction l with
  | nil => simp [List.forM, pure, Except.pure]
  | cons a l ih =>
    show (f a >>= fun _ => l.forM f) = .ok u ↔ _
    rw [asserts_bind_eq_ok, List.forall_mem_cons]
    constructor
    · intro h
      obtain ⟨_, ha, hl⟩ := h
      exact ⟨ha, ih.mp hl⟩
    · intro h
      exact ⟨(), h.1, ih.mpr h.2⟩

end Assertions

/-- The semantic progress that is asserted. -/
structure Progresses (ps : Props) (state : SemanticState) : Prop where
  ofState : prop ps "semantic_state" = ofEnum state
  lastAt : prop ps "last_productive_at" = .null ∨
    ∃ lastAt, prop ps "last_productive_at" = .str lastAt
  cursor : prop ps "last_productive_cursor" = .null ∨
    isSafeInteger (prop ps "last_productive_cursor") = true
  tokens : prop ps "thinking_tokens_since_productive" = .null ∨
    ∃ n ≤ maxSafeInteger, prop ps "thinking_tokens_since_productive" = .nat n

theorem isString_iff {v : JsValue} : isString v = true ↔ ∃ s, v = .str s := by
  cases v <;> simp [isString]

theorem isSafeNatural_iff {v : JsValue} :
    isSafeNatural v = true ↔ ∃ n ≤ maxSafeInteger, v = .nat n := by
  unfold isSafeNatural
  constructor
  · intro h
    cases hn : natural v with
    | none => simp [hn] at h
    | some n =>
      rw [hn] at h
      exact ⟨n, of_decide_eq_true h, natural_eq_some.mp hn⟩
  · intro h
    obtain ⟨n, hn, rfl⟩ := h
    rw [natural_eq_some.mpr rfl]
    exact decide_eq_true hn

theorem assertSemanticProgress_eq_ok {v : JsValue} {worker : JsString} {b : Bool} :
    assertSemanticProgress v worker = .ok b ↔
      b = true ∧ ∃ ps state, v = .obj ps ∧ Progresses ps state := by
  cases v with
  | obj ps =>
    simp only [assertSemanticProgress, asserts_bind_eq_ok, assertOk_eq_ok, asserts_pure_eq_ok,
      isString_iff, isSafeNatural_iff]
    constructor
    · intro h
      obtain ⟨_, ⟨state, -, hstate⟩, _, hlast, _, hcursor, _, htokens, rfl⟩ := h
      exact ⟨rfl, ps, state, rfl, ⟨hstate, hlast, hcursor, htokens⟩⟩
    · intro h
      obtain ⟨rfl, ps', state, heq, hps⟩ := h
      obtain rfl := JsValue.obj.inj heq
      exact ⟨(), ⟨state, JsEnum.complete state, hps.ofState⟩, (), hps.lastAt, (), hps.cursor, (),
        hps.tokens, rfl⟩
  | _ => simp [assertSemanticProgress]

/-- A pending request that is asserted. -/
def Pends (pending : JsValue) : Prop :=
  ∃ ps, pending = .obj ps ∧ prop ps "blocking" = .bool true ∧
    isRequestId (prop ps "request_id") = true

theorem assertPending_eq_ok {worker : JsString} {pending : JsValue} {u : Unit} :
    assertPending worker pending = .ok u ↔ Pends pending := by
  unfold assertPending
  simp only [asserts_bind_eq_ok, assertOk_eq_ok]
  constructor
  · intro h
    obtain ⟨_, hblocking, _, rfl, requestId, hid, hrequest⟩ := h
    have htrue : JsValue.bool true ≠ .undefined := nofun
    obtain ⟨ps, rfl, hps⟩ := (readMember_eq_ok htrue).mp hblocking
    have hne : requestId ≠ .undefined := by
      rintro rfl
      cases hrequest
    obtain ⟨ps', heq, rfl⟩ := (readMember_eq_ok hne).mp hid
    obtain rfl := JsValue.obj.inj heq
    exact ⟨ps, rfl, hps, hrequest⟩
  · intro h
    obtain ⟨ps, rfl, hblocking, hrequest⟩ := h
    exact ⟨_, rfl, (), hblocking, _, rfl, hrequest⟩

/-- The progress and the pending requests that are asserted together: a worker that waits for an
    answer is blocked. -/
structure Projects (progress pending : JsValue) : Prop where
  progresses : ∃ ps state, progress = .obj ps ∧ Progresses ps state ∧
    (pending ≠ .arr [] → state = .blocked)
  pends : ∃ requests, pending = .arr requests ∧ ∀ request ∈ requests, Pends request

theorem assertPendingProjection_eq_ok {obs : Props} {worker : JsString} {b : Bool} :
    assertPendingProjection (.obj obs) worker = .ok b ↔ b = true ∧ ∃ requests,
      prop obs "pending_requests" = .arr requests ∧ (∀ request ∈ requests, Pends request) ∧
      (requests ≠ [] → optionalMember (prop obs "semantic_progress") "semantic_state" =
        ofEnum SemanticState.blocked) := by
  have hread (key : JsString) : readMember (.obj obs) key = .ok (prop obs key) := rfl
  unfold assertPendingProjection
  simp only [asserts_bind_eq_ok, hread, Except.ok.injEq, exists_eq_left']
  cases hrequests : prop obs "pending_requests" with
  | arr requests =>
    cases requests with
    | nil =>
      simp only [asserts_pure_eq_ok]
      constructor
      · intro h
        exact ⟨h.symm, [], rfl, nofun, fun hne => absurd rfl hne⟩
      · intro h
        exact h.1.symm
    | cons request requests =>
      simp only [asserts_bind_eq_ok, Except.ok.injEq, exists_eq_left', assertOk_eq_ok,
        asserts_forM_eq_ok, assertPending_eq_ok, asserts_pure_eq_ok, JsValue.arr.injEq]
      constructor
      · intro h
        obtain ⟨_, hblocked, _, hall, rfl⟩ := h
        exact ⟨rfl, hall, fun _ => hblocked⟩
      · intro h
        obtain ⟨rfl, hall, hblocked⟩ := h
        exact ⟨(), hblocked nofun, (), hall, rfl⟩
  | _ => simp

/-! ## Lifecycles -/

/-- A run that has ended well, with the token it was to give. -/
structure Succeeds (result expectedToken : JsValue) : Prop where
  terminal : ∃ ps, result = .obj ps ∧ prop ps "terminal" = .bool true ∧
    prop ps "ok" = .bool true ∧ strictEq (prop ps "token") expectedToken = true

/-- What is asserted of an observation that has the common shape. -/
theorem assertLiveLifecycle_eq_ok {worker : JsString} {obs : Props}
    {startAccepted result expectedToken c : JsValue} :
    assertLiveLifecycle worker startAccepted (.obj obs) result expectedToken = .ok c ↔
      startAccepted = .bool true ∧
      Projects (prop obs "semantic_progress") (prop obs "pending_requests") ∧
      Succeeds result expectedToken ∧ c = certified worker := by
  have hread (key : JsString) : readMember (.obj obs) key = .ok (prop obs key) := rfl
  have htrue : JsValue.bool true ≠ .undefined := nofun
  unfold assertLiveLifecycle
  simp only [asserts_bind_eq_ok, assertOk_eq_ok, hread, Except.ok.injEq, exists_eq_left',
    assertSemanticProgress_eq_ok, assertPendingProjection_eq_ok]
  constructor
  · intro h
    obtain ⟨_, haccepted, _, ⟨-, ps, state, hps, hprogress⟩, _, ⟨-, requests, hrequests, hall,
      hblocked⟩, _, hterminal, _, rfl, _, hok, _, rfl, token, htoken, h⟩ := h
    obtain ⟨result, rfl, hended⟩ := (readMember_eq_ok htrue).mp hterminal
    obtain rfl : prop result "token" = token := Except.ok.inj htoken
    split_ifs at h with hsame
    refine ⟨haccepted, ⟨⟨ps, state, hps, hprogress, fun hne => ?_⟩, requests, hrequests, hall⟩,
      ⟨result, rfl, hended, Except.ok.inj hok, hsame⟩, (asserts_pure_eq_ok.mp h).symm⟩
    have hstate := hblocked fun hnil => hne (by rw [hrequests, hnil])
    rw [hps] at hstate
    exact ofEnum_inj.mp (hprogress.ofState.symm.trans hstate)
  · intro h
    obtain ⟨haccepted, ⟨⟨ps, state, hps, hprogress, hblocked⟩, requests, hrequests, hall⟩,
      ⟨result, rfl, hterminal, hok, hsame⟩, rfl⟩ := h
    refine ⟨(), haccepted, true, ⟨rfl, ps, state, hps, hprogress⟩, true,
      ⟨rfl, requests, hrequests, hall, fun hne => ?_⟩, _, congrArg Except.ok hterminal, (), rfl, _,
      congrArg Except.ok hok, (), rfl, _, rfl, ?_⟩
    · rw [hps, ← hblocked (by simpa [hrequests] using hne)]
      exact hprogress.ofState
    · rw [if_pos hsame]
      rfl

/-- A start that counts as accepted: nothing speaks against it, and the worker answers as it
    does. -/
def Accepts (worker : JsString) (start : JsValue) : Prop :=
  ∃ ps, start = .obj ps ∧ prop ps "acknowledgement" ≠ .str "unknown" ∧
    prop ps "acknowledgement" ≠ .str "rejected" ∧ prop ps "accepted" ≠ .bool false ∧
    (worker = js "codex" ∧ prop ps "accepted" = .bool true ∧
        isString (prop ps "thread_id") = true ∧ isString (prop ps "turn_id") = true ∨
      worker = js "claude" ∧ prop ps "accepted" = .bool true ∧
        prop ps "acknowledgement" = .str "accepted" ∧ isString (prop ps "run_id") = true ∨
      worker = js "pi" ∧ prop ps "acknowledgement" = .str "accepted" ∧
        prop ps "status" = .str "running" ∧ prop ps "terminal" = .bool false)

theorem normalizeStartAcceptance_eq_true {worker : JsString} {start : JsValue} :
    normalizeStartAcceptance worker start = .ok true ↔ Accepts worker start := by
  unfold normalizeStartAcceptance Accepts
  cases start with
  | obj ps =>
    dsimp only
    by_cases hagainst : prop ps "acknowledgement" = .str "unknown" ∨
        prop ps "acknowledgement" = .str "rejected" ∨ prop ps "accepted" = .bool false
    · rw [if_pos hagainst]
      refine iff_of_false (by simp) fun h => ?_
      obtain ⟨ps', heq, hunknown, hrejected, hfalse, -⟩ := h
      obtain rfl := JsValue.obj.inj heq
      exact hagainst.elim hunknown fun h => h.elim hrejected hfalse
    · rw [if_neg hagainst]
      obtain ⟨hunknown, hrejected, hfalse⟩ : prop ps "acknowledgement" ≠ .str "unknown" ∧
          prop ps "acknowledgement" ≠ .str "rejected" ∧ prop ps "accepted" ≠ .bool false :=
        ⟨fun h => hagainst (.inl h), fun h => hagainst (.inr (.inl h)),
          fun h => hagainst (.inr (.inr h))⟩
      have hnames : js "codex" ≠ js "claude" ∧ js "codex" ≠ js "pi" ∧ js "claude" ≠ js "pi" := by
        decide
      split_ifs with hcodex hclaude hpi <;>
        simp_all [Ne.symm hnames.1, Ne.symm hnames.2.1, Ne.symm hnames.2.2]
  | _ => simp

/-- **All workers are held to one lifecycle.** Only the three workers start, each as it does; once
    its pending requests are found where it reports them, what certifies a worker does not depend
    on which one it is. -/
theorem lifecycle_exact (worker : JsString) (start result expectedToken c : JsValue)
    (native : Props) :
    (do let startAccepted ← normalizeStartAcceptance worker start
        let observation ← normalizeObservation worker (.obj native)
        assertLiveLifecycle worker (.bool startAccepted) observation result expectedToken) =
      .ok c ↔
    Accepts worker start ∧
      Projects (prop native "semantic_progress") (prop native (pendingKey worker)) ∧
      Succeeds result expectedToken ∧ c = certified worker := by
  rw [asserts_bind_eq_ok, ← normalizeStartAcceptance_eq_true]
  constructor
  · intro h
    obtain ⟨accepted, haccepted, h⟩ := h
    obtain ⟨htrue, hlife⟩ := assertLiveLifecycle_eq_ok.mp h
    rw [JsValue.bool.inj htrue] at haccepted
    exact ⟨haccepted, hlife⟩
  · intro h
    exact ⟨true, h.1, assertLiveLifecycle_eq_ok.mpr ⟨rfl, h.2⟩⟩

/-! ## Checkpoints and the watchdog -/

/-- The numbers of a progress are safe integers. -/
structure SafeProgress (p : SemanticProgress) : Prop where
  cursor : ∀ n ∈ p.lastProductiveCursor, n ≤ maxSafeInteger
  tokens : ∀ n ∈ p.thinkingTokensSinceProductive, n ≤ maxSafeInteger

theorem isSafeInteger_nat {n : ℕ} : isSafeInteger (.nat n) = true ↔ n ≤ maxSafeInteger := by
  simp [isSafeInteger, JsValue.nat, JsNumber.isSafeInteger]

/-- A cursor before the beginning. -/
def IsNegative (v : JsValue) : Prop := ∃ n : ℕ, v = .num (.finite (-(n + 1 : ℚ)))

/-- A safe integer is a natural number or negative. -/
theorem nat_or_negative {v : JsValue} (h : isSafeInteger v = true) :
    (∃ n ≤ maxSafeInteger, v = .nat n) ∨ IsNegative v := by
  cases v with
  | num x =>
    cases x with
    | finite x =>
      obtain ⟨hden, hnum⟩ := of_decide_eq_true h
      have hx : x = (x.num : ℚ) := ((Rat.den_eq_one_iff x).mp hden).symm
      cases hsign : x.num with
      | ofNat n =>
        rw [hsign] at hx hnum
        exact .inl ⟨n, hnum, by rw [hx]; rfl⟩
      | negSucc n =>
        rw [hsign] at hx
        refine .inr ⟨n, ?_⟩
        rw [hx, Int.cast_negSucc]
        push_cast
        rfl
    | _ => cases h
  | _ => simp [isSafeInteger] at h

theorem not_isNegative_nat (n : ℕ) : ¬ IsNegative (.nat n) := by
  intro h
  obtain ⟨m, h⟩ := h
  have heq : (n : ℚ) = -(m + 1) := JsNumber.finite.inj (JsValue.num.inj h)
  have hn : (0 : ℚ) ≤ n := Nat.cast_nonneg n
  have hm : (0 : ℚ) ≤ m := Nat.cast_nonneg m
  linarith

theorem isNumberOrNull_iff {v : JsValue} :
    (v = .null ∨ isSafeInteger v = true) ∧ ¬ IsNegative v ↔
      ∃ n : Option ℕ, v = ofNatOrNull n ∧ ∀ m ∈ n, m ≤ maxSafeInteger := by
  constructor
  · intro h
    obtain ⟨rfl | hsafe, hnot⟩ := h
    · exact ⟨none, rfl, nofun⟩
    · obtain ⟨n, hn, rfl⟩ := (nat_or_negative hsafe).resolve_right hnot
      refine ⟨some n, rfl, fun m hm => ?_⟩
      rwa [← Option.mem_some.mp hm]
  · intro h
    obtain ⟨n, rfl, hn⟩ := h
    cases n with
    | none => exact ⟨.inl rfl, fun h => by obtain ⟨_, h⟩ := h; cases h⟩
    | some n => exact ⟨.inr (isSafeInteger_nat.mpr (hn n rfl)), not_isNegative_nat n⟩

theorem isTokens_iff {v : JsValue} : (v = .null ∨ ∃ n ≤ maxSafeInteger, v = .nat n) ↔
    ∃ n : Option ℕ, v = ofNatOrNull n ∧ ∀ m ∈ n, m ≤ maxSafeInteger := by
  constructor
  · intro h
    obtain rfl | ⟨n, hn, rfl⟩ := h
    · exact ⟨none, rfl, nofun⟩
    · refine ⟨some n, rfl, fun m hm => ?_⟩
      rwa [← Option.mem_some.mp hm]
  · intro h
    obtain ⟨n, rfl, hn⟩ := h
    cases n with
    | none => exact .inl rfl
    | some n => exact .inr ⟨n, hn n rfl, rfl⟩

/-- `value ?? null` of a value that is given. -/
theorem nullish_of_ne {v : JsValue} (h : v ≠ .undefined) : nullish v = v := if_neg h

section

variable {ps : Props} {state : SemanticState}

/-- Progress that is asserted can be read, but for a cursor before the beginning. -/
theorem Progresses.normalize (h : Progresses ps state)
    (hcursor : ¬ IsNegative (prop ps "last_productive_cursor")) :
    ∃ p, normalizeSemanticProgress (.obj ps) = .ok p ∧ SafeProgress p := by
  obtain ⟨cursor, hcursor, hsafe⟩ := isNumberOrNull_iff.mp ⟨h.cursor, hcursor⟩
  obtain ⟨tokens, htokens, hsafe'⟩ := isTokens_iff.mp h.tokens
  obtain ⟨lastAt, hlast⟩ : ∃ lastAt, prop ps "last_productive_at" = .nullable lastAt := by
    obtain h | ⟨lastAt, h⟩ := h.lastAt
    · exact ⟨none, h⟩
    · exact ⟨some lastAt, h⟩
  refine ⟨⟨state, lastAt, cursor, tokens⟩, normalizeSemanticProgress_eq_ok.mpr
    ⟨ps, rfl, h.ofState, ?_, ?_, htokens⟩, hsafe, hsafe'⟩
  · rw [hlast, nullish_nullable]
  · rw [hcursor, nullish_ofNatOrNull]

/-- No field of it is left out. -/
theorem Progresses.given (h : Progresses ps state) : prop ps "last_productive_at" ≠ .undefined ∧
    prop ps "last_productive_cursor" ≠ .undefined := by
  constructor
  · intro hnone
    obtain h | ⟨_, h⟩ := h.lastAt <;> exact absurd (hnone.symm.trans h) nofun
  · intro hnone
    obtain h | h := h.cursor
    · exact absurd (hnone.symm.trans h) nofun
    · rw [hnone] at h
      cases h

/-- A cursor before the beginning is not read. -/
theorem not_isNegative_of_reads {p : SemanticProgress} (h : ReadsProgress ps p) :
    ¬ IsNegative (prop ps "last_productive_cursor") := by
  intro hnegative
  obtain ⟨n, hn⟩ := hnegative
  have hgiven : prop ps "last_productive_cursor" ≠ .undefined := by
    rw [hn]
    exact nofun
  have hreads := h.cursor
  rw [nullish_of_ne hgiven, hn] at hreads
  cases hcursor : p.lastProductiveCursor with
  | none =>
    rw [hcursor] at hreads
    cases hreads
  | some m =>
    rw [hcursor] at hreads
    exact not_isNegative_nat m ⟨n, hreads.symm⟩

end

/-- **Checkpoints and assertions agree on what progress is.** What is asserted, and has no cursor
    before the beginning, is what a checkpoint reads with safe numbers and no field left out. -/
theorem progress_agreement (ps : Props) (worker : JsString) :
    assertSemanticProgress (.obj ps) worker = .ok true ∧
        ¬ IsNegative (prop ps "last_productive_cursor") ↔
      (∃ p, normalizeSemanticProgress (.obj ps) = .ok p ∧ SafeProgress p) ∧
        prop ps "last_productive_at" ≠ .undefined ∧
        prop ps "last_productive_cursor" ≠ .undefined := by
  simp only [assertSemanticProgress_eq_ok]
  constructor
  · intro h
    obtain ⟨⟨-, ps', state, heq, hps⟩, hcursor⟩ := h
    obtain rfl := JsValue.obj.inj heq
    exact ⟨hps.normalize hcursor, hps.given⟩
  · intro h
    obtain ⟨⟨p, hp, hsafe⟩, hlast, hcursor⟩ := h
    obtain ⟨ps', heq, hps⟩ := normalizeSemanticProgress_eq_ok.mp hp
    obtain rfl := JsValue.obj.inj heq
    have hreads := hps.cursor
    have hreads' := hps.lastAt
    rw [nullish_of_ne hcursor] at hreads
    rw [nullish_of_ne hlast] at hreads'
    obtain ⟨hnumber, hnot⟩ := isNumberOrNull_iff.mpr ⟨_, hreads, hsafe.cursor⟩
    refine ⟨⟨trivial, ps, p.semanticState, rfl, hps.state, ?_, hnumber,
      isTokens_iff.mpr ⟨_, hps.tokens, hsafe.tokens⟩⟩, hnot⟩
    rw [hreads']
    cases p.lastProductiveAt with
    | none => exact .inl rfl
    | some lastAt => exact .inr ⟨lastAt, rfl⟩

/-- **A worker that waits for an answer is never said to reason too long.** Whatever a certified
    worker has spent and whatever the thresholds are, while it has pending requests the watchdog
    finds it blocked. It answers iff the rest of the input is as it has to be and the progress has
    no cursor before the beginning. -/
theorem lifecycle_watched {worker : JsString} {native input : Props}
    {startAccepted result expectedToken observation c : JsValue}
    (hnative : normalizeObservation worker (.obj native) = .ok observation)
    (h : assertLiveLifecycle worker startAccepted observation result expectedToken = .ok c)
    (hpending : prop native (pendingKey worker) ≠ .arr [])
    (hinput : prop input "semantic_progress" = prop native "semantic_progress") :
    (∀ r, evaluateReasoningWatchdog (.obj input) = .ok r →
      r.diagnosticState = .blocked ∧ r.reason = .blockedPendingApproval) ∧
    ((∃ r, evaluateReasoningWatchdog (.obj input) = .ok r) ↔ AsksWatchdog input ∧ ¬ IsNegative
      (optionalMember (prop native "semantic_progress") "last_productive_cursor")) := by
  obtain rfl := Except.ok.inj hnative
  obtain ⟨-, ⟨⟨ps, state, hps, hprogress, hblocked⟩, -⟩, -⟩ := assertLiveLifecycle_eq_ok.mp h
  obtain rfl := hblocked hpending
  replace hps : prop native "semantic_progress" = .obj ps := hps
  constructor
  · intro r hwatch
    obtain ⟨⟨value, progress, hvalue, hread, hstate, -⟩, hdiagnosis⟩ :=
      evaluateReasoningWatchdog_eq_ok hwatch
    obtain rfl : input = value := JsValue.obj.inj hvalue
    obtain rfl : progress = ps := JsValue.obj.inj (hread.symm.trans (hinput.trans hps))
    rw [ofEnum_inj.mp (hstate.symm.trans hprogress.ofState)] at hdiagnosis
    exact Prod.mk.inj hdiagnosis
  · rw [evaluateReasoningWatchdog_isOk, hinput, hps]
    refine and_congr_right fun _ => ⟨fun hreads => ?_, fun hcursor => ?_⟩
    · obtain ⟨p, hp⟩ := hreads
      obtain ⟨ps', heq, hreads⟩ := normalizeSemanticProgress_eq_ok.mp hp
      obtain rfl := JsValue.obj.inj heq
      exact not_isNegative_of_reads hreads
    · obtain ⟨p, hp, -⟩ := hprogress.normalize hcursor
      exact ⟨p, hp⟩

/-- The progress of a worker that waits, after many thinking tokens. -/
def waiting : JsValue :=
  .obj [("semantic_state", .str "blocked"), ("last_productive_at", .null),
    ("last_productive_cursor", .nat 3), ("thinking_tokens_since_productive", .nat 9000)]

/-- An observation of pi with a request that is pending. -/
def waitingPi : Props :=
  [("semantic_progress", waiting),
    ("pendingRequests", .arr [.obj [("request_id", .nat 7), ("blocking", .bool true)]])]

/-- What the watchdog is told of it. -/
def waitingInput : Props :=
  [("semantic_progress", waiting), ("elapsed_since_productive_ms", .nat 95000)]

theorem lifecycle_watched_waitingPi :
    ∃ r, evaluateReasoningWatchdog (.obj waitingInput) = .ok r ∧ r.diagnosticState = .blocked := by
  have hnative : normalizeObservation "pi" (.obj waitingPi) =
      .ok (.obj [("semantic_progress", waiting),
        ("pending_requests", prop waitingPi "pendingRequests")]) := by
    rfl
  have hlife : assertLiveLifecycle "pi" (.bool true)
      (.obj [("semantic_progress", waiting),
        ("pending_requests", prop waitingPi "pendingRequests")])
      (.obj [("terminal", .bool true), ("ok", .bool true), ("token", .str "TOKEN")])
      (.str "TOKEN") = .ok (certified "pi") := by
    rfl
  have hpending : prop waitingPi (pendingKey "pi") ≠ .arr [] := by
    decide
  have hinput : prop waitingInput "semantic_progress" = prop waitingPi "semantic_progress" := by
    rfl
  have hasks : AsksWatchdog waitingInput := ⟨by decide, ⟨_, rfl⟩, 95000, rfl⟩
  obtain ⟨hblocked, hanswers⟩ := lifecycle_watched hnative hlife hpending hinput
  obtain ⟨r, hr⟩ := hanswers.mpr ⟨hasks, not_isNegative_nat 3⟩
  exact ⟨r, hr, (hblocked r hr).1⟩

end Wns.Policy
