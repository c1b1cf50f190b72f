import Wns.Recovery.Run

/-!
# Planning again

A host that loses the acknowledgement of a spawn plans again from the same checkpoint. What
keeps it from starting the same thing twice is the claim key, which hashes the action that
is asked for; and what it plans is current, unless the next gate of the checkpoint is not
open.

* `Issues.claimKey_eq`: the claim key of an issued plan is that of its host action.
* `sameAction_fenced`: a recorded claim keeps out every plan for the same host action.
* `freshPlan_stale_iff`: a plan issued from the checkpoint is stale iff the preflight gets
  as far as the next gate and does not find it.
-/

namespace Wns.Recovery

open Ecma Routing

/-! ## Issued plans, as the preflight reads them -/

/-- A digest in hexadecimal: digits and the letters up to `f`. -/
def HexDigest (s : JsString) : Prop :=
  ∀ u ∈ s, 0x30 ≤ u.val ∧ u.val ≤ 0x39 ∨ 0x61 ≤ u.val ∧ u.val ≤ 0x66

section

variable {sha256 : List UInt8 → JsString} {checkpoint : JsValue} {c : TaskCheckpoint}
  {limit : SafeNat} {p : IssuedPlan}

/-- What the two planners have in common. -/
structure IssuedFrom (c : TaskCheckpoint) (p : IssuedPlan) : Prop where
  taskOpen : c.task.status = .open
  safeToResume : c.continuation.safeToResume = true
  approval : ¬ approvalBlocks c
  source : c.lastExecution.workerId = some p.body.sourceWorkerId
  target : ∀ worker ∈ p.target, ofEnum worker ≠ ofString p.body.sourceWorkerId
  body : ∃ session limit, p.body = planBody c p.body.sourceWorkerId session p.body.claimKey limit

theorem Issues.issuedFrom (h : Issues sha256 checkpoint limit p)
    (hc : validateTaskCheckpoint checkpoint = .ok c) : IssuedFrom c p := by
  obtain ⟨worker, session, hopen, hsafe, happroval, -, hworker, -, htarget, hbody⟩ := h.planned hc
  have hsource : p.body.sourceWorkerId = worker := by rw [hbody]; rfl
  refine ⟨hopen, hsafe, happroval, ?_, ?_, session, limit, ?_⟩
  · rw [hsource, hworker]
  · rw [hsource]
    exact htarget
  · rw [hsource, hbody]
    rfl

/-- The claim key is that of the host action. -/
theorem Issues.claimKey_eq (h : Issues sha256 checkpoint limit p)
    (hc : validateTaskCheckpoint checkpoint = .ok c) :
    p.body.claimKey = tupleKey sha256 (hostAction c p.target) := by
  obtain ⟨worker, session, -, -, -, -, -, -, -, hbody⟩ := h.planned hc
  rw [hbody]
  rfl

/-- The keys of an issued plan are those of its schema. -/
theorem IssuedPlan.hasKeys (p : IssuedPlan) : HasKeys p.props
    (if prop p.props "action" = .str "spawn_cross_worker" then planKeys ++ [js "target_worker_id"]
      else planKeys) := by
  cases p with
  | respawn p =>
    rw [if_neg (by simp [props, RespawnPlan.props])]
    exact RespawnPlan.hasKeys p
  | crossWorker p =>
    rw [if_pos (by simp [props, CrossWorkerPlan.props])]
    intro k
    simp only [props, CrossWorkerPlan.props, PlanBody.source, PlanBody.rest, planKeys, names_cons,
      names_nil, List.cons_append, List.nil_append, List.mem_cons, List.not_mem_nil, or_false]
    exact iff_of_eq (by ac_rfl)

/-- The name of a worker, as a plan carries it. -/
def workerName : Worker → TrimmedString
  | .claude => checked "claude"
  | .codex => checked "codex"
  | .pi => checked "pi"

theorem ofString_workerName (worker : Worker) : ofString (workerName worker) = ofEnum worker := by
  cases worker <;> rfl

theorem planTarget_issued (p : IssuedPlan) :
    planTarget p.props = .ok (p.target.map workerName) := by
  cases p with
  | respawn p =>
    rw [planTarget, if_neg (by simp [IssuedPlan.props, RespawnPlan.props])]
    rfl
  | crossWorker p =>
    have htarget : prop (IssuedPlan.crossWorker p).props "target_worker_id" =
        ofString (workerName p.targetWorkerId) := by
      rw [ofString_workerName]
      simp [IssuedPlan.props, CrossWorkerPlan.props, PlanBody.source]
    rw [planTarget, if_pos (by simp [IssuedPlan.props, CrossWorkerPlan.props]), htarget, map_eq_ok]
    exact ⟨_, string_eq_ok.mpr rfl, rfl⟩

/-- An issued plan whose claim key is a trimmed string passes the schema check. -/
theorem normalizePlan_issued {claimKey : TrimmedString} (hp : IssuedFrom c p)
    (h : p.body.claimKey = claimKey.1) : normalizePlan p.toValue = .ok p.props := by
  have hreads := p.carried.reads h
  obtain ⟨next, hnext, -⟩ := hreads.gateId
  have hspawn : prop p.props "planned" = .bool true ∧ prop p.props "plan_version" = .nat 1 ∧
      (prop p.props "action" = .str "spawn_cross_worker" ∨
        prop p.props "action" = .str "spawn_same_worker") ∧
      prop p.props "target_native_session_id" = .null := by
    rw [p.carried.targetNativeSessionId]
    cases p <;> simp [IssuedPlan.props, RespawnPlan.props, CrossWorkerPlan.props]
  have htarget : ∀ worker ∈ p.target.map workerName,
      ofString worker ≠ prop p.props "source_worker_id" := by
    intro name hname
    obtain ⟨worker, hworker, rfl⟩ := Option.mem_map.mp hname
    rw [p.carried.sourceWorkerId, ofString_workerName]
    exact hp.target worker hworker
  exact normalizePlan_eq_ok.mpr ⟨rfl, p.hasKeys, hspawn, ⟨_, planTarget_issued p, htarget⟩,
    ⟨_, hreads.claimKey⟩, ⟨_, hreads.taskId⟩, ⟨_, hreads.checkpointRevision⟩, next, hnext⟩

/-! ## The preflight of a fresh plan -/

/-- The stages that a plan issued from `c` can fail: the rest hold when it is issued. -/
def freshStages (c : TaskCheckpoint) (claimKey : TrimmedString) (f : RuntimeFacts) : List Stage :=
  [⟨f.humanBlock ≠ .safetyBlock, .humanRequired, .safetyBlock⟩,
    ⟨f.humanBlock ≠ .humanRequired, .humanRequired, .humanBlock⟩,
    ⟨f.workspace.path = c.workspace.path, .recoveryRequired, .workspacePathMismatch⟩,
    ⟨f.workspace.gitSha = c.workspace.gitSha, .recoveryRequired, .workspaceShaMismatch⟩,
    ⟨c.workspace.branch ≠ none → f.workspace.branch = c.workspace.branch, .recoveryRequired,
      .workspaceBranchMismatch⟩,
    ⟨∀ gate ∈ c.continuation.nextAction.gateId, gate ∉ c.gates.completed.1, .alreadyCompleted,
      .gateAlreadyCompleted⟩,
    ⟨∃ gate ∈ c.continuation.nextAction.gateId, gate ∈ c.gates.open.1, .staleReplan, .gateNotOpen⟩,
    ⟨claimKey ∉ f.priorClaimKeys.1, .alreadyCompleted, .duplicateClaim⟩,
    ⟨f.effectKind ≠ .unknown, .recoveryRequired, .effectKindUnknown⟩,
    ⟨f.effectStatus ≠ .unknown, .recoveryRequired, .effectUnknown⟩,
    ⟨¬ (f.effectStatus = .applied ∧ f.effectKind = .mutating), .alreadyCompleted,
      .effectAlreadyApplied⟩]

theorem firstFailing_of_holds {s : Stage} {ss : List Stage} (h : s.holds = true) :
    firstFailing (s :: ss) = firstFailing ss := by
  rw [firstFailing, if_pos h]

/-- The same check before lists of stages that answer alike. -/
theorem firstFailing_congr {holds holds' : Bool} {d : PreflightDecision} {why : PreflightReason}
    {ss ss' : List Stage} (h : holds = holds') (hss : firstFailing ss = firstFailing ss') :
    firstFailing (⟨holds, d, why⟩ :: ss) = firstFailing (⟨holds', d, why⟩ :: ss') := by
  rw [firstFailing, firstFailing, h, hss]

theorem refsPresent_self (refs : References) : RefsPresent (refs.1.map Reference.toValue) refs := by
  intro r hr
  obtain ⟨reference, hmem, rfl⟩ := List.mem_map.mp hr
  exact ⟨reference, hmem, rfl⟩

/-- The preflight of a plan issued from the checkpoint comes down to the fresh stages. -/
theorem firstFailing_issued {worker session : TrimmedString} {key : JsString}
    {claimKey : TrimmedString} {f : RuntimeFacts} (hopen : c.task.status = .open)
    (hsafe : c.continuation.safeToResume = true) (happroval : ¬ approvalBlocks c) :
    firstFailing (preflightStages c (spawnPlan (planBody c worker session key limit) claimKey) f
      true) = firstFailing (freshStages c claimKey f) := by
  have hgate : ∀ gate : TrimmedString, ofNullable c.continuation.nextAction.gateId = ofString gate ↔
      gate ∈ c.continuation.nextAction.gateId := by
    intro gate
    rw [Option.mem_def, ← ofNullable_inj]
    rfl
  unfold preflightStages freshStages
  rw [firstFailing_of_holds (by simp [spawnPlan, planBody]),
    firstFailing_of_holds (by simp [spawnPlan, planBody]), firstFailing_of_holds (by simp [hopen]),
    firstFailing_of_holds hsafe, firstFailing_of_holds (by simp [happroval])]
  refine firstFailing_congr rfl <| firstFailing_congr rfl <| firstFailing_congr ?_ <|
    firstFailing_congr ?_ <| firstFailing_congr ?_ <| firstFailing_congr ?_ <|
    firstFailing_congr ?_ ?_
  · have hpath : prop (spawnPlan (planBody c worker session key limit) claimKey).workspace "path" =
        ofString c.workspace.path := by simp [spawnPlan, planBody]
    rw [decide_eq_decide, hpath, ofString_inj]
    exact and_iff_left_of_imp Eq.symm
  · have hsha : prop (spawnPlan (planBody c worker session key limit) claimKey).workspace
        "git_sha" = ofNullable c.workspace.gitSha := by simp [spawnPlan, planBody]
    rw [decide_eq_decide, hsha, ofNullable_inj]
    exact and_iff_left_of_imp Eq.symm
  · have hbranch : prop (spawnPlan (planBody c worker session key limit) claimKey).workspace
        "branch" = ofNullable c.workspace.branch := by simp [spawnPlan, planBody]
    rw [decide_eq_decide, hbranch, ofNullable_inj]
    exact imp_congr_right fun _ => and_iff_left_of_imp Eq.symm
  · simp only [spawnPlan, planBody, decide_eq_decide, ne_eq, hgate]
    exact ⟨fun h gate hg hmem => h gate hmem hg, fun h gate hmem hg => h gate hg hmem⟩
  · simp only [spawnPlan, planBody, decide_eq_decide, hgate]
    exact exists_congr fun gate => and_comm
  · rw [firstFailing_of_holds rfl, firstFailing_of_holds]
    · rfl
    · simp only [decide_eq_true_eq]
      exact ⟨refsPresent_self _, refsPresent_self _, refsPresent_self _⟩

/-- The answer of the preflight to a plan issued from the checkpoint. -/
theorem evaluateResumePreflight_issued {rawFacts : JsValue} {f : RuntimeFacts}
    {claimKey : TrimmedString} (h : Issues sha256 checkpoint limit p)
    (hc : validateTaskCheckpoint checkpoint = .ok c) (hkey : p.body.claimKey = claimKey.1)
    (hf : normalizeFacts rawFacts = .ok f) :
    evaluateResumePreflight checkpoint p.toValue rawFacts =
      .ok (firstFailing (freshStages c claimKey f)) := by
  have hp := h.issuedFrom hc
  obtain ⟨session, limit', hbody⟩ := hp.body
  have hagree : same (spawnPlan p.body claimKey).completed (ofStrings c.gates.completed.1) =
      true := by
    rw [hbody]
    exact decide_eq_true rfl
  rw [evaluateResumePreflight_eq hc (normalizePlan_issued hp hkey) hf (p.carried.reads hkey),
    hagree, hbody, firstFailing_issued hp.taskOpen hp.safeToResume hp.approval]

theorem firstFailing_pass {ss : List Stage} (h : ∀ s ∈ ss, s.decision ≠ .pass) :
    (firstFailing ss).decision = .pass ↔ (firstFailing ss).executionAllowed = true := by
  induction ss with
  | nil => exact iff_of_true rfl rfl
  | cons s ss ih =>
    have ih := ih fun s hs => h s (List.mem_cons_of_mem _ hs)
    unfold firstFailing
    split_ifs
    · exact ih
    · simp [decision, h s List.mem_cons_self]

theorem freshStages_decision {claimKey : TrimmedString} {f : RuntimeFacts} :
    ∀ s ∈ freshStages c claimKey f, s.decision ≠ .pass := by
  simp [freshStages]

/-! ## The claim key as a fence -/

/-- Both plans respawn the source, or both spawn the same other worker. -/
def SameHostAction (p q : IssuedPlan) : Prop := p.target = q.target

/-- **A claim fences its host action.** Once the claim of a plan is recorded, no plan from the
    same checkpoint for the same host action passes. -/
theorem sameAction_fenced {rawFacts : JsValue} {f : RuntimeFacts} {limit' : SafeNat}
    {q : IssuedPlan} {r : Preflight} (hp : Issues sha256 checkpoint limit p)
    (hq : Issues sha256 checkpoint limit' q) (hsame : SameHostAction p q)
    (hf : normalizeFacts rawFacts = .ok f)
    (hclaimed : p.body.claimKey ∈ f.priorClaimKeys.1.map Subtype.val)
    (h : evaluateResumePreflight checkpoint q.toValue rawFacts = .ok r) :
    r.decision ≠ .pass ∧ r.executionAllowed = false := by
  obtain ⟨c, hc, h'⟩ := bind_eq_ok.mp h
  obtain ⟨plan, hplan, -⟩ := bind_eq_ok.mp h'
  -- a plan that gets through the schema check has a claim key that is a trimmed string
  obtain ⟨hprops, hschema⟩ := normalizePlan_eq_ok.mp hplan
  obtain ⟨claimKey, hkey⟩ := hschema.claimKey
  obtain rfl : q.props = plan := JsValue.obj.inj hprops
  have hkey : q.body.claimKey = claimKey.1 := JsValue.str.inj (q.carried.claimKey.symm.trans hkey)
  rw [evaluateResumePreflight_issued hq hc hkey hf, Except.ok.injEq] at h
  have heq : p.body.claimKey = q.body.claimKey := by
    rw [hp.claimKey_eq hc, hq.claimKey_eq hc, hsame]
  have hmem : claimKey ∈ f.priorClaimKeys.1 := by
    obtain ⟨key, hmem, hval⟩ := List.mem_map.mp hclaimed
    rwa [← Subtype.ext (hval.trans (heq.trans hkey))]
  have hno : r.executionAllowed ≠ true := by
    intro hallowed
    rw [← h, firstFailing_allowed freshStages_decision] at hallowed
    simp only [freshStages, List.forall_mem_cons, decide_eq_true_eq] at hallowed
    exact hallowed.2.2.2.2.2.2.2.1 hmem
  refine ⟨?_, Bool.eq_false_of_not_eq_true hno⟩
  rw [← h] at hno ⊢
  exact mt (firstFailing_pass freshStages_decision).mp hno

end

/-- SHA-256 on the claims of the two plans. -/
def replanDigest (message : List UInt8) : JsString :=
  if message = claimMessage (hostAction interruptedCheckpoint none) then interruptedDigest
  else "92f7bd6aebaea075537f2f3c0abc51009485cc68e63ee6913613c3f45134f2d2"

/-- The respawn of the source. -/
def respawnAgain : IssuedPlan :=
  .respawn (planBody interruptedCheckpoint (checked "codex") (checked "session-old")
    (tupleKey replanDigest (hostAction interruptedCheckpoint none)) (checked 2))

/-- The reroute to Claude. -/
def rerouteToClaude : IssuedPlan :=
  .crossWorker ⟨planBody interruptedCheckpoint (checked "codex") (checked "session-old")
    (tupleKey replanDigest (hostAction interruptedCheckpoint (some .claude))) (checked 2),
    .claude⟩

/-- The classification of a failed tool, which allows a reroute. -/
def toolFailure : JsValue :=
  .obj [("classification", .str "retry_or_reroute_candidate"),
    ("reason_code", .str "tool_runtime_failure"), ("disposition", .str "reroute"),
    ("same_worker_retry_eligible", .bool false), ("cross_worker_reroute_eligible", .bool true),
    ("automatic_resume_eligible", .bool false)]

/-- A policy of two reroutes. -/
def twoReroutes : JsValue := .obj [("max_reroute_count", .nat 2)]

theorem issues_respawnAgain :
    Issues replanDigest interruptedCheckpoint.toValue ⟨2, by decide⟩ respawnAgain :=
  .respawn normalizeLimitOf_twoRetries (planSameWorkerRespawn_planned.mpr
    ⟨interruptedCheckpoint, interruption, ⟨2, by decide⟩, _, _, validateTaskCheckpoint_toValue _,
      normalizeTerminationResult_interruption, normalizeLimitOf_twoRetries, rfl, by decide, rfl,
      by decide, by decide, rfl, rfl, rfl⟩)

theorem planCrossWorkerRecovery_toolFailure (sha256 : List UInt8 → JsString) :
    planCrossWorkerRecovery sha256 interruptedCheckpoint.toValue toolFailure (.obj []) (.obj [])
      (.obj []) twoReroutes = .ok (.planned ⟨planBody interruptedCheckpoint
        ⟨"codex", by decide⟩ ⟨"session-old", by decide⟩ (tupleKey sha256 (crossWorkerTuple
          interruptedCheckpoint (ofEnum Worker.claude) (.nat 1))) ⟨2, by decide⟩, .claude⟩) := by
  rw [planCrossWorkerRecovery, validateTaskCheckpoint_toValue, ok_bind]
  rfl

theorem issues_rerouteToClaude :
    Issues replanDigest interruptedCheckpoint.toValue ⟨2, by decide⟩ rerouteToClaude :=
  .crossWorker rfl (planCrossWorkerRecovery_toolFailure replanDigest)

/-- Facts of the interrupted session before any effect, with a claim recorded. -/
def claimedFacts (claimKey : JsString) : JsValue :=
  .obj [("workspace", interruptedCheckpoint.workspace.toValue), ("human_block", .str "none"),
    ("effect", .obj [("kind", .str "none"), ("status", .str "none"),
      ("prior_claim_keys", .arr [.str claimKey])])]

theorem normalizeFacts_claimed (claimKey : TrimmedString) :
    normalizeFacts (claimedFacts claimKey.1) = .ok ⟨interruptedCheckpoint.workspace, .none, .none,
      .none, ⟨[claimKey], List.nodup_singleton _⟩⟩ := by
  have hkeys : strings (.arr [.str claimKey.1]) "runtime_facts.effect.prior_claim_keys" =
      .ok ⟨[claimKey], List.nodup_singleton _⟩ := strings_eq_ok.mpr rfl
  simp only [normalizeFacts, bind_eq_ok, object_eq_ok, exactKeys_eq_ok, string_eq_ok,
    stringOrNull_eq_ok, enumValue_eq_ok, pure_eq_ok]
  exact ⟨_, rfl, (), fun _ => Iff.rfl, _, rfl, (), fun _ => Iff.rfl, _, rfl, (),
    fun _ => Iff.rfl, interruptedCheckpoint.workspace.path, rfl,
    interruptedCheckpoint.workspace.gitSha, rfl, interruptedCheckpoint.workspace.branch, rfl,
    .none, rfl, .none, rfl, .none, rfl, _, hkeys, rfl⟩

/-- The claims of the two plans. -/
def respawnClaim : TrimmedString := ⟨"sha256:" ++ interruptedDigest, by decide⟩

def rerouteClaim : TrimmedString :=
  ⟨"sha256:" ++ js "92f7bd6aebaea075537f2f3c0abc51009485cc68e63ee6913613c3f45134f2d2", by decide⟩

theorem claimKey_respawnAgain : respawnAgain.body.claimKey = respawnClaim.1 := by
  show tupleKey replanDigest (hostAction interruptedCheckpoint none) = _
  rw [tupleKey, replanDigest, if_pos rfl]
  rfl

theorem claimKey_rerouteToClaude : rerouteToClaude.body.claimKey = rerouteClaim.1 := by
  show tupleKey replanDigest (hostAction interruptedCheckpoint (some .claude)) = _
  -- tuples of different lengths have different texts
  have hne : claimMessage (hostAction interruptedCheckpoint (some .claude)) ≠
      claimMessage (hostAction interruptedCheckpoint none) := by
    intro h
    have := (jsonEq_of_claimMessage (by simp [hostAction]) (by simp [hostAction]) h).length_eq
    simp [hostAction] at this
  rw [tupleKey, replanDigest, if_neg hne]
  rfl

/-- Two plans from one checkpoint: with the claim of the respawn recorded, the reroute
    passes. -/
theorem otherAction_passes :
    Issues replanDigest interruptedCheckpoint.toValue ⟨2, by decide⟩ respawnAgain ∧
      Issues replanDigest interruptedCheckpoint.toValue ⟨2, by decide⟩ rerouteToClaude ∧
      ∃ f r, normalizeFacts (claimedFacts respawnClaim.1) = .ok f ∧
        respawnAgain.body.claimKey ∈ f.priorClaimKeys.1.map Subtype.val ∧
        evaluateResumePreflight interruptedCheckpoint.toValue rerouteToClaude.toValue
          (claimedFacts respawnClaim.1) = .ok r ∧ r.decision = .pass := by
  refine ⟨issues_respawnAgain, issues_rerouteToClaude, _, _, normalizeFacts_claimed respawnClaim,
    ?_, evaluateResumePreflight_issued issues_rerouteToClaude (validateTaskCheckpoint_toValue _)
      claimKey_rerouteToClaude (normalizeFacts_claimed respawnClaim), ?_⟩
  · rw [claimKey_respawnAgain]
    exact List.mem_singleton_self _
  · have hne : rerouteClaim ≠ respawnClaim := by
      simp [rerouteClaim, respawnClaim, interruptedDigest]
    rw [firstFailing_pass freshStages_decision, firstFailing_allowed freshStages_decision]
    simp only [freshStages, List.forall_mem_cons, decide_eq_true_eq]
    exact ⟨by decide, by decide, trivial, trivial, fun _ => trivial,
      fun gate hg => by cases hg; decide, ⟨⟨"execute", by decide⟩, rfl, List.mem_singleton_self _⟩,
      mt List.mem_singleton.mp hne, by decide, by decide, by decide, by decide⟩

theorem sameAction_fenced_interrupted :
    ∃ r, evaluateResumePreflight interruptedCheckpoint.toValue respawnAgain.toValue
        (claimedFacts respawnClaim.1) = .ok r ∧ r.decision ≠ .pass ∧
      r.executionAllowed = false := by
  have h := evaluateResumePreflight_issued issues_respawnAgain (validateTaskCheckpoint_toValue _)
    claimKey_respawnAgain (normalizeFacts_claimed respawnClaim)
  refine ⟨_, h, sameAction_fenced issues_respawnAgain issues_respawnAgain rfl
    (normalizeFacts_claimed respawnClaim) ?_ h⟩
  rw [claimKey_respawnAgain]
  exact List.mem_singleton_self _

/-! ## The next gate of a fresh plan -/

section

variable {sha256 : List UInt8 → JsString} {checkpoint : JsValue} {c : TaskCheckpoint}
  {limit : SafeNat} {p : IssuedPlan}

/-- The facts of the host agree with the checkpoint, and nothing blocks. -/
structure HostReady (c : TaskCheckpoint) (f : RuntimeFacts) : Prop where
  humanBlock : f.humanBlock = .none
  path : f.workspace.path = c.workspace.path
  gitSha : f.workspace.gitSha = c.workspace.gitSha
  branch : c.workspace.branch ≠ none → f.workspace.branch = c.workspace.branch

/-- The next gate is none, or one that is neither open nor completed. -/
def NextGateMissing (c : TaskCheckpoint) : Prop :=
  ∀ gate ∈ c.continuation.nextAction.gateId, gate ∉ c.gates.completed.1 ∧ gate ∉ c.gates.open.1

/-- The answer is `pass`, or that of one of the stages. -/
theorem firstFailing_mem (ss : List Stage) : firstFailing ss = decision .pass .safeToExecute ∨
    ∃ s ∈ ss, firstFailing ss = decision s.decision s.reason := by
  induction ss with
  | nil => exact .inl rfl
  | cons s ss ih =>
    unfold firstFailing
    split_ifs
    · refine ih.imp_right ?_
      rintro ⟨s', hs', h⟩
      exact ⟨s', List.mem_cons_of_mem _ hs', h⟩
    · exact .inr ⟨s, List.mem_cons_self, rfl⟩

/-- A stage with another decision has to hold. -/
theorem firstFailing_decision_cons {s : Stage} {ss : List Stage} {d : PreflightDecision}
    (h : s.decision ≠ d) : (firstFailing (s :: ss)).decision = d ↔
      s.holds = true ∧ (firstFailing ss).decision = d := by
  rw [firstFailing]
  split_ifs with hs
  · rw [and_iff_right hs]
  · exact iff_of_false h fun h => hs h.1

/-- A stage with this decision must not hold, if no later one has it. -/
theorem firstFailing_decision_last {s : Stage} {ss : List Stage} (hd : s.decision ≠ .pass)
    (h : ∀ t ∈ ss, t.decision ≠ s.decision) :
    (firstFailing (s :: ss)).decision = s.decision ↔ s.holds = false := by
  unfold firstFailing
  split_ifs with hs
  · refine iff_of_false (fun hrest => ?_) (by simp [hs])
    obtain hpass | ⟨t, ht, hrest'⟩ := firstFailing_mem ss
    · rw [hpass] at hrest
      exact hd hrest.symm
    · rw [hrest'] at hrest
      exact h t ht hrest
  · exact iff_of_true rfl (Bool.eq_false_of_not_eq_true hs)

/-- Only the gate makes a fresh plan stale. -/
theorem freshStages_stale {claimKey : TrimmedString} {f : RuntimeFacts} :
    ((firstFailing (freshStages c claimKey f)).decision = .staleReplan →
      (firstFailing (freshStages c claimKey f)).reasonCode = .gateNotOpen) ∧
    ((firstFailing (freshStages c claimKey f)).decision = .staleReplan ↔
      HostReady c f ∧ NextGateMissing c) := by
  constructor
  · intro h
    obtain hpass | ⟨s, hs, hanswer⟩ := firstFailing_mem (freshStages c claimKey f)
    · rw [hpass] at h
      cases h
    · rw [hanswer] at h ⊢
      have hreason : ∀ s ∈ freshStages c claimKey f, s.decision = .staleReplan →
          s.reason = .gateNotOpen := by simp [freshStages]
      exact hreason s hs h
  · unfold freshStages
    iterate 6 rw [firstFailing_decision_cons (by simp)]
    rw [firstFailing_decision_last (by simp) (by simp)]
    simp only [decide_eq_true_eq, decide_eq_false_iff_not, not_exists, not_and]
    constructor
    · intro ⟨hsafety, hhuman, hpath, hsha, hbranch, hcompleted, hopen⟩
      have hblock : f.humanBlock = .none := by cases h : f.humanBlock <;> simp_all
      exact ⟨⟨hblock, hpath, hsha, hbranch⟩, fun gate hg => ⟨hcompleted gate hg, hopen gate hg⟩⟩
    · intro ⟨hready, hmissing⟩
      exact ⟨by simp [hready.humanBlock], by simp [hready.humanBlock], hready.path, hready.gitSha,
        hready.branch, fun gate hg => (hmissing gate hg).1, fun gate hg => (hmissing gate hg).2⟩

/-- A claim key is a trimmed string. -/
theorem trimmed_tupleKey (hsha : ∀ m, HexDigest (sha256 m)) (tuple : List JsValue) :
    ∃ claimKey : TrimmedString, tupleKey sha256 tuple = claimKey.1 := by
  have hscheme : IsPrinting (js "sha256:") := by simp [IsPrinting, js, encode, utf16]
  have hdigest : IsPrinting (sha256 (claimMessage tuple)) := by
    intro u hu
    have hhex := hsha _ u hu
    omega
  exact ⟨⟨tupleKey sha256 tuple, List.append_ne_nil_of_left_ne_nil (by decide) _,
    (hscheme.append hdigest).trim_eq⟩, rfl⟩

/-- **When a fresh plan is stale.** A plan issued from the checkpoint is evaluated, and is
    stale iff the host is ready and the next gate of the checkpoint is missing. -/
theorem freshPlan_stale_iff {rawFacts : JsValue} {f : RuntimeFacts}
    (hsha : ∀ m, HexDigest (sha256 m)) (hc : validateTaskCheckpoint checkpoint = .ok c)
    (hp : Issues sha256 checkpoint limit p) (hf : normalizeFacts rawFacts = .ok f) :
    ∃ r, evaluateResumePreflight checkpoint p.toValue rawFacts = .ok r ∧
      (r.decision = .staleReplan → r.reasonCode = .gateNotOpen) ∧
      (r.decision = .staleReplan ↔ HostReady c f ∧ NextGateMissing c) := by
  obtain ⟨claimKey, hkey⟩ := trimmed_tupleKey hsha (hostAction c p.target)
  rw [← hp.claimKey_eq hc] at hkey
  obtain ⟨hreason, hstale⟩ := @freshStages_stale c claimKey f
  exact ⟨_, evaluateResumePreflight_issued hp hc hkey hf, hreason, hstale⟩

end

/-- The interrupted checkpoint, with no gate to go to next. -/
def gatelessCheckpoint : TaskCheckpoint :=
  { interruptedCheckpoint with
    continuation :=
      { interruptedCheckpoint.continuation with
        nextAction := ⟨checked "run_gate", none, none⟩ } }

/-- The plan to resume it. -/
def gatelessPlan : IssuedPlan :=
  .respawn (planBody gatelessCheckpoint (checked "codex") (checked "session-old")
    (tupleKey (fun _ => interruptedDigest) (hostAction gatelessCheckpoint none)) (checked 2))

theorem issues_gatelessPlan : Issues (fun _ => interruptedDigest) gatelessCheckpoint.toValue
    ⟨2, by decide⟩ gatelessPlan :=
  .respawn normalizeLimitOf_twoRetries (planSameWorkerRespawn_planned.mpr
    ⟨gatelessCheckpoint, interruption, ⟨2, by decide⟩, _, _, validateTaskCheckpoint_toValue _,
      normalizeTerminationResult_interruption, normalizeLimitOf_twoRetries, rfl, by decide, rfl,
      by decide, by decide, rfl, rfl, rfl⟩)

theorem hostReady_gateless (claimKey : TrimmedString) : HostReady gatelessCheckpoint
    ⟨interruptedCheckpoint.workspace, .none, .none, .none,
      ⟨[claimKey], List.nodup_singleton _⟩⟩ :=
  ⟨rfl, rfl, rfl, fun _ => rfl⟩

/-- A plan that has just been issued is stale. -/
theorem gatelessPlan_stale :
    Issues (fun _ => interruptedDigest) gatelessCheckpoint.toValue ⟨2, by decide⟩ gatelessPlan ∧
      ∃ f r, normalizeFacts (claimedFacts rerouteClaim.1) = .ok f ∧
        evaluateResumePreflight gatelessCheckpoint.toValue gatelessPlan.toValue
          (claimedFacts rerouteClaim.1) = .ok r ∧
        r.decision = .staleReplan ∧ r.reasonCode = .gateNotOpen := by
  have hkey : gatelessPlan.body.claimKey = respawnClaim.1 := rfl
  have h := evaluateResumePreflight_issued issues_gatelessPlan (validateTaskCheckpoint_toValue _)
    hkey (normalizeFacts_claimed rerouteClaim)
  have hstale := (@freshStages_stale gatelessCheckpoint respawnClaim _).2.mpr
    ⟨hostReady_gateless rerouteClaim, nofun⟩
  exact ⟨issues_gatelessPlan, _, _, normalizeFacts_claimed rerouteClaim, h, hstale,
    freshStages_stale.1 hstale⟩

theorem hexDigest_interrupted : HexDigest interruptedDigest := by
  have hall : interruptedDigest.all (fun u =>
      0x30 ≤ u.val ∧ u.val ≤ 0x39 ∨ 0x61 ≤ u.val ∧ u.val ≤ 0x66) = true := by decide +kernel
  simpa only [HexDigest, List.all_eq_true, decide_eq_true_eq] using hall

theorem freshPlan_stale_iff_gateless :
    ∃ r, evaluateResumePreflight gatelessCheckpoint.toValue gatelessPlan.toValue
        (claimedFacts rerouteClaim.1) = .ok r ∧
      (r.decision = .staleReplan → r.reasonCode = .gateNotOpen) ∧
      (r.decision = .staleReplan ↔ HostReady gatelessCheckpoint ⟨interruptedCheckpoint.workspace,
        .none, .none, .none, ⟨[rerouteClaim], List.nodup_singleton _⟩⟩ ∧
        NextGateMissing gatelessCheckpoint) :=
  freshPlan_stale_iff (fun _ => hexDigest_interrupted) (validateTaskCheckpoint_toValue _)
    issues_gatelessPlan (normalizeFacts_claimed rerouteClaim)

end Wns.Recovery
