import Wns.Common.Run
import Wns.Recovery.ResumePreflight

/-!
# Runs of recovery

A checkpoint moves by updates and acknowledgements. Every step that changes it raises its
revision, so a plan is good for one transition at most; and a recovery step raises the
retry count as well, up to the limit of its plan.

* `recovery_at_most_once`: once the checkpoint has changed, a plan issued before neither
  passes the preflight nor advances the checkpoint.
* `recovery_bounded`: the transitions of a run of recovery steps are bounded by the limit,
  their claim keys are distinct, and the work itself stays as it was.
-/

namespace Wns.Recovery

open Ecma Routing

/-! ## Issued plans -/

/-- A plan of either kind. -/
inductive IssuedPlan
  | respawn (p : RespawnPlan)
  | crossWorker (p : CrossWorkerPlan)

namespace IssuedPlan

def body : IssuedPlan → PlanBody
  | .respawn p => p
  | .crossWorker p => p.toPlanBody

def props : IssuedPlan → Props
  | .respawn p => RespawnPlan.props p
  | .crossWorker p => p.props

def toValue (p : IssuedPlan) : JsValue := .obj p.props

/-- The tuple that the claim key of the plan hashes. -/
def tuple : IssuedPlan → List JsValue
  | .respawn p => [.nat 1, ofString p.taskId, .nat p.checkpointRevision.1,
      ofString p.sourceWorkerId, ofString p.sourceNativeSessionId, .nat p.retryCountAfter]
  | .crossWorker p => [.nat 1, ofString p.taskId, .nat p.checkpointRevision.1,
      ofString p.sourceWorkerId, ofString p.sourceNativeSessionId, ofEnum p.targetWorkerId,
      .nat p.retryCountAfter]

/-- The worker that a plan spawns, if it is not the source. -/
def target : IssuedPlan → Option Worker
  | .respawn _ => none
  | .crossWorker p => some p.targetWorkerId

/-- The properties of an issued plan carry its body. -/
theorem carried (p : IssuedPlan) : p.body.CarriedBy p.props := by
  cases p with
  | respawn p => exact RespawnPlan.carried p
  | crossWorker p => exact p.carried

/-- Equal tuples name the same revision. -/
theorem revision_eq_of_tuple {p q : IssuedPlan} (h : List.Forall₂ JsonEq p.tuple q.tuple) :
    p.body.checkpointRevision.1 = q.body.checkpointRevision.1 := by
  cases p <;> cases q <;> simp [tuple] at h <;> exact h.2.1

theorem isJson_tuple (p : IssuedPlan) : ∀ v ∈ p.tuple, IsJson v := by
  cases p <;> simp [tuple]

end IssuedPlan

/-- The tuple of the host action that spawns `target`, or the source again, from `c`. -/
def hostAction (c : TaskCheckpoint) (target : Option Worker) : List JsValue :=
  [.nat 1, ofString c.task.id, .nat c.revision.1, ofNullable c.lastExecution.workerId,
    ofNullable c.lastExecution.nativeSessionId] ++ target.toList.map ofEnum ++
    [.nat (c.continuation.retryCount.1 + 1)]

/-- The tuple of a plan is that of its host action. -/
theorem IssuedPlan.tuple_eq {p : IssuedPlan} {c : TaskCheckpoint} {worker session : TrimmedString}
    {key : JsString} {limit : SafeNat} (hworker : c.lastExecution.workerId = some worker)
    (hsession : c.lastExecution.nativeSessionId = some session)
    (hbody : p.body = planBody c worker session key limit) :
    p.tuple = hostAction c p.target := by
  cases p <;> simp only [body] at hbody <;>
    simp [tuple, hostAction, target, hworker, hsession, hbody, planBody]

section

variable (sha256 : List UInt8 → JsString)

/-- The plans that one of the two planners issues from a checkpoint under a limit. -/
inductive Issues (checkpoint : JsValue) : SafeNat → IssuedPlan → Prop
  | respawn {terminationResult policy : JsValue} {limit : SafeNat} {p : RespawnPlan}
      (hlimit : normalizeLimitOf "max_retry_count" policy = .ok limit)
      (h : planSameWorkerRespawn sha256 checkpoint terminationResult policy = .ok (.planned p)) :
      Issues checkpoint limit (.respawn p)
  | crossWorker {terminationResult task workerState routingPolicy policy : JsValue}
      {limit : SafeNat} {p : CrossWorkerPlan}
      (hlimit : normalizeLimitOf "max_reroute_count" policy = .ok limit)
      (h : planCrossWorkerRecovery sha256 checkpoint terminationResult task workerState
        routingPolicy policy = .ok (.planned p)) : Issues checkpoint limit (.crossWorker p)

/-- The acknowledgement that goes with a plan. -/
def IssuedPlan.acknowledge (p : IssuedPlan) (checkpoint session : JsValue) :
    Throws TaskCheckpoint :=
  match p with
  | .respawn _ => acknowledgeSameWorkerRespawn sha256 checkpoint p.toValue session
  | .crossWorker _ => acknowledgeCrossWorkerRecovery sha256 checkpoint p.toValue session

/-- What can happen to a checkpoint. -/
inductive Event
  | update (changes : JsValue)
  | acknowledgeSameWorker (plan session : JsValue)
  | acknowledgeCrossWorker (plan session : JsValue)

/-- The checkpoint after an event. -/
def Event.apply (c : TaskCheckpoint) : Event → Throws TaskCheckpoint
  | .update changes => updateTaskCheckpoint c.toValue changes
  | .acknowledgeSameWorker plan session =>
    acknowledgeSameWorkerRespawn sha256 c.toValue plan session
  | .acknowledgeCrossWorker plan session =>
    acknowledgeCrossWorkerRecovery sha256 c.toValue plan session

/-- A successful event. -/
def Succeeds (c : TaskCheckpoint) (e : Event) (d : TaskCheckpoint) : Prop :=
  e.apply sha256 c = .ok d

variable {sha256 : List UInt8 → JsString}

/-! ## At most once -/

/-- What the two planners have in common: the fences that the checkpoint has passed, and the
    body of the plan. -/
theorem Issues.planned {checkpoint : JsValue} {limit : SafeNat} {p : IssuedPlan}
    {c : TaskCheckpoint} (h : Issues sha256 checkpoint limit p)
    (hc : validateTaskCheckpoint checkpoint = .ok c) :
    ∃ worker session, c.task.status = .open ∧ c.continuation.safeToResume = true ∧
      ¬ approvalBlocks c ∧ c.continuation.retryCount.1 < limit.1 ∧
      c.lastExecution.workerId = some worker ∧ c.lastExecution.nativeSessionId = some session ∧
      (∀ target ∈ p.target, ofEnum target ≠ ofString worker) ∧
      p.body = planBody c worker session (tupleKey sha256 (hostAction c p.target)) limit := by
  cases h with
  | respawn hlimit h =>
    obtain ⟨state, result, limit', worker, session, hstate, -, hlimit', hopen, -, hsafe, happroval,
      hlt, hworker, hsession, rfl⟩ := planSameWorkerRespawn_planned.mp h
    obtain rfl := Except.ok.inj (hc.symm.trans hstate)
    obtain rfl := Except.ok.inj (hlimit.symm.trans hlimit')
    refine ⟨worker, session, hopen, hsafe, happroval, hlt, hworker, hsession, nofun, ?_⟩
    simp [IssuedPlan.body, IssuedPlan.target, hostAction, respawnTuple, hworker, hsession]
  | crossWorker hlimit h =>
    obtain ⟨state, result, limit', worker, session, target, hstate, -, hlimit', hopen, -, hsafe,
      happroval, hlt, hworker, hsession, hne, -, rfl⟩ := planCrossWorkerRecovery_planned h
    obtain rfl := Except.ok.inj (hc.symm.trans hstate)
    obtain rfl := Except.ok.inj (hlimit.symm.trans hlimit')
    refine ⟨worker, session, hopen, hsafe, happroval, hlt, hworker, hsession, ?_, ?_⟩
    · intro other hother
      obtain rfl := Option.mem_some.mp hother
      exact hne
    · simp [IssuedPlan.body, IssuedPlan.target, hostAction, crossWorkerTuple, hworker, hsession]

theorem Issues.valid {checkpoint : JsValue} {limit : SafeNat} {p : IssuedPlan}
    (h : Issues sha256 checkpoint limit p) : ∃ c, validateTaskCheckpoint checkpoint = .ok c := by
  cases h with
  | respawn _ h =>
    obtain ⟨c, _, _, _, _, hc, -⟩ := planSameWorkerRespawn_planned.mp h
    exact ⟨c, hc⟩
  | crossWorker _ h =>
    obtain ⟨c, _, _, _, _, _, hc, -⟩ := planCrossWorkerRecovery_planned h
    exact ⟨c, hc⟩

/-- What an issued plan records of its checkpoint. -/
theorem Issues.body_eq {checkpoint : JsValue} {limit : SafeNat} {p : IssuedPlan}
    {c : TaskCheckpoint} (h : Issues sha256 checkpoint limit p)
    (hc : validateTaskCheckpoint checkpoint = .ok c) :
    p.body.checkpointRevision = c.revision ∧ c.continuation.retryCount.1 < limit.1 ∧
      p.body.claimKey = tupleKey sha256 p.tuple := by
  obtain ⟨worker, session, -, -, -, hlt, hworker, hsession, -, hbody⟩ := h.planned hc
  rw [IssuedPlan.tuple_eq hworker hsession hbody, hbody]
  exact ⟨rfl, hlt, rfl⟩

/-- A successful event leaves the checkpoint as it is, or raises its revision by one. -/
theorem Succeeds.eq_or_revision {c d : TaskCheckpoint} {e : Event} (h : Succeeds sha256 c e d) :
    d = c ∨ d.revision.1 = c.revision.1 + 1 := by
  cases e with
  | update changes =>
    exact .inr (updateTaskCheckpoint_revision (validateTaskCheckpoint_toValue c) h)
  | acknowledgeSameWorker plan session =>
    obtain ⟨ps, rfl⟩ := exists_props_of_acknowledgeSameWorkerRespawn h
    exact (acknowledgeSameWorkerRespawn_ok h).imp And.left fun h => h.2.1
  | acknowledgeCrossWorker plan session =>
    obtain ⟨ps, rfl⟩ := exists_props_of_acknowledgeCrossWorkerRecovery h
    exact (acknowledgeCrossWorkerRecovery_ok h).imp And.left fun h => h.2.1

theorem Succeeds.revision_le {c : TaskCheckpoint} {e : Event} {d : TaskCheckpoint}
    (h : Succeeds sha256 c e d) : c.revision.1 ≤ d.revision.1 := by
  rcases h.eq_or_revision with rfl | h <;> omega

/-- The preflight answers `stale_replan` when the revision has moved on. -/
theorem preflight_stale {checkpoint rawPlan rawFacts : JsValue} {c : TaskCheckpoint}
    {plan : Props} {r : Preflight} {n : ℕ} (hc : validateTaskCheckpoint checkpoint = .ok c)
    (hplan : rawPlan = .obj plan) (hn : prop plan "checkpoint_revision" = .nat n)
    (hne : n ≠ c.revision.1)
    (h : evaluateResumePreflight checkpoint rawPlan rawFacts = .ok r) :
    r.decision = .staleReplan ∧ r.executionAllowed = false := by
  have hrev : prop plan "checkpoint_revision" ≠ .nat c.revision.1 := by
    rw [hn, ne_eq, JsValue.nat_inj]
    exact hne
  rw [evaluateResumePreflight, hc, ok_bind] at h
  obtain ⟨plan', hplan', h⟩ := bind_eq_ok.mp h
  obtain ⟨f, -, h⟩ := bind_eq_ok.mp h
  obtain rfl := JsValue.obj.inj (hplan.symm.trans (normalizePlan_eq_ok.mp hplan').1)
  by_cases htask : prop plan "task_id" ≠ ofString c.task.id
  · rw [if_pos htask] at h
    obtain rfl := pure_eq_ok.mp h
    exact ⟨rfl, rfl⟩
  · rw [if_neg htask, if_pos hrev] at h
    obtain rfl := pure_eq_ok.mp h
    exact ⟨rfl, rfl⟩

/-- Acknowledging a plan on a checkpoint of another revision changes nothing. -/
theorem IssuedPlan.acknowledge_stale {p : IssuedPlan} {d e : TaskCheckpoint} {session : JsValue}
    (hne : p.body.checkpointRevision ≠ d.revision)
    (h : p.acknowledge sha256 d.toValue session = .ok e) : e = d := by
  have hrev := p.carried.checkpointRevision
  have hne' : prop p.props "checkpoint_revision" ≠ .nat d.revision.1 := by
    rw [hrev, ne_eq, JsValue.nat_inj]
    exact fun h => hne (Subtype.ext h)
  cases p with
  | respawn p => exact ((acknowledgeSameWorkerRespawn_ok h).resolve_right fun h => hne' h.1).1
  | crossWorker p => exact ((acknowledgeCrossWorkerRecovery_ok h).resolve_right fun h => hne' h.1).1

/-- **Recovery happens at most once.** When a run of events from `c` has changed the
    checkpoint, a plan issued from `c` does not pass the preflight any more, and its
    acknowledgement throws or leaves the checkpoint as it is. -/
theorem recovery_at_most_once {checkpoint : JsValue} {limit : SafeNat} {p : IssuedPlan}
    {c x y d : TaskCheckpoint} {before after : List Event} {e : Event}
    (hc : validateTaskCheckpoint checkpoint = .ok c) (hp : Issues sha256 checkpoint limit p)
    (hbefore : Run (Succeeds sha256) c before x) (he : Succeeds sha256 x e y) (hchange : y ≠ x)
    (hafter : Run (Succeeds sha256) y after d) :
    (∀ facts r, evaluateResumePreflight d.toValue p.toValue facts = .ok r →
      r.decision ≠ .pass ∧ r.executionAllowed = false) ∧
    ∀ session d', p.acknowledge sha256 d.toValue session = .ok d' → d' = d := by
  -- the change raised the revision, and no event lowers it
  have hcx := hbefore.le (f := fun c => c.revision.1) fun _ _ _ => Succeeds.revision_le
  have hxy := he.eq_or_revision.resolve_left hchange
  have hyd := hafter.le (f := fun c => c.revision.1) fun _ _ _ => Succeeds.revision_le
  have hrev : p.body.checkpointRevision.1 = c.revision.1 :=
    congrArg Subtype.val (hp.body_eq hc).1
  refine ⟨fun facts r hr => ?_, fun session d' h => ?_⟩
  · obtain ⟨hstale, hno⟩ := preflight_stale (validateTaskCheckpoint_toValue d) rfl
      p.carried.checkpointRevision (by omega) hr
    exact ⟨by simp [hstale], hno⟩
  · refine IssuedPlan.acknowledge_stale (fun heq => ?_) h
    have := congrArg Subtype.val heq
    omega

theorem recovery_at_most_once_interrupted :
    (∀ facts r, evaluateResumePreflight resumedCheckpoint.toValue
        (IssuedPlan.respawn interruptedPlan).toValue facts = .ok r →
      r.decision ≠ .pass ∧ r.executionAllowed = false) ∧
    ∀ session d', (IssuedPlan.respawn interruptedPlan).acknowledge (fun _ => interruptedDigest)
      resumedCheckpoint.toValue session = .ok d' → d' = resumedCheckpoint :=
  recovery_at_most_once (validateTaskCheckpoint_toValue interruptedCheckpoint)
    (.respawn normalizeLimitOf_twoRetries planSameWorkerRespawn_interrupted) (.nil _)
    (e := .acknowledgeSameWorker (RespawnPlan.toValue interruptedPlan)
      (ofString ⟨"session-new", by decide⟩))
    acknowledgeSameWorkerRespawn_interrupted
    (fun h => absurd (congrArg (fun c => c.revision.1) h) (by decide)) (.nil _)

/-! ## Bounded recovery -/

variable (sha256) in
/-- A recovery step: a plan is issued from the checkpoint under a limit of at most `L`, and
    its acknowledgement by some session succeeds. -/
def RecoveryStep (L : ℕ) (c : TaskCheckpoint) (p : IssuedPlan) (d : TaskCheckpoint) : Prop :=
  ∃ limit session, limit.1 ≤ L ∧ Issues sha256 c.toValue limit p ∧
    p.acknowledge sha256 c.toValue session = .ok d

/-- What a recovery leaves alone. -/
structure SameWork (c d : TaskCheckpoint) : Prop where
  task : d.task = c.task
  gates : d.gates = c.gates
  workspace : d.workspace = c.workspace
  constraints : d.constraints = c.constraints
  evidenceRefs : d.evidenceRefs = c.evidenceRefs
  receiptRefs : d.receiptRefs = c.receiptRefs
  handoffRefs : d.handoffRefs = c.handoffRefs
  semanticProgress : d.semanticProgress = c.semanticProgress
  nextAction : d.continuation.nextAction = c.continuation.nextAction
  resumeCursor : d.continuation.resumeCursor = c.continuation.resumeCursor
  safeToResume : d.continuation.safeToResume = c.continuation.safeToResume

theorem SameWork.refl (c : TaskCheckpoint) : SameWork c c :=
  ⟨rfl, rfl, rfl, rfl, rfl, rfl, rfl, rfl, rfl, rfl, rfl⟩

theorem SameWork.trans {c d e : TaskCheckpoint} (h : SameWork c d) (h' : SameWork d e) :
    SameWork c e :=
  ⟨h'.task.trans h.task, h'.gates.trans h.gates, h'.workspace.trans h.workspace,
    h'.constraints.trans h.constraints, h'.evidenceRefs.trans h.evidenceRefs,
    h'.receiptRefs.trans h.receiptRefs, h'.handoffRefs.trans h.handoffRefs,
    h'.semanticProgress.trans h.semanticProgress, h'.nextAction.trans h.nextAction,
    h'.resumeCursor.trans h.resumeCursor, h'.safeToResume.trans h.safeToResume⟩

variable (sha256) in
/-- What a recovery step does. -/
structure Advances (L : ℕ) (c : TaskCheckpoint) (p : IssuedPlan) (d : TaskCheckpoint) : Prop where
  planRevision : p.body.checkpointRevision = c.revision
  claimKey : p.body.claimKey = tupleKey sha256 p.tuple
  underLimit : c.continuation.retryCount.1 < L
  revision : d.revision.1 = c.revision.1 + 1
  retryCount : d.continuation.retryCount.1 = c.continuation.retryCount.1 + 1
  sameWork : SameWork c d

/-- Acknowledging a plan on the revision it was issued from is not a duplicate. -/
theorem IssuedPlan.acknowledge_ok {p : IssuedPlan} {c d : TaskCheckpoint} {session : JsValue}
    (hrev : p.body.checkpointRevision = c.revision)
    (h : p.acknowledge sha256 c.toValue session = .ok d) :
    d.revision.1 = c.revision.1 + 1 ∧
      d.continuation.retryCount.1 = c.continuation.retryCount.1 + 1 ∧ SameWork c d := by
  have hprop := p.carried.checkpointRevision
  rw [hrev] at hprop
  have hnodup : addOne (prop p.props "checkpoint_revision") ≠ .ok (.nat c.revision.1) := by
    rw [hprop, addOne_nat, ne_eq, Except.ok.injEq, JsValue.nat_inj]
    omega
  cases p with
  | respawn p =>
    obtain ⟨-, h1, h2, session, -, hd⟩ :=
      (acknowledgeSameWorkerRespawn_ok h).resolve_left fun h => hnodup h.2
    refine ⟨h1, h2, ?_⟩
    rw [hd]
    constructor <;> rfl
  | crossWorker p =>
    obtain ⟨-, h1, h2, session, -, hd⟩ :=
      (acknowledgeCrossWorkerRecovery_ok h).resolve_left fun h => hnodup h.2
    refine ⟨h1, h2, ?_⟩
    rw [hd]
    constructor <;> rfl

theorem RecoveryStep.advances {L : ℕ} {c d : TaskCheckpoint} {p : IssuedPlan}
    (h : RecoveryStep sha256 L c p d) : Advances sha256 L c p d := by
  obtain ⟨limit, session, hle, hissued, hack⟩ := h
  obtain ⟨hrev, hlt, hkey⟩ := hissued.body_eq (validateTaskCheckpoint_toValue c)
  obtain ⟨h1, h2, h3⟩ := IssuedPlan.acknowledge_ok hrev hack
  exact ⟨hrev, hkey, by omega, h1, h2, h3⟩

/-- **Recovery is bounded by the limit** and leaves a trail of distinct claim keys, as far as
    the hash has no collision on what the run hashes. -/
theorem recovery_bounded {L : ℕ} {c d : TaskCheckpoint} {plans : List IssuedPlan}
    (h : Run (RecoveryStep sha256 L) c plans d)
    (hsha : Set.InjOn sha256 {m | ∃ p ∈ plans, m = claimMessage p.tuple}) :
    plans.length ≤ L - c.continuation.retryCount.1 ∧
      d.continuation.retryCount.1 ≤ max L c.continuation.retryCount.1 ∧
      (plans.map fun p => p.body.claimKey).Nodup ∧ SameWork c d := by
  have hcount := h.length_eq (f := fun c => c.continuation.retryCount.1)
    fun _ _ _ hs => hs.advances.retryCount
  have hbound := h.invariant
    (P := fun s => s.continuation.retryCount.1 ≤ max L c.continuation.retryCount.1)
    (fun s p t hs _ => by
      have := hs.advances.underLimit
      have := hs.advances.retryCount
      omega)
    (le_max_right _ _)
  have hwork := h.rel SameWork.refl (fun _ _ _ => SameWork.trans)
    fun _ _ _ hs => hs.advances.sameWork
  have hpairs := (h.pairwise_lt (f := fun c => c.revision.1)
    (g := fun p => p.body.checkpointRevision.1)
    (fun _ _ _ hs => congrArg Subtype.val hs.advances.planRevision)
    (fun _ _ _ hs => by have := hs.advances.revision; omega)).1
  have hkeys := h.forall_label (P := fun p => p.body.claimKey = tupleKey sha256 p.tuple)
    fun _ _ _ hs => hs.advances.claimKey
  refine ⟨by omega, hbound, ?_, hwork⟩
  rw [List.Nodup, List.pairwise_map]
  refine hpairs.imp_of_mem fun {p q} hp hq hlt heq => ?_
  rw [hkeys p hp, hkeys q hq, tupleKey_inj] at heq
  have hmessage := hsha ⟨p, hp, rfl⟩ ⟨q, hq, rfl⟩ heq
  have hrev := IssuedPlan.revision_eq_of_tuple
    (jsonEq_of_claimMessage p.isJson_tuple q.isJson_tuple hmessage)
  omega

/-- A respawn that is planned and acknowledged is a recovery step. -/
theorem RecoveryStep.respawn {L : ℕ} {c : TaskCheckpoint} {terminationResult policy : JsValue}
    {result : TerminationResult} {limit : SafeNat} {worker session newSession : TrimmedString}
    (hresult : normalizeTerminationResult terminationResult = .ok result)
    (hpolicy : normalizeLimitOf "max_retry_count" policy = .ok limit) (hle : limit.1 ≤ L)
    (hopen : c.task.status = .open) (heligible : respawnEligible result)
    (hsafe : c.continuation.safeToResume = true) (happroval : ¬ approvalBlocks c)
    (hlimit : c.continuation.retryCount.1 < limit.1)
    (hworker : c.lastExecution.workerId = some worker)
    (hsession : c.lastExecution.nativeSessionId = some session) (hnew : newSession ≠ session)
    (hrev : c.revision.1 + 1 ≤ maxSafeInteger) :
    RecoveryStep sha256 L c (.respawn (planBody c worker session (tupleKey sha256 (respawnTuple
      c.task.id c.revision worker session (.nat (c.continuation.retryCount.1 + 1)))) limit))
      (resumed c worker newSession hrev (by have := limit.2; omega)) :=
  ⟨limit, ofString newSession, hle, .respawn hpolicy (planSameWorkerRespawn_planned.mpr
    ⟨c, result, limit, worker, session, validateTaskCheckpoint_toValue c, hresult, hpolicy, hopen,
      heligible, hsafe, happroval, hlimit, hworker, hsession, rfl⟩),
    acknowledgeSameWorkerRespawn_planned hworker hsession hlimit hnew hrev⟩

end

/-! ## The interrupted session, recovered twice -/

/-- SHA-256 on the claims of the two recoveries. -/
def recoveryDigest (message : List UInt8) : JsString :=
  if message = claimMessage (IssuedPlan.tuple (.respawn interruptedPlan)) then interruptedDigest
  else "893f59b45fab08ad423163313ee446ae1e20b34eb03985d70aa7ba1721167b00"

/-- The plan to resume `session` from `c` with two retries. -/
def retryPlan (c : TaskCheckpoint) (session : TrimmedString) : RespawnPlan :=
  planBody c (checked "codex") session (tupleKey recoveryDigest (respawnTuple c.task.id
    c.revision (some (checked "codex")) session (.nat (c.continuation.retryCount.1 + 1))))
    (checked 2)

/-- The resumed checkpoint once its session has been replaced again. -/
def secondCheckpoint : TaskCheckpoint :=
  resumed resumedCheckpoint (checked "codex") (checked "session-last") (by decide) (by decide)

/-- The two plans. -/
def recoveryPlans : List IssuedPlan :=
  [.respawn (retryPlan interruptedCheckpoint (checked "session-old")),
    .respawn (retryPlan resumedCheckpoint (checked "session-new"))]

theorem run_recoveryPlans :
    Run (RecoveryStep recoveryDigest 2) interruptedCheckpoint recoveryPlans secondCheckpoint :=
  .cons (.respawn normalizeTerminationResult_interruption normalizeLimitOf_twoRetries le_rfl rfl
      (by decide) rfl (by decide) (by decide) rfl rfl (by decide) (by decide))
    (.single (.respawn normalizeTerminationResult_interruption normalizeLimitOf_twoRetries le_rfl
      rfl (by decide) rfl (by decide) (by decide) rfl rfl (by decide) (by decide)))

theorem tuple_retryPlan_interrupted :
    IssuedPlan.tuple (.respawn (retryPlan interruptedCheckpoint ⟨"session-old", by decide⟩)) =
      IssuedPlan.tuple (.respawn interruptedPlan) := by
  simp [IssuedPlan.tuple, retryPlan, interruptedPlan, planBody]

theorem recoveryDigest_injOn :
    Set.InjOn recoveryDigest {m | ∃ p ∈ recoveryPlans, m = claimMessage p.tuple} := by
  have hne : interruptedDigest ≠
      js "893f59b45fab08ad423163313ee446ae1e20b34eb03985d70aa7ba1721167b00" := by
    simp [interruptedDigest]
  rintro m ⟨p, hp, rfl⟩ m' ⟨q, hq, rfl⟩ h
  simp only [recoveryPlans, List.mem_cons, List.not_mem_nil, or_false] at hp hq
  simp only [recoveryDigest] at h
  rcases hp with rfl | rfl <;> rcases hq with rfl | rfl
  · rfl
  · rw [tuple_retryPlan_interrupted, if_pos rfl] at h
    split_ifs at h with hm
    · rw [hm, tuple_retryPlan_interrupted]
    · exact (hne h).elim
  · rw [tuple_retryPlan_interrupted, if_pos rfl] at h
    split_ifs at h with hm
    · rw [hm, tuple_retryPlan_interrupted]
    · exact (hne h.symm).elim
  · rfl

theorem recovery_bounded_interrupted :
    recoveryPlans.length ≤ 2 - interruptedCheckpoint.continuation.retryCount.1 ∧
      secondCheckpoint.continuation.retryCount.1 ≤
        max 2 interruptedCheckpoint.continuation.retryCount.1 ∧
      (recoveryPlans.map fun p => p.body.claimKey).Nodup ∧
      SameWork interruptedCheckpoint secondCheckpoint :=
  recovery_bounded run_recoveryPlans recoveryDigest_injOn

end Wns.Recovery
