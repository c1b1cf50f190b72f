import Wns.Recovery.Replan

/-!
# Acknowledgements of issued plans

What `acknowledgeSameWorkerRespawn` (`supervisor-policy/same-worker-respawn.mjs`, lines
104–122) and `acknowledgeCrossWorkerRecovery` (`supervisor-policy/cross-worker-recovery.mjs`,
lines 87–101) do with a plan that the planner next to them issued. A checkpoint is taken for
the one before the plan (`Matches`) or for the one after it (`Follows`); the comparison that
decides the second leaves the task out.

* `acknowledge_eq_ok`: when an acknowledgement succeeds, and with what.
* `acknowledge_installs`: the first acknowledgement installs the planned successor, and
  repeating it changes nothing.
* `acknowledge_task_iff`: when an acknowledgement that returns has been given a checkpoint
  of the task of the plan.
-/

namespace Wns.Recovery

open Ecma Routing

variable {sha256 : List UInt8 → JsString} {checkpoint : JsValue} {c : TaskCheckpoint}
  {limit : SafeNat} {p : IssuedPlan}

/-- The worker whose session a plan starts. -/
def IssuedPlan.receiver (p : IssuedPlan) : TrimmedString :=
  (p.target.map workerName).getD p.body.sourceWorkerId

/-- `d` is a checkpoint that the plan, acknowledged with `session`, may have led to, as far
    as a repeated acknowledgement compares. -/
structure Follows (p : IssuedPlan) (session : TrimmedString) (d : TaskCheckpoint) : Prop where
  revision : d.revision.1 = p.body.checkpointRevision.1 + 1
  worker : d.lastExecution.workerId = some p.receiver
  session : d.lastExecution.nativeSessionId = some session
  retryCount : d.continuation.retryCount.1 = p.body.retryCountAfter

/-- `d` is the checkpoint that the plan was issued from, as far as a first acknowledgement
    compares. -/
structure Matches (p : IssuedPlan) (d : TaskCheckpoint) : Prop where
  revision : d.revision = p.body.checkpointRevision
  task : d.task.id = p.body.taskId
  worker : d.lastExecution.workerId = some p.body.sourceWorkerId
  session : d.lastExecution.nativeSessionId = some p.body.sourceNativeSessionId
  retryCount : d.continuation.retryCount = p.body.retryCountBefore

theorem Matches.not_follows {session : TrimmedString} {d : TaskCheckpoint} (h : Matches p d) :
    ¬ Follows p session d := by
  intro hf
  have := hf.revision
  rw [h.revision] at this
  omega

/-- A successful acknowledgement: a repeated one returns the checkpoint, a first one updates
    it. -/
def Acknowledges (sha256 : List UInt8 → JsString) (p : IssuedPlan) (d : TaskCheckpoint)
    (s : JsValue) (e : TaskCheckpoint) : Prop :=
  ∃ session, s = ofString session ∧ session ≠ p.body.sourceNativeSessionId ∧
    (Follows p session d ∧ d = e ∨ Matches p d ∧
      p.body.claimKey = tupleKey sha256 (hostAction d p.target) ∧
      d.continuation.retryCount.1 + 1 ≤ p.body.retryLimit.1 ∧
      updateTaskCheckpoint d.toValue (acknowledgement d (ofString p.receiver) session
        (.nat (d.continuation.retryCount.1 + 1))) = .ok e)

/-! ## The two comparisons -/

theorem matches_iff {d : TaskCheckpoint} : Matches p d ↔
    JsValue.nat d.revision.1 = .nat p.body.checkpointRevision.1 ∧
      ofString d.task.id = ofString p.body.taskId ∧
      ofNullable d.lastExecution.workerId = ofString p.body.sourceWorkerId ∧
      ofNullable d.lastExecution.nativeSessionId = ofString p.body.sourceNativeSessionId ∧
      JsValue.nat d.continuation.retryCount.1 = .nat p.body.retryCountBefore.1 := by
  rw [ofString_inj]
  simp only [JsValue.nat_inj, ← ofNullable_some, ofNullable_inj, Subtype.val_inj]
  constructor
  · intro h
    exact ⟨h.revision, h.task, h.worker, h.session, h.retryCount⟩
  · rintro ⟨h1, h2, h3, h4, h5⟩
    exact ⟨h1, h2, h3, h4, h5⟩

theorem follows_iff {session : TrimmedString} {d : TaskCheckpoint} : Follows p session d ↔
    JsValue.nat d.revision.1 = .nat (p.body.checkpointRevision.1 + 1) ∧
      ofNullable d.lastExecution.workerId = ofString p.receiver ∧
      ofNullable d.lastExecution.nativeSessionId = ofString session ∧
      JsValue.nat d.continuation.retryCount.1 = .nat p.body.retryCountAfter := by
  simp only [JsValue.nat_inj, ← ofNullable_some, ofNullable_inj]
  constructor
  · intro h
    exact ⟨h.revision, h.worker, h.session, h.retryCount⟩
  · rintro ⟨h1, h2, h3, h4⟩
    exact ⟨h1, h2, h3, h4⟩

/-- The fences of a first acknowledgement, which the two modules share. -/
theorem firstAcknowledgement_iff (hafter : p.body.retryCountAfter = p.body.retryCountBefore.1 + 1)
    {d e : TaskCheckpoint} {session : TrimmedString} {tuple : List JsValue}
    (htuple : p.body.retryCountAfter = d.continuation.retryCount.1 + 1 →
      tuple = hostAction d p.target) :
    (JsValue.nat d.revision.1 = .nat p.body.checkpointRevision.1 ∧
      (ofString d.task.id = ofString p.body.taskId ∧
        ofNullable d.lastExecution.workerId = ofString p.body.sourceWorkerId ∧
        ofNullable d.lastExecution.nativeSessionId = ofString p.body.sourceNativeSessionId ∧
        JsValue.nat d.continuation.retryCount.1 = .nat p.body.retryCountBefore.1) ∧
      JsValue.str p.body.claimKey = .str (tupleKey sha256 tuple) ∧
      strictEq (.nat p.body.retryCountAfter) (.nat (p.body.retryCountBefore.1 + 1)) = true ∧
      decide (p.body.retryLimit.1 < d.continuation.retryCount.1 + 1) = false ∧
      updateTaskCheckpoint d.toValue (acknowledgement d (ofString p.receiver) session
        (.nat p.body.retryCountAfter)) = .ok e) ↔
    Matches p d ∧ p.body.claimKey = tupleKey sha256 (hostAction d p.target) ∧
      d.continuation.retryCount.1 + 1 ≤ p.body.retryLimit.1 ∧
      updateTaskCheckpoint d.toValue (acknowledgement d (ofString p.receiver) session
        (.nat (d.continuation.retryCount.1 + 1))) = .ok e := by
  rw [← and_assoc, ← matches_iff]
  refine and_congr_right fun hm => ?_
  have hretry : p.body.retryCountAfter = d.continuation.retryCount.1 + 1 := by
    rw [hafter, hm.retryCount]
  rw [htuple hretry, ← hafter, hretry]
  simp

/-- A checkpoint that follows the plan is returned; on another one, what succeeds is a first
    acknowledgement. -/
theorem repeated_or_first {session : TrimmedString} {d e : TaskCheckpoint} {repeated : Prop}
    [Decidable repeated] {first : Throws TaskCheckpoint} {fences : Prop}
    (hrepeated : repeated ↔ Follows p session d)
    (hfirst : first = .ok e ↔ Matches p d ∧ fences) :
    (if repeated then pure d else first) = .ok e ↔
      Follows p session d ∧ d = e ∨ Matches p d ∧ fences := by
  split_ifs with h
  · have hf := hrepeated.mp h
    have hm : ¬ Matches p d := fun h => h.not_follows hf
    simp only [pure_eq_ok, hf, hm, true_and, false_and, or_false]
  · have hf := mt hrepeated.mpr h
    rw [hfirst]
    simp only [hf, false_and, false_or]

theorem acknowledgeSameWorkerRespawn_eq_ok {p : RespawnPlan}
    (hafter : p.retryCountAfter = p.retryCountBefore.1 + 1) {d e : TaskCheckpoint} {s : JsValue} :
    acknowledgeSameWorkerRespawn sha256 d.toValue (RespawnPlan.toValue p) s = .ok e ↔
      Acknowledges sha256 (.respawn p) d s e := by
  have hcarried := RespawnPlan.carried p
  have hspawn : prop (RespawnPlan.props p) "planned" = .bool true ∧
      prop (RespawnPlan.props p) "action" = .str "spawn_same_worker" ∧
      prop (RespawnPlan.props p) "plan_version" = .nat 1 := by
    simp [RespawnPlan.props]
  unfold Acknowledges
  simp only [acknowledgeSameWorkerRespawn, RespawnPlan.toValue, bind_eq_ok,
    validateTaskCheckpoint_toValue, Except.ok.injEq, string_eq_ok, object_eq_ok,
    JsValue.obj.injEq, require_eq_ok, exists_pLift, exists_eq_left', exists_prop, and_self_left,
    hspawn, hcarried.sourceNativeSessionId, hcarried.checkpointRevision, hcarried.sourceWorkerId,
    hcarried.retryCountAfter, hcarried.retryCountBefore, hcarried.retryLimit, addOne_nat,
    exceeds_nat, ne_eq, ofString_inj, true_and]
  refine exists_congr fun session => and_congr_right fun _ => and_congr_right fun _ => ?_
  refine repeated_or_first ?_ ?_
  · rw [follows_iff]
    exact and_congr_right fun _ => and_left_comm
  · simp only [bind_eq_ok, require_eq_ok, exists_pLift, exists_prop, and_self_left,
      Except.ok.injEq, exists_eq_left', hcarried.sourceNativeSessionId,
      hcarried.checkpointRevision, hcarried.sourceWorkerId, hcarried.retryCountAfter,
      hcarried.retryCountBefore, hcarried.taskId, hcarried.claimKey]
    refine firstAcknowledgement_iff (p := .respawn p) hafter fun hretry => ?_
    simp only [IssuedPlan.body] at hretry
    simp [respawnTuple, hostAction, hretry, IssuedPlan.target]

theorem acknowledgeCrossWorkerRecovery_eq_ok {p : CrossWorkerPlan}
    (hafter : p.retryCountAfter = p.retryCountBefore.1 + 1)
    (htarget : ofEnum p.targetWorkerId ≠ ofString p.sourceWorkerId)
    {d e : TaskCheckpoint} {s : JsValue} :
    acknowledgeCrossWorkerRecovery sha256 d.toValue (.obj p.props) s = .ok e ↔
      Acknowledges sha256 (.crossWorker p) d s e := by
  have hcarried := p.carried
  have hspawn : prop p.props "planned" = .bool true ∧ prop p.props "plan_version" = .nat 1 ∧
      prop p.props "action" = .str "spawn_cross_worker" := by
    simp [CrossWorkerPlan.props]
  have hworker : prop p.props "target_worker_id" = ofString (workerName p.targetWorkerId) := by
    rw [ofString_workerName]
    simp [CrossWorkerPlan.props, PlanBody.source]
  have hne : strictEq (ofString p.sourceWorkerId) (ofString (workerName p.targetWorkerId)) =
      false := by
    rw [Bool.eq_false_iff, ofString_workerName]
    exact fun h => htarget (eq_of_strictEq h).symm
  have hknown : ofString (workerName p.targetWorkerId) ∈ workerValues := by
    rw [ofString_workerName]
    exact List.mem_map.mpr ⟨_, JsEnum.complete _, rfl⟩
  unfold Acknowledges
  simp only [acknowledgeCrossWorkerRecovery, bind_eq_ok, validateTaskCheckpoint_toValue,
    Except.ok.injEq, string_eq_ok, object_eq_ok, JsValue.obj.injEq, require_eq_ok, exists_pLift,
    exists_eq_left', exists_prop, and_self_left, hspawn, hworker, hne, hknown,
    hcarried.sourceNativeSessionId, hcarried.checkpointRevision, hcarried.sourceWorkerId,
    hcarried.retryCountAfter, hcarried.retryCountBefore, hcarried.retryLimit, addOne_nat,
    exceeds_nat, ne_eq, ofString_inj, true_and, Bool.false_eq_true, not_false_eq_true]
  refine exists_congr fun session => and_congr_right fun _ => and_congr_right fun _ => ?_
  refine repeated_or_first (follows_iff (p := .crossWorker p)).symm ?_
  simp only [bind_eq_ok, require_eq_ok, exists_pLift, exists_prop, and_self_left,
    Except.ok.injEq, exists_eq_left', hworker, hcarried.sourceNativeSessionId,
    hcarried.checkpointRevision, hcarried.sourceWorkerId, hcarried.retryCountAfter,
    hcarried.retryCountBefore, hcarried.taskId, hcarried.claimKey]
  refine firstAcknowledgement_iff (p := .crossWorker p) hafter fun hretry => ?_
  simp only [IssuedPlan.body] at hretry
  simp [crossWorkerTuple, hostAction, hretry, IssuedPlan.target, ofString_workerName]

/-- When the acknowledgement of an issued plan succeeds, and with what. -/
theorem acknowledge_eq_ok (hafter : p.body.retryCountAfter = p.body.retryCountBefore.1 + 1)
    (htarget : ∀ worker ∈ p.target, ofEnum worker ≠ ofString p.body.sourceWorkerId)
    {d e : TaskCheckpoint} {s : JsValue} :
    p.acknowledge sha256 d.toValue s = .ok e ↔ Acknowledges sha256 p d s e := by
  cases p with
  | respawn p => exact acknowledgeSameWorkerRespawn_eq_ok hafter
  | crossWorker p => exact acknowledgeCrossWorkerRecovery_eq_ok hafter (htarget _ rfl)

/-! ## Issued plans -/

theorem acknowledge_of_validate {session : JsValue}
    (hc : validateTaskCheckpoint checkpoint = .ok c) :
    p.acknowledge sha256 checkpoint session = p.acknowledge sha256 c.toValue session := by
  cases p <;>
    simp only [IssuedPlan.acknowledge, acknowledgeSameWorkerRespawn, acknowledgeCrossWorkerRecovery,
      hc, validateTaskCheckpoint_toValue]

theorem IssuedFrom.retryCountAfter (hp : IssuedFrom c p) :
    p.body.retryCountAfter = p.body.retryCountBefore.1 + 1 := by
  obtain ⟨session, limit, hbody⟩ := hp.body
  rw [hbody]
  rfl

/-- An issued plan matches the checkpoint it was issued from, whose retry count is under its
    limit. -/
theorem Issues.matches (hp : Issues sha256 checkpoint limit p)
    (hc : validateTaskCheckpoint checkpoint = .ok c) :
    Matches p c ∧ c.continuation.retryCount.1 + 1 ≤ p.body.retryLimit.1 := by
  obtain ⟨worker, session, -, -, -, hlt, hworker, hsession, -, hbody⟩ := hp.planned hc
  rw [hbody]
  refine ⟨⟨?_, ?_, ?_, ?_, ?_⟩, hlt⟩ <;> rw [hbody]
  · rfl
  · rfl
  · exact hworker
  · exact hsession
  · rfl

/-- The checkpoint that an acknowledgement installs follows the plan. -/
theorem follows_resumed (hp : Matches p c) (hafter : p.body.retryCountAfter =
    p.body.retryCountBefore.1 + 1) (session : TrimmedString)
    (hrev : c.revision.1 + 1 ≤ maxSafeInteger)
    (hretry : c.continuation.retryCount.1 + 1 ≤ maxSafeInteger) :
    Follows p session (resumed c p.receiver session hrev hretry) := by
  refine ⟨?_, rfl, rfl, ?_⟩
  · rw [← hp.revision]
    rfl
  · rw [hafter, ← hp.retryCount]
    rfl

/-- **An acknowledgement installs the receiver.** On the checkpoint of an issued plan it
    installs a session and changes nothing but the revision, the retry count and the last
    execution; the same acknowledgement on the result returns it, and one with another session
    throws. -/
theorem acknowledge_installs {session : TrimmedString}
    (hc : validateTaskCheckpoint checkpoint = .ok c) (hp : Issues sha256 checkpoint limit p)
    (hrev : c.revision.1 < maxSafeInteger)
    (hnew : c.lastExecution.nativeSessionId ≠ some session) :
    ∃ d, p.acknowledge sha256 checkpoint (ofString session) = .ok d ∧
      d.revision.1 = c.revision.1 + 1 ∧
      d.continuation.retryCount.1 = c.continuation.retryCount.1 + 1 ∧
      d.lastExecution = ⟨some p.receiver, some session, .running⟩ ∧
      d = { c with
        revision := d.revision
        lastExecution := d.lastExecution
        continuation := { c.continuation with retryCount := d.continuation.retryCount } } ∧
      (match p with
        | .respawn _ => c.lastExecution.workerId = some p.receiver
        | .crossWorker q => ofString p.receiver = ofEnum q.targetWorkerId) ∧
      p.acknowledge sha256 d.toValue (ofString session) = .ok d ∧
      ∀ other, other ≠ ofString session →
        ∃ error, p.acknowledge sha256 d.toValue other = .error error := by
  have hfrom := hp.issuedFrom hc
  have hafter := hfrom.retryCountAfter
  obtain ⟨hmatches, hlt⟩ := hp.matches hc
  have hretry : c.continuation.retryCount.1 + 1 ≤ maxSafeInteger := hlt.trans p.body.retryLimit.2
  have hne : session ≠ p.body.sourceNativeSessionId := by
    rintro rfl
    exact hnew hmatches.session
  have hfollows := follows_resumed hmatches hafter session hrev hretry
  refine ⟨resumed c p.receiver session hrev hretry, ?_, rfl, rfl, rfl, rfl, ?_, ?_, ?_⟩
  · rw [acknowledge_of_validate hc, acknowledge_eq_ok hafter hfrom.target]
    exact ⟨session, rfl, hne, .inr ⟨hmatches, hp.claimKey_eq hc, hlt,
      acknowledgement_resumed c p.receiver session hrev hretry⟩⟩
  · cases p with
    | respawn q => exact hfrom.source
    | crossWorker q => exact ofString_workerName q.targetWorkerId
  · exact (acknowledge_eq_ok hafter hfrom.target).mpr ⟨session, rfl, hne, .inl ⟨hfollows, rfl⟩⟩
  · intro other hother
    cases hack : p.acknowledge sha256 (resumed c p.receiver session hrev hretry).toValue other with
    | error e => exact ⟨e, rfl⟩
    | ok e =>
      exfalso
      obtain ⟨session', rfl, -, h⟩ := (acknowledge_eq_ok hafter hfrom.target).mp hack
      rcases h with ⟨h, -⟩ | ⟨h, -⟩
      · have := Option.some.inj (h.session.symm.trans hfollows.session)
        exact hother (by rw [this])
      · exact h.not_follows hfollows

theorem acknowledge_installs_interrupted :
    ∃ d, (IssuedPlan.respawn interruptedPlan).acknowledge (fun _ => interruptedDigest)
      interruptedCheckpoint.toValue (ofString ⟨"session-new", by decide⟩) = .ok d ∧
      d.revision.1 = 5 := by
  have hnew : interruptedCheckpoint.lastExecution.nativeSessionId ≠
      some ⟨"session-new", by decide⟩ := by decide
  obtain ⟨d, hd, hrev, -⟩ := acknowledge_installs
    (validateTaskCheckpoint_toValue interruptedCheckpoint)
    (.respawn normalizeLimitOf_twoRetries planSameWorkerRespawn_interrupted) (by decide) hnew
  exact ⟨d, hd, hrev⟩

/-! ## Checkpoints of other tasks -/

/-- **When another task is told apart.** A checkpoint of another task is told apart from those
    of the plan, unless its revision, its retry count and its running session are those of the
    planned successor. -/
theorem acknowledge_task_iff {value s : JsValue} {d : TaskCheckpoint}
    (hd : validateTaskCheckpoint value = .ok d) (hp : Issues sha256 checkpoint limit p) :
    ((∃ e, p.acknowledge sha256 value s = .ok e) → d.task.id = p.body.taskId) ↔
      (d.task.id = p.body.taskId ∨ ∀ session, s = ofString session →
        session = p.body.sourceNativeSessionId ∨ ¬ Follows p session d) := by
  obtain ⟨c, hc⟩ := hp.valid
  have hfrom := hp.issuedFrom hc
  rw [acknowledge_of_validate hd]
  simp only [acknowledge_eq_ok hfrom.retryCountAfter hfrom.target]
  constructor
  · intro h
    by_contra! hno
    obtain ⟨htask, session, hs, hne, hfollows⟩ := hno
    exact htask (h ⟨d, session, hs, hne, .inl ⟨hfollows, rfl⟩⟩)
  · rintro (htask | hno) ⟨e, session, hs, hne, h⟩
    · exact htask
    · rcases h with ⟨hfollows, -⟩ | ⟨hmatches, -⟩
      · exact absurd hfollows ((hno session hs).resolve_left hne)
      · exact hmatches.task

/-- The successor of the interrupted checkpoint, in another task. -/
def otherTask : TaskCheckpoint :=
  { resumedCheckpoint with task := { resumedCheckpoint.task with id := ⟨"task-2", by decide⟩ } }

theorem acknowledge_task_iff_interrupted :
    otherTask.task.id ≠ interruptedPlan.taskId ∧
      ¬ ∃ e, (IssuedPlan.respawn interruptedPlan).acknowledge (fun _ => interruptedDigest)
        otherTask.toValue (ofString ⟨"session-next", by decide⟩) = .ok e := by
  have htask : otherTask.task.id ≠ interruptedPlan.taskId := by decide
  refine ⟨htask, fun hack => htask ?_⟩
  refine (acknowledge_task_iff (validateTaskCheckpoint_toValue otherTask)
    (.respawn normalizeLimitOf_twoRetries planSameWorkerRespawn_interrupted)).mpr (.inr ?_) hack
  intro session hs
  obtain rfl := ofString_inj.mp hs
  exact .inr fun hfollows => absurd hfollows.session (by decide)

/-- The acknowledgement of a plan of `task-1` returns a checkpoint of `task-2`. -/
theorem acknowledge_otherTask :
    Issues (fun _ => interruptedDigest) interruptedCheckpoint.toValue ⟨2, by decide⟩
        (.respawn interruptedPlan) ∧
      validateTaskCheckpoint otherTask.toValue = .ok otherTask ∧
      acknowledgeSameWorkerRespawn (fun _ => interruptedDigest) otherTask.toValue
        (RespawnPlan.toValue interruptedPlan) (.str "session-new") = .ok otherTask ∧
      prop (RespawnPlan.props interruptedPlan) "task_id" = .str "task-1" ∧
      otherTask.task.id.1 = js "task-2" := by
  refine ⟨.respawn normalizeLimitOf_twoRetries planSameWorkerRespawn_interrupted,
    validateTaskCheckpoint_toValue _, ?_, rfl, rfl⟩
  have hfollows : Follows (.respawn interruptedPlan) ⟨"session-new", by decide⟩ otherTask :=
    ⟨rfl, rfl, rfl, rfl⟩
  exact (acknowledge_eq_ok (p := .respawn interruptedPlan) rfl nofun).mpr
    ⟨⟨"session-new", by decide⟩, rfl, by decide, .inl ⟨hfollows, rfl⟩⟩

end Wns.Recovery
