import Wns.Common.Run
import Wns.Routing.Monotone
import Wns.Routing.Quota

/-!
# Failing over

`selectWorker` announces a fallback chain, but it does not run it: the Supervisor marks a worker
that has failed in `failed_workers` and asks again. The answers to the later questions are then
the chain of the first one, so that no worker is tried twice.

* `chain_failed`: marking a worker takes it out of the chain and leaves the order of the others.
* `failover`: the workers that are tried, one failure after the other, are the beginning of the
  chain, and the rest of it is what is left.
-/

namespace Wns.Routing

open Ecma

/-! ## A worker is marked -/

/-- The state `value'` is `value` with `w` added to `failed_workers`. -/
structure MarksFailed (w : Worker) (value value' : Props) : Prop where
  failed : ∃ items, prop value' "failed_workers" = .arr items ∧
    items.Perm (ofEnum w :: failedItems (prop value "failed_workers"))
  other : ∀ k, k ≠ js "failed_workers" → prop value' k = prop value k

/-- A normalized state in which `w` counts as failed too. -/
structure Fails (w : Worker) (state state' : NormalizedState) : Prop where
  failed : ∀ v, v ∈ state'.failedWorkers ↔ v = w ∨ v ∈ state.failedWorkers
  workers : state'.workers = state.workers
  activeWorker : state'.activeWorker = state.activeWorker
  activeTerminal : state'.activeTerminal = state.activeTerminal

theorem normalizeState_failed {w : Worker} {value value' : Props} {normalized : NormalizedState}
    (h : MarksFailed w value value') (hn : normalizeState (.obj value) = .ok normalized) :
    ∃ normalized', normalizeState (.obj value') = .ok normalized' ∧
      Fails w normalized normalized' := by
  obtain ⟨_, hvalue, hworkers, hactive, hack, hfailed, hterminal, hhitl⟩ :=
    normalizeState_eq_ok.mp hn
  rw [if_neg (by simp)] at hvalue
  obtain rfl := JsValue.obj.inj hvalue
  obtain ⟨items, hitems, hperm⟩ := h.failed
  rw [failedWorkers_eq_ok.mp hfailed, ← List.map_cons] at hperm
  obtain ⟨failed', rfl, hfailed'⟩ : ∃ failed' : List Worker, items = failed'.map ofEnum ∧
      failed'.Perm (w :: normalized.failedWorkers) :=
    (congrFun₂ (List.eq_map_comp_perm ofEnum) items (w :: normalized.failedWorkers)).mpr hperm
  refine ⟨{ normalized with failedWorkers := failed' }, normalizeState_eq_ok.mpr
    ⟨value', if_neg (by simp), ?_, ?_, ?_, ?_, ?_, ?_⟩, ?_, rfl, rfl, rfl⟩
  · rw [h.other _ (by decide)]
    exact hworkers
  · rw [h.other _ (by decide)]
    exact hactive
  · rw [h.other _ (by decide)]
    exact hack
  · rw [hitems]
    exact failedWorkers_eq_ok.mpr rfl
  · rw [h.other _ (by decide)]
    exact hterminal
  · rw [h.other _ (by decide)]
    exact hhitl
  · intro v
    rw [hfailed'.mem_iff, List.mem_cons]

section

variable {task : NormalizedTask} {state state' : NormalizedState} {preferred : Option Worker}
  {w : Worker}

theorem Fails.eligible (h : Fails w state state') {v : Worker} :
    Eligible task state' state'.pressure v ↔ v ≠ w ∧ Eligible task state state.pressure v := by
  have hpressure : state'.pressure = state.pressure := by
    unfold NormalizedState.pressure
    rw [h.workers]
  constructor
  · intro ⟨hcapable, hfailed, havailable, hexhausted⟩
    refine ⟨fun hv => hfailed ((h.failed v).mpr (.inl hv)), hcapable,
      fun hv => hfailed ((h.failed v).mpr (.inr hv)), h.workers ▸ havailable,
      hpressure ▸ hexhausted⟩
  · intro ⟨hne, hcapable, hfailed, havailable, hexhausted⟩
    refine ⟨hcapable, fun hv => ((h.failed v).mp hv).elim hne hfailed, h.workers ▸ havailable,
      hpressure ▸ hexhausted⟩

theorem Fails.precedes (h : Fails w state state') :
    Precedes task state' preferred state'.pressure =
      Precedes task state preferred state.pressure := by
  funext a b
  unfold Precedes NormalizedState.pressure
  rw [h.workers]

/-- Two selections by one order with the same workers have the same chain. -/
theorem Contract.chain_eq {pressure : Worker → Pressure} {s : Selection} {chain : List Worker}
    (h : Contract task state preferred pressure s)
    (hordered : chain.Pairwise (Precedes task state preferred pressure)) (hnodup : chain.Nodup)
    (hmem : ∀ v, v ∈ chain ↔ v ∈ s.chain) : chain = s.chain := by
  refine List.Perm.eq_of_pairwise (fun a b _ _ hab hba => ?_) hordered h.ordered
    ((List.perm_ext_iff_of_nodup hnodup h.nodup).mpr hmem)
  by_contra hne
  exact hab.asymm hne hba

/-- Marking a worker takes it out of the chain, and leaves the others in their order. -/
theorem chain_failed (h : Fails w state state')
    (hidle : state.activeWorker = none ∨ state.activeTerminal = true) :
    (selectNormalized task state' preferred).chain =
      (selectNormalized task state preferred).chain.erase w := by
  have hcontract := selectNormalized_contract task state preferred hidle
  have hcontract' := selectNormalized_contract task state' preferred
    (by rwa [h.activeWorker, h.activeTerminal])
  refine (hcontract'.chain_eq ?_ (hcontract.nodup.erase w) fun v => ?_).symm
  · rw [h.precedes]
    exact hcontract.ordered.sublist List.erase_sublist
  · rw [hcontract.nodup.mem_erase_iff, hcontract.mem_chain, hcontract'.mem_chain, h.eligible]

/-- A worker that is marked and could do the task otherwise is listed as such. -/
theorem mem_rejected_failed
    (hidle : state.activeWorker = none ∨ state.activeTerminal = true)
    (hcapable : ∀ capability ∈ task.required, capability ∈ w.capabilities)
    (hfailed : w ∈ state.failedWorkers) :
    ∃ rejected, (selectNormalized task state preferred).rejected = some rejected ∧
      (w, .previousAttemptFailed) ∈ rejected := by
  obtain ⟨-, hrejected, -⟩ := selectNormalized_idle task state preferred hidle
  refine ⟨_, hrejected, mem_rejected.mpr ?_⟩
  rw [rejection, (capabilityReasons_eq_nil task).mpr hcapable]
  exact if_pos hfailed

end

/-! ## One attempt after the other -/

/-- `selectWorker` names `w`, `w` fails, and the state marks it. -/
def Attempt (task policy : JsValue) (value : Props) (w : Worker) (value' : Props) : Prop :=
  ∃ selection, selectWorker task (.obj value) policy = .ok selection ∧
    selection.action = .select ∧ selection.worker = some w ∧ MarksFailed w value value'

/-- What the failed attempts leave of a selection. -/
structure FailsOver (first : Selection) (tried : List Worker) (last : Selection) : Prop where
  chain : first.chain = tried ++ last.chain
  nodup : tried.Nodup
  action : last.action = if tried = first.chain then .noWorker else .select
  worker : last.worker = last.chain.head?
  rejected : ∀ w ∈ tried, ∃ rejected, last.rejected = some rejected ∧
    (w, .previousAttemptFailed) ∈ rejected

/-- A state in which the workers `tried` count as failed too. -/
structure FailsAll (tried : List Worker) (state state' : NormalizedState) : Prop where
  failed : ∀ v, v ∈ state'.failedWorkers ↔ v ∈ tried ∨ v ∈ state.failedWorkers
  activeWorker : state'.activeWorker = state.activeWorker
  activeTerminal : state'.activeTerminal = state.activeTerminal

section

variable {task policy : JsValue} {normalizedTask : NormalizedTask} {preferred : Option Worker}

theorem idle_of_select {state : NormalizedState}
    (h : (selectNormalized normalizedTask state preferred).action = .select) :
    state.activeWorker = none ∨ state.activeTerminal = true := by
  unfold selectNormalized at h
  split at h
  · -- an active run is reconciled or held
    split_ifs at h
  · next hactive =>
    by_contra hbusy
    obtain ⟨hsome, hterminal⟩ := not_or.mp hbusy
    obtain ⟨worker, hworker⟩ := Option.ne_none_iff_exists'.mp hsome
    exact hactive worker hworker (Bool.eq_false_iff.mpr hterminal)

/-- What is asked of a state that normalizes. -/
theorem selectWorker_eq {value : Props} {state : NormalizedState}
    (htask : normalizeTask task = .ok normalizedTask)
    (hpolicy : normalizePolicy policy = .ok preferred)
    (hstate : normalizeState (.obj value) = .ok state) :
    selectWorker task (.obj value) policy =
      .ok (selectNormalized normalizedTask state preferred) := by
  rw [selectWorker, htask, ok_bind, hstate, ok_bind, hpolicy, ok_bind]
  rfl

/-- The attempts of a run take the chain apart from its front. -/
theorem attempts_chain (htask : normalizeTask task = .ok normalizedTask)
    (hpolicy : normalizePolicy policy = .ok preferred) {value value' : Props}
    {tried : List Worker} (h : Run (Attempt task policy) value tried value')
    {state : NormalizedState} (hstate : normalizeState (.obj value) = .ok state)
    (hidle : state.activeWorker = none ∨ state.activeTerminal = true) :
    ∃ state', normalizeState (.obj value') = .ok state' ∧ FailsAll tried state state' ∧
      (selectNormalized normalizedTask state preferred).chain =
        tried ++ (selectNormalized normalizedTask state' preferred).chain := by
  induction h generalizing state with
  | nil value => exact ⟨state, hstate, ⟨by simp, rfl, rfl⟩, rfl⟩
  | @cons value value' value'' w tried hattempt hrun ih =>
    obtain ⟨selection, hselection, -, hworker, hmarks⟩ := hattempt
    rw [selectWorker_eq htask hpolicy hstate] at hselection
    obtain rfl := Except.ok.inj hselection
    obtain ⟨state', hstate', hfails⟩ := normalizeState_failed hmarks hstate
    have hidle' : state'.activeWorker = none ∨ state'.activeTerminal = true := by
      rwa [hfails.activeWorker, hfails.activeTerminal]
    obtain ⟨state'', hstate'', hall, hchain⟩ := ih hstate' hidle'
    refine ⟨state'', hstate'', ⟨fun v => ?_, ?_, ?_⟩, ?_⟩
    · rw [hall.failed, hfails.failed, List.mem_cons, or_left_comm, or_assoc]
    · exact hall.activeWorker.trans hfails.activeWorker
    · exact hall.activeTerminal.trans hfails.activeTerminal
    · -- the worker that failed was the first of the chain
      have hhead := (selectNormalized_head normalizedTask preferred hidle).1
      rw [hworker] at hhead
      obtain ⟨rest, hrest⟩ := List.head?_eq_some_iff.mp hhead.symm
      rw [chain_failed hfails hidle, hrest, List.erase_cons_head] at hchain
      rw [hrest, hchain, List.cons_append]

/-- **Failing over follows the chain.** The workers that are tried, one failure after the
    other, are the beginning of the chain that was announced first, and what is left is the
    rest of it. -/
theorem failover {value value' : Props} {first : Selection} {tried : List Worker}
    (hfirst : selectWorker task (.obj value) policy = .ok first) (hselect : first.action = .select)
    (hrun : Run (Attempt task policy) value tried value') :
    ∃ last, selectWorker task (.obj value') policy = .ok last ∧ FailsOver first tried last := by
  obtain ⟨normalizedTask, htask, h⟩ := bind_eq_ok.mp hfirst
  obtain ⟨state, hstate, h⟩ := bind_eq_ok.mp h
  obtain ⟨preferred, hpolicy, h⟩ := bind_eq_ok.mp h
  obtain rfl := pure_eq_ok.mp h
  have hidle := idle_of_select hselect
  obtain ⟨state', hstate', hall, hchain⟩ := attempts_chain htask hpolicy hrun hstate hidle
  have hidle' : state'.activeWorker = none ∨ state'.activeTerminal = true := by
    rwa [hall.activeWorker, hall.activeTerminal]
  have hcontract := selectNormalized_contract normalizedTask state preferred hidle
  have hcontract' := selectNormalized_contract normalizedTask state' preferred hidle'
  obtain ⟨hworker, haction⟩ := selectNormalized_head normalizedTask preferred hidle'
  refine ⟨_, selectWorker_eq htask hpolicy hstate', hchain, ?_, ?_, hworker, fun w hw => ?_⟩
  · exact (hchain ▸ hcontract.nodup).of_append_left
  · rw [hchain]
    split_ifs with hall
    · rw [hcontract'.noWorker]
      intro worker hw
      rw [← hcontract'.mem_chain, List.self_eq_append_right.mp hall] at hw
      cases hw
    · rw [haction, hworker]
      exact fun hnone => hall (by rw [List.head?_eq_none_iff.mp hnone, List.append_nil])
  · refine mem_rejected_failed hidle' ?_ ((hall.failed w).mpr (.inl hw))
    exact (hcontract.eligible w (hchain ▸ List.mem_append_left _ hw)).capable

end

/-- A state that says nothing but which workers have failed. -/
def marked (failed : List Worker) : Props := [("failed_workers", .arr (failed.map ofEnum))]

theorem normalizeState_marked (failed : List Worker) :
    normalizeState (.obj (marked failed)) =
      .ok { unknownState with failedWorkers := failed } := by
  refine normalizeState_eq_ok.mpr ⟨marked failed, rfl, ?_, rfl, rfl, ?_, rfl, rfl⟩
  · intro worker
    cases worker <;> rfl
  · exact failedWorkers_eq_ok.mpr rfl

theorem marksFailed_marked (w : Worker) (failed : List Worker) :
    MarksFailed w (marked failed) (marked (w :: failed)) where
  failed := ⟨_, rfl, .refl _⟩
  other := by
    intro k hk
    simp [marked, prop, hk]

theorem failover_engineering :
    ∃ last, selectWorker (.obj []) (.obj (marked [.claude, .codex])) (.obj []) = .ok last ∧
      FailsOver (selectNormalized defaultTask unknownState none) [.codex, .claude] last := by
  have hselect (failed : List Worker) :
      selectWorker (.obj []) (.obj (marked failed)) (.obj []) = .ok (selectNormalized defaultTask
        { unknownState with failedWorkers := failed } none) :=
    selectWorker_eq normalizeTask_default rfl (normalizeState_marked failed)
  refine failover (hselect []) (by decide) (.cons ⟨_, hselect [], ?_, ?_, ?_⟩
    (.single ⟨_, hselect [.codex], ?_, ?_, ?_⟩))
  · decide
  · decide
  · exact marksFailed_marked .codex []
  · decide
  · decide
  · exact marksFailed_marked .claude [.codex]

end Wns.Routing
