import Wns.Routing.Contract

/-!
# Monotone routing

What becomes of a selection when the state says something worse of one worker, and
nothing else has changed. The order of the contract compares two workers by what the state
says of these two, so the others are not affected.

* `neverImproves`: on normalized states, the worker moves back, if at all.
* `routing_monotone`: the same for what `selectWorker` is given.
-/

namespace Wns.Routing

open Ecma

/-! ## Position in the chain -/

/-- `a` is tried before `b`. -/
def Before (chain : List Worker) (a b : Worker) : Prop := [a, b].Sublist chain

/-- Two items of a list stand in one order or the other. -/
theorem before_or {l : List Worker} {a b : Worker} (ha : a ∈ l) (hb : b ∈ l) (hne : a ≠ b) :
    Before l a b ∨ Before l b a := by
  unfold Before
  induction l with
  | nil => cases ha
  | cons x l ih =>
    by_cases hxa : a = x
    · subst hxa
      have hb' : b ∈ l := (List.mem_cons.mp hb).resolve_left hne.symm
      exact .inl ((List.singleton_sublist.mpr hb').cons_cons _)
    · have ha' : a ∈ l := (List.mem_cons.mp ha).resolve_left hxa
      by_cases hxb : b = x
      · subst hxb
        exact .inr ((List.singleton_sublist.mpr ha').cons_cons _)
      · have hb' : b ∈ l := (List.mem_cons.mp hb).resolve_left hxb
        exact (ih ha' hb').imp (fun h => h.cons _) fun h => h.cons _

theorem before_head {l : List Worker} {a b : Worker} (ha : l.head? = some a) (hb : b ∈ l)
    (hne : a ≠ b) : Before l a b := by
  obtain ⟨l, rfl⟩ := List.head?_eq_some_iff.mp ha
  have hb : b ∈ l := (List.mem_cons.mp hb).resolve_left hne.symm
  exact (List.singleton_sublist.mpr hb).cons_cons _

section

variable {task : NormalizedTask} {state state' : NormalizedState} {preferred : Option Worker}
  {pressure : Worker → Pressure} {s : Selection}

theorem Contract.precedes_of_before (h : Contract task state preferred pressure s) {a b : Worker}
    (hab : Before s.chain a b) : Precedes task state preferred pressure a b :=
  List.pairwise_pair.mp (h.ordered.sublist hab)

/-- The chain of a contract lists eligible workers in its order. -/
theorem Contract.before_iff (h : Contract task state preferred pressure s) {a b : Worker}
    (hne : a ≠ b) : Before s.chain a b ↔
      a ∈ s.chain ∧ b ∈ s.chain ∧ Precedes task state preferred pressure a b := by
  constructor
  · intro hab
    exact ⟨hab.subset (by simp), hab.subset (by simp), h.precedes_of_before hab⟩
  · intro ⟨ha, hb, hprecedes⟩
    refine (before_or ha hb hne).resolve_right fun hba => ?_
    exact hprecedes.asymm hne (h.precedes_of_before hba)

/-! ## A state that is worse for one worker -/

/-- The state `state'` says of `w` what `state` does, or worse, and the same of the others. -/
structure Worsens (w : Worker) (state state' : NormalizedState) : Prop where
  availability : (state.workers w).availability.rank ≤ (state'.workers w).availability.rank
  pressure : (state.pressure w).rank ≤ (state'.pressure w).rank
  failed : w ∈ state.failedWorkers → w ∈ state'.failedWorkers
  otherWorkers : ∀ v ≠ w, state'.workers v = state.workers v
  otherFailed : ∀ v ≠ w, (v ∈ state'.failedWorkers ↔ v ∈ state.failedWorkers)

theorem Availability.eq_unavailable {a : Availability}
    (h : Availability.unavailable.rank ≤ a.rank) : a = .unavailable := by
  cases a <;> simp [Availability.rank] at h ⊢

theorem Pressure.eq_exhausted {p : Pressure} (h : Pressure.exhausted.rank ≤ p.rank) :
    p = .exhausted := by
  cases p <;> simp [Pressure.rank] at h ⊢

variable {w : Worker}

theorem Worsens.eligible_other (h : Worsens w state state') {v : Worker} (hv : v ≠ w) :
    Eligible task state' state'.pressure v ↔ Eligible task state state.pressure v := by
  have hpressure : state'.pressure v = state.pressure v :=
    congrArg WorkerState.budgetPressure (h.otherWorkers v hv)
  constructor
  · intro ⟨hcapable, hfailed, havailable, hexhausted⟩
    exact ⟨hcapable, mt (h.otherFailed v hv).mpr hfailed, h.otherWorkers v hv ▸ havailable,
      hpressure ▸ hexhausted⟩
  · intro ⟨hcapable, hfailed, havailable, hexhausted⟩
    exact ⟨hcapable, mt (h.otherFailed v hv).mp hfailed, h.otherWorkers v hv ▸ havailable,
      hpressure ▸ hexhausted⟩

theorem Worsens.eligible (h : Worsens w state state')
    (heligible : Eligible task state' state'.pressure w) :
    Eligible task state state.pressure w where
  capable := heligible.capable
  notFailed := mt h.failed heligible.notFailed
  notUnavailable := fun hu =>
    heligible.notUnavailable (Availability.eq_unavailable (hu ▸ h.availability))
  notExhausted := fun he => heligible.notExhausted (Pressure.eq_exhausted (he ▸ h.pressure))

theorem Worsens.precedes_others (h : Worsens w state state') {a b : Worker} (ha : a ≠ w)
    (hb : b ≠ w) : Precedes task state' preferred state'.pressure a b ↔
      Precedes task state preferred state.pressure a b := by
  unfold Precedes NormalizedState.pressure
  rw [h.otherWorkers a ha, h.otherWorkers b hb]

/-- Whoever is preceded by `w` in the worse state was so before. -/
theorem Worsens.precedes (h : Worsens w state state') {v : Worker} (hv : v ≠ w)
    (hprecedes : Precedes task state' preferred state'.pressure w v) :
    Precedes task state preferred state.pressure w v := by
  have havailability := h.availability
  have hpressure := h.pressure
  unfold Precedes NormalizedState.pressure at *
  rw [h.otherWorkers v hv] at hprecedes
  obtain hp | ⟨hp, hrank⟩ := hprecedes
  · exact .inl hp
  · exact .inr ⟨hp, by omega⟩

/-! ## The worker moves back, the others stay -/

/-- From `s` to `s'`, the worker `w` is tried later, if at all, and the others as before. -/
structure NeverImproves (w : Worker) (s s' : Selection) : Prop where
  position : ∀ v ≠ w, Before s'.chain w v → Before s.chain w v
  member : w ∈ s'.chain → w ∈ s.chain
  selected : s'.action = .select → s'.worker = some w → s.action = .select ∧ s.worker = some w
  others : s'.chain.filter (· ≠ w) = s.chain.filter (· ≠ w)

/-- With no active run, the selected worker is the first of the chain. -/
theorem selectNormalized_head (task : NormalizedTask) (preferred : Option Worker)
    (h : state.activeWorker = none ∨ state.activeTerminal = true) :
    (selectNormalized task state preferred).worker =
        (selectNormalized task state preferred).chain.head? ∧
      ((selectNormalized task state preferred).action = .select ↔
        (selectNormalized task state preferred).worker ≠ none) := by
  unfold selectNormalized
  split
  · next worker hactive hterminal => simp [hactive, hterminal] at h
  · generalize orderedCandidates task state preferred = candidates
    obtain ⟨compatible, rejected⟩ := candidates
    cases compatible <;> simp [Selection.chain]

/-- A worker that is the first of one chain, and not moved back by the other, is its first. -/
theorem Contract.head_of_position {s' : Selection} (hc : Contract task state preferred pressure s)
    (hfirst : s'.chain.head? = some w) (hw : w ∈ s.chain)
    (hother : ∀ v ≠ w, v ∈ s.chain → v ∈ s'.chain)
    (hposition : ∀ v ≠ w, Before s'.chain w v → Before s.chain w v) :
    s.chain.head? = some w := by
  obtain ⟨v, hv⟩ : ∃ v, s.chain.head? = some v :=
    Option.ne_none_iff_exists'.mp (mt List.head?_eq_none_iff.mp (List.ne_nil_of_mem hw))
  -- were `v` another worker, it would stand before `w`, and still does
  have hvw : v = w := by
    by_contra hne
    have hafter := hother v hne (List.mem_of_head? hv)
    have hbefore := hposition v hne (before_head hfirst hafter (Ne.symm hne))
    have hbefore' := before_head hv hw hne
    exact (hc.precedes_of_before hbefore).asymm (Ne.symm hne) (hc.precedes_of_before hbefore')
  rw [hv, hvw]

/-- The other workers keep their order. -/
theorem Worsens.filter_others {s' : Selection} (h : Worsens w state state')
    (hc : Contract task state preferred state.pressure s)
    (hc' : Contract task state' preferred state'.pressure s')
    (hother : ∀ v ≠ w, (v ∈ s'.chain ↔ v ∈ s.chain)) :
    s'.chain.filter (· ≠ w) = s.chain.filter (· ≠ w) := by
  have hperm : (s'.chain.filter (· ≠ w)).Perm (s.chain.filter (· ≠ w)) := by
    refine (List.perm_ext_iff_of_nodup (hc'.nodup.filter _) (hc.nodup.filter _)).mpr fun v => ?_
    simp only [List.mem_filter, decide_eq_true_eq]
    exact and_congr_left fun hv => hother v hv
  have hsorted' : (s'.chain.filter (· ≠ w)).Pairwise
      (Precedes task state preferred state.pressure) := by
    refine (hc'.ordered.filter _).imp_of_mem fun {a b} ha hb hab => ?_
    simp only [List.mem_filter, decide_eq_true_eq] at ha hb
    exact (h.precedes_others ha.2 hb.2).mp hab
  refine hperm.eq_of_pairwise (fun a b _ _ hab hba => ?_) hsorted' (hc.ordered.filter _)
  by_contra hne
  exact hab.asymm hne hba

theorem neverImproves (h : Worsens w state state')
    (hidle : state.activeWorker = none ∨ state.activeTerminal = true)
    (hidle' : state'.activeWorker = none ∨ state'.activeTerminal = true) :
    NeverImproves w (selectNormalized task state preferred)
      (selectNormalized task state' preferred) := by
  have hc := selectNormalized_contract task state preferred hidle
  have hc' := selectNormalized_contract task state' preferred hidle'
  obtain ⟨hhead, haction⟩ := selectNormalized_head task preferred hidle
  obtain ⟨hhead', -⟩ := selectNormalized_head task preferred hidle'
  generalize selectNormalized task state preferred = s at *
  generalize selectNormalized task state' preferred = s' at *
  have hother : ∀ v ≠ w, (v ∈ s'.chain ↔ v ∈ s.chain) := fun v hv => by
    rw [hc.mem_chain, hc'.mem_chain, h.eligible_other hv]
  have hmember : w ∈ s'.chain → w ∈ s.chain := fun hw =>
    hc.mem_chain.mpr (h.eligible (hc'.mem_chain.mp hw))
  have hposition : ∀ v ≠ w, Before s'.chain w v → Before s.chain w v := by
    intro v hv hbefore
    obtain ⟨hw, hmem, hprecedes⟩ := (hc'.before_iff hv.symm).mp hbefore
    exact (hc.before_iff hv.symm).mpr ⟨hmember hw, (hother v hv).mp hmem, h.precedes hv hprecedes⟩
  refine ⟨hposition, hmember, fun _ hworker => ?_, h.filter_others hc hc' hother⟩
  have hfirst := hhead'.symm.trans hworker
  have hselected := hhead.trans (hc.head_of_position hfirst (hmember (List.mem_of_head? hfirst))
    (fun v hv => (hother v hv).mpr) hposition)
  exact ⟨haction.mpr (by simp [hselected]), hselected⟩

end

/-! ## What is reported -/

/-- The same value, or a member of an enumeration that ranks no better. -/
def WorseEnum {α : Type} [JsEnum α] (rank : α → ℕ) (v v' : JsValue) : Prop :=
  v = v' ∨ ∃ a a', v = ofEnum a ∧ v' = ofEnum a' ∧ rank a ≤ rank a'

/-- The entry `raw'` of a worker says what `raw` does but for a worse availability and worse
    windows. -/
structure WorseEntry (raw raw' : Props) : Prop where
  availability : WorseEnum Availability.rank
    (coalesce (prop raw "availability") (.str "unknown"))
    (coalesce (prop raw' "availability") (.str "unknown"))
  windows : prop raw "quota_windows" = prop raw' "quota_windows" ∨
    ∃ ws ws', prop raw "quota_windows" = .obj ws ∧ prop raw' "quota_windows" = .obj ws' ∧
      List.Forall₂ (fun p p' => p.1 = p'.1 ∧ WorseEnum Pressure.rank p.2 p'.2) ws ws'
  other : ∀ k, k ≠ js "availability" → k ≠ js "quota_windows" → prop raw k = prop raw' k

/-- The items of `failed_workers`. -/
def failedItems : JsValue → List JsValue
  | .arr items => items
  | _ => []

/-- The state `value'` differs from `value` in the entry of `w`, which says something worse,
    and in that `failed_workers` may list `w` once more. -/
structure WorseState (w : Worker) (value value' : Props) : Prop where
  entry : ∃ raw raw', rawWorker (prop value "workers") w = .obj raw ∧
    rawWorker (prop value' "workers") w = .obj raw' ∧ WorseEntry raw raw'
  workers : ∀ v ≠ w, rawWorker (prop value "workers") v = rawWorker (prop value' "workers") v
  failed : prop value "failed_workers" = prop value' "failed_workers" ∨
    ∃ items, prop value' "failed_workers" = .arr items ∧
      items.Perm (ofEnum w :: failedItems (prop value "failed_workers"))
  other : ∀ k, k ≠ js "workers" → k ≠ js "failed_workers" → prop value k = prop value' k

theorem requireEnum_worse {α : Type} [JsEnum α] {rank : α → ℕ} {v v' : JsValue}
    {label : JsString} {a : α} (h : WorseEnum rank v v') (ha : requireEnum v label = .ok a) :
    ∃ a', requireEnum v' label = .ok a' ∧ rank a ≤ rank a' := by
  unfold requireEnum at *
  rw [enumMember_eq_ok] at ha
  obtain rfl | ⟨b, b', hb, hb', hrank⟩ := h
  · exact ⟨a, enumMember_eq_ok.mpr ha, le_rfl⟩
  · obtain rfl := ofEnum_inj.mp (ha.symm.trans hb)
    exact ⟨b', enumMember_eq_ok.mpr hb', hrank⟩

/-- The same windows with pressures that are no better. -/
def WorseWindows (windows windows' : List (JsString × Pressure)) : Prop :=
  List.Forall₂ (fun p p' => p.1 = p'.1 ∧ p.2.rank ≤ p'.2.rank) windows windows'

theorem WorseWindows.refl (windows : List (JsString × Pressure)) : WorseWindows windows windows :=
  List.forall₂_same.mpr fun _ _ => ⟨rfl, le_rfl⟩

/-- The windows that are left out have the same names. -/
theorem WorseWindows.filter {windows windows' : List (JsString × Pressure)}
    (h : WorseWindows windows windows') (name : JsString) :
    WorseWindows (windows.filter (·.1 ≠ name)) (windows'.filter (·.1 ≠ name)) := by
  unfold WorseWindows at *
  induction h with
  | nil => exact .nil
  | cons hp _ ih =>
    rw [List.filter_cons, List.filter_cons, hp.1]
    split_ifs
    · exact .cons hp ih
    · exact ih

/-- Worse windows are read as worse pressures, under the same names. -/
theorem quotaWindows_worse {raw raw' : Props} {label : JsString}
    {windows : List (JsString × Pressure)} (h : WorseEntry raw raw')
    (hw : quotaWindows raw label = .ok windows) :
    ∃ windows', quotaWindows raw' label = .ok windows' ∧ WorseWindows windows windows' := by
  obtain heq | ⟨ws, ws', hws, hws', hall⟩ := h.windows
  · unfold quotaWindows at *
    rw [← heq]
    exact ⟨windows, hw, .refl windows⟩
  · simp only [quotaWindows, hws, hws', reduceCtorEq, if_false, requireObject, plainObject,
      ok_bind] at hw ⊢
    obtain ⟨entries, hentries, hw⟩ := bind_eq_ok.mp hw
    obtain rfl := pure_eq_ok.mp hw
    obtain ⟨entries', hentries', hworse⟩ := exists_mapM_of_forall₂ (f := fun p => do
        let state ← requireEnum p.2 (label ++ "." ++ p.1)
        pure (p.1, state))
      (S := fun p p' : JsString × Pressure => p.1 = p'.1 ∧ p.2.rank ≤ p'.2.rank)
      (fun p p' e hp he => by
        obtain ⟨state, hstate, he⟩ := bind_eq_ok.mp he
        obtain rfl := pure_eq_ok.mp he
        obtain ⟨state', hstate', hrank⟩ := requireEnum_worse hp.2 hstate
        exact ⟨(p'.1, state'), bind_eq_ok.mpr ⟨state', hp.1 ▸ hstate', rfl⟩, hp.1, hrank⟩)
      (forall₂_ownOrder hall) hentries
    exact ⟨_, bind_eq_ok.mpr ⟨entries', hentries', rfl⟩, WorseWindows.filter hworse "__proto__"⟩

theorem foldl_worse_mono {l l' : List Pressure} (h : List.Forall₂ (·.rank ≤ ·.rank) l l')
    {start start' : Pressure} (hstart : start.rank ≤ start'.rank) :
    (l.foldl (fun worst state => if state.rank > worst.rank then state else worst) start).rank ≤
      (l'.foldl (fun worst state => if state.rank > worst.rank then state else worst)
        start').rank := by
  induction h generalizing start start' with
  | nil => exact hstart
  | cons hp _ ih =>
    rw [List.foldl_cons, List.foldl_cons]
    apply ih
    split_ifs <;> omega

/-- The pressure that is derived from worse windows is worse. -/
theorem budgetPressure_worse {raw raw' : Props} {name : JsString}
    {windows windows' : List (JsString × Pressure)} {p : Pressure} (h : WorseEntry raw raw')
    (hw : WorseWindows windows windows') (hp : budgetPressure raw name windows = .ok p) :
    ∃ p', budgetPressure raw' name windows' = .ok p' ∧ p.rank ≤ p'.rank := by
  have hflat : prop raw "budget_pressure" = prop raw' "budget_pressure" :=
    h.other _ (by decide) (by decide)
  have hstates : List.Forall₂ (·.rank ≤ ·.rank) (windows.map Prod.snd) (windows'.map Prod.snd) := by
    rw [List.forall₂_map_left_iff, List.forall₂_map_right_iff]
    exact List.Forall₂.imp (fun _ _ h => h.2) hw
  unfold budgetPressure at *
  rw [← hflat]
  cases hw with
  | nil => exact ⟨p, hp, le_rfl⟩
  | cons =>
    rw [if_pos (List.cons_ne_nil _ _)] at hp ⊢
    obtain rfl := Except.ok.inj hp
    exact ⟨_, rfl, foldl_worse_mono hstates le_rfl⟩

theorem normalizeWorkerState_worse {w : Worker} {raw raw' : Props} {state : WorkerState}
    (h : WorseEntry raw raw') (hstate : normalizeWorkerState w (.obj raw) = .ok state) :
    ∃ state', normalizeWorkerState w (.obj raw') = .ok state' ∧
      state.availability.rank ≤ state'.availability.rank ∧
      state.budgetPressure.rank ≤ state'.budgetPressure.rank := by
  have hcost : prop raw "cost_band" = prop raw' "cost_band" := h.other _ (by decide) (by decide)
  have hlatency : prop raw "latency_band" = prop raw' "latency_band" :=
    h.other _ (by decide) (by decide)
  simp only [normalizeWorkerState, requireObject, plainObject, ok_bind] at hstate ⊢
  rw [← hcost, ← hlatency]
  obtain ⟨windows, hwindows, hstate⟩ := bind_eq_ok.mp hstate
  obtain ⟨pressure, hpressure, hstate⟩ := bind_eq_ok.mp hstate
  obtain ⟨availability, havailability, hstate⟩ := bind_eq_ok.mp hstate
  obtain ⟨costBand, hcostBand, hstate⟩ := bind_eq_ok.mp hstate
  obtain ⟨latencyBand, hlatencyBand, hstate⟩ := bind_eq_ok.mp hstate
  obtain rfl := pure_eq_ok.mp hstate
  obtain ⟨windows', hwindows', hworse⟩ := quotaWindows_worse h hwindows
  obtain ⟨pressure', hpressure', hrank⟩ := budgetPressure_worse h hworse hpressure
  obtain ⟨availability', havailability', hrank'⟩ := requireEnum_worse h.availability havailability
  rw [hwindows', ok_bind, hpressure', ok_bind, havailability', ok_bind, hcostBand, ok_bind,
    hlatencyBand, ok_bind]
  exact ⟨_, rfl, hrank', hrank⟩

/-- What is read of a state. -/
theorem normalizeState_eq_ok {state : JsValue} {normalized : NormalizedState} :
    normalizeState state = .ok normalized ↔
      ∃ value, (if state = .undefined then .obj [] else state) = .obj value ∧
        (∀ w, normalizeWorkerState w (rawWorker (prop value "workers") w) =
          .ok (normalized.workers w)) ∧
        enumOrNull (coalesce (prop value "active_worker") .null) "state.active_worker" =
          .ok normalized.activeWorker ∧
        enumOrNull (coalesce (prop value "mutation_ack") .null) "state.mutation_ack" =
          .ok normalized.mutationAck ∧
        failedWorkers (prop value "failed_workers") = .ok normalized.failedWorkers ∧
        normalized.activeTerminal =
          (prop value "active_terminal" = .undefined || bool (prop value "active_terminal")) ∧
        normalized.pendingHitl = bool (prop value "pending_hitl") := by
  unfold normalizeState
  simp only [bind_eq_ok, pure_eq_ok, requireObject, plainObject_eq_ok]
  refine exists_congr fun value => and_congr_right fun _ => ?_
  constructor
  · rintro ⟨claude, hclaude, codex, hcodex, pi, hpi, activeWorker, hactive, mutationAck, hack,
      failed, hfailed, rfl⟩
    refine ⟨fun w => ?_, hactive, hack, hfailed, rfl, rfl⟩
    cases w
    · exact hclaude
    · exact hcodex
    · exact hpi
  · rintro ⟨hworkers, hactive, hack, hfailed, hterminal, hhitl⟩
    refine ⟨_, hworkers .claude, _, hworkers .codex, _, hworkers .pi, _, hactive, _, hack, _,
      hfailed, ?_⟩
    obtain ⟨workers, activeWorker, activeTerminal, pendingHitl, mutationAck, failed⟩ := normalized
    obtain rfl := hterminal
    obtain rfl := hhitl
    congr 1
    funext w
    cases w <;> rfl

theorem failedWorkers_eq_ok {v : JsValue} {failed : List Worker} :
    failedWorkers v = .ok failed ↔ failedItems v = failed.map ofEnum := by
  have hnil : (.ok [] : Throws (List Worker)) = .ok failed ↔ [] = failed.map ofEnum := by
    rw [Except.ok.injEq]
    cases failed <;> simp
  cases v with
  | arr items => exact mapM_requireEnum_eq_ok
  | _ => exact hnil

/-- A list of failed workers that has got one more is read as such. -/
theorem failedWorkers_worse {w : Worker} {v v' : JsValue} {failed : List Worker}
    (h : v = v' ∨ ∃ items, v' = .arr items ∧ items.Perm (ofEnum w :: failedItems v))
    (hv : failedWorkers v = .ok failed) :
    ∃ failed', failedWorkers v' = .ok failed' ∧ (w ∈ failed → w ∈ failed') ∧
      ∀ u ≠ w, (u ∈ failed' ↔ u ∈ failed) := by
  obtain rfl | ⟨items, rfl, hperm⟩ := h
  · exact ⟨failed, hv, id, fun _ _ => .rfl⟩
  · rw [failedWorkers_eq_ok.mp hv, ← List.map_cons] at hperm
    obtain ⟨failed', rfl, hperm'⟩ : ∃ failed' : List Worker, items = failed'.map ofEnum ∧
        failed'.Perm (w :: failed) :=
      (congrFun₂ (List.eq_map_comp_perm ofEnum) items (w :: failed)).mpr hperm
    refine ⟨failed', failedWorkers_eq_ok.mpr rfl, fun _ => ?_, fun u hu => ?_⟩
    · exact hperm'.mem_iff.mpr List.mem_cons_self
    · rw [hperm'.mem_iff, List.mem_cons, or_iff_right hu]

/-- A worse state is read as one. -/
theorem normalizeState_worse {w : Worker} {value value' : Props} {normalized : NormalizedState}
    (h : WorseState w value value') (hn : normalizeState (.obj value) = .ok normalized) :
    ∃ normalized', normalizeState (.obj value') = .ok normalized' ∧
      Worsens w normalized normalized' ∧
      normalized'.activeWorker = normalized.activeWorker ∧
      normalized'.activeTerminal = normalized.activeTerminal := by
  have hother : ∀ {k : String}, js k ≠ js "workers" → js k ≠ js "failed_workers" →
      prop value' k = prop value k := fun h1 h2 => (h.other _ h1 h2).symm
  obtain ⟨_, hvalue, hworkers, hactive, hack, hfailed, hterminal, hhitl⟩ :=
    normalizeState_eq_ok.mp hn
  rw [if_neg (by simp)] at hvalue
  obtain rfl := JsValue.obj.inj hvalue
  obtain ⟨raw, raw', hraw, hraw', hentry⟩ := h.entry
  obtain ⟨entry, hentry', havailability, hpressure⟩ :=
    normalizeWorkerState_worse hentry (hraw ▸ hworkers w)
  obtain ⟨failed', hfailed', hw, hothers⟩ := failedWorkers_worse h.failed hfailed
  refine ⟨{ normalized with
      workers := fun v => if v = w then entry else normalized.workers v
      failedWorkers := failed' }, normalizeState_eq_ok.mpr ⟨value', if_neg (by simp), fun v => ?_,
        ?_, ?_, hfailed', ?_, ?_⟩, ⟨?_, ?_, hw, fun v hv => if_neg hv, hothers⟩, rfl, rfl⟩
  · dsimp only
    split_ifs with hv
    · rw [hv, hraw', hentry']
    · rw [← h.workers v hv, hworkers v]
  · rw [hother (by decide) (by decide), hactive]
  · rw [hother (by decide) (by decide), hack]
  · rw [hother (by decide) (by decide)]
    exact hterminal
  · rw [hother (by decide) (by decide)]
    exact hhitl
  · simpa using havailability
  · simpa [NormalizedState.pressure] using hpressure

/-- **Routing is monotone.** When the state says something worse of one worker, the selection
    still succeeds; that worker is tried later, if at all, and the others in the order in which
    they were. -/
theorem routing_monotone {task policy : JsValue} {value value' : Props} {w : Worker}
    {normalized : NormalizedState} {s : Selection}
    (hn : normalizeState (.obj value) = .ok normalized)
    (hidle : normalized.activeWorker = none ∨ normalized.activeTerminal = true)
    (hs : selectWorker task (.obj value) policy = .ok s) (h : WorseState w value value') :
    ∃ s', selectWorker task (.obj value') policy = .ok s' ∧ NeverImproves w s s' := by
  obtain ⟨normalized', hn', hworsens, hactive, hterminal⟩ := normalizeState_worse h hn
  obtain ⟨normalizedTask, htask, hs⟩ := bind_eq_ok.mp hs
  rw [hn, ok_bind] at hs
  obtain ⟨preferred, hpolicy, hs⟩ := bind_eq_ok.mp hs
  obtain rfl := pure_eq_ok.mp hs
  refine ⟨selectNormalized normalizedTask normalized' preferred, ?_,
    neverImproves hworsens hidle (by rwa [hactive, hterminal])⟩
  rw [selectWorker, htask, ok_bind, hn', ok_bind, hpolicy, ok_bind]
  rfl

/-- A state that says nothing but one quota window of Codex. -/
def oneWindow (pressure : Pressure) : Props :=
  [("workers", .obj [("codex", .obj [("quota_windows", .obj [("primary", ofEnum pressure)])])])]

/-- The same, normalized. -/
def oneWindowState (pressure : Pressure) : NormalizedState where
  workers
    | .claude => unknownWorker
    | .codex =>
      { unknownWorker with
        budgetPressure := pressure
        quotaWindows := [("primary", pressure)] }
    | .pi => unknownWorker
  activeWorker := none
  activeTerminal := true
  pendingHitl := false
  mutationAck := none
  failedWorkers := []

theorem normalizeState_oneWindow (pressure : Pressure) :
    normalizeState (.obj (oneWindow pressure)) = .ok (oneWindowState pressure) := by
  unfold oneWindow oneWindowState
  cases pressure <;> rfl

theorem worseState_oneWindow {pressure pressure' : Pressure} (h : pressure.rank ≤ pressure'.rank) :
    WorseState .codex (oneWindow pressure) (oneWindow pressure') where
  entry := by
    refine ⟨_, _, rfl, rfl, .inl rfl, .inr ⟨_, _, rfl, rfl, .cons ⟨rfl, .inr ?_⟩ .nil⟩, ?_⟩
    · exact ⟨pressure, pressure', rfl, rfl, h⟩
    · intro k _ hk
      simp [prop, hk]
  workers := by
    intro v hv
    cases v with
    | codex => exact absurd rfl hv
    | claude => rfl
    | pi => rfl
  failed := .inl rfl
  other := by
    intro k hk _
    simp [oneWindow, prop, hk]

theorem routing_monotone_critical :
    ∃ s', selectWorker (.obj []) (.obj (oneWindow .critical)) (.obj []) = .ok s' ∧
      NeverImproves .codex (selectNormalized defaultTask (oneWindowState .normal) none) s' :=
  routing_monotone (normalizeState_oneWindow .normal) (.inl rfl)
    (by rw [selectWorker, normalizeTask_default, normalizeState_oneWindow]; rfl)
    (worseState_oneWindow (by decide))

end Wns.Routing
