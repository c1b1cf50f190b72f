import Wns.Routing.Policy

/-!
# The routing contract

Rules of `TRI-BRIDGE-P4-WORKER-ROUTING-COST-POLICY-V0.md`: which workers are eligible for
a task, and in which order they are tried. The pressure of a worker is the worst of the
quota windows it reports; `quotaWindows` loses a window that is named `__proto__`, so the
code decides by the windows of the other names.

* `selectNormalized_contract`: with no active run, the selection keeps the contract for the
  pressures of the normalized state.
* `routing_contract`: it keeps the contract for the reported pressures iff leaving out the
  window `__proto__` changes neither who is eligible nor the order of eligible workers.
-/

namespace Wns.Routing

open Ecma

/-! ## Eligible workers and their order -/

/-- What a worker needs to be a candidate, where `pressure` gives the workers' pressures. -/
structure Eligible (task : NormalizedTask) (state : NormalizedState) (pressure : Worker → Pressure)
    (worker : Worker) : Prop where
  capable : ∀ capability ∈ task.required, capability ∈ worker.capabilities
  notFailed : worker ∉ state.failedWorkers
  notUnavailable : (state.workers worker).availability ≠ .unavailable
  notExhausted : pressure worker ≠ .exhausted

/-- The preferred worker first, then by availability, by pressure and by the order of the
    task class. -/
def Precedes (task : NormalizedTask) (state : NormalizedState) (preferred : Option Worker)
    (pressure : Worker → Pressure) (a b : Worker) : Prop :=
  preferred = some a ∨ preferred ≠ some b ∧
    ((state.workers a).availability.rank < (state.workers b).availability.rank ∨
      (state.workers a).availability.rank = (state.workers b).availability.rank ∧
        ((pressure a).rank < (pressure b).rank ∨ (pressure a).rank = (pressure b).rank ∧
          task.taskClass.order.idxOf a < task.taskClass.order.idxOf b))

/-- The workers to try, in order. -/
def Selection.chain (s : Selection) : List Worker := s.worker.toList ++ s.fallbackChain

/-- The workers that are ruled out. -/
def Selection.rejectedWorkers (s : Selection) : List Worker := (s.rejected.getD []).map Prod.fst

/-- The contract of a selection, where `pressure` gives the workers' pressures. -/
structure Contract (task : NormalizedTask) (state : NormalizedState) (preferred : Option Worker)
    (pressure : Worker → Pressure) (s : Selection) : Prop where
  partition : (s.chain ++ s.rejectedWorkers).Perm JsEnum.values
  eligible : ∀ worker ∈ s.chain, Eligible task state pressure worker
  ineligible : ∀ worker ∈ s.rejectedWorkers, ¬ Eligible task state pressure worker
  ordered : s.chain.Pairwise (Precedes task state preferred pressure)
  noWorker : s.action = .noWorker ↔ ∀ worker, ¬ Eligible task state pressure worker

section

variable {task : NormalizedTask} {state : NormalizedState} {preferred : Option Worker}
  {pressure : Worker → Pressure}

theorem nodup_workers : (JsEnum.values : List Worker).Nodup := by decide

/-- Of two workers at most one precedes the other. -/
theorem Precedes.asymm {a b : Worker} (hne : a ≠ b)
    (h : Precedes task state preferred pressure a b) :
    ¬ Precedes task state preferred pressure b a := by
  intro h'
  obtain hp | ⟨hp, h⟩ := h
  · obtain hp' | ⟨hp', -⟩ := h'
    · exact hne (Option.some.inj (hp.symm.trans hp'))
    · exact hp' hp
  · obtain hp' | ⟨-, h'⟩ := h'
    · exact hp hp'
    · omega

theorem Contract.nodup {s : Selection} (h : Contract task state preferred pressure s) :
    s.chain.Nodup :=
  (h.partition.nodup_iff.mpr nodup_workers).of_append_left

/-- The chain lists the eligible workers. -/
theorem Contract.mem_chain {s : Selection} (h : Contract task state preferred pressure s)
    {worker : Worker} : worker ∈ s.chain ↔ Eligible task state pressure worker := by
  constructor
  · exact h.eligible worker
  · intro heligible
    have hmem := h.partition.mem_iff.mpr (JsEnum.complete worker)
    rw [List.mem_append] at hmem
    exact hmem.resolve_right fun hr => h.ineligible worker hr heligible

end

/-! ## The selection keeps the contract -/

section

variable (task : NormalizedTask) (state : NormalizedState) (preferred : Option Worker)

/-- The pressures by which the code decides. -/
def NormalizedState.pressure (worker : Worker) : Pressure := (state.workers worker).budgetPressure

theorem capabilityReasons_eq_nil {worker : Worker} :
    capabilityReasons worker task = [] ↔
      ∀ capability ∈ task.required, capability ∈ worker.capabilities := by
  simp only [List.eq_nil_iff_forall_not_mem, capabilityReasons, List.mem_eraseDups,
    List.mem_filter, decide_eq_true_eq, not_and, not_not]

theorem rejection_eq_none {worker : Worker} :
    rejection task state worker = none ↔ Eligible task state state.pressure worker := by
  simp only [rejection, gt_iff_lt, List.length_pos_iff, ne_eq, capabilityReasons_eq_nil]
  constructor
  · intro h
    split_ifs at h with h1 h2 h3 h4
    exact ⟨h1, h2, h3, h4⟩
  · intro h
    have hexhausted : (state.workers worker).budgetPressure ≠ .exhausted := h.notExhausted
    rw [if_neg (not_not.mpr h.capable), if_neg h.notFailed, if_neg h.notUnavailable,
      if_neg hexhausted]

/-- Moving a worker to the front keeps the order of the others. -/
theorem idxOf_baseOrder (compatible : List Worker) {a b : Worker} (ha : preferred ≠ some a)
    (hb : preferred ≠ some b) :
    (baseOrder task.taskClass preferred compatible).idxOf a ≤
        (baseOrder task.taskClass preferred compatible).idxOf b ↔
      task.taskClass.order.idxOf a ≤ task.taskClass.order.idxOf b := by
  cases preferred with
  | none => rfl
  | some worker =>
    simp only [baseOrder]
    split_ifs with h
    · have ha : worker ≠ a := fun h => ha (congrArg some h)
      have hb : worker ≠ b := fun h => hb (congrArg some h)
      generalize task.taskClass = taskClass
      revert ha hb
      cases taskClass <;> cases worker <;> cases a <;> cases b <;> decide
    · rfl

theorem idxOf_order_inj {a b : Worker}
    (h : task.taskClass.order.idxOf a = task.taskClass.order.idxOf b) : a = b := by
  have hmem : ∀ w, w ∈ task.taskClass.order := by
    intro w
    cases task.taskClass <;> cases w <;> decide
  exact (List.idxOf_inj (hmem a)).mp h

/-- The comparator puts `a` before another worker `b` iff `a` precedes it. -/
theorem compareWorkers_nonpos {compatible : List Worker} {a b : Worker} (hne : a ≠ b) :
    compareWorkers state preferred (baseOrder task.taskClass preferred compatible) a b ≤ 0 ↔
      Precedes task state preferred state.pressure a b := by
  unfold compareWorkers Precedes NormalizedState.pressure
  by_cases ha : preferred = some a
  · simp [ha]
  · by_cases hb : preferred = some b
    · have : b ≠ a := hne.symm
      simp [hb, this]
    · have hbase := idxOf_baseOrder task preferred compatible ha hb
      have hidx := mt (idxOf_order_inj task) hne
      rw [if_neg ha, if_neg hb]
      simp only [ha, hb, ne_eq, not_false_eq_true, true_and, false_or]
      split_ifs with h1 h2 <;> omega

variable {task state preferred} in
/-- Of two workers one precedes the other. -/
theorem Precedes.total {pressure : Worker → Pressure} {a b : Worker} (hne : a ≠ b) :
    Precedes task state preferred pressure a b ∨ Precedes task state preferred pressure b a := by
  unfold Precedes
  by_cases ha : preferred = some a
  · exact .inl (.inl ha)
  · by_cases hb : preferred = some b
    · exact .inr (.inl hb)
    · have hidx := mt (idxOf_order_inj task) hne
      simp only [ha, hb, ne_eq, not_false_eq_true, true_and, false_or]
      omega

variable {task state preferred} in
theorem Precedes.trans {pressure : Worker → Pressure} {a b c : Worker}
    (hab : Precedes task state preferred pressure a b)
    (hbc : Precedes task state preferred pressure b c) :
    Precedes task state preferred pressure a c := by
  obtain ha | ⟨hb, hab⟩ := hab
  · exact .inl ha
  · obtain hb' | ⟨hc, hbc⟩ := hbc
    · exact (hb hb').elim
    · exact .inr ⟨hc, by omega⟩

/-- The candidates, sorted by the comparator, are in the order of the contract. -/
theorem orderedCandidates_pairwise :
    (orderedCandidates task state preferred).1.Pairwise
      (Precedes task state preferred state.pressure) := by
  simp only [orderedCandidates]
  set workers : List Worker := JsEnum.values.filter _ with hworkers
  set base := baseOrder task.taskClass preferred workers
  set r : Worker → Worker → Prop := fun a b => compareWorkers state preferred base a b ≤ 0 with hr
  have hr' : ∀ {a b}, r a b ↔ a = b ∨ Precedes task state preferred state.pressure a b := by
    intro a b
    by_cases hab : a = b
    · subst hab
      simp [hr, compareWorkers]
      split <;> simp
    · simp only [hab, false_or]
      exact compareWorkers_nonpos task state preferred hab
  have htotal : Std.Total r := ⟨fun a b => by
    by_cases hab : a = b
    · exact .inl (hr'.mpr (.inl hab))
    · exact (Precedes.total hab).imp (fun h => hr'.mpr (.inr h)) fun h => hr'.mpr (.inr h)⟩
  have htrans : IsTrans Worker r := ⟨fun a b c hab hbc => by
    obtain rfl | hab := hr'.mp hab
    · exact hbc
    · obtain rfl | hbc := hr'.mp hbc
      · exact hr'.mpr (.inr hab)
      · exact hr'.mpr (.inr (hab.trans hbc))⟩
  have hnodup : (workers.insertionSort r).Nodup :=
    (List.perm_insertionSort r workers).nodup_iff.mpr (nodup_workers.filter _)
  exact ((List.pairwise_insertionSort r workers).and hnodup).imp fun h =>
    (hr'.mp h.1).resolve_left h.2

/-- The candidates and the rejected workers are all workers. -/
theorem orderedCandidates_perm :
    ((orderedCandidates task state preferred).1 ++
      (orderedCandidates task state preferred).2.map Prod.fst).Perm JsEnum.values := by
  have hguard : ∀ worker, ((rejection task state worker).map fun reason => (worker, reason)).map
      Prod.fst = if ¬ rejection task state worker = none then some worker else none := by
    intro worker
    cases rejection task state worker <;> rfl
  have hrejected : (orderedCandidates task state preferred).2.map Prod.fst =
      JsEnum.values.filter fun worker => ¬ rejection task state worker = none := by
    simp only [orderedCandidates, List.map_filterMap, hguard]
    rw [← List.filterMap_eq_filter]
    exact List.filterMap_congr fun worker _ => by simp [Option.guard]
  have hcompatible : (orderedCandidates task state preferred).1.Perm
      (JsEnum.values.filter fun worker => rejection task state worker = none) := by
    simp only [orderedCandidates]
    exact List.perm_insertionSort _ _
  rw [hrejected]
  refine (hcompatible.append_right _).trans ?_
  simpa using List.filter_append_perm (fun worker => rejection task state worker = none)
    (JsEnum.values : List Worker)

/-- With no active run, the candidates are the chain and the others are rejected. -/
theorem selectNormalized_idle (h : state.activeWorker = none ∨ state.activeTerminal = true) :
    (selectNormalized task state preferred).chain = (orderedCandidates task state preferred).1 ∧
      (selectNormalized task state preferred).rejected =
        some (orderedCandidates task state preferred).2 ∧
      ((selectNormalized task state preferred).action = .noWorker ↔
        (orderedCandidates task state preferred).1 = []) := by
  unfold selectNormalized
  split
  · next worker hactive hterminal => simp [hactive, hterminal] at h
  · generalize orderedCandidates task state preferred = candidates
    obtain ⟨compatible, rejected⟩ := candidates
    cases compatible <;> simp [Selection.chain]

/-- With no active run, the selection keeps the contract. -/
theorem selectNormalized_contract (h : state.activeWorker = none ∨ state.activeTerminal = true) :
    Contract task state preferred state.pressure (selectNormalized task state preferred) := by
  obtain ⟨hchain, hrejected, haction⟩ := selectNormalized_idle task state preferred h
  have hmem : ∀ {worker}, worker ∈ (orderedCandidates task state preferred).1 ↔
      Eligible task state state.pressure worker :=
    mem_orderedCandidates.trans (rejection_eq_none task state)
  have hperm := orderedCandidates_perm task state preferred
  have hworkers : (selectNormalized task state preferred).rejectedWorkers =
      (orderedCandidates task state preferred).2.map Prod.fst := by
    rw [Selection.rejectedWorkers, hrejected, Option.getD_some]
  constructor
  · rw [hchain, hworkers]
    exact hperm
  · intro worker hw
    rw [hchain] at hw
    exact hmem.mp hw
  · intro worker hw heligible
    rw [hworkers] at hw
    -- nobody is listed twice
    exact (List.nodup_append'.mp (hperm.nodup_iff.mpr nodup_workers)).2.2 (hmem.mpr heligible) hw
  · rw [hchain]
    exact orderedCandidates_pairwise task state preferred
  · rw [haction, List.eq_nil_iff_forall_not_mem]
    exact forall_congr' fun worker => not_congr hmem

end

/-! ## Reported pressure -/

/-- What a state reports about a worker. -/
def reported (state : JsValue) (worker : Worker) : Props :=
  match state with
  | .obj value =>
    match rawWorker (prop value "workers") worker with
    | .obj raw => raw
    | _ => []
  | _ => []

/-- The entries of `quota_windows`. -/
def reportedWindows (raw : Props) : Props :=
  match prop raw "quota_windows" with
  | .obj windows => ownOrder windows
  | _ => []

/-- The windows whose name is not `__proto__`. -/
def keptWindows (raw : Props) : Props :=
  (reportedWindows raw).filter fun window => window.1 ≠ js "__proto__"

/-- The pressure of a worker with the given windows: the worst of them, or the flat
    `budget_pressure` when there is none. -/
def HasPressure (raw windows : Props) (pressure : Pressure) : Prop :=
  windows = [] ∧ coalesce (prop raw "budget_pressure") (.str "unknown") = ofEnum pressure ∨
    (∃ window ∈ windows, window.2 = ofEnum pressure) ∧
      ∀ window ∈ windows, ∀ p : Pressure, window.2 = ofEnum p → p.rank ≤ pressure.rank

theorem Pressure.rank_inj {p q : Pressure} (h : p.rank = q.rank) : p = q := by
  cases p <;> cases q <;> first | rfl | cases h

theorem HasPressure.unique {raw windows : Props} {p q : Pressure} (hp : HasPressure raw windows p)
    (hq : HasPressure raw windows q) : p = q := by
  obtain ⟨hnil, hp⟩ | ⟨⟨w, hw, hwp⟩, hp⟩ := hp
  · obtain ⟨-, hq⟩ | ⟨⟨w, hw, -⟩, -⟩ := hq
    · exact ofEnum_inj.mp (hp.symm.trans hq)
    · rw [hnil] at hw
      cases hw
  · obtain ⟨hnil, -⟩ | ⟨⟨w', hw', hwq⟩, hq⟩ := hq
    · rw [hnil] at hw
      cases hw
    · exact Pressure.rank_inj (le_antisymm (hq w hw p hwp) (hp w' hw' q hwq))

/-- The fold of `worstPressure` ends in its start or in an item, and nothing is worse. -/
theorem foldl_worse {l : List Pressure} {start worst : Pressure}
    (h : l.foldl (fun worst state => if state.rank > worst.rank then state else worst) start =
      worst) :
    (worst = start ∨ worst ∈ l) ∧ start.rank ≤ worst.rank ∧ ∀ p ∈ l, p.rank ≤ worst.rank := by
  induction l generalizing start with
  | nil => exact ⟨.inl h.symm, h ▸ le_rfl, nofun⟩
  | cons a l ih =>
    rw [List.foldl_cons] at h
    rw [List.forall_mem_cons, List.mem_cons]
    obtain ⟨hmem, hstart, hall⟩ := ih h
    split_ifs at hmem hstart with ha
    · exact ⟨.inr hmem, by omega, hstart, hall⟩
    · exact ⟨hmem.imp id .inr, hstart, by omega, hall⟩

/-- `worstPressure` is one of the pressures, and no other is worse. -/
theorem worstPressure_spec {states : List Pressure} (h : states ≠ []) :
    worstPressure states ∈ states ∧ ∀ p ∈ states, p.rank ≤ (worstPressure states).rank := by
  obtain ⟨hmem, -, hall⟩ := foldl_worse (rfl : _ = worstPressure states)
  refine ⟨?_, hall⟩
  obtain hnormal | hmem := hmem
  · -- then every pressure is normal
    obtain ⟨p, ps, rfl⟩ := List.exists_cons_of_ne_nil h
    have hp : p.rank ≤ Pressure.normal.rank := hnormal ▸ hall p List.mem_cons_self
    obtain rfl : p = .normal := Pressure.rank_inj (Nat.le_zero.mp hp)
    rw [hnormal]
    exact List.mem_cons_self
  · exact hmem

/-- The pressure of windows that have been read. -/
theorem hasPressure_worst {raw : Props} {entries : List (JsString × Pressure)} (h : entries ≠ []) :
    HasPressure raw (entries.map fun e => (e.1, ofEnum e.2))
      (worstPressure (entries.map Prod.snd)) := by
  have hne : entries.map Prod.snd ≠ [] := by simpa using h
  obtain ⟨hmem, hall⟩ := worstPressure_spec hne
  obtain ⟨e, he, hworst⟩ := List.mem_map.mp hmem
  refine .inr ⟨⟨_, List.mem_map_of_mem he, by rw [← hworst]⟩, fun window hw p hp => ?_⟩
  obtain ⟨e', he', rfl⟩ := List.mem_map.mp hw
  obtain rfl := ofEnum_inj.mp hp
  exact hall _ (List.mem_map_of_mem he')

/-- The windows that are read are those with other names, and every reported window is one
    of the pressures. -/
theorem quotaWindows_ok {raw : Props} {label : JsString} {windows : List (JsString × Pressure)}
    (h : quotaWindows raw label = .ok windows) :
    ∃ entries : List (JsString × Pressure),
      reportedWindows raw = entries.map (fun e => (e.1, ofEnum e.2)) ∧
      windows = entries.filter fun e => e.1 ≠ js "__proto__" := by
  unfold quotaWindows at h
  unfold reportedWindows
  split_ifs at h with hu
  · rw [hu]
    exact ⟨[], rfl, (Except.ok.inj h).symm⟩
  · obtain ⟨ps, hps, h⟩ := bind_eq_ok.mp h
    obtain ⟨entries, hentries, h⟩ := bind_eq_ok.mp h
    rw [requireObject, plainObject_eq_ok] at hps
    rw [hps]
    refine ⟨entries, eq_map_of_mapM (fun p e he => ?_) hentries, (pure_eq_ok.mp h).symm⟩
    obtain ⟨state, hstate, he⟩ := bind_eq_ok.mp he
    rw [requireEnum, enumMember_eq_ok] at hstate
    rw [← pure_eq_ok.mp he, ← hstate]

/-- A worker state that is accepted has a pressure by all its windows, and the code takes
    the one by the windows of other names. -/
theorem normalizeWorkerState_ok {worker : Worker} {value : JsValue} {w : WorkerState}
    (h : normalizeWorkerState worker value = .ok w) :
    ∃ raw, value = .obj raw ∧ HasPressure raw (keptWindows raw) w.budgetPressure ∧
      ∃ p, HasPressure raw (reportedWindows raw) p := by
  obtain ⟨raw, hraw, h⟩ := bind_eq_ok.mp h
  obtain ⟨windows, hwindows, h⟩ := bind_eq_ok.mp h
  obtain ⟨pressure, hpressure, h⟩ := bind_eq_ok.mp h
  rw [requireObject, plainObject_eq_ok] at hraw
  obtain ⟨entries, hentries, rfl⟩ := quotaWindows_ok hwindows
  have hkept : keptWindows raw =
      (entries.filter fun e => e.1 ≠ js "__proto__").map fun e => (e.1, ofEnum e.2) := by
    rw [keptWindows, hentries, List.filter_map]
    rfl
  have hw : w.budgetPressure = pressure := by
    obtain ⟨_, -, h⟩ := bind_eq_ok.mp h
    obtain ⟨_, -, h⟩ := bind_eq_ok.mp h
    obtain ⟨_, -, h⟩ := bind_eq_ok.mp h
    rw [← pure_eq_ok.mp h]
  unfold budgetPressure at hpressure
  refine ⟨raw, hraw, ?_, ?_⟩
  · rw [hw, hkept]
    split_ifs at hpressure with hne
    · rw [← Except.ok.inj hpressure]
      exact hasPressure_worst hne
    · rw [requireEnum, enumMember_eq_ok] at hpressure
      exact .inl ⟨by rw [not_not.mp hne, List.map_nil], hpressure⟩
  · rw [hentries]
    by_cases hnil : entries = []
    · subst hnil
      rw [List.filter_nil, if_neg (by simp), requireEnum, enumMember_eq_ok] at hpressure
      exact ⟨pressure, .inl ⟨rfl, hpressure⟩⟩
    · exact ⟨_, hasPressure_worst hnil⟩

/-- The same for the three workers of a state. -/
theorem normalizeState_ok {state : JsValue} {normalized : NormalizedState}
    (h : normalizeState state = .ok normalized) (worker : Worker) :
    HasPressure (reported state worker) (keptWindows (reported state worker))
        (normalized.pressure worker) ∧
      ∃ p, HasPressure (reported state worker) (reportedWindows (reported state worker)) p := by
  obtain ⟨value, hvalue, h⟩ := bind_eq_ok.mp h
  obtain ⟨claude, hclaude, h⟩ := bind_eq_ok.mp h
  obtain ⟨codex, hcodex, h⟩ := bind_eq_ok.mp h
  obtain ⟨pi, hpi, h⟩ := bind_eq_ok.mp h
  obtain ⟨activeWorker, -, h⟩ := bind_eq_ok.mp h
  obtain ⟨mutationAck, -, h⟩ := bind_eq_ok.mp h
  obtain ⟨failedWorkers, -, h⟩ := bind_eq_ok.mp h
  obtain rfl := pure_eq_ok.mp h
  rw [requireObject, plainObject_eq_ok] at hvalue
  have hreported : ∀ w raw, rawWorker (prop value "workers") w = .obj raw →
      reported state w = raw := by
    intro w raw hraw
    split_ifs at hvalue with hu
    · -- a state that is left out reports nothing
      obtain rfl := JsValue.obj.inj hvalue
      subst hu
      exact JsValue.obj.inj hraw
    · rw [hvalue, reported]
      simp only [hraw]
  cases worker with
  | claude =>
    obtain ⟨raw, hraw, hkept, hall⟩ := normalizeWorkerState_ok hclaude
    rw [hreported _ raw hraw]
    exact ⟨hkept, hall⟩
  | codex =>
    obtain ⟨raw, hraw, hkept, hall⟩ := normalizeWorkerState_ok hcodex
    rw [hreported _ raw hraw]
    exact ⟨hkept, hall⟩
  | pi =>
    obtain ⟨raw, hraw, hkept, hall⟩ := normalizeWorkerState_ok hpi
    rw [hreported _ raw hraw]
    exact ⟨hkept, hall⟩

/-! ## The contract, by the pressures that are reported -/

/-- Two ways to tell the pressure agree on who is eligible, and in which order. -/
structure SameRouting (task : NormalizedTask) (state : NormalizedState)
    (preferred : Option Worker) (kept pressure : Worker → Pressure) : Prop where
  eligible : ∀ worker, Eligible task state kept worker ↔ Eligible task state pressure worker
  precedes : ∀ a b, Eligible task state kept a → Eligible task state kept b → a ≠ b →
    (Precedes task state preferred kept a b ↔ Precedes task state preferred pressure a b)

/-- Two strict orders by which one list is sorted agree on its items. -/
theorem iff_of_pairwise {α : Type} {r s : α → α → Prop} {l : List α}
    (hr : ∀ a b, a ≠ b → r a b → ¬ r b a) (hs : ∀ a b, a ≠ b → s a b → ¬ s b a)
    (hlr : l.Pairwise r) (hls : l.Pairwise s) {a b : α} (ha : a ∈ l) (hb : b ∈ l) (hne : a ≠ b) :
    r a b ↔ s a b := by
  -- whoever comes first in the list precedes the other by both
  have hboth : l.Pairwise fun a b => (r a b ∧ s a b) ∨ (r b a ∧ s b a) := (hlr.and hls).imp .inl
  have : Std.Symm fun a b => (r a b ∧ s a b) ∨ (r b a ∧ s b a) := ⟨fun _ _ => Or.symm⟩
  obtain ⟨hrab, hsab⟩ | ⟨hrba, hsba⟩ := hboth.forall ha hb hne
  · exact iff_of_true hrab hsab
  · exact iff_of_false (hr b a hne.symm hrba) (hs b a hne.symm hsba)

/-- A selection that keeps the contract for some pressures keeps it for others iff these
    route the same way. -/
theorem Contract.iff_sameRouting {task : NormalizedTask} {state : NormalizedState}
    {preferred : Option Worker} {kept pressure : Worker → Pressure} {s : Selection}
    (h : Contract task state preferred kept s) :
    Contract task state preferred pressure s ↔ SameRouting task state preferred kept pressure := by
  constructor
  · intro h'
    refine ⟨fun worker => h.mem_chain.symm.trans h'.mem_chain, fun a b ha hb hne => ?_⟩
    exact iff_of_pairwise (fun _ _ => Precedes.asymm) (fun _ _ => Precedes.asymm) h.ordered
      h'.ordered (h.mem_chain.mpr ha) (h.mem_chain.mpr hb) hne
  · intro hsame
    refine ⟨h.partition, fun worker hw => (hsame.eligible worker).mp (h.eligible worker hw),
      fun worker hw => mt (hsame.eligible worker).mpr (h.ineligible worker hw), ?_, ?_⟩
    · refine (h.ordered.and h.nodup).imp_of_mem fun {a b} ha hb ⟨hab, hne⟩ => ?_
      exact (hsame.precedes a b (h.eligible a ha) (h.eligible b hb) hne).mp hab
    · rw [h.noWorker]
      exact forall_congr' fun worker => not_congr (hsame.eligible worker)

/-- **When routing keeps its contract.** With no active run, `selectWorker` keeps it for the
    reported pressures iff leaving out the windows named `__proto__` does not change the
    routing. -/
theorem routing_contract {task state policy : JsValue} {normalizedTask : NormalizedTask}
    {normalizedState : NormalizedState} {preferred : Option Worker}
    (htask : normalizeTask task = .ok normalizedTask)
    (hstate : normalizeState state = .ok normalizedState)
    (hpolicy : normalizePolicy policy = .ok preferred)
    (hidle : normalizedState.activeWorker = none ∨ normalizedState.activeTerminal = true) :
    ∃ kept pressure : Worker → Pressure,
      (∀ worker, HasPressure (reported state worker) (keptWindows (reported state worker))
        (kept worker)) ∧
      (∀ worker, HasPressure (reported state worker) (reportedWindows (reported state worker))
        (pressure worker)) ∧
      ∃ selection, selectWorker task state policy = .ok selection ∧
        (Contract normalizedTask normalizedState preferred pressure selection ↔
          SameRouting normalizedTask normalizedState preferred kept pressure) := by
  choose pressure hpressure using fun worker => (normalizeState_ok hstate worker).2
  refine ⟨normalizedState.pressure, pressure, fun worker => (normalizeState_ok hstate worker).1,
    hpressure, selectNormalized normalizedTask normalizedState preferred, ?_, ?_⟩
  · rw [selectWorker, htask, ok_bind, hstate, ok_bind, hpolicy, ok_bind]
    rfl
  · exact (selectNormalized_contract normalizedTask normalizedState preferred
      hidle).iff_sameRouting

/-! ## A window named `__proto__` -/

/-- A state in which the one quota window of Codex, named `__proto__`, is exhausted. -/
def protoWindowState : JsValue :=
  .obj [("workers", .obj [("codex", .obj [("quota_windows",
    .obj [("__proto__", .str "exhausted")])])])]

/-- An engineering task with nothing but defaults. -/
def defaultTask : NormalizedTask where
  mode := .coding
  taskClass := .generalEngineering
  scope := .small
  riskClass := .broadMutation
  evidenceReady := false
  enforceReadOnly := false
  boundedMutationScope := false
  requiresModelOverride := false
  requiresProviderOverride := false
  requiresQuotaProbe := false
  requiresNativeThreadInventory := false
  requiresExtensionCapability := false
  requiredCapabilities := []
  stagesRequested := []

/-- A worker of which nothing is known. -/
def unknownWorker : WorkerState := ⟨.unknown, .unknown, [], .unknown, .unknown⟩

/-- A state in which nothing is known of any worker. -/
def unknownState : NormalizedState where
  workers
    | .claude => unknownWorker
    | .codex => unknownWorker
    | .pi => unknownWorker
  activeWorker := none
  activeTerminal := true
  pendingHitl := false
  mutationAck := none
  failedWorkers := []

theorem normalizeTask_default : normalizeTask (.obj []) = .ok defaultTask := rfl

theorem normalizeState_protoWindow : normalizeState protoWindowState = .ok unknownState := rfl

/-- Codex is selected although it reports an exhausted quota. -/
theorem routing_contract_fails :
    ∃ pressure : Worker → Pressure,
      (∀ worker, HasPressure (reported protoWindowState worker)
        (reportedWindows (reported protoWindowState worker)) (pressure worker)) ∧
      ∃ selection, selectWorker (.obj []) protoWindowState (.obj []) = .ok selection ∧
        selection.action = .select ∧ selection.worker = some .codex ∧
        pressure .codex = .exhausted ∧
        ¬ Contract defaultTask unknownState none pressure selection := by
  refine ⟨fun | .codex => .exhausted | _ => .unknown, fun worker => ?_,
    selectNormalized defaultTask unknownState none, rfl, by decide, by decide, rfl, fun h => ?_⟩
  · cases worker with
    | codex =>
      refine .inr ⟨⟨_, List.mem_singleton_self _, rfl⟩, fun window hw p hp => ?_⟩
      obtain rfl := List.mem_singleton.mp hw
      obtain rfl : p = .exhausted := ofEnum_inj.mp hp.symm
      exact le_rfl
    | claude => exact .inl ⟨rfl, rfl⟩
    | pi => exact .inl ⟨rfl, rfl⟩
  · exact (h.eligible .codex (by decide)).notExhausted rfl

theorem routing_contract_protoWindow :
    ∃ kept pressure : Worker → Pressure,
      (∀ worker, HasPressure (reported protoWindowState worker)
        (keptWindows (reported protoWindowState worker)) (kept worker)) ∧
      (∀ worker, HasPressure (reported protoWindowState worker)
        (reportedWindows (reported protoWindowState worker)) (pressure worker)) ∧
      ∃ selection, selectWorker (.obj []) protoWindowState (.obj []) = .ok selection ∧
        (Contract defaultTask unknownState none pressure selection ↔
          SameRouting defaultTask unknownState none kept pressure) :=
  routing_contract normalizeTask_default normalizeState_protoWindow rfl (.inl rfl)

end Wns.Routing
