import Wns.Convergence.Certificate

/-!
# Residual work

Model of `findingToResidualWorkItem` (`supervisor-policy/convergence.mjs`, lines 156–171). What a
review has found and nobody has resolved becomes residual work: a candidate that authorizes
nothing.

* `findingToResidualWorkItem_eq_ok`: which findings become residual work.
* `residual_accounts`: the residual work of a review is what its evaluation reports as open.
-/

namespace Wns.Convergence

open Ecma

structure ResidualWorkItem where
  findingId : NonEmptyString
  sourceRef : NonEmptyString
  remediation : NonEmptyString
  evidenceRefs : List NonEmptyString
  candidate : Bool
  executionAuthorized : Bool
  promotionAuthorized : Bool
  findingStatusAfterConversion : FindingStatus
  deriving DecidableEq

/-- The residual work of a finding. -/
def Finding.residual (f : Finding) : ResidualWorkItem where
  findingId := f.findingId
  sourceRef := f.sourceRef
  remediation := f.remediation
  evidenceRefs := f.evidence.1
  candidate := true
  executionAuthorized := false
  promotionAuthorized := false
  findingStatusAfterConversion := .open

/-- `findingToResidualWorkItem(finding)`. -/
def findingToResidualWorkItem (finding : JsValue) : Throws ResidualWorkItem := do
  let normalized ← normalizeFinding finding
  if normalized.status ≠ .open then
    throwType "residual work item conversion is only allowed for an open finding"
  pure normalized.residual

theorem findingToResidualWorkItem_eq_ok {finding : JsValue} {w : ResidualWorkItem} :
    findingToResidualWorkItem finding = .ok w ↔
      ∃ f, normalizeFinding finding = .ok f ∧ f.status = .open ∧ w = f.residual := by
  unfold findingToResidualWorkItem
  simp only [bind_eq_ok]
  refine exists_congr fun f => and_congr_right fun _ => ?_
  by_cases hopen : f.status = .open
  · rw [if_neg (not_not.mpr hopen)]
    exact ⟨fun h => ⟨hopen, (pure_eq_ok.mp h).symm⟩, fun h => pure_eq_ok.mpr h.2.symm⟩
  · rw [if_pos hopen]
    simp [hopen]

/-- What of a review can be turned into residual work. -/
def residualWork (findings : List JsValue) : List ResidualWorkItem :=
  findings.filterMap fun finding => (findingToResidualWorkItem finding).toOption

/-- The residual work of findings is that of the open ones. -/
theorem residualWork_eq {items : List JsValue} {fs : List Finding}
    (h : items.mapM normalizeFinding = .ok fs) :
    residualWork items = (fs.filter fun f => f.status = .open).map Finding.residual := by
  have hall := forall₂_of_mapM h
  unfold residualWork
  clear h
  induction hall with
  | nil => rfl
  | @cons item f items fs hf _ ih =>
    rw [List.filterMap_cons, List.filter_cons, ih]
    by_cases hopen : f.status = .open
    · have hok := findingToResidualWorkItem_eq_ok.mpr ⟨f, hf, hopen, rfl⟩
      rw [hok, if_pos (decide_eq_true hopen)]
      rfl
    · have herror : (findingToResidualWorkItem item).toOption = none := by
        cases hitem : findingToResidualWorkItem item with
        | error => rfl
        | ok w =>
          obtain ⟨f', hf', hopen', -⟩ := findingToResidualWorkItem_eq_ok.mp hitem
          exact absurd (Except.ok.inj (hf.symm.trans hf') ▸ hopen') hopen
      rw [herror, if_neg (by simpa using hopen)]

/-- Each piece of residual work names the finding that it is for. -/
theorem residualWork_ids {items : List JsValue} {fs : List Finding}
    (h : items.mapM normalizeFinding = .ok fs) :
    (residualWork items).map ResidualWorkItem.findingId =
      (fs.filter fun f => f.status = .open).map Finding.findingId := by
  rw [residualWork_eq h, List.map_map]
  rfl

/-- Open findings block, and the blocker names them all. -/
theorem openFindingsPresent_mem {certificate : Certificate} {fs : List Finding}
    {executor : Option NonEmptyString} (h : (fs.filter fun f => f.status = .open) ≠ []) :
    .openFindingsPresent ((fs.filter fun f => f.status = .open).map Finding.findingId) ∈
      blockers certificate fs executor := by
  unfold blockers
  simp only [List.mem_append]
  refine .inl (.inl (.inr ?_))
  rw [blockerIf, if_pos (List.length_pos_iff.mpr fun hmap => h (List.map_eq_nil_iff.mp hmap))]
  exact List.mem_singleton_self _

/-- Each piece of residual work is that of an open finding of the review, and leaves it open. -/
structure Accounts (items : List JsValue) (e : Evaluation) : Prop where
  ids : (residualWork items).map ResidualWorkItem.findingId = e.openFindingIds
  nodup : e.openFindingIds.Nodup
  converged : e.converged = true → residualWork items = []
  blocked : residualWork items ≠ [] → .openFindingsPresent
    ((residualWork items).map ResidualWorkItem.findingId) ∈ e.blockers
  candidates : ∀ w ∈ residualWork items, w.candidate = true ∧ w.executionAuthorized = false ∧
    w.promotionAuthorized = false

/-- **What keeps a review from converging becomes residual work, and nothing else does.** -/
theorem residual_accounts {certificate executorId : JsValue} {items : List JsValue} {e : Evaluation}
    (h : evaluateConvergenceCertificate certificate (.arr items) executorId = .ok e) :
    Accounts items e := by
  have hparts := h
  unfold evaluateConvergenceCertificate at hparts
  obtain ⟨cert, hcert, hparts⟩ := bind_eq_ok.mp hparts
  obtain ⟨items', hitems, hparts⟩ := bind_eq_ok.mp hparts
  obtain rfl := JsValue.arr.inj (array_eq_ok.mp hitems)
  obtain ⟨fs, hfs, hparts⟩ := bind_eq_ok.mp hparts
  obtain ⟨executor, hexecutor, -⟩ := bind_eq_ok.mp hparts
  rw [evaluateConvergenceCertificate_eq hcert rfl hfs hexecutor] at h
  by_cases hids : (fs.map Finding.findingId).Nodup
  · rw [if_pos hids, Except.ok.injEq] at h
    subst h
    have hresidual := residualWork_eq hfs
    have hopen := residualWork_ids hfs
    have hblocked : residualWork items ≠ [] → Blocker.openFindingsPresent
        ((residualWork items).map ResidualWorkItem.findingId) ∈ blockers cert fs executor := by
      intro hwork
      rw [hopen]
      refine openFindingsPresent_mem fun hnone => hwork ?_
      rw [hresidual, hnone, List.map_nil]
    constructor
    case ids => exact hopen
    case nodup => exact hids.sublist (List.filter_sublist.map _)
    case converged =>
      intro hconverged
      by_contra hwork
      have hmem := hblocked hwork
      rw [of_decide_eq_true hconverged] at hmem
      cases hmem
    case blocked => exact hblocked
    case candidates =>
      intro w hw
      rw [hresidual] at hw
      obtain ⟨f, -, rfl⟩ := List.mem_map.mp hw
      exact ⟨rfl, rfl, rfl⟩
  · rw [if_neg hids] at h
    simp at h

/-- A finding on the goal of the task that nobody has resolved. -/
def openFindingValue : JsValue :=
  .obj [("finding_id", .str f1.1), ("source_ref", .str "spec://task-1"),
    ("gap_type", .str "missing"), ("severity", .str "high"),
    ("evidence", .arr [.str "evidence://e1"]), ("remediation", .str "add it"),
    ("verifier", verifierValue), ("status", .str "open")]

theorem residual_accounts_openFinding : ∃ e,
    evaluateConvergenceCertificate (certificateValue [.str "F-1"])
      (.arr [openFindingValue, resolvedFindingValue f2]) .null = .ok e ∧
    e.openFindingIds = [f1] := by
  have hcert : normalizeCertificate (certificateValue [.str "F-1"]) =
      .ok (certificateFor ⟨[f1], by decide⟩) := by rfl
  have hfs : [openFindingValue, resolvedFindingValue f2].mapM normalizeFinding =
      .ok [{ resolvedFinding f1 with status := .open }, resolvedFinding f2] := by rfl
  have hexecutor : normalizeExecutorId .null = .ok none := by rfl
  have h := evaluateConvergenceCertificate_eq hcert rfl hfs hexecutor
  rw [if_pos (by decide)] at h
  have hids := (residual_accounts h).ids
  rw [residualWork_eq hfs] at hids
  exact ⟨_, h, hids.symm⟩

end Wns.Convergence
