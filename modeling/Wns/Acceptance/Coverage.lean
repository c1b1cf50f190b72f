import Wns.Acceptance.Evidence

/-!
# Evidence coverage

The result of `evaluateWorkerEvidenceSubmission` where the identities agree: the criteria are
split into the covered and the missing ones, by the set of ids for which there is evidence.

* `coverageResult_congr`: nothing but that set matters.
* `partition_coverageResult`, `grows_coverageResult`: the split, and what more evidence does.
* `coverage_laws`: the same of the evaluator.
-/

namespace Wns.Acceptance

open Ecma

/-- The ids of the criteria. -/
def GateAcceptanceSpec.criterionIds (spec : GateAcceptanceSpec) : List TrimmedString :=
  spec.criteria.map Criterion.criterionId

/-- The ids for which there is evidence. -/
def WorkerEvidenceSubmission.evidencedIds (submission : WorkerEvidenceSubmission) :
    List TrimmedString :=
  submission.evidence.map EvidenceItem.criterionId

/-! ## The split -/

/-- Each criterion is either covered or missing, in the order of the spec. -/
structure Partition (criterionIds : List TrimmedString) (result : EvaluationResult) : Prop where
  covered : result.coveredCriteria.Sublist criterionIds
  missing : result.missingCriteria.Sublist criterionIds
  disjoint : result.coveredCriteria.Disjoint result.missingCriteria
  once : ∀ id ∈ criterionIds, (result.coveredCriteria ++ result.missingCriteria).count id = 1
  within : ∀ id ∈ result.coveredCriteria ++ result.missingCriteria, id ∈ criterionIds

section

variable {criterionIds evidencedIds : List TrimmedString}

theorem coveredCriteria_coverageResult :
    (coverageResult criterionIds evidencedIds).coveredCriteria =
      criterionIds.filter fun id => id ∈ evidencedIds := by
  simp only [coverageResult]
  split_ifs <;> rfl

theorem mem_coveredCriteria {id : TrimmedString} :
    id ∈ (coverageResult criterionIds evidencedIds).coveredCriteria ↔
      id ∈ criterionIds ∧ id ∈ evidencedIds := by
  rw [coveredCriteria_coverageResult, List.mem_filter, decide_eq_true_eq]

theorem missingCriteria_coverageResult :
    (coverageResult criterionIds evidencedIds).missingCriteria =
      criterionIds.filter fun id => id ∉ evidencedIds := by
  simp only [coverageResult]
  split_ifs <;> rfl

/-- A submission is ready iff there is evidence for precisely the criteria. -/
theorem ready_coverageResult :
    (coverageResult criterionIds evidencedIds).readyForSupervisorReview = true ↔
      ∀ id, id ∈ evidencedIds ↔ id ∈ criterionIds := by
  simp only [coverageResult]
  split_ifs with hunknown hmissing
  · obtain ⟨id, hid, hnot⟩ := hunknown
    simp only [evaluationResult, Bool.false_eq_true, false_iff, not_forall]
    exact ⟨id, fun h => hnot (h.mp hid)⟩
  · obtain ⟨id, hid⟩ := List.exists_mem_of_ne_nil _ hmissing
    obtain ⟨hcriterion, hnot⟩ := List.mem_filter.mp hid
    simp only [evaluationResult, Bool.false_eq_true, false_iff, not_forall]
    exact ⟨id, fun h => by simp [h.mpr hcriterion] at hnot⟩
  · push Not at hunknown
    rw [ne_eq, not_not, List.filter_eq_nil_iff] at hmissing
    simp only [evaluationResult, true_iff]
    exact fun id => ⟨hunknown id, fun hid => by simpa using hmissing id hid⟩

/-- The result depends on the set of ids for which there is evidence. -/
theorem coverageResult_congr {evidencedIds' : List TrimmedString}
    (h : ∀ id, id ∈ evidencedIds' ↔ id ∈ evidencedIds) :
    coverageResult criterionIds evidencedIds' = coverageResult criterionIds evidencedIds := by
  simp only [coverageResult, h]

theorem partition_coverageResult (h : criterionIds.Nodup) :
    Partition criterionIds (coverageResult criterionIds evidencedIds) := by
  have hperm := List.filter_append_perm (fun id => decide (id ∈ evidencedIds)) criterionIds
  simp only [← decide_not] at hperm
  rw [← coveredCriteria_coverageResult, ← missingCriteria_coverageResult] at hperm
  refine ⟨?_, ?_, ?_, fun id hid => ?_, fun id => hperm.mem_iff.mp⟩
  · exact coveredCriteria_coverageResult ▸ List.filter_sublist
  · exact missingCriteria_coverageResult ▸ List.filter_sublist
  · exact List.disjoint_of_nodup_append (hperm.nodup_iff.mpr h)
  · rw [hperm.count_eq, List.count_eq_one_of_mem h hid]

/-- `id` may have moved from the missing criteria to the covered ones, and nothing else has. -/
structure Grows (result result' : EvaluationResult) (id : TrimmedString) : Prop where
  covered : ∀ other, other ∈ result'.coveredCriteria ↔
    other ∈ result.coveredCriteria ∨ other = id
  missing : ∀ other, other ∈ result'.missingCriteria ↔
    other ∈ result.missingCriteria ∧ other ≠ id
  ready : result.readyForSupervisorReview = true → result'.readyForSupervisorReview = true

theorem grows_coverageResult {evidencedIds' : List TrimmedString} {id : TrimmedString}
    (hid : id ∈ criterionIds)
    (h : ∀ other, other ∈ evidencedIds' ↔ other = id ∨ other ∈ evidencedIds) :
    Grows (coverageResult criterionIds evidencedIds) (coverageResult criterionIds evidencedIds')
      id where
  covered other := by
    simp only [mem_coveredCriteria, h]
    constructor
    · rintro ⟨hother, rfl | hevidenced⟩
      · exact .inr rfl
      · exact .inl ⟨hother, hevidenced⟩
    · rintro (⟨hother, hevidenced⟩ | rfl)
      · exact ⟨hother, .inr hevidenced⟩
      · exact ⟨hid, .inl rfl⟩
  missing other := by
    simp only [missingCriteria_coverageResult, List.mem_filter, h, not_or, decide_eq_true_eq]
    exact ⟨fun ⟨hother, hne, hnot⟩ => ⟨⟨hother, hnot⟩, hne⟩,
      fun ⟨⟨hother, hnot⟩, hne⟩ => ⟨hother, hne, hnot⟩⟩
  ready hready := by
    rw [ready_coverageResult] at hready
    refine ready_coverageResult.mpr fun other => ?_
    rw [h, hready, or_iff_right_iff_imp]
    rintro rfl
    exact hid

end

/-! ## Submissions -/

/-- Changes of a submission that keep the set of ids for which there is evidence. -/
inductive Edit (s : WorkerEvidenceSubmission) : WorkerEvidenceSubmission → Prop
  | permuted {evidence : List EvidenceItem} (h : evidence.Perm s.evidence) :
    Edit s { s with evidence }
  | repeated {before after : List EvidenceItem} {item : EvidenceItem}
    (h : s.evidence = before ++ after) (hitem : item ∈ s.evidence) :
    Edit s { s with evidence := before ++ item :: after }
  | evidenceRef {before after : List EvidenceItem} {item : EvidenceItem}
    (h : s.evidence = before ++ item :: after) (evidenceRef : TrimmedString) :
    Edit s { s with evidence := before ++ { item with evidenceRef } :: after }
  | workerClaim (workerClaim : WorkerClaim) : Edit s { s with workerClaim }

/-- Submissions under one identity, with evidence for the same ids. -/
structure SameEvidence (s s' : WorkerEvidenceSubmission) : Prop where
  identity : s'.toAcceptanceIdentity = s.toAcceptanceIdentity
  ids : ∀ id, id ∈ s'.evidencedIds ↔ id ∈ s.evidencedIds

theorem Edit.sameEvidence {s s' : WorkerEvidenceSubmission} (h : Edit s s') :
    SameEvidence s s' := by
  cases h with
  | permuted h => exact ⟨rfl, fun id => (h.map _).mem_iff⟩
  | @repeated before after item h hitem =>
    refine ⟨rfl, fun id => ?_⟩
    have hmem : item.criterionId ∈ (before ++ after).map EvidenceItem.criterionId :=
      List.mem_map_of_mem (h ▸ hitem)
    simp only [WorkerEvidenceSubmission.evidencedIds, h, List.map_append, List.map_cons,
      List.mem_append, List.mem_cons] at hmem ⊢
    constructor
    · rintro (hbefore | rfl | hafter)
      · exact .inl hbefore
      · exact hmem
      · exact .inr hafter
    · exact Or.imp_right .inr
  | evidenceRef h evidenceRef =>
    refine ⟨rfl, fun id => ?_⟩
    simp only [WorkerEvidenceSubmission.evidencedIds, h, List.map_append, List.map_cons]
  | workerClaim workerClaim => exact ⟨rfl, fun id => .rfl⟩

/-- **The criteria are split by the ids for which there is evidence.** Where spec, submission and
    current identity agree, the covered criteria are those with evidence, the submission is ready
    iff there is evidence for precisely the criteria, nothing but that set of ids matters, and more
    evidence never takes anything away. -/
theorem coverage_laws {spec submission current : JsValue} {validatedSpec : GateAcceptanceSpec}
    {validatedSubmission : WorkerEvidenceSubmission}
    (hspec : normalizeGateAcceptanceSpec spec = .ok validatedSpec)
    (hsubmission : normalizeWorkerEvidenceSubmission submission = .ok validatedSubmission)
    (hcurrent : normalizeCurrentAcceptanceIdentity current =
      .ok validatedSpec.toAcceptanceIdentity)
    (hbound : validatedSubmission.toAcceptanceIdentity = validatedSpec.toAcceptanceIdentity) :
    ∃ result, evaluateWorkerEvidenceSubmission spec submission current = .ok result ∧
      Partition validatedSpec.criterionIds result ∧
      (∀ id, id ∈ result.coveredCriteria ↔
        id ∈ validatedSpec.criterionIds ∧ id ∈ validatedSubmission.evidencedIds) ∧
      (result.readyForSupervisorReview = true ↔
        ∀ id, id ∈ validatedSubmission.evidencedIds ↔ id ∈ validatedSpec.criterionIds) ∧
      (∀ submission' validated', normalizeWorkerEvidenceSubmission submission' = .ok validated' →
        SameEvidence validatedSubmission validated' →
        evaluateWorkerEvidenceSubmission spec submission' current = .ok result) ∧
      (∀ submission' validated', normalizeWorkerEvidenceSubmission submission' = .ok validated' →
        Edit validatedSubmission validated' →
        evaluateWorkerEvidenceSubmission spec submission' current = .ok result) ∧
      ∀ submission' validated' item,
        normalizeWorkerEvidenceSubmission submission' = .ok validated' →
        validated'.toAcceptanceIdentity = validatedSubmission.toAcceptanceIdentity →
        validated'.evidence.Perm (item :: validatedSubmission.evidence) →
        item.criterionId ∈ validatedSpec.criterionIds →
        ∃ result', evaluateWorkerEvidenceSubmission spec submission' current = .ok result' ∧
          Grows result result' item.criterionId := by
  have hsame : ∀ submission' validated',
      normalizeWorkerEvidenceSubmission submission' = .ok validated' →
      SameEvidence validatedSubmission validated' →
      evaluateWorkerEvidenceSubmission spec submission' current =
        .ok (coverageResult validatedSpec.criterionIds validatedSubmission.evidencedIds) := by
    intro submission' validated' h' h
    rw [evaluateWorkerEvidenceSubmission_eq hspec h' hcurrent (h.identity.trans hbound)]
    exact congrArg Except.ok (coverageResult_congr h.ids)
  refine ⟨_, hsame _ _ hsubmission ⟨rfl, fun _ => .rfl⟩,
    partition_coverageResult validatedSpec.unique, fun _ => mem_coveredCriteria,
    ready_coverageResult, hsame,
    fun submission' validated' h' hedit => hsame _ _ h' hedit.sameEvidence, ?_⟩
  intro submission' validated' item h' hidentity hperm hitem
  refine ⟨_, evaluateWorkerEvidenceSubmission_eq hspec h' hcurrent (hidentity.trans hbound), ?_⟩
  refine grows_coverageResult hitem fun other => ?_
  rw [(hperm.map EvidenceItem.criterionId).mem_iff, List.map_cons, List.mem_cons]
  exact .rfl

/-- Evidence for the second criterion alone. -/
def partialSubmission : WorkerEvidenceSubmission :=
  { gateIdentity with
    workerClaim := .ready
    evidence := [⟨checked "criterion-2", checked "evidence:2"⟩] }

theorem coverage_laws_partialSubmission :
    ∃ result, evaluateWorkerEvidenceSubmission gateInputs.spec.toValue partialSubmission.toValue
        gateIdentity.toValue = .ok result ∧
      (∃ result', evaluateWorkerEvidenceSubmission gateInputs.spec.toValue
          gateInputs.submission.toValue gateIdentity.toValue = .ok result' ∧
        Grows result result' ⟨"criterion-1", by decide⟩) := by
  obtain ⟨result, hresult, -, -, -, -, -, hgrows⟩ :=
    @coverage_laws gateInputs.spec.toValue partialSubmission.toValue gateIdentity.toValue
      gateInputs.spec partialSubmission (normalizeGateAcceptanceSpec_eq_ok.mpr (.refl _))
      (normalizeWorkerEvidenceSubmission_eq_ok.mpr (.refl _))
      (normalizeCurrentAcceptanceIdentity_eq_ok.mpr (.refl _)) rfl
  refine ⟨result, hresult, ?_⟩
  exact hgrows gateInputs.submission.toValue gateInputs.submission
    ⟨⟨"criterion-1", by decide⟩, ⟨"evidence:1", by decide⟩⟩
    (normalizeWorkerEvidenceSubmission_eq_ok.mpr (.refl _)) rfl (.swap _ _ _)
    List.mem_cons_self

end Wns.Acceptance
