import Wns.Ecma.Coerce
import Wns.Ecma.Set

/-!
# Convergence certificates

Model of `supervisor-policy/convergence.mjs` (lines 56–299): findings, and the certificate
that a task has converged on what was intended. A certificate is not believed; its verdict
takes effect when no blocker stands against it.

* `sameStringSet_iff`: on lists without repetition, the comparison by lengths and sizes is
  that of the sets.
* `sameStringSet_exact`: it is exact wherever the second list repeats nothing.
* `sameStringSet_exact_iff`: on any lists, when it is.
* `blockers_eq_nil`: no blocker is found iff the certificate proves convergence.
* `convergence_exact`: the evaluation throws on a repeated finding id, and otherwise
  answers as the certificate proves, whatever the order of its lists.
-/

namespace Wns.Convergence

open Ecma

/-! ## Enumerations -/

/-- `GAP_TYPES`. -/
inductive GapType
  | missing | partially | contradicts | unrequested
  deriving DecidableEq

instance : JsEnum GapType where
  values := [.missing, .partially, .contradicts, .unrequested]
  text
    | .missing => "missing"
    | .partially => "partial"
    | .contradicts => "contradicts"
    | .unrequested => "unrequested"
  complete := by rintro ⟨⟩ <;> simp
  injective := by rintro ⟨⟩ ⟨⟩ <;> simp

/-- `SEVERITIES`. -/
inductive Severity
  | critical | high | medium | low
  deriving DecidableEq

instance : JsEnum Severity where
  values := [.critical, .high, .medium, .low]
  text
    | .critical => "critical"
    | .high => "high"
    | .medium => "medium"
    | .low => "low"
  complete := by rintro ⟨⟩ <;> simp
  injective := by rintro ⟨⟩ ⟨⟩ <;> simp

/-- `FINDING_STATUSES`. -/
inductive FindingStatus
  | «open» | resolved | superseded
  deriving DecidableEq

instance : JsEnum FindingStatus where
  values := [.open, .resolved, .superseded]
  text
    | .open => "open"
    | .resolved => "resolved"
    | .superseded => "superseded"
  complete := by rintro ⟨⟩ <;> simp
  injective := by rintro ⟨⟩ ⟨⟩ <;> simp

/-- `FINDING_VERIFIER_ROLES`. -/
inductive FindingVerifierRole
  | supervisor | independentVerifier | executor
  deriving DecidableEq

instance : JsEnum FindingVerifierRole where
  values := [.supervisor, .independentVerifier, .executor]
  text
    | .supervisor => "supervisor"
    | .independentVerifier => "independent_verifier"
    | .executor => "executor"
  complete := by rintro ⟨⟩ <;> simp
  injective := by rintro ⟨⟩ ⟨⟩ <;> simp

/-- `CERTIFICATE_VERIFIER_ROLES`. -/
inductive CertificateVerifierRole
  | supervisor | independentVerifier
  deriving DecidableEq

instance : JsEnum CertificateVerifierRole where
  values := [.supervisor, .independentVerifier]
  text
    | .supervisor => "supervisor"
    | .independentVerifier => "independent_verifier"
  complete := by rintro ⟨⟩ <;> simp
  injective := by rintro ⟨⟩ ⟨⟩ <;> simp

/-- `COVERAGE_STATES`. -/
inductive Coverage
  | complete | partially | unknown
  deriving DecidableEq

instance : JsEnum Coverage where
  values := [.complete, .partially, .unknown]
  text
    | .complete => "complete"
    | .partially => "partial"
    | .unknown => "unknown"
  complete := by rintro ⟨⟩ <;> simp
  injective := by rintro ⟨⟩ ⟨⟩ <;> simp

/-- `VERDICTS`. -/
inductive Verdict
  | converged | notConverged
  deriving DecidableEq

instance : JsEnum Verdict where
  values := [.converged, .notConverged]
  text
    | .converged => "converged"
    | .notConverged => "not_converged"
  complete := by rintro ⟨⟩ <;> simp
  injective := by rintro ⟨⟩ ⟨⟩ <;> simp

/-! ## Checks -/

/-- `requirePlainObject(value, label)`. -/
def requirePlainObject (value : JsValue) (label : JsString) : Throws Props :=
  plainObject (label ++ " must be an object") value

/-- `requireExactKeys(value, allowed, label)`. -/
def requireExactKeys (value : Props) (allowed : List JsString) (label : JsString) :
    Throws Unit :=
  checkKeys (fun key => label ++ " has unknown key: " ++ key)
    (fun key => label ++ " is missing required key: " ++ key) value allowed

/-- A non-empty string. -/
abbrev NonEmptyString := {s : JsString // s ≠ []}

/-- Accepts a non-empty string. -/
def nonEmptyString (message : JsString) : JsValue → Throws NonEmptyString
  | .str s => if h : s ≠ [] then .ok ⟨s, h⟩ else throwType message
  | _ => throwType message

/-- `requireNonEmptyString(value, label)`. -/
def requireNonEmptyString (value : JsValue) (label : JsString) : Throws NonEmptyString :=
  nonEmptyString (label ++ " must be a non-empty string") value

/-- `requireStringArray(value, label)`. -/
def requireStringArray (value : JsValue) (label : JsString) : Throws (List NonEmptyString) :=
  match value with
  | .arr items => items.mapM (nonEmptyString (label ++ " entries must be non-empty strings"))
  | _ => throwType (label ++ " must be an array")

/-- `requireStringArray(value, label, { nonEmpty: true })`. -/
def requireNonEmptyStringArray (value : JsValue) (label : JsString) :
    Throws {l : List NonEmptyString // l ≠ []} := do
  let entries ← requireStringArray value label
  let ⟨hne⟩ ← require (entries ≠ []) (label ++ " must not be empty")
  pure ⟨entries, hne⟩

/-- The first entry that repeats an earlier one. -/
def firstDuplicate (seen : List NonEmptyString) : List NonEmptyString → Option NonEmptyString
  | [] => none
  | entry :: entries =>
    if entry ∈ seen then some entry else firstDuplicate (seen ++ [entry]) entries

theorem firstDuplicate_eq_none {seen entries : List NonEmptyString} :
    firstDuplicate seen entries = none ↔ entries.Nodup ∧ ∀ entry ∈ entries, entry ∉ seen := by
  induction entries generalizing seen with
  | nil => simp [firstDuplicate]
  | cons entry entries ih =>
    rw [firstDuplicate, List.nodup_cons, List.forall_mem_cons]
    split_ifs with h
    · exact iff_of_false nofun fun h' => h'.2.1 h
    · rw [ih]
      constructor
      · intro ⟨hnodup, hseen⟩
        refine ⟨⟨fun hmem => ?_, hnodup⟩, h, fun e he hmem => ?_⟩
        · exact hseen entry hmem (List.mem_append_right _ List.mem_cons_self)
        · exact hseen e he (List.mem_append_left _ hmem)
      · intro ⟨⟨hmem, hnodup⟩, _, hseen⟩
        refine ⟨hnodup, fun e he hmem' => ?_⟩
        obtain hmem' | hmem' := List.mem_append.mp hmem'
        · exact hseen e he hmem'
        · exact hmem (List.mem_singleton.mp hmem' ▸ he)

/-- `requireUniqueStringArray(value, label)`. -/
def requireUniqueStringArray (value : JsValue) (label : JsString) :
    Throws {l : List NonEmptyString // l.Nodup} := do
  let entries ← requireStringArray value label
  match h : firstDuplicate [] entries with
  | some entry => throwType (label ++ " has duplicate entry: " ++ entry.1)
  | none => pure ⟨entries, (firstDuplicate_eq_none.mp h).1⟩

/-- `requireEnum(value, set, label)`. -/
def requireEnum {α : Type} [JsEnum α] (value : JsValue) (label : JsString) : Throws α :=
  match JsEnum.values.find? fun a : α => value = ofEnum a with
  | some a => .ok a
  | none => do
    let text ← toText value
    throwType (label ++ " has an invalid value: " ++ text)

/-! ## Findings and certificates -/

structure Verifier (ρ : Type) where
  role : ρ
  id : NonEmptyString
  deriving DecidableEq

structure Finding where
  findingId : NonEmptyString
  sourceRef : NonEmptyString
  gapType : GapType
  severity : Severity
  evidence : {l : List NonEmptyString // l ≠ []}
  remediation : NonEmptyString
  verifier : Verifier FindingVerifierRole
  status : FindingStatus
  deriving DecidableEq

structure Certificate where
  taskId : NonEmptyString
  intentRefs : List NonEmptyString
  coverage : Coverage
  sourceRefs : {l : List NonEmptyString // l.Nodup}
  findingRefs : {l : List NonEmptyString // l.Nodup}
  openFindingIds : {l : List NonEmptyString // l.Nodup}
  evidenceRefs : List NonEmptyString
  verifier : Verifier CertificateVerifierRole
  verdict : Verdict
  deriving DecidableEq

/-- `normalizeVerifier(verifier, roleSet, label)`. -/
def normalizeVerifier {ρ : Type} [JsEnum ρ] (verifier : JsValue) (label : JsString) :
    Throws (Verifier ρ) := do
  let value ← requirePlainObject verifier label
  requireExactKeys value ["role", "id"] label
  let role ← requireEnum (prop value "role") (label ++ ".role")
  let id ← requireNonEmptyString (prop value "id") (label ++ ".id")
  pure ⟨role, id⟩

/-- `normalizeFinding(finding)`. -/
def normalizeFinding (finding : JsValue) : Throws Finding := do
  let value ← requirePlainObject finding "finding"
  requireExactKeys value ["finding_id", "source_ref", "gap_type", "severity", "evidence",
    "remediation", "verifier", "status"] "finding"
  let evidence ← requireNonEmptyStringArray (prop value "evidence") "finding.evidence"
  let findingId ← requireNonEmptyString (prop value "finding_id") "finding.finding_id"
  let sourceRef ← requireNonEmptyString (prop value "source_ref") "finding.source_ref"
  let gapType ← requireEnum (prop value "gap_type") "finding.gap_type"
  let severity ← requireEnum (prop value "severity") "finding.severity"
  let remediation ← requireNonEmptyString (prop value "remediation") "finding.remediation"
  let verifier ← normalizeVerifier (prop value "verifier") "finding.verifier"
  let status ← requireEnum (prop value "status") "finding.status"
  pure ⟨findingId, sourceRef, gapType, severity, evidence, remediation, verifier, status⟩

/-- `normalizeCertificate(certificate)`. -/
def normalizeCertificate (certificate : JsValue) : Throws Certificate := do
  let value ← requirePlainObject certificate "certificate"
  requireExactKeys value ["certificate_version", "task_id", "intent_refs", "verification_scope",
    "finding_refs", "open_finding_ids", "evidence_refs", "verifier", "verdict"] "certificate"
  check (prop value "certificate_version" = .nat 1)
    "certificate.certificate_version must equal 1"
  let scope ← requirePlainObject (prop value "verification_scope") "certificate.verification_scope"
  requireExactKeys scope ["coverage", "source_refs"] "certificate.verification_scope"
  let taskId ← requireNonEmptyString (prop value "task_id") "certificate.task_id"
  let intentRefs ← requireStringArray (prop value "intent_refs") "certificate.intent_refs"
  let coverage ← requireEnum (prop scope "coverage") "certificate.verification_scope.coverage"
  let sourceRefs ← requireUniqueStringArray (prop scope "source_refs")
    "certificate.verification_scope.source_refs"
  let findingRefs ← requireUniqueStringArray (prop value "finding_refs") "certificate.finding_refs"
  let openFindingIds ← requireUniqueStringArray (prop value "open_finding_ids")
    "certificate.open_finding_ids"
  let evidenceRefs ← requireStringArray (prop value "evidence_refs") "certificate.evidence_refs"
  let verifier ← normalizeVerifier (prop value "verifier") "certificate.verifier"
  let verdict ← requireEnum (prop value "verdict") "certificate.verdict"
  pure ⟨taskId, intentRefs, coverage, sourceRefs, findingRefs, openFindingIds, evidenceRefs,
    verifier, verdict⟩

/-! ## Evaluation -/

/-- `sameStringSet(a, b)`, whichever strings are compared. -/
def sameStringSet {α : Type} [DecidableEq α] (a b : List α) : Bool :=
  if a.length ≠ b.length then false
  else
    let seen := a.eraseDups
    if seen.length ≠ a.length then false
    else if ¬ ∀ entry ∈ b, entry ∈ seen then false
    else seen.length = (a ++ b).eraseDups.length

/-- A blocker, with what its detail reports. -/
inductive Blocker
  | verdictNotConverged (verdict : Verdict)
  | intentRefsEmpty
  | coverageNotComplete (coverage : Coverage)
  | scopeSourceRefsEmpty
  | certificateEvidenceRefsEmpty
  | findingRefsMismatch
  | findingSourceRefOutOfScope (ids : List NonEmptyString)
  | openFindingIdsMismatch
  | openFindingsPresent (ids : List NonEmptyString)
  | verifierNotAuthorized (role : CertificateVerifierRole)
  | executorSelfCertification
  deriving DecidableEq

/-- `code` of a blocker. -/
def Blocker.code : Blocker → JsString
  | .verdictNotConverged _ => "verdict_not_converged"
  | .intentRefsEmpty => "intent_refs_empty"
  | .coverageNotComplete _ => "coverage_not_complete"
  | .scopeSourceRefsEmpty => "scope_source_refs_empty"
  | .certificateEvidenceRefsEmpty => "certificate_evidence_refs_empty"
  | .findingRefsMismatch => "finding_refs_mismatch"
  | .findingSourceRefOutOfScope _ => "finding_source_ref_out_of_scope"
  | .openFindingIdsMismatch => "open_finding_ids_mismatch"
  | .openFindingsPresent _ => "open_findings_present"
  | .verifierNotAuthorized _ => "verifier_not_authorized"
  | .executorSelfCertification => "executor_self_certification"

/-- `detail` of a blocker. -/
def Blocker.detail : Blocker → JsValue
  | .verdictNotConverged verdict => ofEnum verdict
  | .intentRefsEmpty => .str "certificate.intent_refs is empty"
  | .coverageNotComplete coverage => ofEnum coverage
  | .scopeSourceRefsEmpty => .str "certificate.verification_scope.source_refs is empty"
  | .certificateEvidenceRefsEmpty => .str "certificate.evidence_refs is empty"
  | .findingRefsMismatch =>
    .str "certificate.finding_refs does not exactly cover the supplied findings"
  | .findingSourceRefOutOfScope ids => .arr (ids.map fun id => .str id.1)
  | .openFindingIdsMismatch =>
    .str "certificate.open_finding_ids does not match the actual open findings"
  | .openFindingsPresent ids => .arr (ids.map fun id => .str id.1)
  | .verifierNotAuthorized role => ofEnum role
  | .executorSelfCertification => .str "certificate.verifier.id equals executor_id"

/-- A blocker, if its condition holds. -/
def blockerIf (p : Prop) [Decidable p] (blocker : Blocker) : List Blocker :=
  if p then [blocker] else []

/-- The blockers, in the order in which they are looked for. -/
def blockers (cert : Certificate) (findings : List Finding)
    (executorId : Option NonEmptyString) : List Blocker :=
  let suppliedFindingIds := findings.map Finding.findingId
  let actualOpenIds := (findings.filter fun f => f.status = .open).map Finding.findingId
  let outOfScope :=
    (findings.filter fun f => f.sourceRef ∉ cert.sourceRefs.1).map Finding.findingId
  blockerIf (cert.verdict ≠ .converged) (.verdictNotConverged cert.verdict) ++
  blockerIf (cert.intentRefs.length = 0) .intentRefsEmpty ++
  blockerIf (cert.coverage ≠ .complete) (.coverageNotComplete cert.coverage) ++
  blockerIf (cert.sourceRefs.1.length = 0) .scopeSourceRefsEmpty ++
  blockerIf (cert.evidenceRefs.length = 0) .certificateEvidenceRefsEmpty ++
  blockerIf (sameStringSet cert.findingRefs.1 suppliedFindingIds = false) .findingRefsMismatch ++
  blockerIf (outOfScope.length > 0) (.findingSourceRefOutOfScope outOfScope) ++
  blockerIf (sameStringSet cert.openFindingIds.1 actualOpenIds = false) .openFindingIdsMismatch ++
  blockerIf (actualOpenIds.length > 0) (.openFindingsPresent actualOpenIds) ++
  blockerIf (cert.verifier.role ∉ (JsEnum.values : List CertificateVerifierRole))
    (.verifierNotAuthorized cert.verifier.role) ++
  blockerIf (executorId = some cert.verifier.id) .executorSelfCertification

structure Evaluation where
  taskId : NonEmptyString
  verdict : Verdict
  converged : Bool
  verdictEffective : Verdict
  openFindingIds : List NonEmptyString
  blockers : List Blocker
  closeAuthority : JsString

/-- `executor_id`, which may be left out or `null`. -/
def normalizeExecutorId (executorId : JsValue) : Throws (Option NonEmptyString) :=
  if executorId = .undefined ∨ executorId = .null then pure none
  else some <$> requireNonEmptyString executorId "executor_id"

/-- `evaluateConvergenceCertificate({ certificate, findings, executor_id })`. -/
def evaluateConvergenceCertificate (certificate findings executorId : JsValue) :
    Throws Evaluation := do
  let cert ← normalizeCertificate certificate
  let items ← array "findings must be an array" findings
  let normalizedFindings ← items.mapM normalizeFinding
  let normalizedExecutorId ← normalizeExecutorId executorId
  let suppliedFindingIds := normalizedFindings.map Finding.findingId
  check (suppliedFindingIds.eraseDups.length = suppliedFindingIds.length)
    "findings contain duplicate finding_id values"
  let blockers := blockers cert normalizedFindings normalizedExecutorId
  let converged : Bool := blockers.length = 0
  pure
    { taskId := cert.taskId
      verdict := cert.verdict
      converged
      verdictEffective := if converged then .converged else .notConverged
      openFindingIds :=
        (normalizedFindings.filter fun f => f.status = .open).map Finding.findingId
      blockers
      closeAuthority := "supervisor-policy/completion-gate.mjs" }

/-! ## Comparing sets -/

/-- `b` repeats an entry where it should have another one: it is as long as `a`, which does
    not repeat anything, and within it. -/
structure Repeats {α : Type} (a b : List α) : Prop where
  nodup : a.Nodup
  length : a.length = b.length
  within : ∀ x ∈ b, x ∈ a
  repeated : ¬ b.Nodup

/-- `a` and `b` are the same set, and neither lists anything twice. -/
def SameSet {α : Type} (a b : List α) : Prop := a.Nodup ∧ b.Nodup ∧ ∀ x, x ∈ a ↔ x ∈ b

theorem SameSet.symm {α : Type} {a b : List α} (h : SameSet a b) : SameSet b a :=
  ⟨h.2.1, h.1, fun x => (h.2.2 x).symm⟩

section

variable {α : Type} [DecidableEq α] {a b : List α}

/-- What `sameStringSet` checks. Its last comparison cannot fail after the others. -/
theorem sameStringSet_eq_true :
    sameStringSet a b = true ↔ a.length = b.length ∧ a.Nodup ∧ ∀ x ∈ b, x ∈ a := by
  simp only [sameStringSet]
  constructor
  · intro h
    split_ifs at h with hlen hsize hsub
    exact ⟨not_not.mp hlen, length_eraseDups_eq_iff.mp (not_not.mp hsize),
      fun x hx => List.mem_eraseDups.mp (hsub x hx)⟩
  · intro ⟨hlen, ha, hsub⟩
    have hunion : (a ++ b).eraseDups.Perm a :=
      (List.perm_ext_iff_of_nodup (nodup_eraseDups _) ha).mpr fun x => by
        rw [List.mem_eraseDups, List.mem_append, or_iff_left_of_imp (hsub x)]
    rw [eraseDups_eq_self ha, if_neg (not_not.mpr hlen), if_neg (not_not.mpr rfl),
      if_neg (not_not.mpr hsub)]
    exact decide_eq_true hunion.length_eq.symm

/-- Without repetitions, `sameStringSet` compares the sets. -/
theorem sameStringSet_iff (ha : a.Nodup) (hb : b.Nodup) :
    sameStringSet a b = true ↔ ∀ x, x ∈ a ↔ x ∈ b := by
  rw [sameStringSet_eq_true]
  constructor
  · intro ⟨hlen, _, hsub⟩
    -- `b` is within `a` and as long
    have hperm := (hb.subperm hsub).perm_of_length_le hlen.le
    exact fun x => hperm.mem_iff.symm
  · intro h
    have hperm := (List.perm_ext_iff_of_nodup ha hb).mpr h
    exact ⟨hperm.length_eq, ha, fun x => (h x).mpr⟩

theorem sameStringSet_of_sameSet (h : SameSet a b) : sameStringSet a b = true :=
  (sameStringSet_iff h.1 h.2.1).mpr h.2.2

theorem sameStringSet_of_repeats (h : Repeats a b) :
    sameStringSet a b = true ∧ sameStringSet b a = false := by
  refine ⟨sameStringSet_eq_true.mpr ⟨h.length, h.nodup, h.within⟩, ?_⟩
  rw [← Bool.not_eq_true, sameStringSet_eq_true]
  exact fun hba => h.repeated hba.2.1

/-- The comparison is exact but for a `b` that repeats an entry. -/
theorem sameSet_of_not_repeats (h : ¬ Repeats a b) :
    sameStringSet a b = true ↔ SameSet a b := by
  refine ⟨fun heq => ?_, sameStringSet_of_sameSet⟩
  obtain ⟨hlen, ha, hsub⟩ := sameStringSet_eq_true.mp heq
  have hb : b.Nodup := by
    by_contra hb
    exact h ⟨ha, hlen, hsub, hb⟩
  exact ⟨ha, hb, (sameStringSet_iff ha hb).mp heq⟩

end

/-- **A second array without duplicates is compared exactly.** Where the first one has none either,
    the comparison is symmetric. The ids that are compared have none on either side. -/
theorem sameStringSet_exact {a b : List JsString} (hb : b.Nodup) :
    (sameStringSet a b = true ↔ SameSet a b) ∧
      (a.Nodup → sameStringSet a b = sameStringSet b a) := by
  have hab : ¬ Repeats a b := fun h => h.repeated hb
  refine ⟨sameSet_of_not_repeats hab, fun ha => ?_⟩
  have hba : ¬ Repeats b a := fun h => h.repeated ha
  rw [Bool.eq_iff_iff, sameSet_of_not_repeats hab, sameSet_of_not_repeats hba]
  exact ⟨SameSet.symm, SameSet.symm⟩

theorem sameStringSet_exact_reordered :
    SameSet [js "x", js "y"] [js "y", js "x"] ∧
      sameStringSet [js "x", js "y"] [js "y", js "x"] =
        sameStringSet [js "y", js "x"] [js "x", js "y"] := by
  have hb : [js "y", js "x"].Nodup := by decide
  obtain ⟨hexact, hsymm⟩ := sameStringSet_exact (a := [js "x", js "y"]) hb
  exact ⟨hexact.mp (by decide), hsymm (by decide)⟩

/-- `sameStringSet` compares two arrays as sets without duplicates iff the second one does not
    make up for a missing entry by a repeated one, and it is symmetric iff neither does. -/
theorem sameStringSet_exact_iff (a b : List JsString) :
    ((sameStringSet a b = true ↔ SameSet a b) ↔ ¬ Repeats a b) ∧
      (sameStringSet a b = sameStringSet b a ↔ ¬ Repeats a b ∧ ¬ Repeats b a) := by
  constructor
  · refine ⟨fun h hrepeats => ?_, sameSet_of_not_repeats⟩
    exact hrepeats.repeated (h.mp (sameStringSet_of_repeats hrepeats).1).2.1
  · constructor
    · refine fun h => ⟨fun hrepeats => ?_, fun hrepeats => ?_⟩
      · obtain ⟨hab, hba⟩ := sameStringSet_of_repeats hrepeats
        rw [hab, hba] at h
        cases h
      · obtain ⟨hba, hab⟩ := sameStringSet_of_repeats hrepeats
        rw [hab, hba] at h
        cases h
    · intro ⟨hab, hba⟩
      rw [Bool.eq_iff_iff, sameSet_of_not_repeats hab, sameSet_of_not_repeats hba]
      exact ⟨SameSet.symm, SameSet.symm⟩

/-- A repeated entry stands for the missing one, in one direction only. -/
theorem sameStringSet_repeated :
    sameStringSet [js "x", js "y"] [js "x", js "x"] = true ∧
      ¬ SameSet [js "x", js "y"] [js "x", js "x"] ∧
      sameStringSet [js "x", js "x"] [js "x", js "y"] = false :=
  ⟨by decide, fun h => absurd h.2.1 (by decide), by decide⟩

/-! ## What the certificate proves -/

/-- What a certificate has to show for its verdict to take effect. -/
structure Converges (cert : Certificate) (findings : List Finding)
    (executorId : Option NonEmptyString) : Prop where
  verdict : cert.verdict = .converged
  intentRefs : cert.intentRefs ≠ []
  coverage : cert.coverage = .complete
  sourceRefs : cert.sourceRefs.1 ≠ []
  evidenceRefs : cert.evidenceRefs ≠ []
  findingRefs : ∀ id, id ∈ cert.findingRefs.1 ↔ ∃ f ∈ findings, f.findingId = id
  inScope : ∀ f ∈ findings, f.sourceRef ∈ cert.sourceRefs.1
  noneOpen : ∀ f ∈ findings, f.status ≠ .open
  openFindingIds : cert.openFindingIds.1 = []
  separation : executorId ≠ some cert.verifier.id

theorem blockerIf_eq_nil {p : Prop} [Decidable p] {b : Blocker} : blockerIf p b = [] ↔ ¬ p := by
  unfold blockerIf
  split_ifs with h <;> simp [h]

section

variable {cert : Certificate} {findings : List Finding} {executorId : Option NonEmptyString}

/-- No blocker stands against a certificate iff it shows convergence. -/
theorem blockers_eq_nil (hids : (findings.map Finding.findingId).Nodup) :
    blockers cert findings executorId = [] ↔ Converges cert findings executorId := by
  set openIds := (findings.filter fun f => f.status = .open).map Finding.findingId with hopenIds
  have hopen : openIds = [] ↔ ∀ f ∈ findings, f.status ≠ .open := by
    rw [hopenIds, List.map_eq_nil_iff, List.filter_eq_nil_iff]
    simp only [decide_eq_true_eq, ne_eq]
  have hscope : (findings.filter fun f => f.sourceRef ∉ cert.sourceRefs.1).map Finding.findingId =
      [] ↔ ∀ f ∈ findings, f.sourceRef ∈ cert.sourceRefs.1 := by
    rw [List.map_eq_nil_iff, List.filter_eq_nil_iff]
    simp only [decide_eq_true_eq, not_not]
  have hopenNodup : openIds.Nodup := hids.sublist (List.filter_sublist.map _)
  have hrefs := sameStringSet_iff cert.findingRefs.2 hids
  have hopenRefs := sameStringSet_iff cert.openFindingIds.2 hopenNodup
  simp only [blockers, List.append_eq_nil_iff, blockerIf_eq_nil, ne_eq, not_not,
    List.length_eq_zero_iff, gt_iff_lt, List.length_pos_iff, Bool.not_eq_false, hscope, ← hopenIds,
    hrefs, hopenRefs, hopen, JsEnum.complete]
  constructor
  · intro ⟨⟨⟨⟨⟨⟨⟨⟨⟨⟨h1, h2⟩, h3⟩, h4⟩, h5⟩, h6⟩, h7⟩, h8⟩, h9⟩, _⟩, h11⟩
    refine ⟨h1, h2, h3, h4, h5, fun id => (h6 id).trans List.mem_map, h7, h9, ?_, h11⟩
    -- the certificate lists the open findings, and there are none
    rw [List.eq_nil_iff_forall_not_mem]
    intro id hid
    rw [h8, hopen.mpr h9] at hid
    cases hid
  · intro h
    have hnone := hopen.mpr h.noneOpen
    refine ⟨⟨⟨⟨⟨⟨⟨⟨⟨⟨h.verdict, h.intentRefs⟩, h.coverage⟩, h.sourceRefs⟩, h.evidenceRefs⟩,
      fun id => (h.findingRefs id).trans List.mem_map.symm⟩, h.inScope⟩, ?_⟩, h.noneOpen⟩,
      trivial⟩, h.separation⟩
    intro id
    rw [h.openFindingIds, hnone]

end

/-! ## Order -/

/-- Two findings that list their evidence in another order. -/
structure Finding.SameButOrder (f g : Finding) : Prop where
  evidence : f.evidence.1.Perm g.evidence.1
  same : { f with evidence := g.evidence } = g

/-- Two certificates that list their references in another order. -/
structure Certificate.SameButOrder (c d : Certificate) : Prop where
  intentRefs : c.intentRefs.Perm d.intentRefs
  sourceRefs : c.sourceRefs.1.Perm d.sourceRefs.1
  findingRefs : c.findingRefs.1.Perm d.findingRefs.1
  openFindingIds : c.openFindingIds.1.Perm d.openFindingIds.1
  evidenceRefs : c.evidenceRefs.Perm d.evidenceRefs
  same : { c with
    intentRefs := d.intentRefs, sourceRefs := d.sourceRefs, findingRefs := d.findingRefs
    openFindingIds := d.openFindingIds, evidenceRefs := d.evidenceRefs } = d

/-- The findings in another order, each with its evidence in another order. -/
def Rearranged (fs gs : List Finding) : Prop :=
  ∃ hs : List Finding, fs.Perm hs ∧ List.Forall₂ Finding.SameButOrder hs gs

/-- What the evaluation reads of a finding. -/
def Finding.key (f : Finding) : NonEmptyString × NonEmptyString × FindingStatus :=
  (f.findingId, f.sourceRef, f.status)

theorem Finding.SameButOrder.key_eq {f g : Finding} (h : f.SameButOrder g) : f.key = g.key := by
  rw [← h.same]
  rfl

/-- Rearranged findings are read as a permutation. -/
theorem Rearranged.perm_key {fs gs : List Finding} (h : Rearranged fs gs) :
    (fs.map Finding.key).Perm (gs.map Finding.key) := by
  obtain ⟨hs, hperm, hforall⟩ := h
  have hmap : hs.map Finding.key = gs.map Finding.key := by
    clear hperm
    induction hforall with
    | nil => rfl
    | cons hfg _ ih => rw [List.map_cons, List.map_cons, hfg.key_eq, ih]
  exact hmap ▸ hperm.map _

/-- `Converges` reads the findings as a set of keys. -/
theorem Converges.of_perm_key {c d : Certificate} {fs gs : List Finding}
    {executorId : Option NonEmptyString} (hc : c.SameButOrder d)
    (hkey : (fs.map Finding.key).Perm (gs.map Finding.key)) (h : Converges c fs executorId) :
    Converges d gs executorId := by
  have hmem : ∀ g ∈ gs, ∃ f ∈ fs, f.key = g.key := fun g hg =>
    List.mem_map.mp (hkey.mem_iff.mpr (List.mem_map_of_mem hg))
  have hmem' : ∀ f ∈ fs, ∃ g ∈ gs, g.key = f.key := fun f hf =>
    List.mem_map.mp (hkey.mem_iff.mp (List.mem_map_of_mem hf))
  have hverifier : d.verifier = c.verifier := by rw [← hc.same]
  constructor
  case verdict => rw [← hc.same]; exact h.verdict
  case intentRefs => exact fun hnil => h.intentRefs (List.perm_nil.mp (hnil ▸ hc.intentRefs))
  case coverage => rw [← hc.same]; exact h.coverage
  case sourceRefs => exact fun hnil => h.sourceRefs (List.perm_nil.mp (hnil ▸ hc.sourceRefs))
  case evidenceRefs =>
    exact fun hnil => h.evidenceRefs (List.perm_nil.mp (hnil ▸ hc.evidenceRefs))
  case findingRefs =>
    intro id
    rw [← hc.findingRefs.mem_iff, h.findingRefs]
    constructor
    · intro ⟨f, hf, hid⟩
      obtain ⟨g, hg, hgf⟩ := hmem' f hf
      exact ⟨g, hg, (congrArg Prod.fst hgf).trans hid⟩
    · intro ⟨g, hg, hid⟩
      obtain ⟨f, hf, hfg⟩ := hmem g hg
      exact ⟨f, hf, (congrArg Prod.fst hfg).trans hid⟩
  case inScope =>
    intro g hg
    obtain ⟨f, hf, hfg⟩ := hmem g hg
    have hsource : f.sourceRef = g.sourceRef := congrArg (fun key => key.2.1) hfg
    exact hc.sourceRefs.mem_iff.mp (hsource ▸ h.inScope f hf)
  case noneOpen =>
    intro g hg
    obtain ⟨f, hf, hfg⟩ := hmem g hg
    have hstatus : f.status = g.status := congrArg (fun key => key.2.2) hfg
    exact hstatus ▸ h.noneOpen f hf
  case openFindingIds => exact List.nil_perm.mp (h.openFindingIds ▸ hc.openFindingIds)
  case separation => exact hverifier ▸ h.separation

theorem Certificate.SameButOrder.symm {c d : Certificate} (h : c.SameButOrder d) :
    d.SameButOrder c where
  intentRefs := h.intentRefs.symm
  sourceRefs := h.sourceRefs.symm
  findingRefs := h.findingRefs.symm
  openFindingIds := h.openFindingIds.symm
  evidenceRefs := h.evidenceRefs.symm
  same := by rw [← h.same]

/-! ## The evaluation -/

section

variable {certificate findings executorId : JsValue} {cert : Certificate} {items : List JsValue}
  {fs : List Finding} {executor : Option NonEmptyString}

/-- The evaluation of valid inputs. -/
theorem evaluateConvergenceCertificate_eq (hcert : normalizeCertificate certificate = .ok cert)
    (hitems : findings = .arr items) (hfs : items.mapM normalizeFinding = .ok fs)
    (hexecutor : normalizeExecutorId executorId = .ok executor) :
    evaluateConvergenceCertificate certificate findings executorId =
      if (fs.map Finding.findingId).Nodup then
        .ok
          { taskId := cert.taskId
            verdict := cert.verdict
            converged := blockers cert fs executor = []
            verdictEffective :=
              if blockers cert fs executor = [] then .converged else .notConverged
            openFindingIds := (fs.filter fun f => f.status = .open).map Finding.findingId
            blockers := blockers cert fs executor
            closeAuthority := "supervisor-policy/completion-gate.mjs" }
      else throwType "findings contain duplicate finding_id values" := by
  subst hitems
  simp only [evaluateConvergenceCertificate, hcert, ok_bind, array, hfs, hexecutor, check,
    length_eraseDups_eq_iff, List.length_eq_zero_iff, decide_eq_true_eq]
  split_ifs with hids <;> rfl

/-- **Convergence is exact.** The verdict takes effect exactly when the certificate shows
    convergence, in whatever order its references, the findings and their evidence are listed.
    Repeated finding ids are refused. -/
theorem convergence_exact (hcert : normalizeCertificate certificate = .ok cert)
    (hitems : findings = .arr items) (hfs : items.mapM normalizeFinding = .ok fs)
    (hexecutor : normalizeExecutorId executorId = .ok executor) :
    (¬ (fs.map Finding.findingId).Nodup →
      evaluateConvergenceCertificate certificate findings executorId =
        throwType "findings contain duplicate finding_id values") ∧
    ((fs.map Finding.findingId).Nodup →
      ∃ r, evaluateConvergenceCertificate certificate findings executorId = .ok r ∧
        (r.converged = true ↔ Converges cert fs executor) ∧
        ∀ certificate' cert' items' fs',
          normalizeCertificate certificate' = .ok cert' → cert.SameButOrder cert' →
          items'.mapM normalizeFinding = .ok fs' → Rearranged fs fs' →
          ∃ r', evaluateConvergenceCertificate certificate' (.arr items') executorId = .ok r' ∧
            r'.converged = r.converged) := by
  have heval := evaluateConvergenceCertificate_eq hcert hitems hfs hexecutor
  constructor
  · intro hids
    rw [heval, if_neg hids]
  intro hids
  rw [if_pos hids] at heval
  refine ⟨_, heval, ?_, ?_⟩
  · simp only [decide_eq_true_eq, blockers_eq_nil hids]
  · intro certificate' cert' items' fs' hcert' horder hfs' hrearranged
    have hkey := hrearranged.perm_key
    have hids' : (fs'.map Finding.findingId).Nodup := by
      have hperm := hkey.map Prod.fst
      rw [List.map_map, List.map_map] at hperm
      exact hperm.nodup_iff.mp hids
    refine ⟨_, (evaluateConvergenceCertificate_eq hcert' rfl hfs' hexecutor).trans
      (if_pos hids'), ?_⟩
    rw [Bool.eq_iff_iff]
    simp only [decide_eq_true_eq, blockers_eq_nil hids, blockers_eq_nil hids']
    exact ⟨.of_perm_key horder.symm hkey.symm, .of_perm_key horder hkey⟩

end

/-! ## Two resolved findings -/

def f1 : NonEmptyString := ⟨"F-1", by decide⟩

def f2 : NonEmptyString := ⟨"F-2", by decide⟩

def verifierValue : JsValue := .obj [("role", .str "supervisor"), ("id", .str "supervisor-1")]

/-- A resolved finding on the goal of the task. -/
def resolvedFinding (id : NonEmptyString) : Finding where
  findingId := id
  sourceRef := ⟨"spec://task-1", by decide⟩
  gapType := .missing
  severity := .high
  evidence := ⟨[⟨"evidence://e1", by decide⟩], by decide⟩
  remediation := ⟨"add it", by decide⟩
  verifier := ⟨.supervisor, ⟨"supervisor-1", by decide⟩⟩
  status := .resolved

def resolvedFindingValue (id : NonEmptyString) : JsValue :=
  .obj [("finding_id", .str id.1), ("source_ref", .str "spec://task-1"),
    ("gap_type", .str "missing"), ("severity", .str "high"),
    ("evidence", .arr [.str "evidence://e1"]), ("remediation", .str "add it"),
    ("verifier", verifierValue), ("status", .str "resolved")]

/-- A certificate that covers them. -/
def certificateFor (findingRefs : {l : List NonEmptyString // l.Nodup}) : Certificate where
  taskId := ⟨"task-1", by decide⟩
  intentRefs := [⟨"intent://task-1", by decide⟩]
  coverage := .complete
  sourceRefs := ⟨[⟨"spec://task-1", by decide⟩], by decide⟩
  findingRefs
  openFindingIds := ⟨[], by decide⟩
  evidenceRefs := [⟨"evidence://e1", by decide⟩]
  verifier := ⟨.supervisor, ⟨"supervisor-1", by decide⟩⟩
  verdict := .converged

def certificateValue (findingRefs : List JsValue) : JsValue :=
  .obj [("certificate_version", .nat 1), ("task_id", .str "task-1"),
    ("intent_refs", .arr [.str "intent://task-1"]),
    ("verification_scope",
      .obj [("coverage", .str "complete"), ("source_refs", .arr [.str "spec://task-1"])]),
    ("finding_refs", .arr findingRefs), ("open_finding_ids", .arr []),
    ("evidence_refs", .arr [.str "evidence://e1"]), ("verifier", verifierValue),
    ("verdict", .str "converged")]

theorem convergence_exact_twoFindings :
    (∃ r, evaluateConvergenceCertificate (certificateValue [.str "F-1", .str "F-2"])
        (.arr [resolvedFindingValue f1, resolvedFindingValue f2]) (.str "executor-1") = .ok r ∧
      r.converged = true ∧
      ∃ r', evaluateConvergenceCertificate (certificateValue [.str "F-2", .str "F-1"])
          (.arr [resolvedFindingValue f2, resolvedFindingValue f1]) (.str "executor-1") = .ok r' ∧
        r'.converged = true) ∧
    evaluateConvergenceCertificate (certificateValue [.str "F-1", .str "F-2"])
      (.arr [resolvedFindingValue f1, resolvedFindingValue f1]) (.str "executor-1") =
        throwType "findings contain duplicate finding_id values" := by
  have hcert : normalizeCertificate (certificateValue [.str "F-1", .str "F-2"]) =
      .ok (certificateFor ⟨[f1, f2], by decide⟩) := by rfl
  have hcert' : normalizeCertificate (certificateValue [.str "F-2", .str "F-1"]) =
      .ok (certificateFor ⟨[f2, f1], by decide⟩) := by rfl
  have hexecutor : normalizeExecutorId (.str "executor-1") =
      .ok (some ⟨"executor-1", by decide⟩) := by rfl
  have hfs : [resolvedFindingValue f1, resolvedFindingValue f2].mapM normalizeFinding =
      .ok [resolvedFinding f1, resolvedFinding f2] := by rfl
  have hfs' : [resolvedFindingValue f2, resolvedFindingValue f1].mapM normalizeFinding =
      .ok [resolvedFinding f2, resolvedFinding f1] := by rfl
  have hrepeated : [resolvedFindingValue f1, resolvedFindingValue f1].mapM normalizeFinding =
      .ok [resolvedFinding f1, resolvedFinding f1] := by rfl
  constructor
  · have hids : ([resolvedFinding f1, resolvedFinding f2].map Finding.findingId).Nodup := by decide
    obtain ⟨r, hr, hconverged, horder⟩ := (convergence_exact hcert rfl hfs hexecutor).2 hids
    have htrue : r.converged = true :=
      hconverged.mpr ((blockers_eq_nil hids).mp (by decide))
    have hsame : (certificateFor ⟨[f1, f2], by decide⟩).SameButOrder
        (certificateFor ⟨[f2, f1], by decide⟩) :=
      ⟨.refl _, .refl _, .swap .., .refl _, .refl _, rfl⟩
    have hrefl : List.Forall₂ Finding.SameButOrder [resolvedFinding f2, resolvedFinding f1]
        [resolvedFinding f2, resolvedFinding f1] :=
      List.forall₂_same.mpr fun f _ => ⟨.refl _, rfl⟩
    obtain ⟨r', hr', hsame'⟩ :=
      horder _ _ _ _ hcert' hsame hfs' ⟨_, .swap .., hrefl⟩
    exact ⟨r, hr, htrue, r', hr', hsame'.trans htrue⟩
  · exact (convergence_exact hcert rfl hrepeated hexecutor).1 (by decide)

end Wns.Convergence
