import Wns.Checkpoint.Validation
import Wns.Ecma.JsonRoundTrip

/-!
# The checkpoint codec

Model of `supervisor-policy/task-continuation.mjs`, lines 94–114.

* `restoreTaskCheckpoint_eq_ok`: the strings that restore to a checkpoint are its
  canonical serialization, and nothing else.
* `updateTaskCheckpoint_revision`: an update raises the revision by one.
-/

namespace Wns

open Ecma JsValue

/-! ## Definitions -/

/-- `canonicalize(value)`. -/
def canonicalize (value : JsValue) : JsValue := value.sortKeys

/-- `serializeTaskCheckpoint(checkpoint)`. -/
def serializeTaskCheckpoint (checkpoint : JsValue) : Throws JsString := do
  let c ← validateTaskCheckpoint checkpoint
  pure (jsonText (canonicalize c.toValue) ++ "\n")

/-- `restoreTaskCheckpoint(serialized)`. -/
def restoreTaskCheckpoint : JsValue → Throws TaskCheckpoint
  | .str serialized =>
    match parse serialized with
    | none => throwType "serialized checkpoint must be valid JSON"
    | some parsed => do
      let normalized ← validateTaskCheckpoint parsed
      let canonical ← serializeTaskCheckpoint normalized.toValue
      let _ ← require (serialized = canonical)
        "serialized checkpoint must use canonical serialization"
      pure normalized
  | _ => throwType "serialized checkpoint must be a string"

/-- The keys `updateTaskCheckpoint` may change. -/
def updatableKeys : List JsString :=
  ["task", "gates", "workspace", "constraints", "evidence_refs", "receipt_refs", "handoff_refs",
    "semantic_progress", "last_execution", "continuation"]

/-- `{ ...current, ...patch, checkpoint_version, revision: current.revision + 1 }`. -/
def TaskCheckpoint.next (current : TaskCheckpoint) (patch : Props) : Props :=
  defineProp (defineProp (spread current.props patch) "checkpoint_version" (.nat 1)) "revision"
    (.nat (current.revision.1 + 1))

/-- `updateTaskCheckpoint(previous, changes)`. -/
def updateTaskCheckpoint (previous changes : JsValue) : Throws TaskCheckpoint := do
  let current ← validateTaskCheckpoint previous
  let patch ← object changes "changes"
  match (ownKeys patch).find? fun key => key ∉ updatableKeys with
  | some key => throwType ("changes has an unknown key: " ++ key)
  | none =>
    validateTaskCheckpoint (.obj (current.next patch))

/-! ## Checkpoints are JSON -/

@[simp] theorem isJson_ofString (s : TrimmedString) : IsJson (ofString s) := .str _

@[simp] theorem isJson_ofNullable (s : Option TrimmedString) : IsJson (ofNullable s) :=
  isJson_nullable _

@[simp] theorem isJson_ofEnum {α : Type} [JsEnum α] (a : α) : IsJson (ofEnum a) := .str _

@[simp] theorem isJson_ofStrings (l : List TrimmedString) : IsJson (ofStrings l) := by
  rw [ofStrings, isJson_arr]
  intro v hv
  obtain ⟨s, -, rfl⟩ := List.mem_map.mp hv
  exact .str _

@[simp] theorem isJson_ofNatOrNull (n : Option ℕ) : IsJson (ofNatOrNull n) := by
  cases n
  · exact .null
  · exact isJson_nat _

@[simp] theorem isJson_task (t : Task) : IsJson t.toValue := by
  simp [Task.toValue, isJson_obj]

@[simp] theorem isJson_gates (g : Gates) : IsJson g.toValue := by
  simp [Gates.toValue, isJson_obj]

@[simp] theorem isJson_workspace (w : Workspace) : IsJson w.toValue := by
  simp [Workspace.toValue, isJson_obj]

@[simp] theorem isJson_constraints (c : Constraints) : IsJson c.toValue := by
  simp [Constraints.toValue, Constraint.toValue, Approval.toValue, isJson_obj, isJson_arr]

@[simp] theorem isJson_reference (r : Reference) : IsJson r.toValue := by
  simp [Reference.toValue, isJson_obj]

@[simp] theorem isJson_references (l : References) : IsJson (ofReferences l) := by
  simp [ofReferences, isJson_arr]

@[simp] theorem isJson_progress (p : SemanticProgress) : IsJson p.toValue := by
  simp [SemanticProgress.toValue, isJson_obj]

@[simp] theorem isJson_lastExecution (e : LastExecution) : IsJson e.toValue := by
  simp [LastExecution.toValue, isJson_obj]

@[simp] theorem isJson_nextAction (a : NextAction) : IsJson a.toValue := by
  simp [NextAction.toValue, isJson_obj]

@[simp] theorem isJson_continuation (c : Continuation) : IsJson c.toValue := by
  simp [Continuation.toValue, Continuation.props, isJson_obj]

@[simp] theorem isJson_checkpoint (c : TaskCheckpoint) : IsJson c.toValue := by
  simp [TaskCheckpoint.toValue, TaskCheckpoint.props, isJson_obj]

/-! ## The codec -/

/-- The canonical text of a checkpoint. -/
def TaskCheckpoint.text (c : TaskCheckpoint) : JsString :=
  jsonText (canonicalize c.toValue) ++ "\n"

@[simp] theorem serializeTaskCheckpoint_eq_ok {v : JsValue} {s : JsString} :
    serializeTaskCheckpoint v = .ok s ↔ ∃ c, validateTaskCheckpoint v = .ok c ∧ c.text = s := by
  simp [serializeTaskCheckpoint, TaskCheckpoint.text]

/-- The canonical text of a checkpoint parses to the checkpoint, in some key order. -/
theorem TaskCheckpoint.parse_text (c : TaskCheckpoint) :
    ∃ w, JsonEq w c.toValue ∧ parse c.text = some w := by
  have hj := isJson_checkpoint c
  have htail : EndsNumber (js "\n") := endsNumber_cons (by decide)
  obtain ⟨w, hw, hp⟩ := parse_jsonText hj.sortKeys htail (by decide)
  exact ⟨w, hw.trans (sortKeys_jsonEq hj.uniqueKeys), hp⟩

/-- A string restores to `c` iff it is the canonical text of `c`. -/
theorem restoreTaskCheckpoint_eq_ok {s : JsString} {c : TaskCheckpoint} :
    restoreTaskCheckpoint (.str s) = .ok c ↔ s = c.text := by
  constructor
  · intro h
    simp only [restoreTaskCheckpoint] at h
    split at h
    · simp at h
    · next parsed hp =>
      simp at h
      exact h.2
  · rintro rfl
    obtain ⟨w, hw, hp⟩ := c.parse_text
    simp [restoreTaskCheckpoint, hp, validateTaskCheckpoint_of_jsonEq hw]

/-- **Serializing and restoring are inverse to one another.** A valid checkpoint comes back
    from its serialization, and the strings that restore are the serializations, each of the
    one checkpoint it restores to. -/
theorem checkpoint_codec :
    (∀ v c, validateTaskCheckpoint v = .ok c →
      ∃ s, serializeTaskCheckpoint v = .ok s ∧ restoreTaskCheckpoint (.str s) = .ok c) ∧
    (∀ s, (∃ c, restoreTaskCheckpoint (.str s) = .ok c) ↔
      ∃ v, serializeTaskCheckpoint v = .ok s) ∧
    (∀ s c, restoreTaskCheckpoint (.str s) = .ok c →
      serializeTaskCheckpoint c.toValue = .ok s) ∧
    (∀ s t c, restoreTaskCheckpoint (.str s) = .ok c → restoreTaskCheckpoint (.str t) = .ok c →
      s = t) := by
  refine ⟨fun v c hc => ?_, fun s => ?_, fun s c h => ?_, fun s t c hs ht => ?_⟩
  · exact ⟨c.text, serializeTaskCheckpoint_eq_ok.mpr ⟨c, hc, rfl⟩,
      restoreTaskCheckpoint_eq_ok.mpr rfl⟩
  · constructor
    · intro ⟨c, h⟩
      exact ⟨c.toValue, by simp [restoreTaskCheckpoint_eq_ok.mp h]⟩
    · intro ⟨v, h⟩
      obtain ⟨c, -, rfl⟩ := serializeTaskCheckpoint_eq_ok.mp h
      exact ⟨c, restoreTaskCheckpoint_eq_ok.mpr rfl⟩
  · simp [restoreTaskCheckpoint_eq_ok.mp h]
  · rw [restoreTaskCheckpoint_eq_ok.mp hs, restoreTaskCheckpoint_eq_ok.mp ht]

/-- A checkpoint with an interrupted execution that may be resumed. -/
def interruptedCheckpoint : TaskCheckpoint where
  revision := ⟨4, by decide⟩
  task :=
    { id := ⟨"task-1", by decide⟩
      project := ⟨"project", by decide⟩
      goal := ⟨"goal", by decide⟩
      phase := ⟨"execute", by decide⟩
      status := .open }
  gates := ⟨⟨[⟨"intake", by decide⟩], by decide⟩, ⟨[⟨"execute", by decide⟩], by decide⟩, by decide⟩
  workspace := ⟨⟨"/work", by decide⟩, some ⟨"abc", by decide⟩, some ⟨"main", by decide⟩⟩
  constraints := ⟨[], ⟨.notRequired, ⟨[], by decide⟩⟩, by decide⟩
  evidenceRefs :=
    ⟨[⟨⟨"e1", by decide⟩, ⟨"test", by decide⟩, ⟨"evidence://1", by decide⟩, none⟩], by decide⟩
  receiptRefs := ⟨[], by decide⟩
  handoffRefs := ⟨[], by decide⟩
  semanticProgress := ⟨.productive, none, some 2, some 0⟩
  lastExecution := ⟨some ⟨"codex", by decide⟩, some ⟨"session-old", by decide⟩, .interrupted⟩
  continuation :=
    { nextAction := ⟨⟨"run_gate", by decide⟩, some ⟨"execute", by decide⟩, none⟩
      resumeCursor := ⟨"gate:execute", by decide⟩
      retryCount := ⟨0, by decide⟩
      safeToResume := true }

theorem checkpoint_codec_interrupted :
    ∃ s, serializeTaskCheckpoint interruptedCheckpoint.toValue = .ok s ∧
      restoreTaskCheckpoint (.str s) = .ok interruptedCheckpoint :=
  checkpoint_codec.1 _ _ (validateTaskCheckpoint_toValue _)

/-! ## Updates -/

theorem updateTaskCheckpoint_eq_ok {previous changes : JsValue} {d : TaskCheckpoint} :
    updateTaskCheckpoint previous changes = .ok d ↔
      ∃ c, validateTaskCheckpoint previous = .ok c ∧ ∃ patch, changes = .obj patch ∧
        (∀ k ∈ names patch, k ∈ updatableKeys) ∧ Describes (c.next patch) d := by
  simp only [updateTaskCheckpoint, bind_eq_ok, object_eq_ok]
  refine exists_congr fun c => and_congr_right fun _ => exists_congr fun patch =>
    and_congr_right fun _ => ?_
  split
  · next k hk =>
    have hmem := mem_ownKeys.mp (List.mem_of_find?_eq_some hk)
    have hnot := List.find?_some hk
    simp only [throwType_eq_ok, false_iff]
    exact fun h => by simp [h.1 k hmem] at hnot
  · next hk =>
    have hall : ∀ k ∈ names patch, k ∈ updatableKeys := fun k hmem => by
      simpa using List.find?_eq_none.mp hk k (mem_ownKeys.mpr hmem)
    rw [validateTaskCheckpoint_eq_ok]
    constructor
    · rintro ⟨_, h, hd⟩
      exact ⟨hall, JsValue.obj.inj h ▸ hd⟩
    · rintro ⟨_, hd⟩
      exact ⟨_, rfl, hd⟩

theorem TaskCheckpoint.prop_next_revision (c : TaskCheckpoint) (patch : Props) :
    prop (c.next patch) "revision" = .nat (c.revision.1 + 1) := by
  simp [next, prop_defineProp]

theorem TaskCheckpoint.prop_next (c : TaskCheckpoint) (patch : Props) {k : JsString}
    (hv : k ≠ "checkpoint_version") (hr : k ≠ "revision") :
    prop (c.next patch) k = prop (spread c.props patch) k := by
  simp [next, prop_defineProp, hv, hr]

/-- An update raises the revision by one. -/
theorem updateTaskCheckpoint_revision {previous changes : JsValue} {c d : TaskCheckpoint}
    (hc : validateTaskCheckpoint previous = .ok c)
    (h : updateTaskCheckpoint previous changes = .ok d) :
    d.revision.1 = c.revision.1 + 1 := by
  obtain ⟨c', hc', patch, -, -, hd⟩ := updateTaskCheckpoint_eq_ok.mp h
  obtain rfl := Except.ok.inj (hc.symm.trans hc')
  have hrev := hd.revision
  rw [c.prop_next_revision] at hrev
  exact (JsValue.nat_inj.mp hrev).symm

theorem prop_spread_of_notMem {target source : Props} {k : JsString} (h : k ∉ names source) :
    prop (spread target source) k = prop target k := by
  rw [prop_spread, if_neg h]

/-- An update of the last execution and the continuation leaves the rest alone. -/
theorem Describes.eq_of_patch {c d : TaskCheckpoint} {execution continuation : JsValue}
    (h : Describes (c.next [("last_execution", execution), ("continuation", continuation)]) d) :
    d = { c with
      revision := d.revision
      lastExecution := d.lastExecution
      continuation := d.continuation } := by
  have hsame : ∀ k : JsString, k ≠ "checkpoint_version" → k ≠ "revision" →
      k ≠ "last_execution" → k ≠ "continuation" →
      prop (c.next [("last_execution", execution), ("continuation", continuation)]) k =
        prop c.props k := by
    intro k h1 h2 h3 h4
    rw [c.prop_next _ h1 h2, prop_spread_of_notMem (by simp [h3, h4])]
  have hc := Describes.of_jsonEq (JsonEq.refl c.toValue)
  refine h.unique ⟨h.keys, h.version, h.revision, ?_, ?_, ?_, ?_, ?_, ?_, ?_, ?_,
    h.lastExecution, h.continuation⟩
  · rw [hsame _ (by simp) (by simp) (by simp) (by simp)]; exact hc.task
  · rw [hsame _ (by simp) (by simp) (by simp) (by simp)]; exact hc.gates
  · rw [hsame _ (by simp) (by simp) (by simp) (by simp)]; exact hc.workspace
  · rw [hsame _ (by simp) (by simp) (by simp) (by simp)]; exact hc.constraints
  · rw [hsame _ (by simp) (by simp) (by simp) (by simp)]; exact hc.evidenceRefs
  · rw [hsame _ (by simp) (by simp) (by simp) (by simp)]; exact hc.receiptRefs
  · rw [hsame _ (by simp) (by simp) (by simp) (by simp)]; exact hc.handoffRefs
  · rw [hsame _ (by simp) (by simp) (by simp) (by simp)]; exact hc.progress

/-- A continuation with another `retry_count`. -/
theorem Continuation.eq_of_retryCount {c d : Continuation} {retryCount : JsValue}
    (h : JsonEq (.obj (defineProp c.props "retry_count" retryCount)) d.toValue) :
    retryCount = .nat d.retryCount.1 ∧ d = { c with retryCount := d.retryCount } := by
  obtain ⟨ps, hps, -, h1, h2, h3, h4⟩ := Continuation.jsonEq_iff.mp h
  obtain rfl := JsValue.obj.inj hps
  simp only [prop_defineProp] at h1 h2 h3 h4
  simp [Continuation.props] at h1 h2 h3 h4
  have h1 := NextAction.eq_of_jsonEq h1
  cases c
  cases d
  simp_all

end Wns
