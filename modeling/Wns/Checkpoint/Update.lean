import Wns.Checkpoint.Codec

/-!
# Sequences of updates

The machine that `updateTaskCheckpoint` (`supervisor-policy/task-continuation.mjs`,
lines 108–114) makes of a current checkpoint and a sequence of change objects. A
call that throws leaves the current checkpoint as it was.

* `updateTaskCheckpoint_throws`: when a call throws.
* `Follows.step`: what a call does to the revision and to the sections.
* `updates_spec`: the checkpoint after any sequence of calls.
-/

namespace Wns

open Ecma JsValue

/-! ## Sections -/

/-- The value that a change object gives to section `k`, if it names it. -/
def named (k : JsString) : JsValue → Option JsValue
  | .obj patch => if k ∈ names patch then some (prop (spread [] patch) k) else none
  | _ => none

/-- `{ ...c, [k]: v }`, validated. -/
def TaskCheckpoint.withSection (c : TaskCheckpoint) (k : JsString) (v : JsValue) :
    Throws TaskCheckpoint :=
  validateTaskCheckpoint (.obj (defineProp c.props k v))

/-- `v` is read as section `k` of `c`. -/
def TaskCheckpoint.Reads (c : TaskCheckpoint) (k : JsString) (v : JsValue) : Prop :=
  if k = "semantic_progress" then
    ∃ qs, v = .obj qs ∧ HasKeys qs progressKeys ∧ ReadsProgress qs c.semanticProgress
  else JsonEq v (prop c.props k)

/-- The checkpoint that takes each section `k` from `f k`. -/
def TaskCheckpoint.assemble (revision : SafeNat) (f : JsString → TaskCheckpoint) :
    TaskCheckpoint where
  revision
  task := (f "task").task
  gates := (f "gates").gates
  workspace := (f "workspace").workspace
  constraints := (f "constraints").constraints
  evidenceRefs := (f "evidence_refs").evidenceRefs
  receiptRefs := (f "receipt_refs").receiptRefs
  handoffRefs := (f "handoff_refs").handoffRefs
  semanticProgress := (f "semantic_progress").semanticProgress
  lastExecution := (f "last_execution").lastExecution
  continuation := (f "continuation").continuation

theorem mem_checkpointKeys {k : JsString} :
    k ∈ checkpointKeys ↔ k = "checkpoint_version" ∨ k = "revision" ∨ k ∈ updatableKeys := by
  simp [checkpointKeys, updatableKeys]

theorem ne_of_updatable {k : JsString} (hk : k ∈ updatableKeys) :
    k ≠ "checkpoint_version" ∧ k ≠ "revision" := by
  constructor <;> (rintro rfl; simp [updatableKeys] at hk)

/-- Section by section. -/
theorem describes_iff {ps : Props} {c : TaskCheckpoint} :
    Describes ps c ↔ HasKeys ps checkpointKeys ∧ prop ps "checkpoint_version" = .nat 1 ∧
      prop ps "revision" = .nat c.revision.1 ∧ ∀ k ∈ updatableKeys, c.Reads k (prop ps k) := by
  constructor
  · intro h
    refine ⟨h.keys, h.version, h.revision, ?_⟩
    simp [updatableKeys, TaskCheckpoint.Reads, TaskCheckpoint.props, h.task, h.gates, h.workspace,
      h.constraints, h.evidenceRefs, h.receiptRefs, h.handoffRefs, h.progress, h.lastExecution,
      h.continuation]
  · rintro ⟨hkeys, hversion, hrevision, h⟩
    simp [updatableKeys, TaskCheckpoint.Reads, TaskCheckpoint.props] at h
    obtain ⟨h1, h2, h3, h4, h5, h6, h7, h8, h9, h10⟩ := h
    exact ⟨hkeys, hversion, hrevision, h1, h2, h3, h4, h5, h6, h7, h8, h9, h10⟩

namespace TaskCheckpoint

theorem describes_props (c : TaskCheckpoint) : Describes c.props c := .of_jsonEq (.refl _)

/-- A checkpoint's own sections are read as they are. -/
theorem reads_prop (c : TaskCheckpoint) {k : JsString} (hk : k ∈ updatableKeys) :
    c.Reads k (prop c.props k) :=
  (describes_iff.mp c.describes_props).2.2.2 k hk

theorem prop_assemble (r : SafeNat) (f : JsString → TaskCheckpoint) {k : JsString}
    (hk : k ∈ updatableKeys) : prop (assemble r f).props k = prop (f k).props k := by
  simp only [updatableKeys, List.mem_cons, List.not_mem_nil, or_false] at hk
  rcases hk with rfl | rfl | rfl | rfl | rfl | rfl | rfl | rfl | rfl | rfl <;>
    simp [props, assemble]

theorem reads_assemble {r : SafeNat} {f : JsString → TaskCheckpoint} {k : JsString} {v : JsValue}
    (hk : k ∈ updatableKeys) : (assemble r f).Reads k v ↔ (f k).Reads k v := by
  unfold Reads
  split
  · next h =>
    subst h
    rfl
  · rw [prop_assemble r f hk]

/-- Sections are read one by one: nothing relates two of them. -/
theorem describes_assemble {ps : Props} {r : SafeNat} {f : JsString → TaskCheckpoint}
    (hkeys : HasKeys ps checkpointKeys) (hversion : prop ps "checkpoint_version" = .nat 1)
    (hrevision : prop ps "revision" = .nat r.1)
    (h : ∀ k ∈ updatableKeys, (f k).Reads k (prop ps k)) : Describes ps (assemble r f) :=
  describes_iff.mpr ⟨hkeys, hversion, hrevision, fun k hk => (reads_assemble hk).mpr (h k hk)⟩

theorem mem_names_props (c : TaskCheckpoint) {k : JsString} :
    k ∈ names c.props ↔ k ∈ checkpointKeys := c.describes_props.keys k

theorem withSection_eq_ok {c d : TaskCheckpoint} {k : JsString} {v : JsValue} :
    c.withSection k v = .ok d ↔ Describes (defineProp c.props k v) d := by
  rw [withSection, validateTaskCheckpoint_eq_ok]
  exact ⟨fun ⟨_, h, hd⟩ => JsValue.obj.inj h ▸ hd, fun hd => ⟨_, rfl, hd⟩⟩

/-- What some checkpoint reads as its section, every checkpoint may take as its own. -/
theorem Reads.withSection {d : TaskCheckpoint} {k : JsString} {v : JsValue} (h : d.Reads k v)
    (hk : k ∈ updatableKeys) (c : TaskCheckpoint) :
    c.withSection k v = .ok (assemble c.revision fun l => if l = k then d else c) := by
  obtain ⟨hv, hr⟩ := ne_of_updatable hk
  rw [withSection_eq_ok]
  apply describes_assemble
  · intro l
    rw [mem_names_defineProp, mem_names_props, or_iff_right_iff_imp]
    rintro rfl
    exact mem_checkpointKeys.mpr (.inr (.inr hk))
  · rw [prop_defineProp, if_neg (Ne.symm hv), c.describes_props.version]
  · rw [prop_defineProp, if_neg (Ne.symm hr), c.describes_props.revision]
  · intro l hl
    rw [prop_defineProp]
    split
    · next hlk => rwa [hlk]
    · exact c.reads_prop hl

theorem reads_of_withSection {c d : TaskCheckpoint} {k : JsString} {v : JsValue}
    (hk : k ∈ updatableKeys) (h : c.withSection k v = .ok d) : d.Reads k v := by
  have h := (describes_iff.mp (withSection_eq_ok.mp h)).2.2.2 k hk
  rwa [prop_defineProp, if_pos rfl] at h

/-- A value is read as one section only. -/
theorem Reads.unique {c d : TaskCheckpoint} {k : JsString} {v : JsValue} (hk : k ∈ updatableKeys)
    (hc : c.Reads k v) (hd : d.Reads k v) : prop c.props k = prop d.props k := by
  have h := (hc.withSection hk c).symm.trans (hd.withSection hk c)
  have h := congrArg (fun e => prop e.props k) (Except.ok.inj h)
  simpa [prop_assemble _ _ hk] using h

/-- A checkpoint is its revision and its sections. -/
theorem eq_of_prop {c d : TaskCheckpoint} (hrevision : c.revision.1 = d.revision.1)
    (h : ∀ k ∈ updatableKeys, prop c.props k = prop d.props k) : c = d := by
  refine eq_of_jsonEq (.obj (fun k => c.mem_names_props.trans d.mem_names_props.symm) ?_)
  intro k hk
  suffices prop c.props k = prop d.props k from this ▸ .refl _
  rcases mem_checkpointKeys.mp (c.mem_names_props.mp hk) with rfl | rfl | hk
  · rw [c.describes_props.version, d.describes_props.version]
  · rw [c.describes_props.revision, d.describes_props.revision, hrevision]
  · exact h k hk

theorem Reads.congr {c d : TaskCheckpoint} {k : JsString} {v : JsValue} (hk : k ∈ updatableKeys)
    (hc : c.Reads k v) (h : prop c.props k = prop d.props k) : d.Reads k v := by
  have hd : assemble d.revision (fun l => if l = k then c else d) = d := by
    refine eq_of_prop rfl fun l hl => ?_
    rw [prop_assemble _ _ hl]
    split
    · next hlk => rw [hlk, h]
    · rfl
  rw [← hd, reads_assemble hk, if_pos rfl]
  exact hc

end TaskCheckpoint

/-! ## One call -/

/-- Why `updateTaskCheckpoint` throws on a valid checkpoint. -/
inductive Refused (c : TaskCheckpoint) (changes : JsValue) : Prop
  | notObject (h : ∀ patch, changes ≠ .obj patch)
  | unknownKey {k : JsString} (hk : k ∉ updatableKeys) (h : named k changes ≠ none)
  | invalidSection {k : JsString} {v : JsValue} (hk : k ∈ updatableKeys)
      (hv : named k changes = some v) (h : ∀ d, c.withSection k v ≠ .ok d)
  | lastRevision (h : c.revision.1 = maxSafeInteger)

/-- What a call that succeeds does. -/
structure Updated (c : TaskCheckpoint) (changes : JsValue) (d : TaskCheckpoint) : Prop where
  revision : d.revision.1 = c.revision.1 + 1
  updatable : ∀ k v, named k changes = some v → k ∈ updatableKeys
  replaced : ∀ k v, named k changes = some v → d.Reads k v
  kept : ∀ k ∈ updatableKeys, named k changes = none → prop d.props k = prop c.props k

theorem named_obj {patch : Props} {k : JsString} :
    named k (.obj patch) = none ↔ k ∉ names patch := by
  simp [named]

/-- The section `k` of the merged checkpoint. -/
theorem prop_next_eq_named (c : TaskCheckpoint) (patch : Props) {k : JsString}
    (hk : k ∈ updatableKeys) :
    prop (c.next patch) k = (named k (.obj patch)).getD (prop c.props k) := by
  obtain ⟨hv, hr⟩ := ne_of_updatable hk
  rw [c.prop_next patch hv hr, prop_spread, named]
  split <;> rfl

theorem hasKeys_next (c : TaskCheckpoint) {patch : Props}
    (h : ∀ k ∈ names patch, k ∈ updatableKeys) : HasKeys (c.next patch) checkpointKeys := by
  intro k
  simp only [TaskCheckpoint.next, mem_names_defineProp, mem_names_spread, c.mem_names_props,
    mem_checkpointKeys]
  constructor
  · rintro (hk | hk | hk | hk)
    · exact .inr (.inl hk)
    · exact .inl hk
    · exact hk
    · exact .inr (.inr (h k hk))
  · exact fun hk => .inr (.inr (.inl hk))

theorem updateTaskCheckpoint_updated {previous changes : JsValue} {c d : TaskCheckpoint}
    (hc : validateTaskCheckpoint previous = .ok c)
    (h : updateTaskCheckpoint previous changes = .ok d) : Updated c changes d := by
  have hrevision := updateTaskCheckpoint_revision hc h
  obtain ⟨c', hc', patch, rfl, hpatch, hd⟩ := updateTaskCheckpoint_eq_ok.mp h
  obtain rfl := Except.ok.inj (hc.symm.trans hc')
  have hmem : ∀ k v, named k (.obj patch) = some v → k ∈ updatableKeys := by
    intro k v hv
    apply hpatch k
    by_contra hk
    simp [named_obj.mpr hk] at hv
  have hreads := (describes_iff.mp hd).2.2.2
  refine ⟨hrevision, hmem, fun k v hv => ?_, fun k hk hnone => ?_⟩
  · have := hreads k (hmem k v hv)
    rwa [prop_next_eq_named c patch (hmem k v hv), hv] at this
  · have := hreads k hk
    rw [prop_next_eq_named c patch hk, hnone] at this
    exact this.unique hk (c.reads_prop hk)

/-- A call with a change object that is not refused succeeds. -/
theorem updateTaskCheckpoint_of_not_refused {previous changes : JsValue} {c : TaskCheckpoint}
    (hc : validateTaskCheckpoint previous = .ok c) (h : ¬ Refused c changes) :
    ∃ d, updateTaskCheckpoint previous changes = .ok d := by
  obtain ⟨patch, rfl⟩ : ∃ patch, changes = .obj patch := by
    by_contra hobj
    exact h (.notObject fun patch hpatch => hobj ⟨patch, hpatch⟩)
  have hpatch : ∀ k ∈ names patch, k ∈ updatableKeys := by
    intro k hk
    by_contra hnot
    exact h (.unknownKey hnot (mt named_obj.mp (not_not_intro hk)))
  -- each named section is read by the checkpoint that takes it alone
  have hread : ∀ k ∈ updatableKeys, ∃ d : TaskCheckpoint, d.Reads k (prop (c.next patch) k) := by
    intro k hk
    rw [prop_next_eq_named c patch hk]
    cases hv : named k (.obj patch) with
    | none => exact ⟨c, c.reads_prop hk⟩
    | some v =>
      by_contra hnone
      refine h (.invalidSection hk hv fun d hd => hnone ⟨d, ?_⟩)
      exact TaskCheckpoint.reads_of_withSection hk hd
  have hlt : c.revision.1 + 1 ≤ maxSafeInteger := by
    have hle := c.revision.2
    have hne : c.revision.1 ≠ maxSafeInteger := fun heq => h (.lastRevision heq)
    omega
  have : Nonempty TaskCheckpoint := ⟨c⟩
  choose! f hf using hread
  refine ⟨.assemble ⟨c.revision.1 + 1, hlt⟩ f, ?_⟩
  refine updateTaskCheckpoint_eq_ok.mpr ⟨c, hc, patch, rfl, hpatch, ?_⟩
  refine TaskCheckpoint.describes_assemble (hasKeys_next c hpatch) ?_
    (c.prop_next_revision patch) hf
  simp [TaskCheckpoint.next, prop_defineProp]

/-- A call throws exactly when the change object is refused. -/
theorem updateTaskCheckpoint_throws {previous : JsValue} {c : TaskCheckpoint}
    (hc : validateTaskCheckpoint previous = .ok c) (changes : JsValue) :
    (∃ e, updateTaskCheckpoint previous changes = .error e) ↔ Refused c changes := by
  constructor
  · intro ⟨e, he⟩
    by_contra h
    obtain ⟨d, hd⟩ := updateTaskCheckpoint_of_not_refused hc h
    simp [hd] at he
  · intro h
    cases hu : updateTaskCheckpoint previous changes with
    | error e => exact ⟨e, rfl⟩
    | ok d =>
      exfalso
      have hupdated := updateTaskCheckpoint_updated hc hu
      cases h with
      | notObject h =>
        obtain ⟨_, -, patch, hpatch, -⟩ := updateTaskCheckpoint_eq_ok.mp hu
        exact h patch hpatch
      | unknownKey hk h =>
        obtain ⟨v, hv⟩ := Option.ne_none_iff_exists'.mp h
        exact hk (hupdated.updatable _ v hv)
      | invalidSection hk hv h => exact h _ ((hupdated.replaced _ _ hv).withSection hk c)
      | lastRevision h =>
        have hle := d.revision.2
        have hrevision := hupdated.revision
        omega

/-! ## Sequences of calls -/

/-- The current checkpoint and the change objects applied so far. -/
structure UpdateState where
  current : JsValue
  applied : List JsValue

/-- One call. -/
def UpdateState.update (s : UpdateState) (changes : JsValue) : UpdateState :=
  match updateTaskCheckpoint s.current changes with
  | .ok d => ⟨d.toValue, s.applied ++ [changes]⟩
  | .error _ => s

/-- The calls in order. -/
def updates (previous : JsValue) (calls : List JsValue) : UpdateState :=
  calls.foldl UpdateState.update ⟨previous, []⟩

/-- The value that the last of the changes naming section `k` gives it. -/
def lastNamed (k : JsString) (applied : List JsValue) : Option JsValue :=
  (applied.filterMap (named k)).getLast?

/-- `d` is what the changes `applied` make of `c`. -/
structure Follows (c : TaskCheckpoint) (applied : List JsValue) (d : TaskCheckpoint) : Prop where
  revision : d.revision.1 = c.revision.1 + applied.length
  kept : ∀ k ∈ updatableKeys, lastNamed k applied = none → prop d.props k = prop c.props k
  replaced : ∀ k ∈ updatableKeys, ∀ v, lastNamed k applied = some v → d.Reads k v

theorem lastNamed_concat (k : JsString) (applied : List JsValue) (changes : JsValue) :
    lastNamed k (applied ++ [changes]) = (named k changes).or (lastNamed k applied) := by
  cases h : named k changes <;> simp [lastNamed, h]

/-- What was followed so far is followed after one more call. -/
theorem Follows.step {c d e : TaskCheckpoint} {applied : List JsValue} {changes : JsValue}
    (h : Follows c applied d) (hu : Updated d changes e) :
    Follows c (applied ++ [changes]) e := by
  refine ⟨?_, fun k hk hnone => ?_, fun k hk v hv => ?_⟩
  · rw [hu.revision, h.revision, List.length_append, List.length_singleton, Nat.add_assoc]
  · rw [lastNamed_concat, Option.or_eq_none_iff] at hnone
    rw [hu.kept k hk hnone.1, h.kept k hk hnone.2]
  · rw [lastNamed_concat] at hv
    cases hn : named k changes with
    | some w =>
      obtain rfl : w = v := by simpa [hn] using hv
      exact hu.replaced k w hn
    | none =>
      have hread := h.replaced k hk v (by simpa [hn] using hv)
      exact hread.congr hk (hu.kept k hk hn).symm

theorem Follows.nil (c : TaskCheckpoint) : Follows c [] c :=
  ⟨rfl, fun _ _ _ => rfl, fun _ _ _ h => by simp [lastNamed] at h⟩

/-- The checkpoint that a state holds. -/
def UpdateState.Holds (c : TaskCheckpoint) (s : UpdateState) : Prop :=
  ∃ d, validateTaskCheckpoint s.current = .ok d ∧ Follows c s.applied d

theorem UpdateState.Holds.update {c : TaskCheckpoint} {s : UpdateState} (h : s.Holds c)
    (changes : JsValue) : (s.update changes).Holds c := by
  obtain ⟨d, hd, hfollows⟩ := h
  unfold UpdateState.update
  split
  · next e he =>
    exact ⟨e, validateTaskCheckpoint_toValue e, hfollows.step (updateTaskCheckpoint_updated hd he)⟩
  · exact ⟨d, hd, hfollows⟩

theorem holds_updates {c : TaskCheckpoint} {s : UpdateState} (h : s.Holds c)
    (calls : List JsValue) : (calls.foldl UpdateState.update s).Holds c := by
  induction calls generalizing s with
  | nil => exact h
  | cons changes calls ih => exact ih (h.update changes)

/-- **The update machine.** After any sequence of calls on a valid checkpoint the current
    checkpoint is valid; its revision has grown by one for every call that succeeded; each
    section is the normalized value of the last successful change that named it, or else the
    first checkpoint's; the version is 1, and no change that succeeds names the version or the
    revision. The next call throws exactly when its change object is refused. -/
theorem updates_spec {previous : JsValue} {c : TaskCheckpoint}
    (hc : validateTaskCheckpoint previous = .ok c) (calls : List JsValue) :
    ∃ d, validateTaskCheckpoint (updates previous calls).current = .ok d ∧
      (d.gates.completed.1.Nodup ∧ d.gates.open.1.Nodup ∧
        ∀ gate ∈ d.gates.completed.1, gate ∉ d.gates.open.1) ∧
      ((d.constraints.items.map Constraint.id).Nodup ∧
        (d.evidenceRefs.1.map Reference.id).Nodup ∧ (d.receiptRefs.1.map Reference.id).Nodup ∧
        (d.handoffRefs.1.map Reference.id).Nodup) ∧
      d.revision.1 = c.revision.1 + (updates previous calls).applied.length ∧
      d.revision.1 ≤ maxSafeInteger ∧
      (∀ k ∈ updatableKeys,
        match lastNamed k (updates previous calls).applied with
        | none => prop d.props k = prop c.props k
        | some v => ∀ e : TaskCheckpoint, ∃ e', e.withSection k v = .ok e' ∧
            prop d.props k = prop e'.props k) ∧
      ∀ changes,
        ((∃ e, updateTaskCheckpoint (updates previous calls).current changes = .error e) ↔
          Refused d changes) ∧
        ∀ e, updateTaskCheckpoint (updates previous calls).current changes = .ok e →
          named "checkpoint_version" changes = none ∧ named "revision" changes = none ∧
          prop e.props "checkpoint_version" = .nat 1 ∧ e.revision.1 = d.revision.1 + 1 := by
  have hnil : (UpdateState.mk previous []).Holds c := ⟨c, hc, .nil c⟩
  obtain ⟨d, hd, hfollows⟩ := holds_updates hnil calls
  refine ⟨d, hd, ⟨d.gates.completed.2, d.gates.open.2, d.gates.disjoint⟩,
    ⟨d.constraints.unique, d.evidenceRefs.2, d.receiptRefs.2, d.handoffRefs.2⟩,
    hfollows.revision, d.revision.2, fun k hk => ?_, fun changes => ⟨?_, fun e he => ?_⟩⟩
  · split
    · next hnone => exact hfollows.kept k hk hnone
    · next v hv =>
      intro e
      have hread := hfollows.replaced k hk v hv
      refine ⟨_, hread.withSection hk e, ?_⟩
      rw [TaskCheckpoint.prop_assemble _ _ hk, if_pos rfl]
  · exact updateTaskCheckpoint_throws hd changes
  · have hu := updateTaskCheckpoint_updated hd he
    have hnone : ∀ k, k ∉ updatableKeys → named k changes = none := by
      intro k hk
      by_contra h
      obtain ⟨v, hv⟩ := Option.ne_none_iff_exists'.mp h
      exact hk (hu.updatable k v hv)
    exact ⟨hnone _ (by simp [updatableKeys]), hnone _ (by simp [updatableKeys]),
      e.describes_props.version, hu.revision⟩

/-- A refused call between two that succeed. -/
theorem updates_spec_interrupted :
    ∃ d, validateTaskCheckpoint (updates interruptedCheckpoint.toValue
      [.obj [("handoff_refs", .arr [])], .obj [("revision", .nat 9)],
        .obj [("receipt_refs", .arr [])]]).current = .ok d ∧ d.revision.1 = 6 := by
  obtain ⟨d, hd, -, -, hrevision, -⟩ :=
    updates_spec (validateTaskCheckpoint_toValue interruptedCheckpoint)
      [.obj [("handoff_refs", .arr [])], .obj [("revision", .nat 9)],
        .obj [("receipt_refs", .arr [])]]
  refine ⟨d, hd, hrevision.trans ?_⟩
  decide +kernel

end Wns
