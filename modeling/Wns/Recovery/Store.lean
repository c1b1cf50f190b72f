import Wns.Recovery.Run

/-!
# A checkpoint that is kept as text

A checkpoint survives its process as the text that `serializeTaskCheckpoint` writes: a host reads
it with `restoreTaskCheckpoint`, has an update or an acknowledgement applied, and writes the text
of what comes back.

* `store_refines`: the runs over texts are those over checkpoints, each checkpoint as its text.
* `store_history`: nothing happens to a text that is not one of a checkpoint, and a text that has
  been replaced does not come back.
-/

namespace Wns.Recovery

open Ecma

section

variable (sha256 : List UInt8 → JsString)

/-- An event in the life of a text: it is restored, the event succeeds, and what comes back is
    serialized. -/
def Stored (s : JsString) (e : Event) (s' : JsString) : Prop :=
  ∃ c d, restoreTaskCheckpoint (.str s) = .ok c ∧ e.apply sha256 c = .ok d ∧
    serializeTaskCheckpoint d.toValue = .ok s'

variable {sha256 : List UInt8 → JsString}

/-- A text that is restored is the one text of its checkpoint. -/
theorem text_injective : Function.Injective TaskCheckpoint.text := by
  intro c d h
  have hc : restoreTaskCheckpoint (.str c.text) = .ok c := restoreTaskCheckpoint_eq_ok.mpr rfl
  rw [h, restoreTaskCheckpoint_eq_ok.mpr rfl] at hc
  exact (Except.ok.inj hc).symm

theorem stored_iff {s s' : JsString} {e : Event} :
    Stored sha256 s e s' ↔ ∃ c d, s = c.text ∧ s' = d.text ∧ Succeeds sha256 c e d := by
  simp only [Stored, restoreTaskCheckpoint_eq_ok, serializeTaskCheckpoint_eq_ok,
    validateTaskCheckpoint_toValue, Except.ok.injEq, exists_eq_left']
  refine exists_congr fun c => exists_congr fun d => and_congr_right fun _ => ?_
  rw [and_comm, eq_comm]
  rfl

theorem stored_text {c : TaskCheckpoint} {e : Event} {s : JsString} :
    Stored sha256 c.text e s ↔ ∃ d, s = d.text ∧ Succeeds sha256 c e d := by
  rw [stored_iff]
  constructor
  · intro ⟨c', d, hc, hd, h⟩
    obtain rfl := text_injective hc
    exact ⟨d, hd, h⟩
  · intro ⟨d, hd, h⟩
    exact ⟨c, d, rfl, hd, h⟩

/-- **Texts refine checkpoints:** the runs over texts are the runs over checkpoints. -/
theorem store_refines {c : TaskCheckpoint} {events : List Event} {s : JsString} :
    Run (Stored sha256) c.text events s ↔
      ∃ d, s = d.text ∧ Run (Succeeds sha256) c events d :=
  Run.image_iff fun _ _ _ => stored_text

/-- A run changes nothing, or it raises the revision. -/
theorem eq_or_revision_lt {c d : TaskCheckpoint} {events : List Event}
    (h : Run (Succeeds sha256) c events d) : d = c ∨ c.revision.1 < d.revision.1 := by
  refine h.rel (R := fun c d => d = c ∨ c.revision.1 < d.revision.1) (fun _ => .inl rfl) ?_ ?_
  · intro c d e hcd hde
    obtain rfl | hcd := hcd
    · exact hde
    · obtain rfl | hde := hde
      · exact .inr hcd
      · exact .inr (hcd.trans hde)
  · intro c e d hstep
    exact hstep.eq_or_revision.imp_right fun h => by omega

/-- **A stored checkpoint has one history.** Nothing happens to a text that is not one of a
    checkpoint, and a text that has been replaced does not come back. -/
theorem store_history {s t u : JsString} {before after : List Event}
    (h : Run (Stored sha256) s before t) (h' : Run (Stored sha256) t after u) :
    ((∀ c : TaskCheckpoint, s ≠ c.text) → before = [] ∧ after = []) ∧ (u = s → t = s) := by
  constructor
  · intro htorn
    have hstuck {ls : List Event} {v : JsString} (hr : Run (Stored sha256) s ls v) :
        ls = [] ∧ v = s := by
      cases hr with
      | nil => exact ⟨rfl, rfl⟩
      | cons hstep _ =>
        obtain ⟨c, _, hc, -⟩ := stored_iff.mp hstep
        exact absurd hc (htorn c)
    obtain ⟨hbefore, rfl⟩ := hstuck h
    exact ⟨hbefore, (hstuck h').1⟩
  · intro hu
    cases h with
    | nil => rfl
    | cons hstep hr =>
      obtain ⟨c, -, rfl, -⟩ := stored_iff.mp hstep
      obtain ⟨d, rfl, hcd⟩ := store_refines.mp (.cons hstep hr)
      obtain ⟨e, rfl, hde⟩ := store_refines.mp h'
      obtain rfl := text_injective hu
      obtain rfl | hcd := eq_or_revision_lt hcd
      · rfl
      · obtain rfl | hde := eq_or_revision_lt hde
        · rfl
        · omega

end

theorem store_history_interrupted :
    ∃ events u, Run (Stored fun _ => interruptedDigest) resumedCheckpoint.text events u ∧
      events ≠ [] ∧ u ≠ interruptedCheckpoint.text := by
  have hok : (updateTaskCheckpoint resumedCheckpoint.toValue
      (.obj [("handoff_refs", .arr [])])).isOk = true := by decide +kernel
  have hresumed : Run (Stored fun _ => interruptedDigest) interruptedCheckpoint.text
      [.acknowledgeSameWorker (RespawnPlan.toValue interruptedPlan)
        (ofString ⟨"session-new", by decide⟩)] resumedCheckpoint.text :=
    .single (stored_text.mpr ⟨_, rfl, acknowledgeSameWorkerRespawn_interrupted⟩)
  cases hd : updateTaskCheckpoint resumedCheckpoint.toValue (.obj [("handoff_refs", .arr [])]) with
  | error e => simp [hd, Except.isOk, Except.toBool] at hok
  | ok d =>
    have hupdated : Run (Stored fun _ => interruptedDigest) resumedCheckpoint.text
        [.update (.obj [("handoff_refs", .arr [])])] d.text :=
      .single (stored_text.mpr ⟨d, rfl, hd⟩)
    refine ⟨_, _, hupdated, by simp, fun heq => ?_⟩
    have hrevision := text_injective ((store_history hresumed hupdated).2 heq)
    exact absurd (congrArg (fun c => c.revision.1) hrevision) (by decide)

end Wns.Recovery
