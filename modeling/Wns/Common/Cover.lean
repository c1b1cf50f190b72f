import Mathlib.Data.List.Induction
import Mathlib.Data.List.Nodup

/-!
# Covers that grow one by one

Entries cover elements. A cover is chosen one entry at a time, and every entry has a key under
which it is chosen at most once.

* `irredundant_iff`: where each choice covers something new, none of them is superfluous in the
  end iff no later choice takes away the last of what an earlier one covers alone.
* `complete_iff`: where the choice ends for want of entries, all that could be covered is
  covered iff no choice uses up the last key under which something could be covered.
-/

namespace Wns.Cover

variable {α β κ : Type*} (covers : α → β → Prop)

/-- None of the entries covers the element. -/
def Uncovered (chosen : List α) (b : β) : Prop := ∀ a ∈ chosen, ¬ covers a b

/-- `a`, chosen after `before` and before `after`, is the only one to cover the element. -/
structure Alone (before : List α) (a : α) (after : List α) (b : β) : Prop where
  covered : covers a b
  uncovered : Uncovered covers (before ++ after) b

/-- Without `a` the element is not covered. -/
def Needed (required : Set β) (before after : List α) : Prop :=
  ∃ b ∈ required, Uncovered covers (before ++ after) b

variable {covers}

theorem uncovered_append {l m : List α} {b : β} :
    Uncovered covers (l ++ m) b ↔ Uncovered covers l b ∧ Uncovered covers m b :=
  List.forall_mem_append

@[simp] theorem uncovered_nil (b : β) : Uncovered covers [] b := nofun

theorem uncovered_cons {a : α} {l : List α} {b : β} :
    Uncovered covers (a :: l) b ↔ ¬ covers a b ∧ Uncovered covers l b :=
  List.forall_mem_cons

/-! ## Superfluous choices -/

variable {required : Set β} {start chosen : List α}

/-- Where everything required is covered, a choice is needed iff it covers something alone. -/
theorem needed_iff_alone {before after : List α} {a : α}
    (hall : ∀ b ∈ required, ¬ Uncovered covers (before ++ a :: after) b) :
    Needed covers required before after ↔ ∃ b ∈ required, Alone covers before a after b := by
  constructor
  · intro ⟨b, hb, huncovered⟩
    refine ⟨b, hb, ?_, huncovered⟩
    by_contra ha
    obtain ⟨hbefore, hafter⟩ := uncovered_append.mp huncovered
    exact hall b hb (uncovered_append.mpr ⟨hbefore, uncovered_cons.mpr ⟨ha, hafter⟩⟩)
  · intro ⟨b, hb, halone⟩
    exact ⟨b, hb, halone.uncovered⟩

/-- **When no choice is superfluous.** If each choice after `start` covers something new, all
    of them are needed in the end iff something is left uncovered or every later choice leaves
    every earlier one something that it covers alone. -/
theorem irredundant_iff
    (hnew : ∀ before a after, chosen = before ++ a :: after →
      ∃ b ∈ required, covers a b ∧ Uncovered covers (start ++ before) b) :
    (∀ before a after, chosen = before ++ a :: after →
        Needed covers required (start ++ before) after) ↔
      (∃ b ∈ required, Uncovered covers (start ++ chosen) b) ∨
        ∀ before a between next after, chosen = before ++ a :: between ++ next :: after →
          ∃ b ∈ required, Alone covers (start ++ before) a between b ∧ ¬ covers next b := by
  constructor
  · intro hneeded
    refine or_iff_not_imp_left.mpr fun hall => ?_
    intro before a between next after hchosen
    have hsplit : chosen = before ++ a :: (between ++ next :: after) := by
      rw [hchosen, List.append_assoc, List.cons_append]
    have hcovered : ∀ b ∈ required,
        ¬ Uncovered covers (start ++ before ++ a :: (between ++ next :: after)) b := by
      intro b hb hu
      refine hall ⟨b, hb, ?_⟩
      rwa [hsplit, ← List.append_assoc]
    obtain ⟨b, hb, halone⟩ := (needed_iff_alone hcovered).mp (hneeded _ _ _ hsplit)
    obtain ⟨hbefore, hafter⟩ := uncovered_append.mp halone.uncovered
    obtain ⟨hbetween, hnext⟩ := uncovered_append.mp hafter
    exact ⟨b, hb, ⟨halone.covered, uncovered_append.mpr ⟨hbefore, hbetween⟩⟩,
      (uncovered_cons.mp hnext).1⟩
  · rintro (⟨b, hb, huncovered⟩ | hsteps) before a after hchosen
    · refine ⟨b, hb, ?_⟩
      rw [hchosen, ← List.append_assoc] at huncovered
      obtain ⟨hbefore, hafter⟩ := uncovered_append.mp huncovered
      exact uncovered_append.mpr ⟨hbefore, (uncovered_cons.mp hafter).2⟩
    · -- the last choice decides
      obtain rfl | ⟨between, next, rfl⟩ := List.eq_nil_or_concat after
      · obtain ⟨b, hb, -, huncovered⟩ := hnew _ _ _ hchosen
        exact ⟨b, hb, by rwa [List.append_nil]⟩
      · rw [List.concat_eq_append] at hchosen
        obtain ⟨b, hb, halone, hnext⟩ := hsteps before a between next []
          (by rw [hchosen, List.append_assoc, List.cons_append])
        refine ⟨b, hb, ?_⟩
        rw [List.concat_eq_append, ← List.append_assoc]
        exact uncovered_append.mpr ⟨halone.uncovered, uncovered_cons.mpr ⟨hnext, uncovered_nil b⟩⟩

/-! ## Keys used up -/

variable {key : α → κ} {pool : List α}

/-- Choosing `a` uses up the keys under which the pool covers an element that is still
    uncovered. -/
structure Strands (covers : α → β → Prop) (key : α → κ) (required : Set β) (pool chosen : List α)
    (a : α) (b : β) : Prop where
  required : b ∈ required
  uncovered : Uncovered covers (chosen ++ [a]) b
  lost : ∃ other ∈ pool, key other = key a ∧ covers other b
  left : ∀ other ∈ pool, covers other b → key other ∈ (chosen ++ [a]).map key

/-- The keys that cover an element run out with one of the choices. -/
theorem exists_last_key {b : β}
    (hused : ∀ other ∈ pool, covers other b → key other ∈ chosen.map key)
    (hcan : ∃ other ∈ pool, covers other b) :
    ∃ before a after, chosen = before ++ a :: after ∧
      (∃ other ∈ pool, key other = key a ∧ covers other b) ∧
      ∀ other ∈ pool, covers other b → key other ∈ (before ++ [a]).map key := by
  classical
  induction chosen using List.reverseRecOn with
  | nil =>
    obtain ⟨other, hother, hcovers⟩ := hcan
    exact absurd (hused other hother hcovers) (List.not_mem_nil)
  | append_singleton chosen a ih =>
    by_cases h : ∀ other ∈ pool, covers other b → key other ∈ chosen.map key
    · obtain ⟨before, first, after, rfl, hlost, hleft⟩ := ih h
      exact ⟨before, first, after ++ [a], by simp, hlost, hleft⟩
    · push Not at h
      obtain ⟨other, hother, hcovers, hfresh⟩ := h
      refine ⟨chosen, a, [], rfl, ⟨other, hother, ?_, hcovers⟩, hused⟩
      have hmem := hused other hother hcovers
      rw [List.map_append, List.mem_append] at hmem
      simpa using hmem.resolve_left hfresh

/-- **When nothing is left that could be covered.** If choices come from the pool under fresh
    keys, and end where nothing under a fresh key covers anything more, then all that the pool
    can cover is covered iff no choice strands anything. -/
theorem complete_iff (hpool : chosen ⊆ pool) (hfresh : (chosen.map key).Nodup)
    (hend : ∀ b ∈ required, Uncovered covers chosen b → ∀ other ∈ pool, covers other b →
      key other ∈ chosen.map key) :
    (∀ b ∈ required, Uncovered covers chosen b → ∀ other ∈ pool, ¬ covers other b) ↔
      ∀ before a after, chosen = before ++ a :: after →
        ∀ b, ¬ Strands covers key required pool before a b := by
  constructor
  · rintro hcomplete before a after rfl b hstrands
    have hsplit : before ++ a :: after = (before ++ [a]) ++ after := by simp
    rw [hsplit] at hcomplete hpool hfresh
    rw [List.map_append] at hfresh
    -- what is chosen later has another key, and so does not cover the element
    have hafter : Uncovered covers after b := by
      intro later hlater hcovers
      have hmem := hstrands.left later (hpool (List.mem_append_right _ hlater)) hcovers
      exact List.disjoint_of_nodup_append hfresh hmem (List.mem_map_of_mem hlater)
    obtain ⟨other, hother, -, hcovers⟩ := hstrands.lost
    exact hcomplete b hstrands.required (uncovered_append.mpr ⟨hstrands.uncovered, hafter⟩) other
      hother hcovers
  · intro hsafe b hb huncovered other hother hcovers
    obtain ⟨before, a, after, rfl, hlost, hleft⟩ :=
      exists_last_key (hend b hb huncovered) ⟨other, hother, hcovers⟩
    refine hsafe before a after rfl b ⟨hb, ?_, hlost, hleft⟩
    have hsplit : before ++ a :: after = (before ++ [a]) ++ after := by simp
    rw [hsplit] at huncovered
    exact (uncovered_append.mp huncovered).1

end Wns.Cover
