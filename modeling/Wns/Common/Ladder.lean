import Mathlib.Data.List.Basic
import Mathlib.Order.Monotone.Basic

/-!
# Ladders of guards

A policy asks a list of guards in turn, the gravest first, and the first that holds decides.
What it decides is as grave as the place of that guard. When a situation gets worse, a guard
that held may give way to a graver one, but not to a lesser one.

* `level_le`: a situation that escalates is decided by a guard that is as grave.
* `grade_le`: what is decided of it is as grave.
-/

namespace Wns.Ladder

variable {σ β : Type*} {guards : List (σ → Bool)} {s t : σ}

/-- The place of the first guard that holds, or the number of guards. -/
def level (guards : List (σ → Bool)) (s : σ) : ℕ := guards.findIdx fun g => g s

/-- Whichever guard holds of `s`, it or one before it holds of `t`. -/
def Escalates : List (σ → Bool) → σ → σ → Prop
  | [], _, _ => True
  | g :: guards, s, t => g t = true ∨ g s = false ∧ Escalates guards s t

/-- A guard that goes on holding, and the guards after it where it does not hold. -/
theorem Escalates.cons {g : σ → Bool} (h : g s = true → g t = true)
    (hrest : g t = false → Escalates guards s t) : Escalates (g :: guards) s t := by
  cases ht : g t with
  | true => exact .inl ht
  | false => exact .inr ⟨Bool.eq_false_iff.mpr fun hs => by simp [h hs] at ht, hrest ht⟩

/-- What escalates is decided by the same guard or by one before it. -/
theorem level_le (h : Escalates guards s t) : level guards t ≤ level guards s := by
  unfold level
  induction guards with
  | nil => exact le_rfl
  | cons g guards ih =>
    rw [List.findIdx_cons, List.findIdx_cons]
    obtain ht | ⟨hs, h⟩ := h
    · rw [ht]
      exact Nat.zero_le _
    · rw [hs]
      cases g t with
      | true => exact Nat.zero_le _
      | false => exact Nat.succ_le_succ (ih h)

/-- What is decided by the place of a guard, the gravest first, gets no less grave. -/
theorem grade_le [Preorder β] {grade : ℕ → β} (hgrade : Antitone grade) {f : σ → β}
    (hf : ∀ s, f s = grade (level guards s)) (h : Escalates guards s t) : f s ≤ f t := by
  rw [hf, hf]
  exact hgrade (level_le h)

end Wns.Ladder
