import Mathlib.Data.List.Pairwise
import Mathlib.Order.Basic

/-!
# Runs of a labelled step relation

`Run step s ls t` says that the labels `ls` lead from `s` to `t`. The lemmas lift what
every step does to what every run does.

* `Run.rel`: a reflexive and transitive relation that steps respect.
* `Run.invariant`: an invariant.
* `Run.map`: a simulation, under an invariant.
* `Run.image_iff`: the runs of a representation.
* `Run.length_eq`: a counter that every step raises by one.
* `Run.pairwise_lt`: labels ranked by a measure that every step raises.
-/

namespace Wns

variable {σ ℓ : Type*} {step : σ → ℓ → σ → Prop}

inductive Run (step : σ → ℓ → σ → Prop) : σ → List ℓ → σ → Prop
  | nil (s : σ) : Run step s [] s
  | cons {s t u : σ} {l : ℓ} {ls : List ℓ} (h : step s l t) (hr : Run step t ls u) :
      Run step s (l :: ls) u

namespace Run

theorem single {s t : σ} {l : ℓ} (h : step s l t) : Run step s [l] t := .cons h (.nil t)

/-- A reflexive and transitive relation that every step respects. -/
theorem rel {R : σ → σ → Prop} (hrefl : ∀ s, R s s) (htrans : ∀ s t u, R s t → R t u → R s u)
    (hstep : ∀ s l t, step s l t → R s t) {s t : σ} {ls : List ℓ} (h : Run step s ls t) :
    R s t := by
  induction h with
  | nil s => exact hrefl s
  | cons h _ ih => exact htrans _ _ _ (hstep _ _ _ h) ih

theorem invariant {P : σ → Prop} (hstep : ∀ s l t, step s l t → P s → P t) {s t : σ}
    {ls : List ℓ} (h : Run step s ls t) (hs : P s) : P t :=
  h.rel (R := fun s t => P s → P t) (fun _ => id) (fun _ _ _ h h' => h' ∘ h) hstep hs

/-- A run is a run of another relation to which every step keeps while an invariant holds. -/
theorem map {σ' : Type*} {step' : σ' → ℓ → σ' → Prop} {f : σ → σ'} {P : σ → Prop}
    (hstep : ∀ s l t, P s → step s l t → step' (f s) l (f t) ∧ P t) {s t : σ} {ls : List ℓ}
    (h : Run step s ls t) (hs : P s) : Run step' (f s) ls (f t) := by
  induction h with
  | nil s => exact .nil (f s)
  | cons h _ ih =>
    obtain ⟨hstep', ht⟩ := hstep _ _ _ hs h
    exact .cons hstep' (ih ht)

/-- Where the steps from a representation `f s` lead to the representations of what the steps
    from `s` lead to, the same holds of runs. -/
theorem image_iff {σ' : Type*} {step' : σ' → ℓ → σ' → Prop} {f : σ → σ'}
    (hstep : ∀ s l u, step' (f s) l u ↔ ∃ t, u = f t ∧ step s l t) {s : σ} {ls : List ℓ} {u : σ'} :
    Run step' (f s) ls u ↔ ∃ t, u = f t ∧ Run step s ls t := by
  constructor
  · intro h
    generalize hs : f s = u₀ at h
    induction h generalizing s with
    | nil u => exact ⟨s, hs.symm, .nil s⟩
    | cons h _ ih =>
      subst hs
      obtain ⟨t, rfl, ht⟩ := (hstep _ _ _).mp h
      obtain ⟨v, hv, hr⟩ := ih rfl
      exact ⟨v, hv, .cons ht hr⟩
  · intro ⟨t, hu, h⟩
    subst hu
    induction h with
    | nil s => exact .nil (f s)
    | cons h _ ih => exact .cons ((hstep _ _ _).mpr ⟨_, rfl, h⟩) ih

/-- A measure that no step lowers. -/
theorem le {α : Type*} [Preorder α] {f : σ → α} (hstep : ∀ s l t, step s l t → f s ≤ f t)
    {s t : σ} {ls : List ℓ} (h : Run step s ls t) : f s ≤ f t :=
  h.rel (R := fun s t => f s ≤ f t) (fun _ => le_rfl) (fun _ _ _ => le_trans) hstep

/-- A counter that every step raises by one counts the steps. -/
theorem length_eq {f : σ → ℕ} (hstep : ∀ s l t, step s l t → f t = f s + 1) {s t : σ}
    {ls : List ℓ} (h : Run step s ls t) : f t = f s + ls.length := by
  induction h with
  | nil s => simp
  | cons h _ ih =>
    rw [ih, hstep _ _ _ h, List.length_cons]
    omega

/-- Labels ranked by a measure of the state before them, which every step raises, come
    in ascending order. -/
theorem pairwise_lt {f : σ → ℕ} {g : ℓ → ℕ} (hg : ∀ s l t, step s l t → g l = f s)
    (hstep : ∀ s l t, step s l t → f s < f t) {s t : σ} {ls : List ℓ} (h : Run step s ls t) :
    (ls.Pairwise fun l m => g l < g m) ∧ ∀ l ∈ ls, f s ≤ g l := by
  induction h with
  | nil s => simp
  | cons h _ ih =>
    have hr := hg _ _ _ h
    have hs := hstep _ _ _ h
    constructor
    · refine List.pairwise_cons.mpr ⟨fun m hm => ?_, ih.1⟩
      have := ih.2 m hm
      omega
    · refine List.forall_mem_cons.mpr ⟨Nat.le_of_eq hr.symm, fun m hm => ?_⟩
      have := ih.2 m hm
      omega

/-- What every step says about its label. -/
theorem forall_label {P : ℓ → Prop} (hstep : ∀ s l t, step s l t → P l) {s t : σ} {ls : List ℓ}
    (h : Run step s ls t) : ∀ l ∈ ls, P l := by
  induction h with
  | nil s => simp
  | cons h _ ih => exact List.forall_mem_cons.mpr ⟨hstep _ _ _ h, ih⟩

end Run

end Wns
