import Mathlib.Logic.Function.Iterate
import Wns.Common.Run

/-!
# Loops

A loop repeats its body until there is nothing left to do. The body `next` yields the label of
a round and the state after it, or `none` when the loop ends.

* `next_rounds`: a loop whose body lowers a measure ends within as many rounds.
* `Run.continues`: every run of the loop is the beginning of the one that ends.
* `Run.length_add_le`: a measure that every step lowers bounds the number of steps.
* `climb_eq_some_iff`: a bounded search upwards finds the nearest place where there is something.
-/

namespace Wns

variable {σ ℓ : Type*}

/-- A round of a loop. -/
def Round (next : σ → Option (ℓ × σ)) (s : σ) (l : ℓ) (t : σ) : Prop := next s = some (l, t)

/-- At most `n` rounds of a loop. -/
def rounds (next : σ → Option (ℓ × σ)) : ℕ → σ → σ
  | 0, s => s
  | n + 1, s =>
    match next s with
    | some (_, t) => rounds next n t
    | none => s

variable {next : σ → Option (ℓ × σ)} {f : σ → ℕ}

theorem exists_run_rounds (n : ℕ) (s : σ) : ∃ ls, Run (Round next) s ls (rounds next n s) := by
  induction n generalizing s with
  | zero => exact ⟨[], .nil s⟩
  | succ n ih =>
    rw [rounds]
    split
    · next l t h =>
      obtain ⟨ls, hls⟩ := ih t
      exact ⟨l :: ls, .cons h hls⟩
    · exact ⟨[], .nil s⟩

/-- Enough rounds bring the loop to its end. -/
theorem next_rounds (hstep : ∀ s l t, next s = some (l, t) → f t < f s) {n : ℕ} {s : σ}
    (h : f s ≤ n) : next (rounds next n s) = none := by
  induction n generalizing s with
  | zero =>
    cases hs : next s with
    | none => exact hs
    | some r =>
      have hlt := hstep s r.1 r.2 hs
      omega
  | succ n ih =>
    rw [rounds]
    split
    · next l t hs =>
      have hlt := hstep s l t hs
      exact ih (by omega)
    · assumption

namespace Run

variable {step : σ → ℓ → σ → Prop}

/-- A measure that every step lowers bounds the number of steps. -/
theorem length_add_le (hstep : ∀ s l t, step s l t → f t < f s) {s t : σ} {ls : List ℓ}
    (h : Run step s ls t) : ls.length + f t ≤ f s := by
  induction h with
  | nil s => simp
  | cons h _ ih =>
    have hlt := hstep _ _ _ h
    rw [List.length_cons]
    omega

/-- A run ends, so every other run from the same state is a beginning of it. -/
theorem continues {s t u : σ} {ls ms : List ℓ} (h : Run (Round next) s ls t)
    (h' : Run (Round next) s ms u) (hu : next u = none) :
    ∃ ks, ms = ls ++ ks ∧ Run (Round next) t ks u := by
  induction h generalizing ms with
  | nil s => exact ⟨ms, rfl, h'⟩
  | cons hs _ ih =>
    cases h' with
    | nil => exact absurd (hu.symm.trans hs) (by simp)
    | cons hs' hr =>
      obtain ⟨rfl, rfl⟩ := Prod.mk.inj (Option.some.inj (hs'.symm.trans hs))
      obtain ⟨ks, rfl, hks⟩ := ih hr
      exact ⟨ks, rfl, hks⟩

/-- The run that ends takes the round that another run could take next. -/
theorem continues_cons {s t t' u : σ} {ls ms : List ℓ} {l : ℓ} (h : Run (Round next) s ls t)
    (h' : Run (Round next) s ms u) (hu : next u = none) (hl : next t = some (l, t')) :
    ∃ ks, ms = ls ++ l :: ks := by
  obtain ⟨ks, rfl, hks⟩ := h.continues h' hu
  cases hks with
  | nil => exact absurd (hu.symm.trans hl) (by simp)
  | cons hs _ =>
    obtain ⟨rfl, -⟩ := Prod.mk.inj (Option.some.inj (hs.symm.trans hl))
    exact ⟨_, rfl⟩

/-- A run that cannot go on is the one that ends. -/
theorem eq_of_next_eq_none {s t u : σ} {ls ms : List ℓ} (h : Run (Round next) s ls t)
    (h' : Run (Round next) s ms u) (hu : next u = none) (ht : next t = none) :
    ms = ls ∧ u = t := by
  obtain ⟨ks, rfl, hks⟩ := h.continues h' hu
  cases hks with
  | nil => exact ⟨List.append_nil ls, rfl⟩
  | cons hs _ => exact absurd (ht.symm.trans hs) (by simp)

/-- The step of a run at a given label. -/
theorem split {s u : σ} {ls ms : List ℓ} {l : ℓ} (h : Run step s (ls ++ l :: ms) u) :
    ∃ t t', Run step s ls t ∧ step t l t' ∧ Run step t' ms u := by
  induction ls generalizing s with
  | nil =>
    cases h with
    | cons hs hr => exact ⟨s, _, .nil s, hs, hr⟩
  | cons k ls ih =>
    cases h with
    | cons hs hr =>
      obtain ⟨t, t', ht, hstep, hrest⟩ := ih hr
      exact ⟨t, t', .cons hs ht, hstep, hrest⟩

end Run

/-! ## A bounded search upwards -/

section

variable {α β : Type*} [DecidableEq α] {found : α → Option β} {up : α → α}

/-- Looks in at most `n` places, each above the one before, until something is found or there
    is nothing above. -/
def climb (found : α → Option β) (up : α → α) : ℕ → α → Option β
  | 0, _ => none
  | n + 1, a =>
    match found a with
    | some b => some b
    | none => if up a = a then none else climb found up n (up a)

/-- What is found is at the nearest of the places where there is something. -/
theorem climb_eq_some_iff {n : ℕ} {a : α} {b : β} :
    climb found up n a = some b ↔
      ∃ k < n, found (up^[k] a) = some b ∧ ∀ j < k, found (up^[j] a) = none := by
  induction n generalizing a with
  | zero => simp [climb]
  | succ n ih =>
    rw [climb]
    cases ha : found a with
    | some b' =>
      constructor
      · intro h
        exact ⟨0, Nat.succ_pos n, ha.trans h, nofun⟩
      · intro ⟨k, _, hk, hbefore⟩
        cases k with
        | zero => exact ha.symm.trans hk
        | succ k => exact absurd (ha.symm.trans (hbefore 0 (Nat.succ_pos k))) nofun
    | none =>
      simp only
      split_ifs with htop
      · -- every place above is this one
        refine iff_of_false nofun fun ⟨k, _, hk, _⟩ => ?_
        rw [Function.iterate_fixed htop, ha] at hk
        cases hk
      · rw [ih]
        constructor
        · intro ⟨k, hk, hfound, hbefore⟩
          refine ⟨k + 1, Nat.succ_lt_succ hk, hfound, fun j hj => ?_⟩
          cases j with
          | zero => exact ha
          | succ j => exact hbefore j (Nat.lt_of_succ_lt_succ hj)
        · intro ⟨k, hk, hfound, hbefore⟩
          cases k with
          | zero => exact absurd (ha.symm.trans hfound) nofun
          | succ k =>
            exact ⟨k, Nat.lt_of_succ_lt_succ hk, hfound, fun j hj => hbefore (j + 1) (by omega)⟩

end

end Wns
