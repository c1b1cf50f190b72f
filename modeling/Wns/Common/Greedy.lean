import Mathlib.Algebra.BigOperators.Ring.Finset
import Mathlib.Algebra.BigOperators.Ring.List
import Mathlib.Algebra.Order.BigOperators.Group.Finset
import Mathlib.Algebra.Order.BigOperators.Group.List
import Mathlib.Algebra.Order.Field.Basic
import Mathlib.Data.List.Sort
import Mathlib.NumberTheory.Harmonic.Defs
import Mathlib.Tactic.Linarith
import Mathlib.Tactic.Positivity
import Wns.Common.Run

/-!
# Greedy covers

A greedy choice takes, round by round, the entry that covers the most of what is left. Compared
with any other cover of the same elements, it takes at most `H(d)` times as many entries, where
`H(d)` is the harmonic number of the most elements that an entry of the other cover covers.

The proof gives the other cover a potential, the sum of the harmonic numbers of what each of its
entries still covers. Every round lowers it by one at least.

* `le_of_head_insertionSort`: sorting by a comparator that respects a measure puts an entry of
  the greatest measure first.
* `length_add_potential_le`: the potential pays for the rounds.
* `length_le_mul_harmonic`: the bound.
-/

namespace Wns.Greedy

/-! ## The best entry -/

/-- The head of a list that is sorted by a comparator which respects a measure. Neither
    transitivity nor totality of the comparator is needed. -/
theorem le_of_head_insertionSort {α : Type*} {r : α → α → Prop} [DecidableRel r] {f : α → ℕ}
    (hle : ∀ a b, r a b → f b ≤ f a) (hge : ∀ a b, ¬ r a b → f a ≤ f b) {l : List α} {a : α}
    (h : a ∈ (l.insertionSort r).head?) : ∀ b ∈ l, f b ≤ f a := by
  induction l generalizing a with
  | nil => cases h
  | cons x l ih =>
    rw [List.insertionSort_cons] at h
    rw [List.forall_mem_cons]
    cases hl : l.insertionSort r with
    | nil =>
      rw [hl, List.orderedInsert_nil] at h
      obtain rfl : x = a := by simpa using h
      have hnil : l = [] := List.length_eq_zero_iff.mp (by
        rw [← List.length_insertionSort r l, hl, List.length_nil])
      rw [hnil]
      exact ⟨le_rfl, List.forall_mem_nil _⟩
    | cons y m =>
      have hy : ∀ b ∈ l, f b ≤ f y := ih (by rw [hl]; rfl)
      rw [hl, List.orderedInsert_cons] at h
      split_ifs at h with hxy
      · obtain rfl : x = a := by simpa using h
        exact ⟨le_rfl, fun b hb => (hy b hb).trans (hle x y hxy)⟩
      · obtain rfl : y = a := by simpa using h
        exact ⟨hge x y hxy, hy⟩

/-! ## Rounds -/

variable {α β : Type*} [DecidableEq β] (covers : α → Finset β) (rivals : List α)

/-- A round takes an entry that covers something new, and at least as much of it as any rival. -/
structure Picks (rest : Finset β) (a : α) (rest' : Finset β) : Prop where
  gains : (covers a ∩ rest).Nonempty
  best : ∀ b ∈ rivals, (covers b ∩ rest).card ≤ (covers a ∩ rest).card
  left : rest' = rest \ covers a

/-- What the rivals would need for the rest. -/
def potential (rest : Finset β) : ℚ := (rivals.map fun b => harmonic (covers b ∩ rest).card).sum

/-- The rivals cover everything. -/
def Covered (rest : Finset β) : Prop := ∀ c ∈ rest, ∃ b ∈ rivals, c ∈ covers b

/-- Each of the last `k` summands of `harmonic (m + k)` is at least `1 / d`. -/
theorem div_le_harmonic_sub {m k d : ℕ} (h : m + k ≤ d) :
    (k : ℚ) / d ≤ harmonic (m + k) - harmonic m := by
  induction k with
  | zero => simp
  | succ k ih =>
    have hk : (k : ℚ) / d ≤ harmonic (m + k) - harmonic m := ih (by omega)
    have hinv : (d : ℚ)⁻¹ ≤ ((m + k + 1 : ℕ) : ℚ)⁻¹ :=
      inv_anti₀ (by positivity) (by exact_mod_cast h)
    rw [← add_assoc, harmonic_succ, Nat.cast_add, Nat.cast_one, add_div, one_div]
    linarith

variable {covers rivals}

/-- A covered set is no larger than its parts are together. -/
theorem card_le_sum {s : Finset β} (h : Covered covers rivals s) :
    s.card ≤ (rivals.map fun b => (covers b ∩ s).card).sum := by
  induction rivals generalizing s with
  | nil =>
    have hempty : s = ∅ := Finset.eq_empty_of_forall_notMem fun c hc => by
      obtain ⟨b, hb, -⟩ := h c hc
      cases hb
    simp [hempty]
  | cons b rivals ih =>
    have hrest : Covered covers rivals (s \ covers b) := by
      intro c hc
      obtain ⟨hcs, hcb⟩ := Finset.mem_sdiff.mp hc
      obtain ⟨b', hb', hcovers⟩ := h c hcs
      obtain rfl | hmem := List.mem_cons.mp hb'
      · exact absurd hcovers hcb
      · exact ⟨b', hmem, hcovers⟩
    have hle : ((rivals.map fun b' => (covers b' ∩ (s \ covers b)).card)).sum ≤
        (rivals.map fun b' => (covers b' ∩ s).card).sum :=
      List.sum_le_sum fun b' _ => Finset.card_le_card
        (Finset.inter_subset_inter_left Finset.sdiff_subset)
    have hsplit := Finset.card_inter_add_card_sdiff s (covers b)
    rw [Finset.inter_comm] at hsplit
    have hih := ih hrest
    rw [List.map_cons, List.sum_cons]
    omega

omit [DecidableEq β] in
theorem Covered.mono {rest rest' : Finset β} (h : Covered covers rivals rest)
    (hsub : rest' ⊆ rest) : Covered covers rivals rest' := fun c hc => h c (hsub hc)

theorem Picks.subset {rest rest' : Finset β} {a : α} (h : Picks covers rivals rest a rest') :
    rest' ⊆ rest := h.left ▸ Finset.sdiff_subset

/-- What a round takes from a rival. -/
theorem Picks.share_le {rest rest' : Finset β} {a : α} (h : Picks covers rivals rest a rest')
    {b : α} (hb : b ∈ rivals) :
    ((covers b ∩ (covers a ∩ rest)).card : ℚ) / (covers a ∩ rest).card +
      harmonic (covers b ∩ rest').card ≤ harmonic (covers b ∩ rest).card := by
  have hsplit : (covers b ∩ rest').card + (covers b ∩ (covers a ∩ rest)).card =
      (covers b ∩ rest).card := by
    have hdiff : covers b ∩ rest' = (covers b ∩ rest) \ covers a := by
      rw [h.left, Finset.inter_sdiff_assoc]
    have hinter : covers b ∩ (covers a ∩ rest) = (covers b ∩ rest) ∩ covers a := by
      rw [Finset.inter_assoc, Finset.inter_comm (covers a)]
    rw [hdiff, hinter, Finset.card_sdiff_add_card_inter]
  have hshare := div_le_harmonic_sub (hsplit ▸ h.best b hb)
  rw [hsplit] at hshare
  linarith

/-- A round lowers the potential by one at least. -/
theorem Picks.potential_le {rest rest' : Finset β} {a : α} (h : Picks covers rivals rest a rest')
    (hcovered : Covered covers rivals rest) :
    1 + potential covers rivals rest' ≤ potential covers rivals rest := by
  set taken := covers a ∩ rest with htaken
  have hpos : (0 : ℚ) < taken.card := by exact_mod_cast h.gains.card_pos
  have hcard : (taken.card : ℚ) ≤ (rivals.map fun b => ((covers b ∩ taken).card : ℚ)).sum := by
    have hle := card_le_sum (hcovered.mono (Finset.inter_subset_right : taken ⊆ rest))
    calc (taken.card : ℚ) ≤ ((rivals.map fun b => (covers b ∩ taken).card).sum : ℕ) := by
          exact_mod_cast hle
      _ = _ := by rw [Nat.cast_list_sum, List.map_map, Function.comp_def]
  have hshares : (rivals.map fun b => ((covers b ∩ taken).card : ℚ) / taken.card +
      harmonic (covers b ∩ rest').card).sum ≤ potential covers rivals rest :=
    List.sum_le_sum fun b hb => h.share_le hb
  have hone : 1 ≤ (rivals.map fun b => ((covers b ∩ taken).card : ℚ) / taken.card).sum := by
    simp only [div_eq_mul_inv]
    rw [List.sum_map_mul_right, ← div_eq_mul_inv]
    exact (one_le_div hpos).mpr hcard
  rw [List.sum_map_add] at hshares
  exact (add_le_add_left hone _).trans hshares

/-! ## Runs -/

/-- The potential pays for the rounds. -/
theorem length_add_potential_le {rest rest' : Finset β} {picks : List α}
    (h : Run (Picks covers rivals) rest picks rest') (hcovered : Covered covers rivals rest) :
    picks.length + potential covers rivals rest' ≤ potential covers rivals rest := by
  induction h with
  | nil rest => simp
  | cons hround _ ih =>
    have hrest := ih (hcovered.mono hround.subset)
    have hstep := hround.potential_le hcovered
    rw [List.length_cons, Nat.cast_add, Nat.cast_one]
    linarith

theorem harmonic_nonneg (n : ℕ) : 0 ≤ harmonic n :=
  Finset.sum_nonneg fun _ _ => by positivity

theorem potential_nonneg (rest : Finset β) : 0 ≤ potential covers rivals rest :=
  List.sum_nonneg (List.forall_mem_map.mpr fun _ _ => harmonic_nonneg _)

theorem harmonic_mono {m n : ℕ} (h : m ≤ n) : harmonic m ≤ harmonic n := by
  induction n, h using Nat.le_induction with
  | base => rfl
  | succ n _ ih =>
    rw [harmonic_succ]
    have hpos : (0 : ℚ) ≤ ((n + 1 : ℕ) : ℚ)⁻¹ := by positivity
    linarith

/-- **The greedy bound.** A greedy choice takes at most `H(d)` times as many entries as any
    other cover, none of whose entries covers more than `d` elements. -/
theorem length_le_mul_harmonic {rest rest' : Finset β} {picks : List α} {d : ℕ}
    (h : Run (Picks covers rivals) rest picks rest') (hcovered : Covered covers rivals rest)
    (hd : ∀ b ∈ rivals, (covers b ∩ rest).card ≤ d) :
    (picks.length : ℚ) ≤ rivals.length * harmonic d := by
  have hrounds := length_add_potential_le h hcovered
  have hrest : 0 ≤ potential covers rivals rest' := potential_nonneg rest'
  have hpotential : potential covers rivals rest ≤ rivals.length * harmonic d := by
    have hle : ∀ x ∈ rivals.map fun b => harmonic (covers b ∩ rest).card, x ≤ harmonic d :=
      List.forall_mem_map.mpr fun b hb => harmonic_mono (hd b hb)
    have hsum := List.sum_le_card_nsmul _ _ hle
    rwa [List.length_map, nsmul_eq_mul] at hsum
  linarith

end Wns.Greedy
