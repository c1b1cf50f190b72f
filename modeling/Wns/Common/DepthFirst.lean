import Mathlib.Data.List.Chain
import Mathlib.Data.List.Nodup
import Mathlib.Data.List.Perm.Subperm
import Mathlib.Logic.Function.Basic
import Mathlib.Logic.Relation

/-!
# Depth-first search for a cycle

A graph is given by the list of successors of each node. `visit` marks a node as
visiting, visits its successors, and marks it as done; a node that is met while it is
still visiting closes a cycle. The recursion is as deep as the path is long, and
`depth` bounds it.

* `search_isOk_iff`: the search from all nodes that have a successor succeeds iff the
  graph has no cycle.
* `search_cycle`: what is reported as a cycle is a closed walk.
* `search_ne_tooDeep`: a bound above the number of nodes is never reached.
-/

namespace Wns.DepthFirst

open Relation

variable {α : Type*}

/-! ## The search -/

inductive Mark
  | visiting
  | done
  deriving DecidableEq

/-- The mark of each node that has one. -/
abbrev Marks (α : Type*) := α → Option Mark

/-- How a search fails. -/
inductive Failure (α : Type*)
  | cycle (walk : List α)
  | tooDeep

/-- Visits a node that was reached along `path`. -/
def visit [DecidableEq α] (next : α → List α) :
    ℕ → α → List α → Marks α → Except (Failure α) (Marks α)
  | 0, _, _, _ => .error .tooDeep
  | depth + 1, a, path, marks =>
    match marks a with
    | some .done => .ok marks
    | some .visiting => .error (.cycle (path.drop (path.idxOf a) ++ [a]))
    | none => do
      let marks ← (next a).foldlM (fun marks b => visit next depth b (path ++ [a]) marks)
        (Function.update marks a (some .visiting))
      pure (Function.update marks a (some .done))

/-- Visits every root. -/
def search [DecidableEq α] (next : α → List α) (depth : ℕ) (roots : List α) :
    Except (Failure α) (Marks α) :=
  roots.foldlM (fun marks a => visit next depth a [] marks) fun _ => none

/-! ## Walks -/

/-- An edge of the graph. -/
def Edge (next : α → List α) (a b : α) : Prop := b ∈ next a

/-- A walk of at least one edge that ends where it begins. -/
structure ClosedWalk (edge : α → α → Prop) (walk : List α) : Prop where
  chain : walk.IsChain edge
  twoNodes : 2 ≤ walk.length
  closed : walk.head? = walk.getLast?

variable {next : α → List α}

/-- A closed walk runs around a cycle. -/
theorem ClosedWalk.exists_transGen {edge : α → α → Prop} {walk : List α}
    (h : ClosedWalk edge walk) : ∃ a, TransGen edge a a := by
  obtain ⟨hchain, htwo, hclosed⟩ := h
  match walk, hchain, htwo, hclosed with
  | a :: b :: rest, hchain, _, hclosed =>
    obtain ⟨hab, hrest⟩ := List.isChain_cons_cons.mp hchain
    have hlast : (b :: rest).getLast (List.cons_ne_nil _ _) = a := by
      rw [List.head?_cons, List.getLast?_eq_some_getLast (by simp), Option.some.injEq] at hclosed
      exact hclosed.symm
    exact ⟨a, .head' hab (List.relationReflTransGen_of_exists_isChain_cons rest hrest hlast)⟩

/-- A path that returns to one of its nodes closes a walk there. -/
theorem closedWalk_of_mem [DecidableEq α] {path : List α} {a : α}
    (hchain : (path ++ [a]).IsChain (Edge next)) (h : a ∈ path) :
    ClosedWalk (Edge next) (path.drop (path.idxOf a) ++ [a]) := by
  have hlt : path.idxOf a < path.length := List.idxOf_lt_length_iff.mpr h
  have hdrop : path.drop (path.idxOf a) = a :: path.drop (path.idxOf a + 1) := by
    rw [List.drop_eq_getElem_cons hlt, List.getElem_idxOf]
  refine ⟨?_, ?_, ?_⟩
  · rw [← List.drop_append_of_le_length hlt.le]
    exact hchain.drop _
  · rw [List.length_append, List.length_drop, List.length_singleton]
    omega
  · rw [hdrop, List.getLast?_append]
    rfl

/-! ## The invariant -/

/-- Between two visits the nodes being visited are those of the path; what is done is
    closed under successors and free of cycles. -/
structure Inv (next : α → List α) (nodes path : List α) (marks : Marks α) : Prop where
  chain : path.IsChain (Edge next)
  nodup : path.Nodup
  within : ∀ a ∈ path, a ∈ nodes
  visiting : ∀ a, marks a = some .visiting ↔ a ∈ path
  closed : ∀ a, marks a = some .done → ∀ b ∈ next a, marks b = some .done
  acyclic : ∀ a, marks a = some .done → ¬ TransGen (Edge next) a a

/-- What visiting the nodes `targets` along `path` comes to. -/
def Post (next : α → List α) (nodes path : List α) (depth : ℕ) (marks : Marks α)
    (targets : List α) : Except (Failure α) (Marks α) → Prop
  | .ok marks' => Inv next nodes path marks' ∧ (∀ a ∈ targets, marks' a = some .done) ∧
      ∀ a, marks a = some .done → marks' a = some .done
  | .error (.cycle walk) => ClosedWalk (Edge next) walk
  | .error .tooDeep => path.length + depth ≤ nodes.length

variable {nodes path : List α} {depth : ℕ} {marks : Marks α}

/-- What is done stays among what is done along every walk. -/
theorem Inv.done_of_transGen (h : Inv next nodes path marks) {a b : α}
    (hab : TransGen (Edge next) a b) (ha : marks a = some .done) : marks b = some .done := by
  induction hab with
  | single hab => exact h.closed a ha _ hab
  | tail _ hbc ih => exact h.closed _ ih _ hbc

/-- A fresh node at the end of the path. -/
theorem Inv.push [DecidableEq α] (h : Inv next nodes path marks) {a : α} (ha : a ∈ nodes)
    (hfresh : marks a = none) (hchain : (path ++ [a]).IsChain (Edge next)) :
    Inv next nodes (path ++ [a]) (Function.update marks a (some .visiting)) := by
  have hpath : a ∉ path := fun hmem => by simp [(h.visiting a).mpr hmem] at hfresh
  refine ⟨hchain, ?_, ?_, ?_, ?_, ?_⟩
  · exact h.nodup.append (List.nodup_singleton a) (List.disjoint_singleton.mpr hpath)
  · intro b hb
    rcases List.mem_append.mp hb with hb | hb
    · exact h.within b hb
    · exact List.mem_singleton.mp hb ▸ ha
  · intro b
    by_cases hb : b = a
    · simp [hb]
    · rw [Function.update_of_ne hb, h.visiting b]
      simp [hb]
  · intro b hb c hc
    have hba : b ≠ a := fun e => by simp [e] at hb
    rw [Function.update_of_ne hba] at hb
    have hdone := h.closed b hb c hc
    have hca : c ≠ a := fun e => by simp [← e, hdone] at hfresh
    rwa [Function.update_of_ne hca]
  · intro b hb
    have hba : b ≠ a := fun e => by simp [e] at hb
    rw [Function.update_of_ne hba] at hb
    exact h.acyclic b hb

/-- The last node of the path once all its successors are done. -/
theorem Inv.pop [DecidableEq α] {a : α} (h : Inv next nodes (path ++ [a]) marks)
    (hdone : ∀ b ∈ next a, marks b = some .done) :
    Inv next nodes path (Function.update marks a (some .done)) := by
  have hvisiting : marks a = some .visiting := (h.visiting a).mpr (by simp)
  have hpath : a ∉ path := fun hmem =>
    List.disjoint_of_nodup_append h.nodup hmem (List.mem_singleton_self a)
  -- a cycle through `a` would leave it and come back to it along what is done
  have hcycle : ¬ TransGen (Edge next) a a := by
    intro hc
    obtain ⟨b, hab, hba⟩ := TransGen.head'_iff.mp hc
    rcases reflTransGen_iff_eq_or_transGen.mp hba with rfl | hba
    · simp [hdone _ hab] at hvisiting
    · simp [h.done_of_transGen hba (hdone b hab)] at hvisiting
  refine ⟨h.chain.left_of_append, h.nodup.of_append_left, ?_, ?_, ?_, ?_⟩
  · exact fun b hb => h.within b (List.mem_append_left _ hb)
  · intro b
    by_cases hb : b = a
    · simp [hb, hpath]
    · rw [Function.update_of_ne hb, h.visiting b]
      simp [hb]
  · intro b hb c hc
    have hcdone : marks c = some .done := by
      by_cases hba : b = a
      · exact hdone c (hba ▸ hc)
      · rw [Function.update_of_ne hba] at hb
        exact h.closed b hb c hc
    by_cases hca : c = a
    · simp [hca]
    · rwa [Function.update_of_ne hca]
  · intro b hb
    by_cases hba : b = a
    · rwa [hba]
    · rw [Function.update_of_ne hba] at hb
      exact h.acyclic b hb

/-- Visits one after another. -/
theorem foldlM_post {f : Marks α → α → Except (Failure α) (Marks α)} {targets : List α}
    (hf : ∀ marks, ∀ a ∈ targets, Inv next nodes path marks →
      Post next nodes path depth marks [a] (f marks a))
    (h : Inv next nodes path marks) :
    Post next nodes path depth marks targets (targets.foldlM f marks) := by
  induction targets generalizing marks with
  | nil => exact ⟨h, by simp, fun _ ha => ha⟩
  | cons a targets ih =>
    have ha := hf marks a (by simp) h
    rw [List.foldlM_cons]
    cases hr : f marks a with
    | error e =>
      rw [hr] at ha
      cases e with
      | cycle walk => exact ha
      | tooDeep => exact ha
    | ok marks' =>
      rw [hr] at ha
      obtain ⟨hinv, hdone, hmono⟩ := ha
      have hrest := ih (fun m b hb => hf m b (by simp [hb])) hinv
      show Post _ _ _ _ _ _ (targets.foldlM f marks')
      cases hr' : targets.foldlM f marks' with
      | error e =>
        rw [hr'] at hrest
        cases e with
        | cycle walk => exact hrest
        | tooDeep => exact hrest
      | ok marks'' =>
        rw [hr'] at hrest
        obtain ⟨hinv', hdone', hmono'⟩ := hrest
        refine ⟨hinv', ?_, fun b hb => hmono' b (hmono b hb)⟩
        exact List.forall_mem_cons.mpr ⟨hmono' a (hdone a (by simp)), hdone'⟩

/-- A visit, by induction on the depth that is left. -/
theorem visit_post [DecidableEq α] (hnodes : ∀ a ∈ nodes, ∀ b ∈ next a, b ∈ nodes) {a : α}
    (ha : a ∈ nodes) (h : Inv next nodes path marks)
    (hchain : (path ++ [a]).IsChain (Edge next)) :
    Post next nodes path depth marks [a] (visit next depth a path marks) := by
  induction depth generalizing a path marks with
  | zero =>
    show path.length + 0 ≤ nodes.length
    exact (List.subperm_of_subset h.nodup h.within).length_le
  | succ depth ih =>
    rw [visit]
    cases hm : marks a with
    | some m =>
      cases m with
      | done => exact ⟨h, by simpa using hm, fun _ hb => hb⟩
      | visiting => exact closedWalk_of_mem hchain ((h.visiting a).mp hm)
    | none =>
      have hpush := h.push ha hm hchain
      have hall : Post next nodes (path ++ [a]) depth _ (next a) ((next a).foldlM _ _) :=
        foldlM_post (f := fun marks b => visit next depth b (path ++ [a]) marks)
          (fun m b hb hm => ih (hnodes a ha b hb) hm (?_ : (path ++ [a] ++ [b]).IsChain _)) hpush
      · dsimp only
        cases hr : (next a).foldlM (fun marks b => visit next depth b (path ++ [a]) marks)
            (Function.update marks a (some .visiting)) with
        | error e =>
          rw [hr] at hall
          cases e with
          | cycle walk => exact hall
          | tooDeep =>
            have hlen : (path ++ [a]).length + depth ≤ nodes.length := hall
            rw [List.length_append, List.length_singleton] at hlen
            show path.length + (depth + 1) ≤ nodes.length
            omega
        | ok marks' =>
          rw [hr] at hall
          obtain ⟨hinv, hdone, hmono⟩ := hall
          refine ⟨hinv.pop hdone, by simp, fun b hb => ?_⟩
          have hba : b ≠ a := fun e => by simp [← e, hb] at hm
          rw [Function.update_of_ne hba]
          exact hmono b (by rwa [Function.update_of_ne hba])
      · rw [List.append_assoc, List.singleton_append, List.isChain_append_cons_cons]
        exact ⟨hchain, hb, .singleton b⟩

/-! ## Correctness -/

/-- Nothing is marked before the search. -/
theorem inv_unmarked : Inv next nodes [] fun _ => none :=
  ⟨.nil, .nil, by simp, by simp, by simp, by simp⟩

section Search

variable [DecidableEq α] {roots : List α}

theorem search_post (hnodes : ∀ a ∈ nodes, ∀ b ∈ next a, b ∈ nodes)
    (hroots : ∀ a ∈ roots, a ∈ nodes) :
    Post next nodes [] depth (fun _ => none) roots (search next depth roots) :=
  foldlM_post (fun _ a ha h => visit_post hnodes (hroots a ha) h (.singleton a)) inv_unmarked

/-- What is reported as a cycle is a closed walk. -/
theorem search_cycle (hnodes : ∀ a ∈ nodes, ∀ b ∈ next a, b ∈ nodes)
    (hroots : ∀ a ∈ roots, a ∈ nodes) {walk : List α}
    (h : search next depth roots = .error (.cycle walk)) : ClosedWalk (Edge next) walk := by
  have hpost := @search_post _ _ _ depth _ _ hnodes hroots
  rwa [h] at hpost

/-- A bound above the number of nodes is not reached. -/
theorem search_ne_tooDeep (hnodes : ∀ a ∈ nodes, ∀ b ∈ next a, b ∈ nodes)
    (hroots : ∀ a ∈ roots, a ∈ nodes) (hdepth : nodes.length < depth) :
    search next depth roots ≠ .error .tooDeep := by
  intro h
  have hpost := @search_post _ _ _ depth _ _ hnodes hroots
  rw [h] at hpost
  have : [].length + depth ≤ nodes.length := hpost
  rw [List.length_nil] at this
  omega

/-- **The search decides whether there is a cycle,** when it goes from all nodes that have a
    successor. -/
theorem search_isOk_iff (hnodes : ∀ a ∈ nodes, ∀ b ∈ next a, b ∈ nodes)
    (hroots : ∀ a ∈ roots, a ∈ nodes) (hdepth : nodes.length < depth)
    (hall : ∀ a, next a ≠ [] → a ∈ roots) :
    (∃ marks, search next depth roots = .ok marks) ↔ ∀ a, ¬ TransGen (Edge next) a a := by
  constructor
  · intro ⟨marks, h⟩ a hcycle
    have hpost := @search_post _ _ _ depth _ _ hnodes hroots
    rw [h] at hpost
    obtain ⟨hinv, hdone, -⟩ := hpost
    obtain ⟨b, hab, -⟩ := TransGen.head'_iff.mp hcycle
    exact hinv.acyclic a (hdone a (hall a (List.ne_nil_of_mem hab))) hcycle
  · intro hacyclic
    match h : search next depth roots with
    | .ok marks => exact ⟨marks, rfl⟩
    | .error (.cycle walk) =>
      obtain ⟨a, ha⟩ := (search_cycle hnodes hroots h).exists_transGen
      exact (hacyclic a ha).elim
    | .error .tooDeep => exact (search_ne_tooDeep hnodes hroots hdepth h).elim

end Search

end Wns.DepthFirst
