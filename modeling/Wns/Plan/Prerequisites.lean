import Wns.Plan.AuthoritativePlan

/-!
# Prerequisites of authorized gates

The authorization fence of `normalizePlan` (`supervisor-policy/authoritative-plan.mjs`,
lines 142–161) asks for the direct requirements of an authorized gate, and nothing of the
requirements of completed gates.

* `authorization_fence`: what a gate that is authorized has behind it, in a validated plan
  and after an amendment.
-/

namespace Wns.Plan

open Ecma Relation

/-! ## Fences one step deep -/

section Fence

variable {α : Type*} {R : α → α → Prop} {A C : α → Prop}

/-- A fence that holds of the first step from `A` holds of every path, as long as it holds
    of the steps that leave reached members of `C`. -/
theorem forall_transGen_iff (h : ∀ a, A a → ∀ b, R a b → C b) :
    (∀ a, A a → ∀ b, TransGen R a b → C b) ↔
      ∀ a, A a → ∀ b, TransGen R a b → C b → ∀ c, R b c → C c := by
  constructor
  · intro hall a ha b hab _ c hbc
    exact hall a ha c (.tail hab hbc)
  · intro hstep a ha b hab
    induction hab with
    | single hab => exact h a ha _ hab
    | tail hab hbc ih => exact hstep a ha _ hab ih _ hbc

end Fence

/-! ## Authorization -/

/-- What the fence says of the gates behind the authorized gates of a plan. -/
structure PlanData.Fenced (p : PlanData) : Prop where
  /-- What an authorized gate directly requires is completed. -/
  direct : ∀ g ∈ p.authorizedGates, ∀ r, Requires p.dependencies g r → r ∈ p.completedGates
  /-- So is all that it requires indirectly, iff the completed gates among that have their own
      direct requirements completed. -/
  indirect : (∀ g ∈ p.authorizedGates, ∀ r, TransGen (Requires p.dependencies) g r →
      r ∈ p.completedGates) ↔
    ∀ g ∈ p.authorizedGates, ∀ m, TransGen (Requires p.dependencies) g m →
      m ∈ p.completedGates → ∀ r, Requires p.dependencies m r → r ∈ p.completedGates

theorem PlanData.Consistent.fenced {p : PlanData} (h : p.Consistent) : p.Fenced :=
  ⟨h.met, forall_transGen_iff h.met⟩

/-- **Authorization is fenced one edge deep,** in every plan that is validated and in every
    result of an amendment. -/
theorem authorization_fence :
    (∀ v p, validateAuthoritativePlan v = .ok p → p.Fenced) ∧
    ∀ plan proposal review nextPlan p,
      applySupervisorPlanAmendment plan proposal review nextPlan = .ok p → p.Fenced :=
  ⟨fun _ p _ => p.consistent.fenced, fun _ _ _ _ p _ => p.consistent.fenced⟩

theorem authorization_fence_planOne : planOne.Fenced :=
  authorization_fence.1 _ _ (validateAuthoritativePlan_toValue planOne)

/-- A plan whose completed gate has a requirement that is not completed. -/
def brokenChain : AuthoritativePlan where
  planId := checked "plan-1"
  planRevision := checked 1
  gates := [checked "gate-a", checked "gate-b", checked "gate-c"]
  dependencies := [⟨checked "gate-a", [checked "gate-b"]⟩, ⟨checked "gate-b", [checked "gate-c"]⟩]
  authorizedGates := [checked "gate-a"]
  completedGates := [checked "gate-b"]
  blockedGates := []
  amendmentHistory := []
  consistent := consistent_of_normalizePlan (v := .obj [("plan_id", .str "plan-1"),
    ("plan_revision", .nat 1), ("gates", .arr [.str "gate-a", .str "gate-b", .str "gate-c"]),
    ("dependencies", .arr [
      .obj [("gate_id", .str "gate-a"), ("requires", .arr [.str "gate-b"])],
      .obj [("gate_id", .str "gate-b"), ("requires", .arr [.str "gate-c"])]]),
    ("authorized_gates", .arr [.str "gate-a"]), ("completed_gates", .arr [.str "gate-b"]),
    ("blocked_gates", .arr []), ("amendment_history", .arr [])])
    _ (by rfl)

/-- Not every gate behind an authorized gate is completed. -/
theorem not_completed_behind_authorized :
    ¬ ∀ v p, validateAuthoritativePlan v = .ok p → ∀ g ∈ p.authorizedGates, ∀ r,
      TransGen (Requires p.dependencies) g r → r ∈ p.completedGates := by
  intro h
  have hab : Requires brokenChain.dependencies ⟨"gate-a", by decide⟩ ⟨"gate-b", by decide⟩ :=
    ⟨_, List.mem_cons_self, rfl, List.mem_singleton_self _⟩
  have hbc : Requires brokenChain.dependencies ⟨"gate-b", by decide⟩ ⟨"gate-c", by decide⟩ :=
    ⟨_, List.mem_cons_of_mem _ (List.mem_singleton_self _), rfl, List.mem_singleton_self _⟩
  have hc := h _ _ (validateAuthoritativePlan_toValue brokenChain) ⟨"gate-a", by decide⟩
    (List.mem_singleton_self _) _ (.tail (.single hab) hbc)
  revert hc
  decide

end Wns.Plan
