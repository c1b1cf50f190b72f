import Wns.Common.Cover
import Wns.Context.SkillSelection

/-!
# Minimal and complete covers

The loop of `selectMinimalSkills` is greedy, and it tracks ids where coverage belongs to the
entries of the catalog. So a skill picked early may turn out superfluous, and an entry may be
passed over because another one has its id.

* `skills_minimal_iff`: no pick is superfluous iff the loop breaks with a class left over, or
  no round takes away the last class that an earlier pick covers alone.
* `minimal_of_ownClasses`: no pick is superfluous in a catalog of skills that each have a class of
  their own.
* `skills_complete_iff`: a class that a compatible entry covers is never left over iff no
  selection uses up the last id under which one could still be covered.
* `complete_of_nodup`: this holds of every catalog whose ids are different.
-/

namespace Wns.Context

open Ecma Routing

/-- A skill covers a class. -/
def Covers (skill : Skill) (c : JsString) : Prop := c ∈ skill.covers

variable {localeCompare : JsString → JsString → ℤ} {request : SkillRequest}

/-- What is required, as a set. -/
def SkillRequest.classes (request : SkillRequest) : Set JsString := {c | c ∈ request.required}

/-- The entries that the worker can use. -/
def SkillRequest.pool (request : SkillRequest) : List Skill :=
  request.skills.filter fun skill => compatible skill request.worker

theorem mem_pool {skill : Skill} :
    skill ∈ request.pool ↔ skill ∈ request.skills ∧ compatible skill request.worker := by
  simp [SkillRequest.pool]

/-- What remains in the end is what is required and covered by nothing that is selected. -/
theorem uncovered_final {c : JsString} :
    c ∈ (request.final localeCompare).remaining ↔
      c ∈ request.classes ∧ Cover.Uncovered Covers (request.final localeCompare).selected c :=
  inv_final.remaining c

/-! ## Superfluous picks -/

/-- Whatever the loop picks, some required class would not be covered without it. -/
def Minimal (localeCompare : JsString → JsString → ℤ) (request : SkillRequest) : Prop :=
  ∀ before skill after,
    (request.final localeCompare).selected = request.start.selected ++ (before ++ skill :: after) →
    ∃ c ∈ request.required, ∀ other ∈ request.start.selected ++ before ++ after, c ∉ other.covers

/-- The loop comes to `if (!best) break` while a class remains. -/
def Breaks (localeCompare : JsString → JsString → ℤ) (request : SkillRequest) : Prop :=
  ∃ picks state, Run (Round (request.next localeCompare)) request.start picks state ∧
    state.remaining ≠ [] ∧ request.best localeCompare state = none

/-- In every round, each skill that was picked before covers a required class that neither
    another selected skill nor the skill of this round covers. -/
def KeepsOwn (localeCompare : JsString → JsString → ℤ) (request : SkillRequest) : Prop :=
  ∀ picks state pick, Run (Round (request.next localeCompare)) request.start picks state →
    request.best localeCompare state = some pick →
    ∀ before skill after, picks = before ++ skill :: after →
      ∃ c ∈ request.required, c ∈ skill.covers ∧
        (∀ other ∈ request.start.selected ++ before ++ after, c ∉ other.covers) ∧ c ∉ pick.covers

/-- The loop breaks iff a class is left over. -/
theorem breaks_iff : Breaks localeCompare request ↔
    (request.final localeCompare).remaining ≠ [] := by
  obtain ⟨all, hrun, hend⟩ := exists_run_final request localeCompare
  constructor
  · rintro ⟨picks, state, hpicks, hremaining, hbest⟩
    have hnone : request.next localeCompare state = none := by rw [next_eq, hbest, Option.map_none]
    obtain ⟨-, heq⟩ := hpicks.eq_of_next_eq_none hrun hend hnone
    rwa [heq]
  · intro h
    refine ⟨all, _, hrun, h, ?_⟩
    rwa [next_eq, Option.map_eq_none_iff] at hend

/-- The rounds of all runs are the positions in the whole loop. -/
theorem keepsOwn_iff {all : List Skill}
    (hrun : Run (Round (request.next localeCompare)) request.start all
      (request.final localeCompare))
    (hend : request.next localeCompare (request.final localeCompare) = none) :
    KeepsOwn localeCompare request ↔
      ∀ before skill between pick after, all = before ++ skill :: between ++ pick :: after →
        ∃ c ∈ request.classes,
          Cover.Alone Covers (request.start.selected ++ before) skill between c ∧
            ¬ Covers pick c := by
  constructor
  · intro h before skill between pick after hall
    obtain ⟨state, state', hpicks, hround, -⟩ := (hall ▸ hrun).split
    obtain ⟨c, hc, hcovers, hothers, hpick⟩ :=
      h _ state pick hpicks (next_eq_some.mp hround).1 before skill between rfl
    exact ⟨c, hc, ⟨hcovers, hothers⟩, hpick⟩
  · rintro h _ state pick hpicks hbest before skill after rfl
    have hround : request.next localeCompare state = some (pick, state.select pick) :=
      next_eq_some.mpr ⟨hbest, rfl⟩
    obtain ⟨rest, hall⟩ := hpicks.continues_cons hrun hend hround
    obtain ⟨c, hc, halone, hpick⟩ := h before skill after pick rest hall
    exact ⟨c, hc, halone.covered, halone.uncovered, hpick⟩

theorem minimal_iff :
    Minimal localeCompare request ↔
      Breaks localeCompare request ∨ KeepsOwn localeCompare request := by
  obtain ⟨all, hrun, hend⟩ := exists_run_final request localeCompare
  have hselected := selected_run hrun
  have hleft : (request.final localeCompare).remaining ≠ [] ↔
      ∃ c ∈ request.classes, Cover.Uncovered Covers (request.start.selected ++ all) c := by
    rw [← hselected, ← List.length_pos_iff, List.length_pos_iff_exists_mem]
    exact exists_congr fun c => uncovered_final
  have hnew : ∀ before skill after, all = before ++ skill :: after →
      ∃ c ∈ request.classes, Covers skill c ∧
        Cover.Uncovered Covers (request.start.selected ++ before) c :=
    fun before skill after hall => covers_new hrun hall
  rw [breaks_iff, keepsOwn_iff hrun hend, hleft, ← Cover.irredundant_iff hnew, Minimal, hselected]
  simp only [List.append_cancel_left_eq]
  exact Iff.rfl

/-- Whatever can cover a required class covers one that no entry of another id covers. -/
def OwnClasses (request : SkillRequest) : Prop :=
  ∀ skill ∈ request.pool, (∃ c ∈ request.required, c ∈ skill.covers) →
    ∃ c ∈ request.required, c ∈ skill.covers ∧
      ∀ other ∈ request.pool, other.id ≠ skill.id → c ∉ other.covers

/-- No pick is superfluous where every entry of the catalog has a class of its own. -/
theorem minimal_of_ownClasses (h : OwnClasses request) : Minimal localeCompare request := by
  refine minimal_iff.mpr (.inr ?_)
  intro picks state pick hrun hbest before skill after hpicks
  have hpick := best_eq_some hbest
  have hselected := (inv_start.run hrun).selected
  have hfresh : pick.id ∉ state.selected.map Skill.id := hpick.fresh
  rw [selected_run hrun, hpicks, ← List.append_assoc] at hselected hfresh
  have hmem (other : Skill)
      (hother : other ∈ request.start.selected ++ before ++ skill :: after) :
      other ∈ request.pool := mem_pool.mpr (hselected.catalog other hother)
  have hskill : skill ∈ request.start.selected ++ before ++ skill :: after := by simp
  obtain ⟨c, hc, hcovers, -⟩ := covers_new hrun hpicks
  obtain ⟨c, hc, hcovers, hown⟩ := h skill (hmem skill hskill) ⟨c, hc, hcovers⟩
  -- the ids of what is selected are different
  have hids : skill.id ∉ (request.start.selected ++ before ++ after).map Skill.id := by
    have hnodup := hselected.nodup
    rw [List.map_append, List.map_cons, List.nodup_middle, List.nodup_cons,
      ← List.map_append] at hnodup
    exact hnodup.1
  refine ⟨c, hc, hcovers, fun other hother => ?_, ?_⟩
  · refine hown other (hmem other ?_) fun hid => hids (List.mem_map.mpr ⟨other, hother, hid⟩)
    exact (List.sublist_cons_self skill after).append_left _ |>.subset hother
  · refine hown pick (mem_pool.mpr ⟨hpick.mem, hpick.compatible⟩) fun hid => hfresh ?_
    exact hid ▸ List.mem_map_of_mem hskill

/-- Four classes, and a skill for the middle two that is ranked first. -/
def fourClasses : JsValue := .arr [.str "a", .str "b", .str "c", .str "d"]

def middleFirst : JsValue :=
  .arr [catalogEntry "x" ["b", "c"] 2, catalogEntry "p" ["a", "b"] 1, catalogEntry "q" ["c", "d"] 0]

/-- An entry of the catalog, once it is checked. -/
def catalogSkill (id : String) (covers : List String) (priority : ℕ) : Skill where
  id := js id
  covers := covers.map js
  workers := [js "*"]
  loadMode := .str "on_demand"
  priority
  authority := .str "procedure"
  source := .null

/-- A selection of the code: `chosen` is what is selected before it. -/
inductive Selects (localeCompare : JsString → JsString → ℤ) (request : SkillRequest) :
    List Skill → Skill → Prop
  /-- A requested id that is found, and not selected yet. -/
  | requested {before : List JsString} {id : JsString} {skill : Skill}
      (hid : before ++ [id] <+: request.requested) (hskill : request.lookup id = some skill)
      (hfresh : id ∉ (before.foldl request.resolve ([], [])).1.map Skill.id) :
      Selects localeCompare request (before.foldl request.resolve ([], [])).1 skill
  /-- A round of the loop. -/
  | round {picks : List Skill} {state : SelectionState} {skill : Skill}
      (hrun : Run (Round (request.next localeCompare)) request.start picks state)
      (hbest : request.best localeCompare state = some skill) :
      Selects localeCompare request state.selected skill

/-- The requested ids are resolved one after the other. -/
theorem prefix_resolved {ids : List JsString} {chosen : List Skill} {skill : Skill} :
    chosen ++ [skill] <+: (ids.foldl request.resolve ([], [])).1 ↔
      ∃ before id, before ++ [id] <+: ids ∧ request.lookup id = some skill ∧
        id ∉ (before.foldl request.resolve ([], [])).1.map Skill.id ∧
        (before.foldl request.resolve ([], [])).1 = chosen := by
  induction ids using List.reverseRecOn with
  | nil => simp
  | append_singleton ids last ih =>
    rw [List.foldl_append, List.foldl_cons, List.foldl_nil]
    simp only [List.prefix_concat_iff, List.append_singleton_inj, or_and_right, exists_or,
      and_assoc, ← ih, ↓existsAndEq, true_and]
    obtain ⟨hnone, heq⟩ | ⟨other, hother, hfresh, heq⟩ := resolve_cases (ids.foldl _ ([], [])) last
    · rw [heq, or_iff_right fun ⟨hskill, hfresh, _⟩ => hnone ⟨skill, hskill, hfresh⟩]
    · rw [heq, List.prefix_concat_iff, List.append_singleton_inj, hother]
      refine or_congr_left ?_
      constructor
      · rintro ⟨rfl, rfl⟩
        exact ⟨rfl, hfresh, rfl⟩
      · rintro ⟨hskill, -, rfl⟩
        exact ⟨rfl, (Option.some.inj hskill).symm⟩

/-- The selections are the positions in what is selected in the end. -/
theorem selects_iff {chosen : List Skill} {skill : Skill} :
    Selects localeCompare request chosen skill ↔
      chosen ++ [skill] <+: (request.final localeCompare).selected := by
  obtain ⟨all, hrun, hend⟩ := exists_run_final request localeCompare
  have hselected := selected_run hrun
  constructor
  · intro h
    cases h with
    | requested hid hskill hfresh =>
      have hprefix := prefix_resolved.mpr ⟨_, _, hid, hskill, hfresh, rfl⟩
      rw [hselected]
      exact hprefix.trans (List.prefix_append _ _)
    | round hpicks hbest =>
      obtain ⟨rest, rfl⟩ := hpicks.continues_cons hrun hend (next_eq_some.mpr ⟨hbest, rfl⟩)
      refine ⟨rest, ?_⟩
      rw [hselected, selected_run hpicks, List.append_assoc, List.append_assoc,
        List.singleton_append]
  · intro ⟨rest, h⟩
    have hrequested : ∀ after, request.start.selected = chosen ++ [skill] ++ after →
        Selects localeCompare request chosen skill := by
      intro after hstart
      obtain ⟨before, id, hid, hskill, hfresh, rfl⟩ :=
        prefix_resolved.mp (⟨after, hstart.symm⟩ : chosen ++ [skill] <+: request.resolved.1)
      exact .requested hid hskill hfresh
    rw [hselected] at h
    obtain ⟨after, hstart, -⟩ | ⟨picks, hchosen, hall⟩ := List.append_eq_append_iff.mp h
    · exact hrequested after hstart
    · obtain rfl | ⟨picks, pick, rfl⟩ := List.eq_nil_or_concat picks
      · exact hrequested [] (by rw [hchosen, List.append_nil, List.append_nil])
      · rw [List.concat_eq_append, ← List.append_assoc, List.append_singleton_inj] at hchosen
        obtain ⟨rfl, rfl⟩ := hchosen
        rw [List.concat_eq_append, List.append_assoc, List.singleton_append] at hall
        obtain ⟨state, state', hpicks, hround, -⟩ := (hall ▸ hrun).split
        rw [← selected_run hpicks]
        exact .round hpicks (next_eq_some.mp hround).1

/-- A class is reported as unresolved only if no compatible entry covers it. -/
def Complete (localeCompare : JsString → JsString → ℤ) (request : SkillRequest) : Prop :=
  ∀ c ∈ (request.decision localeCompare).unresolvedSkillClasses,
    ∀ skill ∈ request.skills, compatible skill request.worker → c ∉ skill.covers

/-- Selecting `skill` uses up the last id under which a required class could still be covered:
    it does not cover the class itself, another entry of the same id does, and so does no entry
    of an id that is not selected. -/
structure Strands (request : SkillRequest) (chosen : List Skill) (skill : Skill) (c : JsString) :
    Prop where
  required : c ∈ request.required
  uncovered : ∀ other ∈ chosen ++ [skill], c ∉ other.covers
  lost : ∃ other ∈ request.skills, compatible other request.worker ∧ other.id = skill.id ∧
    c ∈ other.covers
  left : ∀ other ∈ request.skills, compatible other request.worker → c ∈ other.covers →
    other.id ∈ (chosen ++ [skill]).map Skill.id

theorem strands_iff {chosen : List Skill} {skill : Skill} {c : JsString} :
    Strands request chosen skill c ↔
      Cover.Strands Covers Skill.id request.classes request.pool chosen skill c := by
  constructor
  · intro ⟨hrequired, huncovered, ⟨other, hother, hcompatible, hid, hcovers⟩, hleft⟩
    refine ⟨hrequired, huncovered, ⟨other, mem_pool.mpr ⟨hother, hcompatible⟩, hid, hcovers⟩, ?_⟩
    intro other hother hcovers
    obtain ⟨hmem, hcompatible⟩ := mem_pool.mp hother
    exact hleft other hmem hcompatible hcovers
  · intro ⟨hrequired, huncovered, ⟨other, hother, hid, hcovers⟩, hleft⟩
    obtain ⟨hmem, hcompatible⟩ := mem_pool.mp hother
    refine ⟨hrequired, huncovered, ⟨other, hmem, hcompatible, hid, hcovers⟩, ?_⟩
    intro other hother hcompatible hcovers
    exact hleft other (mem_pool.mpr ⟨hother, hcompatible⟩) hcovers

/-- Where the loop ends, the entries that cover what remains have ids that are selected. -/
theorem selected_of_remaining {c : JsString} {skill : Skill}
    (hc : c ∈ (request.final localeCompare).remaining) (hskill : skill ∈ request.pool)
    (hcovers : c ∈ skill.covers) :
    skill.id ∈ (request.final localeCompare).selected.map Skill.id := by
  obtain ⟨all, -, hend⟩ := exists_run_final request localeCompare
  obtain ⟨hmem, hcompatible⟩ := mem_pool.mp hskill
  by_contra hfresh
  exact next_eq_none.mp hend skill ⟨hmem, hfresh, hcompatible, c, hcovers, hc⟩

theorem complete_iff :
    Complete localeCompare request ↔
      ∀ chosen skill, Selects localeCompare request chosen skill →
        ∀ c, ¬ Strands request chosen skill c := by
  have hsound : Selected request (request.final localeCompare).selected := inv_final.selected
  have hpool : (request.final localeCompare).selected ⊆ request.pool :=
    fun skill hskill => mem_pool.mpr (hsound.catalog skill hskill)
  have hend : ∀ c ∈ request.classes,
      Cover.Uncovered Covers (request.final localeCompare).selected c →
      ∀ other ∈ request.pool, Covers other c →
        other.id ∈ (request.final localeCompare).selected.map Skill.id :=
    fun c hc huncovered other hother hcovers =>
      selected_of_remaining (uncovered_final.mpr ⟨hc, huncovered⟩) hother hcovers
  have hcomplete : Complete localeCompare request ↔ ∀ c ∈ request.classes,
      Cover.Uncovered Covers (request.final localeCompare).selected c →
      ∀ other ∈ request.pool, ¬ Covers other c := by
    simp only [Complete, mem_unresolved, uncovered_final, mem_pool, and_imp, Covers]
  rw [hcomplete, Cover.complete_iff hpool hsound.nodup hend]
  simp only [strands_iff, selects_iff]
  constructor
  · intro h chosen skill ⟨after, hafter⟩
    exact h chosen skill after (by rw [← hafter, List.append_assoc, List.singleton_append])
  · rintro h chosen skill after hafter
    exact h chosen skill ⟨after, by rw [hafter, List.append_assoc, List.singleton_append]⟩

/-- Nothing is stranded where no two compatible entries have one id. -/
theorem complete_of_nodup (h : (request.pool.map Skill.id).Nodup) :
    Complete localeCompare request := by
  refine complete_iff.mpr fun chosen skill hselects c hstrands => ?_
  obtain ⟨after, hafter⟩ := selects_iff.mp hselects
  have hskill : skill ∈ (request.final localeCompare).selected := by simp [← hafter]
  obtain ⟨other, hother, hcompatible, hid, hcovers⟩ := hstrands.lost
  have hsame : other = skill := List.inj_on_of_nodup_map h (mem_pool.mpr ⟨hother, hcompatible⟩)
    (mem_pool.mpr (inv_final.selected.catalog skill hskill)) hid
  exact hstrands.uncovered skill (by simp) (hsame ▸ hcovers)

/-- **When no class is lost.** A class that a compatible entry covers is never left over iff no
    selection uses up the last id under which it could still be covered. -/
theorem skills_complete_iff
    {worker requiredSkillClasses requestedSkillIds availableSkills : JsValue}
    {decision : SkillDecision}
    (h : selectMinimalSkills localeCompare worker requiredSkillClasses requestedSkillIds
      availableSkills = .ok decision) :
    ∃ request, readRequest worker requiredSkillClasses requestedSkillIds availableSkills =
        .ok request ∧ decision = request.decision localeCompare ∧
      (Complete localeCompare request ↔
        ∀ chosen skill, Selects localeCompare request chosen skill →
          ∀ c, ¬ Strands request chosen skill c) := by
  obtain ⟨request, hrequest, h⟩ := bind_eq_ok.mp h
  exact ⟨request, hrequest, (pure_eq_ok.mp h).symm, complete_iff⟩

theorem skills_complete_iff_repeatedId :
    ∃ request, readRequest (.str "claude") (.arr [.str "x", .str "y"]) .undefined repeatedId =
        .ok request ∧
      (Complete codeUnitCompare request ↔
        ∀ chosen skill, Selects codeUnitCompare request chosen skill →
          ∀ c, ¬ Strands request chosen skill c) := by
  obtain ⟨request, hrequest, -, hiff⟩ :=
    @skills_complete_iff codeUnitCompare (.str "claude") (.arr [.str "x", .str "y"]) .undefined
      repeatedId _ rfl
  exact ⟨request, hrequest, hiff⟩

/-- The second entry covers the class that is reported as unresolved. -/
theorem repeatedId_incomplete :
    ∃ request, readRequest (.str "claude") (.arr [.str "x", .str "y"]) .undefined repeatedId =
        .ok request ∧ ¬ Complete codeUnitCompare request := by
  refine ⟨_, rfl, fun h => ?_⟩
  have hcovers := h (js "y") (by decide +kernel) (catalogSkill "a" ["y"] 0) (by decide +kernel)
    (by decide +kernel)
  revert hcovers
  decide +kernel

end Wns.Context
