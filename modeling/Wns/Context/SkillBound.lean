import Wns.Common.Greedy
import Wns.Context.SkillCover

/-!
# How many skills the loop picks

The loop of `selectMinimalSkills` is the greedy algorithm for covers: the ranking puts a skill of
the greatest overlap first. So it may pick more skills than are needed, but not many more.

* `overlap_le_of_best`: no candidate of a round overlaps more than the one that it picks.
* `skills_bound`: compared with any other choice that covers what the requested skills leave, it
  picks at most `H(d)` times as many, where `d` bounds what one skill of that choice covers.
-/

namespace Wns.Context

open Ecma Routing

variable {localeCompare : JsString → JsString → ℤ} {request : SkillRequest}
  {state : SelectionState} {skill : Skill}

/-! ## The pick of a round -/

/-- The ranking goes by the overlap first. -/
theorem overlap_le_of_best (h : request.best localeCompare state = some skill) {other : Skill}
    (hother : Candidate request state other) :
    overlap other state.remaining ≤ overlap skill state.remaining := by
  obtain ⟨entry, hentry, rfl⟩ := Option.map_eq_some_iff.mp h
  have hmem : ∀ e ∈ request.ranked localeCompare state, e.2 = overlap e.1 state.remaining :=
    fun e he => (mem_ranked.mp he).2
  have hle : ∀ a b : Skill × ℕ, compareEntries localeCompare a b ≤ 0 → b.2 ≤ a.2 := by
    intro a b hab
    unfold compareEntries at hab
    split_ifs at hab with hne
    · exact_mod_cast sub_nonpos.mp hab
    all_goals exact_mod_cast (sub_eq_zero.mp (not_not.mp hne)).le
  have hge : ∀ a b : Skill × ℕ, ¬ compareEntries localeCompare a b ≤ 0 → a.2 ≤ b.2 := by
    intro a b hab
    unfold compareEntries at hab
    split_ifs at hab with hne
    · exact_mod_cast (sub_pos.mp (not_le.mp hab)).le
    all_goals exact_mod_cast (sub_eq_zero.mp (not_not.mp hne)).ge
  have hranked : (other, overlap other state.remaining) ∈ request.ranked localeCompare state :=
    mem_ranked.mpr ⟨hother, rfl⟩
  have hbest := Greedy.le_of_head_insertionSort (f := Prod.snd) hle hge hentry _
    ((List.perm_insertionSort _ _).mem_iff.mp hranked)
  rwa [hmem entry (List.mem_of_mem_head? hentry)] at hbest

/-! ## Entries of the catalog -/

/-- A skill lists each class once. -/
theorem nodup_covers {entry : JsValue} (h : normalizeSkill entry = .ok skill) :
    skill.covers.Nodup := by
  obtain ⟨value, -, h⟩ := bind_eq_ok.mp h
  obtain ⟨id, -, h⟩ := bind_eq_ok.mp h
  obtain ⟨covers, hcovers, h⟩ := bind_eq_ok.mp h
  obtain ⟨_, -, h⟩ := bind_eq_ok.mp h
  obtain ⟨_, -, h⟩ := bind_eq_ok.mp h
  -- the workers are read or left out, and do not matter here
  dsimp only at h
  split_ifs at h
  all_goals
    obtain ⟨workers, -, h⟩ := bind_eq_ok.mp h
    obtain ⟨_, -, h⟩ := bind_eq_ok.mp h
    obtain ⟨priority, -, h⟩ := bind_eq_ok.mp h
    obtain rfl := pure_eq_ok.mp h
    exact (stringArray_ok hcovers).1

/-- The classes of a skill, as a set. -/
def Skill.classes (skill : Skill) : Finset JsString := skill.covers.toFinset

/-- The classes that remain, as a set. -/
def SelectionState.rest (state : SelectionState) : Finset JsString := state.remaining.toFinset

theorem overlap_eq_card (h : skill.covers.Nodup) (state : SelectionState) :
    overlap skill state.remaining = (skill.classes ∩ state.rest).card := by
  have hfilter : skill.classes ∩ state.rest =
      (skill.covers.filter fun item => item ∈ state.remaining).toFinset := by
    ext c
    simp [Skill.classes, SelectionState.rest]
  rw [hfilter, List.toFinset_card_of_nodup (h.filter _), overlap]

/-! ## Another choice -/

/-- Another choice of skills that covers what the requested ones leave. Its skills fit the worker,
    no other compatible entry has the id of one of them, and none of them covers more than `d`
    of what is left. -/
structure Rivals (request : SkillRequest) (d : ℕ) (rivals : List Skill) : Prop where
  pool : rivals ⊆ request.pool
  unique : ∀ rival ∈ rivals, ∀ other ∈ request.pool, other.id = rival.id → other = rival
  covered : ∀ c ∈ request.start.remaining, ∃ rival ∈ rivals, c ∈ rival.covers
  overlap_le : ∀ rival ∈ rivals, overlap rival request.start.remaining ≤ d

section

variable {d : ℕ} {rivals : List Skill}

/-- A rival under an id that is selected is selected itself, so that it covers nothing of the
    rest. -/
theorem Rivals.fresh (h : Rivals request d rivals) (hinv : Inv request state) {rival : Skill}
    (hrival : rival ∈ rivals) {c : JsString} (hc : c ∈ state.remaining)
    (hcovers : c ∈ rival.covers) : rival.id ∉ state.selectedIds := by
  intro hid
  obtain ⟨selected, hselected, heq⟩ := List.mem_map.mp hid
  obtain rfl := h.unique rival hrival selected
    (mem_pool.mpr (hinv.selected.catalog selected hselected)) heq
  exact ((hinv.remaining c).mp hc).2 selected hselected hcovers

theorem Rivals.candidate (h : Rivals request d rivals) (hinv : Inv request state) {rival : Skill}
    (hrival : rival ∈ rivals) {c : JsString} (hc : c ∈ state.remaining)
    (hcovers : c ∈ rival.covers) : Candidate request state rival :=
  have hpool := mem_pool.mp (h.pool hrival)
  ⟨hpool.1, h.fresh hinv hrival hc hcovers, hpool.2, c, hcovers, hc⟩

/-- A round of the loop is a round of the greedy choice. -/
theorem Rivals.picks (h : Rivals request d rivals)
    (hnodup : ∀ skill ∈ request.skills, skill.covers.Nodup) (hinv : Inv request state)
    {state' : SelectionState} (hround : request.next localeCompare state = some (skill, state')) :
    Greedy.Picks Skill.classes rivals state.rest skill state'.rest := by
  obtain ⟨hbest, rfl⟩ := next_eq_some.mp hround
  have hskill := best_eq_some hbest
  obtain ⟨c, hc, hremaining⟩ := hskill.covers
  constructor
  · exact ⟨c, by simpa [Skill.classes, SelectionState.rest] using ⟨hc, hremaining⟩⟩
  · intro rival hrival
    rw [← overlap_eq_card (hnodup skill hskill.mem)]
    obtain hnone | ⟨c', hc'⟩ := (rival.classes ∩ state.rest).eq_empty_or_nonempty
    · rw [hnone, Finset.card_empty]
      exact Nat.zero_le _
    · obtain ⟨hcovers, hrest⟩ := Finset.mem_inter.mp hc'
      have hcandidate := h.candidate hinv hrival (List.mem_toFinset.mp hrest)
        (List.mem_toFinset.mp hcovers)
      rw [← overlap_eq_card (hnodup rival hcandidate.mem)]
      exact overlap_le_of_best hbest hcandidate
  · ext c'
    simp [Skill.classes, SelectionState.rest, SelectionState.select]

/-- What some rival covers is covered in the end. -/
theorem Rivals.remaining_eq_nil (h : Rivals request d rivals) :
    (request.final localeCompare).remaining = [] := by
  obtain ⟨picks, hrun, hend⟩ := exists_run_final request localeCompare
  refine List.eq_nil_iff_forall_not_mem.mpr fun c hc => ?_
  have hstart : c ∈ request.start.remaining := by
    obtain ⟨hrequired, huncovered⟩ := (inv_final.remaining c).mp hc
    refine (inv_start.remaining c).mpr ⟨hrequired, fun skill hskill => huncovered skill ?_⟩
    rw [selected_run hrun]
    exact List.mem_append_left _ hskill
  obtain ⟨rival, hrival, hcovers⟩ := h.covered c hstart
  exact next_eq_none.mp hend rival (h.candidate inv_final hrival hc hcovers)

/-- The rounds of the loop, against any other choice. -/
theorem Rivals.length_le (h : Rivals request d rivals)
    (hnodup : ∀ skill ∈ request.skills, skill.covers.Nodup) {picks : List Skill}
    (hrun : Run (Round (request.next localeCompare)) request.start picks
      (request.final localeCompare)) :
    (picks.length : ℚ) ≤ rivals.length * harmonic d := by
  have hgreedy : Run (Greedy.Picks Skill.classes rivals) request.start.rest picks
      (request.final localeCompare).rest :=
    hrun.map (P := Inv request)
      (fun _ _ _ hinv hround => ⟨h.picks hnodup hinv hround, hinv.next hround⟩) inv_start
  have hcovered : Greedy.Covered Skill.classes rivals request.start.rest := by
    intro c hc
    obtain ⟨rival, hrival, hcovers⟩ := h.covered c (List.mem_toFinset.mp hc)
    exact ⟨rival, hrival, List.mem_toFinset.mpr hcovers⟩
  refine Greedy.length_le_mul_harmonic hgreedy hcovered fun rival hrival => ?_
  rw [← overlap_eq_card (hnodup rival (mem_pool.mp (h.pool hrival)).1)]
  exact h.overlap_le rival hrival

end

/-- **The loop is within a harmonic factor.** Whatever other choice covers what the requested
    skills leave: the loop covers it too, and it picks at most `H(d)` times as many skills. -/
theorem skills_bound {worker requiredSkillClasses requestedSkillIds availableSkills : JsValue}
    {decision : SkillDecision}
    (h : selectMinimalSkills localeCompare worker requiredSkillClasses requestedSkillIds
      availableSkills = .ok decision) :
    ∃ request, readRequest worker requiredSkillClasses requestedSkillIds availableSkills =
        .ok request ∧
      ∃ picks : List Skill,
        decision.selectedSkillIds = request.start.selectedIds ++ picks.map Skill.id ∧
        ∀ d rivals, Rivals request d rivals →
          decision.unresolvedSkillClasses = [] ∧
            (picks.length : ℚ) ≤ rivals.length * harmonic d := by
  obtain ⟨request, hrequest, h⟩ := bind_eq_ok.mp h
  obtain rfl := pure_eq_ok.mp h
  obtain ⟨picks, hrun, -⟩ := exists_run_final request localeCompare
  have hnodup : ∀ skill ∈ request.skills, skill.covers.Nodup := by
    intro skill hskill
    obtain ⟨entry, -, hentry⟩ := (readRequest_ok hrequest).catalog skill hskill
    exact nodup_covers hentry
  refine ⟨request, hrequest, picks, ?_, fun d rivals hrivals => ⟨?_, ?_⟩⟩
  · rw [SelectionState.selectedIds, ← List.map_append, ← selected_run hrun]
    rfl
  · exact List.eq_nil_iff_forall_not_mem.mpr fun c hc => by
      have hremaining := mem_unresolved.mp hc
      rw [hrivals.remaining_eq_nil] at hremaining
      cases hremaining
  · exact hrivals.length_le hnodup hrun

/-- Two skills of two classes each, in place of the three that the loop picks. -/
def outerTwo : List Skill := [catalogSkill "p" ["a", "b"] 1, catalogSkill "q" ["c", "d"] 0]

/-- The bound is met: the loop picks three skills, and `3 = 2 * harmonic 2`. -/
theorem skills_bound_middleFirst :
    ∃ decision : SkillDecision,
      decision.selectedSkillIds = [js "x", js "p", js "q"] ∧
      ∃ request, readRequest (.str "claude") fourClasses .undefined middleFirst = .ok request ∧
        Rivals request 2 outerTwo ∧
        ∃ picks : List Skill,
          decision.selectedSkillIds = request.start.selectedIds ++ picks.map Skill.id ∧
          ∀ d rivals, Rivals request d rivals →
            decision.unresolvedSkillClasses = [] ∧
              (picks.length : ℚ) ≤ rivals.length * harmonic d := by
  obtain ⟨request, hrequest, hbound⟩ :=
    @skills_bound codeUnitCompare (.str "claude") fourClasses .undefined middleFirst _ rfl
  refine ⟨_, ?_, request, hrequest, ?_, hbound⟩
  · decide +kernel
  · obtain rfl := Except.ok.inj hrequest
    constructor <;> decide +kernel

end Wns.Context
