import Wns.Common.Loop
import Wns.Ecma.Set
import Wns.Routing.ExecutionPlan

/-!
# Skill selection

Model of `selectMinimalSkills` (`supervisor-policy/context-policy.mjs`, lines 1–122), with the
empty catalog of `skill-catalog.json`. Requested skills come first; then a loop picks, round by
round, the skill that covers the most of what remains.

* `best_eq_some`, `best_eq_none`: what a round can pick, and when it cannot.
* `Inv`: what remains is what is required and not yet covered.
* `skills_sound`: the loop ends, and what it selects is sound.
-/

namespace Wns.Context

open Ecma Routing

/-! ## Catalog entries -/

structure Skill where
  id : JsString
  covers : List JsString
  workers : List JsString
  loadMode : JsValue
  priority : ℚ
  authority : JsValue
  source : JsValue
  deriving DecidableEq

/-- `requireObject(value, label)`. -/
def requireObject (value : JsValue) (label : JsString) : Throws Props :=
  Routing.requireObject value label

/-- `stringArray(value, label)`. -/
def stringArray (value : JsValue) (label : JsString) : Throws (List JsString) :=
  Routing.stringArray value label

/-- `Number.isFinite(value)`, with the number. -/
def finite (message : JsString) : JsValue → Throws ℚ
  | .num (.finite x) => .ok x
  | _ => throwType message

/-- `WORKERS.has(worker)`. -/
def isWorker (worker : JsString) : Prop := JsValue.str worker ∈ workerValues

instance : DecidablePred isWorker := fun _ => inferInstanceAs (Decidable (_ ∈ _))

/-- `normalizeSkill(skill)`. -/
def normalizeSkill (skill : JsValue) : Throws Skill := do
  let value ← requireObject skill "skill"
  let id ← nonEmptyText "skill.id must be a non-empty string" (prop value "id")
  let name := js "skill " ++ id
  let covers ← stringArray (prop value "covers") (name ++ ".covers")
  check (covers.length ≠ 0) (name ++ ".covers must not be empty")
  let loadMode := coalesce (prop value "load_mode") (.str "on_demand")
  check (loadMode = .str "on_demand") (name ++ ".load_mode must be on_demand")
  let workers ←
    if prop value "workers" = .undefined then pure [js "*"]
    else stringArray (prop value "workers") (name ++ ".workers")
  workers.forM fun worker =>
    check (worker = js "*" ∨ isWorker worker) (name ++ " contains unknown worker " ++ worker)
  let priority ← finite (name ++ ".priority must be numeric")
    (coalesce (prop value "priority") (.nat 0))
  pure
    { id, covers, workers, loadMode, priority
      authority := coalesce (prop value "authority") (.str "procedure")
      source := coalesce (prop value "source") .null }

/-- `compatible(skill, worker)`. -/
def compatible (skill : Skill) (worker : Worker) : Prop :=
  js "*" ∈ skill.workers ∨ js (JsEnum.text worker) ∈ skill.workers

instance (skill : Skill) (worker : Worker) : Decidable (compatible skill worker) :=
  inferInstanceAs (Decidable (_ ∨ _))

/-! ## Input -/

/-- The arguments of `selectMinimalSkills`, once they are checked. -/
structure SkillRequest where
  worker : Worker
  required : List JsString
  requested : List JsString
  skills : List Skill

/-- `catalogDefaults.skills`. -/
def catalogSkills : JsValue := .arr []

/-- The checks of `selectMinimalSkills`. -/
def readRequest (worker requiredSkillClasses requestedSkillIds availableSkills : JsValue) :
    Throws SkillRequest := do
  let worker ← enumMember "worker must be claude, codex, or pi" worker
  let required ← stringArray requiredSkillClasses "required_skill_classes"
  let requested ← stringArray requestedSkillIds "requested_skill_ids"
  let items ← array "available_skills must be an array"
    (if availableSkills = .undefined then catalogSkills else availableSkills)
  let skills ← items.mapM normalizeSkill
  pure { worker, required, requested, skills }

/-! ## Requested skills -/

/-- `byId.get(id)`: of the entries with one id the last is in the map. -/
def byId (skills : List Skill) (id : JsString) : Option Skill :=
  skills.reverse.find? fun skill => skill.id = id

/-- The requested skill of an id, unless it is missing or incompatible. -/
def SkillRequest.lookup (request : SkillRequest) (id : JsString) : Option Skill :=
  (byId request.skills id).filter fun skill => compatible skill request.worker

/-- One id of the loop over `requested`. The ids in `selectedIds` are those of `selected`. -/
def SkillRequest.resolve (request : SkillRequest) (found : List Skill × List JsString)
    (id : JsString) : List Skill × List JsString :=
  match request.lookup id with
  | none => (found.1, found.2 ++ [id])
  | some skill => if id ∈ found.1.map Skill.id then found else (found.1 ++ [skill], found.2)

/-- `selected` and `unresolvedSkillIds` after the loop over `requested`. -/
def SkillRequest.resolved (request : SkillRequest) : List Skill × List JsString :=
  request.requested.foldl request.resolve ([], [])

/-! ## The loop -/

/-- `selected` and `remaining`. -/
structure SelectionState where
  selected : List Skill
  remaining : List JsString

/-- `selectedIds`. -/
def SelectionState.selectedIds (state : SelectionState) : List JsString :=
  state.selected.map Skill.id

/-- The state before the loop. -/
def SkillRequest.start (request : SkillRequest) : SelectionState :=
  let selected := request.resolved.1
  let covered := selected.flatMap Skill.covers
  ⟨selected, request.required.filter fun item => item ∉ covered⟩

/-- `skill.covers.filter((item) => remaining.has(item)).length`. -/
def overlap (skill : Skill) (remaining : List JsString) : ℕ :=
  (skill.covers.filter fun item => item ∈ remaining).length

/-- The comparator of the ranking, where `localeCompare` orders ids. -/
def compareEntries (localeCompare : JsString → JsString → ℤ) (a b : Skill × ℕ) : ℚ :=
  if (b.2 : ℚ) - a.2 ≠ 0 then (b.2 : ℚ) - a.2
  else if b.1.priority - a.1.priority ≠ 0 then b.1.priority - a.1.priority
  else localeCompare a.1.id b.1.id

section

variable (localeCompare : JsString → JsString → ℤ) (request : SkillRequest)

/-- `ranked`. -/
def SkillRequest.ranked (state : SelectionState) : List (Skill × ℕ) :=
  (((request.skills.filter fun skill =>
      skill.id ∉ state.selectedIds ∧ compatible skill request.worker).map fun skill =>
      (skill, overlap skill state.remaining)).filter fun entry => entry.2 > 0).insertionSort
    fun a b => compareEntries localeCompare a b ≤ 0

/-- `ranked[0]?.skill`. -/
def SkillRequest.best (state : SelectionState) : Option Skill :=
  ((request.ranked localeCompare state).head?).map Prod.fst

/-- The state after a round that picks `skill`. -/
def SelectionState.select (state : SelectionState) (skill : Skill) : SelectionState :=
  ⟨state.selected ++ [skill], state.remaining.filter fun item => item ∉ skill.covers⟩

/-- The body of `while (remaining.size > 0)`. -/
def SkillRequest.next (state : SelectionState) : Option (Skill × SelectionState) :=
  if state.remaining.length > 0 then
    (request.best localeCompare state).map fun skill => (skill, state.select skill)
  else none

/-- The state after the loop, which runs for at most as many rounds as classes remain. -/
def SkillRequest.final : SelectionState :=
  rounds (request.next localeCompare) request.start.remaining.length request.start

/-! ## The decision -/

inductive SkillAction
  | ready | needsSkillResolution
  deriving DecidableEq

structure SkillDecision where
  action : SkillAction
  selectedSkillIds : List JsString
  unresolvedSkillIds : List JsString
  unresolvedSkillClasses : List JsString
  loaderOwner : JsString
  selectionPrinciple : JsString
  deriving DecidableEq

/-- What `selectMinimalSkills` returns. -/
def SkillRequest.decision : SkillDecision :=
  let unresolvedSkillIds := request.resolved.2
  let final := request.final localeCompare
  let unresolvedClasses := final.remaining.insertionSort (· ≤ ·)
  { action :=
      if unresolvedSkillIds.length = 0 ∧ unresolvedClasses.length = 0 then .ready
      else .needsSkillResolution
    selectedSkillIds := final.selected.map Skill.id
    unresolvedSkillIds
    unresolvedSkillClasses := unresolvedClasses
    loaderOwner := "native_worker"
    selectionPrinciple := "minimum_sufficient_context" }

/-- `selectMinimalSkills({ worker, required_skill_classes, requested_skill_ids,
    available_skills })`. -/
def selectMinimalSkills
    (worker requiredSkillClasses requestedSkillIds availableSkills : JsValue) :
    Throws SkillDecision := do
  let request ← readRequest worker requiredSkillClasses requestedSkillIds availableSkills
  pure (request.decision localeCompare)

/-! ## A round -/

variable {localeCompare request} {state : SelectionState} {skill : Skill}

theorem overlap_pos {remaining : List JsString} :
    0 < overlap skill remaining ↔ ∃ c ∈ skill.covers, c ∈ remaining := by
  rw [overlap, List.length_pos_iff_exists_mem]
  simp only [List.mem_filter, decide_eq_true_eq]

/-- A skill that a round can pick. -/
structure Candidate (request : SkillRequest) (state : SelectionState) (skill : Skill) : Prop where
  mem : skill ∈ request.skills
  fresh : skill.id ∉ state.selectedIds
  compatible : compatible skill request.worker
  covers : ∃ c ∈ skill.covers, c ∈ state.remaining

theorem mem_ranked {entry : Skill × ℕ} :
    entry ∈ request.ranked localeCompare state ↔
      Candidate request state entry.1 ∧ entry.2 = overlap entry.1 state.remaining := by
  obtain ⟨skill, n⟩ := entry
  rw [SkillRequest.ranked, (List.perm_insertionSort _ _).mem_iff]
  simp only [List.mem_filter, List.mem_map, Prod.mk.injEq, decide_eq_true_eq, gt_iff_lt]
  constructor
  · rintro ⟨⟨other, ⟨hmem, hfresh, hcompatible⟩, rfl, rfl⟩, hpos⟩
    exact ⟨⟨hmem, hfresh, hcompatible, overlap_pos.mp hpos⟩, rfl⟩
  · rintro ⟨h, rfl⟩
    exact ⟨⟨skill, ⟨h.mem, h.fresh, h.compatible⟩, rfl, rfl⟩, overlap_pos.mpr h.covers⟩

theorem best_eq_some (h : request.best localeCompare state = some skill) :
    Candidate request state skill := by
  obtain ⟨entry, hentry, rfl⟩ := Option.map_eq_some_iff.mp h
  exact (mem_ranked.mp (List.mem_of_mem_head? hentry)).1

theorem best_eq_none :
    request.best localeCompare state = none ↔ ∀ skill, ¬ Candidate request state skill := by
  rw [SkillRequest.best, Option.map_eq_none_iff, List.head?_eq_none_iff,
    List.eq_nil_iff_forall_not_mem]
  constructor
  · intro h skill hskill
    exact h (skill, overlap skill state.remaining) (mem_ranked.mpr ⟨hskill, rfl⟩)
  · intro h entry hentry
    exact h entry.1 (mem_ranked.mp hentry).1

/-- The loop goes on as long as a round finds a skill. -/
theorem next_eq :
    request.next localeCompare state =
      (request.best localeCompare state).map fun skill => (skill, state.select skill) := by
  rw [SkillRequest.next]
  split_ifs with h
  · rfl
  · have hnil : state.remaining = [] := by simpa using h
    have hnone : request.best localeCompare state = none :=
      best_eq_none.mpr fun skill hskill => by simpa [hnil] using hskill.covers
    rw [hnone, Option.map_none]

theorem next_eq_some {state' : SelectionState} :
    request.next localeCompare state = some (skill, state') ↔
      request.best localeCompare state = some skill ∧ state.select skill = state' := by
  rw [next_eq, Option.map_eq_some_iff]
  simp only [Prod.mk.injEq]
  exact ⟨fun ⟨_, hbest, rfl, h⟩ => ⟨hbest, h⟩, fun ⟨hbest, h⟩ => ⟨skill, hbest, rfl, h⟩⟩

theorem next_eq_none :
    request.next localeCompare state = none ↔ ∀ skill, ¬ Candidate request state skill := by
  rw [next_eq, Option.map_eq_none_iff, best_eq_none]

/-- A round leaves less to be covered. -/
theorem length_remaining_lt {state' : SelectionState}
    (h : request.next localeCompare state = some (skill, state')) :
    state'.remaining.length < state.remaining.length := by
  obtain ⟨hbest, rfl⟩ := next_eq_some.mp h
  obtain ⟨c, hc, hremaining⟩ := (best_eq_some hbest).covers
  exact List.length_filter_lt_length_iff_exists.mpr ⟨c, hremaining, by simpa using hc⟩

/-! ## The requested skills -/

theorem byId_eq_some {skills : List Skill} {id : JsString} (h : byId skills id = some skill) :
    skill ∈ skills ∧ skill.id = id :=
  ⟨List.mem_reverse.mp (List.mem_of_find?_eq_some h), by simpa using List.find?_some h⟩

theorem lookup_eq_some {id : JsString} (h : request.lookup id = some skill) :
    skill ∈ request.skills ∧ skill.id = id ∧ compatible skill request.worker := by
  obtain ⟨hfound, hcompatible⟩ := Option.filter_eq_some_iff.mp h
  obtain ⟨hmem, hid⟩ := byId_eq_some hfound
  exact ⟨hmem, hid, by simpa using hcompatible⟩

/-- What one requested id does. -/
theorem resolve_cases (found : List Skill × List JsString) (id : JsString) :
    (¬ ∃ skill, request.lookup id = some skill ∧ id ∉ found.1.map Skill.id) ∧
        (request.resolve found id).1 = found.1 ∨
      ∃ skill, request.lookup id = some skill ∧ id ∉ found.1.map Skill.id ∧
        (request.resolve found id).1 = found.1 ++ [skill] := by
  rw [SkillRequest.resolve]
  split
  · next hnone => exact .inl ⟨by simp [hnone], rfl⟩
  · next skill hskill =>
    split_ifs with hid
    · exact .inl ⟨fun ⟨_, _, hfresh⟩ => hfresh hid, rfl⟩
    · exact .inr ⟨skill, hskill, hid, rfl⟩

/-! ## What holds throughout -/

/-- Skills of the catalog that fit the worker, under different ids. -/
structure Selected (request : SkillRequest) (selected : List Skill) : Prop where
  catalog : ∀ skill ∈ selected, skill ∈ request.skills ∧ compatible skill request.worker
  nodup : (selected.map Skill.id).Nodup

theorem Selected.push {selected : List Skill} (h : Selected request selected)
    (hskill : skill ∈ request.skills) (hcompatible : compatible skill request.worker)
    (hfresh : skill.id ∉ selected.map Skill.id) : Selected request (selected ++ [skill]) where
  catalog := List.forall_mem_append.mpr ⟨h.catalog, by simp [hskill, hcompatible]⟩
  nodup := by
    rw [List.map_append, List.map_singleton, ← List.concat_eq_append]
    exact h.nodup.concat hfresh

theorem selected_resolved : Selected request request.resolved.1 := by
  have hfold : ∀ (ids : List JsString) (found : List Skill × List JsString),
      Selected request found.1 → Selected request (ids.foldl request.resolve found).1 := by
    intro ids
    induction ids with
    | nil => exact fun _ h => h
    | cons id ids ih =>
      intro found h
      refine ih _ ?_
      obtain ⟨-, heq⟩ | ⟨skill, hskill, hfresh, heq⟩ := resolve_cases found id
      · rwa [heq]
      · obtain ⟨hmem, rfl, hcompatible⟩ := lookup_eq_some hskill
        exact heq ▸ h.push hmem hcompatible hfresh
  exact hfold _ _ ⟨nofun, List.nodup_nil⟩

/-- What remains is what is required and not covered yet. -/
structure Inv (request : SkillRequest) (state : SelectionState) : Prop where
  selected : Selected request state.selected
  remaining : ∀ c, c ∈ state.remaining ↔
    c ∈ request.required ∧ ∀ skill ∈ state.selected, c ∉ skill.covers

theorem inv_start : Inv request request.start where
  selected := selected_resolved
  remaining c := by
    simp only [SkillRequest.start, List.mem_filter, List.mem_flatMap, not_exists, not_and,
      decide_eq_true_eq]

theorem Inv.next {state' : SelectionState} (h : Inv request state)
    (hnext : request.next localeCompare state = some (skill, state')) : Inv request state' := by
  obtain ⟨hbest, rfl⟩ := next_eq_some.mp hnext
  have hskill := best_eq_some hbest
  refine ⟨h.selected.push hskill.mem hskill.compatible hskill.fresh, fun c => ?_⟩
  simp only [SelectionState.select, List.mem_filter, h.remaining, List.forall_mem_append,
    List.forall_mem_singleton, decide_eq_true_eq, and_assoc]

/-- What the rounds of a loop leave. -/
theorem Inv.run {state' : SelectionState} {picks : List Skill} (h : Inv request state)
    (hrun : Run (Round (request.next localeCompare)) state picks state') : Inv request state' :=
  hrun.invariant (fun _ _ _ hround hinv => hinv.next hround) h

theorem selected_run {state' : SelectionState} {picks : List Skill}
    (hrun : Run (Round (request.next localeCompare)) state picks state') :
    state'.selected = state.selected ++ picks := by
  induction hrun with
  | nil state => rw [List.append_nil]
  | cons hround _ ih =>
    obtain ⟨-, rfl⟩ := next_eq_some.mp hround
    rw [ih, SelectionState.select, List.append_assoc, List.singleton_append]

/-- Each round covers something that is required and that nothing selected before covers. -/
theorem Inv.covers_new (h : Inv request state) {state' : SelectionState}
    (hnext : request.next localeCompare state = some (skill, state')) :
    ∃ c ∈ request.required, c ∈ skill.covers ∧ ∀ earlier ∈ state.selected, c ∉ earlier.covers := by
  obtain ⟨c, hc, hremaining⟩ := (best_eq_some (next_eq_some.mp hnext).1).covers
  obtain ⟨hrequired, huncovered⟩ := (h.remaining c).mp hremaining
  exact ⟨c, hrequired, hc, huncovered⟩

/-- The whole loop. -/
theorem exists_run_final (request : SkillRequest) (localeCompare : JsString → JsString → ℤ) :
    ∃ picks, Run (Round (request.next localeCompare)) request.start picks
      (request.final localeCompare) ∧ request.next localeCompare (request.final localeCompare) =
        none := by
  have hmeasure : ∀ state skill state', request.next localeCompare state = some (skill, state') →
      state'.remaining.length < state.remaining.length := fun _ _ _ => length_remaining_lt
  obtain ⟨picks, hrun⟩ := exists_run_rounds request.start.remaining.length request.start
  exact ⟨picks, hrun, next_rounds hmeasure le_rfl⟩

end

/-! ## Soundness -/

/-- The items of an array; there are none where it is left out. -/
def arrayItems : JsValue → List JsValue
  | .arr items => items
  | _ => []

theorem eq_str_of_nonEmptyText {message : JsString} {v : JsValue} {s : JsString}
    (h : nonEmptyText message v = .ok s) : v = .str s := by
  unfold nonEmptyText at h
  split at h
  · split_ifs at h with hempty
    · cases h
    · exact congrArg JsValue.str (Except.ok.inj h)
  · cases h

/-- An accepted list of strings, each of them once. -/
theorem stringArray_ok {v : JsValue} {label : JsString} {l : List JsString}
    (h : stringArray v label = .ok l) :
    l.Nodup ∧ ∀ s, s ∈ l ↔ .str s ∈ arrayItems v := by
  unfold stringArray Routing.stringArray at h
  split at h
  · obtain rfl := Except.ok.inj h
    exact ⟨List.nodup_nil, by simp [arrayItems]⟩
  · next items =>
    obtain ⟨texts, htexts, h⟩ := bind_eq_ok.mp h
    obtain rfl := pure_eq_ok.mp h
    obtain rfl := eq_map_of_mapM (fun _ _ => eq_str_of_nonEmptyText) htexts
    refine ⟨nodup_eraseDups texts, fun s => ?_⟩
    rw [List.mem_eraseDups, arrayItems, List.mem_map_of_injective fun _ _ => JsValue.str.inj]
  · cases h

/-- What is known of a checked request. -/
structure Reads (requiredSkillClasses availableSkills : JsValue) (request : SkillRequest) :
    Prop where
  nodup : request.required.Nodup
  required : ∀ c, c ∈ request.required ↔ .str c ∈ arrayItems requiredSkillClasses
  catalog : ∀ skill ∈ request.skills,
    ∃ entry ∈ arrayItems availableSkills, normalizeSkill entry = .ok skill

theorem readRequest_ok {worker requiredSkillClasses requestedSkillIds availableSkills : JsValue}
    {request : SkillRequest}
    (h : readRequest worker requiredSkillClasses requestedSkillIds availableSkills =
      .ok request) : Reads requiredSkillClasses availableSkills request := by
  obtain ⟨worker, -, h⟩ := bind_eq_ok.mp h
  obtain ⟨required, hrequired, h⟩ := bind_eq_ok.mp h
  obtain ⟨requested, -, h⟩ := bind_eq_ok.mp h
  obtain ⟨items, hitems, h⟩ := bind_eq_ok.mp h
  obtain ⟨skills, hskills, h⟩ := bind_eq_ok.mp h
  obtain rfl := pure_eq_ok.mp h
  obtain ⟨hnodup, hmem⟩ := stringArray_ok hrequired
  refine ⟨hnodup, hmem, fun skill hskill => ?_⟩
  have hcatalog : items ⊆ arrayItems availableSkills := by
    rw [array_eq_ok] at hitems
    split_ifs at hitems with hundefined
    · obtain rfl := JsValue.arr.inj hitems
      exact List.nil_subset _
    · rw [hitems]
      exact List.Subset.refl _
  obtain ⟨entry, hentry, hskill⟩ := exists_of_mem_mapM hskills hskill
  exact ⟨entry, hcatalog hentry, hskill⟩

/-- What a decision says about the entries of the catalog and about the classes. -/
structure Sound (localeCompare : JsString → JsString → ℤ)
    (requiredSkillClasses availableSkills : JsValue) (request : SkillRequest)
    (decision : SkillDecision) : Prop where
  /-- The loop ends after at most as many rounds as there are distinct required classes, the
      round that breaks it while something remains included, and each pick covers a class that
      nothing selected before covers. -/
  rounds : request.required.Nodup ∧
    (∀ c, c ∈ request.required ↔ .str c ∈ arrayItems requiredSkillClasses) ∧
    ∃ picks, Run (Round (request.next localeCompare)) request.start picks
        (request.final localeCompare) ∧
      request.next localeCompare (request.final localeCompare) = none ∧
      picks.length + (request.final localeCompare).remaining.length ≤ request.required.length ∧
      (request.final localeCompare).selected = request.start.selected ++ picks ∧
      ∀ before skill after, picks = before ++ skill :: after →
        ∃ c ∈ request.required, c ∈ skill.covers ∧
          ∀ earlier ∈ request.start.selected ++ before, c ∉ earlier.covers
  /-- The selected ids are those of compatible entries, each of them once. -/
  ids : decision.selectedSkillIds = (request.final localeCompare).selected.map Skill.id ∧
    decision.selectedSkillIds.Nodup ∧
    ∀ skill ∈ (request.final localeCompare).selected, compatible skill request.worker ∧
      ∃ entry ∈ arrayItems availableSkills, normalizeSkill entry = .ok skill
  unresolved : decision.unresolvedSkillClasses.Nodup ∧
    ∀ c, c ∈ decision.unresolvedSkillClasses ↔ c ∈ request.required ∧
      ∀ skill ∈ (request.final localeCompare).selected, c ∉ skill.covers
  ready : decision.action = .ready ↔
    decision.unresolvedSkillIds = [] ∧ decision.unresolvedSkillClasses = []

section

variable {localeCompare : JsString → JsString → ℤ} {request : SkillRequest}

theorem inv_final : Inv request (request.final localeCompare) := by
  obtain ⟨picks, hrun, -⟩ := exists_run_final request localeCompare
  exact inv_start.run hrun

/-- No round adds to what remains. -/
theorem nodup_remaining (h : request.required.Nodup) :
    (request.final localeCompare).remaining.Nodup := by
  obtain ⟨picks, hrun, -⟩ := exists_run_final request localeCompare
  refine hrun.invariant (P := fun state => state.remaining.Nodup) ?_ (h.filter _)
  intro state skill state' hround hnodup
  obtain ⟨-, rfl⟩ := next_eq_some.mp hround
  exact hnodup.filter _

theorem mem_unresolved {c : JsString} :
    c ∈ (request.decision localeCompare).unresolvedSkillClasses ↔
      c ∈ (request.final localeCompare).remaining :=
  (List.perm_insertionSort _ _).mem_iff

/-- Every pick takes at least one class from what remains. -/
theorem length_picks_add_le {picks : List Skill} {state : SelectionState}
    (hrun : Run (Round (request.next localeCompare)) request.start picks state) :
    picks.length + state.remaining.length ≤ request.required.length := by
  have hbound := hrun.length_add_le (f := fun state => state.remaining.length)
    fun _ _ _ hround => length_remaining_lt hround
  have hstart : request.start.remaining.length ≤ request.required.length :=
    List.length_filter_le _ _
  omega

theorem covers_new {picks : List Skill} {state : SelectionState}
    (hrun : Run (Round (request.next localeCompare)) request.start picks state)
    {before : List Skill} {skill : Skill} {after : List Skill}
    (hpicks : picks = before ++ skill :: after) :
    ∃ c ∈ request.required, c ∈ skill.covers ∧
      ∀ earlier ∈ request.start.selected ++ before, c ∉ earlier.covers := by
  obtain ⟨state, state', hbefore, hround, -⟩ := (hpicks ▸ hrun).split
  have hnew := (inv_start.run hbefore).covers_new hround
  rwa [selected_run hbefore] at hnew

/-- **Every decision about skills is sound,** whatever input has been accepted. -/
theorem skills_sound {worker requiredSkillClasses requestedSkillIds availableSkills : JsValue}
    {decision : SkillDecision}
    (h : selectMinimalSkills localeCompare worker requiredSkillClasses requestedSkillIds
      availableSkills = .ok decision) :
    ∃ request, readRequest worker requiredSkillClasses requestedSkillIds availableSkills =
        .ok request ∧
      Sound localeCompare requiredSkillClasses availableSkills request decision := by
  obtain ⟨request, hrequest, h⟩ := bind_eq_ok.mp h
  obtain rfl := pure_eq_ok.mp h
  have hreads := readRequest_ok hrequest
  refine ⟨request, hrequest, ?_⟩
  constructor
  case rounds =>
    obtain ⟨picks, hrun, hend⟩ := exists_run_final request localeCompare
    exact ⟨hreads.nodup, hreads.required, picks, hrun, hend, length_picks_add_le hrun,
      selected_run hrun, fun before skill after hpicks => covers_new hrun hpicks⟩
  case ids =>
    refine ⟨rfl, inv_final.selected.nodup, fun skill hskill => ?_⟩
    obtain ⟨hmem, hcompatible⟩ := inv_final.selected.catalog skill hskill
    exact ⟨hcompatible, hreads.catalog skill hmem⟩
  case unresolved =>
    refine ⟨?_, fun c => mem_unresolved.trans (inv_final.remaining c)⟩
    exact (List.perm_insertionSort _ _).nodup_iff.mpr (nodup_remaining hreads.nodup)
  case ready =>
    simp only [SkillRequest.decision, List.length_eq_zero_iff]
    split_ifs with hnone <;> simp [hnone]

end

/-- The order of the code units. -/
def codeUnitCompare (a b : JsString) : ℤ := if a < b then -1 else if a = b then 0 else 1

/-- An entry of the catalog. -/
def catalogEntry (id : String) (covers : List String) (priority : ℕ) : JsValue :=
  .obj [("id", .str id), ("covers", .arr (covers.map fun c => .str c)),
    ("priority", .nat priority)]

/-- Two entries under one id, and a request for it. -/
def repeatedId : JsValue := .arr [catalogEntry "a" ["x"] 0, catalogEntry "a" ["y"] 0]

theorem skills_sound_repeatedId :
    ∃ decision, decision.unresolvedSkillClasses = [js "x"] ∧
      ∃ request, readRequest (.str "pi") (.arr [.str "x", .str "y"]) (.arr [.str "a"]) repeatedId =
          .ok request ∧
        Sound codeUnitCompare (.arr [.str "x", .str "y"]) repeatedId request decision :=
  ⟨_, by decide +kernel, @skills_sound codeUnitCompare (.str "pi") _ (.arr [.str "a"]) _ _ rfl⟩

end Wns.Context
