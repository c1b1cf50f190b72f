import Wns.Common.Checks
import Wns.Ecma.Digest

/-!
# Authorized host effects

Model of `supervisor-policy/authorized-host-effect.mjs` (lines 22–128): the request of one
effect, whose input is bounded JSON, and the scope token that stands for it. SHA-256 is a
parameter, the hexadecimal digest of a byte string.

* `normalizeJson_eq_ok`: what is accepted as input, and that it is returned with its keys
  sorted.
* `validateAuthorizedHostEffectRequest_eq_ok`: a request is accepted in its exact shape, in
  any key order at any depth.
* `createAuthorizedHostEffectScope_congr`, `jsonEq_of_createAuthorizedHostEffectScope`: two
  requests have one token precisely when they are equal up to key order.
-/

namespace Wns.Effect

open Ecma JsValue

/-! ## Strings and their grammars -/

/-- Non-empty trimmed strings of at most `maxLength` code units, none of them NUL. -/
abbrev BoundedString (maxLength : ℕ) :=
  {s : JsString // s ≠ [] ∧ s.length ≤ maxLength ∧ trim s = s ∧ 0 ∉ s}

/-- `[a-z]` -/
def isLower (u : CodeUnit) : Bool := 0x61 ≤ u.val ∧ u.val ≤ 0x7A

/-- `[A-Z]` -/
def isUpper (u : CodeUnit) : Bool := 0x41 ≤ u.val ∧ u.val ≤ 0x5A

/-- `[a-z0-9]` -/
def isLowerDigit (u : CodeUnit) : Bool := isLower u || isDigit u

/-- `[._-]` -/
def isSeparator (u : CodeUnit) : Bool := u.val ∈ [0x2E, 0x5F, 0x2D]

/-- `[a-z0-9]*(?:[._-][a-z0-9]+)*` -/
def isKindTail : JsString → Bool
  | [] => true
  | u :: s =>
    if isLowerDigit u then isKindTail s
    else isSeparator u && s.head?.any isLowerDigit && isKindTail s

/-- `^[a-z][a-z0-9]*(?:[._-][a-z0-9]+)*$` -/
def isHostEffectKind : JsString → Bool
  | [] => false
  | u :: s => isLower u && isKindTail s

/-- A unit of the class `first` and at most `max` units of the class `rest`. -/
def isToken (first rest : CodeUnit → Bool) (max : ℕ) : JsString → Bool
  | [] => false
  | u :: s => first u && s.all rest && s.length ≤ max

/-- `^[a-z][a-z0-9_-]{0,31}:[A-Za-z0-9][A-Za-z0-9._-]{0,127}$`; neither class has the
    colon. -/
def isLogicalResourceRef (s : JsString) : Bool :=
  match s.span fun u => u.val ≠ 0x3A with
  | (_, []) => false
  | (space, _ :: name) =>
    isToken isLower (fun u => isLowerDigit u || u.val ∈ [0x5F, 0x2D]) 31 space &&
      isToken (fun u => isUpper u || isLowerDigit u)
        (fun u => isUpper u || isLowerDigit u || isSeparator u) 127 name

abbrev HostEffectKind := {s : BoundedString 80 // isHostEffectKind s.1 = true}

abbrev LogicalResourceRef := {s : BoundedString 160 // isLogicalResourceRef s.1 = true}

/-- `requireTrimmedString(value, label, maxLength)`. -/
def requireBoundedString (maxLength : ℕ) (value : JsValue) (label : JsString) :
    Throws (BoundedString maxLength) :=
  let message := label ++ " must be a trimmed, non-empty, bounded NUL-free string"
  match value with
  | .str s =>
    if h : s ≠ [] ∧ s.length ≤ maxLength ∧ trim s = s ∧ 0 ∉ s then .ok ⟨s, h⟩
    else throwType message
  | _ => throwType message

/-- A bounded string of the grammar `grammar`; `message` says what else is thrown for. -/
def requireMatch (maxLength : ℕ) (grammar : JsString → Bool) (message : JsString)
    (value : JsValue) (label : JsString) :
    Throws {s : BoundedString maxLength // grammar s.1 = true} := do
  let s ← requireBoundedString maxLength value label
  let ⟨h⟩ ← require (grammar s.1 = true) (label ++ message)
  pure ⟨s, h⟩

/-- `validateHostEffectKind(value, label)`. -/
def validateHostEffectKind (value : JsValue) (label : JsString) : Throws HostEffectKind :=
  requireMatch 80 isHostEffectKind " must be a lowercase capability token" value label

/-- `validateLogicalResourceRef(value, label)`. -/
def validateLogicalResourceRef (value : JsValue) (label : JsString) : Throws LogicalResourceRef :=
  requireMatch 160 isLogicalResourceRef " must be a logical namespace:name reference" value label

/-! ## Bounded JSON -/

/-- `MAX_INPUT_BYTES`. -/
def maxInputBytes : ℕ := 16 * 1024

/-- `MAX_INPUT_DEPTH`. -/
def maxInputDepth : ℕ := 8

/-- `MAX_COLLECTION_ITEMS`. -/
def maxCollectionItems : ℕ := 128

/-- The property names that an input may have. -/
def IsPropertyName (key : JsString) : Prop :=
  key ≠ [] ∧ key.length ≤ 120 ∧ 0 ∉ key ∧ key ≠ "__proto__"

instance : DecidablePred IsPropertyName := fun _ => inferInstanceAs (Decidable (_ ∧ _))

/-- The loop over the properties of an object, for a property whose value normalizes to
    `p.2`. -/
def normalizeEntry (label : JsString) (p : JsString × Throws JsValue) :
    Throws (JsString × JsValue) := do
  check (IsPropertyName p.1) (label ++ " contains an invalid property name")
  let w ← p.2
  pure (p.1, w)

mutual

/-- `normalizeJson(value, label, depth)`. -/
def normalizeJson : JsValue → JsString → ℕ → Throws JsValue
  | v, label, depth => do
    check (depth ≤ maxInputDepth) (label ++ " exceeds the maximum nesting depth")
    match v with
    | .null => pure .null
    | .bool b => pure (.bool b)
    | .str s =>
      check (s.length ≤ 4096 ∧ 0 ∉ s) (label ++ " contains an invalid string")
      pure (.str s)
    | .num x =>
      check x.isSafeInteger (label ++ " numbers must be safe integers")
      pure (.num x)
    | .arr items =>
      check (items.length ≤ maxCollectionItems) (label ++ " contains too many items")
      let normalized ← normalizeItems items label 0 (depth + 1)
      pure (.arr normalized)
    | .obj props =>
      check (props.length ≤ maxCollectionItems) (label ++ " contains too many properties")
      -- `keys.sort()`: the first property to throw is the first in sorted order
      let normalized ← (sortByKey (normalizeProps props label (depth + 1))).mapM
        (normalizeEntry label)
      pure (.obj normalized)
    | .undefined => throwType (label ++ " must contain JSON values only")

/-- The items of an array, from index `index` on. -/
def normalizeItems : List JsValue → JsString → ℕ → ℕ → Throws (List JsValue)
  | [], _, _, _ => pure []
  | v :: vs, label, index, depth => do
    let w ← normalizeJson v (label ++ "[" ++ natText index ++ "]") depth
    let ws ← normalizeItems vs label (index + 1) depth
    pure (w :: ws)

/-- The properties of an object, each with what normalizing its value gives. -/
def normalizeProps : Props → JsString → ℕ → List (JsString × Throws JsValue)
  | [], _, _ => []
  | (k, v) :: ps, label, depth =>
    (k, normalizeJson v (label ++ "." ++ k) depth) :: normalizeProps ps label depth

end

/-- What `normalizeJson` accepts at nesting depth `depth`. -/
inductive Admissible : ℕ → JsValue → Prop
  | null {depth : ℕ} (hdepth : depth ≤ maxInputDepth) : Admissible depth .null
  | bool {depth : ℕ} (hdepth : depth ≤ maxInputDepth) (b : Bool) : Admissible depth (.bool b)
  | str {depth : ℕ} (hdepth : depth ≤ maxInputDepth) {s : JsString} (hlen : s.length ≤ 4096)
      (hnul : 0 ∉ s) : Admissible depth (.str s)
  | num {depth : ℕ} (hdepth : depth ≤ maxInputDepth) {x : JsNumber} (hx : x.isSafeInteger) :
      Admissible depth (.num x)
  | arr {depth : ℕ} (hdepth : depth ≤ maxInputDepth) {items : List JsValue}
      (hlen : items.length ≤ maxCollectionItems) (h : ∀ v ∈ items, Admissible (depth + 1) v) :
      Admissible depth (.arr items)
  | obj {depth : ℕ} (hdepth : depth ≤ maxInputDepth) {props : Props}
      (hlen : props.length ≤ maxCollectionItems) (hname : ∀ p ∈ props, IsPropertyName p.1)
      (h : ∀ p ∈ props, Admissible (depth + 1) p.2) : Admissible depth (.obj props)

theorem Admissible.depth_le {depth : ℕ} {v : JsValue} (h : Admissible depth v) :
    depth ≤ maxInputDepth := by
  cases h <;> assumption

theorem admissible_null {depth : ℕ} : Admissible depth .null ↔ depth ≤ maxInputDepth :=
  ⟨Admissible.depth_le, .null⟩

theorem admissible_bool {depth : ℕ} {b : Bool} :
    Admissible depth (.bool b) ↔ depth ≤ maxInputDepth :=
  ⟨Admissible.depth_le, fun h => .bool h b⟩

theorem admissible_num {depth : ℕ} {x : JsNumber} :
    Admissible depth (.num x) ↔ depth ≤ maxInputDepth ∧ x.isSafeInteger :=
  ⟨fun h => by cases h with | num hdepth hx => exact ⟨hdepth, hx⟩,
    fun ⟨hdepth, hx⟩ => .num hdepth hx⟩

theorem admissible_str {depth : ℕ} {s : JsString} :
    Admissible depth (.str s) ↔ depth ≤ maxInputDepth ∧ s.length ≤ 4096 ∧ 0 ∉ s :=
  ⟨fun h => by cases h with | str hdepth hlen hnul => exact ⟨hdepth, hlen, hnul⟩,
    fun ⟨hdepth, hlen, hnul⟩ => .str hdepth hlen hnul⟩

theorem admissible_arr {depth : ℕ} {items : List JsValue} :
    Admissible depth (.arr items) ↔ depth ≤ maxInputDepth ∧ items.length ≤ maxCollectionItems ∧
      ∀ v ∈ items, Admissible (depth + 1) v :=
  ⟨fun h => by cases h with | arr hdepth hlen h => exact ⟨hdepth, hlen, h⟩,
    fun ⟨hdepth, hlen, h⟩ => .arr hdepth hlen h⟩

theorem admissible_obj {depth : ℕ} {props : Props} :
    Admissible depth (.obj props) ↔ depth ≤ maxInputDepth ∧ props.length ≤ maxCollectionItems ∧
      ∀ p ∈ props, IsPropertyName p.1 ∧ Admissible (depth + 1) p.2 :=
  ⟨fun h => by
    cases h with
    | obj hdepth hlen hname h => exact ⟨hdepth, hlen, fun p hp => ⟨hname p hp, h p hp⟩⟩,
    fun ⟨hdepth, hlen, h⟩ => .obj hdepth hlen (fun p hp => (h p hp).1) fun p hp => (h p hp).2⟩

theorem normalizeItems_eq_ok {items : List JsValue} {label : JsString} {index depth : ℕ}
    (h : ∀ v ∈ items, ∀ label w,
      normalizeJson v label depth = .ok w ↔ Admissible depth v ∧ w = v.sortKeys)
    {ws : List JsValue} :
    normalizeItems items label index depth = .ok ws ↔
      (∀ v ∈ items, Admissible depth v) ∧ ws = items.map JsValue.sortKeys := by
  induction items generalizing index ws with
  | nil =>
    rw [normalizeItems, pure_eq_ok, List.map_nil, eq_comm]
    simp
  | cons v vs ih =>
    have hv := h v (by simp)
    have ih := @ih (index + 1) fun u hu => h u (by simp [hu])
    rw [normalizeItems, List.forall_mem_cons, List.map_cons]
    simp only [bind_eq_ok, pure_eq_ok, hv, ih]
    constructor
    · rintro ⟨w, ⟨hw, hw'⟩, us, ⟨hus, hus'⟩, hws⟩
      exact ⟨⟨hw, hus⟩, by rw [← hws, hw', hus']⟩
    · rintro ⟨⟨hw, hus⟩, hws⟩
      exact ⟨_, ⟨hw, rfl⟩, _, ⟨hus, rfl⟩, hws.symm⟩

theorem normalizeProps_eq (props : Props) (label : JsString) (depth : ℕ) :
    normalizeProps props label depth =
      props.map fun p => (p.1, normalizeJson p.2 (label ++ "." ++ p.1) depth) := by
  induction props with
  | nil => rfl
  | cons p ps ih => rw [normalizeProps, ih, List.map_cons]

theorem normalizeProps_eq_ok {props : Props} {label : JsString} {depth : ℕ}
    (h : ∀ p ∈ props, ∀ label w,
      normalizeJson p.2 label depth = .ok w ↔ Admissible depth p.2 ∧ w = p.2.sortKeys)
    {ps : Props} :
    (sortByKey (normalizeProps props label depth)).mapM (normalizeEntry label) = .ok ps ↔
      (∀ p ∈ props, IsPropertyName p.1 ∧ Admissible depth p.2) ∧
        ps = (sortByKey props).map fun p => (p.1, p.2.sortKeys) := by
  have hmem : ∀ p, p ∈ sortByKey props ↔ p ∈ props := fun _ => (sortByKey_perm props).mem_iff
  rw [normalizeProps_eq, sortByKey_map, List.mapM_map, mapM_eq_ok]
  · exact and_congr_left fun _ => forall_congr' fun p => imp_congr_left (hmem p)
  · -- one property: its name is checked, then its value
    intro p hp q
    rw [Function.comp_apply, normalizeEntry]
    simp only [bind_eq_ok, check_eq_ok, pure_eq_ok, h p ((hmem p).mp hp)]
    constructor
    · rintro ⟨-, hname, w, ⟨hadmissible, hw⟩, hq⟩
      exact ⟨⟨hname, hadmissible⟩, by rw [← hq, hw]⟩
    · rintro ⟨⟨hname, hadmissible⟩, hq⟩
      exact ⟨(), hname, _, ⟨hadmissible, rfl⟩, hq.symm⟩

/-- Bounded JSON is accepted, and returned with the keys of every object sorted. -/
theorem normalizeJson_eq_ok {v : JsValue} {label : JsString} {depth : ℕ} {w : JsValue} :
    normalizeJson v label depth = .ok w ↔ Admissible depth v ∧ w = v.sortKeys := by
  induction v using JsValue.induction generalizing label depth w with
  | undefined =>
    simp only [normalizeJson, bind_eq_ok, throwType_eq_ok, and_false, exists_false, false_iff]
    rintro ⟨h, _⟩
    cases h
  | null =>
    simp only [normalizeJson, bind_eq_ok, check_eq_ok, pure_eq_ok, sortKeys, admissible_null,
      exists_const, @eq_comm _ w]
  | bool b =>
    simp only [normalizeJson, bind_eq_ok, check_eq_ok, pure_eq_ok, sortKeys, admissible_bool,
      exists_const, @eq_comm _ w]
  | num x =>
    simp only [normalizeJson, bind_eq_ok, check_eq_ok, pure_eq_ok, sortKeys, admissible_num,
      exists_const, and_assoc, @eq_comm _ w]
  | str s =>
    simp only [normalizeJson, bind_eq_ok, check_eq_ok, pure_eq_ok, sortKeys, admissible_str,
      exists_const, and_assoc, @eq_comm _ w]
  | arr items ih =>
    rw [normalizeJson, admissible_arr, sortKeys, sortKeysItems_eq]
    simp only [bind_eq_ok, check_eq_ok, pure_eq_ok, normalizeItems_eq_ok fun v hv _ _ => ih v hv]
    constructor
    · rintro ⟨-, hdepth, -, hlen, ws, ⟨h, hws⟩, hw⟩
      exact ⟨⟨hdepth, hlen, h⟩, by rw [← hw, hws]⟩
    · rintro ⟨⟨hdepth, hlen, h⟩, hw⟩
      exact ⟨(), hdepth, (), hlen, _, ⟨h, rfl⟩, hw.symm⟩
  | obj props ih =>
    rw [normalizeJson, admissible_obj, sortKeys_obj]
    simp only [bind_eq_ok, check_eq_ok, pure_eq_ok, normalizeProps_eq_ok fun p hp _ _ => ih p hp]
    constructor
    · rintro ⟨-, hdepth, -, hlen, ps, ⟨h, hps⟩, hw⟩
      exact ⟨⟨hdepth, hlen, h⟩, by rw [← hw, hps]⟩
    · rintro ⟨⟨hdepth, hlen, h⟩, hw⟩
      exact ⟨(), hdepth, (), hlen, _, ⟨h, rfl⟩, hw.symm⟩

/-- Sorting keys changes nothing about what is accepted. -/
theorem admissible_sortKeys {depth : ℕ} {v : JsValue} :
    Admissible depth v.sortKeys ↔ Admissible depth v := by
  induction v using JsValue.induction generalizing depth with
  | arr items ih =>
    rw [sortKeys, sortKeysItems_eq, admissible_arr, admissible_arr, List.length_map,
      List.forall_mem_map]
    refine and_congr_right fun _ => and_congr_right fun _ => ?_
    exact forall₂_congr fun v hv => ih v hv
  | obj props ih =>
    have hperm := sortByKey_perm props
    rw [sortKeys_obj, admissible_obj, admissible_obj, List.length_map, hperm.length_eq,
      List.forall_mem_map]
    refine and_congr_right fun _ => and_congr_right fun _ => ?_
    simp only [hperm.mem_iff]
    exact forall₂_congr fun p hp => and_congr_right fun _ => ih p hp
  | _ => rfl

/-- Bounded JSON is JSON. -/
theorem Admissible.isJson {depth : ℕ} {v : JsValue} (h : Admissible depth v)
    (hu : UniqueKeys v) : IsJson v := by
  induction h with
  | null => exact .null
  | bool _ b => exact .bool b
  | str => exact .str _
  | @num _ _ x hx =>
    cases x with
    | finite x =>
      have hint : x = (x.num : ℚ) := ((Rat.den_eq_one_iff x).mp hx.1).symm
      rw [hint]
      exact .int x.num
    | infinite => exact hx.elim
    | nan => exact hx.elim
  | arr _ _ _ ih => exact .arr fun v hv => ih v hv (uniqueKeys_arr.mp hu v hv)
  | obj _ _ _ _ ih =>
    obtain ⟨hn, hall⟩ := uniqueKeys_obj.mp hu
    exact .obj hn fun p hp => ih p hp (hall p hp)

/-! ## Requests -/

/-- The properties of an accepted input, their keys sorted at any depth. -/
abbrev EffectInput :=
  {ps : Props // Admissible 0 (.obj ps) ∧ sortKeys (.obj ps) = .obj ps ∧
    (utf8 (jsonText (.obj ps))).length ≤ maxInputBytes}

structure AuthorizedHostEffectRequest where
  effectId : BoundedString 200
  taskId : BoundedString 200
  durableAttemptId : BoundedString 200
  requiredAuthorityEpoch : PosSafe
  kind : HostEffectKind
  resourceRef : LogicalResourceRef
  input : EffectInput
  deriving DecidableEq

def AuthorizedHostEffectRequest.toValue (r : AuthorizedHostEffectRequest) : JsValue :=
  .obj [("effect_request_version", .nat 1), ("effect_id", .str r.effectId.1),
    ("task_id", .str r.taskId.1), ("durable_attempt_id", .str r.durableAttemptId.1),
    ("required_authority_epoch", .nat r.requiredAuthorityEpoch.1), ("kind", .str r.kind.1.1),
    ("resource_ref", .str r.resourceRef.1.1), ("input", .obj r.input.1)]

/-- The part of `validateAuthorizedHostEffectRequest` about `value.input`. -/
def normalizeEffectInput (value : JsValue) : Throws EffectInput := do
  let ⟨input, hinput⟩ ← attach (p := fun w => Admissible 0 w ∧ w.sortKeys = w)
    (normalizeJson value "input" 0) fun w hw => by
      obtain ⟨h, rfl⟩ := normalizeJson_eq_ok.mp hw
      exact ⟨admissible_sortKeys.mpr h, sortKeys_sortKeys value⟩
  match input, hinput with
  | .obj ps, hinput =>
    let ⟨hsize⟩ ← require ((utf8 (jsonText (.obj ps))).length ≤ maxInputBytes)
      "input exceeds the maximum serialized size"
    pure ⟨ps, hinput.1, hinput.2, hsize⟩
  | _, _ => throwType "input must be a plain object"

/-- `validateAuthorizedHostEffectRequest(value)`. -/
def validateAuthorizedHostEffectRequest (value : JsValue) :
    Throws AuthorizedHostEffectRequest := do
  let ps ← assertExactKeys value ["effect_request_version", "effect_id", "task_id",
    "durable_attempt_id", "required_authority_epoch", "kind", "resource_ref", "input"]
    "effect request"
  check (prop ps "effect_request_version" = .nat 1) "effect_request_version is unsupported"
  let effectId ← requireBoundedString 200 (prop ps "effect_id") "effect_id"
  let taskId ← requireBoundedString 200 (prop ps "task_id") "task_id"
  let durableAttemptId ← requireBoundedString 200 (prop ps "durable_attempt_id")
    "durable_attempt_id"
  let requiredAuthorityEpoch ← requirePositiveSafeInteger (prop ps "required_authority_epoch")
    "required_authority_epoch"
  let kind ← validateHostEffectKind (prop ps "kind") "kind"
  let resourceRef ← validateLogicalResourceRef (prop ps "resource_ref") "resource_ref"
  let input ← normalizeEffectInput (prop ps "input")
  pure ⟨effectId, taskId, durableAttemptId, requiredAuthorityEpoch, kind, resourceRef, input⟩

@[simp] theorem requireBoundedString_eq_ok {maxLength : ℕ} {v : JsValue} {label : JsString}
    {s : BoundedString maxLength} :
    requireBoundedString maxLength v label = .ok s ↔ v = .str s.1 := by
  cases v with
  | str t =>
    by_cases h : t ≠ [] ∧ t.length ≤ maxLength ∧ trim t = t ∧ 0 ∉ t
    · rw [requireBoundedString, dif_pos h, Except.ok.injEq, JsValue.str.injEq]
      exact Subtype.ext_iff
    · have : t ≠ s.1 := fun e => h (e ▸ s.2)
      simp [requireBoundedString, h, this]
  | _ => simp [requireBoundedString]

theorem requireMatch_eq_ok {maxLength : ℕ} {grammar : JsString → Bool} {message label : JsString}
    {v : JsValue} {s : {s : BoundedString maxLength // grammar s.1 = true}} :
    requireMatch maxLength grammar message v label = .ok s ↔ v = .str s.1.1 := by
  simp only [requireMatch, bind_eq_ok, requireBoundedString_eq_ok, require_eq_ok, exists_pLift,
    pure_eq_ok]
  constructor
  · rintro ⟨t, hv, h, _, ht⟩
    rw [hv, ← ht]
  · intro hv
    exact ⟨s.1, hv, s.2, s.2, rfl⟩

@[simp] theorem validateHostEffectKind_eq_ok {v : JsValue} {label : JsString}
    {k : HostEffectKind} : validateHostEffectKind v label = .ok k ↔ v = .str k.1.1 :=
  requireMatch_eq_ok

@[simp] theorem validateLogicalResourceRef_eq_ok {v : JsValue} {label : JsString}
    {r : LogicalResourceRef} : validateLogicalResourceRef v label = .ok r ↔ v = .str r.1.1 :=
  requireMatch_eq_ok

theorem normalizeEffectInput_eq_ok_iff {v : JsValue} {i : EffectInput} :
    normalizeEffectInput v = .ok i ↔ Admissible 0 v ∧ .obj i.1 = v.sortKeys := by
  constructor
  · intro h
    obtain ⟨⟨w, hw⟩, hnormal, h⟩ := bind_eq_ok.mp h
    obtain ⟨hadmissible, hsort⟩ := normalizeJson_eq_ok.mp (attach_eq_ok.mp hnormal)
    refine ⟨hadmissible, ?_⟩
    rw [← hsort]
    cases w with
    | obj ps =>
      simp only [bind_eq_ok, require_eq_ok, exists_pLift, pure_eq_ok] at h
      obtain ⟨_, _, hi⟩ := h
      rw [← hi]
    | _ => simp at h
  · rintro ⟨hadmissible, hi⟩
    refine bind_eq_ok.mpr ⟨⟨.obj i.1, i.2.1, i.2.2.1⟩,
      attach_eq_ok.mpr (normalizeJson_eq_ok.mpr ⟨hadmissible, hi⟩), ?_⟩
    simp only [bind_eq_ok, require_eq_ok, exists_pLift, pure_eq_ok]
    exact ⟨i.2.2.2, i.2.2.2, trivial⟩

/-- An input is accepted up to key order. -/
theorem normalizeEffectInput_eq_ok {v : JsValue} (hu : UniqueKeys v) {i : EffectInput} :
    normalizeEffectInput v = .ok i ↔ JsonEq v (.obj i.1) ∧ UniqueKeys (.obj i.1) := by
  rw [normalizeEffectInput_eq_ok_iff]
  constructor
  · intro ⟨_, hi⟩
    rw [hi]
    exact ⟨(sortKeys_jsonEq hu).symm, hu.sortKeys⟩
  · intro ⟨heq, hi⟩
    have hkeys := sortKeys_eq_of_jsonEq heq hu hi
    rw [i.2.2.1] at hkeys
    exact ⟨admissible_sortKeys.mp (hkeys ▸ i.2.1), hkeys.symm⟩

/-- A request is accepted up to the key order of its objects at any depth. -/
theorem validateAuthorizedHostEffectRequest_eq_ok {v : JsValue} (hu : UniqueKeys v)
    {r : AuthorizedHostEffectRequest} :
    validateAuthorizedHostEffectRequest v = .ok r ↔
      JsonEq v r.toValue ∧ UniqueKeys (.obj r.input.1) := by
  simp only [validateAuthorizedHostEffectRequest, bind_eq_ok, assertExactKeys_eq_ok, check_eq_ok,
    requireBoundedString_eq_ok, requirePositiveSafeInteger_eq_ok, validateHostEffectKind_eq_ok,
    validateLogicalResourceRef_eq_ok, pure_eq_ok]
  simp only [AuthorizedHostEffectRequest.toValue, jsonEq_obj_iff, names_cons, names_nil]
  constructor
  · rintro ⟨ps, ⟨hv, hk⟩, -, h0, _, h1, _, h2, _, h3, _, h4, _, h5, _, h6, _, h7, hr⟩
    subst hr
    subst hv
    have hinput := hu.prop ((hk "input").mpr (by simp))
    obtain ⟨h7, hunique⟩ := (normalizeEffectInput_eq_ok hinput).mp h7
    exact ⟨⟨ps, rfl, hk, by simp [h0, h1, h2, h3, h4, h5, h6, h7]⟩, hunique⟩
  · rintro ⟨⟨ps, hv, hk, h⟩, hunique⟩
    subst hv
    have hinput := hu.prop ((hk "input").mpr (by simp))
    simp at h
    obtain ⟨h0, h1, h2, h3, h4, h5, h6, h7⟩ := h
    exact ⟨ps, ⟨rfl, hk⟩, (), h0, _, h1, _, h2, _, h3, _, h4, _, h5, _, h6, _,
      (normalizeEffectInput_eq_ok hinput).mpr ⟨h7, hunique⟩, rfl⟩

/-- An accepted request is JSON. -/
theorem AuthorizedHostEffectRequest.isJson_toValue {r : AuthorizedHostEffectRequest}
    (hu : UniqueKeys (.obj r.input.1)) : IsJson r.toValue := by
  have hinput := r.input.2.1.isJson hu
  rw [toValue, isJson_obj]
  simp [hinput]

/-! ## Scope tokens -/

section Scope

variable (sha256 : List UInt8 → JsString)

/-- `sha256(value)`. -/
def sha256Of (value : JsValue) : JsString := sha256 (canonicalBytes value)

/-- `createAuthorizedHostEffectScope(value)`. -/
def createAuthorizedHostEffectScope (value : JsValue) : Throws JsString := do
  let request ← validateAuthorizedHostEffectRequest value
  pure ("host_effect:sha256:" ++ sha256Of sha256 request.toValue)

end Scope

variable {sha256 : List UInt8 → JsString}

/-- Hashes identify values up to key order, as far as the hash has no collision. -/
theorem sha256Of_eq_iff {v w : JsValue} (hv : IsJson v) (hw : IsJson w)
    (hsha : Set.InjOn sha256 {canonicalBytes v, canonicalBytes w}) :
    sha256Of sha256 v = sha256Of sha256 w ↔ JsonEq v w := by
  rw [sha256Of, sha256Of, hsha.eq_iff (by simp) (by simp)]
  exact canonicalBytes_eq_iff hv hw

/-- Requests that are equal up to key order have one token. -/
theorem createAuthorizedHostEffectScope_congr {v w : JsValue} (hv : UniqueKeys v)
    (hw : UniqueKeys w) (h : JsonEq w v) {r : AuthorizedHostEffectRequest}
    (hr : validateAuthorizedHostEffectRequest v = .ok r) :
    createAuthorizedHostEffectScope sha256 w = createAuthorizedHostEffectScope sha256 v := by
  obtain ⟨heq, hunique⟩ := (validateAuthorizedHostEffectRequest_eq_ok hv).mp hr
  have hr' := (validateAuthorizedHostEffectRequest_eq_ok hw).mpr ⟨h.trans heq, hunique⟩
  rw [createAuthorizedHostEffectScope, createAuthorizedHostEffectScope, hr, hr']

/-- Equal tokens stand for equal requests, as far as the hash has no collision. -/
theorem jsonEq_of_createAuthorizedHostEffectScope {v w : JsValue} (hv : UniqueKeys v)
    (hw : UniqueKeys w) {q r : AuthorizedHostEffectRequest}
    (hq : validateAuthorizedHostEffectRequest v = .ok q)
    (hr : validateAuthorizedHostEffectRequest w = .ok r)
    (hsha : Set.InjOn sha256 {canonicalBytes q.toValue, canonicalBytes r.toValue})
    (h : createAuthorizedHostEffectScope sha256 v = createAuthorizedHostEffectScope sha256 w) :
    JsonEq v w := by
  obtain ⟨hvq, hqu⟩ := (validateAuthorizedHostEffectRequest_eq_ok hv).mp hq
  obtain ⟨hwr, hru⟩ := (validateAuthorizedHostEffectRequest_eq_ok hw).mp hr
  rw [createAuthorizedHostEffectScope, createAuthorizedHostEffectScope, hq, hr, ok_bind,
    ok_bind] at h
  have hdigest : sha256Of sha256 q.toValue = sha256Of sha256 r.toValue :=
    (List.append_right_inj _).mp (pure_eq_ok.mp h)
  have hqr := (sha256Of_eq_iff (q.isJson_toValue hqu) (r.isJson_toValue hru) hsha).mp hdigest
  exact (hvq.trans hqr).trans hwr.symm

end Wns.Effect
