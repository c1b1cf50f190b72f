import Wns.Ecma.Decode

/-!
# Shared checks

Every module of `supervisor-policy` carries its own copies of a few checks. The
copies fall into two families, which differ in the texts of their errors only.

* `object`, `exactKeys`, `string`, `strings`, `enumValue`: `task-continuation.mjs`
  (lines 9–32), `same-worker-respawn.mjs` (lines 23–38), `cross-worker-recovery.mjs`
  (lines 20–36) and `resume-preflight.mjs` (lines 38–61).
* `assertExactKeys`, `requireTrimmedString`, `requirePositiveSafeInteger`,
  `requireUniqueTrimmedStringArray`, `requireEnum`: `authoritative-plan.mjs`,
  `plan-amendment.mjs`, `plan-admission.mjs`, `acceptance-evidence.mjs` and, with
  `requireUniqueScope`, `durable-authority.mjs`.

Two more are shared by `reasoning-watchdog.mjs` and `web-research-policy.mjs`:
`refuseUnknownKeys` and `nonNegativeInteger`.

Each is exact: it accepts precisely the encodings of its result.
-/

namespace Wns

open Ecma

/-- `value ?? fallback`. -/
def coalesce (value fallback : JsValue) : JsValue :=
  if value = .undefined ∨ value = .null then fallback else value

/-! ## Checkpoints and recovery -/

/-- `object(value, label)`. -/
def object (value : JsValue) (label : JsString) : Throws Props :=
  plainObject (label ++ " must be a plain object") value

/-- `exactKeys(value, keys, label)`. -/
def exactKeys (value : Props) (keys : List JsString) (label : JsString) : Throws Unit :=
  checkKeys (fun key => label ++ " has an unknown key: " ++ key)
    (fun key => label ++ "." ++ key ++ " is required") value keys

/-- `string(value, label)`. -/
def string (value : JsValue) (label : JsString) : Throws TrimmedString :=
  trimmedString (label ++ " must be a non-empty, trimmed string") value

/-- `string(value, label, { nullable: true })`. -/
def stringOrNull (value : JsValue) (label : JsString) : Throws (Option TrimmedString) :=
  orNull (trimmedString (label ++ " must be a non-empty, trimmed string or null")) value

/-- `enumValue(value, allowed, label)`. -/
def enumValue {α : Type} [JsEnum α] (value : JsValue) (label : JsString) : Throws α :=
  enumMember (label ++ " has an invalid value") value

/-- Trimmed strings without repetition. -/
abbrev UniqueStrings := {l : List TrimmedString // l.Nodup}

/-- A string as a value. -/
def ofString (s : TrimmedString) : JsValue := .str s.1

@[simp] theorem ofString_inj {s t : TrimmedString} : ofString s = ofString t ↔ s = t := by
  simp [ofString, Subtype.ext_iff]

@[simp] theorem ofNullable_some (s : TrimmedString) : ofNullable (some s) = ofString s := rfl

/-- A list of strings as a value. -/
def ofStrings (l : List TrimmedString) : JsValue := .arr (l.map ofString)

@[simp] theorem ofStrings_inj {l m : List TrimmedString} : ofStrings l = ofStrings m ↔ l = m := by
  rw [ofStrings, ofStrings, JsValue.arr.injEq]
  exact (List.map_injective_iff.mpr fun _ _ => ofString_inj.mp).eq_iff

/-- `strings(value, label)`; a `Set` of the items is as large as the array iff
    nothing repeats. -/
def strings (value : JsValue) (label : JsString) : Throws UniqueStrings := do
  let items ← array (label ++ " must be an array") value
  let result ← mapItems string label 0 items
  let ⟨h⟩ ← require result.Nodup (label ++ " must not contain duplicates")
  pure ⟨result, h⟩

@[simp] theorem object_eq_ok {v : JsValue} {label : JsString} {ps : Props} :
    object v label = .ok ps ↔ v = .obj ps := plainObject_eq_ok

@[simp] theorem exactKeys_eq_ok {ps : Props} {keys : List JsString} {label : JsString} {u : Unit} :
    exactKeys ps keys label = .ok u ↔ HasKeys ps keys := checkKeys_eq_ok

@[simp] theorem string_eq_ok {v : JsValue} {label : JsString} {s : TrimmedString} :
    string v label = .ok s ↔ v = ofString s := trimmedString_eq_ok

@[simp] theorem stringOrNull_eq_ok {v : JsValue} {label : JsString} {s : Option TrimmedString} :
    stringOrNull v label = .ok s ↔ v = ofNullable s := orNull_trimmedString_eq_ok

@[simp] theorem enumValue_eq_ok {α : Type} [JsEnum α] {v : JsValue} {label : JsString} {a : α} :
    enumValue v label = .ok a ↔ v = ofEnum a := enumMember_eq_ok

@[simp] theorem jsonEq_ofString {v : JsValue} {s : TrimmedString} :
    JsonEq v (ofString s) ↔ v = ofString s := jsonEq_str

@[simp] theorem jsonEq_ofNullable {v : JsValue} {s : Option TrimmedString} :
    JsonEq v (ofNullable s) ↔ v = ofNullable s := jsonEq_nullable

@[simp] theorem jsonEq_ofEnum {α : Type} [JsEnum α] {v : JsValue} {a : α} :
    JsonEq v (ofEnum a) ↔ v = ofEnum a := jsonEq_str

theorem exactDecoder_string : ExactDecoder string ofString :=
  fun _ _ _ => string_eq_ok.trans jsonEq_ofString.symm

/-- A value equal to a list of strings is that list. -/
@[simp] theorem jsonEq_ofStrings {v : JsValue} {l : List TrimmedString} :
    JsonEq v (ofStrings l) ↔ v = ofStrings l := by
  rw [ofStrings, jsonEq_arr]
  constructor
  · rintro ⟨xs, rfl, h⟩
    congr 1
    induction l generalizing xs with
    | nil => simpa using h
    | cons s l ih =>
      cases h with
      | cons h hs => rw [List.map_cons, jsonEq_ofString.mp h, ih _ hs]
  · rintro rfl
    exact ⟨_, rfl, List.forall₂_same.mpr fun _ _ => .refl _⟩

@[simp] theorem strings_eq_ok {v : JsValue} {label : JsString} {l : UniqueStrings} :
    strings v label = .ok l ↔ v = ofStrings l.1 := by
  simp only [strings, bind_eq_ok, require_eq_ok, exists_pLift, pure_eq_ok]
  rw [← jsonEq_ofStrings, ofStrings, ← array_mapItems_eq_ok exactDecoder_string]
  constructor
  · rintro ⟨vs, hv, as, has, h, -, rfl⟩
    exact ⟨vs, hv, has⟩
  · rintro ⟨vs, hv, has⟩
    exact ⟨vs, hv, l.1, has, l.2, l.2, rfl⟩

/-! ## Plans, acceptance and effects -/

/-- The keys that `assertExactKeys` requires of an object. -/
def requireKeys (value : Props) (requiredKeys : List JsString) (name : JsString) : Throws Unit :=
  checkKeys (fun key => name ++ " has an unknown key: " ++ key)
    (fun key => name ++ " is missing required key: " ++ key) value requiredKeys

/-- `assertExactKeys(value, requiredKeys, name)`, which yields the properties. -/
def assertExactKeys (value : JsValue) (requiredKeys : List JsString) (name : JsString) :
    Throws Props := do
  let ps ← plainObject (name ++ " must be a plain object") value
  requireKeys ps requiredKeys name
  pure ps

/-- `requireTrimmedString(value, name)`. -/
def requireTrimmedString (value : JsValue) (name : JsString) : Throws TrimmedString :=
  trimmedString (name ++ " must be a trimmed, non-empty string") value

/-- `requireTrimmedStringOrNull(value, name)`. -/
def requireTrimmedStringOrNull (value : JsValue) (name : JsString) :
    Throws (Option TrimmedString) :=
  orNull (fun v => requireTrimmedString v name) value

/-- `requirePositiveSafeInteger(value, name)`. -/
def requirePositiveSafeInteger (value : JsValue) (name : JsString) : Throws PosSafe :=
  naturalWith _ (name ++ " must be a positive safe integer") value

/-- `requireEnum(value, allowed, name)`. -/
def requireEnum {α : Type} [JsEnum α] (value : JsValue) (name : JsString) : Throws α :=
  let allowed := JsEnum.values.map fun a : α => js (JsEnum.text a)
  enumMember (name ++ " must be one of: " ++ List.intercalate (js ", ") allowed) value

/-- Trimmed strings without repetition, at least one of them unless `allowEmpty`. -/
abbrev StringArray (allowEmpty : Bool) :=
  {l : List TrimmedString // l.Nodup ∧ (l = [] → allowEmpty = true)}

/-- The check of an array of trimmed strings, given the texts of its errors. -/
def uniqueTrimmedStrings (allowEmpty : Bool) (message duplicate : JsString) (value : JsValue)
    (name : JsString) : Throws (StringArray allowEmpty) := do
  let items ← array message value
  let ⟨hempty⟩ ← require (items = [] → allowEmpty = true) message
  let ⟨result, hlen⟩ ← attach (p := fun result => result.length = items.length)
    (mapItems requireTrimmedString name 0 items) fun _ => length_of_mapItems
  let ⟨hnodup⟩ ← require result.Nodup duplicate
  pure ⟨result, hnodup, fun h => hempty (by simpa [h] using hlen.symm)⟩

/-- `requireUniqueTrimmedStringArray(value, name, { allowEmpty })`. -/
def requireUniqueTrimmedStringArray (allowEmpty : Bool) (value : JsValue) (name : JsString) :
    Throws (StringArray allowEmpty) :=
  uniqueTrimmedStrings allowEmpty
    (name ++ " must be " ++ (if allowEmpty then "an" else "a non-empty") ++ " array")
    (name ++ " must not contain duplicate entries") value name

/-- `requireUniqueScope(value, name)`. -/
def requireUniqueScope (value : JsValue) (name : JsString) : Throws (StringArray false) :=
  uniqueTrimmedStrings false (name ++ " must be a non-empty array")
    (name ++ " must not contain duplicate tokens") value name

@[simp] theorem requireKeys_eq_ok {ps : Props} {keys : List JsString} {name : JsString}
    {u : Unit} : requireKeys ps keys name = .ok u ↔ HasKeys ps keys := checkKeys_eq_ok

@[simp] theorem assertExactKeys_eq_ok {v : JsValue} {keys : List JsString} {name : JsString}
    {ps : Props} : assertExactKeys v keys name = .ok ps ↔ v = .obj ps ∧ HasKeys ps keys := by
  simp only [assertExactKeys, bind_eq_ok, plainObject_eq_ok, requireKeys_eq_ok, pure_eq_ok]
  constructor
  · rintro ⟨_, hv, _, hk, rfl⟩
    exact ⟨hv, hk⟩
  · rintro ⟨hv, hk⟩
    exact ⟨_, hv, (), hk, rfl⟩

@[simp] theorem requireTrimmedString_eq_ok {v : JsValue} {name : JsString} {s : TrimmedString} :
    requireTrimmedString v name = .ok s ↔ v = ofString s := trimmedString_eq_ok

@[simp] theorem requireTrimmedStringOrNull_eq_ok {v : JsValue} {name : JsString}
    {s : Option TrimmedString} :
    requireTrimmedStringOrNull v name = .ok s ↔ v = ofNullable s := orNull_trimmedString_eq_ok

@[simp] theorem requirePositiveSafeInteger_eq_ok {v : JsValue} {name : JsString} {n : PosSafe} :
    requirePositiveSafeInteger v name = .ok n ↔ v = .nat n.1 := naturalWith_eq_ok

@[simp] theorem requireEnum_eq_ok {α : Type} [JsEnum α] {v : JsValue} {name : JsString} {a : α} :
    requireEnum v name = .ok a ↔ v = ofEnum a := enumMember_eq_ok

theorem exactDecoder_requireTrimmedString : ExactDecoder requireTrimmedString ofString :=
  fun _ _ _ => requireTrimmedString_eq_ok.trans jsonEq_ofString.symm

theorem uniqueTrimmedStrings_eq_ok {allowEmpty : Bool} {message duplicate name : JsString}
    {v : JsValue} {l : StringArray allowEmpty} :
    uniqueTrimmedStrings allowEmpty message duplicate v name = .ok l ↔ v = ofStrings l.1 := by
  simp only [uniqueTrimmedStrings, bind_eq_ok, require_eq_ok, exists_pLift, pure_eq_ok,
    attach_eq_ok]
  rw [← jsonEq_ofStrings, ofStrings, ← array_mapItems_eq_ok exactDecoder_requireTrimmedString]
  constructor
  · rintro ⟨vs, hv, -, -, ⟨as, hlen⟩, has, h, -, rfl⟩
    exact ⟨vs, hv, has⟩
  · rintro ⟨vs, hv, has⟩
    have hlen := length_of_mapItems has
    have hempty : vs = [] → allowEmpty = true := fun h => l.2.2 (by simpa [h] using hlen)
    exact ⟨vs, by simpa using hv, hempty, hempty, ⟨l.1, hlen⟩, has, l.2.1, l.2.1, rfl⟩

@[simp] theorem requireUniqueTrimmedStringArray_eq_ok {allowEmpty : Bool} {v : JsValue}
    {name : JsString} {l : StringArray allowEmpty} :
    requireUniqueTrimmedStringArray allowEmpty v name = .ok l ↔ v = ofStrings l.1 :=
  uniqueTrimmedStrings_eq_ok

@[simp] theorem requireUniqueScope_eq_ok {v : JsValue} {name : JsString} {l : StringArray false} :
    requireUniqueScope v name = .ok l ↔ v = ofStrings l.1 := uniqueTrimmedStrings_eq_ok

/-! ## Policies -/

/-- The loop over `Object.keys(value)` that refuses the first unknown key. -/
def refuseUnknownKeys (label : JsString) (keys : List JsString) (value : Props) : Throws Unit :=
  match (ownKeys value).find? fun key => key ∉ keys with
  | some key => throwType (label ++ " has an unknown key: " ++ key)
  | none => pure ()

/-- `nonNegativeInteger(value, label)`. -/
def nonNegativeInteger (value : JsValue) (label : JsString) : Throws ℕ :=
  match natural value with
  | some n => pure n
  | none => throwType (label ++ " must be a non-negative integer")

theorem refuseUnknownKeys_eq_ok {label : JsString} {keys : List JsString} {value : Props}
    {u : Unit} : refuseUnknownKeys label keys value = .ok u ↔ ∀ key ∈ names value, key ∈ keys := by
  unfold refuseUnknownKeys
  split
  · next key h =>
    have hmem := mem_ownKeys.mp (List.mem_of_find?_eq_some h)
    have hkey := List.find?_some h
    simp only [throwType_eq_ok, false_iff]
    intro hall
    simp [hall key hmem] at hkey
  · next h =>
    simp only [pure_eq_ok, true_iff]
    intro key hmem
    simpa using List.find?_eq_none.mp h key (mem_ownKeys.mpr hmem)

theorem nonNegativeInteger_eq_ok {value : JsValue} {label : JsString} {n : ℕ} :
    nonNegativeInteger value label = .ok n ↔ value = .nat n := by
  unfold nonNegativeInteger
  rw [← natural_eq_some]
  cases natural value <;> simp

end Wns
