import Wns.Ecma.Value

/-!
# Validators

A validator takes a value and the label under which errors name it, and returns
typed data or throws. `ExactDecoder dec enc` says that `dec` accepts precisely the
values equal to an encoding, up to key order, and returns what was encoded. The
lemmas here give that fact for strings, enumerations, arrays and objects, so that
the validator of a record is exact as soon as those of its fields are.
-/

namespace Wns.Ecma

/-- A thrown error. -/
inductive JsError
  | typeError (message : JsString)
  | rangeError (message : JsString)
  deriving DecidableEq

/-- A computation that may throw. -/
abbrev Throws := Except JsError

/-- `throw new TypeError(message)`. -/
def throwType {α : Type} (message : JsString) : Throws α := .error (.typeError message)

/-- `if (!p) throw new TypeError(message)`. -/
def require (p : Prop) [Decidable p] (message : JsString) : Throws (PLift p) :=
  if h : p then .ok ⟨h⟩ else throwType message

/-- `require` where the proof is not needed. -/
def check (p : Prop) [Decidable p] (message : JsString) : Throws Unit :=
  if p then .ok () else throwType message

section Guards

variable {α β : Type} {m : JsString}

@[simp] theorem bind_eq_ok {x : Throws α} {f : α → Throws β} {b : β} :
    (x >>= f) = .ok b ↔ ∃ a, x = .ok a ∧ f a = .ok b := by
  cases x <;> simp [bind, Except.bind]

@[simp] theorem ok_bind (a : α) (f : α → Throws β) : (Except.ok a >>= f) = f a := rfl

theorem error_bind (e : JsError) (f : α → Throws β) : (Except.error e >>= f) = .error e := rfl

@[simp] theorem map_eq_ok {x : Throws α} {f : α → β} {b : β} :
    (f <$> x) = .ok b ↔ ∃ a, x = .ok a ∧ f a = b := by
  cases x <;> simp [Functor.map, Except.map]

@[simp] theorem pure_eq_ok {a b : α} : (pure a : Throws α) = .ok b ↔ a = b := by
  simp [pure, Except.pure]

@[simp] theorem throwType_eq_ok {a : α} : throwType m = .ok a ↔ False := by simp [throwType]

@[simp] theorem require_eq_ok {p : Prop} [Decidable p] {h : PLift p} : require p m = .ok h ↔ p := by
  by_cases hp : p
  · simp only [require, hp, dite_true]
  · simp [require, hp]

@[simp] theorem check_eq_ok {p : Prop} [Decidable p] {u : Unit} : check p m = .ok u ↔ p := by
  by_cases hp : p <;> simp [check, hp]

@[simp] theorem exists_pLift {p : Prop} {q : PLift p → Prop} :
    (∃ h, q h) ↔ ∃ h : p, q ⟨h⟩ :=
  ⟨fun ⟨h, hq⟩ => ⟨h.down, hq⟩, fun ⟨h, hq⟩ => ⟨⟨h⟩, hq⟩⟩

/-- `x`, together with what is known of its result. -/
def attach {p : α → Prop} (x : Throws α) (h : ∀ a, x = .ok a → p a) : Throws {a // p a} :=
  match x, h with
  | .ok a, h => .ok ⟨a, h a rfl⟩
  | .error e, _ => .error e

@[simp] theorem attach_eq_ok {p : α → Prop} {x : Throws α} {h : ∀ a, x = .ok a → p a}
    {a : {a // p a}} : attach x h = .ok a ↔ x = .ok a.1 := by
  cases x <;> simp [attach, Subtype.ext_iff]

/-- A loop of checks succeeds iff each of them does. -/
@[simp] theorem forM_eq_ok {l : List α} {f : α → Throws Unit} {u : PUnit} :
    forM l f = .ok u ↔ ∀ a ∈ l, f a = .ok () := by
  induction l with
  | nil => simp
  | cons a l ih =>
    rw [List.forM_cons, bind_eq_ok, List.forall_mem_cons]
    exact ⟨fun ⟨(), ha, hl⟩ => ⟨ha, ih.mp hl⟩, fun ⟨ha, hl⟩ => ⟨(), ha, ih.mpr hl⟩⟩

/-- A loop that computes `g` under the condition `P`, item by item. -/
theorem mapM_eq_ok {l : List α} {f : α → Throws β} {P : α → Prop} {g : α → β}
    (h : ∀ a ∈ l, ∀ b, f a = .ok b ↔ P a ∧ b = g a) {bs : List β} :
    l.mapM f = .ok bs ↔ (∀ a ∈ l, P a) ∧ bs = l.map g := by
  induction l generalizing bs with
  | nil =>
    rw [List.mapM_nil, pure_eq_ok, List.map_nil, eq_comm]
    simp
  | cons a l ih =>
    have ha := h a (by simp)
    have ih := @ih fun c hc => h c (by simp [hc])
    rw [List.mapM_cons, List.forall_mem_cons, List.map_cons]
    simp only [bind_eq_ok, pure_eq_ok, ha, ih]
    constructor
    · intro ⟨b, ⟨hP, hb⟩, cs, ⟨hPs, hcs⟩, hbs⟩
      exact ⟨⟨hP, hPs⟩, by rw [← hbs, hb, hcs]⟩
    · intro ⟨⟨hP, hPs⟩, hbs⟩
      exact ⟨_, ⟨hP, rfl⟩, _, ⟨hPs, rfl⟩, hbs.symm⟩

/-- The results of a loop, item by item. -/
theorem forall₂_of_mapM {l : List α} {f : α → Throws β} {bs : List β} (h : l.mapM f = .ok bs) :
    List.Forall₂ (fun a b => f a = .ok b) l bs := by
  induction l generalizing bs with
  | nil =>
    rw [List.mapM_nil, pure_eq_ok] at h
    exact h ▸ .nil
  | cons a l ih =>
    simp only [List.mapM_cons, bind_eq_ok, pure_eq_ok] at h
    obtain ⟨b, hb, cs, hcs, rfl⟩ := h
    exact .cons hb (ih hcs)

theorem exists_of_forall₂ {R : α → β → Prop} {l : List α} {bs : List β} (h : List.Forall₂ R l bs)
    {a : α} (ha : a ∈ l) : ∃ b ∈ bs, R a b := by
  induction h with
  | nil => cases ha
  | @cons c b _ _ hcb _ ih =>
    obtain rfl | ha := List.mem_cons.mp ha
    · exact ⟨b, List.mem_cons_self, hcb⟩
    · obtain ⟨b', hb', hR⟩ := ih ha
      exact ⟨b', List.mem_cons_of_mem _ hb', hR⟩

/-- A loop that succeeds does so on every item. -/
theorem exists_of_mapM {l : List α} {f : α → Throws β} {bs : List β} (h : l.mapM f = .ok bs)
    {a : α} (ha : a ∈ l) : ∃ b ∈ bs, f a = .ok b :=
  exists_of_forall₂ (forall₂_of_mapM h) ha

/-- Every result is that of an item. -/
theorem exists_of_mem_mapM {l : List α} {f : α → Throws β} {bs : List β} (h : l.mapM f = .ok bs)
    {b : β} (hb : b ∈ bs) : ∃ a ∈ l, f a = .ok b :=
  exists_of_forall₂ (forall₂_of_mapM h).flip hb

/-- Where `f` decodes what `enc` writes, a loop of `f` decodes the list. -/
theorem eq_map_of_mapM {f : α → Throws β} {enc : β → α} (h : ∀ a b, f a = .ok b → a = enc b)
    {l : List α} {bs : List β} (hl : l.mapM f = .ok bs) : l = bs.map enc := by
  rw [← List.forall₂_eq_eq_eq, List.forall₂_map_right_iff]
  exact (forall₂_of_mapM hl).imp h

/-- Loops over related items end in related results. -/
theorem exists_mapM_of_forall₂ {R : α → α → Prop} {S : β → β → Prop} {f : α → Throws β}
    (h : ∀ a a' b, R a a' → f a = .ok b → ∃ b', f a' = .ok b' ∧ S b b') {l l' : List α}
    {bs : List β} (hl : List.Forall₂ R l l') (hbs : l.mapM f = .ok bs) :
    ∃ bs', l'.mapM f = .ok bs' ∧ List.Forall₂ S bs bs' := by
  induction hl generalizing bs with
  | nil =>
    rw [List.mapM_nil, pure_eq_ok] at hbs
    exact ⟨[], by rw [List.mapM_nil, pure_eq_ok], hbs ▸ .nil⟩
  | cons ha _ ih =>
    simp only [List.mapM_cons, bind_eq_ok, pure_eq_ok] at hbs
    obtain ⟨b, hb, cs, hcs, rfl⟩ := hbs
    obtain ⟨b', hb', hS⟩ := h _ _ b ha hb
    obtain ⟨cs', hcs', hSs⟩ := ih hcs
    refine ⟨b' :: cs', ?_, .cons hS hSs⟩
    simp only [List.mapM_cons, bind_eq_ok, pure_eq_ok]
    exact ⟨b', hb', cs', hcs', rfl⟩

end Guards

/-! ## Strings and enumerations -/

/-- A non-empty string without surrounding white space. -/
abbrev TrimmedString := {s : JsString // s ≠ [] ∧ trim s = s}

instance : LawfulBEq TrimmedString := inferInstance

/-- A value with a decidable property, which is checked where the value is written. -/
abbrev checked {α : Type} {p : α → Prop} [DecidablePred p] (a : α)
    (h : decide (p a) = true := by exact @rfl Bool true) : {a // p a} := ⟨a, of_decide_eq_true h⟩

/-- Accepts a non-empty, trimmed string. -/
def trimmedString (message : JsString) : JsValue → Throws TrimmedString
  | .str s => if h : s ≠ [] ∧ trim s = s then .ok ⟨s, h⟩ else throwType message
  | _ => throwType message

@[simp] theorem trimmedString_eq_ok {m : JsString} {v : JsValue} {s : TrimmedString} :
    trimmedString m v = .ok s ↔ v = .str s.1 := by
  cases v with
  | str t =>
    by_cases h : t ≠ [] ∧ trim t = t
    · rw [trimmedString, dif_pos h, Except.ok.injEq, JsValue.str.injEq]
      exact Subtype.ext_iff
    · have : t ≠ s.1 := fun e => h (e ▸ s.2)
      simp [trimmedString, h, this]
  | _ => simp [trimmedString]

/-- `null`, or whatever `dec` accepts. -/
def orNull {α : Type} (dec : JsValue → Throws α) : JsValue → Throws (Option α)
  | .null => .ok none
  | v => some <$> dec v

/-- A string or `null` as a value. -/
def ofNullable (s : Option TrimmedString) : JsValue := .nullable (s.map Subtype.val)

@[simp] theorem ofNullable_inj {s t : Option TrimmedString} :
    ofNullable s = ofNullable t ↔ s = t := by
  cases s <;> cases t <;> simp [ofNullable, JsValue.nullable, Subtype.ext_iff]

@[simp] theorem orNull_trimmedString_eq_ok {m : JsString} {v : JsValue} {s : Option TrimmedString} :
    orNull (trimmedString m) v = .ok s ↔ v = ofNullable s := by
  cases v <;> cases s <;> simp [orNull, ofNullable, JsValue.nullable]

/-- An encoding with `null` for what is absent. -/
def orNullValue {α : Type} (enc : α → JsValue) : Option α → JsValue
  | none => .null
  | some a => enc a

theorem orNull_eq_ok {α : Type} {dec : JsValue → Throws α} {enc : α → JsValue}
    (h : ∀ v a, dec v = .ok a ↔ JsonEq v (enc a)) (hnull : ∀ a, dec .null ≠ .ok a) {v : JsValue}
    {a : Option α} : orNull dec v = .ok a ↔ JsonEq v (orNullValue enc a) := by
  cases a with
  | none =>
    rw [orNullValue, jsonEq_null]
    cases v <;> simp [orNull]
  | some a =>
    rw [orNullValue, ← h]
    cases v with
    | null => simp [orNull, hnull]
    | _ => simp [orNull]

/-- An enumeration with the string of each member. -/
class JsEnum (α : Type) where
  values : List α
  text : α → String
  complete : ∀ a, a ∈ values
  injective : Function.Injective text

/-- The string of an enumeration member as a value. -/
def ofEnum {α : Type} [JsEnum α] (a : α) : JsValue := .str (JsEnum.text a)

theorem ofEnum_inj {α : Type} [JsEnum α] {a b : α} : ofEnum a = ofEnum b ↔ a = b := by
  simp only [ofEnum, JsValue.str.injEq, js_inj]
  exact JsEnum.injective.eq_iff

/-- Accepts the string of an enumeration member. -/
def enumMember {α : Type} [JsEnum α] (message : JsString) (v : JsValue) : Throws α :=
  match JsEnum.values.find? fun a : α => v = ofEnum a with
  | some a => .ok a
  | none => throwType message

@[simp] theorem enumMember_eq_ok {α : Type} [JsEnum α] {m : JsString} {v : JsValue} {a : α} :
    enumMember m v = .ok a ↔ v = ofEnum a := by
  unfold enumMember
  split
  · next b h =>
    obtain rfl : v = ofEnum b := by simpa using List.find?_some h
    simp [ofEnum_inj]
  · next h =>
    have := List.find?_eq_none.mp h a (JsEnum.complete a)
    simp only [throwType_eq_ok, false_iff]
    simpa using this

/-! ## Numbers and booleans -/

/-- A positive integer that `Number.isSafeInteger` accepts. -/
abbrev PosSafe := {n : ℕ // 1 ≤ n ∧ n ≤ maxSafeInteger}

/-- The natural number a value is, if it is one. -/
def natural : JsValue → Option ℕ
  | .num (.finite x) => if x.den = 1 ∧ 0 ≤ x.num then some x.num.natAbs else none
  | _ => none

@[simp] theorem natural_eq_some {v : JsValue} {n : ℕ} : natural v = some n ↔ v = .nat n := by
  constructor
  · intro h
    unfold natural at h
    split at h
    · next x =>
      split_ifs at h with hx
      have hq : x = (x.num : ℚ) := (Rat.den_eq_one_iff x).mp hx.1 |>.symm
      have hn : x.num = n := by have := Option.some.inj h; omega
      rw [hq, hn]
      rfl
    · cases h
  · rintro rfl
    simp [JsValue.nat, natural]

/-- Accepts a natural number with property `p`. -/
def naturalWith (p : ℕ → Prop) [DecidablePred p] (message : JsString) (v : JsValue) :
    Throws {n : ℕ // p n} :=
  match natural v with
  | some n => if h : p n then .ok ⟨n, h⟩ else throwType message
  | none => throwType message

@[simp] theorem naturalWith_eq_ok {p : ℕ → Prop} [DecidablePred p] {m : JsString} {v : JsValue}
    {n : {n : ℕ // p n}} : naturalWith p m v = .ok n ↔ v = .nat n.1 := by
  rw [← natural_eq_some, naturalWith]
  split
  · next k h =>
    rw [h, Option.some.injEq]
    by_cases hp : p k
    · rw [dif_pos hp, Except.ok.injEq]
      exact Subtype.ext_iff
    · rw [dif_neg hp]
      simp only [throwType_eq_ok, false_iff]
      exact fun e => hp (e ▸ n.2)
  · next h => simp [h]

/-- Accepts a boolean. -/
def boolean (message : JsString) : JsValue → Throws Bool
  | .bool b => .ok b
  | _ => throwType message

@[simp] theorem boolean_eq_ok {m : JsString} {v : JsValue} {b : Bool} :
    boolean m v = .ok b ↔ v = .bool b := by
  cases v <;> simp [boolean]

/-! ## Objects -/

/-- Accepts a plain object. -/
def plainObject (message : JsString) : JsValue → Throws Props
  | .obj ps => .ok ps
  | _ => throwType message

@[simp] theorem plainObject_eq_ok {m : JsString} {v : JsValue} {ps : Props} :
    plainObject m v = .ok ps ↔ v = .obj ps := by
  cases v <;> simp [plainObject]

/-- The own property names of `ps` are precisely `keys`. -/
def HasKeys (ps : Props) (keys : List JsString) : Prop := ∀ k, k ∈ names ps ↔ k ∈ keys

/-- Throws for the first own key that is not listed, then for the first listed
    key that is missing. -/
def checkKeys (unknown missing : JsString → JsString) (ps : Props) (keys : List JsString) :
    Throws Unit :=
  match (ownKeys ps).find? fun k => k ∉ keys with
  | some k => throwType (unknown k)
  | none =>
    match keys.find? fun k => k ∉ names ps with
    | some k => throwType (missing k)
    | none => .ok ()

@[simp] theorem checkKeys_eq_ok {unknown missing : JsString → JsString} {ps : Props}
    {keys : List JsString} {u : Unit} :
    checkKeys unknown missing ps keys = .ok u ↔ HasKeys ps keys := by
  unfold checkKeys HasKeys
  split
  · next k h =>
    have hk := List.find?_some h
    have hmem := mem_ownKeys.mp (List.mem_of_find?_eq_some h)
    simp only [throwType_eq_ok, false_iff, not_forall]
    exact ⟨k, fun h' => by simp [h'.mp hmem] at hk⟩
  · next h =>
    have h1 : ∀ k, k ∈ names ps → k ∈ keys := fun k hk => by
      simpa using List.find?_eq_none.mp h k (mem_ownKeys.mpr hk)
    split
    · next k h' =>
      have hk := List.find?_some h'
      have hmem := List.mem_of_find?_eq_some h'
      simp only [throwType_eq_ok, false_iff, not_forall]
      exact ⟨k, fun h2 => by simp [h2.mpr hmem] at hk⟩
    · next h' =>
      have h2 : ∀ k ∈ keys, k ∈ names ps := fun k hk => by
        simpa using List.find?_eq_none.mp h' k hk
      exact ⟨fun _ k => ⟨h1 k, h2 k⟩, fun _ => rfl⟩

/-- A value equals an object literal iff it is an object with those keys and
    equal properties. -/
theorem jsonEq_obj_iff {v : JsValue} {qs : Props} :
    JsonEq v (.obj qs) ↔ ∃ ps, v = .obj ps ∧ HasKeys ps (names qs) ∧
      ∀ k ∈ names qs, JsonEq (prop ps k) (prop qs k) := jsonEq_obj

/-- Equal objects are equal with a property written over in both. -/
theorem jsonEq_defineProp {ps qs : Props} {k : JsString} {v w w' : JsValue}
    (h : JsonEq (.obj (defineProp ps k v)) (.obj qs)) (hw : JsonEq w w') :
    JsonEq (.obj (defineProp ps k w)) (.obj (defineProp qs k w')) := by
  obtain ⟨_, hps, hk, h⟩ := jsonEq_obj_iff.mp h
  obtain rfl := JsValue.obj.inj hps
  have hnames : ∀ l, l = k ∨ l ∈ names ps ↔ l ∈ names qs := fun l =>
    mem_names_defineProp.symm.trans (hk l)
  refine jsonEq_obj_iff.mpr ⟨_, rfl, fun l => ?_, fun l hl => ?_⟩
  · have hkq : k ∈ names qs := (hnames k).mp (.inl rfl)
    rw [mem_names_defineProp, mem_names_defineProp, ← hnames l]
    tauto
  · rw [prop_defineProp, prop_defineProp]
    by_cases hlk : l = k
    · rwa [if_pos hlk, if_pos hlk]
    · have hlq : l ∈ names qs := (mem_names_defineProp.mp hl).resolve_left hlk
      have hl := h l hlq
      rw [prop_defineProp, if_neg hlk] at hl
      rwa [if_neg hlk, if_neg hlk]

/-! ## Exact decoders -/

/-- `dec` accepts precisely the values equal to an encoding. -/
def ExactDecoder {α : Type} (dec : JsValue → JsString → Throws α) (enc : α → JsValue) : Prop :=
  ∀ v label a, dec v label = .ok a ↔ JsonEq v (enc a)

section Exact

variable {α : Type} {dec : JsValue → JsString → Throws α} {enc : α → JsValue}

theorem ExactDecoder.encode (h : ExactDecoder dec enc) (a : α) (label : JsString) :
    dec (enc a) label = .ok a := (h _ _ _).mpr (.refl _)

theorem ExactDecoder.injective (h : ExactDecoder dec enc) {a b : α} (he : JsonEq (enc a) (enc b)) :
    a = b := by
  have h1 := h.encode a []
  rw [(h _ _ _).mpr he, Except.ok.injEq] at h1
  exact h1.symm

/-- Validates the items of an array, the label followed by each index. -/
def mapItems (dec : JsValue → JsString → Throws α) (label : JsString) :
    ℕ → List JsValue → Throws (List α)
  | _, [] => pure []
  | i, v :: vs => do
    let a ← dec v (label ++ "[" ++ natText i ++ "]")
    let as ← mapItems dec label (i + 1) vs
    pure (a :: as)

/-- Accepts an array. -/
def array (message : JsString) : JsValue → Throws (List JsValue)
  | .arr items => .ok items
  | _ => throwType message

@[simp] theorem array_eq_ok {m : JsString} {v : JsValue} {items : List JsValue} :
    array m v = .ok items ↔ v = .arr items := by
  cases v <;> simp [array]

theorem length_of_mapItems {label : JsString} {i : ℕ} {vs : List JsValue} {as : List α}
    (h : mapItems dec label i vs = .ok as) : as.length = vs.length := by
  induction vs generalizing i as with
  | nil =>
    obtain rfl := pure_eq_ok.mp h
    rfl
  | cons v vs ih =>
    obtain ⟨a, -, h⟩ := bind_eq_ok.mp h
    obtain ⟨as', has, h⟩ := bind_eq_ok.mp h
    obtain rfl := pure_eq_ok.mp h
    simp [ih has]

/-- Items are decoded one by one when each decoding is exact up to a condition on its result. -/
theorem mapItems_eq_ok_and {P : α → Prop}
    (h : ∀ v label a, dec v label = .ok a ↔ JsonEq v (enc a) ∧ P a) {label : JsString} {i : ℕ}
    {vs : List JsValue} {as : List α} :
    mapItems dec label i vs = .ok as ↔ List.Forall₂ JsonEq vs (as.map enc) ∧ ∀ a ∈ as, P a := by
  induction vs generalizing i as with
  | nil =>
    cases as <;> simp [mapItems]
  | cons v vs ih =>
    cases as with
    | nil => simp [mapItems]
    | cons a as =>
      simp only [mapItems, bind_eq_ok, h, ih, pure_eq_ok, List.cons.injEq, List.map_cons,
        List.forall₂_cons, List.forall_mem_cons]
      constructor
      · rintro ⟨_, ⟨hv, ha⟩, _, ⟨hvs, has⟩, rfl, rfl⟩
        exact ⟨⟨hv, hvs⟩, ha, has⟩
      · intro ⟨⟨hv, hvs⟩, ha, has⟩
        exact ⟨a, ⟨hv, ha⟩, as, ⟨hvs, has⟩, rfl, rfl⟩

theorem mapItems_eq_ok (h : ExactDecoder dec enc) {label : JsString} {i : ℕ} {vs : List JsValue}
    {as : List α} : mapItems dec label i vs = .ok as ↔ List.Forall₂ JsonEq vs (as.map enc) := by
  rw [mapItems_eq_ok_and (P := fun _ => True) fun v label a => by rw [h, and_true]]
  simp

/-- Arrays of encodings are equal only when they encode the same items. -/
theorem eq_of_jsonEq_arr_map (h : ∀ a b, JsonEq (enc a) (enc b) → a = b) {as bs : List α}
    (he : JsonEq (.arr (as.map enc)) (.arr (bs.map enc))) : as = bs := by
  obtain ⟨xs, hxs, hall⟩ := jsonEq_arr.mp he
  obtain rfl := JsValue.arr.inj hxs
  rw [List.forall₂_map_left_iff, List.forall₂_map_right_iff] at hall
  exact List.forall₂_eq_eq_eq ▸ hall.imp h

/-- An array is decoded item by item. -/
theorem array_mapItems_eq_ok_and {P : α → Prop}
    (h : ∀ v label a, dec v label = .ok a ↔ JsonEq v (enc a) ∧ P a) {label m : JsString}
    {v : JsValue} {as : List α} :
    (∃ vs, array m v = .ok vs ∧ mapItems dec label 0 vs = .ok as) ↔
      JsonEq v (.arr (as.map enc)) ∧ ∀ a ∈ as, P a := by
  simp only [array_eq_ok, mapItems_eq_ok_and h, jsonEq_arr]
  constructor
  · intro ⟨vs, hv, hvs, has⟩
    exact ⟨⟨vs, hv, hvs⟩, has⟩
  · intro ⟨⟨vs, hv, hvs⟩, has⟩
    exact ⟨vs, hv, hvs, has⟩

/-- An array of encodings is accepted item by item. -/
theorem array_mapItems_eq_ok (h : ExactDecoder dec enc) {label m : JsString} {v : JsValue}
    {as : List α} : (∃ vs, array m v = .ok vs ∧ mapItems dec label 0 vs = .ok as) ↔
      JsonEq v (.arr (as.map enc)) := by
  simp [jsonEq_arr, mapItems_eq_ok h]

end Exact

end Wns.Ecma
