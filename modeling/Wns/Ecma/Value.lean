import Mathlib.Data.List.Forall2
import Mathlib.Data.List.Sort
import Wns.Ecma.Number

/-!
# ECMAScript data values

The values that reach the code are data: `undefined`, `null`, booleans, numbers,
strings, arrays without holes, and plain objects (prototype `Object.prototype`)
with enumerable data properties. An object lists its properties in the order in
which they were created; `ownOrder` is the order in which `Object.keys` and
`JSON.stringify` see them.

* `JsonEq`: equality of values up to the order of object keys, at any depth.
* `sortKeys`: every object with its keys in code-unit order.
* `sortKeys_eq_iff`: values are equal up to key order iff they agree once sorted.
-/

namespace Wns.Ecma

inductive JsValue
  | undefined
  | null
  | bool (b : Bool)
  | num (x : JsNumber)
  | str (s : JsString)
  | arr (items : List JsValue)
  | obj (props : List (JsString × JsValue))

/-- The own properties of an object, in creation order. -/
abbrev Props := List (JsString × JsValue)

namespace JsValue

/-- The value `n` of a counter. -/
def nat (n : ℕ) : JsValue := .num (.finite n)

/-- A nullable string. -/
def nullable : Option JsString → JsValue
  | none => .null
  | some s => .str s

@[simp] theorem nat_inj {m n : ℕ} : nat m = nat n ↔ m = n := by
  simp [nat]

@[simp] theorem nullable_inj {s t : Option JsString} : nullable s = nullable t ↔ s = t := by
  cases s <;> cases t <;> simp [nullable]

/-- Induction over values, with the hypothesis for every item and property. -/
@[elab_as_elim]
theorem induction {motive : JsValue → Prop} (undefined : motive .undefined) (null : motive .null)
    (bool : ∀ b, motive (.bool b)) (num : ∀ x, motive (.num x)) (str : ∀ s, motive (.str s))
    (arr : ∀ items, (∀ v ∈ items, motive v) → motive (.arr items))
    (obj : ∀ props : Props, (∀ p ∈ props, motive p.2) → motive (.obj props)) (v : JsValue) :
    motive v :=
  @JsValue.rec motive (fun items => ∀ v ∈ items, motive v) (fun props => ∀ p ∈ props, motive p.2)
    (fun p => motive p.2) undefined null bool num str arr obj (by simp)
    (fun _ _ hv hvs => List.forall_mem_cons.mpr ⟨hv, hvs⟩) (by simp)
    (fun _ _ hp hps => List.forall_mem_cons.mpr ⟨hp, hps⟩) (fun _ _ h => h) v

/-! ## Decidable equality -/

mutual

def beq : JsValue → JsValue → Bool
  | .undefined, .undefined => true
  | .null, .null => true
  | .bool a, .bool b => a = b
  | .num a, .num b => a = b
  | .str a, .str b => a = b
  | .arr a, .arr b => beqItems a b
  | .obj a, .obj b => beqProps a b
  | _, _ => false

def beqItems : List JsValue → List JsValue → Bool
  | [], [] => true
  | v :: vs, w :: ws => beq v w && beqItems vs ws
  | _, _ => false

def beqProps : Props → Props → Bool
  | [], [] => true
  | (k, v) :: ps, (l, w) :: qs => k = l && beq v w && beqProps ps qs
  | _, _ => false

end

theorem beqItems_iff {vs : List JsValue} (h : ∀ v ∈ vs, ∀ w, beq v w = true ↔ v = w)
    (ws : List JsValue) : beqItems vs ws = true ↔ vs = ws := by
  induction vs generalizing ws with
  | nil => cases ws <;> simp [beqItems]
  | cons v vs ih =>
    have hv := h v (by simp)
    have ih := ih fun w hw => h w (by simp [hw])
    cases ws <;> simp [beqItems, hv, ih]

theorem beqProps_iff {ps : Props} (h : ∀ p ∈ ps, ∀ w, beq p.2 w = true ↔ p.2 = w)
    (qs : Props) : beqProps ps qs = true ↔ ps = qs := by
  induction ps generalizing qs with
  | nil => cases qs <;> simp [beqProps]
  | cons p ps ih =>
    have hp := h p (by simp)
    have ih := ih fun q hq => h q (by simp [hq])
    rcases qs with - | ⟨q, qs⟩
    · simp [beqProps]
    · simp [beqProps, hp, ih, Prod.ext_iff, and_assoc]

theorem beq_iff (v w : JsValue) : beq v w = true ↔ v = w := by
  induction v using JsValue.induction generalizing w with
  | undefined => cases w <;> simp [beq]
  | null => cases w <;> simp [beq]
  | bool b => cases w <;> simp [beq]
  | num x => cases w <;> simp [beq]
  | str s => cases w <;> simp [beq]
  | arr items ih => cases w <;> simp [beq, beqItems_iff ih]
  | obj props ih => cases w <;> simp [beq, beqProps_iff ih]

instance : DecidableEq JsValue := fun v w => decidable_of_iff _ (beq_iff v w)

end JsValue

/-! ## Properties -/

/-- The property names of an object. -/
def names {α : Type*} (ps : List (JsString × α)) : List JsString := ps.map Prod.fst

@[simp] theorem names_nil {α : Type*} : names ([] : List (JsString × α)) = [] := rfl

@[simp] theorem names_cons {α : Type*} (p : JsString × α) (ps : List (JsString × α)) :
    names (p :: ps) = p.1 :: names ps := rfl

/-- Reading a property; a missing one is `undefined`. -/
def prop : Props → JsString → JsValue
  | [], _ => .undefined
  | (k', v) :: ps, k => if k = k' then v else prop ps k

@[simp] theorem prop_nil (k : JsString) : prop [] k = .undefined := rfl

@[simp] theorem prop_cons (k k' : JsString) (v : JsValue) (ps : Props) :
    prop ((k', v) :: ps) k = if k = k' then v else prop ps k := rfl

theorem prop_of_notMem {ps : Props} {k : JsString} (h : k ∉ names ps) : prop ps k = .undefined := by
  induction ps with
  | nil => rfl
  | cons p ps ih =>
    simp only [names_cons, List.mem_cons, not_or] at h
    simp [prop, h.1, ih h.2]

theorem prop_mem {ps : Props} {k : JsString} (h : k ∈ names ps) : (k, prop ps k) ∈ ps := by
  induction ps with
  | nil => simp at h
  | cons p ps ih =>
    by_cases hk : k = p.1
    · subst hk; simp [prop]
    · have : k ∈ names ps := by simpa [hk] using h
      simp [prop, hk, ih this]

theorem mem_names {ps : Props} {p : JsString × JsValue} (h : p ∈ ps) : p.1 ∈ names ps :=
  List.mem_map.mpr ⟨p, h, rfl⟩

/-- With unique keys, a property is read as it is listed. -/
theorem prop_eq_of_mem {ps : Props} (hn : (names ps).Nodup) {k : JsString} {v : JsValue}
    (h : (k, v) ∈ ps) : prop ps k = v := by
  induction ps with
  | nil => simp at h
  | cons p ps ih =>
    rw [names_cons, List.nodup_cons] at hn
    rcases List.mem_cons.mp h with rfl | h
    · simp [prop]
    · have hk : k ≠ p.1 := fun hk => hn.1 (hk ▸ mem_names h)
      simp [prop, hk, ih hn.2 h]

/-- CreateDataProperty: an existing property keeps its place. -/
def defineProp : Props → JsString → JsValue → Props
  | [], k, v => [(k, v)]
  | (k', v') :: ps, k, v => if k = k' then (k, v) :: ps else (k', v') :: defineProp ps k v

theorem prop_defineProp (ps : Props) (k l : JsString) (v : JsValue) :
    prop (defineProp ps k v) l = if l = k then v else prop ps l := by
  induction ps with
  | nil => simp [defineProp]
  | cons p ps ih =>
    by_cases hk : k = p.1
    · subst hk
      by_cases hl : l = p.1 <;> simp [defineProp, prop, hl]
    · by_cases hl : l = p.1
      · subst hl; simp [defineProp, prop, hk, Ne.symm hk]
      · simp [defineProp, prop, hk, hl, ih]

/-- `{ ...target, ...source }`: the properties of `source` written over `target`. -/
def spread (target source : Props) : Props :=
  source.foldl (fun ps p => defineProp ps p.1 p.2) target

@[simp] theorem spread_nil (target : Props) : spread target [] = target := rfl

@[simp] theorem spread_cons (target : Props) (p : JsString × JsValue) (source : Props) :
    spread target (p :: source) = spread (defineProp target p.1 p.2) source := rfl

theorem mem_names_defineProp {ps : Props} {k l : JsString} {v : JsValue} :
    l ∈ names (defineProp ps k v) ↔ l = k ∨ l ∈ names ps := by
  induction ps with
  | nil => simp [defineProp]
  | cons p ps ih =>
    by_cases hk : k = p.1
    · simp [defineProp, hk]
    · simp only [defineProp, if_neg hk, names_cons, List.mem_cons, ih]
      tauto

theorem mem_names_spread {target source : Props} {k : JsString} :
    k ∈ names (spread target source) ↔ k ∈ names target ∨ k ∈ names source := by
  induction source generalizing target with
  | nil => simp
  | cons p source ih =>
    simp only [spread_cons, ih, mem_names_defineProp, names_cons, List.mem_cons]
    tauto

/-- The source wins where it has the property. -/
theorem prop_spread (target source : Props) (k : JsString) :
    prop (spread target source) k =
      if k ∈ names source then prop (spread [] source) k else prop target k := by
  induction source generalizing target with
  | nil => simp
  | cons p source ih =>
    rw [spread_cons, ih, spread_cons, ih (defineProp [] p.1 p.2), prop_defineProp, prop_defineProp]
    by_cases hs : k ∈ names source
    · simp [hs]
    · by_cases hk : k = p.1 <;> simp [hs, hk]

/-! ## Enumeration order -/

/-- The number an array-index key stands for. -/
def arrayIndex (k : JsString) : Option ℕ :=
  let (ds, r) := takeDigits k
  if r = [] ∧ ds ≠ [] ∧ (ds.head? = some 0 → ds.length = 1) ∧ digitsNat ds < 4294967295 then
    some (digitsNat ds)
  else none

/-- OrdinaryOwnPropertyKeys: array indices in ascending order, then the other
    keys in creation order. -/
def ownOrder {α : Type*} (ps : List (JsString × α)) : List (JsString × α) :=
  (ps.filter fun p => (arrayIndex p.1).isSome).insertionSort
      (fun p q => (arrayIndex p.1).getD 0 ≤ (arrayIndex q.1).getD 0) ++
    ps.filter fun p => !(arrayIndex p.1).isSome

theorem ownOrder_perm {α : Type*} (ps : List (JsString × α)) : (ownOrder ps).Perm ps :=
  ((List.perm_insertionSort _ _).append_right _).trans (List.filter_append_perm _ _)

/-- The enumeration order depends on the keys alone. -/
theorem ownOrder_map {α β : Type*} (f : JsString × α → JsString × β) (hf : ∀ p, (f p).1 = p.1)
    (ps : List (JsString × α)) : ownOrder (ps.map f) = (ownOrder ps).map f := by
  have hfilter : ∀ g : JsString → Bool,
      (ps.map f).filter (fun p => g p.1) = (ps.filter fun p => g p.1).map f := by
    intro g
    rw [List.filter_map]
    congr 2
    funext p
    simp [hf]
  unfold ownOrder
  rw [hfilter fun k => (arrayIndex k).isSome, hfilter fun k => !(arrayIndex k).isSome,
    List.map_append]
  congr 1
  refine (List.map_insertionSort _ _ f _ ?_).symm
  intro a _ b _
  rw [hf, hf]

/-- Entries with the same keys are enumerated in the same order. -/
theorem forall₂_ownOrder {α β : Type*} {R : α → β → Prop} {ps : List (JsString × α)}
    {qs : List (JsString × β)} (h : List.Forall₂ (fun p q => p.1 = q.1 ∧ R p.2 q.2) ps qs) :
    List.Forall₂ (fun p q => p.1 = q.1 ∧ R p.2 q.2) (ownOrder ps) (ownOrder qs) := by
  have hzip : ∃ ts : List (JsString × α × β), ts.map (fun t => (t.1, t.2.1)) = ps ∧
      ts.map (fun t => (t.1, t.2.2)) = qs ∧ ∀ t ∈ ts, R t.2.1 t.2.2 := by
    induction h with
    | nil => exact ⟨[], rfl, rfl, by simp⟩
    | @cons p q _ _ hpq _ ih =>
      obtain ⟨ts, rfl, rfl, hts⟩ := ih
      exact ⟨(p.1, p.2, q.2) :: ts, rfl, by simp [hpq.1], by simpa [hpq.2] using hts⟩
  obtain ⟨ts, rfl, rfl, hts⟩ := hzip
  rw [ownOrder_map (fun t : JsString × α × β => (t.1, t.2.1)) fun _ => rfl,
    ownOrder_map (fun t : JsString × α × β => (t.1, t.2.2)) fun _ => rfl,
    List.forall₂_map_left_iff, List.forall₂_map_right_iff, List.forall₂_same]
  exact fun t ht => ⟨rfl, hts t ((ownOrder_perm ts).mem_iff.mp ht)⟩

/-- `Object.keys`. -/
def ownKeys (ps : Props) : List JsString := names (ownOrder ps)

theorem mem_ownKeys {ps : Props} {k : JsString} : k ∈ ownKeys ps ↔ k ∈ names ps :=
  ((ownOrder_perm ps).map Prod.fst).mem_iff

/-! ## Equality up to key order -/

/-- Neither an array nor an object. -/
def JsValue.IsPrimitive : JsValue → Prop
  | .arr _ => False
  | .obj _ => False
  | _ => True

/-- Equality of values that ignores the order of object keys. -/
inductive JsonEq : JsValue → JsValue → Prop
  | primitive {v : JsValue} (h : v.IsPrimitive) : JsonEq v v
  | arr {xs ys : List JsValue} (hlen : xs.length = ys.length)
      (h : ∀ (i : ℕ) (hx : i < xs.length) (hy : i < ys.length), JsonEq xs[i] ys[i]) :
      JsonEq (.arr xs) (.arr ys)
  | obj {ps qs : Props} (hk : ∀ k, k ∈ names ps ↔ k ∈ names qs)
      (h : ∀ k ∈ names ps, JsonEq (prop ps k) (prop qs k)) : JsonEq (.obj ps) (.obj qs)

theorem JsonEq.refl (v : JsValue) : JsonEq v v := by
  induction v using JsValue.induction with
  | arr items ih => exact .arr rfl fun i hx _ => ih _ (List.getElem_mem hx)
  | obj props ih => exact .obj (fun _ => Iff.rfl) fun k hk => ih _ (prop_mem hk)
  | _ => exact .primitive trivial

theorem JsonEq.symm {v w : JsValue} (h : JsonEq v w) : JsonEq w v := by
  induction h with
  | primitive h => exact .primitive h
  | arr hlen _ ih => exact .arr hlen.symm fun i hx hy => ih i hy hx
  | obj hk _ ih => exact .obj (fun k => (hk k).symm) fun k h => ih k ((hk k).mpr h)

theorem JsonEq.trans {u v w : JsValue} (h : JsonEq u v) (h' : JsonEq v w) : JsonEq u w := by
  induction h generalizing w with
  | primitive _ => exact h'
  | arr hlen _ ih =>
    cases h' with
    | primitive h => exact h.elim
    | arr hlen' h2 => exact .arr (hlen.trans hlen') fun i hx hz => ih i hx (by omega) (h2 i _ hz)
  | obj hk _ ih =>
    cases h' with
    | primitive h => exact h.elim
    | obj hk' h2 =>
      exact .obj (fun k => (hk k).trans (hk' k)) fun k h => ih k h (h2 k ((hk k).mp h))

/-- Nothing but a primitive value itself is equal to it. -/
theorem jsonEq_primitive {v w : JsValue} (h : w.IsPrimitive) : JsonEq v w ↔ v = w := by
  constructor
  · intro h'
    cases h' with
    | primitive => rfl
    | arr => exact h.elim
    | obj => exact h.elim
  · rintro rfl; exact .primitive h

@[simp] theorem jsonEq_str {v : JsValue} {s : JsString} : JsonEq v (.str s) ↔ v = .str s :=
  jsonEq_primitive trivial

@[simp] theorem jsonEq_nat {v : JsValue} {n : ℕ} : JsonEq v (.nat n) ↔ v = .nat n :=
  jsonEq_primitive trivial

@[simp] theorem jsonEq_bool {v : JsValue} {b : Bool} : JsonEq v (.bool b) ↔ v = .bool b :=
  jsonEq_primitive trivial

@[simp] theorem jsonEq_null {v : JsValue} : JsonEq v .null ↔ v = .null :=
  jsonEq_primitive trivial

@[simp] theorem jsonEq_nullable {v : JsValue} {s : Option JsString} :
    JsonEq v (.nullable s) ↔ v = .nullable s :=
  jsonEq_primitive (by cases s <;> trivial)

theorem jsonEq_arr {v : JsValue} {ys : List JsValue} :
    JsonEq v (.arr ys) ↔ ∃ xs, v = .arr xs ∧ List.Forall₂ JsonEq xs ys := by
  constructor
  · intro h
    cases h with
    | primitive h => exact h.elim
    | arr hlen h => exact ⟨_, rfl, List.forall₂_iff_get.mpr ⟨hlen, h⟩⟩
  · rintro ⟨xs, rfl, h⟩
    obtain ⟨hlen, h⟩ := List.forall₂_iff_get.mp h
    exact .arr hlen h

theorem jsonEq_obj {v : JsValue} {qs : Props} :
    JsonEq v (.obj qs) ↔ ∃ ps, v = .obj ps ∧ (∀ k, k ∈ names ps ↔ k ∈ names qs) ∧
      ∀ k ∈ names qs, JsonEq (prop ps k) (prop qs k) := by
  constructor
  · intro h
    cases h with
    | primitive h => exact h.elim
    | obj hk h => exact ⟨_, rfl, hk, fun k hk' => h k ((hk k).mpr hk')⟩
  · rintro ⟨ps, rfl, hk, h⟩
    exact .obj hk fun k hk' => h k ((hk k).mp hk')

theorem jsonEq_prop {ps qs : Props} (h : JsonEq (.obj ps) (.obj qs)) (k : JsString) :
    JsonEq (prop ps k) (prop qs k) := by
  cases h with
  | primitive h => exact h.elim
  | obj hk hprop =>
    by_cases hmem : k ∈ names ps
    · exact hprop k hmem
    · rw [prop_of_notMem hmem, prop_of_notMem fun h => hmem ((hk k).mpr h)]
      exact .refl _

/-- Equal values are equal to the same primitives. -/
theorem JsonEq.eq_iff {v w u : JsValue} (h : JsonEq v w) (hu : u.IsPrimitive) : v = u ↔ w = u := by
  rw [← jsonEq_primitive hu, ← jsonEq_primitive hu]
  exact ⟨h.symm.trans, h.trans⟩

/-! ## Sorting keys -/

/-- Every object in the value lists a key once, as objects do. -/
inductive UniqueKeys : JsValue → Prop
  | primitive {v : JsValue} (h : v.IsPrimitive) : UniqueKeys v
  | arr {items : List JsValue} (h : ∀ v ∈ items, UniqueKeys v) : UniqueKeys (.arr items)
  | obj {props : Props} (hn : (names props).Nodup) (h : ∀ p ∈ props, UniqueKeys p.2) :
      UniqueKeys (.obj props)

theorem uniqueKeys_arr {items : List JsValue} :
    UniqueKeys (.arr items) ↔ ∀ v ∈ items, UniqueKeys v :=
  ⟨fun h => by cases h with | primitive h => exact h.elim | arr h => exact h, .arr⟩

theorem uniqueKeys_obj {props : Props} :
    UniqueKeys (.obj props) ↔ (names props).Nodup ∧ ∀ p ∈ props, UniqueKeys p.2 :=
  ⟨fun h => by cases h with | primitive h => exact h.elim | obj hn h => exact ⟨hn, h⟩,
    fun h => .obj h.1 h.2⟩

theorem UniqueKeys.prop {ps : Props} (h : UniqueKeys (.obj ps)) {k : JsString}
    (hk : k ∈ names ps) : UniqueKeys (prop ps k) :=
  (uniqueKeys_obj.mp h).2 _ (prop_mem hk)

/-- The entries in the order of `keys.sort()`. -/
def sortByKey {α : Type*} (ps : List (JsString × α)) : List (JsString × α) :=
  ps.insertionSort fun p q => p.1 ≤ q.1

theorem sortByKey_perm {α : Type*} (ps : List (JsString × α)) : (sortByKey ps).Perm ps :=
  List.perm_insertionSort _ _

theorem sortByKey_pairwise {α : Type*} (ps : List (JsString × α)) :
    (sortByKey ps).Pairwise fun p q => p.1 ≤ q.1 :=
  have : Std.Total fun p q : JsString × α => p.1 ≤ q.1 := ⟨fun _ _ => le_total _ _⟩
  have : IsTrans (JsString × α) fun p q => p.1 ≤ q.1 := ⟨fun _ _ _ => le_trans⟩
  List.pairwise_insertionSort _ _

theorem nodup_names_of_perm {α : Type*} {ps qs : List (JsString × α)} (h : ps.Perm qs) :
    (names ps).Nodup ↔ (names qs).Nodup := (h.map Prod.fst).nodup_iff

theorem mem_names_of_perm {α : Type*} {ps qs : List (JsString × α)} (h : ps.Perm qs)
    {k : JsString} : k ∈ names ps ↔ k ∈ names qs := (h.map Prod.fst).mem_iff

/-- With unique keys, the entries determine their sorted order. -/
theorem sortByKey_eq {α : Type*} {ps qs : List (JsString × α)} (hp : (names ps).Nodup)
    (h : ps.Perm qs) : sortByKey ps = sortByKey qs := by
  have hperm := ((sortByKey_perm ps).trans h).trans (sortByKey_perm qs).symm
  have hnodup := (nodup_names_of_perm (sortByKey_perm ps)).mpr hp
  refine List.Perm.eq_of_pairwise ?_ (sortByKey_pairwise ps) (sortByKey_pairwise qs) hperm
  intro p q hmem _ h1 h2
  exact (List.inj_on_of_nodup_map hnodup) hmem (hperm.mem_iff.mpr ‹_›) (le_antisymm h1 h2)

/-- Changing the values leaves the order of the keys alone. -/
theorem sortByKey_map {α β : Type*} (g : JsString × α → β) (ps : List (JsString × α)) :
    sortByKey (ps.map fun p => (p.1, g p)) = (sortByKey ps).map fun p => (p.1, g p) :=
  (List.map_insertionSort (fun p q : JsString × α => p.1 ≤ q.1)
    (fun p q : JsString × β => p.1 ≤ q.1) (fun p => (p.1, g p)) ps fun _ _ _ _ => Iff.rfl).symm

theorem sortByKey_sortByKey {α : Type*} (ps : List (JsString × α)) :
    sortByKey (sortByKey ps) = sortByKey ps :=
  (sortByKey_pairwise ps).insertionSort_eq

namespace JsValue

mutual

/-- The value with the keys of every object sorted. -/
def sortKeys : JsValue → JsValue
  | .arr items => .arr (sortKeysItems items)
  | .obj props => .obj (sortByKey (sortKeysProps props))
  | .undefined => .undefined
  | .null => .null
  | .bool b => .bool b
  | .num x => .num x
  | .str s => .str s

def sortKeysItems : List JsValue → List JsValue
  | [] => []
  | v :: vs => sortKeys v :: sortKeysItems vs

def sortKeysProps : Props → Props
  | [] => []
  | (k, v) :: ps => (k, sortKeys v) :: sortKeysProps ps

end

theorem sortKeysItems_eq (items : List JsValue) : sortKeysItems items = items.map sortKeys := by
  induction items with
  | nil => rfl
  | cons v vs ih => simp [sortKeysItems, ih]

theorem sortKeysProps_eq (props : Props) :
    sortKeysProps props = props.map fun p => (p.1, sortKeys p.2) := by
  induction props with
  | nil => rfl
  | cons p ps ih => simp [sortKeysProps, ih]

theorem names_sortKeysProps (props : Props) : names (sortKeysProps props) = names props := by
  simp [names, sortKeysProps_eq]

theorem sortKeys_obj (props : Props) :
    sortKeys (.obj props) = .obj ((sortByKey props).map fun p => (p.1, p.2.sortKeys)) := by
  rw [sortKeys, sortKeysProps_eq, sortByKey_map]

/-- Sorting twice is sorting once. -/
theorem sortKeys_sortKeys (v : JsValue) : v.sortKeys.sortKeys = v.sortKeys := by
  induction v using JsValue.induction with
  | arr items ih =>
    simp only [sortKeys, sortKeysItems_eq, List.map_map, JsValue.arr.injEq]
    exact List.map_congr_left ih
  | obj props ih =>
    simp only [sortKeys_obj, sortByKey_map, sortByKey_sortByKey, List.map_map, JsValue.obj.injEq]
    refine List.map_congr_left fun p hp => Prod.ext rfl (ih p ?_)
    exact (sortByKey_perm props).mem_iff.mp hp
  | _ => rfl

theorem sortKeys_primitive {v : JsValue} (h : v.IsPrimitive) : sortKeys v = v := by
  cases v <;> first | rfl | exact h.elim

end JsValue

open JsValue

theorem prop_sortKeysProps (ps : Props) (k : JsString) :
    prop (sortKeysProps ps) k = sortKeys (prop ps k) := by
  induction ps with
  | nil => simp [sortKeysProps, sortKeys]
  | cons p ps ih =>
    by_cases hk : k = p.1
    · simp [sortKeysProps, prop, hk]
    · simp [sortKeysProps, prop, hk, ih]

theorem prop_of_perm {ps qs : Props} (hn : (names ps).Nodup) (h : ps.Perm qs) (k : JsString) :
    prop ps k = prop qs k := by
  by_cases hk : k ∈ names qs
  · exact prop_eq_of_mem hn (h.mem_iff.mpr (prop_mem hk))
  · rw [prop_of_notMem hk, prop_of_notMem (mt (mem_names_of_perm h).mp hk)]

/-- Reordering the keys of an object gives an equal object. -/
theorem JsonEq.of_perm {ps qs : Props} (hn : (names ps).Nodup) (h : ps.Perm qs) :
    JsonEq (.obj ps) (.obj qs) :=
  .obj (fun _ => mem_names_of_perm h) fun k _ => prop_of_perm hn h k ▸ .refl _

/-- What holds of the sorted values of an object holds of those of the sorted object. -/
theorem sortKeys_props {P : JsValue → Prop} {props : Props} (hn : (names props).Nodup)
    (h : ∀ p ∈ props, P p.2.sortKeys) :
    (names (sortByKey (sortKeysProps props))).Nodup ∧
      ∀ p ∈ sortByKey (sortKeysProps props), P p.2 := by
  have hperm := sortByKey_perm (sortKeysProps props)
  refine ⟨(nodup_names_of_perm hperm).mpr (by rwa [names_sortKeysProps]), fun p hp => ?_⟩
  have hp := hperm.mem_iff.mp hp
  rw [sortKeysProps_eq] at hp
  obtain ⟨q, hq, rfl⟩ := List.mem_map.mp hp
  exact h q hq

theorem UniqueKeys.sortKeys {v : JsValue} (h : UniqueKeys v) : UniqueKeys v.sortKeys := by
  induction h with
  | primitive h =>
    rw [sortKeys_primitive h]
    exact .primitive h
  | arr _ ih =>
    rw [JsValue.sortKeys, sortKeysItems_eq]
    exact .arr (List.forall_mem_map.mpr ih)
  | @obj props hn _ ih =>
    obtain ⟨hnames, hforall⟩ := sortKeys_props hn ih
    exact .obj hnames hforall

/-- Sorting keys gives an equal value. -/
theorem sortKeys_jsonEq {v : JsValue} (h : UniqueKeys v) : JsonEq v.sortKeys v := by
  induction h with
  | primitive h => rw [sortKeys_primitive h]; exact .refl _
  | @arr items _ ih =>
    rw [sortKeys, sortKeysItems_eq]
    refine .arr (by simp) fun i hx hy => ?_
    simpa using ih _ (List.getElem_mem hy)
  | @obj props hn _ ih =>
    have hn' : (names (sortKeysProps props)).Nodup := by rwa [names_sortKeysProps]
    refine (JsonEq.of_perm ((nodup_names_of_perm (sortByKey_perm _)).mpr hn')
      (sortByKey_perm _)).trans ?_
    refine .obj (by simp [names_sortKeysProps]) fun k hk => ?_
    rw [names_sortKeysProps] at hk
    rw [prop_sortKeysProps]
    exact ih _ (prop_mem hk)

/-- Values that agree up to key order agree once sorted. -/
theorem sortKeys_eq_of_jsonEq {v w : JsValue} (h : JsonEq v w) (hv : UniqueKeys v)
    (hw : UniqueKeys w) : v.sortKeys = w.sortKeys := by
  induction h with
  | primitive h => rfl
  | @arr xs ys hlen _ ih =>
    rw [uniqueKeys_arr] at hv hw
    rw [sortKeys, sortKeys, sortKeysItems_eq, sortKeysItems_eq]
    refine congrArg _ (List.ext_getElem (by simpa using hlen) fun i hx hy => ?_)
    simp only [List.length_map] at hx hy
    simpa using ih i hx hy (hv _ (List.getElem_mem hx)) (hw _ (List.getElem_mem hy))
  | @obj ps qs hk _ ih =>
    obtain ⟨hnp, -⟩ := uniqueKeys_obj.mp hv
    obtain ⟨hnq, -⟩ := uniqueKeys_obj.mp hw
    have hprop : ∀ k ∈ names ps, sortKeys (prop ps k) = sortKeys (prop qs k) := fun k h =>
      ih k h (hv.prop h) (hw.prop ((hk k).mp h))
    -- both sides list the same sorted values, so they are permutations of one another
    have hmem : ∀ p, p ∈ sortKeysProps ps ↔ p ∈ sortKeysProps qs := by
      have key : ∀ (rs : Props), (names rs).Nodup → ∀ p, p ∈ sortKeysProps rs ↔
          p.1 ∈ names rs ∧ p.2 = sortKeys (prop rs p.1) := by
        intro rs hn p
        have hn' : (names (sortKeysProps rs)).Nodup := by rwa [names_sortKeysProps]
        rw [← prop_sortKeysProps, ← names_sortKeysProps rs]
        exact ⟨fun h => ⟨mem_names h, (prop_eq_of_mem hn' h).symm⟩,
          fun ⟨h1, h2⟩ => by rw [← Prod.mk.eta (p := p), h2]; exact prop_mem h1⟩
      intro p
      rw [key ps hnp, key qs hnq, hk]
      refine and_congr_right fun h => ?_
      rw [hprop _ ((hk _).mpr h)]
    have nodup : ∀ rs : Props, (names rs).Nodup → (sortKeysProps rs).Nodup := by
      intro rs hn
      rw [← names_sortKeysProps] at hn
      exact List.Nodup.of_map Prod.fst hn
    rw [sortKeys, sortKeys, sortByKey_eq (by rwa [names_sortKeysProps])
      ((List.perm_ext_iff_of_nodup (nodup ps hnp) (nodup qs hnq)).mpr hmem)]

/-- Equality up to key order is equality of the sorted values. -/
theorem sortKeys_eq_iff {v w : JsValue} (hv : UniqueKeys v) (hw : UniqueKeys w) :
    v.sortKeys = w.sortKeys ↔ JsonEq v w :=
  ⟨fun h => ((sortKeys_jsonEq hv).symm.trans (h ▸ .refl _)).trans (sortKeys_jsonEq hw),
    fun h => sortKeys_eq_of_jsonEq h hv hw⟩

end Wns.Ecma
