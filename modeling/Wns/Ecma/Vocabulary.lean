import Wns.Ecma.Decode

/-!
# Vocabularies

The strings that a value can show: its property names and its string leaves, at any depth.

* `Within`: all of them come from a given list, and every other leaf is a boolean, a finite
  number or `null`.
* `within_obj`: an object is within a vocabulary if its names and its values are.
-/

namespace Wns.Ecma

/-- The value shows no string outside of the vocabulary. -/
inductive Within (vocabulary : List JsString) : JsValue → Prop
  | null : Within vocabulary .null
  | bool (b : Bool) : Within vocabulary (.bool b)
  | num (x : ℚ) : Within vocabulary (.num (.finite x))
  | str {s : JsString} (h : s ∈ vocabulary) : Within vocabulary (.str s)
  | arr {items : List JsValue} (h : ∀ v ∈ items, Within vocabulary v) :
    Within vocabulary (.arr items)
  | obj {ps : Props} (hnames : names ps ⊆ vocabulary)
    (h : ∀ p ∈ ps, Within vocabulary p.2) : Within vocabulary (.obj ps)

/-- The strings of an enumeration. -/
def texts (α : Type) [JsEnum α] : List JsString :=
  (JsEnum.values : List α).map fun a => js (JsEnum.text a)

section

variable {vocabulary : List JsString} {α : Type} [JsEnum α]

theorem mem_texts (a : α) : js (JsEnum.text a) ∈ texts α :=
  List.mem_map.mpr ⟨a, JsEnum.complete a, rfl⟩

/-- A value or `null`. -/
theorem within_orNull {β : Type*} {f : β → JsValue} (h : ∀ b, Within vocabulary (f b))
    (o : Option β) : Within vocabulary ((o.map f).getD .null) := by
  cases o with
  | some b => exact h b
  | none => exact .null

theorem within_obj {ps : Props} (hnames : names ps ⊆ vocabulary)
    (h : ∀ v ∈ ps.map Prod.snd, Within vocabulary v) : Within vocabulary (.obj ps) :=
  .obj hnames fun _ hp => h _ (List.mem_map_of_mem hp)

end

end Wns.Ecma
