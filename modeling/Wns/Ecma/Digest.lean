import Wns.Ecma.JsonRoundTrip

/-!
# Hashing JSON text

`createHash("sha256").update(text).digest("hex")` hashes the UTF-8 encoding of a
String value; a lone surrogate is encoded as U+FFFD. JSON text has none, since
they are escaped, so equal hashes of JSON texts mean equal texts as far as the
hash has no collision.

* `isText_jsonText`: JSON text is the encoding of scalar values.
* `utf8_injOn`: UTF-8 is injective on such strings.
* `canonicalBytes_eq_iff`: text with sorted keys identifies a value up to key order.
-/

namespace Wns.Ecma

open JsValue

/-- The scalar value a code point is encoded as. -/
def CodePoint.scalarValue : CodePoint → Char
  | .scalar c => c
  | .surrogate _ => Char.ofNat 0xFFFD

/-- The UTF-8 encoding of a String value. -/
def utf8 (s : JsString) : List UInt8 :=
  ((codePoints s).map CodePoint.scalarValue).flatMap String.utf8EncodeChar

/-- A String value without lone surrogates. -/
def IsText (s : JsString) : Prop := ∃ cs : List Char, s = encode cs

theorem isText_js (s : String) : IsText (js s) := ⟨_, rfl⟩

theorem IsText.append {s t : JsString} (hs : IsText s) (ht : IsText t) : IsText (s ++ t) := by
  obtain ⟨cs, rfl⟩ := hs
  obtain ⟨ds, rfl⟩ := ht
  exact ⟨cs ++ ds, (encode_append cs ds).symm⟩

theorem isText_nil : IsText [] := ⟨[], rfl⟩

theorem isText_utf16 (c : Char) : IsText (utf16 c) := ⟨[c], by simp [encode]⟩

/-- A code unit below the surrogates is text by itself. -/
theorem isText_singleton {u : CodeUnit} (h : u.val < 0xD800) : IsText [u] := by
  have hu := utf16_bmp (u := u) (by unfold isHigh; omega) (by unfold isLow; omega)
  exact hu ▸ isText_utf16 _

theorem isText_cons {u : CodeUnit} (h : u.val < 0xD800) {s : JsString} (hs : IsText s) :
    IsText (u :: s) := (isText_singleton h).append hs

theorem isText_of_lt {s : JsString} (h : ∀ u ∈ s, u.val < 0xD800) : IsText s := by
  induction s with
  | nil => exact isText_nil
  | cons u s ih => exact isText_cons (h u (by simp)) (ih fun w hw => h w (by simp [hw]))

theorem isText_flatMap {α : Type*} {l : List α} {f : α → JsString} (h : ∀ a ∈ l, IsText (f a)) :
    IsText (l.flatMap f) := by
  induction l with
  | nil => exact isText_nil
  | cons a l ih =>
    rw [List.flatMap_cons]
    exact (h a (by simp)).append (ih fun b hb => h b (by simp [hb]))

theorem utf8_encode (cs : List Char) : utf8 (encode cs) = cs.flatMap String.utf8EncodeChar := by
  have hmap : (cs.map CodePoint.scalar).map CodePoint.scalarValue = cs := by
    rw [List.map_map]
    exact (List.map_congr_left fun _ _ => rfl).trans (List.map_id cs)
  rw [utf8, codePoints_encode, hmap]

/-- UTF-8 keeps texts apart. -/
theorem utf8_injOn {s t : JsString} (hs : IsText s) (ht : IsText t) (h : utf8 s = utf8 t) :
    s = t := by
  obtain ⟨cs, rfl⟩ := hs
  obtain ⟨ds, rfl⟩ := ht
  rw [utf8_encode, utf8_encode] at h
  have henc : cs.utf8Encode = ds.utf8Encode := by rw [List.utf8Encode, h, List.utf8Encode]
  have hdec := congrArg ByteArray.utf8Decode? henc
  rw [List.utf8Decode?_utf8Encode, List.utf8Decode?_utf8Encode, Option.some.injEq] at hdec
  rw [List.toArray_inj hdec]

/-! ## JSON text -/

theorem hexDigit_lt (d : ℕ) (h : d < 16) : (hexDigit d).val < 0xD800 := by
  unfold hexDigit
  split_ifs <;> simp only [Fin.val_ofNat] <;> omega

theorem isText_unicodeEscape (n : ℕ) : IsText (unicodeEscape n) := by
  refine (isText_js _).append (isText_of_lt fun u hu => ?_)
  have hmod : ∀ m, m % 16 < 16 := fun m => Nat.mod_lt m (by norm_num)
  simp only [List.mem_cons, List.not_mem_nil, or_false] at hu
  rcases hu with rfl | rfl | rfl | rfl <;> exact hexDigit_lt _ (hmod _)

theorem isText_escapeCodePoint (p : CodePoint) : IsText (escapeCodePoint p) := by
  cases p with
  | surrogate u => exact isText_unicodeEscape _
  | scalar c =>
    simp only [escapeCodePoint]
    split_ifs
    all_goals first | exact isText_js _ | exact isText_unicodeEscape _ | exact isText_utf16 c

theorem isText_quote (s : JsString) : IsText (quote s) :=
  ((isText_js _).append (isText_flatMap fun p _ => isText_escapeCodePoint p)).append (isText_js _)

theorem isText_joinComma {ts : List JsString} (h : ∀ t ∈ ts, IsText t) : IsText (joinComma ts) := by
  induction ts with
  | nil => exact isText_nil
  | cons t ts ih =>
    have ht := h t (by simp)
    cases ts with
    | nil => exact ht
    | cons t' ts => exact (ht.append (isText_js _)).append (ih fun s hs => h s (by simp [hs]))

theorem isText_numberText (x : ℚ) : IsText (numberText (.finite x)) :=
  isText_of_lt fun u hu => by
    have := isNumberUnit_numberText x u hu
    simp only [IsNumberUnit, isDigit, decide_eq_true_eq] at this
    omega

/-- JSON text has no lone surrogate. -/
theorem isText_jsonText {v : JsValue} (h : IsJson v) : IsText (jsonText v) := by
  induction h with
  | null => exact isText_js _
  | bool b => cases b <;> exact isText_js _
  | int n => exact isText_numberText n
  | str s => exact isText_quote s
  | @arr items _ ih =>
    rw [jsonText, jsonItems_eq]
    refine ((isText_js _).append (isText_joinComma fun t ht => ?_)).append (isText_js _)
    obtain ⟨v, hv, rfl⟩ := List.mem_map.mp ht
    exact ih v hv
  | @obj props hn hj ih =>
    rw [jsonText_obj hj]
    refine ((isText_js _).append (isText_joinComma fun t ht => ?_)).append (isText_js _)
    obtain ⟨p, hp, rfl⟩ := List.mem_map.mp ht
    exact ((isText_quote _).append (isText_js _)).append
      (ih p ((ownOrder_perm props).mem_iff.mp hp))

/-! ## Canonical text -/

/-- The bytes of the JSON text of a value whose keys have been sorted. -/
def canonicalBytes (v : JsValue) : List UInt8 := utf8 (jsonText v.sortKeys)

/-- Canonical bytes are equal for values that are equal up to key order, and no others. -/
theorem canonicalBytes_eq_iff {v w : JsValue} (hv : IsJson v) (hw : IsJson w) :
    canonicalBytes v = canonicalBytes w ↔ JsonEq v w := by
  constructor
  · intro h
    have htext := utf8_injOn (isText_jsonText hv.sortKeys) (isText_jsonText hw.sortKeys) h
    have hsorted := jsonEq_of_jsonText hv.sortKeys hw.sortKeys htext
    exact ((sortKeys_jsonEq hv.uniqueKeys).symm.trans hsorted).trans (sortKeys_jsonEq hw.uniqueKeys)
  · intro h
    rw [canonicalBytes, canonicalBytes, (sortKeys_eq_iff hv.uniqueKeys hw.uniqueKeys).mpr h]

end Wns.Ecma
