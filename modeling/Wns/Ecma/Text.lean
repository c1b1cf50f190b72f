import Mathlib.Data.Fin.Basic
import Mathlib.Data.List.DropRight
import Mathlib.Data.List.Lex
import Mathlib.Order.Fin.Basic

/-!
# ECMAScript strings

A String value is a finite sequence of UTF-16 code units. Nothing makes the
sequence well formed: a surrogate may stand alone. `length`, `+`, `===` and `<`
on strings are `List.length`, `++`, `=` and the lexicographic `<` here, all of
them code unit by code unit.

* `encode`, `js`: the String value of a sequence of Unicode scalar values.
* `codePoints`: StringToCodePoints, with lone surrogates kept apart.
* `codePoints_units`, `codePoints_encode`: the two directions of the round trip.
* `trim`: `String.prototype.trim`.
-/

namespace Wns.Ecma

/-- A UTF-16 code unit. -/
abbrev CodeUnit := Fin 65536

-- stated for the zero of core, as `Fin` asks for it
instance neZeroCodeUnits : @NeZero ℕ Zero.ofOfNat0 65536 := ⟨by decide⟩

instance : LawfulBEq CodeUnit := inferInstance

/-- A String value. -/
abbrev JsString := List CodeUnit

instance : LawfulBEq JsString := inferInstance

/-- UTF16EncodeCodePoint of a Unicode scalar value. -/
def utf16 (c : Char) : List CodeUnit :=
  if c.toNat < 0x10000 then [Fin.ofNat 65536 c.toNat]
  else [Fin.ofNat 65536 (0xD800 + (c.toNat - 0x10000) / 0x400),
    Fin.ofNat 65536 (0xDC00 + (c.toNat - 0x10000) % 0x400)]

/-- The String value spelling the scalar values `cs`. -/
def encode (cs : List Char) : JsString := cs.flatMap utf16

/-- The String value of a literal. -/
def js (s : String) : JsString := encode s.toList

instance : Coe String JsString := ⟨js⟩

/-- A code unit `0xD800 … 0xDBFF`. -/
def isHigh (u : CodeUnit) : Prop := 0xD800 ≤ u.val ∧ u.val ≤ 0xDBFF

/-- A code unit `0xDC00 … 0xDFFF`. -/
def isLow (u : CodeUnit) : Prop := 0xDC00 ≤ u.val ∧ u.val ≤ 0xDFFF

instance : DecidablePred isHigh := fun _ => inferInstanceAs (Decidable (_ ∧ _))

instance : DecidablePred isLow := fun _ => inferInstanceAs (Decidable (_ ∧ _))

/-- A code point of a String value: a scalar value, or a surrogate that is not
    part of a pair. -/
inductive CodePoint
  | scalar (c : Char)
  | surrogate (u : CodeUnit)
  deriving DecidableEq

/-- The code units of a code point. -/
def CodePoint.units : CodePoint → List CodeUnit
  | .scalar c => utf16 c
  | .surrogate u => [u]

/-- The scalar value of a surrogate pair. -/
def pairChar (hi lo : CodeUnit) : Char :=
  Char.ofNat (0x10000 + (hi.val - 0xD800) * 0x400 + (lo.val - 0xDC00))

/-- StringToCodePoints. -/
def codePoints : JsString → List CodePoint
  | [] => []
  | u :: rest =>
    if isHigh u then
      match rest with
      | v :: rest' =>
        if isLow v then .scalar (pairChar u v) :: codePoints rest'
        else .surrogate u :: codePoints (v :: rest')
      | [] => [.surrogate u]
    else if isLow u then .surrogate u :: codePoints rest
    else .scalar (Char.ofNat u.val) :: codePoints rest

/-- White space and line terminators, as `trim` removes them. -/
def isSpace (u : CodeUnit) : Bool :=
  u.val ∈ [0x09, 0x0A, 0x0B, 0x0C, 0x0D, 0x20, 0xA0, 0x1680, 0x2028, 0x2029, 0x202F, 0x205F,
    0x3000, 0xFEFF] ∨ (0x2000 ≤ u.val ∧ u.val ≤ 0x200A)

/-- `String.prototype.trim`. -/
def trim (s : JsString) : JsString := (s.dropWhile isSpace).rdropWhile isSpace

/-- Printing ASCII characters are not white space. -/
theorem isSpace_eq_false {u : CodeUnit} (h : 0x21 ≤ u.val ∧ u.val ≤ 0x7E) : isSpace u = false := by
  simp only [isSpace, List.mem_cons, List.not_mem_nil, or_false, decide_eq_false_iff_not]
  omega

theorem trim_eq_self {s : JsString} (h : ∀ u ∈ s, isSpace u = false) : trim s = s := by
  have hdrop : s.dropWhile isSpace = s :=
    List.dropWhile_eq_self_iff.mpr fun hl => by simp [h _ (List.getElem_mem hl)]
  rw [trim, hdrop, List.rdropWhile_eq_self_iff]
  intro hl
  simp [h _ (List.getLast_mem hl)]

/-- Printing ASCII characters, the space not among them. -/
def IsPrinting (s : JsString) : Prop := ∀ u ∈ s, 0x21 ≤ u.val ∧ u.val ≤ 0x7E

theorem IsPrinting.append {s t : JsString} (hs : IsPrinting s) (ht : IsPrinting t) :
    IsPrinting (s ++ t) := List.forall_mem_append.mpr ⟨hs, ht⟩

theorem IsPrinting.trim_eq {s : JsString} (h : IsPrinting s) : trim s = s :=
  trim_eq_self fun u hu => isSpace_eq_false (h u hu)

/-! ## Code points and code units -/

theorem char_cases (c : Char) : c.toNat < 0xD800 ∨ 0xDFFF < c.toNat ∧ c.toNat < 0x110000 :=
  c.valid

theorem toNat_ofNat_of_valid {n : ℕ} (h : n.isValidChar) : (Char.ofNat n).toNat = n := by
  rw [Char.ofNat, dif_pos h]
  rfl

theorem utf16_bmp {u : CodeUnit} (hi : ¬ isHigh u) (lo : ¬ isLow u) :
    utf16 (Char.ofNat u.val) = [u] := by
  have hv : u.val.isValidChar := by
    unfold isHigh at hi; unfold isLow at lo; unfold Nat.isValidChar; omega
  rw [utf16, toNat_ofNat_of_valid hv, if_pos u.isLt]
  simp

theorem utf16_pair {u v : CodeUnit} (hi : isHigh u) (lo : isLow v) :
    utf16 (pairChar u v) = [u, v] := by
  obtain ⟨h1, h2⟩ := hi
  obtain ⟨h3, h4⟩ := lo
  have hv : (0x10000 + (u.val - 0xD800) * 0x400 + (v.val - 0xDC00)).isValidChar := by
    unfold Nat.isValidChar; omega
  rw [utf16, pairChar, toNat_ofNat_of_valid hv, if_neg (by omega)]
  have eu : Fin.ofNat 65536 (0xD800 + (0x10000 + (u.val - 0xD800) * 0x400 +
      (v.val - 0xDC00) - 0x10000) / 0x400) = u := by
    apply Fin.ext; simp only [Fin.val_ofNat]; omega
  have ev : Fin.ofNat 65536 (0xDC00 + (0x10000 + (u.val - 0xD800) * 0x400 +
      (v.val - 0xDC00) - 0x10000) % 0x400) = v := by
    apply Fin.ext; simp only [Fin.val_ofNat]; omega
  rw [eu, ev]

/-- The code points of a String value spell it. -/
theorem codePoints_units (s : JsString) : (codePoints s).flatMap CodePoint.units = s := by
  fun_induction codePoints s with
  | case1 => rfl
  | case2 u hi v rest lo ih => simp [CodePoint.units, utf16_pair hi lo, ih]
  | case3 u hi v rest lo ih => simpa [CodePoint.units] using ih
  | case4 u hi => rfl
  | case5 u rest hi lo ih => simp [CodePoint.units, ih]
  | case6 u rest hi lo ih => simp [CodePoint.units, utf16_bmp hi lo, ih]

theorem codePoints_utf16_append (c : Char) (s : JsString) :
    codePoints (utf16 c ++ s) = .scalar c :: codePoints s := by
  have hc := char_cases c
  unfold utf16
  split_ifs with h
  · obtain ⟨u, hu⟩ : ∃ u : CodeUnit, u = Fin.ofNat 65536 c.toNat := ⟨_, rfl⟩
    have eu : u.val = c.toNat := by simp only [hu, Fin.val_ofNat]; omega
    have hi : ¬ isHigh u := by unfold isHigh; omega
    have lo : ¬ isLow u := by unfold isLow; omega
    rw [← hu, List.singleton_append, codePoints.eq_def]
    simp [hi, lo, eu, Char.ofNat_toNat]
  · set u := Fin.ofNat 65536 (0xD800 + (c.toNat - 0x10000) / 0x400) with hu
    set v := Fin.ofNat 65536 (0xDC00 + (c.toNat - 0x10000) % 0x400) with hv
    have eu : u.val = 0xD800 + (c.toNat - 0x10000) / 0x400 := by
      simp only [hu, Fin.val_ofNat]; omega
    have ev : v.val = 0xDC00 + (c.toNat - 0x10000) % 0x400 := by
      simp only [hv, Fin.val_ofNat]; omega
    have hi : isHigh u := by unfold isHigh; omega
    have lo : isLow v := by unfold isLow; omega
    have hp : pairChar u v = c := by
      rw [pairChar, eu, ev]
      have : 0x10000 + (0xD800 + (c.toNat - 0x10000) / 0x400 - 0xD800) * 0x400 +
          (0xDC00 + (c.toNat - 0x10000) % 0x400 - 0xDC00) = c.toNat := by omega
      rw [this, Char.ofNat_toNat]
    rw [List.cons_append, List.singleton_append, codePoints.eq_def]
    simp [hi, lo, hp]

/-- Encoded text has no lone surrogate: its code points are the scalar values. -/
theorem codePoints_encode (cs : List Char) : codePoints (encode cs) = cs.map .scalar := by
  induction cs with
  | nil => rfl
  | cons c cs ih =>
    rw [encode, List.flatMap_cons, codePoints_utf16_append, List.map_cons]
    exact congrArg _ ih

theorem encode_injective : Function.Injective encode := by
  intro cs ds h
  have := congrArg codePoints h
  rw [codePoints_encode, codePoints_encode] at this
  exact List.map_injective_iff.mpr (fun _ _ => CodePoint.scalar.inj) this

@[simp] theorem js_inj {s t : String} : js s = js t ↔ s = t := by
  constructor
  · exact fun h => String.toList_injective (encode_injective h)
  · exact fun h => h ▸ rfl

@[simp] theorem encode_append (cs ds : List Char) : encode (cs ++ ds) = encode cs ++ encode ds :=
  List.flatMap_append

end Wns.Ecma
