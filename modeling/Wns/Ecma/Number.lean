import Mathlib.Algebra.Field.Rat
import Mathlib.Data.Nat.Digits.Lemmas
import Mathlib.Data.Rat.Cast.Order
import Mathlib.Tactic.NormNum
import Mathlib.Tactic.Positivity
import Mathlib.Tactic.Ring
import Wns.Ecma.Text

/-!
# ECMAScript numbers

Finite Number values are read as exact rationals; rounding and the sign of zero
are not modelled. Safe integers are exact either way.

* `numberText`: Number::toString.
* `parseNumber`: the JSON number grammar, `-? int frac? exp?`.
* `parseNumber_numberText`: an integer is read back from its text.
-/

namespace Wns.Ecma

/-- A Number value. -/
inductive JsNumber
  | finite (x : ℚ)
  | infinite (negative : Bool)
  | nan
  deriving DecidableEq

/-- `Number.MAX_SAFE_INTEGER`. -/
def maxSafeInteger : ℕ := 9007199254740991

/-- A natural number that `Number.isSafeInteger` accepts. -/
abbrev SafeNat := {n : ℕ // n ≤ maxSafeInteger}

/-- `Number.isInteger`. -/
def JsNumber.isInteger : JsNumber → Prop
  | .finite x => x.den = 1
  | _ => False

/-- `Number.isSafeInteger`. -/
def JsNumber.isSafeInteger : JsNumber → Prop
  | .finite x => x.den = 1 ∧ x.num.natAbs ≤ maxSafeInteger
  | _ => False

instance : DecidablePred JsNumber.isInteger
  | .finite x => inferInstanceAs (Decidable (x.den = 1))
  | .infinite _ => inferInstanceAs (Decidable False)
  | .nan => inferInstanceAs (Decidable False)

instance : DecidablePred JsNumber.isSafeInteger
  | .finite x => inferInstanceAs (Decidable (x.den = 1 ∧ x.num.natAbs ≤ maxSafeInteger))
  | .infinite _ => inferInstanceAs (Decidable False)
  | .nan => inferInstanceAs (Decidable False)

/-! ## Arithmetic -/

namespace JsNumber

/-- `x + y`. -/
def add : JsNumber → JsNumber → JsNumber
  | .finite x, .finite y => .finite (x + y)
  | .infinite a, .infinite b => if a = b then .infinite a else .nan
  | .infinite a, .finite _ => .infinite a
  | .finite _, .infinite b => .infinite b
  | _, _ => .nan

/-- `x / y`. -/
def div : JsNumber → JsNumber → JsNumber
  | .finite x, .finite y =>
    if y = 0 then (if x = 0 then .nan else .infinite (x < 0)) else .finite (x / y)
  | .finite _, .infinite _ => .finite 0
  | .infinite a, .finite y => .infinite (a ^^ (y < 0))
  | _, _ => .nan

theorem add_finite (x y : ℚ) : add (.finite x) (.finite y) = .finite (x + y) := rfl

theorem div_finite (x : ℚ) {y : ℚ} (h : y ≠ 0) : div (.finite x) (.finite y) = .finite (x / y) :=
  if_neg h

end JsNumber

/-! ## Number::toString -/

/-- The code unit of a decimal digit. -/
def digitUnit (d : ℕ) : CodeUnit := Fin.ofNat 65536 (0x30 + d)

/-- The decimal digits of `n`, most significant first. -/
def natDigits (n : ℕ) : List ℕ := if n = 0 then [0] else (Nat.digits 10 n).reverse

/-- `String(n)` of an array index. -/
def natText (n : ℕ) : JsString := (natDigits n).map digitUnit

/-- The number of decimals of a rational with denominator `den`, when there are
    finitely many. -/
def decimals (den : ℕ) : ℕ :=
  ((List.range (Nat.log2 den + 1)).find? fun f => 10 ^ f % den = 0).getD 0

/-- Number::toString of a positive number with significant digits `ds` and the
    decimal point after the first `n` of them. -/
def positiveText (ds : List ℕ) (n : ℤ) : JsString :=
  let k : ℤ := ds.length
  let digits := ds.map digitUnit
  if k ≤ n ∧ n ≤ 21 then digits ++ List.replicate (n - k).toNat (digitUnit 0)
  else if 0 < n ∧ n ≤ 21 then digits.take n.toNat ++ "." ++ digits.drop n.toNat
  else if -6 < n ∧ n ≤ 0 then "0." ++ List.replicate (-n).toNat (digitUnit 0) ++ digits
  else
    let mantissa := if k = 1 then digits else digits.take 1 ++ "." ++ digits.drop 1
    mantissa ++ "e" ++ (if n - 1 < 0 then "-" else "+") ++ natText (n - 1).natAbs

/-- The digits of the magnitude of `x` scaled by `10 ^ decimals`, trailing zeros
    included. -/
def scaledDigits (x : ℚ) : List ℕ := natDigits (x.num.natAbs * 10 ^ decimals x.den / x.den)

/-- Number::toString. -/
def numberText : JsNumber → JsString
  | .nan => "NaN"
  | .infinite negative => if negative then "-Infinity" else "Infinity"
  | .finite x =>
    if x = 0 then "0"
    else
      (if x < 0 then "-" else "") ++
        positiveText ((scaledDigits x).rdropWhile (· = 0))
          ((scaledDigits x).length - decimals x.den)

/-! ## The number grammar of JSON -/

/-- A code unit `0 … 9`. -/
def isDigit (u : CodeUnit) : Bool := 0x30 ≤ u.val ∧ u.val ≤ 0x39

/-- Splits the longest prefix of digits off. -/
def takeDigits (s : JsString) : List ℕ × JsString :=
  ((s.takeWhile isDigit).map fun u => u.val - 0x30, s.dropWhile isDigit)

/-- The natural number with decimal digits `ds`, most significant first. -/
def digitsNat (ds : List ℕ) : ℕ := Nat.ofDigits 10 ds.reverse

/-- `m · 10 ^ e`. -/
def decimalValue (m : ℕ) (e : ℤ) : ℚ :=
  if 0 ≤ e then ((m * 10 ^ e.toNat : ℕ) : ℚ) else (m : ℚ) / ((10 ^ (-e).toNat : ℕ) : ℚ)

/-- `frac`: a point and at least one digit, or nothing. -/
def parseFraction (s : JsString) : Option (List ℕ × JsString) :=
  match s with
  | u :: r =>
    if u.val = 0x2E then
      let (ds, r') := takeDigits r
      if ds = [] then none else some (ds, r')
    else some ([], s)
  | [] => some ([], s)

/-- The sign of an exponent. -/
def parseExponentSign (s : JsString) : Bool × JsString :=
  match s with
  | u :: r => if u.val = 0x2B then (false, r) else if u.val = 0x2D then (true, r) else (false, s)
  | [] => (false, s)

/-- `exp`: `e` or `E`, a sign or none, and at least one digit; or nothing. -/
def parseExponent (s : JsString) : Option (ℤ × JsString) :=
  match s with
  | u :: r =>
    if u.val = 0x65 ∨ u.val = 0x45 then
      let (negative, r') := parseExponentSign r
      let (ds, r'') := takeDigits r'
      if ds = [] then none
      else some (if negative then -(digitsNat ds : ℤ) else digitsNat ds, r'')
    else some (0, s)
  | [] => some (0, s)

/-- `int frac? exp?`. The integer part has no leading zero. -/
def parseUnsigned (s : JsString) : Option (ℚ × JsString) :=
  let (int, r) := takeDigits s
  if int = [] ∨ (int.head? = some 0 ∧ int.length ≠ 1) then none
  else do
    let (frac, r) ← parseFraction r
    let (exp, r) ← parseExponent r
    some (decimalValue (digitsNat (int ++ frac)) (exp - frac.length), r)

/-- A JSON number at the start of `s`, and what follows it. -/
def parseNumber (s : JsString) : Option (JsNumber × JsString) :=
  match s with
  | u :: r =>
    if u.val = 0x2D then (parseUnsigned r).map fun (x, r') => (.finite (-x), r')
    else (parseUnsigned s).map fun (x, r') => (.finite x, r')
  | [] => none

/-! ## Digits -/

theorem natDigits_ne_nil (n : ℕ) : natDigits n ≠ [] := by
  unfold natDigits
  split_ifs with h
  · simp
  · simpa using Nat.digits_ne_nil_iff_ne_zero.mpr h

theorem natDigits_lt {n d : ℕ} (h : d ∈ natDigits n) : d < 10 := by
  unfold natDigits at h
  split_ifs at h
  · simp at h; omega
  · exact Nat.digits_lt_base (by norm_num) (List.mem_reverse.mp h)

@[simp] theorem digitsNat_natDigits (n : ℕ) : digitsNat (natDigits n) = n := by
  unfold natDigits digitsNat
  split_ifs with h
  · simp [h]
  · rw [List.reverse_reverse, Nat.ofDigits_digits]

theorem digitsNat_append_zeros (ds : List ℕ) (z : ℕ) :
    digitsNat (ds ++ List.replicate z 0) = digitsNat ds * 10 ^ z := by
  unfold digitsNat
  rw [List.reverse_append, Nat.ofDigits_append, List.reverse_replicate, List.length_replicate,
    Nat.ofDigits_replicate_zero, zero_add, mul_comm]

theorem natDigits_head (n : ℕ) : (natDigits n).head? = some 0 → (natDigits n).length = 1 := by
  unfold natDigits
  split_ifs with h
  · simp
  · intro h0
    rw [List.head?_reverse] at h0
    have hne := Nat.digits_ne_nil_iff_ne_zero (b := 10) |>.mpr h
    rw [List.getLast?_eq_some_getLast hne] at h0
    exact absurd (Option.some.inj h0) (Nat.getLast_digit_ne_zero 10 h)

theorem digitUnit_val {d : ℕ} (h : d < 10) : (digitUnit d).val = 0x30 + d := by
  simp only [digitUnit, Fin.val_ofNat]; omega

theorem isDigit_digitUnit {d : ℕ} (h : d < 10) : isDigit (digitUnit d) = true := by
  simp [isDigit, digitUnit_val h]
  omega

/-! ## The units of a number -/

/-- A code unit of a JSON number as `numberText` writes it. -/
def IsNumberUnit (u : CodeUnit) : Prop :=
  isDigit u = true ∨ u.val = 0x2B ∨ u.val = 0x2D ∨ u.val = 0x2E ∨ u.val = 0x65

theorem isNumberUnit_digits {ds : List ℕ} (h : ∀ d ∈ ds, d < 10) :
    ∀ u ∈ ds.map digitUnit, IsNumberUnit u := by
  intro u hu
  obtain ⟨d, hd, rfl⟩ := List.mem_map.mp hu
  exact .inl (isDigit_digitUnit (h d hd))

theorem isNumberUnit_positiveText {ds : List ℕ} (h : ∀ d ∈ ds, d < 10) (n : ℤ) :
    ∀ u ∈ positiveText ds n, IsNumberUnit u := by
  have hpoint : js "." = [0x2E] := by decide
  have hzero : js "0." = [0x30, 0x2E] := by decide
  have he : js "e" = [0x65] := by decide
  have hminus : js "-" = [0x2D] := by decide
  have hplus : js "+" = [0x2B] := by decide
  have hds := isNumberUnit_digits h
  have htake : ∀ m, ∀ u ∈ (ds.map digitUnit).take m, IsNumberUnit u := fun m u hu =>
    hds u (List.mem_of_mem_take hu)
  have hdrop : ∀ m, ∀ u ∈ (ds.map digitUnit).drop m, IsNumberUnit u := fun m u hu =>
    hds u (List.mem_of_mem_drop hu)
  have hzeros : ∀ m, ∀ u ∈ List.replicate m (digitUnit 0), IsNumberUnit u := fun m u hu =>
    List.eq_of_mem_replicate hu ▸ .inl (isDigit_digitUnit (by norm_num))
  have hnat : ∀ m, ∀ u ∈ natText m, IsNumberUnit u := fun m =>
    isNumberUnit_digits fun d hd => natDigits_lt hd
  have hmarks : IsNumberUnit 0x2E ∧ IsNumberUnit 0x30 ∧ IsNumberUnit 0x65 ∧ IsNumberUnit 0x2D ∧
      IsNumberUnit 0x2B := by
    unfold IsNumberUnit isDigit
    decide
  unfold positiveText
  dsimp only
  split_ifs <;> simp only [List.forall_mem_append, hpoint, hzero, he, hminus, hplus,
    List.forall_mem_cons, List.not_mem_nil, false_implies, implies_true, and_true]
  · exact ⟨hds, hzeros _⟩
  · exact ⟨⟨htake _, hmarks.1⟩, hdrop _⟩
  · exact ⟨⟨⟨hmarks.2.1, hmarks.1⟩, hzeros _⟩, hds⟩
  · exact ⟨⟨⟨hds, hmarks.2.2.1⟩, hmarks.2.2.2.1⟩, hnat _⟩
  · exact ⟨⟨⟨hds, hmarks.2.2.1⟩, hmarks.2.2.2.2⟩, hnat _⟩
  · exact ⟨⟨⟨⟨⟨htake _, hmarks.1⟩, hdrop _⟩, hmarks.2.2.1⟩, hmarks.2.2.2.1⟩, hnat _⟩
  · exact ⟨⟨⟨⟨⟨htake _, hmarks.1⟩, hdrop _⟩, hmarks.2.2.1⟩, hmarks.2.2.2.2⟩, hnat _⟩

/-- A number is written with digits, signs, points and exponents. -/
theorem isNumberUnit_numberText (x : ℚ) : ∀ u ∈ numberText (.finite x), IsNumberUnit u := by
  have hzero : js "0" = [0x30] := by decide
  have hminus : js "-" = [0x2D] := by decide
  have hds : ∀ d ∈ (scaledDigits x).rdropWhile (· = 0), d < 10 := fun d hd =>
    natDigits_lt ((List.rdropWhile_prefix _ _).subset hd)
  have hmarks : IsNumberUnit 0x30 ∧ IsNumberUnit 0x2D := by
    unfold IsNumberUnit isDigit
    decide
  simp only [numberText]
  split_ifs
  · simpa [hzero] using hmarks.1
  · simpa [hminus] using ⟨hmarks.2, isNumberUnit_positiveText hds _⟩
  · simpa [show js "" = [] from rfl] using isNumberUnit_positiveText hds _

/-! ## Reading integers back -/

/-- Nothing that could continue a number stands at the start of `r`. -/
def EndsNumber (r : JsString) : Prop :=
  ∀ u ∈ r.head?, isDigit u = false ∧ u.val ≠ 0x2E ∧ u.val ≠ 0x65 ∧ u.val ≠ 0x45

/-- A run of digits is split off whole when no digit follows. -/
theorem takeDigits_append {ds : List ℕ} (hd : ∀ d ∈ ds, d < 10) {r : JsString}
    (hr : ∀ u ∈ r.head?, isDigit u = false) : takeDigits (ds.map digitUnit ++ r) = (ds, r) := by
  have hall : ∀ u ∈ ds.map digitUnit, isDigit u = true := by
    intro u hu
    obtain ⟨d, hd', rfl⟩ := List.mem_map.mp hu
    exact isDigit_digitUnit (hd d hd')
  have hstop : r.takeWhile isDigit = [] ∧ r.dropWhile isDigit = r := by
    cases r with
    | nil => simp
    | cons u r => simp [hr u (by simp)]
  have hval : (ds.map digitUnit).map (fun u => u.val - 0x30) = ds := by
    rw [List.map_map]
    conv_rhs => rw [← List.map_id ds]
    refine List.map_congr_left fun d h => ?_
    simp [digitUnit_val (hd d h)]
  unfold takeDigits
  rw [List.takeWhile_append_of_pos hall, List.dropWhile_append_of_pos hall, hstop.1, hstop.2,
    List.append_nil, hval]

theorem parseFraction_none {r : JsString} (hr : EndsNumber r) : parseFraction r = some ([], r) := by
  cases r with
  | nil => rfl
  | cons u r => simp [parseFraction, (hr u (by simp)).2.1]

theorem parseExponent_none {r : JsString} (hr : EndsNumber r) : parseExponent r = some (0, r) := by
  cases r with
  | nil => rfl
  | cons u r =>
    obtain ⟨-, -, h1, h2⟩ := hr u (by simp)
    simp [parseExponent, h1, h2]

theorem EndsNumber.not_digit {r : JsString} (hr : EndsNumber r) :
    ∀ u ∈ r.head?, isDigit u = false := fun u hu => (hr u hu).1

/-- The plain decimal digits of `n` are read as `n`. -/
theorem parseUnsigned_natDigits (n : ℕ) {r : JsString} (hr : EndsNumber r) :
    parseUnsigned ((natDigits n).map digitUnit ++ r) = some ((n : ℚ), r) := by
  unfold parseUnsigned
  rw [takeDigits_append (fun d h => natDigits_lt h) hr.not_digit]
  have hhead := natDigits_head n
  simp [natDigits_ne_nil, parseFraction_none hr, parseExponent_none hr, decimalValue]
  exact hhead

/-- Exponent notation with no more decimals than the exponent is read as an
    integer. -/
theorem parseUnsigned_exponent {d : ℕ} {ds : List ℕ} {e : ℕ} (hd : d ≠ 0) (hd' : d < 10)
    (hds : ∀ x ∈ ds, x < 10) (he : ds.length ≤ e) {r : JsString} (hr : EndsNumber r) :
    parseUnsigned ((if ds = [] then [digitUnit d] else [digitUnit d] ++ "." ++ ds.map digitUnit) ++
      "e" ++ "+" ++ natText e ++ r) =
      some (((digitsNat (d :: ds) * 10 ^ (e - ds.length) : ℕ) : ℚ), r) := by
  have hp : js "e" ++ (js "+" ++ (natText e ++ r)) = 0x65 :: 0x2B :: (natText e ++ r) := by rfl
  have hexp : parseExponent (js "e" ++ (js "+" ++ (natText e ++ r))) = some ((e : ℤ), r) := by
    rw [hp]
    simp [parseExponent, parseExponentSign, natText,
      takeDigits_append (fun d h => natDigits_lt h) hr.not_digit, natDigits_ne_nil]
  have hexp' : ∀ u ∈ (js "e" ++ (js "+" ++ (natText e ++ r))).head?, isDigit u = false := by
    rw [hp]
    simp
    decide
  have hvalue : decimalValue (digitsNat (d :: ds)) ((e : ℤ) - ds.length) =
      ((digitsNat (d :: ds) * 10 ^ (e - ds.length) : ℕ) : ℚ) := by
    have : ((e : ℤ) - ds.length).toNat = e - ds.length := by omega
    rw [decimalValue, if_pos (by omega), this]
  have hsingle : ∀ x ∈ [d], x < 10 := by simpa using hd'
  by_cases hnil : ds = []
  · subst hnil
    have := takeDigits_append hsingle hexp'
    simp only [List.map_cons, List.map_nil] at this
    unfold parseUnsigned
    simp only [if_true, List.append_assoc, this]
    have hfrac : parseFraction (js "e" ++ (js "+" ++ (natText e ++ r))) =
        some ([], js "e" ++ (js "+" ++ (natText e ++ r))) := rfl
    simpa [hd, hfrac, hexp] using hvalue
  · have hpoint : js "." ++ (ds.map digitUnit ++ (js "e" ++ (js "+" ++ (natText e ++ r)))) =
        0x2E :: (ds.map digitUnit ++ (js "e" ++ (js "+" ++ (natText e ++ r)))) := rfl
    have := takeDigits_append hsingle
      (r := js "." ++ (ds.map digitUnit ++ (js "e" ++ (js "+" ++ (natText e ++ r)))))
      (by rw [hpoint]; simp; decide)
    simp only [List.map_cons, List.map_nil] at this
    unfold parseUnsigned
    simp only [hnil, if_false, List.append_assoc, this]
    have hfrac : parseFraction
        (js "." ++ (ds.map digitUnit ++ (js "e" ++ (js "+" ++ (natText e ++ r))))) =
        some (ds, js "e" ++ (js "+" ++ (natText e ++ r))) := by
      rw [hpoint]
      simp [parseFraction, takeDigits_append hds hexp', hnil]
    simpa [hd, hfrac, hexp] using hvalue

/-- The significant digits of `m` and the zeros stripped off them. -/
theorem natDigits_split (m : ℕ) : ∃ z, natDigits m =
    (natDigits m).rdropWhile (· = 0) ++ List.replicate z 0 := by
  obtain ⟨t, ht⟩ := List.rdropWhile_prefix (fun d : ℕ => d = 0) (l := natDigits m)
  have hsplit := List.rdropWhile_append_rtakeWhile (p := fun d : ℕ => decide (d = 0))
    (l := natDigits m)
  refine ⟨((natDigits m).rtakeWhile (· = 0)).length, ?_⟩
  conv_lhs => rw [← hsplit]
  congr 1
  refine List.eq_replicate_iff.mpr ⟨rfl, fun d hd => ?_⟩
  simpa using List.mem_rtakeWhile_imp hd

/-- The text of a positive integer is read as that integer. -/
theorem parseUnsigned_positiveText {m : ℕ} (hm : m ≠ 0) {r : JsString} (hr : EndsNumber r) :
    parseUnsigned (positiveText ((natDigits m).rdropWhile (· = 0)) (natDigits m).length ++ r) =
      some ((m : ℚ), r) := by
  obtain ⟨z, hz⟩ := natDigits_split m
  set ds := (natDigits m).rdropWhile (· = 0) with hds
  have hlen : (natDigits m).length = ds.length + z := by
    conv_lhs => rw [hz]
    simp
  have hlt : ∀ d ∈ ds, d < 10 := fun d hd => natDigits_lt (by rw [hz]; simp [hd])
  unfold positiveText
  by_cases h21 : (natDigits m).length ≤ 21
  · have htext : ds.map digitUnit ++ List.replicate z (digitUnit 0) =
        (natDigits m).map digitUnit := by
      rw [hz, List.map_append, List.map_replicate]
    have hz' : (((natDigits m).length : ℤ) - ds.length).toNat = z := by omega
    simp only [hz', htext]
    rw [if_pos (by omega)]
    exact parseUnsigned_natDigits m hr
  · -- more than 21 digits: exponent notation
    have hne : ds ≠ [] := by
      intro h
      have hzero := digitsNat_append_zeros ds z
      rw [← hz, digitsNat_natDigits, h] at hzero
      simp [digitsNat] at hzero
      exact hm hzero
    obtain ⟨d, ds', hcons⟩ := List.exists_cons_of_ne_nil hne
    have hd0 : d ≠ 0 := by
      intro h0
      have hhead := natDigits_head m (by rw [hz, hcons, h0]; rfl)
      omega
    have hlen' : ds.length = ds'.length + 1 := by rw [hcons]; rfl
    have hvalue : digitsNat (d :: ds') * 10 ^ ((natDigits m).length - 1 - ds'.length) = m := by
      have he : (natDigits m).length - 1 - ds'.length = z := by omega
      rw [he, ← hcons, ← digitsNat_append_zeros, ← hz, digitsNat_natDigits]
    have hds' : ∀ x ∈ ds', x < 10 := fun x hx => hlt x (by simp [hcons, hx])
    have hexp := parseUnsigned_exponent (e := (natDigits m).length - 1) hd0
      (hlt d (by simp [hcons])) hds' (by omega) hr
    rw [hvalue] at hexp
    have habs : (((natDigits m).length : ℤ) - 1).natAbs = (natDigits m).length - 1 := by omega
    rw [if_neg (by omega), if_neg (by omega), if_neg (by omega)]
    simp only [habs, if_neg (show ¬ ((natDigits m).length : ℤ) - 1 < 0 by omega)]
    rw [← hexp]
    congr 5
    by_cases hnil : ds' = []
    · simp [hcons, hnil]
    · have : ds'.length ≠ 0 := by simpa using hnil
      simp only [hcons, hnil, if_false, List.map_cons, List.length_cons]
      rw [if_neg (by omega)]
      rfl

/-- What `int frac? exp?` accepts starts with a digit, so it has no sign. -/
theorem parseNumber_of_parseUnsigned {s r : JsString} {x : ℚ} (h : parseUnsigned s = some (x, r)) :
    parseNumber s = some (.finite x, r) := by
  cases s with
  | nil => simp [parseUnsigned, takeDigits] at h
  | cons u s =>
    have hu : u.val ≠ 0x2D := by
      intro hu
      have : isDigit u = false := by simp [isDigit, hu]
      simp [parseUnsigned, takeDigits, this] at h
    simp [parseNumber, hu, h]

theorem scaledDigits_intCast (n : ℤ) : scaledDigits n = natDigits n.natAbs := by
  have h1 : decimals 1 = 0 := by decide
  simp [scaledDigits, h1]

/-- An integer is read back from its text. -/
theorem parseNumber_numberText (n : ℤ) {r : JsString} (hr : EndsNumber r) :
    parseNumber (numberText (.finite n) ++ r) = some (.finite n, r) := by
  have h1 : decimals 1 = 0 := by decide
  unfold numberText
  by_cases h0 : n = 0
  · subst h0
    have h := parseUnsigned_natDigits 0 hr
    have h0 : js "0" = (natDigits 0).map digitUnit := by decide
    exact parseNumber_of_parseUnsigned (by simpa [h0] using h)
  · have hm := parseUnsigned_positiveText (m := n.natAbs) (by omega) hr
    have hq : (n : ℚ) ≠ 0 := by exact_mod_cast h0
    simp only [hq, if_false, scaledDigits_intCast, Rat.den_intCast, h1, Nat.cast_zero, sub_zero]
    rcases lt_or_gt_of_ne h0 with hneg | hpos
    · have hq' : (n : ℚ) < 0 := by exact_mod_cast hneg
      have habs : -((n.natAbs : ℕ) : ℚ) = n := by
        rw [Nat.cast_natAbs, abs_of_neg hneg]; push_cast; ring
      rw [if_pos hq', List.append_assoc]
      have hminus : ∀ s : JsString, js "-" ++ s = 0x2D :: s := fun s => rfl
      simp only [hminus, parseNumber, hm, Option.map_some, habs]
      rfl
    · have hq' : ¬ (n : ℚ) < 0 := by exact_mod_cast (by omega : ¬ n < 0)
      have habs : ((n.natAbs : ℕ) : ℚ) = n := by
        rw [Nat.cast_natAbs, abs_of_pos hpos]
      rw [if_neg hq']
      rw [habs] at hm
      exact parseNumber_of_parseUnsigned hm

end Wns.Ecma
