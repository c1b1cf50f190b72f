import Wns.Ecma.Decode
import Wns.Ecma.Json

/-!
# Coercions and strict equality

What `+ 1`, `>`, `===` and a spread array do with values of any type. Code that
reads the properties of a plan it was handed does not check their types first.

* `addOne_nat`, `exceeds_nat`: on counters these are the operations on numbers.
-/

namespace Wns.Ecma

open JsValue

/-! ## Conversion to strings and numbers -/

mutual

/-- ToString. A plain object with a `toString` of its own, which as data is not
    callable, has no string. -/
def toText : JsValue → Throws JsString
  | .undefined => .ok "undefined"
  | .null => .ok "null"
  | .bool b => .ok (if b then "true" else "false")
  | .num x => .ok (numberText x)
  | .str s => .ok s
  | .arr items => do
    let texts ← itemTexts items
    pure (joinComma texts)
  | .obj ps =>
    if js "toString" ∈ names ps then throwType "Cannot convert object to primitive value"
    else .ok "[object Object]"

/-- The items of `Array.prototype.join`. -/
def itemTexts : List JsValue → Throws (List JsString)
  | [] => .ok []
  | v :: vs => do
    let t ← if v = .undefined ∨ v = .null then .ok [] else toText v
    let ts ← itemTexts vs
    pure (t :: ts)

end

/-- Digits of a radix up to 16, and nothing else. -/
def parseRadix (radix : ℕ) (s : JsString) : Option ℕ := do
  let ds ← s.mapM hexValue
  if ds = [] ∨ ∃ d ∈ ds, radix ≤ d then none else some (Nat.ofDigits radix ds.reverse)

/-- StrUnsignedDecimalLiteral. -/
def parseDecimal (s : JsString) : Option JsNumber :=
  if s = js "Infinity" then some (.infinite false)
  else
    let (int, r) := takeDigits s
    let (frac, r) := if r.head? = some 0x2E then takeDigits r.tail else ([], r)
    if int = [] ∧ frac = [] then none
    else
      match parseExponent r with
      | some (exp, []) =>
        some (.finite (decimalValue (digitsNat (int ++ frac)) (exp - frac.length)))
      | _ => none

/-- StringToNumber. -/
def stringToNumber (s : JsString) : JsNumber :=
  match trim s with
  | [] => .finite 0
  | 0x2D :: r =>
    match parseDecimal r with
    | some (.finite x) => .finite (-x)
    | some _ => .infinite true
    | none => .nan
  | 0x2B :: r => (parseDecimal r).getD .nan
  | 0x30 :: u :: r =>
    let radix := if u.val ∈ [0x78, 0x58] then 16 else if u.val ∈ [0x6F, 0x4F] then 8
      else if u.val ∈ [0x62, 0x42] then 2 else 10
    if radix = 10 then (parseDecimal (0x30 :: u :: r)).getD .nan
    else ((parseRadix radix r).map fun n => JsNumber.finite n).getD .nan
  | t => (parseDecimal t).getD .nan

/-- ToNumber. -/
def toNumber : JsValue → Throws JsNumber
  | .undefined => .ok .nan
  | .null => .ok (.finite 0)
  | .bool b => .ok (.finite (if b then 1 else 0))
  | .num x => .ok x
  | .str s => .ok (stringToNumber s)
  | .arr items => stringToNumber <$> toText (.arr items)
  | .obj ps => stringToNumber <$> toText (.obj ps)

/-! ## Operators -/

/-- An object or an array. -/
def JsValue.isObject : JsValue → Bool
  | .arr _ => true
  | .obj _ => true
  | _ => false

/-- `x + 1` on numbers. -/
def JsNumber.succ : JsNumber → JsNumber
  | .finite x => .finite (x + 1)
  | x => x

/-- `value + 1`: concatenation if the value is a string or becomes one. -/
def addOne : JsValue → Throws JsValue
  | .str s => .ok (.str (s ++ "1"))
  | .arr items => (fun s => JsValue.str (s ++ "1")) <$> toText (.arr items)
  | .obj ps => (fun s => JsValue.str (s ++ "1")) <$> toText (.obj ps)
  | v => (fun x => JsValue.num x.succ) <$> toNumber v

/-- `n > limit`. -/
def exceeds (n : ℕ) (limit : JsValue) : Throws Bool := do
  match ← toNumber limit with
  | .finite x => pure (x < n)
  | .infinite negative => pure negative
  | .nan => pure false

/-- `===`. Objects and arrays are compared by identity, and those at different places
    of the data are different. -/
def strictEq (v w : JsValue) : Bool := v = w ∧ !v.isObject ∧ v ≠ .num .nan

/-- ToBoolean. -/
def truthy : JsValue → Bool
  | .undefined => false
  | .null => false
  | .bool b => b
  | .num x => x ≠ .finite 0 ∧ x ≠ .nan
  | .str s => s ≠ []
  | _ => true

/-- The items of `[...value]`. -/
def iterate : JsValue → Throws (List JsValue)
  | .arr items => .ok items
  | .str s => .ok ((codePoints s).map fun p => .str p.units)
  | _ => throwType "Spread syntax requires ...iterable[Symbol.iterator] to be a function"

/-- `value.key`, for a key that only plain objects have. -/
def getMember (value : JsValue) (key : JsString) : Throws JsValue :=
  match value with
  | .undefined => throwType ("Cannot read properties of undefined (reading '" ++ key ++ "')")
  | .null => throwType ("Cannot read properties of null (reading '" ++ key ++ "')")
  | .obj ps => .ok (prop ps key)
  | _ => .ok .undefined

theorem addOne_nat (n : ℕ) : addOne (.nat n) = .ok (.nat (n + 1)) := by
  simp [addOne, JsValue.nat, toNumber, Functor.map, Except.map, JsNumber.succ]

theorem exceeds_nat (n m : ℕ) : exceeds n (.nat m) = .ok (decide (m < n)) := by
  simp [exceeds, JsValue.nat, toNumber, bind, Except.bind, pure, Except.pure]

theorem getMember_eq_ok {v w : JsValue} {key : JsString} (hw : w ≠ .undefined) :
    getMember v key = .ok w ↔ ∃ ps, v = .obj ps ∧ prop ps key = w := by
  cases v <;> simp [getMember, hw.symm]

theorem eq_of_strictEq {v w : JsValue} (h : strictEq v w = true) : v = w := by
  simp only [strictEq, decide_eq_true_eq] at h
  exact h.1

theorem strictEq_self {v : JsValue} (hv : v.isObject = false) (hn : v ≠ .num .nan) :
    strictEq v v = true := by
  simp [strictEq, hv, hn]

@[simp] theorem strictEq_nat (n m : ℕ) : strictEq (.nat n) (.nat m) = decide (n = m) := by
  simp only [strictEq, JsValue.nat_inj]
  simp [JsValue.nat, JsValue.isObject]

end Wns.Ecma
