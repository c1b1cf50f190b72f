import Wns.Ecma.Decode

/-!
# Canonical timestamps

`new Date(value).toISOString() === value` holds of a string precisely when it is what
`toISOString` writes for some time value, and `Date.parse` reads that time value back.
`dateParse` is `Date.parse` on these strings, and `none` on all others. Time values count
milliseconds of proleptic Gregorian UTC from 1970 on.
-/

namespace Wns.Ecma

/-- The fields of a point in time. -/
structure DateFields where
  year : ℤ
  month : ℕ
  day : ℕ
  hour : ℕ
  minute : ℕ
  second : ℕ
  millisecond : ℕ

/-- InLeapYear. -/
def isLeapYear (year : ℤ) : Prop := year % 4 = 0 ∧ (year % 100 ≠ 0 ∨ year % 400 = 0)

instance : DecidablePred isLeapYear := fun _ => inferInstanceAs (Decidable (_ ∧ _))

/-- The lengths of the months. -/
def monthLengths (year : ℤ) : List ℕ :=
  [31, if isLeapYear year then 29 else 28, 31, 30, 31, 30, 31, 31, 30, 31, 30, 31]

/-- DayFromYear. -/
def dayFromYear (year : ℤ) : ℤ :=
  365 * (year - 1970) + (year - 1969) / 4 - (year - 1901) / 100 + (year - 1601) / 400

namespace DateFields

/-- MakeDate of MakeDay and MakeTime. -/
def timeValue (f : DateFields) : ℤ :=
  (dayFromYear f.year + ((monthLengths f.year).take (f.month - 1)).sum + (f.day - 1)) * 86400000 +
    (((f.hour * 60 + f.minute) * 60 + f.second) * 1000 + f.millisecond : ℕ)

/-- Every field is in its range, and the time value is one (TimeClip). -/
def Valid (f : DateFields) : Prop :=
  (1 ≤ f.month ∧ f.month ≤ 12) ∧ (1 ≤ f.day ∧ f.day ≤ (monthLengths f.year).getD (f.month - 1) 0) ∧
    f.hour < 24 ∧ f.minute < 60 ∧ f.second < 60 ∧ f.millisecond < 1000 ∧
    f.timeValue.natAbs ≤ 8640000000000000

instance : DecidablePred Valid := fun _ => inferInstanceAs (Decidable (_ ∧ _))

end DateFields

/-- The last `width` decimal digits of `n`. -/
def paddedText (width n : ℕ) : JsString :=
  (List.range width).reverse.map fun i => digitUnit (n / 10 ^ i % 10)

/-- The year of a date, expanded to six digits and a sign if four do not hold it. -/
def yearText (year : ℤ) : JsString :=
  if 0 ≤ year ∧ year ≤ 9999 then paddedText 4 year.natAbs
  else (if year < 0 then "-" else "+") ++ paddedText 6 year.natAbs

/-- `toISOString`. -/
def DateFields.toISOString (f : DateFields) : JsString :=
  yearText f.year ++ "-" ++ paddedText 2 f.month ++ "-" ++ paddedText 2 f.day ++ "T" ++
    paddedText 2 f.hour ++ ":" ++ paddedText 2 f.minute ++ ":" ++ paddedText 2 f.second ++ "." ++
    paddedText 3 f.millisecond ++ "Z"

/-- The digits up to the separator `separator`. -/
def readField (separator : CodeUnit) (s : JsString) : Option (ℕ × JsString) :=
  let (digits, rest) := takeDigits s
  if rest.head? = some separator then some (digitsNat digits, rest.tail) else none

/-- The sign of an expanded year, and what follows it. -/
def readSign (s : JsString) : ℤ × JsString :=
  if s.head? = some 0x2D then (-1, s.tail) else if s.head? = some 0x2B then (1, s.tail) else (1, s)

/-- The fields that a timestamp spells out. -/
def readFields (s : JsString) : Option DateFields := do
  let (sign, s) := readSign s
  let (year, s) ← readField 0x2D s
  let (month, s) ← readField 0x2D s
  let (day, s) ← readField 0x54 s
  let (hour, s) ← readField 0x3A s
  let (minute, s) ← readField 0x3A s
  let (second, s) ← readField 0x2E s
  let (millisecond, _) ← readField 0x5A s
  some ⟨sign * year, month, day, hour, minute, second, millisecond⟩

/-- `Date.parse` of a canonical timestamp. -/
def dateParse (s : JsString) : Option ℤ :=
  match readFields s with
  | some f => if f.Valid ∧ f.toISOString = s then some f.timeValue else none
  | none => none

/-- A canonical timestamp is what `toISOString` writes. -/
theorem exists_of_dateParse {s : JsString} {t : ℤ} (h : dateParse s = some t) :
    ∃ f : DateFields, f.Valid ∧ f.toISOString = s ∧ f.timeValue = t := by
  unfold dateParse at h
  split at h
  · next f _ =>
    split_ifs at h with hf
    exact ⟨f, hf.1, hf.2, Option.some.inj h⟩
  · cases h

example : dateParse "2024-02-29T23:59:59.999Z" = some 1709251199999 := by decide +kernel

/-- A canonical timestamp with its time value. -/
structure Timestamp where
  text : JsString
  time : ℤ
  canonical : dateParse text = some time
  deriving DecidableEq

/-- Accepts a canonical timestamp. -/
def timestamp (message : JsString) : JsValue → Throws Timestamp
  | .str s =>
    match h : dateParse s with
    | some time => .ok ⟨s, time, h⟩
    | none => throwType message
  | _ => throwType message

@[simp] theorem timestamp_eq_ok {m : JsString} {v : JsValue} {t : Timestamp} :
    timestamp m v = .ok t ↔ v = .str t.text := by
  cases v with
  | str s =>
    rw [timestamp, JsValue.str.injEq]
    obtain ⟨text, time, canonical⟩ := t
    split
    · next time' h =>
      rw [Except.ok.injEq, Timestamp.mk.injEq]
      constructor
      · exact And.left
      · rintro rfl
        exact ⟨rfl, Option.some.inj (h.symm.trans canonical)⟩
    · next h =>
      simp only [throwType_eq_ok, false_iff]
      rintro rfl
      simp [canonical] at h
  | _ => simp [timestamp]

end Wns.Ecma
