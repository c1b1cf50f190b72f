import Mathlib.Data.List.Sort
import Wns.Ecma.Value

/-!
# `JSON.stringify` and `JSON.parse`

`jsonText` is SerializeJSONProperty without indentation, replacer or `toJSON`.
`parse` is the JSON grammar of ECMA-404 over code units; a later member of an
object overwrites an earlier one of the same name.
-/

namespace Wns.Ecma

open JsValue

/-! ## Serialization -/

/-- A lowercase hexadecimal digit. -/
def hexDigit (d : ℕ) : CodeUnit :=
  if d < 10 then Fin.ofNat 65536 (0x30 + d) else Fin.ofNat 65536 (0x57 + d)

/-- UnicodeEscape. -/
def unicodeEscape (n : ℕ) : JsString :=
  "\\u" ++ [hexDigit (n / 4096 % 16), hexDigit (n / 256 % 16), hexDigit (n / 16 % 16),
    hexDigit (n % 16)]

/-- A code point inside a JSON string literal. -/
def escapeCodePoint : CodePoint → JsString
  | .scalar c =>
    if c.toNat = 0x08 then "\\b"
    else if c.toNat = 0x09 then "\\t"
    else if c.toNat = 0x0A then "\\n"
    else if c.toNat = 0x0C then "\\f"
    else if c.toNat = 0x0D then "\\r"
    else if c.toNat = 0x22 then "\\\""
    else if c.toNat = 0x5C then "\\\\"
    else if c.toNat < 0x20 then unicodeEscape c.toNat
    else utf16 c
  | .surrogate u => unicodeEscape u.val

/-- The escaped characters of a string literal, without the quotes. -/
def escapeString (s : JsString) : JsString := (codePoints s).flatMap escapeCodePoint

/-- QuoteJSONString. -/
def quote (s : JsString) : JsString := "\"" ++ escapeString s ++ "\""

/-- `parts.join(",")`. -/
def joinComma : List JsString → JsString
  | [] => []
  | [t] => t
  | t :: t' :: ts => t ++ "," ++ joinComma (t' :: ts)

/-- A property of an object and the text of its value. -/
def member (p : JsString × JsString) : JsString := quote p.1 ++ ":" ++ p.2

mutual

/-- The JSON text of a value; `undefined` is written as inside an array. -/
def jsonText : JsValue → JsString
  | .undefined => "null"
  | .null => "null"
  | .bool b => if b then "true" else "false"
  | .num (.finite x) => numberText (.finite x)
  | .num _ => "null"
  | .str s => quote s
  | .arr items => "[" ++ joinComma (jsonItems items) ++ "]"
  | .obj props => "\x7b" ++ joinComma ((ownOrder (jsonProps props)).map member) ++ "\x7d"

def jsonItems : List JsValue → List JsString
  | [] => []
  | v :: vs => jsonText v :: jsonItems vs

/-- The properties that are not `undefined`, with their texts. -/
def jsonProps : Props → List (JsString × JsString)
  | [] => []
  | (k, v) :: ps => if v = .undefined then jsonProps ps else (k, jsonText v) :: jsonProps ps

end

/-- `JSON.stringify`; the text of `undefined` is `undefined`. -/
def stringify (v : JsValue) : Option JsString :=
  if v = .undefined then none else some (jsonText v)

/-! ## Parsing -/

/-- JSON white space. -/
def isJsonSpace (u : CodeUnit) : Bool := u.val ∈ [0x09, 0x0A, 0x0D, 0x20]

def skipSpace (s : JsString) : JsString := s.dropWhile isJsonSpace

/-- The value of a hexadecimal digit of either case. -/
def hexValue (u : CodeUnit) : Option ℕ :=
  if 0x30 ≤ u.val ∧ u.val ≤ 0x39 then some (u.val - 0x30)
  else if 0x61 ≤ u.val ∧ u.val ≤ 0x66 then some (u.val - 0x57)
  else if 0x41 ≤ u.val ∧ u.val ≤ 0x46 then some (u.val - 0x37)
  else none

/-- The code unit of `\uabcd`. -/
def hexUnit (a b c d : CodeUnit) : Option CodeUnit := do
  let a ← hexValue a
  let b ← hexValue b
  let c ← hexValue c
  let d ← hexValue d
  some (Fin.ofNat 65536 (4096 * a + 256 * b + 16 * c + d))

/-- The code unit of a one-letter escape. -/
def escapeUnit (u : CodeUnit) : Option CodeUnit :=
  if u.val = 0x22 then some 0x22
  else if u.val = 0x5C then some 0x5C
  else if u.val = 0x2F then some 0x2F
  else if u.val = 0x62 then some 0x08
  else if u.val = 0x66 then some 0x0C
  else if u.val = 0x6E then some 0x0A
  else if u.val = 0x72 then some 0x0D
  else if u.val = 0x74 then some 0x09
  else none

/-- The rest of a string literal after its opening quote. -/
def parseString : JsString → Option (JsString × JsString)
  | [] => none
  | u :: s =>
    if u.val = 0x22 then some ([], s)
    else if u.val = 0x5C then
      match s with
      | [] => none
      | e :: s =>
        if e.val = 0x75 then
          match s with
          | a :: b :: c :: d :: s =>
            match hexUnit a b c d with
            | some w => (parseString s).map fun (t, r) => (w :: t, r)
            | none => none
          | _ => none
        else
          match escapeUnit e with
          | some w => (parseString s).map fun (t, r) => (w :: t, r)
          | none => none
    else if u.val < 0x20 then none
    else (parseString s).map fun (t, r) => (u :: t, r)

/-- The value `v` if the rest of its keyword follows. -/
def parseKeyword (rest : JsString) (v : JsValue) (s : JsString) : Option (JsValue × JsString) :=
  if rest.isPrefixOf s then some (v, s.drop rest.length) else none

/-- The object built from the members of a literal. -/
def ofMembers (members : Props) : Props := spread [] members

mutual

/-- A value at the start of `s` and what follows it. The first argument bounds
    the nesting and the number of items. -/
def parseValue : ℕ → JsString → Option (JsValue × JsString)
  | 0, _ => none
  | fuel + 1, s =>
    match skipSpace s with
    | [] => none
    | u :: r =>
      if u.val = 0x22 then (parseString r).map fun (t, r) => (.str t, r)
      else if u.val = 0x5B then
        match skipSpace r with
        | [] => none
        | v :: r' =>
          if v.val = 0x5D then some (.arr [], r')
          else (parseItems fuel (v :: r')).map fun (vs, r) => (.arr vs, r)
      else if u.val = 0x7B then
        match skipSpace r with
        | [] => none
        | v :: r' =>
          if v.val = 0x7D then some (.obj [], r')
          else (parseMembers fuel (v :: r')).map fun (ps, r) => (.obj (ofMembers ps), r)
      else if u.val = 0x6E then parseKeyword "ull" .null r
      else if u.val = 0x74 then parseKeyword "rue" (.bool true) r
      else if u.val = 0x66 then parseKeyword "alse" (.bool false) r
      else (parseNumber (u :: r)).map fun (x, r) => (.num x, r)

/-- Items separated by commas, up to the closing bracket. -/
def parseItems : ℕ → JsString → Option (List JsValue × JsString)
  | 0, _ => none
  | fuel + 1, s =>
    match parseValue fuel s with
    | none => none
    | some (v, r) =>
      match skipSpace r with
      | [] => none
      | u :: r =>
        if u.val = 0x5D then some ([v], r)
        else if u.val = 0x2C then (parseItems fuel r).map fun (vs, r) => (v :: vs, r)
        else none

/-- Members separated by commas, up to the closing brace. -/
def parseMembers : ℕ → JsString → Option (Props × JsString)
  | 0, _ => none
  | fuel + 1, s =>
    match skipSpace s with
    | [] => none
    | q :: s =>
      if q.val = 0x22 then
        match parseString s with
        | none => none
        | some (k, s) =>
          match skipSpace s with
          | [] => none
          | c :: s =>
            if c.val = 0x3A then
              match parseValue fuel s with
              | none => none
              | some (v, r) =>
                match skipSpace r with
                | [] => none
                | u :: r =>
                  if u.val = 0x7D then some ([(k, v)], r)
                  else if u.val = 0x2C then
                    (parseMembers fuel r).map fun (ps, r) => ((k, v) :: ps, r)
                  else none
            else none
      else none

end

/-- `JSON.parse`; `none` stands for a SyntaxError. -/
def parse (s : JsString) : Option JsValue :=
  match parseValue (s.length + 1) s with
  | some (v, r) => if skipSpace r = [] then some v else none
  | none => none

example : parse "\x7b\"b\": [1, -2.5e1, \"\\u0041\\n\"], \"a\": null, \"b\": true\x7d\n" =
    some (.obj [(js "b", .bool true), (js "a", .null)]) := by decide +kernel

end Wns.Ecma
