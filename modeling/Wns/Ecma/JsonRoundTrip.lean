import Wns.Ecma.Json

/-!
# Reading JSON text back

* `parse_jsonText`: a JSON value with integer numbers is read back from its text,
  up to the order in which objects list their keys.
* `jsonEq_of_jsonText`: values with the same text are equal up to key order.
-/

namespace Wns.Ecma

open JsValue

/-- A JSON value all of whose numbers are integers. -/
inductive IsJson : JsValue → Prop
  | null : IsJson .null
  | bool (b : Bool) : IsJson (.bool b)
  | int (n : ℤ) : IsJson (.num (.finite n))
  | str (s : JsString) : IsJson (.str s)
  | arr {items : List JsValue} (h : ∀ v ∈ items, IsJson v) : IsJson (.arr items)
  | obj {props : Props} (hn : (names props).Nodup) (h : ∀ p ∈ props, IsJson p.2) :
      IsJson (.obj props)

theorem IsJson.ne_undefined {v : JsValue} (h : IsJson v) : v ≠ .undefined := by
  cases h <;> simp

theorem isJson_obj {props : Props} :
    IsJson (.obj props) ↔ (names props).Nodup ∧ ∀ p ∈ props, IsJson p.2 :=
  ⟨fun h => by cases h with | obj hn h => exact ⟨hn, h⟩, fun h => .obj h.1 h.2⟩

theorem isJson_arr {items : List JsValue} : IsJson (.arr items) ↔ ∀ v ∈ items, IsJson v :=
  ⟨fun h => by cases h with | arr h => exact h, .arr⟩

@[simp] theorem isJson_nat (n : ℕ) : IsJson (.nat n) := by
  have := IsJson.int n
  simpa [JsValue.nat] using this

@[simp] theorem isJson_bool (b : Bool) : IsJson (.bool b) := .bool b

@[simp] theorem isJson_str (s : JsString) : IsJson (.str s) := .str s

@[simp] theorem isJson_nullable (s : Option JsString) : IsJson (.nullable s) := by
  cases s
  · exact .null
  · exact .str _

theorem IsJson.uniqueKeys {v : JsValue} (h : IsJson v) : UniqueKeys v := by
  induction h with
  | arr _ ih => exact .arr ih
  | obj hn _ ih => exact .obj hn ih
  | _ => exact .primitive trivial

theorem IsJson.sortKeys {v : JsValue} (h : IsJson v) : IsJson v.sortKeys := by
  induction h with
  | arr _ ih =>
    rw [JsValue.sortKeys, sortKeysItems_eq]
    exact .arr (List.forall_mem_map.mpr ih)
  | @obj props hn _ ih =>
    obtain ⟨hnames, hforall⟩ := sortKeys_props hn ih
    exact .obj hnames hforall
  | null => exact .null
  | bool b => exact .bool b
  | int n => exact .int n
  | str s => exact .str s

/-! ## String literals -/

theorem hexValue_hexDigit : ∀ d < 16, hexValue (hexDigit d) = some d := by decide

theorem hexUnit_hexDigit (n : ℕ) :
    hexUnit (hexDigit (n / 4096 % 16)) (hexDigit (n / 256 % 16)) (hexDigit (n / 16 % 16))
      (hexDigit (n % 16)) = some (Fin.ofNat 65536 n) := by
  have hmod : ∀ m, m % 16 < 16 := fun m => Nat.mod_lt m (by norm_num)
  simp only [hexUnit, hexValue_hexDigit _ (hmod _), Option.bind_eq_bind, Option.bind_some,
    Option.some.injEq]
  apply Fin.ext
  simp only [Fin.val_ofNat]
  omega

/-- Prepending the code units `t` to a parsed literal. -/
def prependUnits (t : JsString) (p : JsString × JsString) : JsString × JsString := (t ++ p.1, p.2)

theorem parseString_unit {u : CodeUnit} (h : 0x20 ≤ u.val) (hq : u.val ≠ 0x22)
    (hb : u.val ≠ 0x5C) (s : JsString) :
    parseString (u :: s) = (parseString s).map (prependUnits [u]) := by
  rw [parseString.eq_def]
  simp only [hq, hb, Nat.not_lt.mpr h, if_false]
  rfl

theorem parseString_unicodeEscape (n : ℕ) (s : JsString) :
    parseString (unicodeEscape n ++ s) =
      (parseString s).map (prependUnits [Fin.ofNat 65536 n]) := by
  have hu : js "\\u" = [0x5C, 0x75] := by decide
  simp only [unicodeEscape, hu, List.cons_append, List.nil_append]
  rw [parseString.eq_def]
  simp only [hexUnit_hexDigit]
  rfl

theorem parseString_escapeUnit {e w : CodeUnit} (he : e.val ≠ 0x75) (h : escapeUnit e = some w)
    (s : JsString) : parseString (0x5C :: e :: s) = (parseString s).map (prependUnits [w]) := by
  rw [parseString.eq_def]
  simp only [h, he]
  rfl

theorem parseString_utf16 (c : Char) (h : 0x20 ≤ c.toNat) (hq : c.toNat ≠ 0x22)
    (hb : c.toNat ≠ 0x5C) (s : JsString) :
    parseString (utf16 c ++ s) = (parseString s).map (prependUnits (utf16 c)) := by
  have hc := char_cases c
  unfold utf16
  split_ifs with hs
  · have hv : (Fin.ofNat 65536 c.toNat).val = c.toNat := by simp only [Fin.val_ofNat]; omega
    exact parseString_unit (by omega) (by omega) (by omega) s
  · set u := Fin.ofNat 65536 (0xD800 + (c.toNat - 0x10000) / 0x400) with hu
    set v := Fin.ofNat 65536 (0xDC00 + (c.toNat - 0x10000) % 0x400) with hv
    have eu : u.val = 0xD800 + (c.toNat - 0x10000) / 0x400 := by
      simp only [hu, Fin.val_ofNat]; omega
    have ev : v.val = 0xDC00 + (c.toNat - 0x10000) % 0x400 := by
      simp only [hv, Fin.val_ofNat]; omega
    rw [List.cons_append, List.singleton_append, parseString_unit (by omega) (by omega) (by omega),
      parseString_unit (by omega) (by omega) (by omega), Option.map_map]
    rfl

theorem utf16_ascii {c : Char} {n : ℕ} (h : c.toNat = n) (hn : n < 0x10000) :
    utf16 c = [Fin.ofNat 65536 n] := by
  rw [utf16, if_pos (by omega), h]

/-- The escape of a code point is read as the units of the code point. -/
theorem parseString_escapeCodePoint (p : CodePoint) (s : JsString) :
    parseString (escapeCodePoint p ++ s) = (parseString s).map (prependUnits p.units) := by
  cases p with
  | surrogate u =>
    have hu : Fin.ofNat 65536 u.val = u := by apply Fin.ext; simp
    simpa [escapeCodePoint, CodePoint.units, hu] using parseString_unicodeEscape u.val s
  | scalar c =>
    simp only [escapeCodePoint, CodePoint.units]
    split_ifs with h1 h2 h3 h4 h5 h6 h7 h8
    · rw [utf16_ascii h1 (by norm_num)]; exact parseString_escapeUnit (by decide) (by decide) s
    · rw [utf16_ascii h2 (by norm_num)]; exact parseString_escapeUnit (by decide) (by decide) s
    · rw [utf16_ascii h3 (by norm_num)]; exact parseString_escapeUnit (by decide) (by decide) s
    · rw [utf16_ascii h4 (by norm_num)]; exact parseString_escapeUnit (by decide) (by decide) s
    · rw [utf16_ascii h5 (by norm_num)]; exact parseString_escapeUnit (by decide) (by decide) s
    · rw [utf16_ascii h6 (by norm_num)]; exact parseString_escapeUnit (by decide) (by decide) s
    · rw [utf16_ascii h7 (by norm_num)]; exact parseString_escapeUnit (by decide) (by decide) s
    · rw [utf16_ascii rfl (by omega)]; exact parseString_unicodeEscape c.toNat s
    · exact parseString_utf16 c (by omega) h6 h7 s

theorem parseString_escapeCodePoints (ps : List CodePoint) (r : JsString) :
    parseString (ps.flatMap escapeCodePoint ++ 0x22 :: r) =
      some (ps.flatMap CodePoint.units, r) := by
  induction ps with
  | nil =>
    rw [List.flatMap_nil, List.nil_append, parseString.eq_def]
    rfl
  | cons p ps ih =>
    rw [List.flatMap_cons, List.append_assoc, parseString_escapeCodePoint, ih]
    rfl

/-- A string literal is read back. -/
theorem parseString_escapeString (s r : JsString) :
    parseString (escapeString s ++ 0x22 :: r) = some (s, r) := by
  rw [escapeString, parseString_escapeCodePoints, codePoints_units]

theorem quote_append (s r : JsString) : quote s ++ r = 0x22 :: (escapeString s ++ 0x22 :: r) := by
  have hq : js "\"" = [0x22] := by decide
  simp [quote, hq]

/-! ## Texts of arrays and objects -/

theorem jsonItems_eq (items : List JsValue) : jsonItems items = items.map jsonText := by
  induction items with
  | nil => rfl
  | cons v vs ih => simp [jsonItems, ih]

theorem jsonProps_eq {props : Props} (h : ∀ p ∈ props, IsJson p.2) :
    jsonProps props = props.map fun p => (p.1, jsonText p.2) := by
  induction props with
  | nil => rfl
  | cons p ps ih =>
    have hp := (h p (by simp)).ne_undefined
    simp [jsonProps, hp, ih fun q hq => h q (by simp [hq])]

theorem jsonText_obj {props : Props} (h : ∀ p ∈ props, IsJson p.2) :
    jsonText (.obj props) = "\x7b" ++
      joinComma ((ownOrder props).map fun p => member (p.1, jsonText p.2)) ++ "\x7d" := by
  rw [jsonText, jsonProps_eq h, ownOrder_map (fun p => (p.1, jsonText p.2)) (fun _ => rfl),
    List.map_map]
  rfl

/-- Members with distinct names are the properties of the object. -/
theorem ofMembers_eq {members : Props} (h : (names members).Nodup) :
    ofMembers members = members := by
  have key : ∀ (ms acc : Props), (names (acc ++ ms)).Nodup → spread acc ms = acc ++ ms := by
    intro ms
    induction ms with
    | nil => intro acc _; simp [spread]
    | cons m ms ih =>
      intro acc hn
      have hm : m.1 ∉ names acc := by
        simp only [names, List.map_append, List.map_cons, List.nodup_append] at hn
        intro hmem
        exact hn.2.2 _ hmem _ (by simp) rfl
      have hdef : ∀ ps : Props, m.1 ∉ names ps → defineProp ps m.1 m.2 = ps ++ [m] := by
        intro ps
        induction ps with
        | nil => intro _; rfl
        | cons p ps ih' =>
          intro hp
          simp only [names_cons, List.mem_cons, not_or] at hp
          simp [defineProp, hp.1, ih' hp.2]
      rw [spread, List.foldl_cons, hdef acc hm]
      exact (ih (acc ++ [m]) (by simpa using hn)).trans (by simp)
  simpa [ofMembers] using key members [] h

/-! ## Values -/

/-- A code unit that can start a JSON value. -/
def StartsValue (u : CodeUnit) : Prop :=
  u.val = 0x22 ∨ u.val = 0x5B ∨ u.val = 0x7B ∨ u.val = 0x6E ∨ u.val = 0x74 ∨ u.val = 0x66 ∨
    u.val = 0x2D ∨ 0x30 ≤ u.val ∧ u.val ≤ 0x39

instance : DecidablePred StartsValue := fun _ => inferInstanceAs (Decidable (_ ∨ _))

theorem endsNumber_nil : EndsNumber [] := by simp [EndsNumber]

theorem endsNumber_cons {u : CodeUnit} {r : JsString}
    (h : u.val = 0x2C ∨ u.val = 0x5D ∨ u.val = 0x7D ∨ u.val = 0x0A) : EndsNumber (u :: r) := by
  intro w hw
  obtain rfl : u = w := by simpa using hw
  refine ⟨by simp [isDigit]; omega, by omega, by omega, by omega⟩

theorem skipSpace_cons {u : CodeUnit} (h : StartsValue u ∨ u.val = 0x2C ∨ u.val = 0x3A ∨
    u.val = 0x5D ∨ u.val = 0x7D) (s : JsString) : skipSpace (u :: s) = u :: s := by
  have hs : isJsonSpace u = false := by
    simp only [isJsonSpace, List.mem_cons, List.not_mem_nil, or_false, decide_eq_false_iff_not]
    unfold StartsValue at h
    omega
  simp [skipSpace, hs]

/-- What `parseNumber` accepts starts with a sign or a digit. -/
theorem parseNumber_head {s r : JsString} {x : JsNumber} (h : parseNumber s = some (x, r)) :
    ∃ u t, s = u :: t ∧ (u.val = 0x2D ∨ 0x30 ≤ u.val ∧ u.val ≤ 0x39) := by
  cases s with
  | nil => simp [parseNumber] at h
  | cons u t =>
    refine ⟨u, t, rfl, ?_⟩
    by_contra hu
    rw [not_or] at hu
    have hd : isDigit u = false := by simpa [isDigit] using hu.2
    simp [parseNumber, hu.1, parseUnsigned, takeDigits, hd] at h

theorem numberText_head (n : ℤ) :
    ∃ u t, numberText (.finite n) = u :: t ∧ (u.val = 0x2D ∨ 0x30 ≤ u.val ∧ u.val ≤ 0x39) := by
  have h := parseNumber_numberText n endsNumber_nil
  rw [List.append_nil] at h
  exact parseNumber_head h

theorem jsonText_head {v : JsValue} (h : IsJson v) :
    ∃ u t, jsonText v = u :: t ∧ StartsValue u := by
  cases h with
  | null => exact ⟨0x6E, _, rfl, by decide⟩
  | bool b => cases b <;> exact ⟨_, _, rfl, by decide⟩
  | int n =>
    obtain ⟨u, t, ht, hu⟩ := numberText_head n
    exact ⟨u, t, ht, by unfold StartsValue; omega⟩
  | str s => exact ⟨0x22, _, rfl, by decide⟩
  | arr h => exact ⟨0x5B, _, rfl, by decide⟩
  | obj hn h => exact ⟨0x7B, _, rfl, by decide⟩

/-- The parser reads `v` from its text in front of any rest that ends a number. -/
def Reads (v : JsValue) : Prop :=
  ∀ (fuel : ℕ) (r : JsString), (jsonText v).length ≤ fuel → EndsNumber r →
    ∃ w, JsonEq w v ∧ parseValue fuel (jsonText v ++ r) = some (w, r)

theorem joinComma_cons (t : JsString) {ts : List JsString} (h : ts ≠ []) :
    joinComma (t :: ts) = t ++ 0x2C :: joinComma ts := by
  have hc : js "," = [0x2C] := by decide
  obtain ⟨t', ts', rfl⟩ := List.exists_cons_of_ne_nil h
  simp [joinComma, hc]

/-- The items of an array are read back. -/
theorem parseItems_joinComma {items : List JsValue} (hne : items ≠ [])
    (hj : ∀ v ∈ items, IsJson v) (hr : ∀ v ∈ items, Reads v) (fuel : ℕ) (r : JsString)
    (hf : (joinComma (items.map jsonText)).length + 1 ≤ fuel) :
    ∃ ws, List.Forall₂ JsonEq ws items ∧
      parseItems fuel (joinComma (items.map jsonText) ++ 0x5D :: r) = some (ws, r) := by
  induction items generalizing fuel with
  | nil => exact absurd rfl hne
  | cons v vs ih =>
    obtain ⟨fuel, rfl⟩ : ∃ n, fuel = n + 1 := ⟨fuel - 1, by omega⟩
    by_cases hvs : vs = []
    · subst hvs
      simp only [List.map_cons, List.map_nil, joinComma] at hf ⊢
      obtain ⟨w, hw, hp⟩ := hr v (by simp) fuel (0x5D :: r) (by omega)
        (endsNumber_cons (by decide))
      refine ⟨[w], by simpa using hw, ?_⟩
      rw [parseItems, hp]
      simp only [skipSpace_cons (u := 0x5D) (by decide)]
      rfl
    · have htail := ih hvs (fun v h => hj v (by simp [h])) fun v h => hr v (by simp [h])
      rw [List.map_cons, joinComma_cons _ (by simpa using hvs)] at hf ⊢
      simp only [List.length_append, List.length_cons] at hf
      obtain ⟨w, hw, hp⟩ := hr v (by simp) fuel (0x2C :: (joinComma (vs.map jsonText) ++ 0x5D :: r))
        (by omega) (endsNumber_cons (by decide))
      obtain ⟨ws, hws, hps⟩ := htail fuel (by omega)
      refine ⟨w :: ws, .cons hw hws, ?_⟩
      rw [List.append_assoc, List.cons_append, parseItems, hp]
      simp only [skipSpace_cons (u := 0x2C) (by decide), hps]
      rfl

/-- The members of an object are read back. -/
theorem parseMembers_joinComma {ps : Props} (hne : ps ≠ []) (hr : ∀ p ∈ ps, Reads p.2)
    (fuel : ℕ) (r : JsString)
    (hf : (joinComma (ps.map fun p => member (p.1, jsonText p.2))).length + 1 ≤ fuel) :
    ∃ qs, List.Forall₂ (fun q p => q.1 = p.1 ∧ JsonEq q.2 p.2) qs ps ∧
      parseMembers fuel (joinComma (ps.map fun p => member (p.1, jsonText p.2)) ++ 0x7D :: r) =
        some (qs, r) := by
  induction ps generalizing fuel with
  | nil => exact absurd rfl hne
  | cons p ps ih =>
    have hcolon : js ":" = [0x3A] := by decide
    have htext : ∀ s : JsString, member (p.1, jsonText p.2) ++ s =
        0x22 :: (escapeString p.1 ++ 0x22 :: 0x3A :: (jsonText p.2 ++ s)) := by
      intro s
      rw [member, hcolon, List.append_assoc, List.append_assoc, quote_append]
      rfl
    have hlen : (jsonText p.2).length < (member (p.1, jsonText p.2)).length := by
      simp only [member, hcolon, List.length_append, List.length_cons, List.length_nil]
      omega
    obtain ⟨fuel, rfl⟩ : ∃ n, fuel = n + 1 := ⟨fuel - 1, by omega⟩
    by_cases hps : ps = []
    · subst hps
      simp only [List.map_cons, List.map_nil, joinComma] at hf ⊢
      obtain ⟨w, hw, hp⟩ := hr p (by simp) fuel (0x7D :: r) (by omega)
        (endsNumber_cons (by decide))
      refine ⟨[(p.1, w)], by simpa using hw, ?_⟩
      rw [htext, parseMembers]
      simp only [skipSpace_cons (u := 0x22) (by decide),
        parseString_escapeString, skipSpace_cons (u := 0x3A) (by decide), hp,
        skipSpace_cons (u := 0x7D) (by decide)]
      rfl
    · have htail := ih hps fun v h => hr v (by simp [h])
      rw [List.map_cons, joinComma_cons _ (by simpa using hps)] at hf ⊢
      simp only [List.length_append, List.length_cons] at hf
      obtain ⟨w, hw, hp⟩ := hr p (by simp) fuel
        (0x2C :: (joinComma (ps.map fun p => member (p.1, jsonText p.2)) ++ 0x7D :: r))
        (by omega) (endsNumber_cons (by decide))
      obtain ⟨qs, hqs, hq⟩ := htail fuel (by omega)
      refine ⟨(p.1, w) :: qs, .cons ⟨rfl, hw⟩ hqs, ?_⟩
      rw [List.append_assoc, List.cons_append, htext, parseMembers]
      simp only [skipSpace_cons (u := 0x22) (by decide),
        parseString_escapeString, skipSpace_cons (u := 0x3A) (by decide), hp,
        skipSpace_cons (u := 0x2C) (by decide), hq]
      rfl

/-- Objects listing equal values under the same names in the same order are equal. -/
theorem JsonEq.of_forall₂ {qs ps : Props}
    (h : List.Forall₂ (fun q p => q.1 = p.1 ∧ JsonEq q.2 p.2) qs ps) :
    names qs = names ps ∧ JsonEq (.obj qs) (.obj ps) := by
  have hnames : names qs = names ps := by
    induction h with
    | nil => rfl
    | cons h _ ih => simp [h.1, ih]
  refine ⟨hnames, .obj (fun k => by rw [hnames]) fun k _ => ?_⟩
  induction h with
  | nil => exact .refl _
  | @cons q p qs ps h _ ih =>
    by_cases hk : k = q.1
    · simpa [prop, ← h.1, hk] using h.2
    · have hnames' : names qs = names ps := by simpa [h.1] using hnames
      by_cases hmem : k ∈ names qs
      · simpa [prop, ← h.1, hk] using ih hnames' hmem
      · rw [prop, if_neg hk, prop, ← h.1, if_neg hk, prop_of_notMem hmem,
          prop_of_notMem (hnames' ▸ hmem)]
        exact .refl _

theorem reads_int (n : ℤ) : Reads (.num (.finite n)) := by
  rintro (- | fuel) r hf hr
  · obtain ⟨u, t, ht, -⟩ := numberText_head n
    simp [jsonText, ht] at hf
  · obtain ⟨u, t, ht, hu⟩ := numberText_head n
    have hp := parseNumber_numberText n hr
    refine ⟨_, .refl _, ?_⟩
    simp only [jsonText, ht, List.cons_append] at hp ⊢
    rw [parseValue, skipSpace_cons (by unfold StartsValue; omega)]
    simp only [hp, Option.map_some]
    rw [if_neg (by omega), if_neg (by omega), if_neg (by omega), if_neg (by omega),
      if_neg (by omega), if_neg (by omega)]

theorem reads_str (s : JsString) : Reads (.str s) := by
  rintro (- | fuel) r hf hr
  · simp [jsonText, quote, show (js "\"").length = 1 by decide] at hf
  · refine ⟨_, .refl _, ?_⟩
    rw [jsonText, quote_append, parseValue, skipSpace_cons (by decide)]
    simp only [parseString_escapeString]
    rfl

theorem reads_arr {items : List JsValue} (hj : ∀ v ∈ items, IsJson v)
    (ih : ∀ v ∈ items, Reads v) : Reads (.arr items) := by
  have hopen : js "[" = [0x5B] := by decide
  have hclose : js "]" = [0x5D] := by decide
  intro fuel r hf hr
  simp only [jsonText, jsonItems_eq, hopen, hclose, List.length_append, List.length_cons,
    List.length_nil, List.append_assoc, List.cons_append, List.nil_append] at hf ⊢
  obtain ⟨fuel, rfl⟩ : ∃ n, fuel = n + 1 := ⟨fuel - 1, by omega⟩
  rw [parseValue, skipSpace_cons (by decide)]
  by_cases hne : items = []
  · subst hne
    refine ⟨_, .refl _, ?_⟩
    simp only [List.map_nil, joinComma, List.nil_append, skipSpace_cons (u := 0x5D) (by decide)]
    rfl
  · obtain ⟨ws, hws, hp⟩ := parseItems_joinComma hne hj ih fuel r (by omega)
    obtain ⟨v, vs, rfl⟩ := List.exists_cons_of_ne_nil hne
    obtain ⟨u, t, ht, hu⟩ := jsonText_head (hj v (by simp))
    obtain ⟨t', ht'⟩ : ∃ t', joinComma ((v :: vs).map jsonText) ++ 0x5D :: r = u :: t' := by
      by_cases hvs : vs = []
      · exact ⟨_, by simp [hvs, joinComma, ht]; rfl⟩
      · exact ⟨_, by rw [List.map_cons, joinComma_cons _ (by simpa using hvs), ht]; rfl⟩
    refine ⟨.arr ws, jsonEq_arr.mpr ⟨_, rfl, hws⟩, ?_⟩
    rw [ht'] at hp ⊢
    have h5D : u.val ≠ 0x5D := by unfold StartsValue at hu; omega
    simp only [skipSpace_cons (.inl hu), h5D, if_false, hp]
    rfl

theorem reads_obj {props : Props} (hn : (names props).Nodup) (hj : ∀ p ∈ props, IsJson p.2)
    (ih : ∀ p ∈ props, Reads p.2) : Reads (.obj props) := by
  have hopen : js "\x7b" = [0x7B] := by decide
  have hclose : js "\x7d" = [0x7D] := by decide
  have hperm := ownOrder_perm props
  intro fuel r hf hr
  simp only [jsonText_obj hj, hopen, hclose, List.length_append, List.length_cons,
    List.length_nil, List.append_assoc, List.cons_append, List.nil_append] at hf ⊢
  obtain ⟨fuel, rfl⟩ : ∃ n, fuel = n + 1 := ⟨fuel - 1, by omega⟩
  rw [parseValue, skipSpace_cons (by decide)]
  by_cases hne : ownOrder props = []
  · have hnil : props = [] := by simpa [hne] using hperm
    subst hnil
    refine ⟨_, .refl _, ?_⟩
    simp only [hne, List.map_nil, joinComma, List.nil_append,
      skipSpace_cons (u := 0x7D) (by decide)]
    rfl
  · obtain ⟨qs, hqs, hp⟩ := parseMembers_joinComma hne
      (fun p hp => ih p (hperm.mem_iff.mp hp)) fuel r (by omega)
    obtain ⟨hnames, heq⟩ := JsonEq.of_forall₂ hqs
    have hnq : (names qs).Nodup := hnames ▸ (nodup_names_of_perm hperm).mpr hn
    obtain ⟨t', ht'⟩ : ∃ t', joinComma ((ownOrder props).map fun p =>
        member (p.1, jsonText p.2)) ++ 0x7D :: r = 0x22 :: t' := by
      obtain ⟨p, ps, hcons⟩ := List.exists_cons_of_ne_nil hne
      rw [hcons, List.map_cons]
      by_cases hps : ps = []
      · exact ⟨_, by simp [hps, joinComma, member, quote_append]; rfl⟩
      · exact ⟨_, by
          rw [joinComma_cons _ (by simpa using hps), member, List.append_assoc, List.append_assoc,
            quote_append]
          rfl⟩
    refine ⟨.obj qs, heq.trans (.of_perm ((nodup_names_of_perm hperm).mpr hn) hperm), ?_⟩
    rw [ht'] at hp ⊢
    simp only [skipSpace_cons (u := 0x22) (by decide), hp, Option.map_some,
      ofMembers_eq hnq]
    rfl

/-- Every JSON value with integer numbers is read back from its text. -/
theorem IsJson.reads {v : JsValue} (h : IsJson v) : Reads v := by
  induction h with
  | null =>
    rintro (- | fuel) r hf hr
    · simp [jsonText, show (js "null").length = 4 by decide] at hf
    · exact ⟨.null, .refl _, rfl⟩
  | bool b =>
    rintro (- | fuel) r hf hr
    · cases b
      · simp [jsonText, show (js "false").length = 5 by decide] at hf
      · simp [jsonText, show (js "true").length = 4 by decide] at hf
    · refine ⟨.bool b, .refl _, ?_⟩
      cases b <;> rfl
  | int n => exact reads_int n
  | str s => exact reads_str s
  | arr hj ih => exact reads_arr hj ih
  | obj hn hj ih => exact reads_obj hn hj ih

/-- **JSON text is read back.** A JSON value with integer numbers comes back from its text,
    followed by white space, up to key order. -/
theorem parse_jsonText {v : JsValue} (h : IsJson v) {tail : JsString} (ht : EndsNumber tail)
    (hs : skipSpace tail = []) : ∃ w, JsonEq w v ∧ parse (jsonText v ++ tail) = some w := by
  obtain ⟨w, hw, hp⟩ := h.reads ((jsonText v ++ tail).length + 1) tail
    (by rw [List.length_append]; omega) ht
  exact ⟨w, hw, by rw [parse, hp]; simp [hs]⟩

/-- Values with the same text are equal up to key order. -/
theorem jsonEq_of_jsonText {v w : JsValue} (hv : IsJson v) (hw : IsJson w)
    (h : jsonText v = jsonText w) : JsonEq v w := by
  obtain ⟨v', hv', h1⟩ := parse_jsonText hv endsNumber_nil rfl
  obtain ⟨w', hw', h2⟩ := parse_jsonText hw endsNumber_nil rfl
  rw [h, h2] at h1
  exact hv'.symm.trans (Option.some.inj h1 ▸ hw')

/-! ## Arrays of strings -/

/-- Only a string is written with a quote in front. -/
theorem exists_str_of_jsonText {v : JsValue} {r t : JsString} (hr : r.head? ≠ some 0x22)
    (h : jsonText v ++ r = 0x22 :: t) : ∃ s, v = .str s := by
  have hhead : ∀ {u : CodeUnit} {s : JsString}, jsonText v = u :: s → u = 0x22 := by
    intro u s hs
    rw [hs] at h
    exact (List.cons.inj h).1
  cases v with
  | str s => exact ⟨s, rfl⟩
  | undefined => exact absurd (hhead (u := 0x6E) rfl) (by decide)
  | null => exact absurd (hhead (u := 0x6E) rfl) (by decide)
  | bool b =>
    cases b
    · exact absurd (hhead (u := 0x66) rfl) (by decide)
    · exact absurd (hhead (u := 0x74) rfl) (by decide)
  | num x =>
    cases x with
    | finite x =>
      simp only [jsonText] at h
      rcases hx : numberText (.finite x) with _ | ⟨u, s⟩
      · rw [hx, List.nil_append] at h
        simp [h] at hr
      · have hu := isNumberUnit_numberText x u (by simp [hx])
        obtain rfl := hhead (s := s) (by simpa [jsonText] using hx)
        exact absurd hu (by unfold IsNumberUnit isDigit; decide)
    | infinite _ => exact absurd (hhead (u := 0x6E) rfl) (by decide)
    | nan => exact absurd (hhead (u := 0x6E) rfl) (by decide)
  | arr items => exact absurd (hhead (u := 0x5B) rfl) (by decide)
  | obj ps => exact absurd (hhead (u := 0x7B) rfl) (by decide)

theorem quote_append_inj {s t r r' : JsString} (h : quote s ++ r = quote t ++ r') :
    s = t ∧ r = r' := by
  rw [quote_append, quote_append, List.cons.injEq] at h
  have := congrArg parseString h.2
  simpa [parseString_escapeString] using this

/-- What follows the first part of a joined text. -/
theorem joinComma_cons_eq (t : JsString) (ts : List JsString) :
    ∃ r, joinComma (t :: ts) = t ++ r ∧ r.head? ≠ some 0x22 ∧
      (ts = [] ∧ r = [] ∨ ts ≠ [] ∧ r = 0x2C :: joinComma ts) := by
  by_cases h : ts = []
  · exact ⟨[], by simp [h, joinComma], by simp, .inl ⟨h, rfl⟩⟩
  · exact ⟨_, joinComma_cons t h, by simp, .inr ⟨h, rfl⟩⟩

/-- A list whose text is that of a list of strings has no nested items. -/
theorem primitive_of_joinComma {items : List JsValue} {strings : List JsString}
    (h : joinComma (items.map jsonText) = joinComma (strings.map quote)) :
    ∀ v ∈ items, v.IsPrimitive := by
  induction strings generalizing items with
  | nil =>
    rcases items with _ | ⟨v, items⟩
    · simp
    · obtain ⟨r, hr, -, hitems⟩ := joinComma_cons_eq (jsonText v) (items.map jsonText)
      rw [List.map_cons, hr, List.map_nil, joinComma, List.append_eq_nil_iff] at h
      obtain ⟨hnil, -⟩ | ⟨-, hcomma⟩ := hitems
      · obtain rfl := List.map_eq_nil_iff.mp hnil
        cases v with
        | arr items => exact absurd h.1 (List.cons_ne_nil _ _)
        | obj ps => exact absurd h.1 (List.cons_ne_nil _ _)
        | _ => simp [IsPrimitive]
      · rw [hcomma] at h
        exact absurd h.2 (List.cons_ne_nil _ _)
  | cons s strings ih =>
    obtain ⟨r', hr', -, hstrings⟩ := joinComma_cons_eq (quote s) (strings.map quote)
    rcases items with _ | ⟨v, items⟩
    · simp
    · obtain ⟨r, hr, hquote, hitems⟩ := joinComma_cons_eq (jsonText v) (items.map jsonText)
      rw [List.map_cons, List.map_cons, hr, hr'] at h
      obtain ⟨t, rfl⟩ := exists_str_of_jsonText hquote (h.trans (quote_append s r'))
      obtain ⟨-, rfl⟩ := quote_append_inj (s := t) h
      refine List.forall_mem_cons.mpr ⟨trivial, ?_⟩
      obtain ⟨hnil, -⟩ | ⟨-, hcomma⟩ := hitems
      · simp [List.map_eq_nil_iff.mp hnil]
      · obtain ⟨-, hnil⟩ | ⟨-, hcomma'⟩ := hstrings
        · rw [hcomma] at hnil
          exact absurd hnil (List.cons_ne_nil _ _)
        · exact ih (List.cons.inj (hcomma.symm.trans hcomma')).2

/-- Values that differ in the order of keys alone have the text of an array of strings together. -/
theorem JsonEq.jsonText_eq_strings {v w : JsValue} (h : JsonEq v w) {strings : List JsString}
    (hw : jsonText w = jsonText (.arr (strings.map .str))) : jsonText v = jsonText w := by
  have hbracket : jsonText (.arr (strings.map .str)) =
      0x5B :: (joinComma (strings.map quote) ++ js "]") := by
    simp only [jsonText, jsonItems_eq, List.map_map]
    rfl
  by_cases hp : w.IsPrimitive
  · rw [(jsonEq_primitive hp).mp h]
  cases w with
  | arr items =>
    have htext := hw.trans hbracket
    simp only [jsonText, jsonItems_eq, show js "[" = [0x5B] by decide, List.cons_append,
      List.nil_append, List.cons.injEq, true_and] at htext
    have hitems := primitive_of_joinComma (List.append_cancel_right htext)
    obtain ⟨items', rfl, hall⟩ := jsonEq_arr.mp h
    suffices items' = items by rw [this]
    clear hw htext h hp
    induction hall with
    | nil => rfl
    | cons hv _ ih =>
      rw [List.forall_mem_cons] at hitems
      rw [(jsonEq_primitive hitems.1).mp hv, ih hitems.2]
  | obj ps =>
    have := congrArg List.head? (hw.trans hbracket)
    exact absurd this (by simp [jsonText, show js "\x7b" = [0x7B] by decide])
  | _ => exact absurd trivial hp

end Wns.Ecma
