import Wns.Ecma.Digest

/-!
# Reading UTF-8

`buffer.toString("utf8")`: the UTF-8 decoder of the Encoding Standard, which takes U+FFFD for
the longest start of a character that cannot be continued. It does not remove a byte order
mark.

* `decodeUtf8_utf8`: text is read back from its encoding.
-/

namespace Wns.Ecma

/-- What the decoder has read of a character: the bytes that are missing, the bits of the code
    point so far, and the bounds of the next byte. -/
structure Utf8State where
  needed : ℕ
  point : ℕ
  low : ℕ
  high : ℕ

/-- Nothing has been read of a character. -/
def Utf8State.start : Utf8State := ⟨0, 0, 0x80, 0xBF⟩

/-- U+FFFD. -/
def replacement : Char := Char.ofNat 0xFFFD

/-- The first byte of a character. -/
def firstByte (b : ℕ) : List Char × Utf8State :=
  if b ≤ 0x7F then ([Char.ofNat b], .start)
  else if 0xC2 ≤ b ∧ b ≤ 0xDF then ([], ⟨1, b - 0xC0, 0x80, 0xBF⟩)
  else if 0xE0 ≤ b ∧ b ≤ 0xEF then
    ([], ⟨2, b - 0xE0, if b = 0xE0 then 0xA0 else 0x80, if b = 0xED then 0x9F else 0xBF⟩)
  else if 0xF0 ≤ b ∧ b ≤ 0xF4 then
    ([], ⟨3, b - 0xF0, if b = 0xF0 then 0x90 else 0x80, if b = 0xF4 then 0x8F else 0xBF⟩)
  else ([replacement], .start)

/-- The next byte. One that cannot continue the character is the first byte of another. -/
def Utf8State.next (s : Utf8State) (b : ℕ) : List Char × Utf8State :=
  if s.needed = 0 then firstByte b
  else if s.low ≤ b ∧ b ≤ s.high then
    let point := s.point * 64 + (b - 0x80)
    if s.needed = 1 then ([Char.ofNat point], .start)
    else ([], ⟨s.needed - 1, point, 0x80, 0xBF⟩)
  else (replacement :: (firstByte b).1, (firstByte b).2)

/-- The characters of the bytes that follow. -/
def Utf8State.read : Utf8State → List UInt8 → List Char
  | s, [] => if s.needed = 0 then [] else [replacement]
  | s, b :: bytes => (s.next b.toNat).1 ++ (s.next b.toNat).2.read bytes

/-- `buffer.toString("utf8")`. -/
def decodeUtf8 (bytes : List UInt8) : JsString := encode (Utf8State.start.read bytes)

theorem read_first (n : ℕ) (h : n < 256) (bytes : List UInt8) :
    Utf8State.start.read (UInt8.ofNat n :: bytes) =
      (firstByte n).1 ++ (firstByte n).2.read bytes := by
  have hn : (UInt8.ofNat n).toNat = n := by simp [UInt8.toNat_ofNat', Nat.mod_eq_of_lt h]
  rw [Utf8State.read, hn]
  rfl

/-- A byte within the bounds, where more than one is missing. -/
theorem read_more {needed point low high n : ℕ} (hlow : low ≤ n) (hhigh : n ≤ high) (h : n < 256)
    (bytes : List UInt8) :
    Utf8State.read ⟨needed + 2, point, low, high⟩ (UInt8.ofNat n :: bytes) =
      Utf8State.read ⟨needed + 1, point * 64 + (n - 0x80), 0x80, 0xBF⟩ bytes := by
  have hn : (UInt8.ofNat n).toNat = n := by simp [UInt8.toNat_ofNat', Nat.mod_eq_of_lt h]
  rw [Utf8State.read, hn]
  simp [Utf8State.next, hlow, hhigh]

/-- The last byte of a character. -/
theorem read_last {point low high n : ℕ} (hlow : low ≤ n) (hhigh : n ≤ high) (h : n < 256)
    (bytes : List UInt8) :
    Utf8State.read ⟨1, point, low, high⟩ (UInt8.ofNat n :: bytes) =
      Char.ofNat (point * 64 + (n - 0x80)) :: Utf8State.start.read bytes := by
  have hn : (UInt8.ofNat n).toNat = n := by simp [UInt8.toNat_ofNat', Nat.mod_eq_of_lt h]
  rw [Utf8State.read, hn]
  simp [Utf8State.next, hlow, hhigh]

/-- A character is read back from its bytes. -/
theorem read_utf8EncodeChar (c : Char) (bytes : List UInt8) :
    Utf8State.start.read (String.utf8EncodeChar c ++ bytes) = c :: Utf8State.start.read bytes := by
  have hc := char_cases c
  have hval : c.val.toNat = c.toNat := rfl
  have hself : ∀ n, n = c.toNat → Char.ofNat n = c := by
    rintro _ rfl
    exact Char.ofNat_toNat c
  unfold String.utf8EncodeChar
  dsimp only
  rw [hval]
  split_ifs with h1 h2 h3
  · rw [List.cons_append, List.nil_append, read_first _ (by omega), firstByte, if_pos h1]
    exact congrArg (· :: _) (hself _ rfl)
  · rw [List.cons_append, List.cons_append, List.nil_append, read_first _ (by omega), firstByte,
      if_neg (by omega), if_pos (by omega), List.nil_append,
      read_last (by omega) (by omega) (by omega),
      hself _ (by omega)]
  · rw [List.cons_append, List.cons_append, List.cons_append, List.nil_append,
      read_first _ (by omega), firstByte, if_neg (by omega), if_neg (by omega), if_pos (by omega),
      List.nil_append, read_more (by split_ifs <;> omega) (by split_ifs <;> omega) (by omega),
      read_last (by omega) (by omega) (by omega),
      hself _ (by omega)]
  · rw [List.cons_append, List.cons_append, List.cons_append, List.cons_append, List.nil_append,
      read_first _ (by omega), firstByte, if_neg (by omega), if_neg (by omega), if_neg (by omega),
      if_pos (by omega), List.nil_append,
      read_more (by split_ifs <;> omega) (by split_ifs <;> omega) (by omega),
      read_more (by omega) (by omega) (by omega), read_last (by omega) (by omega) (by omega),
      hself _ (by omega)]

theorem read_utf8EncodeChars (cs : List Char) :
    Utf8State.start.read (cs.flatMap String.utf8EncodeChar) = cs := by
  induction cs with
  | nil => rfl
  | cons c cs ih => rw [List.flatMap_cons, read_utf8EncodeChar, ih]

/-- Text is read back from its encoding. -/
theorem decodeUtf8_utf8 {s : JsString} (h : IsText s) : decodeUtf8 (utf8 s) = s := by
  obtain ⟨cs, rfl⟩ := h
  rw [decodeUtf8, utf8_encode, read_utf8EncodeChars]

/-- Three bytes of a character that lacks a fourth count as one replacement. -/
example : decodeUtf8 [0xF0, 0x9F, 0x98, 0x3C, 0xFF] = [0xFFFD, 0x3C, 0xFFFD] := by decide

end Wns.Ecma
