import Mathlib

/-!
# The order of bytes

Texts are compared character by character, by code point, and their encodings byte by
byte. Both orders are the same. A character takes one to four bytes: its code point is cut
into groups of six bits, and the first byte is marked with the number of bytes behind it.
The groups keep the order of the code points that take the same number of bytes, and the
marks rise with that number. So the first character in which two texts differ settles the
order of their bytes as well, whatever stands behind it.
-/

namespace MetricQuery.Text

/-- The bytes of a text. -/
def bytesOf (text : String) : List UInt8 := text.toByteArray.data.toList

/-- The bytes of a text are those of its characters. -/
theorem bytesOf_eq_flatMap (text : String) :
    bytesOf text = text.toList.flatMap String.utf8EncodeChar := by
  have encoded : text.toByteArray = (text.toList.flatMap String.utf8EncodeChar).toByteArray := by
    conv => lhs; rw [← String.ofList_toList (s := text)]
    rfl
  rw [bytesOf, encoded, List.data_toByteArray]

/-- The bytes of a number that takes some further bytes: groups of six bits, the first of
which is marked with how many come behind it. -/
def sixBitBytes (mark : Nat) : Nat → Nat → List UInt8
  | 0, value => [UInt8.ofNat (value + mark)]
  | further + 1, value =>
      sixBitBytes mark further (value / 64) ++ [UInt8.ofNat (value % 64 + 128)]

/-- Small numbers are compared as their bytes. -/
theorem ofNat_lt_ofNat {smaller larger : Nat} (before : smaller < larger) (fits : larger < 256) :
    UInt8.ofNat smaller < UInt8.ofNat larger := by
  rw [UInt8.lt_iff_toNat_lt, UInt8.toNat_ofNat', UInt8.toNat_ofNat', Nat.mod_eq_of_lt fits,
    Nat.mod_eq_of_lt (Nat.lt_trans before fits)]
  exact before

/-- Of two numbers that take the same bytes, the smaller has smaller bytes, whatever comes
behind them. -/
theorem sixBitBytes_lt {mark further smaller larger : Nat} (before : smaller < larger)
    (fits : larger / 64 ^ further + mark < 256) (first second : List UInt8) :
    sixBitBytes mark further smaller ++ first < sixBitBytes mark further larger ++ second := by
  induction further generalizing smaller larger first second with
  | zero =>
    have small : larger + mark < 256 := by simpa using fits
    exact .rel (ofNat_lt_ofNat (by omega) small)
  | succ further inductionHypothesis =>
    simp only [sixBitBytes, List.append_assoc, List.singleton_append]
    rcases Nat.lt_or_ge (smaller / 64) (larger / 64) with high | high
    · refine inductionHypothesis high ?_ _ _
      rwa [Nat.div_div_eq_div_mul, ← Nat.pow_succ']
    · have same : smaller / 64 = larger / 64 := by omega
      have low : smaller % 64 + 128 < larger % 64 + 128 := by omega
      rw [same]
      exact List.append_left_lt (.rel (ofNat_lt_ofNat low (by omega)))

/-- Every code point fits four groups of six bits, the first of three bits only. -/
theorem codePoint_lt (c : Char) : c.toNat < 0x110000 := by
  rcases c.valid with low | high
  · exact Nat.lt_trans low (by decide)
  · exact high.2

/-- How many bytes of a character come behind the first, and the mark of the first. -/
theorem utf8EncodeChar_eq (c : Char) : String.utf8EncodeChar c =
    if c.toNat ≤ 0x7f then sixBitBytes 0 0 c.toNat
    else if c.toNat ≤ 0x7ff then sixBitBytes 0xc0 1 c.toNat
    else if c.toNat ≤ 0xffff then sixBitBytes 0xe0 2 c.toNat
    else sixBitBytes 0xf0 3 c.toNat := by
  have bound := codePoint_lt c
  change (if c.toNat ≤ 0x7f then _ else if c.toNat ≤ 0x7ff then _ else if c.toNat ≤ 0xffff then _
    else _) = _
  split_ifs with one two three
  · rfl
  · have high : c.toNat / 64 % 0x20 = c.toNat / 64 := by omega
    change [UInt8.ofNat (c.toNat / 64 % 0x20 + 0xc0), _] = _
    rw [high]
    rfl
  · have high : c.toNat / 4096 % 0x10 = c.toNat / 64 / 64 := by omega
    change [UInt8.ofNat (c.toNat / 4096 % 0x10 + 0xe0), _, _] = _
    rw [high]
    rfl
  · have high : c.toNat / 262144 % 0x08 = c.toNat / 64 / 64 / 64 := by omega
    have next : c.toNat / 4096 % 0x40 = c.toNat / 64 / 64 % 64 := by omega
    change [UInt8.ofNat (c.toNat / 262144 % 0x08 + 0xf0), UInt8.ofNat (c.toNat / 4096 % 0x40 + 0x80),
      _, _] = _
    rw [high, next]
    rfl

/-- A smaller character has smaller bytes, whatever comes behind it. -/
theorem utf8EncodeChar_lt {smaller larger : Char} (before : smaller < larger)
    (first second : List UInt8) :
    String.utf8EncodeChar smaller ++ first < String.utf8EncodeChar larger ++ second := by
  have values : smaller.toNat < larger.toNat := before
  have bound := codePoint_lt larger
  rw [utf8EncodeChar_eq, utf8EncodeChar_eq]
  split_ifs
  -- The marks are in the order of the lengths.
  all_goals first
    | exact sixBitBytes_lt values (by omega) first second
    | exact .rel (ofNat_lt_ofNat (by omega) (by omega))

/-- A text before another one has bytes before those of the other. -/
theorem bytesOf_lt {earlier later : String} (before : earlier < later) :
    bytesOf earlier < bytesOf later := by
  rw [bytesOf_eq_flatMap, bytesOf_eq_flatMap]
  have characters : List.Lex (· < ·) earlier.toList later.toList := before
  generalize earlier.toList = first at characters
  generalize later.toList = second at characters
  induction characters with
  | nil =>
    rename_i c behind
    obtain ⟨byte, bytes, shape⟩ := List.exists_cons_of_ne_nil (String.utf8EncodeChar_ne_nil (c := c))
    simp [shape]
  | rel smaller => exact utf8EncodeChar_lt smaller _ _
  | cons _ inductionHypothesis => exact List.append_left_lt inductionHypothesis

end MetricQuery.Text
