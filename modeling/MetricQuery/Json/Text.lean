import MetricQuery.Json.Fault
import MetricQuery.Text.Bytes

/-!
# Strings in JSON

A string is written between double quotes. The quote, the backslash and the
control characters are escaped, and every other character stands for itself.

Reading goes in two steps. The first finds the end of the string and gives its
units: characters, and the 16-bit codes of numeric escapes. The second joins
the codes of surrogate pairs into characters. A string that is only skipped
takes the first step alone, so a lone surrogate is a fault only in a string
that is read.
-/

namespace MetricQuery.Json

/-- One character as it is written inside a string. -/
def escapeChar (c : Char) : List Char :=
  if c = '"' then ['\\', '"']
  else if c = '\\' then ['\\', '\\']
  else if c = '\x08' then ['\\', 'b']
  else if c = '\x0c' then ['\\', 'f']
  else if c = '\n' then ['\\', 'n']
  else if c = '\r' then ['\\', 'r']
  else if c = '\t' then ['\\', 't']
  else if c < ' ' then
    ['\\', 'u', '0', '0', Nat.digitChar (c.toNat / 16), Nat.digitChar (c.toNat % 16)]
  else [c]

/-- A string between its quotes. -/
def writeText (text : List Char) : List Char := '"' :: text.flatMap escapeChar ++ ['"']

/-- A piece of a string as it was written. -/
inductive Unit16 where
  /-- A character, written as itself or by a letter escape. -/
  | char (c : Char)
  /-- The code of a numeric escape. -/
  | code (value : Nat)
  deriving DecidableEq, Repr

/-- How the written form of a string ends. -/
inductive TextEnd where
  /-- With its closing quote. -/
  | closed
  /-- In a fault. `inCode` tells whether a numeric escape, or the text itself,
  breaks off there, rather than a character that may not stand in a string. -/
  | broken (fault : Fault) (inCode : Bool)
  deriving DecidableEq

/-- A string as it was written and what follows it. -/
structure TextScan where
  /-- The pieces of the string. -/
  units : List Unit16
  /-- How the string ends. -/
  ending : TextEnd
  /-- What follows the string. -/
  rest : List Char
  deriving DecidableEq

/-- Put one more piece in front. -/
def TextScan.cons (piece : Unit16) (scan : TextScan) : TextScan :=
  ⟨piece :: scan.units, scan.ending, scan.rest⟩

/-- The value of a hexadecimal digit. -/
def hexDigit? (c : Char) : Option Nat :=
  if '0' ≤ c ∧ c ≤ '9' then some (c.toNat - '0'.toNat)
  else if 'a' ≤ c ∧ c ≤ 'f' then some (c.toNat - 'a'.toNat + 10)
  else if 'A' ≤ c ∧ c ≤ 'F' then some (c.toNat - 'A'.toNat + 10)
  else none

/-- The value of four hexadecimal digits. -/
def hexCode? (a b c d : Char) : Option Nat :=
  match hexDigit? a, hexDigit? b, hexDigit? c, hexDigit? d with
  | some a, some b, some c, some d => some (((a * 16 + b) * 16 + c) * 16 + d)
  | _, _, _, _ => none

/-- The character that a letter escape stands for. -/
def letterEscape? (c : Char) : Option Char :=
  if c = '"' || c = '\\' || c = '/' then some c
  else if c = 'b' then some '\x08'
  else if c = 'f' then some '\x0c'
  else if c = 'n' then some '\n'
  else if c = 'r' then some '\r'
  else if c = 't' then some '\t'
  else none

/-- Whether fewer than four bytes are left. -/
def fewerThanFourBytes (text : List Char) : Bool :=
  decide (Text.byteLength text < 4)

/-- Read a string after its opening quote. -/
def scanText : List Char → TextScan
  | [] => ⟨[], .broken .endInText true, []⟩
  | '"' :: rest => ⟨[], .closed, rest⟩
  | ['\\'] => ⟨[], .broken .endInText true, []⟩
  | '\\' :: 'u' :: a :: b :: c :: d :: later =>
      match hexCode? a b c d with
      | some value => (scanText later).cons (.code value)
      | none => ⟨[], .broken .invalidEscape true, later⟩
  | '\\' :: 'u' :: few =>
      if fewerThanFourBytes few then ⟨[], .broken .endInText true, []⟩
      else ⟨[], .broken .invalidEscape true, []⟩
  | '\\' :: c :: later =>
      match letterEscape? c with
      | some meant => (scanText later).cons (.char meant)
      | none => ⟨[], .broken .invalidEscape false, later⟩
  | c :: later =>
      if c < ' ' then ⟨[], .broken .controlCharacter false, later⟩
      else (scanText later).cons (.char c)

/-- Whether a code is the first half of a surrogate pair. -/
def isLeading (code : Nat) : Bool := decide (0xd800 ≤ code) && decide (code ≤ 0xdbff)

/-- Whether a code is the second half of a surrogate pair. -/
def isTrailing (code : Nat) : Bool := decide (0xdc00 ≤ code) && decide (code ≤ 0xdfff)

/-- The character of a surrogate pair. -/
def pairChar (leading trailing : Nat) : Char :=
  Char.ofNat (0x10000 + (leading - 0xd800) * 0x400 + (trailing - 0xdc00))

/-- The fault of a first half without its second half, where the string ends. -/
def TextEnd.afterLeading : TextEnd → Fault
  | closed => .brokenPair
  | broken fault inCode => if inCode then fault else .brokenPair

/-- The characters of a string, or the first fault in it. -/
def joinUnits (ending : TextEnd) : List Unit16 → Except Fault (List Char)
  | [] =>
      match ending with
      | .closed => .ok []
      | .broken fault _ => .error fault
  | .char c :: later => (joinUnits ending later).map (c :: ·)
  | .code value :: later =>
      if isTrailing value then .error .loneSurrogate
      else if isLeading value then
        match later with
        | [] => .error ending.afterLeading
        | .char _ :: _ => .error .brokenPair
        | .code next :: afterPair =>
            if isTrailing next then
              (joinUnits ending afterPair).map (pairChar value next :: ·)
            else .error .loneSurrogate
      else (joinUnits ending later).map (Char.ofNat value :: ·)

end MetricQuery.Json
