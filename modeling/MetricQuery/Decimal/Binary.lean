/-!
# Binary fractions

A floating-point number is a sign, a mantissa and a power of two. Taking it
apart gives natural numbers, on which everything about its text can be decided
exactly. Putting one together finds the floating-point number nearest to a
fraction of natural numbers; of two equally near ones it is the one with the
even mantissa.

Exponents run down to `-1074`, where the mantissa loses its leading bit. The
encoding is monotone: the mantissa is added to the exponent field in place, so
a mantissa that rounds up to the next power of two moves into the next exponent
without a case of its own, and anything beyond the largest finite number ends
at infinity.
-/

namespace MetricQuery.Decimal

/-- A power of two. -/
def twoTo (n : Nat) : Nat := Nat.pow 2 n

/-- A power of ten. -/
def tenTo (n : Nat) : Nat := Nat.pow 10 n

/-- A power of five. -/
def fiveTo (n : Nat) : Nat := Nat.pow 5 n

/-- The next power of two is twice as large. -/
theorem twoTo_succ (n : Nat) : twoTo (n + 1) = twoTo n * 2 := rfl

/-- The next power of ten is ten times as large. -/
theorem tenTo_succ (n : Nat) : tenTo (n + 1) = tenTo n * 10 := rfl

/-- The next power of five is five times as large. -/
theorem fiveTo_succ (n : Nat) : fiveTo (n + 1) = fiveTo n * 5 := rfl

/-- A power of ten is a power of five and a power of two. -/
theorem fiveTo_mul_twoTo (n : Nat) : fiveTo n * twoTo n = tenTo n := by
  induction n with
  | zero => rfl
  | succ n hypothesis => rw [fiveTo_succ, twoTo_succ, tenTo_succ, ← hypothesis]; grind

/-- A floating-point number taken apart. -/
inductive Parts where
  /-- The value that is no number. -/
  | notANumber
  /-- One of the two infinities. -/
  | infinite (negative : Bool)
  /-- The mantissa times two to the exponent, with a sign. -/
  | finite (negative : Bool) (mantissa : Nat) (exponent : Int)
  deriving DecidableEq, Repr

/-- Take a floating-point number apart. -/
def parts (x : Float) : Parts :=
  let bits : Nat := x.toBits.toNat
  let negative := decide (twoTo 63 ≤ bits)
  let field : Nat := bits / twoTo 52 % twoTo 11
  let fraction : Nat := bits % twoTo 52
  if field = 2047 then
    if fraction = 0 then .infinite negative else .notANumber
  else if field = 0 then .finite negative fraction (-1074)
  else .finite negative (twoTo 52 + fraction) ((field : Int) - 1075)

/-- A quotient rounded to the nearest natural number, a half going to the even one. -/
def roundHalfEven (numerator denominator : Nat) : Nat :=
  let quotient := numerator / denominator
  let twice := 2 * (numerator % denominator)
  if twice < denominator then quotient
  else if denominator < twice then quotient + 1
  else if quotient % 2 = 0 then quotient
  else quotient + 1

/-- A fraction divided by a power of two, as a numerator and a denominator. -/
def overTwo (numerator denominator : Nat) (exponent : Int) : Nat × Nat :=
  if 0 ≤ exponent then (numerator, denominator * twoTo exponent.toNat)
  else (numerator * twoTo (-exponent).toNat, denominator)

/-- The encoding of infinity without its sign. -/
def infinityBits : Nat := 2047 * twoTo 52

/-- The encoding, without a sign, of the floating-point number nearest to a fraction.

The first guess at the exponent leaves a quotient between `2 ^ 52` and
`2 ^ 54`, so at most one step brings the mantissa into its 53 bits. -/
def nearestBits (numerator denominator : Nat) : Nat :=
  if numerator = 0 then 0
  else
    let guess : Int := (Nat.log2 numerator : Int) - (Nat.log2 denominator : Int) - 53
    let trial := overTwo numerator denominator guess
    let fitting := if twoTo 53 * trial.2 ≤ trial.1 then guess + 1 else guess
    let exponent := max fitting (-1074)
    let quotient := overTwo numerator denominator exponent
    let bits := (exponent + 1074).toNat * twoTo 52 + roundHalfEven quotient.1 quotient.2
    min bits infinityBits

/-- The floating-point number with a sign and the encoding of its magnitude. -/
def assemble (negative : Bool) (magnitude : Nat) : Float :=
  Float.ofBits (UInt64.ofNat (if negative then twoTo 63 + magnitude else magnitude))

/-- The value that is no number. -/
def notANumber : Float := Float.ofBits 0x7ff8000000000000

/-- The floating-point number nearest to a natural number. -/
def ofNat (n : Nat) : Float := assemble false (nearestBits n 1)

/-- The number of decimal digits of a natural number; zero has one. -/
def digitCount (n : Nat) : Nat := (Nat.toDigits 10 n).length

/-- The floating-point number nearest to `digits` times ten to `exponent`.

A number whose leading digit stands far outside the range of finite numbers is
settled by that alone, so that no power of ten grows with the exponent. -/
def ofDecimal (negative : Bool) (digits : Nat) (exponent : Int) : Float :=
  let top := exponent + (digitCount digits : Int)
  if digits = 0 then assemble negative 0
  else if 400 < top then assemble negative infinityBits
  else if top < -400 then assemble negative 0
  else if 0 ≤ exponent then assemble negative (nearestBits (digits * tenTo exponent.toNat) 1)
  else assemble negative (nearestBits digits (tenTo (-exponent).toNat))

end MetricQuery.Decimal
