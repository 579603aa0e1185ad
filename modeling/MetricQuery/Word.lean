/-!
# Words

Integers in texts and positions in lists have to fit a word of 64 bits. A word
without a sign runs from zero to its largest value. A word with a sign spends
one bit on it and reaches one further down than up.
-/

namespace MetricQuery.Word

/-- The largest word without a sign. -/
def largest : Nat := 18446744073709551615

/-- The largest word with a sign. -/
def largestSigned : Nat := 9223372036854775807

/-- The largest magnitude of a word below zero. -/
def largestNegative : Nat := largestSigned + 1

end MetricQuery.Word
