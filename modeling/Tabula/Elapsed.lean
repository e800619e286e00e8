/-!
# Elapsed time

A span of time is shown in seconds with three decimals. The seconds are the double nearest to the
whole seconds, plus the double nearest to the rest; the decimals are those of that double's exact
value, and of two equally near the even one.
-/

namespace Tabula

/-- The quotient of two numbers rounded to the nearest number, to the even one if two are equally
near. -/
def roundHalfEven (dividend divisor : Nat) : Nat :=
  let quotient := dividend / divisor
  let twice := 2 * (dividend % divisor)
  if twice < divisor then quotient
  else if divisor < twice then quotient + 1
  else quotient + quotient % 2

/-- A number that is not negative, as a mantissa times a power of two. -/
structure Dyadic where
  mantissa : Nat
  exponent : Int
deriving DecidableEq, Repr

namespace Dyadic

/-- The bit above the 52 written ones, which a normal double has and does not write. -/
def implicitBit : Nat := 1 <<< 52

/-- The exact value of a finite double that is not negative. -/
def ofFloat (number : Float) : Dyadic :=
  let bits := number.toBits.toNat
  let power : Nat := bits >>> 52 % 2048
  let fraction : Nat := bits % implicitBit
  if power = 0 then ⟨fraction, -1074⟩ else ⟨implicitBit + fraction, Int.ofNat power - 1075⟩

/-- A number in thousandths, rounded. -/
def thousandths (number : Dyadic) : Nat :=
  if 0 ≤ number.exponent then (number.mantissa <<< number.exponent.toNat) * 1000
  else roundHalfEven (number.mantissa * 1000) (1 <<< (-number.exponent).toNat)

end Dyadic

namespace Elapsed

/-- A number of thousandths with its decimal point. -/
def threePlaces (thousandths : Nat) : String :=
  let decimals := Nat.toDigits 10 (thousandths % 1000)
  toString (thousandths / 1000) ++ "." ++
    String.ofList (List.replicate (3 - decimals.length) '0' ++ decimals)

/-- The nanoseconds in a second. -/
def nanosecondsPerSecond : UInt32 := 1000000000

/-- The seconds of a span as a double. Nanoseconds that make up seconds count among these. -/
def seconds (whole : UInt64) (nanoseconds : UInt32) : Float :=
  (whole + (nanoseconds / nanosecondsPerSecond).toUInt64).toFloat +
    (nanoseconds % nanosecondsPerSecond).toFloat / nanosecondsPerSecond.toFloat

/-- The line that tells how long something took. -/
def line (label : String) (whole : UInt64) (nanoseconds : UInt32) : String :=
  label ++ " completed in " ++
    threePlaces (Dyadic.ofFloat (seconds whole nanoseconds)).thousandths ++ " seconds."

end Elapsed

end Tabula
