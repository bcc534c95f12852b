/-!
Floating-point numbers in as few decimal digits as possible.

Owns the decimal that stands for a binary floating-point number: of all decimals that lie nearer
to it than to any other number of its kind, one with the fewest digits, and of these the nearest.
Of two that are equally near it is the one with an even last digit.
The search runs in exact integer arithmetic, one digit more at a time; seventeen always suffice.
-/

namespace TypeRecords.Decimal

/-- The natural number `digits` times a power of ten. -/
structure Scaled where
  digits : Nat
  exponent : Int
deriving DecidableEq, Repr

/-- A positive number with the bounds of the interval that rounds to it, all as fractions over one
denominator. -/
structure Neighbourhood where
  value : Nat
  low : Nat
  high : Nat
  denominator : Nat
  /-- Whether the bounds themselves round to the number. -/
  closed : Bool
deriving Repr

/-- The neighbourhood of `mantissa` times two to the power `exponent`. Below a power of two the
numbers are twice as dense. -/
def Neighbourhood.of (mantissa : Nat) (exponent : Int) (denserBelow : Bool) : Neighbourhood :=
  let scale := Nat.pow 2 exponent.toNat
  { value := 4 * mantissa * scale
    low := (4 * mantissa - if denserBelow then 1 else 2) * scale
    high := (4 * mantissa + 2) * scale
    denominator := 4 * Nat.pow 2 (-exponent).toNat
    closed := mantissa % 2 = 0 }

/-- Both sides of a comparison between a decimal and a fraction over the denominator. -/
def Neighbourhood.sides (place : Neighbourhood) (decimal : Scaled) (numerator : Nat) :
    Nat × Nat :=
  (decimal.digits * Nat.pow 10 decimal.exponent.toNat * place.denominator,
    numerator * Nat.pow 10 (-decimal.exponent).toNat)

/-- Whether a decimal rounds to the number. -/
def Neighbourhood.contains (place : Neighbourhood) (decimal : Scaled) : Bool :=
  let (left, low) := place.sides decimal place.low
  let (right, high) := place.sides decimal place.high
  if place.closed then low ≤ left && right ≤ high else low < left && right < high

/-- The distance of a decimal from the number, on a common scale. -/
def Neighbourhood.distance (place : Neighbourhood) (decimal : Scaled) : Nat :=
  let (left, value) := place.sides decimal place.value
  (left - value) + (value - left)

/-- The two neighbours of the number among the multiples of a power of ten. -/
def Neighbourhood.candidates (place : Neighbourhood) (exponent : Int) : List Scaled :=
  let below := place.value * Nat.pow 10 (-exponent).toNat /
    (place.denominator * Nat.pow 10 exponent.toNat)
  [⟨below, exponent⟩, ⟨below + 1, exponent⟩]

/-- The exponent of the leading decimal digit. -/
def Neighbourhood.magnitude (place : Neighbourhood) : Int :=
  let reaches (exponent : Int) : Bool :=
    let (power, value) := place.sides ⟨1, exponent⟩ place.value
    power ≤ value
  (((List.range 640).map fun (step : Nat) => (309 : Int) - (step : Int)).find? reaches).getD (-330)

/-- Moves trailing zeros into the exponent. -/
def Scaled.withoutZeros : Nat → Scaled → Scaled
  | 0, decimal => decimal
  | bound + 1, decimal =>
    if decimal.digits ≠ 0 ∧ decimal.digits % 10 = 0 then
      withoutZeros bound ⟨decimal.digits / 10, decimal.exponent + 1⟩
    else decimal

/-- The nearer of two neighbours on a grid, or the even one if both are equally near. -/
def Neighbourhood.nearer (place : Neighbourhood) (first second : Scaled) : Scaled :=
  if place.distance first < place.distance second then first
  else if place.distance second < place.distance first then second
  else if first.digits % 2 = 0 then first
  else second

/-- The shortest decimal for the number. -/
def Neighbourhood.shortest (place : Neighbourhood) : Scaled :=
  let magnitude := place.magnitude
  let hits := (List.range 17).findSome? fun (fewer : Nat) =>
    match (place.candidates (magnitude - fewer)).filter place.contains with
    | [] => none
    | [only] => some only
    | first :: second :: _ => some (place.nearer first second)
  (hits.getD ⟨0, 0⟩).withoutZeros 20

/-- An exponent of ten behind its letter. Its sign is always written. -/
def exponentText (exponent : Int) : String :=
  let sign := if 0 ≤ exponent then "+" else "-"
  s!"e{sign}{exponent.natAbs}"

/-- The digits of a decimal: positional where the leading digit stands at most five places behind
the point or sixteen in front of it, and otherwise with an exponent. -/
def Scaled.display (decimal : Scaled) : String :=
  let digits := Nat.toDigits 10 decimal.digits
  let count : Int := digits.length
  let pointAt := count + decimal.exponent
  if 0 ≤ decimal.exponent ∧ pointAt ≤ 16 then
    String.ofList (digits ++ List.replicate decimal.exponent.toNat '0') ++ ".0"
  else if 0 < pointAt ∧ pointAt ≤ 16 then
    String.ofList (digits.take pointAt.toNat ++ '.' :: digits.drop pointAt.toNat)
  else if -5 < pointAt ∧ pointAt ≤ 0 then
    "0." ++ String.ofList (List.replicate (-pointAt).toNat '0' ++ digits)
  else
    match digits with
    | first :: second :: rest =>
      String.ofList (first :: '.' :: second :: rest) ++ exponentText (pointAt - 1)
    | _ => String.ofList digits ++ exponentText (pointAt - 1)

/-- How many numbers share a sign and an exponent. -/
def fractionCount : Nat := 0x10000000000000

/-- A finite floating-point number as text. -/
def ofFloat (number : Float) : String :=
  let bits := number.toBits.toNat
  let sign := if bits < 0x8000000000000000 then "" else "-"
  let fraction := bits % fractionCount
  let biased : Nat := bits / fractionCount % 0x800
  if fraction = 0 ∧ biased = 0 then sign ++ "0.0"
  else
    let place :=
      if biased = 0 then Neighbourhood.of fraction (-1074) false
      else
        Neighbourhood.of (fractionCount + fraction) ((biased : Int) - 1075)
          (decide (fraction = 0 ∧ 1 < biased))
    sign ++ place.shortest.display

end TypeRecords.Decimal
