/-!
# The shortest decimal that reads back

A finite binary number `mantissa * 2 ^ exponent` is read from every real in the interval half-way
to its neighbours; the ends belong to it when the mantissa is even. `shortest` looks for the fewest
digits with a decimal in that interval, and of two such decimals takes the nearer one, or the even
one if both are equally near. All comparisons are between products of natural numbers.
-/

set_option autoImplicit false
set_option relaxedAutoImplicit false

namespace Bindery.Decimal

/-- The number `mantissa * 2 ^ exponent`. -/
structure Binary where
  mantissa : Nat
  exponent : Int

/-- The number `digits * 10 ^ exponent`. -/
structure Scaled where
  digits : Nat
  exponent : Int

/-- The magnitude of a finite double. -/
def Binary.ofFloat (f : Float) : Binary :=
  let bits := f.toBits.toNat
  let fraction : Nat := bits % 0x10000000000000
  let field : Nat := bits / 0x10000000000000 % 0x800
  if field = 0 then ⟨fraction, -1074⟩ else ⟨fraction + 0x10000000000000, (field : Int) - 1075⟩

/-- Four times the mantissa and the two ends of the interval that reads back, in one unit. The
lower neighbour of a power of two is only half as far away. -/
def Binary.quarters (b : Binary) : Nat × Nat × Nat :=
  let below := if b.mantissa = 0x10000000000000 && b.exponent > -1074 then 1 else 2
  (4 * b.mantissa - below, 4 * b.mantissa, 4 * b.mantissa + 2)

/-- The unit of `quarters` as a fraction. -/
def Binary.unit (b : Binary) : Nat × Nat :=
  (Nat.pow 2 (b.exponent - 2).toNat, Nat.pow 2 (2 - b.exponent).toNat)

/-- The least count of digits before the point of `numerator / denominator`, negative for zeros
after the point. -/
def pointPosition (numerator denominator : Nat) : Int :=
  if denominator ≤ numerator then ((Nat.toDigits 10 (numerator / denominator)).length : Int)
  else match (List.range 400).find? fun j => denominator ≤ numerator * Nat.pow 10 (j + 1) with
    | some j => -(j : Int)
    | none => 0

/-- Drops zeros at the end of the digits. -/
def Scaled.trimZeros (s : Scaled) : Nat → Scaled
  | 0 => s
  | fuel + 1 =>
    if s.digits ≠ 0 ∧ s.digits % 10 = 0 then trimZeros ⟨s.digits / 10, s.exponent + 1⟩ fuel else s

/-- The number of whole units nearest to `numerator / denominator`; a half goes to the even
neighbour. -/
def roundToEven (numerator denominator : Nat) : Nat :=
  let floor := numerator / denominator
  let twice := 2 * (numerator - floor * denominator)
  if twice < denominator || (twice = denominator && floor % 2 = 0) then floor else floor + 1

/-- The decimal on the grid `10 ^ exponent` that reads back as `b` and is nearest to it. -/
def Binary.onGrid? (b : Binary) (exponent : Int) : Option Scaled :=
  let (low, middle, high) := b.quarters
  let up := b.unit.1 * Nat.pow 10 (-exponent).toNat
  let down := b.unit.2 * Nat.pow 10 exponent.toNat
  let reads (c : Nat) : Bool :=
    if b.mantissa % 2 = 0 then low * up ≤ c * down && c * down ≤ high * up
    else low * up < c * down && c * down < high * up
  let floor := middle * up / down
  let nearer := roundToEven (middle * up) down
  let farther := if nearer = floor then floor + 1 else floor
  if reads nearer then some ⟨nearer, exponent⟩
  else if reads farther then some ⟨farther, exponent⟩
  else none

/-- The shortest decimal that reads back as a positive number. -/
def Binary.shortest (b : Binary) : Scaled :=
  let point := pointPosition (4 * b.mantissa * b.unit.1) b.unit.2
  match (List.range 17).findSome? fun (n : Nat) => b.onGrid? (point - (n + 1)) with
  | some s => s.trimZeros 20
  | none => ⟨b.mantissa, 0⟩

end Bindery.Decimal
