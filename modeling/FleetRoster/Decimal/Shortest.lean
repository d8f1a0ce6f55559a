/-
The shortest decimal of a double: the coarsest power-of-ten grid that has a point among the reals
that round to it, and of that grid's points the nearest. A decimal with fewer digits would lie on
a coarser grid, so none reads back as the same double.
-/
namespace FleetRoster.Decimal

/-- A positive decimal: `digits · 10^power`. -/
structure Short where
  digits : Nat
  power : Int

/-- The finite positive double `mantissa · 2^exponent`. -/
structure Binary where
  mantissa : Nat
  exponent : Int

/-- The magnitude of a finite double, from its bits. -/
def Binary.ofBits (bits : UInt64) : Binary :=
  let fraction : Nat := bits.toNat % Nat.pow 2 52
  let biased : Nat := bits.toNat / Nat.pow 2 52 % Nat.pow 2 11
  if biased = 0 then ⟨fraction, -1074⟩ else ⟨Nat.pow 2 52 + fraction, (biased : Int) - 1075⟩

/-- The reals that round to `x`, in quarters of its last place: halfway to each neighbour, the
lower one being nearer when `x` is a power of two above the smallest normal. -/
def Binary.interval (x : Binary) : Nat × Nat :=
  let below := if x.mantissa = Nat.pow 2 52 ∧ -1074 < x.exponent then 1 else 2
  (4 * x.mantissa - below, 4 * x.mantissa + 2)

/-- `n` quarters of the last place of `x`, in units of `10^power`, as numerator and denominator. -/
def Binary.inUnits (x : Binary) (power : Int) (n : Nat) : Nat × Nat :=
  let twos := x.exponent - 2
  (n * Nat.pow 2 twos.toNat * Nat.pow 10 (-power).toNat,
    Nat.pow 2 (-twos).toNat * Nat.pow 10 power.toNat)

/-- Whether `c · 10^power` rounds to `x`; the ends of the interval do if the mantissa is even. -/
def Binary.holds (x : Binary) (power : Int) (c : Nat) : Bool :=
  let (low, den) := x.inUnits power x.interval.1
  let (high, _) := x.inUnits power x.interval.2
  if x.mantissa % 2 = 0 then low ≤ c * den && c * den ≤ high
  else low < c * den && c * den < high

/-- The point of the grid of `10^power` nearest to `x` among those that round to it. -/
def Binary.onGrid? (x : Binary) (power : Int) : Option Nat :=
  let (num, den) := x.inUnits power (4 * x.mantissa)
  let floor := num / den
  let remainder := num % den
  let upperFirst := den < 2 * remainder || (2 * remainder = den && floor % 2 = 1)
  let tries := if upperFirst then [floor + 1, floor] else [floor, floor + 1]
  tries.find? (x.holds power)

/-- Tries the grids of `10^top`, `10^(top - 1)`, … in turn. -/
def Binary.shortestFrom (x : Binary) : (grids : Nat) → (top : Int) → Option Short
  | 0, _ => none
  | grids + 1, top =>
    match x.onGrid? top with
    | some c => some ⟨c, top⟩
    | none => x.shortestFrom grids (top - 1)

/-- The shortest decimal of a finite double, none for zero; grids from `10^308` to `10^-324`
suffice. -/
def Binary.shortest? (x : Binary) : Option Short :=
  if x.mantissa = 0 then none else x.shortestFrom 633 308

/-- How a decimal is laid out: the least and the greatest leading exponent that is written without
an exponent part. -/
structure Layout where
  leastPositional : Int
  mostPositional : Int

/-- A positive decimal in a layout; a whole number written positionally ends in a point and a
zero. -/
def Layout.render (layout : Layout) (d : Short) : List Char :=
  let digits := Nat.toDigits 10 d.digits
  let lead : Int := d.power + digits.length - 1
  if layout.leastPositional ≤ lead ∧ lead ≤ layout.mostPositional then
    if lead < 0 then
      '0' :: '.' :: List.replicate (-lead - 1).toNat '0' ++ digits
    else if 0 ≤ d.power then
      digits ++ List.replicate d.power.toNat '0' ++ ['.', '0']
    else
      digits.take (lead.toNat + 1) ++ '.' :: digits.drop (lead.toNat + 1)
  else
    let fraction := if digits.length ≤ 1 then [] else '.' :: digits.drop 1
    let sign := if lead < 0 then ['-'] else ['+']
    digits.take 1 ++ fraction ++ 'e' :: sign ++ Nat.toDigits 10 lead.natAbs

/-- A finite double, given by its bits, in a layout; zero keeps its sign. -/
def Layout.renderBits (layout : Layout) (bits : UInt64) : List Char :=
  let sign := if bits.toNat / Nat.pow 2 63 = 1 then ['-'] else []
  match (Binary.ofBits bits).shortest? with
  | none => sign ++ ['0', '.', '0']
  | some d => sign ++ layout.render d

end FleetRoster.Decimal
