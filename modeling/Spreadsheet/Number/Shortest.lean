import Spreadsheet.Number.Decimal
import Spreadsheet.Number.Double

/-!
# Shortest Decimals

The decimal with the fewest digits that still denotes a given double.

The reals that round to a double form an interval, from halfway to the
neighbour below to halfway to the neighbour above. Its ends belong to it
exactly if the fraction of the double is even, since a tie goes to the even
neighbour. Any decimal in the interval reads back as the double; the one to
show has as few digits as possible and is the nearest of those.

The search goes through the grids of decimals with one digit, two digits, and
so on. If a grid has a point in the interval, one of the two grid points next
to the value is in it, so two candidates per grid suffice. All comparisons are
between natural numbers, with the value in quarters of a unit so that the ends
of the interval are whole.

## Main definitions

* `Shortest.readsBack`: Whether a decimal lies in the interval of a double.
* `Shortest.nearer?`: The decimal to take of two neighbours.
* `Shortest.onGrid?`: The decimal with a given last place that reads back.
* `shortest`: The decimal to show for a positive finite double.
-/

namespace Spreadsheet

namespace Shortest

/-- The lower end of the interval, in quarters of a unit. -/
def lowerEnd (x : Float) : Nat :=
  4 * Double.units x - (if Double.narrowBelow x then Double.gap x else 2 * Double.gap x)

/-- The upper end of the interval, in quarters of a unit. -/
def upperEnd (x : Float) : Nat := 4 * Double.units x + 2 * Double.gap x

/-- Whether the ends belong to the interval. -/
def closed (x : Float) : Bool := Double.fractionField x % 2 = 0

/-- How a decimal compares with a number of quarters of a unit. -/
def compareQuarters (d : Decimal) (quarters : Nat) : Ordering :=
  compare (d.coefficient * Nat.pow 10 d.exponent.toNat * (4 * Double.unitsPerOne))
    (quarters * Nat.pow 10 (-d.exponent).toNat)

/-- Whether a decimal rounds to the double. -/
def readsBack (x : Float) (d : Decimal) : Bool :=
  let low := compareQuarters d (lowerEnd x)
  let high := compareQuarters d (upperEnd x)
  (low == .gt || (closed x && low == .eq)) && (high == .lt || (closed x && high == .eq))

/-- The number of steps of `10 ^ place` below the value of a double. -/
def stepsBelow (x : Float) (place : Int) : Nat :=
  Double.units x * Nat.pow 10 (-place).toNat / (Double.unitsPerOne * Nat.pow 10 place.toNat)

/-- The decimal to take of two neighbours on a grid: one that reads back, of two
    the nearer, and of two equally near ones the even one. How the point halfway
    between them compares with the value tells which one is nearer. -/
def nearer? (below above : Decimal) (belowReads aboveReads : Bool) (halfway : Ordering) :
    Option Decimal :=
  match belowReads, aboveReads with
  | true, false => some below
  | false, true => some above
  | false, false => none
  | true, true =>
    match halfway with
    | .gt => some below
    | .lt => some above
    | .eq => some (if below.coefficient % 2 = 0 then below else above)

/-- The decimal whose last digit stands at `place`, next to the value, that
    reads back. -/
def onGrid? (x : Float) (place : Int) : Option Decimal :=
  let steps := stepsBelow x place
  let below : Decimal := ⟨steps, place⟩
  let above : Decimal := ⟨steps + 1, place⟩
  nearer? below above (readsBack x below) (readsBack x above)
    (compareQuarters ⟨2 * steps + 1, place⟩ (8 * Double.units x))

/-- The place of the first digit of a positive double. Scaled by `10 ^ 324`
    every positive double is at least one, so counting digits finds it. -/
def leadingPlace (x : Float) : Int :=
  ((Nat.toDigits 10 (stepsBelow x (-324))).length : Int) - 325

/-- The exact value of a double, as a decimal. -/
def exact (x : Float) : Decimal := ⟨Double.units x * Nat.pow 5 1074, -1074⟩

end Shortest

/-- The decimal with the fewest digits that reads back as a positive finite
    double, and the nearest of those. Seventeen digits are always enough. -/
def shortest (x : Float) : Decimal :=
  let first := Shortest.leadingPlace x
  let found := (List.range 17).findSome? fun (n : Nat) => Shortest.onGrid? x (first - (n : Int))
  (found.getD (Shortest.exact x)).normalize

end Spreadsheet
