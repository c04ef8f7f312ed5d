/-!
# The fewest digits that read back

A double stands for the interval of reals that round to it. `Magnitude.shortest`
picks from that interval a decimal with the fewest digits, and among those the
one nearest the double. All comparisons are exact, by cross-multiplied naturals.
-/

namespace GmlCheck

/-- The number `digits * 10 ^ exponent`. -/
structure Decimal where
  digits : Nat
  exponent : Int
  deriving DecidableEq, Repr

/-- Where a point halfway between two decimals goes. -/
inductive Tie where
  | toEven
  | away
  deriving DecidableEq, Repr

/-- The number `mantissa * 2 ^ exponent`, the size of a finite double. -/
structure Magnitude where
  mantissa : Nat
  exponent : Int
  /-- The double below is half as far away as the one above. -/
  narrowBelow : Bool
  deriving DecidableEq, Repr

namespace Decimal

/-- Compares a decimal with `m * 2 ^ q`. -/
def compareBinary (d : Decimal) (m : Nat) (q : Int) : Ordering :=
  compare (d.digits * Nat.pow 10 d.exponent.toNat * Nat.pow 2 (-q).toNat)
    (m * Nat.pow 2 q.toNat * Nat.pow 10 (-d.exponent).toNat)

/-- Moves the zeros at the end of the digits into the exponent; `fuel` bounds their number. -/
def stripZeros : (fuel : Nat) → Decimal → Decimal
  | 0, d => d
  | fuel + 1, d =>
    if d.digits ≠ 0 ∧ d.digits % 10 = 0 then stripZeros fuel ⟨d.digits / 10, d.exponent + 1⟩ else d

end Decimal

namespace Magnitude

/-- The size of the finite double with the given bits. -/
def ofBits (b : UInt64) : Magnitude :=
  let biased := ((b >>> 52) &&& 0x7FF).toNat
  let fraction := (b &&& 0xFFFFFFFFFFFFF).toNat
  if biased = 0 then ⟨fraction, -1074, false⟩
  else ⟨0x10000000000000 + fraction, (biased : Int) - 1075, fraction = 0 && biased > 1⟩

/-- The decimal lies among the reals that round to `x`: from half the gap below
to half the gap above, the ends included when the mantissa is even. -/
def covers (x : Magnitude) (d : Decimal) : Bool :=
  let low := d.compareBinary (4 * x.mantissa - if x.narrowBelow then 1 else 2) (x.exponent - 2)
  let high := d.compareBinary (4 * x.mantissa + 2) (x.exponent - 2)
  let closed := x.mantissa % 2 = 0
  (low = .gt || (closed && low = .eq)) && (high = .lt || (closed && high = .eq))

/-- The least `k` with `x < 10 ^ k`, for `x` other than zero: an estimate from the
binary length, off by one at most, put right by comparing. -/
def scale (x : Magnitude) : Int :=
  let guess := ((x.mantissa.log2 : Int) + x.exponent) * 30103 / 100000
  ([guess - 1, guess, guess + 1, guess + 2].find? fun k =>
    Decimal.compareBinary ⟨1, k⟩ x.mantissa x.exponent = .gt).getD (guess + 3)

/-- The nearer of the two neighbours of `x` on the grid `10 ^ grid` that read back, if any does. -/
def onGrid? (tie : Tie) (x : Magnitude) (grid : Int) : Option Decimal :=
  let num := x.mantissa * Nat.pow 2 x.exponent.toNat * Nat.pow 10 (-grid).toNat
  let den := Nat.pow 2 (-x.exponent).toNat * Nat.pow 10 grid.toNat
  let below : Decimal := ⟨num / den, grid⟩
  let above : Decimal := ⟨num / den + 1, grid⟩
  match x.covers below, x.covers above with
  | true, true =>
    match compare (2 * num) ((2 * below.digits + 1) * den) with
    | .lt => some below
    | .gt => some above
    | .eq =>
      if tie = .toEven && below.digits % 2 = 0 then some below else some above
  | true, false => some below
  | false, true => some above
  | false, false => none

/-- The exact value of `x` as a decimal. -/
def exact (x : Magnitude) : Decimal :=
  ⟨x.mantissa * Nat.pow 2 x.exponent.toNat * Nat.pow 5 (-x.exponent).toNat, min x.exponent 0⟩

/-- A shortest decimal that reads back as `x`, the nearest one among them: the
first hit on ever finer grids. Seventeen digits suffice for every double. -/
def shortest (tie : Tie) (x : Magnitude) : Decimal :=
  if x.mantissa = 0 then ⟨0, 0⟩
  else
    let k := x.scale
    let found := (List.range 17).findSome? fun (n : Nat) => x.onGrid? tie (k - (n + 1 : Nat))
    Decimal.stripZeros 400 (found.getD x.exact)

end Magnitude

/-- The size of a finite double. -/
def magnitude (x : Float) : Magnitude :=
  Magnitude.ofBits x.toBits

/-- The sign bit of a double. -/
def isNegative (x : Float) : Bool :=
  x.toBits >>> 63 == 1

end GmlCheck
